import Mathlib.Data.List.Basic

/-!
# Reading JSON text

A reader for JSON values, and rules that say what it reads: for a truth value, a number, a
string, and the text of a list or an object put together from the texts of its parts.  Numbers
are kept as their text; `null` and the escapes by code point are left out.
-/

namespace Tmfqs
namespace Library

inductive Json where
  | bool (value : Bool)
  | number (text : List Char)
  | string (chars : List Char)
  | array (items : List Json)
  | object (members : List (List Char × Json))

namespace Json

/-!
## The reader
-/

def isSpace (c : Char) : Bool :=
  c == ' ' || c == '\n' || c == '\r' || c == '\t'

def isNumeric (c : Char) : Bool :=
  c.isDigit || c == '-' || c == '+' || c == '.' || c == 'e' || c == 'E'

/-- The first character that is no space, and the text after it. -/
def next (text : List Char) : Option (Char × List Char) :=
  match text.dropWhile isSpace with
  | [] => none
  | c :: rest => some (c, rest)

/-- The character an escape sequence stands for. -/
def unescape (c : Char) : Option Char :=
  if c = '"' ∨ c = '\\' ∨ c = '/' then some c
  else if c = 'n' then some '\n'
  else if c = 'r' then some '\r'
  else if c = 't' then some '\t'
  else if c = 'b' then some '\x08'
  else if c = 'f' then some '\x0c'
  else none

def readString : List Char -> Option (List Char × List Char)
  | [] => none
  | c :: rest =>
      if c = '"' then
        some ([], rest)
      else if c = '\\' then
        match rest with
        | [] => none
        | escaped :: rest' =>
            (unescape escaped).bind fun c' =>
              (readString rest').map fun p => (c' :: p.1, p.2)
      else if c.toNat < 32 then
        none
      else
        (readString rest).map fun p => (c :: p.1, p.2)

def afterWord (word text : List Char) : Option (List Char) :=
  if word.isPrefixOf text then some (text.drop word.length) else none

def readWord (text : List Char) : Option (Json × List Char) :=
  ((afterWord "true".toList text).map fun rest => (.bool true, rest)).or
    ((afterWord "false".toList text).map fun rest => (.bool false, rest))

mutual

def readValue : Nat -> List Char -> Option (Json × List Char)
  | 0, _ => none
  | fuel + 1, text =>
      (next text).bind fun p =>
        if p.1 = '"' then
          (readString p.2).map fun q => (.string q.1, q.2)
        else if p.1 = '[' then
          ((readItems fuel p.2).map fun q => (.array q.1, q.2)).or
            ((next p.2).bind fun q => if q.1 = ']' then some (.array [], q.2) else none)
        else if p.1 = '\x7b' then
          ((readMembers fuel p.2).map fun q => (.object q.1, q.2)).or
            ((next p.2).bind fun q => if q.1 = '\x7d' then some (.object [], q.2) else none)
        else if isNumeric p.1 then
          some (.number ((p.1 :: p.2).takeWhile isNumeric), (p.1 :: p.2).dropWhile isNumeric)
        else
          readWord (p.1 :: p.2)

def readItems : Nat -> List Char -> Option (List Json × List Char)
  | 0, _ => none
  | fuel + 1, text =>
      (readValue fuel text).bind fun p =>
        (next p.2).bind fun q =>
          if q.1 = ',' then
            (readItems fuel q.2).map fun r => (p.1 :: r.1, r.2)
          else if q.1 = ']' then
            some ([p.1], q.2)
          else
            none

def readMembers : Nat -> List Char -> Option (List (List Char × Json) × List Char)
  | 0, _ => none
  | fuel + 1, text =>
      (next text).bind fun p =>
        if p.1 = '"' then
          (readString p.2).bind fun key =>
            (next key.2).bind fun q =>
              if q.1 = ':' then
                (readValue fuel q.2).bind fun v =>
                  (next v.2).bind fun r =>
                    if r.1 = ',' then
                      (readMembers fuel r.2).map fun m => ((key.1, v.1) :: m.1, m.2)
                    else if r.1 = '\x7d' then
                      some ([(key.1, v.1)], r.2)
                    else
                      none
              else
                none
        else
          none

end

def read (text : List Char) : Option Json :=
  (readValue (text.length + 1) text).bind fun p =>
    if p.2.all isSpace then some p.1 else none

/-!
## Parts of a value
-/

def member (key : List Char) : Json -> Option Json
  | .object members => members.lookup key
  | _ => none

def asBool : Json -> Option Bool
  | .bool value => some value
  | _ => none

def asNumber : Json -> Option (List Char)
  | .number text => some text
  | _ => none

def asString : Json -> Option (List Char)
  | .string chars => some chars
  | _ => none

def asArray : Json -> Option (List Json)
  | .array items => some items
  | _ => none

/-!
## Spaces
-/

def Spaces (text : List Char) : Prop :=
  forall c, c ∈ text -> isSpace c = true

theorem spaces_nil : Spaces [] := by
  intro c hc
  cases hc

theorem spaces_of_all {text : List Char} (h : text.all isSpace = true) : Spaces text :=
  List.all_eq_true.mp h

theorem next_cons {c : Char} (hc : isSpace c = false) (rest : List Char) :
    next (c :: rest) = some (c, rest) := by
  rw [next, List.dropWhile_cons_of_neg (by rw [hc]; exact Bool.false_ne_true)]

theorem next_spaces {spaces : List Char} (hspaces : Spaces spaces) (text : List Char) :
    next (spaces ++ text) = next text := by
  induction spaces with
  | nil =>
      rfl
  | cons c rest ih =>
      have hc := hspaces c List.mem_cons_self
      rw [next, List.cons_append, List.dropWhile_cons_of_pos hc]
      exact ih fun c' hc' => hspaces c' (List.mem_cons_of_mem c hc')

theorem not_numeric_of_space {c : Char} (hc : isSpace c = true) : isNumeric c = false := by
  simp only [isSpace, Bool.or_eq_true, beq_iff_eq] at hc
  rcases hc with ((rfl | rfl) | rfl) | rfl <;> rfl

/-!
## What is read
-/

def Stops (rest : List Char) : Prop :=
  forall c, rest.head? = some c -> isNumeric c = false

theorem stops_nil : Stops [] := by
  intro c hc
  cases hc

theorem stops_cons {c : Char} (hc : isNumeric c = false) (rest : List Char) :
    Stops (c :: rest) := by
  intro c' hc'
  cases hc'
  exact hc

theorem stops_spaces {spaces rest : List Char} (hspaces : Spaces spaces) (hrest : Stops rest) :
    Stops (spaces ++ rest) := by
  cases spaces with
  | nil => exact hrest
  | cons c tail => exact stops_cons (not_numeric_of_space (hspaces c List.mem_cons_self)) _

/-- The text is that of the value, whatever follows. -/
def Reads (text : List Char) (value : Json) : Prop :=
  forall fuel rest, text.length < fuel -> Stops rest ->
    readValue fuel (text ++ rest) = some (value, rest)

def ReadsItems (text : List Char) (items : List Json) : Prop :=
  forall fuel rest, text.length < fuel -> readItems fuel (text ++ rest) = some (items, rest)

def ReadsMembers (text : List Char) (members : List (List Char × Json)) : Prop :=
  forall fuel rest, text.length < fuel -> readMembers fuel (text ++ rest) = some (members, rest)

/-- The text is that of the characters of a string, up to its closing quote. -/
def ReadsString (text chars : List Char) : Prop :=
  forall rest, readString (text ++ '"' :: rest) = some (chars, rest)

theorem readsString_nil : ReadsString [] [] := by
  intro rest
  rw [List.nil_append, readString.eq_def]
  dsimp only
  rw [if_pos rfl]

theorem ReadsString.plain {text chars : List Char} (h : ReadsString text chars) {c : Char}
    (hquote : c ≠ '"') (hescape : c ≠ '\\') (hcontrol : 32 ≤ c.toNat) :
    ReadsString (c :: text) (c :: chars) := by
  intro rest
  rw [List.cons_append, readString.eq_def]
  dsimp only
  rw [if_neg hquote, if_neg hescape, if_neg (by omega), h rest]
  rfl

theorem ReadsString.escaped {text chars : List Char} (h : ReadsString text chars) {c c' : Char}
    (hc : unescape c = some c') : ReadsString ('\\' :: c :: text) (c' :: chars) := by
  intro rest
  rw [List.cons_append, List.cons_append, readString.eq_def]
  dsimp only
  rw [if_neg (by decide), if_pos rfl, hc, Option.bind_some, h rest]
  rfl

theorem readsString_of_plain {name : List Char}
    (hname : forall c, c ∈ name -> c ≠ '"' ∧ c ≠ '\\' ∧ 32 ≤ c.toNat) : ReadsString name name := by
  induction name with
  | nil => exact readsString_nil
  | cons c rest ih =>
      have hc := hname c List.mem_cons_self
      exact (ih fun c' hc' => hname c' (List.mem_cons_of_mem c hc')).plain hc.1 hc.2.1 hc.2.2

theorem readsString_of_all {name : List Char}
    (h : name.all (fun c => decide (c ≠ '"' ∧ c ≠ '\\' ∧ 32 ≤ c.toNat)) = true) :
    ReadsString name name := by
  apply readsString_of_plain
  intro c hc
  exact of_decide_eq_true (List.all_eq_true.mp h c hc)

theorem Reads.spaces {spaces text : List Char} {value : Json} (h : Reads text value)
    (hspaces : Spaces spaces) : Reads (spaces ++ text) value := by
  intro fuel rest hfuel hrest
  have hlt : text.length < fuel := by
    rw [List.length_append] at hfuel
    omega
  cases fuel with
  | zero => omega
  | succ fuel =>
      rw [List.append_assoc, ← h (fuel + 1) rest hlt hrest, readValue, readValue,
        next_spaces hspaces]

theorem reads_number {text : List Char} (hne : text ≠ [])
    (hall : forall c, c ∈ text -> isNumeric c = true) : Reads text (.number text) := by
  intro fuel rest hfuel hrest
  cases fuel with
  | zero => omega
  | succ fuel =>
      cases text with
      | nil => exact absurd rfl hne
      | cons c digits =>
          have hc := hall c List.mem_cons_self
          have hspace : isSpace c = false := by
            by_contra h
            rw [not_numeric_of_space (eq_true_of_ne_false h)] at hc
            cases hc
          have hquote : c ≠ '"' := by
            rintro rfl
            cases hc
          have hbracket : c ≠ '[' := by
            rintro rfl
            cases hc
          have hbrace : c ≠ '\x7b' := by
            rintro rfl
            cases hc
          have htake : ((c :: digits) ++ rest).takeWhile isNumeric = c :: digits := by
            rw [List.takeWhile_append_of_pos hall]
            cases rest with
            | nil => rw [List.takeWhile_nil, List.append_nil]
            | cons d tail =>
                rw [List.takeWhile_cons_of_neg (by rw [hrest d rfl]; exact Bool.false_ne_true),
                  List.append_nil]
          have hdrop : ((c :: digits) ++ rest).dropWhile isNumeric = rest := by
            rw [List.dropWhile_append_of_pos hall]
            cases rest with
            | nil => rfl
            | cons d tail =>
                rw [List.dropWhile_cons_of_neg (by rw [hrest d rfl]; exact Bool.false_ne_true)]
          rw [readValue, List.cons_append, next_cons hspace, Option.bind_some]
          dsimp only
          rw [if_neg hquote, if_neg hbracket, if_neg hbrace, if_pos hc, ← List.cons_append, htake,
            hdrop]

theorem reads_bool (value : Bool) : Reads (if value then "true".toList else "false".toList)
    (.bool value) := by
  intro fuel rest hfuel _
  cases fuel with
  | zero => omega
  | succ fuel =>
      cases value with
      | false =>
          have hnext : next ("false".toList ++ rest) = some ('f', "alse".toList ++ rest) :=
            next_cons rfl _
          rw [if_neg Bool.false_ne_true, readValue, hnext]
          rfl
      | true =>
          have hnext : next ("true".toList ++ rest) = some ('t', "rue".toList ++ rest) :=
            next_cons rfl _
          rw [if_pos rfl, readValue, hnext]
          rfl

theorem reads_string {text chars : List Char} (h : ReadsString text chars) :
    Reads ('"' :: (text ++ ['"'])) (.string chars) := by
  intro fuel rest hfuel _
  cases fuel with
  | zero => omega
  | succ fuel =>
      rw [readValue, List.cons_append, next_cons rfl, Option.bind_some]
      dsimp only
      rw [if_pos rfl, List.append_assoc, List.singleton_append, h rest]
      rfl

/-!
## Lists
-/

theorem readsItems_last {text spaces : List Char} {value : Json} (h : Reads text value)
    (hspaces : Spaces spaces) : ReadsItems (text ++ (spaces ++ [']'])) [value] := by
  intro fuel rest hfuel
  simp only [List.length_append] at hfuel
  cases fuel with
  | zero => omega
  | succ fuel =>
      have hstops : Stops (spaces ++ ([']'] ++ rest)) := stops_spaces hspaces (stops_cons rfl rest)
      have hlt : text.length < fuel := by
        rw [List.length_singleton] at hfuel
        omega
      rw [readItems, List.append_assoc, List.append_assoc, h fuel _ hlt hstops, Option.bind_some,
        next_spaces hspaces, List.singleton_append, next_cons rfl, Option.bind_some]
      dsimp only
      rw [if_neg (by decide), if_pos rfl]

theorem readsItems_cons {text spaces more : List Char} {value : Json} {items : List Json}
    (h : Reads text value) (hspaces : Spaces spaces) (hmore : ReadsItems more items) :
    ReadsItems (text ++ (spaces ++ ',' :: more)) (value :: items) := by
  intro fuel rest hfuel
  simp only [List.length_append, List.length_cons] at hfuel
  cases fuel with
  | zero => omega
  | succ fuel =>
      have hstops : Stops (spaces ++ (',' :: more ++ rest)) :=
        stops_spaces hspaces (stops_cons rfl _)
      rw [readItems, List.append_assoc, List.append_assoc, h fuel _ (by omega) hstops,
        Option.bind_some, next_spaces hspaces, List.cons_append, next_cons rfl, Option.bind_some]
      dsimp only
      rw [if_pos rfl, hmore fuel rest (by omega)]
      rfl

theorem reads_array {text : List Char} {items : List Json} (h : ReadsItems text items) :
    Reads ('[' :: text) (.array items) := by
  intro fuel rest hfuel _
  cases fuel with
  | zero => omega
  | succ fuel =>
      rw [List.length_cons] at hfuel
      rw [readValue, List.cons_append, next_cons rfl, Option.bind_some]
      dsimp only
      rw [if_neg (by decide), if_pos rfl, h fuel rest (by omega)]
      rfl

theorem readValue_bracket (fuel : Nat) (rest : List Char) :
    readValue fuel (']' :: rest) = none := by
  cases fuel with
  | zero => rw [readValue]
  | succ fuel =>
      rw [readValue, next_cons rfl, Option.bind_some]
      dsimp only
      rw [if_neg (by decide), if_neg (by decide), if_neg (by decide), if_neg (by decide)]
      rfl

theorem reads_array_nil : Reads ['[', ']'] (.array []) := by
  intro fuel rest hfuel _
  cases fuel with
  | zero => omega
  | succ fuel =>
      have hitems : readItems fuel (']' :: rest) = none := by
        cases fuel with
        | zero => rw [readItems]
        | succ fuel => rw [readItems, readValue_bracket, Option.bind_none]
      rw [readValue, List.cons_append, next_cons rfl, Option.bind_some]
      dsimp only
      rw [if_neg (by decide), if_pos rfl, List.singleton_append, hitems, next_cons rfl]
      rfl

/-!
## Objects
-/

def keyText (spaces key text : List Char) : List Char :=
  spaces ++ '"' :: (key ++ '"' :: ':' :: text)

theorem length_keyText (spaces key text : List Char) :
    (keyText spaces key text).length = spaces.length + key.length + text.length + 3 := by
  simp only [keyText, List.length_append, List.length_cons]
  omega

theorem readMembers_key {spaces key chars : List Char} (hspaces : Spaces spaces)
    (hkey : ReadsString key chars) (fuel : Nat) (text : List Char) :
    readMembers (fuel + 1) (keyText spaces key text) =
      (readValue fuel text).bind fun v =>
        (next v.2).bind fun r =>
          if r.1 = ',' then
            (readMembers fuel r.2).map fun m => ((chars, v.1) :: m.1, m.2)
          else if r.1 = '\x7d' then
            some ([(chars, v.1)], r.2)
          else
            none := by
  rw [readMembers, keyText, next_spaces hspaces, next_cons rfl, Option.bind_some]
  dsimp only
  rw [if_pos rfl, hkey, Option.bind_some]
  dsimp only
  rw [next_cons rfl, Option.bind_some]
  dsimp only
  rw [if_pos rfl]

theorem keyText_append (spaces key text rest : List Char) :
    keyText spaces key text ++ rest = keyText spaces key (text ++ rest) := by
  simp only [keyText, List.append_assoc, List.cons_append]

theorem readsMembers_last {spaces key chars text after : List Char} {value : Json}
    (hspaces : Spaces spaces) (hkey : ReadsString key chars) (h : Reads text value)
    (hafter : Spaces after) :
    ReadsMembers (keyText spaces key (text ++ (after ++ ['\x7d']))) [(chars, value)] := by
  intro fuel rest hfuel
  simp only [length_keyText, List.length_append] at hfuel
  cases fuel with
  | zero => omega
  | succ fuel =>
      have hstops : Stops (after ++ (['\x7d'] ++ rest)) := stops_spaces hafter (stops_cons rfl rest)
      rw [keyText_append, readMembers_key hspaces hkey, List.append_assoc, List.append_assoc,
        h fuel _ (by omega) hstops, Option.bind_some, next_spaces hafter, List.singleton_append,
        next_cons rfl, Option.bind_some]
      dsimp only
      rw [if_neg (by decide), if_pos rfl]

theorem readsMembers_cons {spaces key chars text after more : List Char} {value : Json}
    {members : List (List Char × Json)} (hspaces : Spaces spaces) (hkey : ReadsString key chars)
    (h : Reads text value) (hafter : Spaces after) (hmore : ReadsMembers more members) :
    ReadsMembers (keyText spaces key (text ++ (after ++ ',' :: more)))
      ((chars, value) :: members) := by
  intro fuel rest hfuel
  simp only [length_keyText, List.length_append, List.length_cons] at hfuel
  cases fuel with
  | zero => omega
  | succ fuel =>
      have hstops : Stops (after ++ (',' :: more ++ rest)) := stops_spaces hafter (stops_cons rfl _)
      rw [keyText_append, readMembers_key hspaces hkey, List.append_assoc, List.append_assoc,
        h fuel _ (by omega) hstops, Option.bind_some, next_spaces hafter, List.cons_append,
        next_cons rfl, Option.bind_some]
      dsimp only
      rw [if_pos rfl, hmore fuel rest (by omega)]
      rfl

theorem reads_object {text : List Char} {members : List (List Char × Json)}
    (h : ReadsMembers text members) : Reads ('\x7b' :: text) (.object members) := by
  intro fuel rest hfuel _
  cases fuel with
  | zero => omega
  | succ fuel =>
      rw [List.length_cons] at hfuel
      rw [readValue, List.cons_append, next_cons rfl, Option.bind_some]
      dsimp only
      rw [if_neg (by decide), if_neg (by decide), if_pos rfl, h fuel rest (by omega)]
      rfl

/-!
## Whole texts
-/

theorem read_of_reads {text spaces : List Char} {value : Json} (h : Reads text value)
    (hspaces : Spaces spaces) : read (text ++ spaces) = some value := by
  have hstops : Stops spaces := by
    rw [← List.append_nil spaces]
    exact stops_spaces hspaces stops_nil
  have hall : spaces.all isSpace = true := List.all_eq_true.mpr hspaces
  rw [read, h _ spaces (by rw [List.length_append]; omega) hstops, Option.bind_some]
  dsimp only
  rw [if_pos hall]

end Json

end Library
end Tmfqs
