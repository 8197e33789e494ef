import Mathlib.Data.List.Basic

/-!
# Rows of cells

Texts of lines, and lines of cells between commas.  A text is split back into the cells it was
put together from, as long as no cell holds a separator.
-/

namespace Tmfqs
namespace Library
namespace Csv

def Cell (text : List Char) : Prop :=
  ',' ∉ text ∧ '\n' ∉ text

theorem cell_nil : Cell [] :=
  ⟨List.not_mem_nil, List.not_mem_nil⟩

def rowText (row : List (List Char)) : List Char :=
  [','].intercalate row

theorem splitOn_lines {lines : List (List Char)} (h : forall line, line ∈ lines -> '\n' ∉ line) :
    (lines.flatMap fun line => line ++ ['\n']).splitOn '\n' = lines ++ [[]] := by
  induction lines with
  | nil => rfl
  | cons line rest ih =>
      rw [List.flatMap_cons, List.append_assoc, List.singleton_append,
        List.splitOn_append_cons_self_of_not_mem (h line List.mem_cons_self),
        ih fun line' hline => h line' (List.mem_cons_of_mem line hline), List.cons_append]

theorem splitOn_rowText {row : List (List Char)} (hne : row ≠ [])
    (hrow : forall cell, cell ∈ row -> Cell cell) : (rowText row).splitOn ',' = row :=
  List.splitOn_intercalate ',' (fun cell hcell => (hrow cell hcell).1) hne

theorem newline_rowText {row : List (List Char)} (hrow : forall cell, cell ∈ row -> Cell cell) :
    '\n' ∉ rowText row := by
  induction row with
  | nil => exact List.not_mem_nil
  | cons cell rest ih =>
      have hcell := (hrow cell List.mem_cons_self).2
      have hrest := ih fun cell' hcell' => hrow cell' (List.mem_cons_of_mem cell hcell')
      cases rest with
      | nil => rwa [rowText, List.intercalate_singleton]
      | cons cell' rest' =>
          rw [rowText, List.intercalate_cons_cons, ← rowText]
          intro hmem
          rcases List.mem_append.mp hmem with h | h
          · rcases List.mem_append.mp h with h | h
            · exact hcell h
            · exact absurd (List.mem_singleton.mp h) (by decide)
          · exact hrest h

end Csv
end Library
end Tmfqs
