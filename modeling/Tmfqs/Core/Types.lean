import Mathlib.Algebra.Field.Defs
import Mathlib.Analysis.SpecialFunctions.Trigonometric.Basic
import Mathlib.Analysis.SpecialFunctions.Complex.Arg
import Tmfqs.Library.Call

/-!
# Core value types

Machine integers are natural numbers cut to their width where a value can reach
it.  Floating-point values live in an arbitrary field: the code is read in exact
arithmetic, and the functions of `<cmath>` are operations of that field.
-/

namespace Tmfqs

/-- Value of an `unsigned int` expression. -/
def u32 (x : Nat) : Nat :=
  x % 2 ^ 32

/-- Value of a `size_t`, `StateIndex` or `std::uint64_t` expression. -/
def u64 (x : Nat) : Nat :=
  x % 2 ^ 64

theorem u32_of_lt {x : Nat} (h : x < 2 ^ 32) : u32 x = x :=
  Nat.mod_eq_of_lt h

theorem u64_of_lt {x : Nat} (h : x < 2 ^ 64) : u64 x = x :=
  Nat.mod_eq_of_lt h

/-! The numerals of the constants in the code, for any field. -/

instance atLeastTwo_two : Nat.AtLeastTwo 2 :=
  ⟨Nat.le_refl 2⟩

instance atLeastTwo_four : Nat.AtLeastTwo 4 :=
  ⟨by decide⟩

instance atLeastTwo_ten : Nat.AtLeastTwo 10 :=
  ⟨by decide⟩

/-- The functions and constants of `<cmath>` and `core/constants.h`. -/
class CMath (R : Type) where
  sqrt : R -> R
  exp : R -> R
  cos : R -> R
  sin : R -> R
  atan2 : R -> R -> R
  floor : R -> Int
  kPi : R

noncomputable instance : CMath Real where
  sqrt := Real.sqrt
  exp := Real.exp
  cos := Real.cos
  sin := Real.sin
  atan2 y x := Complex.arg ⟨x, y⟩
  floor := Int.floor
  kPi := Real.pi

/-- Complex amplitude stored as separate real and imaginary parts. -/
structure Amplitude (R : Type) where
  real : R
  imag : R
deriving DecidableEq, Repr

/-!
## Exceptions
-/

/--
The standard exception classes the code throws.  `noReturn` stands for a loop
that never ends; it is no C++ exception.
-/
inductive ExcKind where
  | invalidArgument
  | outOfRange
  | logicError
  | runtimeError
  | noReturn
deriving DecidableEq, Repr

/-- The classes that report an unusable argument. -/
def ExcKind.rejection : ExcKind -> Bool
  | .invalidArgument => true
  | .outOfRange => true
  | _ => false

/-- A thrown exception with its message. -/
structure Exc where
  kind : ExcKind
  what : String
deriving DecidableEq, Repr

abbrev Call (σ α : Type) : Type :=
  Library.Call Exc σ α

def invalidArgument (what : String) : Exc :=
  { kind := .invalidArgument, what := what }

def outOfRange (what : String) : Exc :=
  { kind := .outOfRange, what := what }

def logicError (what : String) : Exc :=
  { kind := .logicError, what := what }

def runtimeError (what : String) : Exc :=
  { kind := .runtimeError, what := what }

def noReturn : Exc :=
  { kind := .noReturn, what := "" }

/-!
## Amplitude arithmetic
-/

namespace Amplitude

variable {R : Type} [Field R]

/-- `addAmplitude`, `amplitudeAdd`. -/
def add (lhs rhs : Amplitude R) : Amplitude R :=
  { real := lhs.real + rhs.real, imag := lhs.imag + rhs.imag }

/-- `subAmplitude`. -/
def sub (lhs rhs : Amplitude R) : Amplitude R :=
  { real := lhs.real - rhs.real, imag := lhs.imag - rhs.imag }

/-- `negateAmplitude`. -/
def negate (amplitude : Amplitude R) : Amplitude R :=
  { real := -amplitude.real, imag := -amplitude.imag }

/-- `scaleAmplitude`. -/
def scale (amplitude : Amplitude R) (scalar : R) : Amplitude R :=
  { real := amplitude.real * scalar, imag := amplitude.imag * scalar }

/-- `multiplyAmplitude`, `amplitudeMultiply`. -/
def multiply (lhs rhs : Amplitude R) : Amplitude R :=
  { real := lhs.real * rhs.real - lhs.imag * rhs.imag
    imag := lhs.real * rhs.imag + lhs.imag * rhs.real }

/-- `probabilityOf`. -/
def probability (amplitude : Amplitude R) : R :=
  amplitude.real * amplitude.real + amplitude.imag * amplitude.imag

def zero : Amplitude R :=
  { real := 0, imag := 0 }

omit [Field R] in
theorem eq_of_parts {a b : Amplitude R} (hreal : a.real = b.real)
    (himag : a.imag = b.imag) : a = b := by
  cases a
  cases b
  simp_all

end Amplitude

def complexExp {R : Type} [Field R] [CMath R] (exponent : Amplitude R) :
    Amplitude R :=
  let scale := CMath.exp exponent.real
  { real := scale * CMath.cos exponent.imag
    imag := scale * CMath.sin exponent.imag }

end Tmfqs
