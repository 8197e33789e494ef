import Mathlib.Tactic.Positivity
import Tmfqs.Storage.StrategyRegistry

/-!
# Settings of the codecs

The members of `config/register_config.h` that only the compressed backends read, and
the validation both codecs run on them when they are constructed.
-/

namespace Tmfqs

open Library

structure BloscConfig where
  chunkStates : Nat := 32768
  clevel : Int := 1
  nthreads : Int := 4
  compcode : Int := 1
  useShuffle : Bool := true
  gateCacheSlots : Nat := 8
deriving DecidableEq, Repr

/-- `none` is a `double` that is not finite. -/
structure ZfpConfig (R : Type) where
  rate : Option R
  precision : Nat := 40
  accuracy : Option R
  chunkStates : Nat := 32768
  nthreads : Int := 4
  gateCacheSlots : Nat := 8
deriving DecidableEq, Repr

structure CodecSettings (R : Type) where
  blosc : BloscConfig
  zfp : ZfpConfig R

variable {R σ : Type} [Field R] [LinearOrder R]

/-- The settings of a default `RegisterConfig`. -/
def CodecSettings.default : CodecSettings R :=
  { blosc := {}
    zfp :=
      { rate := some 32
        accuracy := some (1 / 10 ^ 8) } }

def int32Max : Nat :=
  2 ^ 31 - 1

def Accepts (validate : Call Unit Unit) : Prop :=
  validate () = (.ok (), ())

theorem accepts_check_iff {c : Prop} [Decidable c] {e : Exc} {rest : Call Unit Unit} :
    Accepts (do
      if c then
        throw e
      rest) <-> ¬ c ∧ Accepts rest := by
  by_cases hc : c
  · rw [if_pos hc]
    constructor
    · intro h
      cases h
    · rintro ⟨hnot, _⟩
      exact absurd hc hnot
  · rw [if_neg hc]
    exact ⟨fun h => ⟨hc, h⟩, fun h => h.2⟩

theorem accepts_last_check_iff {c : Prop} [Decidable c] {e : Exc} :
    Accepts (if c then throw e else pure ()) <-> ¬ c := by
  by_cases hc : c
  · rw [if_pos hc]
    constructor
    · intro h
      cases h
    · intro hnot
      exact absurd hc hnot
  · rw [if_neg hc]
    exact ⟨fun _ => hc, fun _ => rfl⟩

namespace BloscCodec

def validateConfig (cfg : RegisterConfig (CodecSettings R)) : Call σ Unit := do
  if cfg.settings.blosc.chunkStates = 0 then
    throw (invalidArgument "BloscCodec: chunkStates must be >= 1")
  if cfg.settings.blosc.clevel < 0 ∨ cfg.settings.blosc.clevel > 9 then
    throw (invalidArgument "BloscCodec: clevel must be in [0, 9]")
  if cfg.settings.blosc.nthreads ≤ 0 then
    throw (invalidArgument "BloscCodec: nthreads must be >= 1")
  if cfg.settings.blosc.gateCacheSlots < 2 then
    throw (invalidArgument "BloscCodec: gateCacheSlots must be >= 2")
  let maxElemsPerChunk := int32Max / StorageStrategyRegistry.sizeofDouble
  if u64 (cfg.settings.blosc.chunkStates * 2) > maxElemsPerChunk then
    throw (invalidArgument "BloscCodec: chunk payload exceeds int32 byte limits")

omit [Field R] [LinearOrder R] in
/-- The bound of the validation holds for the wrapped number of elements only. -/
theorem accepts_iff (cfg : RegisterConfig (CodecSettings R)) :
    Accepts (validateConfig cfg) <->
      1 ≤ cfg.settings.blosc.chunkStates ∧
        (0 ≤ cfg.settings.blosc.clevel ∧ cfg.settings.blosc.clevel ≤ 9) ∧
        1 ≤ cfg.settings.blosc.nthreads ∧ 2 ≤ cfg.settings.blosc.gateCacheSlots ∧
        8 * u64 (2 * cfg.settings.blosc.chunkStates) < 2 ^ 31 := by
  have hmax : int32Max / StorageStrategyRegistry.sizeofDouble = 2 ^ 28 - 1 := rfl
  rw [validateConfig, accepts_check_iff, accepts_check_iff, accepts_check_iff, accepts_check_iff,
    accepts_last_check_iff, hmax, Nat.mul_comm _ 2]
  omega

end BloscCodec

namespace ZfpCodec

/-- Whether a `double` is finite and positive. -/
def isPositive (x : Option R) : Bool :=
  match x with
  | some x => decide (0 < x)
  | none => false

def validateConfig (cfg : RegisterConfig (CodecSettings R)) : Call σ Unit := do
  if isPositive cfg.settings.zfp.rate = false then
    throw (invalidArgument "ZfpCodec: rate must be a finite value > 0")
  if cfg.settings.zfp.precision = 0 ∨ cfg.settings.zfp.precision > 64 then
    throw (invalidArgument "ZfpCodec: precision must be in [1, 64]")
  if isPositive cfg.settings.zfp.accuracy = false then
    throw (invalidArgument "ZfpCodec: accuracy must be a finite value > 0")
  if cfg.settings.zfp.chunkStates = 0 then
    throw (invalidArgument "ZfpCodec: chunkStates must be >= 1")
  if cfg.settings.zfp.nthreads ≤ 0 then
    throw (invalidArgument "ZfpCodec: nthreads must be >= 1")
  if cfg.settings.zfp.gateCacheSlots < 2 then
    throw (invalidArgument "ZfpCodec: gateCacheSlots must be >= 2")

theorem accepts_iff (cfg : RegisterConfig (CodecSettings R)) :
    Accepts (validateConfig cfg) <->
      isPositive cfg.settings.zfp.rate = true ∧
        (1 ≤ cfg.settings.zfp.precision ∧ cfg.settings.zfp.precision ≤ 64) ∧
        isPositive cfg.settings.zfp.accuracy = true ∧ 1 ≤ cfg.settings.zfp.chunkStates ∧
        1 ≤ cfg.settings.zfp.nthreads ∧ 2 ≤ cfg.settings.zfp.gateCacheSlots := by
  have hprecision : ¬ (cfg.settings.zfp.precision = 0 ∨ cfg.settings.zfp.precision > 64) <->
      1 ≤ cfg.settings.zfp.precision ∧ cfg.settings.zfp.precision ≤ 64 := by omega
  have hchunk : ¬ cfg.settings.zfp.chunkStates = 0 <-> 1 ≤ cfg.settings.zfp.chunkStates := by
    omega
  have hthreads : ¬ cfg.settings.zfp.nthreads ≤ 0 <-> 1 ≤ cfg.settings.zfp.nthreads := by omega
  rw [validateConfig, accepts_check_iff, accepts_check_iff, accepts_check_iff, accepts_check_iff,
    accepts_check_iff, accepts_last_check_iff, Bool.not_eq_false, Bool.not_eq_false, hprecision,
    hchunk, hthreads, Nat.not_lt]

end ZfpCodec

theorem default_accepted [IsStrictOrderedRing R] (strategy : StorageStrategyKind)
    (autoThresholdBytes : Nat) :
    Accepts (BloscCodec.validateConfig
        (R := R) ⟨strategy, autoThresholdBytes, CodecSettings.default⟩) ∧
      Accepts (ZfpCodec.validateConfig
        (R := R) ⟨strategy, autoThresholdBytes, CodecSettings.default⟩) := by
  rw [BloscCodec.accepts_iff, ZfpCodec.accepts_iff]
  have hrate : (0 : R) < 32 := by norm_num
  have haccuracy : (0 : R) < 1 / 10 ^ 8 := by positivity
  have hblosc : 1 ≤ 32768 ∧ ((0 : Int) ≤ 1 ∧ (1 : Int) ≤ 9) ∧ (1 : Int) ≤ 4 ∧ 2 ≤ 8 ∧
      8 * u64 (2 * 32768) < 2 ^ 31 := by decide
  have hprecision : 1 ≤ 40 ∧ 40 ≤ 64 := by decide
  have hsizes : 1 ≤ 32768 ∧ (1 : Int) ≤ 4 ∧ 2 ≤ 8 := by decide
  exact ⟨hblosc, decide_eq_true hrate, hprecision, decide_eq_true haccuracy, hsizes⟩

end Tmfqs
