import Mathlib.Logic.Function.Basic
import Tmfqs.Core.Amplitudes
import Tmfqs.Storage.ChunkLayout

/-!
# State vectors cut into chunks

A chunk is an interval of the interleaved vector.  Accesses to one amplitude are
accesses to its chunk, and whole-vector loops run chunk by chunk.
-/

namespace Tmfqs

variable {R : Type}

def chunkOf (k : Nat) (v : List R) (c : Nat) : List R :=
  (v.drop (c * (2 * k))).take (2 * k)

section Slices

variable {k : Nat} {v : List R}

theorem getElem?_chunkOf (c i : Nat) :
    (chunkOf k v c)[i]? = if i < 2 * k then v[c * (2 * k) + i]? else none := by
  rw [chunkOf, List.getElem?_take, List.getElem?_drop]

theorem length_chunkOf (c : Nat) :
    (chunkOf k v c).length = min (2 * k) (v.length - c * (2 * k)) := by
  rw [chunkOf, List.length_take, List.length_drop]

theorem length_chunkOf_mod_two (hv : v.length % 2 = 0) (c : Nat) :
    (chunkOf k v c).length % 2 = 0 := by
  have hmul : c * (2 * k) = 2 * (c * k) := Nat.mul_left_comm c 2 k
  rw [length_chunkOf, hmul]
  omega

theorem length_chunkOf_eq {layout : ChunkLayout} {N : Nat} (h : layout.Exact N k)
    (hv : v.length = 2 * N) (c : Nat) : (chunkOf k v c).length = 2 * layout.statesIn c := by
  have hmul : c * (2 * k) = 2 * (c * k) := Nat.mul_left_comm c 2 k
  rw [length_chunkOf, h.statesIn_eq, hv, hmul]
  omega

theorem flatMap_chunkOf (c : Nat) :
    (List.range c).flatMap (chunkOf k v) = v.take (c * (2 * k)) := by
  induction c with
  | zero => simp
  | succ c ih =>
      rw [List.range_succ, List.flatMap_append, ih, List.flatMap_singleton, chunkOf,
        ← List.take_add, ← Nat.succ_mul]

theorem take_all_chunks {layout : ChunkLayout} {N : Nat} (h : layout.Exact N k)
    (hv : v.length = 2 * N) : v.take (layout.chunkCount * (2 * k)) = v := by
  have hend : ¬ layout.chunkCount * k < N := by
    rw [← h.lt_chunkCount_iff]
    exact Nat.lt_irrefl _
  have hmul : layout.chunkCount * (2 * k) = 2 * (layout.chunkCount * k) :=
    Nat.mul_left_comm _ 2 k
  rw [List.take_of_length_le]
  omega

theorem flatMap_chunkOf_all {layout : ChunkLayout} {N : Nat} (h : layout.Exact N k)
    (hv : v.length = 2 * N) :
    (List.range layout.chunkCount).flatMap (chunkOf k v) = v := by
  rw [flatMap_chunkOf, take_all_chunks h hv]

theorem sum_statesIn {layout : ChunkLayout} {N : Nat} (h : layout.Exact N k) :
    ((List.range layout.chunkCount).map fun c => 2 * layout.statesIn c).sum = 2 * N := by
  have hv : (List.replicate (2 * N) ()).length = 2 * N := List.length_replicate
  have hlength : forall c, (chunkOf k (List.replicate (2 * N) ()) c).length =
      2 * layout.statesIn c := length_chunkOf_eq h hv
  have hall := congrArg List.length (flatMap_chunkOf_all h hv)
  rw [List.length_flatMap, hv] at hall
  simpa only [hlength] using hall

theorem take_succ_chunk (c : Nat) :
    v.take ((c + 1) * (2 * k)) = v.take (c * (2 * k)) ++ chunkOf k v c := by
  rw [chunkOf, ← List.take_add, ← Nat.succ_mul]

theorem length_take_chunks_mod_two (hv : v.length % 2 = 0) (c : Nat) :
    (v.take (c * (2 * k))).length % 2 = 0 := by
  have hmul : c * (2 * k) = 2 * (c * k) := Nat.mul_left_comm c 2 k
  rw [List.length_take, hmul]
  omega

theorem amplitudesOf_take_succ (hv : v.length % 2 = 0) (c : Nat) :
    amplitudesOf (v.take ((c + 1) * (2 * k))) =
      amplitudesOf (v.take (c * (2 * k))) ++ amplitudesOf (chunkOf k v c) := by
  rw [take_succ_chunk, amplitudesOf_append _ _ (length_take_chunks_mod_two hv c)]

theorem chunkOf_replicate {layout : ChunkLayout} {N : Nat} (h : layout.Exact N k)
    (x : R) (c : Nat) :
    chunkOf k (List.replicate (2 * N) x) c = List.replicate (2 * layout.statesIn c) x := by
  have hmul : c * (2 * k) = 2 * (c * k) := Nat.mul_left_comm c 2 k
  rw [chunkOf, List.drop_replicate, List.take_replicate, h.statesIn_eq, hmul]
  congr 1
  omega

theorem mapAmplitudes_take (f : Amplitude R -> Amplitude R) {m : Nat} (hm : m % 2 = 0) :
    mapAmplitudes f (v.take m) = (mapAmplitudes f v).take m := by
  by_cases hle : m ≤ v.length
  · have hsplit : mapAmplitudes f v =
        mapAmplitudes f (v.take m) ++ mapAmplitudes f (v.drop m) := by
      rw [← mapAmplitudes_append f (v.take m) (v.drop m)
        (by rw [List.length_take, Nat.min_eq_left hle]; exact hm), List.take_append_drop]
    rw [hsplit, List.take_left' (by simp [hle])]
  · rw [List.take_of_length_le (by omega), List.take_of_length_le (by simp; omega)]

theorem mapAmplitudes_drop (f : Amplitude R -> Amplitude R) {m : Nat} (hm : m % 2 = 0) :
    mapAmplitudes f (v.drop m) = (mapAmplitudes f v).drop m := by
  by_cases hle : m ≤ v.length
  · have hsplit : mapAmplitudes f v =
        mapAmplitudes f (v.take m) ++ mapAmplitudes f (v.drop m) := by
      rw [← mapAmplitudes_append f (v.take m) (v.drop m)
        (by rw [List.length_take, Nat.min_eq_left hle]; exact hm), List.take_append_drop]
    rw [hsplit, List.drop_left' (by simp [hle])]
  · rw [List.drop_of_length_le (by omega), List.drop_of_length_le (by simp; omega)]
    rfl

theorem chunkOf_mapAmplitudes (f : Amplitude R -> Amplitude R) (c : Nat) :
    chunkOf k (mapAmplitudes f v) c = mapAmplitudes f (chunkOf k v c) := by
  have hmul : c * (2 * k) = 2 * (c * k) := Nat.mul_left_comm c 2 k
  rw [chunkOf, chunkOf, mapAmplitudes_take f (by omega),
    mapAmplitudes_drop f (by rw [hmul]; omega)]

end Slices

/-!
## One amplitude
-/

section Access

variable {k : Nat} (hk : 0 < k)
include hk

omit hk in
theorem elem_split (s : Nat) : 2 * s = s / k * (2 * k) + 2 * (s % k) := by
  have hdiv := Nat.div_add_mod s k
  calc
    2 * s = 2 * (k * (s / k) + s % k) := by rw [hdiv]
    _ = s / k * (2 * k) + 2 * (s % k) := by
        rw [Nat.mul_add, Nat.mul_comm (s / k), Nat.mul_assoc]

theorem readAmp_chunkOf [Field R] (v : List R) (s : Nat) :
    readAmp (chunkOf k v (s / k)) (2 * (s % k)) = ampAt v s := by
  have hmod := Nat.mod_lt s hk
  have helem := elem_split (k := k) s
  apply Amplitude.eq_of_parts
  · simp only [readAmp, ampAt, List.getD_eq_getElem?_getD, getElem?_chunkOf]
    rw [if_pos (by omega), helem]
  · simp only [readAmp, ampAt, List.getD_eq_getElem?_getD, getElem?_chunkOf]
    rw [if_pos (by omega), helem, Nat.add_assoc]

theorem ampAt_chunkOf [Field R] (v : List R) (c : Nat) {i : Nat} (hi : i < k) :
    ampAt (chunkOf k v c) i = ampAt v (c * k + i) := by
  have hread := readAmp_chunkOf hk v (c * k + i)
  rw [Nat.mul_comm, Nat.mul_add_div hk, Nat.div_eq_of_lt hi, Nat.add_zero, Nat.mul_add_mod,
    Nat.mod_eq_of_lt hi] at hread
  rw [Nat.mul_comm, ← hread]
  rfl

theorem chunkOf_setAmp (v : List R) (s : Nat) (a : Amplitude R) :
    chunkOf k (setAmp v s a) = Function.update (chunkOf k v) (s / k)
      (writeAmp (chunkOf k v (s / k)) (2 * (s % k)) a) := by
  have hmod := Nat.mod_lt s hk
  have helem := elem_split (k := k) s
  funext c
  apply List.ext_getElem?
  intro i
  have hset : forall (l : List R) (j m : Nat) (x : R),
      (l.set j x)[m]? = if j = m then (if j < l.length then some x else none) else l[m]? :=
    fun l j m x => List.getElem?_set
  by_cases hc : c = s / k
  · subst hc
    rw [Function.update_self]
    simp only [setAmp, writeAmp, getElem?_chunkOf, hset, List.length_set, length_chunkOf]
    by_cases hi : i < 2 * k
    · simp only [hi, if_true]
      by_cases h1 : 2 * s + 1 = s / k * (2 * k) + i
      · have h1' : 2 * (s % k) + 1 = i := by omega
        rw [if_pos h1, if_pos h1']
        by_cases hlt : 2 * s + 1 < v.length
        · rw [if_pos hlt, if_pos (by omega)]
        · rw [if_neg hlt, if_neg (by omega)]
      · have h1' : ¬ 2 * (s % k) + 1 = i := by omega
        rw [if_neg h1, if_neg h1']
        by_cases h0 : 2 * s = s / k * (2 * k) + i
        · have h0' : 2 * (s % k) = i := by omega
          rw [if_pos h0, if_pos h0']
          by_cases hlt : 2 * s < v.length
          · rw [if_pos hlt, if_pos (by omega)]
          · rw [if_neg hlt, if_neg (by omega)]
        · have h0' : ¬ 2 * (s % k) = i := by omega
          rw [if_neg h0, if_neg h0']
    · have hi1 : ¬ 2 * (s % k) + 1 = i := by omega
      have hi0 : ¬ 2 * (s % k) = i := by omega
      rw [if_neg hi, if_neg hi1, if_neg hi0, if_neg hi]
  · rw [Function.update_of_ne hc]
    simp only [setAmp, writeAmp, getElem?_chunkOf, hset, List.length_set]
    by_cases hi : i < 2 * k
    · simp only [hi, if_true]
      have hne : forall j, j < 2 * k -> s / k * (2 * k) + j ≠ c * (2 * k) + i := by
        intro j hj heq
        apply hc
        have hleft : (s / k * (2 * k) + j) / (2 * k) = s / k := by
          rw [Nat.mul_comm, Nat.mul_add_div (by omega), Nat.div_eq_of_lt hj, Nat.add_zero]
        have hright : (c * (2 * k) + i) / (2 * k) = c := by
          rw [Nat.mul_comm, Nat.mul_add_div (by omega), Nat.div_eq_of_lt hi, Nat.add_zero]
        rw [← hleft, heq, hright]
      have h1 : ¬ 2 * s + 1 = c * (2 * k) + i := by
        intro heq
        exact hne (2 * (s % k) + 1) (by omega) (by omega)
      have h0 : ¬ 2 * s = c * (2 * k) + i := by
        intro heq
        exact hne (2 * (s % k)) (by omega) (by omega)
      rw [if_neg h1, if_neg h0]
    · rw [if_neg hi, if_neg hi]

end Access

end Tmfqs
