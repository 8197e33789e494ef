import Tmfqs.Storage.IStateBackend

/-!
# Folding over the visited chunks

What the visitors of `forEachAmplitudeChunk` compute, whatever the chunks are.
-/

namespace Tmfqs

open Library

namespace IsChunking

variable {R : Type} {visits : List (Nat × List R)} {v : List R} {base : Nat}

theorem flatMap_eq : forall {visits : List (Nat × List R)} {v : List R} {base : Nat},
    IsChunking base visits v -> visits.flatMap Prod.snd = v
  | [], _, _, h => h.symm
  | (begin_, data) :: rest, _, _, ⟨_, _, tail, hv, htail⟩ => by
      rw [List.flatMap_cons, flatMap_eq htail, hv]

theorem even_length : forall {visits : List (Nat × List R)} {v : List R} {base : Nat},
    IsChunking base visits v -> v.length % 2 = 0
  | [], _, _, h => by
      rw [show _ = [] from h]
      rfl
  | (begin_, data) :: rest, _, _, ⟨_, heven, tail, hv, htail⟩ => by
      have ih := even_length htail
      rw [hv, List.length_append]
      omega

theorem map_mapAmplitudes (f : Amplitude R -> Amplitude R) :
    forall {visits : List (Nat × List R)} {v : List R} {base : Nat}, IsChunking base visits v ->
      IsChunking base (visits.map fun visit => (visit.1, mapAmplitudes f visit.2))
        (mapAmplitudes f v)
  | [], _, _, h => by
      rw [show _ = [] from h]
      rfl
  | (begin_, data) :: rest, _, base, ⟨hbase, heven, tail, hv, htail⟩ => by
      have ih := map_mapAmplitudes f htail
      refine ⟨hbase, ?_, mapAmplitudes f tail, ?_, ?_⟩
      · change (mapAmplitudes f data).length % 2 = 0
        rw [length_mapAmplitudes]
        exact heven
      · rw [hv, mapAmplitudes_append f data tail heven]
      · change IsChunking (base + (mapAmplitudes f data).length / 2) _ _
        rw [length_mapAmplitudes]
        exact ih

theorem foldl_amplitudesOf {α : Type} (f : α -> Amplitude R -> α) :
    forall {visits : List (Nat × List R)} {v : List R} {base : Nat}, IsChunking base visits v ->
      forall start, visits.foldl (fun acc visit => (amplitudesOf visit.2).foldl f acc) start =
        (amplitudesOf v).foldl f start
  | [], _, _, h => by
      intro start
      rw [show _ = [] from h]
      rfl
  | (begin_, data) :: rest, _, _, ⟨_, heven, tail, hv, htail⟩ => by
      intro start
      rw [List.foldl_cons, foldl_amplitudesOf f htail, hv, amplitudesOf_append data tail heven,
        List.foldl_append]

end IsChunking

end Tmfqs
