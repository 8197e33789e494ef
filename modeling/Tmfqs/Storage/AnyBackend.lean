import Tmfqs.Storage.ShownVector

/-!
# Backends of several classes

A pointer to `IStateBackend` holds an object of one of the classes that implement it, and
every call goes to the object that is there.
-/

namespace Tmfqs

open Library

section Dispatch

variable {ι α δ : Type} {β : ι -> Type}

def dispatch (x : forall c, Call (β c) α) : Call (Sigma β) α :=
  fun s => ((x s.1 s.2).1, ⟨s.1, (x s.1 s.2).2⟩)

variable {x : forall c, Call (β c) α} {c : ι} {b : β c}

theorem dispatch_bind (x : forall c, Call (β c) α) (f : α -> δ) :
    (dispatch x >>= fun a => pure (f a)) = dispatch fun c => x c >>= fun a => pure (f a) := by
  funext s
  rw [Call.bind_apply, dispatch, dispatch, Call.bind_apply]
  rcases x s.1 s.2 with ⟨r, b⟩
  cases r with
  | ok a => rfl
  | error e => rfl

theorem post_dispatch_iff {Q : α -> Sigma β -> Prop} {E : Exc -> Sigma β -> Prop} :
    Call.Post (dispatch x) ⟨c, b⟩ Q E <->
      Call.Post (x c) b (fun a b' => Q a ⟨c, b'⟩) (fun e b' => E e ⟨c, b'⟩) := by
  unfold Call.Post
  rw [dispatch]
  rcases x c b with ⟨r, b'⟩
  cases r with
  | ok a => exact Iff.rfl
  | error e => exact Iff.rfl

theorem rejects_dispatch (h : Rejects (x c) b) : Rejects (dispatch x) ⟨c, b⟩ := by
  rcases h with ⟨e, he, hkind⟩
  refine ⟨e, ?_, hkind⟩
  rw [dispatch, he]

end Dispatch

section Calls

variable {ι R : Type} {β : ι -> Type} [forall c, IStateBackend R (β c)]

instance : IStateBackend R (Sigma β) where
  clone b := ⟨b.1, IStateBackend.clone b.2⟩
  initZero n := dispatch fun _ => IStateBackend.initZero n
  initBasis n s amp := dispatch fun _ => IStateBackend.initBasis n s amp
  initUniformSuperposition n states :=
    dispatch fun _ => IStateBackend.initUniformSuperposition n states
  loadAmplitudes n data := dispatch fun _ => IStateBackend.loadAmplitudes n data
  exportAmplitudes := dispatch fun _ => IStateBackend.exportAmplitudes
  forEachAmplitudeChunk := dispatch fun _ => IStateBackend.forEachAmplitudeChunk
  amplitude s := dispatch fun _ => IStateBackend.amplitude s
  setAmplitude s amp := dispatch fun _ => IStateBackend.setAmplitude s amp
  probability s := dispatch fun _ => IStateBackend.probability s
  totalProbability := dispatch fun _ => IStateBackend.totalProbability
  sampleMeasurement rnd := dispatch fun _ => IStateBackend.sampleMeasurement rnd
  printNonZeroStates epsilon := dispatch fun _ => IStateBackend.printNonZeroStates epsilon
  phaseFlipBasisState s := dispatch fun _ => IStateBackend.phaseFlipBasisState s
  inversionAboutMean := dispatch fun _ => IStateBackend.inversionAboutMean
  inversionAboutMeanWith mean := dispatch fun _ => IStateBackend.inversionAboutMeanWith mean
  applyAffineTransform scale bias :=
    dispatch fun _ => IStateBackend.applyAffineTransform scale bias
  applyHadamard q := dispatch fun _ => IStateBackend.applyHadamard q
  applyPauliX q := dispatch fun _ => IStateBackend.applyPauliX q
  applyControlledPhaseShift control target theta :=
    dispatch fun _ => IStateBackend.applyControlledPhaseShift control target theta
  applyControlledNot control target :=
    dispatch fun _ => IStateBackend.applyControlledNot control target
  applyGate gate qubits := dispatch fun _ => IStateBackend.applyGate gate qubits
  beginOperationBatch := dispatch fun _ => IStateBackend.beginOperationBatch
  endOperationBatch := dispatch fun _ => IStateBackend.endOperationBatch

theorem BackendOp.run_dispatch (op : BackendOp R) :
    (op.run : Call (Sigma β) (Answer R)) = dispatch fun _ => op.run := by
  cases op <;> exact dispatch_bind _ _

end Calls

/-!
## What the classes share
-/

section Checks

variable {ι R : Type} [Field R] [LinearOrder R] {β : ι -> Type} [forall c, IStateBackend R (β c)]

/-- Ready as an object of its class; every class holds all sizes a register can have. -/
def ChecksArguments.any (G : forall c, ChecksArguments (R := R) (β c))
    (hG : forall c n, n ≤ 31 -> (G c).Size n) : ChecksArguments (R := R) (Sigma β) where
  Ready n b := (G b.1).Ready n b.2
  Size n := n ≤ 31
  bound h := ⟨((G _).bound h).1, ((G _).bound h).1⟩
  init := by
    rintro op n ⟨c, b⟩ hsize hop hn
    rw [Does, BackendOp.run_dispatch, post_dispatch_iff]
    exact (G c).init b hsize hop (hG c n hn)
  call := by
    rintro op n ⟨c, b⟩ h hsize hop
    rw [BackendOp.run_dispatch, post_dispatch_iff]
    exact (G c).call h hsize hop
  rejects := by
    rintro op n ⟨c, b⟩ h hsize hop
    rw [BackendOp.run_dispatch]
    exact rejects_dispatch ((G c).rejects h hsize hop)
  clone h := (G _).clone h

def ShowsVector.any {G : forall c, ChecksArguments (R := R) (β c)}
    (hG : forall c n, n ≤ 31 -> (G c).Size n) (V : forall c, ShowsVector (G c)) :
    ShowsVector (ChecksArguments.any G hG) where
  Shows n v b := (V b.1).Shows n v b.2
  ready h := (V _).ready h
  exists_shows h := (V _).exists_shows h
  length h := (V _).length h
  forEachAmplitudeChunk := by
    rintro n v ⟨c, b⟩ h
    exact post_dispatch_iff.mpr ((V c).forEachAmplitudeChunk h)
  amplitude := by
    rintro n v ⟨c, b⟩ s h hs
    exact post_dispatch_iff.mpr ((V c).amplitude h hs)
  totalProbability := by
    rintro n v ⟨c, b⟩ h
    exact post_dispatch_iff.mpr ((V c).totalProbability h)
  sampleMeasurement := by
    rintro n v ⟨c, b⟩ rnd h
    exact post_dispatch_iff.mpr ((V c).sampleMeasurement h)

end Checks

/-!
## Dense and compressed objects
-/

/-- The classes: the dense backend, and a compressed one for every codec in use. -/
inductive BackendClass (ι : Type) where
  | dense
  | compressed (codec : ι)
deriving DecidableEq, Repr

section Objects

variable {R ι : Type} {B : ι -> Type}

def BackendClass.Object (P : forall i, CodecPolicy R (B i)) : BackendClass ι -> Type
  | .dense => DenseStateBackend R
  | .compressed i => CompressedStateBackend (P i)

abbrev AnyBackend (P : forall i, CodecPolicy R (B i)) : Type :=
  Sigma (BackendClass.Object P)

variable {P : forall i, CodecPolicy R (B i)}

def AnyBackend.dense (b : DenseStateBackend R) : AnyBackend P :=
  ⟨.dense, b⟩

def AnyBackend.compressed (i : ι) (b : CompressedStateBackend (P i)) : AnyBackend P :=
  ⟨.compressed i, b⟩

/-- The object the factory creates for a class. -/
def AnyBackend.make : BackendClass ι -> AnyBackend P
  | .dense => AnyBackend.dense DenseStateBackend.make
  | .compressed i => AnyBackend.compressed i (CompressedStateBackend.make (P i))

variable [Field R] [LinearOrder R] [CMath R]

instance BackendClass.instObject (c : BackendClass ι) : IStateBackend R (c.Object P) :=
  match c with
  | .dense => inferInstanceAs (IStateBackend R (DenseStateBackend R))
  | .compressed i => inferInstanceAs (IStateBackend R (CompressedStateBackend (P i)))

variable {round : forall _ : ι, List R -> List R}

namespace AnyBackend

def classChecks (hR : forall i, (P i).Rounds (round i)) :
    forall c : BackendClass ι, ChecksArguments (R := R) (c.Object P)
  | .dense => DenseStateBackend.checksArguments
  | .compressed i => CompressedStateBackend.checksArguments (hR i)

theorem classChecks_size {hR : forall i, (P i).Rounds (round i)}
    (hfits : forall i, ChunkLayout.Fits (2 ^ 31) (P i).chunkStates) (c : BackendClass ι) (n : Nat)
    (hn : n ≤ 31) : (classChecks hR c).Size n := by
  cases c with
  | dense => exact trivial
  | compressed i =>
      have hbound : 2 * 2 ^ 31 + 2 * (P i).chunkStates - 1 < 2 ^ 64 := hfits i
      have hpow : 2 ^ n ≤ 2 ^ 31 := Nat.pow_le_pow_right (by decide) hn
      change 2 * 2 ^ n + 2 * (P i).chunkStates - 1 < 2 ^ 64
      omega

def classShows (hR : forall i, (P i).Rounds (round i)) :
    forall c : BackendClass ι, ShowsVector (classChecks hR c)
  | .dense => DenseStateBackend.showsVector
  | .compressed i => CompressedStateBackend.showsVector (hR i)

def checksArguments (hR : forall i, (P i).Rounds (round i))
    (hfits : forall i, ChunkLayout.Fits (2 ^ 31) (P i).chunkStates) :
    ChecksArguments (R := R) (AnyBackend P) :=
  ChecksArguments.any (classChecks hR) (classChecks_size hfits)

def showsVector (hR : forall i, (P i).Rounds (round i))
    (hfits : forall i, ChunkLayout.Fits (2 ^ 31) (P i).chunkStates) :
    ShowsVector (checksArguments hR hfits) :=
  ShowsVector.any (classChecks_size hfits) (classShows hR)

end AnyBackend

end Objects

end Tmfqs
