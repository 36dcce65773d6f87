import LogCollector.Ring.Invariant

/-!
# Several producers and consumers on one ring

`create_rings_receiver_main` shares a ring between receivers without the
single-producer flag, but the head of the modified ring is moved by a plain
load and store, and its tail is published without waiting. Two producers that
load the head before either stores it are given the same slot, and the object
of one is lost although both calls return success (`ring_loses_object`).

With every head store finding the head it loaded and every tail store in
reservation order, which is what a compare-and-swap on the head and a wait
before the tail store would ensure, the ring is safe for any threads and any
interleaving (`ring_safe_of_serialised`).
-/

namespace LogCollector

variable {P C α : Type*} [DecidableEq P] [DecidableEq C]

/-- What a shared ring promises of a run. -/
structure RingSafe (r : Ring α) (acts : List (RingAction P C α)) : Prop where
  /-- No slot is overwritten before it is read, or read before it is written. -/
  slots : ringStep.Along (fun s a => overwrites s a = false ∧ readsStale s a = false)
    (RingState.ofRing r) acts
  /-- No object of a successful enqueue is lost or made up. -/
  conserved : ∀ s, ringStep.run (RingState.ofRing r) acts = some s →
    s.enqueued.Perm (s.dequeued ++ s.ring.stored)
  /-- No object is handed to more dequeues than it was enqueued. -/
  once : ∀ s, ringStep.run (RingState.ofRing r) acts = some s → s.dequeued.Subperm s.enqueued

/-- THE RING IS SAFE WHEN SERIALISED, for any number of producers and
consumers, any calls and any interleaving of their steps. -/
theorem ring_safe_of_serialised {r : Ring α} (hr : r.Settled) {acts : List (RingAction P C α)}
    (hser : ringStep.Along Serialised (RingState.ofRing r) acts) : RingSafe r acts := by
  have start : RingInvariant r.cons.tail.toNat (RingState.ofRing r : RingState P C α) :=
    ringInvariant_ofRing hr
  have reached : ∀ s, ringStep.run (RingState.ofRing r) acts = some s →
      s.enqueued = s.dequeued ++ s.ring.stored := fun s hrun =>
    (Lib.Step.along_induct (fun _ _ _ h hg hs => h.step hg hs) start hser hrun).conserved
  refine ⟨?_, ?_, ?_⟩
  · exact Lib.Step.Along.imp (fun _ _ _ h hg hs => RingInvariant.step h hg hs)
      (fun _ a h _ => ⟨h.not_overwrites a, h.not_readsStale a⟩) start hser
  · intro s hrun
    rw [reached s hrun]
  · intro s hrun
    rw [reached s hrun]
    exact (List.sublist_append_left _ _).subperm

/-- A ring as `ring_init` leaves it, with a table of zeros. -/
def emptyRing : Ring Nat where
  shape := ringShape
  prod := ⟨0, 0⟩
  cons := ⟨0, 0⟩
  slots _ := 0

/-- Two producers copy at once and two consumers read at once; the second producer loads the head
after the first has stored it, and stores its tail after the first, and so do the consumers. -/
def interleaved : List (RingAction (Fin 2) (Fin 2) Nat) :=
  [.enqueue 0 (fun _ => 7) 1 .fixed, .enqueue 1 (fun _ => 8) 1 .fixed,
    .producer 0, .producer 0, .producer 0, .producer 1, .producer 1, .producer 1, .producer 1,
    .dequeue 0 (fun _ => 0) 1 .fixed, .consumer 0, .producer 0, .producer 0, .consumer 0,
    .consumer 0, .producer 1, .dequeue 1 (fun _ => 0) 1 .fixed, .consumer 1, .consumer 1,
    .consumer 0, .consumer 1, .consumer 1, .consumer 0, .consumer 1]

/-- Each object is handed to one of the consumers. -/
theorem ring_safe_of_serialised_interleaved :
    RingSafe emptyRing interleaved ∧
      (ringStep.run (RingState.ofRing emptyRing) interleaved).map RingState.dequeued =
        some [7, 8] :=
  ⟨ring_safe_of_serialised ⟨rfl, rfl, by decide⟩ (by decide), by decide⟩

/-- Both producers load the head before either stores it. -/
def lostUpdate : List (RingAction (Fin 2) (Fin 2) Nat) :=
  [.enqueue 0 (fun _ => 7) 1 .fixed, .enqueue 1 (fun _ => 8) 1 .fixed,
    .producer 0, .producer 1, .producer 0, .producer 1, .producer 0, .producer 1,
    .producer 0, .producer 1, .producer 0, .producer 1]

/-- Both calls of `lostUpdate` return success and only one object is stored. -/
theorem ring_loses_object :
    ((ringStep.run (RingState.ofRing emptyRing) lostUpdate).map fun s =>
      (s.enqueued, s.dequeued, s.ring.stored)) = some ([7, 8], [], [8]) ∧
    ¬ RingSafe emptyRing lostUpdate :=
  ⟨by decide, fun h => absurd h.slots (by decide)⟩

end LogCollector
