import LogCollector.Ring.Invariant
import LogCollector.Lib.BoundedQueue

/-!
# One producer and one consumer: a bounded queue

With one thread on each side nobody moves a head between its load and its
store, and there is one reservation at a time, so every step is serialised
(`Alone.serialised`). The ring then simulates the bounded queue of its
capacity (`ring_simulates_queue`): a producer tail store is a `put` of the
call's objects, a consumer tail store a `take`, and every other step is
invisible. Counters that wrap around `2 ^ 32` and copies that wrap around the
end of the table are cases of the same steps.
-/

namespace LogCollector

variable {α : Type*}

/-! ## Every step is serialised -/

/-- The head a producer loaded is still the current one. -/
def Enqueue.Current (reserved : Nat) : Enqueue α → Prop
  | .loadedHead _ _ _ _ seen | .reserving _ _ _ _ seen => seen = reserved
  | .idle | .entered .. | .copying .. => True

/-- The head a consumer loaded is still the current one. -/
def Dequeue.Current (claimed : Nat) : Dequeue α → Prop
  | .loadedHead _ _ _ _ seen | .reserving _ _ _ _ seen => seen = claimed
  | .idle | .entered .. | .copying .. => True

/-- The invariant of a ring with one producer and one consumer. -/
structure Alone (base : Nat) (s : RingState Unit Unit α) : Prop where
  ring : RingInvariant base s
  producer : (s.producers ()).Current s.reserved.length
  consumer : (s.consumers ()).Current s.claimed

namespace Alone

variable {base : Nat} {s s' : RingState Unit Unit α}

/-- The only reservation starts at the tail. -/
theorem start_eq {hold : Unit → Option (Nat × Nat)} {tail head start n : Nat}
    (h : Lib.Tiled hold tail head) (hhold : hold () = some (start, n)) : start = tail := by
  obtain ⟨hn, htail, hhead⟩ := h.inside hhold
  obtain ⟨t, a, m, ht, hle, -⟩ := h.covered (Nat.le_refl tail) (by omega)
  rw [hhold] at ht
  cases ht
  omega

theorem serialised (h : Alone base s) : ∀ a, Serialised s a
  | .producer () => by
    have hcurrent := h.producer
    rw [Serialised]
    cases hp : s.producers () with
    | reserving objTable n free oldHead seen => rwa [hp] at hcurrent
    | copying objTable n free newHead pending start =>
      cases pending with
      | nil => exact start_eq h.ring.filling (by rw [hp]; rfl)
      | cons copy pending => trivial
    | idle | entered | loadedHead => trivial
  | .consumer () => by
    have hcurrent := h.consumer
    rw [Serialised]
    cases hc : s.consumers () with
    | reserving objTable n entries oldHead seen => rwa [hc] at hcurrent
    | copying objTable n entries newHead pending start =>
      cases pending with
      | nil => exact start_eq h.ring.reading (by rw [hc]; rfl)
      | cons copy pending => trivial
    | idle | entered | loadedHead => trivial
  | .enqueue .. | .dequeue .. => trivial

/-- What a producer step does to the two currencies. -/
theorem current_stepProducer (h : Alone base s) (hstep : s.stepProducer () = some s') :
    (s'.producers ()).Current s'.reserved.length ∧ (s'.consumers ()).Current s'.claimed := by
  have hcurrent := h.producer
  unfold RingState.stepProducer at hstep
  cases hp : s.producers () with
  | idle => simp only [hp, reduceCtorEq] at hstep
  | entered objTable n behavior =>
    simp only [hp, Option.some.injEq] at hstep
    subst hstep
    exact ⟨rfl, h.consumer⟩
  | loadedHead objTable n behavior oldHead seen =>
    rw [hp] at hcurrent
    simp only [hp] at hstep
    split at hstep
    · cases hstep
      exact ⟨trivial, h.consumer⟩
    · cases hstep
      exact ⟨hcurrent, h.consumer⟩
  | reserving objTable n free oldHead seen =>
    simp only [hp] at hstep
    obtain ⟨pending, -, rfl⟩ := Option.map_eq_some_iff.mp hstep
    exact ⟨trivial, h.consumer⟩
  | copying objTable n free newHead pending start =>
    cases pending <;> simp only [hp, Option.some.injEq] at hstep <;> subst hstep <;>
      exact ⟨trivial, h.consumer⟩

theorem current_stepConsumer (h : Alone base s) (hstep : s.stepConsumer () = some s') :
    (s'.producers ()).Current s'.reserved.length ∧ (s'.consumers ()).Current s'.claimed := by
  have hcurrent := h.consumer
  unfold RingState.stepConsumer at hstep
  cases hc : s.consumers () with
  | idle => simp only [hc, reduceCtorEq] at hstep
  | entered objTable n behavior =>
    simp only [hc, Option.some.injEq] at hstep
    subst hstep
    exact ⟨h.producer, rfl⟩
  | loadedHead objTable n behavior oldHead seen =>
    rw [hc] at hcurrent
    simp only [hc] at hstep
    split at hstep
    · cases hstep
      exact ⟨h.producer, trivial⟩
    · cases hstep
      exact ⟨h.producer, hcurrent⟩
  | reserving objTable n entries oldHead seen =>
    simp only [hc] at hstep
    obtain ⟨pending, -, rfl⟩ := Option.map_eq_some_iff.mp hstep
    exact ⟨h.producer, trivial⟩
  | copying objTable n entries newHead pending start =>
    cases pending <;> simp only [hc, Option.some.injEq] at hstep <;> subst hstep <;>
      exact ⟨h.producer, trivial⟩

theorem step (h : Alone base s) {a : RingAction Unit Unit α} (hstep : ringStep s a = some s') :
    Alone base s' := by
  have hring := h.ring.step (h.serialised a) hstep
  suffices hcurrent : (s'.producers ()).Current s'.reserved.length ∧
      (s'.consumers ()).Current s'.claimed from ⟨hring, hcurrent.1, hcurrent.2⟩
  cases a with
  | enqueue t objTable n behavior =>
    simp only [ringStep] at hstep
    split at hstep
    · cases hstep
      exact ⟨trivial, h.consumer⟩
    · cases hstep
  | producer t => exact h.current_stepProducer hstep
  | dequeue t objTable n behavior =>
    simp only [ringStep] at hstep
    split at hstep
    · cases hstep
      exact ⟨h.producer, trivial⟩
    · cases hstep
  | consumer t => exact h.current_stepConsumer hstep

end Alone

/-! ## The simulation -/

/-- A step that hands objects over appends them to one of the two logs. -/
inductive Logged (s s' : RingState Unit Unit α) : Prop
  | invisible (enqueued : s'.enqueued = s.enqueued) (dequeued : s'.dequeued = s.dequeued)
  | put (xs : List α) (enqueued : s'.enqueued = s.enqueued ++ xs)
      (dequeued : s'.dequeued = s.dequeued)
  | take (xs : List α) (enqueued : s'.enqueued = s.enqueued)
      (dequeued : s'.dequeued = s.dequeued ++ xs)

theorem ringStep_logged {s s' : RingState Unit Unit α} {a : RingAction Unit Unit α}
    (hstep : ringStep s a = some s') : s'.ring.shape = s.ring.shape ∧ Logged s s' := by
  cases a with
  | enqueue t objTable n behavior | dequeue t objTable n behavior =>
    simp only [ringStep] at hstep
    split at hstep
    · cases hstep
      exact ⟨rfl, .invisible rfl rfl⟩
    · cases hstep
  | producer t =>
    simp only [ringStep, RingState.stepProducer] at hstep
    split at hstep
    · cases hstep
    · cases hstep
      exact ⟨rfl, .invisible rfl rfl⟩
    · split at hstep <;> cases hstep <;> exact ⟨rfl, .invisible rfl rfl⟩
    · obtain ⟨pending, -, rfl⟩ := Option.map_eq_some_iff.mp hstep
      exact ⟨rfl, .invisible rfl rfl⟩
    · cases hstep
      exact ⟨rfl, .invisible rfl rfl⟩
    · cases hstep
      exact ⟨rfl, .put _ rfl rfl⟩
  | consumer t =>
    simp only [ringStep, RingState.stepConsumer] at hstep
    split at hstep
    · cases hstep
    · cases hstep
      exact ⟨rfl, .invisible rfl rfl⟩
    · split at hstep <;> cases hstep <;> exact ⟨rfl, .invisible rfl rfl⟩
    · obtain ⟨pending, -, rfl⟩ := Option.map_eq_some_iff.mp hstep
      exact ⟨rfl, .invisible rfl rfl⟩
    · cases hstep
      exact ⟨rfl, .invisible rfl rfl⟩
    · cases hstep
      exact ⟨rfl, .take _ rfl rfl⟩

/-- A ring never stores more than its capacity. -/
theorem RingInvariant.length_stored_le {base : Nat} {s : RingState Unit Unit α}
    (h : RingInvariant base s) : s.ring.stored.length ≤ s.ring.shape.capacity.toNat := by
  have horder := h.order
  rw [h.stored_eq, List.length_drop, List.length_take]
  omega

/-- The ring `s` stands for the queue `q`. -/
structure StandsFor (base : Nat) (shape : RingShape) (s : RingState Unit Unit α)
    (q : Lib.BoundedQueue α shape.capacity.toNat) : Prop where
  alone : Alone base s
  shape_eq : s.ring.shape = shape
  left : q.left = s.dequeued
  items : q.items = s.ring.stored

/-- THE RING SIMULATES THE QUEUE. -/
theorem ring_simulates_queue (base : Nat) (shape : RingShape) :
    (ringStep (P := Unit) (C := Unit) (α := α)).Simulates (fun _ _ => True)
      Lib.BoundedQueue.step (StandsFor base shape) where
  matched := by
    intro s a s' q h _ hstep
    have halone := h.alone.step hstep
    have hbefore := h.alone.ring.conserved
    have hafter := halone.ring.conserved
    obtain ⟨hshape, hlogged⟩ := ringStep_logged hstep
    have hshape' : s'.ring.shape = shape := hshape.trans h.shape_eq
    cases hlogged with
    | invisible henq hdeq =>
      refine ⟨[], q, rfl, halone, hshape', h.left.trans hdeq.symm, h.items.trans ?_⟩
      rw [henq, hdeq, hbefore] at hafter
      exact List.append_cancel_left hafter
    | put xs henq hdeq =>
      have hstored : s'.ring.stored = q.items ++ xs := by
        rw [henq, hdeq, hbefore, List.append_assoc] at hafter
        rw [h.items]
        exact (List.append_cancel_left hafter).symm
      have hroom := halone.ring.length_stored_le
      rw [hstored, List.length_append, hshape'] at hroom
      obtain ⟨r, hput, hleft, hitems⟩ := q.put_eq_some hroom
      refine ⟨[.put xs], r, ?_, halone, hshape', ?_, hitems.trans hstored.symm⟩
      · simp only [Lib.Step.run_cons, Lib.BoundedQueue.step, hput, Option.bind_some,
          Lib.Step.run_nil]
      · rw [hleft, h.left, hdeq]
    | take xs henq hdeq =>
      have hstored : q.items = xs ++ s'.ring.stored := by
        rw [henq, hdeq, hbefore, List.append_assoc] at hafter
        rw [h.items]
        exact List.append_cancel_left hafter
      obtain ⟨r, htake, hleft, hitems⟩ := q.take_eq_some (n := xs.length)
        (by rw [hstored, List.length_append]; omega)
      refine ⟨[.take xs.length], r, ?_, halone, hshape', ?_, ?_⟩
      · simp only [Lib.Step.run_cons, Lib.BoundedQueue.step, htake, Option.bind_some,
          Lib.Step.run_nil]
      · rw [hleft, h.left, hdeq, hstored, List.take_left]
      · rw [hitems, hstored, List.drop_left]

/-! ## Refusal and count -/

/-- A fixed enqueue returns `0` at the step at which it reads the consumer
tail, exactly if it was asked for nothing or fewer than `n` slots are free with
respect to that tail, and then it has written nothing. -/
def RefusesOnlyWhenFull (s : RingState Unit Unit α) : RingAction Unit Unit α → Prop
  | .producer t => ∀ objTable n oldHead seen,
      s.producers t = .loadedHead objTable n .fixed oldHead seen →
      ∀ s', ringStep s (.producer t) = some s' →
        match s'.producers t with
        | .idle => s'.ring = s.ring ∧
            (n = 0 ∨ s.ring.shape.capacity.toNat < s.ring.stored.length + n.toNat)
        | _ => s.ring.stored.length + n.toNat ≤ s.ring.shape.capacity.toNat
  | .enqueue .. | .dequeue .. | .consumer _ => True

/-- What a fixed call moves nothing for. -/
theorem settle_fixed_eq_zero {n room : UInt32} :
    settle n room .fixed = 0 ↔ n = 0 ∨ room.toNat < n.toNat := by
  rw [settle, ← UInt32.lt_iff_toNat_lt]
  split
  · next h => exact iff_of_true rfl (.inr h)
  · next h => exact ⟨.inl, fun h' => h'.resolve_right h⟩

theorem Alone.refusesOnlyWhenFull {base : Nat} {s : RingState Unit Unit α} (h : Alone base s) :
    ∀ a, RefusesOnlyWhenFull s a
  | .producer t => by
    intro objTable n oldHead seen hp s' hstep
    have horder := h.ring.order
    have hok := h.ring.producer t
    have hcurrent := h.producer
    rw [show t = () from rfl] at *
    rw [hp] at hok hcurrent
    have hold : oldHead = s.ring.prod.head := (hok.2 hcurrent).trans h.ring.prodHead.symm
    have hidle : s.published = s.reserved.length := by
      apply h.ring.filling.tail_eq_head
      intro t
      rw [show t = () from rfl, hp]
      rfl
    have hstored : s.ring.stored.length = s.reserved.length - s.released := by
      rw [h.ring.stored_eq, List.length_drop, List.length_take]
      omega
    have hfree := h.ring.toNat_freeEntries
    rw [← hold] at hfree
    simp only [ringStep, RingState.stepProducer, hp] at hstep
    split at hstep
    · next hn =>
      cases hstep
      simp only [RingState.setProducer, Function.update_self]
      refine ⟨trivial, (settle_fixed_eq_zero.mp hn).imp_right ?_⟩
      intro hlt
      omega
    · next hn =>
      cases hstep
      simp only [RingState.setProducer, Function.update_self]
      have := mt settle_fixed_eq_zero.mpr hn
      omega
  | .enqueue .. | .dequeue .. | .consumer _ => trivial

/-- `ring_count` is the number of stored objects. -/
theorem RingInvariant.toNat_count {base : Nat} {s : RingState Unit Unit α}
    (h : RingInvariant base s) : s.ring.count.toNat = s.ring.stored.length := by
  have horder := h.order
  have hbits := s.ring.shape.two_pow_le
  have hcap := s.ring.shape.capacity_le
  have hlen : (s.ring.prod.tail - s.ring.cons.tail).toNat = s.published - s.released := by
    rw [h.prodTail, h.consTail, Lib.Counter.toNat_sub] <;> omega
  have hmask : ((s.ring.prod.tail - s.ring.cons.tail) &&& s.ring.shape.mask).toNat =
      s.published - s.released := by
    rw [UInt32.toNat_and, s.ring.shape.mask_eq, Nat.and_two_pow_sub_one_eq_mod, hlen,
      Nat.mod_eq_of_lt (by omega)]
  have hstored : s.ring.stored.length = s.published - s.released := by
    rw [Ring.stored, List.length_map, List.length_range, hlen]
  rw [Ring.count, hstored]
  split
  · next hgt =>
    have := UInt32.lt_iff_toNat_lt.mp hgt
    omega
  · exact hmask

/-! ## The result -/

/-- A settled ring has room for what it stores. -/
theorem Ring.Settled.room {r : Ring α} (hr : r.Settled) :
    r.stored.length ≤ r.shape.capacity.toNat := by
  rw [Ring.stored, List.length_map, List.length_range]
  exact UInt32.le_iff_toNat_le.mp hr.count

theorem alone_ofRing {r : Ring α} (hr : r.Settled) :
    Alone r.cons.tail.toNat (RingState.ofRing r : RingState Unit Unit α) :=
  ⟨ringInvariant_ofRing hr, trivial, trivial⟩

/-- ONE PRODUCER AND ONE CONSUMER REFINE A BOUNDED QUEUE: from a settled ring
of any power of two size, with any counters, every interleaving of enqueues and
dequeues of any number of objects is matched by a run of the queue of the
ring's capacity with the same objects in, out and stored; no slot is overwritten before
it is read or read before it is written, a fixed enqueue is refused only when
there is no room, and `ring_count` counts what is stored. -/
theorem ring_refines_queue {r : Ring α} (hr : r.Settled) {acts : List (RingAction Unit Unit α)}
    {s : RingState Unit Unit α} (hrun : ringStep.run (RingState.ofRing r) acts = some s) :
    (∃ ops q, Lib.BoundedQueue.step.run (.ofItems r.stored hr.room) ops = some q ∧
      q.entered = s.enqueued ∧ q.left = s.dequeued ∧ q.items = s.ring.stored) ∧
    s.dequeued <+: s.enqueued ∧
    ringStep.Along (fun s a => overwrites s a = false ∧ readsStale s a = false ∧
      RefusesOnlyWhenFull s a) (RingState.ofRing r) acts ∧
    s.ring.count.toNat = s.ring.stored.length := by
  have start := alone_ofRing hr
  have along : ringStep.Along (fun _ _ => True) (RingState.ofRing r) acts :=
    Lib.Step.along_of_invariant (I := fun _ => True) (fun _ _ _ _ _ => trivial)
      (fun _ _ _ => trivial) trivial
  obtain ⟨ops, q, hops, hq⟩ := (ring_simulates_queue r.cons.tail.toNat r.shape).run
    (t := .ofItems r.stored hr.room) ⟨start, rfl, rfl, rfl⟩ along hrun
  have hentered : q.entered = s.enqueued := by
    rw [q.fifo, hq.left, hq.items, hq.alone.ring.conserved]
  refine ⟨⟨ops, q, hops, hentered, hq.left, hq.items⟩, ?_, ?_, hq.alone.ring.toNat_count⟩
  · rw [← hq.left, ← hentered]
    exact q.left_prefix
  · exact Lib.Step.along_of_invariant (fun _ _ _ h hs => Alone.step h hs)
      (fun _ a h => ⟨h.ring.not_overwrites a, h.ring.not_readsStale a, h.refusesOnlyWhenFull a⟩)
      start

/-- A ring of eight slots whose counters are about to wrap, with two objects in
it: a bulk enqueue of four wraps around both, and a burst dequeue of
nine takes all that is there. -/
def wrappingRing : Ring Nat where
  shape :=
    { size := 8, mask := 7, capacity := 7, bits := 3, bits_pos := by decide, bits_le := by decide,
      size_eq := by decide, mask_eq := by decide, capacity_le := by decide }
  prod := ⟨4294967294, 4294967294⟩
  cons := ⟨4294967292, 4294967292⟩
  slots i := 10 + i.toNat

def wrappingRun : List (RingAction Unit Unit Nat) :=
  .enqueue () (fun i => i.toNat) 4 .fixed :: .dequeue () (fun _ => 0) 9 .variable ::
    (List.replicate 8 (.producer ()) ++ List.replicate 10 (.consumer ()))

theorem ring_refines_queue_wrapping : ∃ s,
    ringStep.run (RingState.ofRing wrappingRing) wrappingRun = some s ∧
      s.dequeued = [14, 15, 0, 1, 2, 3] ∧ s.dequeued <+: s.enqueued := by
  obtain ⟨s, hs⟩ : ∃ s, ringStep.run (RingState.ofRing wrappingRing) wrappingRun = some s :=
    Option.isSome_iff_exists.mp (by decide)
  have hdequeued : (ringStep.run (RingState.ofRing wrappingRing) wrappingRun).map
      RingState.dequeued = some [14, 15, 0, 1, 2, 3] := by decide
  rw [hs] at hdequeued
  exact ⟨s, hs, Option.some.inj hdequeued, (ring_refines_queue ⟨rfl, rfl, by decide⟩ hs).2.1⟩

end LogCollector
