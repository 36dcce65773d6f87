import LogCollector.Ring.Copy

/-!
# Threads on a ring, one memory access a step

Any number of producers run `__ring_do_enqueue` and any number of consumers
`__ring_do_dequeue` on one ring. A call takes the steps the source takes: load
its own head, load the opposite tail, store its head, copy the objects one slot
at a time, store its tail. The head is moved by a plain load and a plain store,
and the tail is stored without waiting for earlier reservations; the machine
interleaves these steps in every way.

The fields after `returns` are history variables, which no step of the code
reads: the objects in the order in which slots were reserved for them, how many
were published, claimed and released, the objects of the calls that returned,
and which slots hold an object that was written and has not been read.
-/

namespace LogCollector

/-- Where a thread stands in `__ring_do_enqueue`. `seen` and `start` are history
variables: the number of objects reserved when the head was loaded and when it
was stored. -/
inductive Enqueue (α : Type*)
  | idle
  | entered (objTable : UInt32 → α) (n : UInt32) (behavior : RingQueueBehavior)
  | loadedHead (objTable : UInt32 → α) (n : UInt32) (behavior : RingQueueBehavior)
      (oldHead : UInt32) (seen : Nat)
  | reserving (objTable : UInt32 → α) (n freeEntries oldHead : UInt32) (seen : Nat)
  | copying (objTable : UInt32 → α) (n freeEntries newHead : UInt32) (pending : List SlotCopy)
      (start : Nat)

/-- Where a thread stands in `__ring_do_dequeue`. -/
inductive Dequeue (α : Type*)
  | idle
  | entered (objTable : UInt32 → α) (n : UInt32) (behavior : RingQueueBehavior)
  | loadedHead (objTable : UInt32 → α) (n : UInt32) (behavior : RingQueueBehavior)
      (oldHead : UInt32) (seen : Nat)
  | reserving (objTable : UInt32 → α) (n entries oldHead : UInt32) (seen : Nat)
  | copying (objTable : UInt32 → α) (n entries newHead : UInt32) (pending : List SlotCopy)
      (start : Nat)

/-- What a call returned: the number of objects moved, and `*free_space` or
`*available`. -/
inductive RingReturn (P C : Type*)
  | enqueue (t : P) (n freeSpace : UInt32)
  | dequeue (t : C) (n available : UInt32)

/-- A ring and the threads that use it. -/
structure RingState (P C α : Type*) where
  ring : Ring α
  producers : P → Enqueue α
  consumers : C → Dequeue α
  returns : List (RingReturn P C)
  reserved : List α
  published : Nat
  claimed : Nat
  released : Nat
  enqueued : List α
  dequeued : List α
  live : UInt32 → Bool

/-- A call, or the next memory access of a thread. -/
inductive RingAction (P C α : Type*)
  | enqueue (t : P) (objTable : UInt32 → α) (n : UInt32) (behavior : RingQueueBehavior)
  | producer (t : P)
  | dequeue (t : C) (objTable : UInt32 → α) (n : UInt32) (behavior : RingQueueBehavior)
  | consumer (t : C)

/-- The first `n` entries of an object table. -/
def objects {α : Type*} (objTable : UInt32 → α) (n : UInt32) : List α :=
  (List.range n.toNat).map fun j => objTable (UInt32.ofNat j)

/-- The objects between the consumer tail and the producer tail. -/
def Ring.stored {α : Type*} (r : Ring α) : List α :=
  (List.range (r.prod.tail - r.cons.tail).toNat).map fun j =>
    r.slots ((r.cons.tail + UInt32.ofNat j) &&& r.shape.mask)

/-- A ring no operation is in progress on, with no more objects in it than its
capacity. -/
structure Ring.Settled {α : Type*} (r : Ring α) : Prop where
  prod : r.prod.head = r.prod.tail
  cons : r.cons.head = r.cons.tail
  count : r.prod.tail - r.cons.tail ≤ r.shape.capacity

namespace RingState

variable {P C α : Type*}

/-- All threads idle on a ring; its objects count as enqueued before. -/
def ofRing (r : Ring α) : RingState P C α where
  ring := r
  producers _ := .idle
  consumers _ := .idle
  returns := []
  reserved := r.stored
  published := r.stored.length
  claimed := 0
  released := 0
  enqueued := r.stored
  dequeued := []
  live idx := (List.range r.stored.length).any fun j =>
    (r.cons.tail + UInt32.ofNat j) &&& r.shape.mask == idx

variable [DecidableEq P] [DecidableEq C]

def setProducer (s : RingState P C α) (t : P) (pc : Enqueue α) : RingState P C α :=
  { s with producers := Function.update s.producers t pc }

def setConsumer (s : RingState P C α) (t : C) (pc : Dequeue α) : RingState P C α :=
  { s with consumers := Function.update s.consumers t pc }

/-- `r->prod.head = *new_head`: the objects are reserved. -/
def storeProdHead (s : RingState P C α) (t : P) (objTable : UInt32 → α) (n free newHead : UInt32)
    (pending : List SlotCopy) : RingState P C α :=
  { s.setProducer t (.copying objTable n free newHead pending s.reserved.length) with
    ring := { s.ring with prod := { s.ring.prod with head := newHead } }
    reserved := s.reserved ++ objects objTable n }

/-- `ring[idx] = obj_table[i]`. -/
def writeSlot (s : RingState P C α) (t : P) (objTable : UInt32 → α) (n free newHead : UInt32)
    (copy : SlotCopy) (pending : List SlotCopy) (start : Nat) : RingState P C α :=
  { s.setProducer t (.copying objTable n free newHead pending start) with
    ring := { s.ring with slots := Function.update s.ring.slots copy.idx (objTable copy.i) }
    live := Function.update s.live copy.idx true }

/-- `update_tail(&r->prod, ..)`, and the call returns. -/
def storeProdTail (s : RingState P C α) (t : P) (objTable : UInt32 → α) (n free newHead : UInt32) :
    RingState P C α :=
  { s.setProducer t .idle with
    ring := { s.ring with prod := { s.ring.prod with tail := newHead } }
    returns := s.returns ++ [.enqueue t n (free - n)]
    published := s.published + n.toNat
    enqueued := s.enqueued ++ objects objTable n }

/-- The next memory access of `__ring_do_enqueue`. -/
def stepProducer (s : RingState P C α) (t : P) : Option (RingState P C α) :=
  match s.producers t with
  | .idle => none
  | .entered objTable n behavior =>
    some (s.setProducer t
      (.loadedHead objTable n behavior s.ring.prod.head s.reserved.length))
  | .loadedHead objTable n behavior oldHead seen =>
    let free := freeEntries s.ring.shape.capacity s.ring.cons.tail oldHead
    let n := settle n free behavior
    if n = 0 then
      some { s.setProducer t .idle with returns := s.returns ++ [.enqueue t 0 (free - 0)] }
    else some (s.setProducer t (.reserving objTable n free oldHead seen))
  | .reserving objTable n free oldHead _ =>
    (copyPtrs s.ring.shape oldHead n).map (s.storeProdHead t objTable n free (oldHead + n))
  | .copying objTable n free newHead (copy :: pending) start =>
    some (s.writeSlot t objTable n free newHead copy pending start)
  | .copying objTable n free newHead [] _ => some (s.storeProdTail t objTable n free newHead)

/-- `r->cons.head = *new_head`: the objects are claimed. -/
def storeConsHead (s : RingState P C α) (t : C) (objTable : UInt32 → α) (n entries newHead : UInt32)
    (pending : List SlotCopy) : RingState P C α :=
  { s.setConsumer t (.copying objTable n entries newHead pending s.claimed) with
    ring := { s.ring with cons := { s.ring.cons with head := newHead } }
    claimed := s.claimed + n.toNat }

/-- `obj_table[i] = ring[idx]`. -/
def readSlot (s : RingState P C α) (t : C) (objTable : UInt32 → α) (n entries newHead : UInt32)
    (copy : SlotCopy) (pending : List SlotCopy) (start : Nat) : RingState P C α :=
  { s.setConsumer t (.copying (Function.update objTable copy.i (s.ring.slots copy.idx)) n
      entries newHead pending start) with
    live := Function.update s.live copy.idx false }

/-- `update_tail(&r->cons, ..)`, and the call returns. -/
def storeConsTail (s : RingState P C α) (t : C) (objTable : UInt32 → α)
    (n entries newHead : UInt32) : RingState P C α :=
  { s.setConsumer t .idle with
    ring := { s.ring with cons := { s.ring.cons with tail := newHead } }
    returns := s.returns ++ [.dequeue t n (entries - n)]
    released := s.released + n.toNat
    dequeued := s.dequeued ++ objects objTable n }

/-- The next memory access of `__ring_do_dequeue`. -/
def stepConsumer (s : RingState P C α) (t : C) : Option (RingState P C α) :=
  match s.consumers t with
  | .idle => none
  | .entered objTable n behavior =>
    some (s.setConsumer t (.loadedHead objTable n behavior s.ring.cons.head s.claimed))
  | .loadedHead objTable n behavior oldHead seen =>
    let entries := entries s.ring.prod.tail oldHead
    let n := settle n entries behavior
    if n = 0 then
      some { s.setConsumer t .idle with returns := s.returns ++ [.dequeue t 0 (entries - 0)] }
    else some (s.setConsumer t (.reserving objTable n entries oldHead seen))
  | .reserving objTable n entries oldHead _ =>
    (copyPtrs s.ring.shape oldHead n).map (s.storeConsHead t objTable n entries (oldHead + n))
  | .copying objTable n entries newHead (copy :: pending) start =>
    some (s.readSlot t objTable n entries newHead copy pending start)
  | .copying objTable n entries newHead [] _ => some (s.storeConsTail t objTable n entries newHead)

end RingState

variable {P C α : Type*} [DecidableEq P] [DecidableEq C]

/-- The ring and its threads as a machine. -/
def ringStep : Lib.Step (RingState P C α) (RingAction P C α)
  | s, .enqueue t objTable n behavior =>
    match s.producers t with
    | .idle => some (s.setProducer t (.entered objTable n behavior))
    | _ => none
  | s, .producer t => s.stepProducer t
  | s, .dequeue t objTable n behavior =>
    match s.consumers t with
    | .idle => some (s.setConsumer t (.entered objTable n behavior))
    | _ => none
  | s, .consumer t => s.stepConsumer t

/-- The step writes a slot whose object has not been read. -/
def overwrites (s : RingState P C α) : RingAction P C α → Bool
  | .producer t => match s.producers t with
    | .copying _ _ _ _ (copy :: _) _ => s.live copy.idx
    | _ => false
  | _ => false

/-- The step reads a slot that was not written since it was last read. -/
def readsStale (s : RingState P C α) : RingAction P C α → Bool
  | .consumer t => match s.consumers t with
    | .copying _ _ _ _ (copy :: _) _ => !s.live copy.idx
    | _ => false
  | _ => false

/-- The next access of a producer is a head store that finds the head it loaded,
or a tail store in the order of the reservations, or neither. -/
def Enqueue.Serialised (reserved published : Nat) : Enqueue α → Prop
  | .reserving _ _ _ _ seen => seen = reserved
  | .copying _ _ _ _ [] start => start = published
  | _ => True

/-- The same of a consumer. -/
def Dequeue.Serialised (claimed released : Nat) : Dequeue α → Prop
  | .reserving _ _ _ _ seen => seen = claimed
  | .copying _ _ _ _ [] start => start = released
  | _ => True

instance Enqueue.Serialised.decidable (reserved published : Nat) :
    ∀ pc : Enqueue α, Decidable (pc.Serialised reserved published)
  | .reserving _ _ _ _ seen => inferInstanceAs (Decidable (seen = reserved))
  | .copying _ _ _ _ [] start => inferInstanceAs (Decidable (start = published))
  | .copying _ _ _ _ (_ :: _) _ | .idle | .entered .. | .loadedHead .. => .isTrue trivial

instance Dequeue.Serialised.decidable (claimed released : Nat) :
    ∀ pc : Dequeue α, Decidable (pc.Serialised claimed released)
  | .reserving _ _ _ _ seen => inferInstanceAs (Decidable (seen = claimed))
  | .copying _ _ _ _ [] start => inferInstanceAs (Decidable (start = released))
  | .copying _ _ _ _ (_ :: _) _ | .idle | .entered .. | .loadedHead .. => .isTrue trivial

/-- What the missing compare-and-swap and the missing wait would check: a head
is stored only if its side's head was not stored since it was loaded, and a
tail only when every earlier reservation of its side has been handed on. -/
def Serialised (s : RingState P C α) : RingAction P C α → Prop
  | .producer t => (s.producers t).Serialised s.reserved.length s.published
  | .consumer t => (s.consumers t).Serialised s.claimed s.released
  | .enqueue .. | .dequeue .. => True

instance Serialised.decidable (s : RingState P C α) : ∀ a, Decidable (Serialised s a)
  | .producer t => inferInstanceAs (Decidable ((s.producers t).Serialised _ _))
  | .consumer t => inferInstanceAs (Decidable ((s.consumers t).Serialised _ _))
  | .enqueue .. | .dequeue .. => .isTrue trivial

end LogCollector
