import LogCollector.Ring.Basic
import LogCollector.Lib.BoundedQueue

/-!
# What the threads share

Receivers, masters and workers are threads of one process. They hand packets
on through rings, and a signal handler sets `kill_signal`. A ring is a bounded
queue of the ring's capacity here; `Ring.Fifo` proves that a ring with one
producer and one consumer refines such a queue.

A ring is named by a number. Which ring a table of the program points to is
part of a thread's configuration, where NULL is `none`.
-/

namespace LogCollector

/-- A ring of the collector, as the queue it stands for. -/
abbrev Queue (π : Type) := Lib.BoundedQueue π ringShape.capacity.toNat

variable {π : Type}

/-- The memory the threads share. -/
structure Memory (π : Type) where
  /-- `receiver_rings`. -/
  receiver_rings : Nat → Queue π
  /-- The rings between masters and workers. -/
  rings : Nat → Queue π
  kill_signal : Bool
  /-- The packets passed to `free`, in order. -/
  freed : List π
  /-- `plugin[p].j_file->fptr` and `plugin[p].t_file->fptr`. -/
  json_fptr : Nat → Nat
  temp_fptr : Nat → Nat

namespace Memory

def start : Memory π where
  receiver_rings _ := .empty
  rings _ := .empty
  kill_signal := false
  freed := []
  json_fptr _ := 0
  temp_fptr _ := 0

/-- `ring_enqueue` on a ring; `none` where it is full. -/
def enqueue (mem : Memory π) (ring : Nat) (pkt : π) : Option (Memory π) :=
  ((mem.rings ring).push pkt).map fun q => { mem with rings := Function.update mem.rings ring q }

/-- `ring_dequeue` on a ring; `none` where it is empty. -/
def dequeue (mem : Memory π) (ring : Nat) : Option (π × Memory π) :=
  (mem.rings ring).pop.map fun (pkt, q) =>
    (pkt, { mem with rings := Function.update mem.rings ring q })

/-- `ring_enqueue` on a receiver ring. -/
def enqueueReceived (mem : Memory π) (ring : Nat) (pkt : π) : Option (Memory π) :=
  ((mem.receiver_rings ring).push pkt).map fun q =>
    { mem with receiver_rings := Function.update mem.receiver_rings ring q }

/-- `ring_dequeue` on a receiver ring. -/
def dequeueReceived (mem : Memory π) (ring : Nat) : Option (π × Memory π) :=
  (mem.receiver_rings ring).pop.map fun (pkt, q) =>
    (pkt, { mem with receiver_rings := Function.update mem.receiver_rings ring q })

/-- `free`. -/
def free (mem : Memory π) (pkt : π) : Memory π := { mem with freed := mem.freed ++ [pkt] }

end Memory

/-- What the rest of the process does to the memory while one thread runs: its
ring operations that succeed, the signal, and rotations, which may make any
file the current one. -/
inductive Elsewhere (π : Type)
  | enqueue (ring : Nat) (pkt : π)
  | dequeue (ring : Nat)
  | enqueueReceived (ring : Nat) (pkt : π)
  | dequeueReceived (ring : Nat)
  | kill
  | rotateJson (plugin fptr : Nat)
  | rotateTemp (plugin fptr : Nat)

def Memory.elsewhere (mem : Memory π) : Elsewhere π → Option (Memory π)
  | .enqueue ring pkt => mem.enqueue ring pkt
  | .dequeue ring => (mem.dequeue ring).map Prod.snd
  | .enqueueReceived ring pkt => mem.enqueueReceived ring pkt
  | .dequeueReceived ring => (mem.dequeueReceived ring).map Prod.snd
  | .kill => some { mem with kill_signal := true }
  | .rotateJson plugin fptr =>
    some { mem with json_fptr := Function.update mem.json_fptr plugin fptr }
  | .rotateTemp plugin fptr =>
    some { mem with temp_fptr := Function.update mem.temp_fptr plugin fptr }

/-! ## What the operations do to the rings -/

section

variable {mem mem' : Memory π} {ring : Nat} {pkt : π}

theorem Memory.enqueue_eq (h : mem.enqueue ring pkt = some mem') :
    ∃ q : Queue π, q.items = (mem.rings ring).items ++ [pkt] ∧
      mem' = { mem with rings := Function.update mem.rings ring q } := by
  obtain ⟨q, hq, rfl⟩ := Option.map_eq_some_iff.mp h
  exact ⟨q, Lib.BoundedQueue.items_push hq, rfl⟩

theorem Memory.dequeue_eq (h : mem.dequeue ring = some (pkt, mem')) :
    ∃ q : Queue π, (mem.rings ring).items = pkt :: q.items ∧
      mem' = { mem with rings := Function.update mem.rings ring q } := by
  obtain ⟨⟨pkt', q⟩, hq, heq⟩ := Option.map_eq_some_iff.mp h
  obtain ⟨rfl, rfl⟩ := Prod.mk.inj heq
  exact ⟨q, Lib.BoundedQueue.items_pop hq, rfl⟩

theorem Memory.enqueueReceived_eq (h : mem.enqueueReceived ring pkt = some mem') :
    ∃ q : Queue π, q.items = (mem.receiver_rings ring).items ++ [pkt] ∧
      mem' = { mem with receiver_rings := Function.update mem.receiver_rings ring q } := by
  obtain ⟨q, hq, rfl⟩ := Option.map_eq_some_iff.mp h
  exact ⟨q, Lib.BoundedQueue.items_push hq, rfl⟩

theorem Memory.dequeueReceived_eq (h : mem.dequeueReceived ring = some (pkt, mem')) :
    ∃ q : Queue π, (mem.receiver_rings ring).items = pkt :: q.items ∧
      mem' = { mem with receiver_rings := Function.update mem.receiver_rings ring q } := by
  obtain ⟨⟨pkt', q⟩, hq, heq⟩ := Option.map_eq_some_iff.mp h
  obtain ⟨rfl, rfl⟩ := Prod.mk.inj heq
  exact ⟨q, Lib.BoundedQueue.items_pop hq, rfl⟩

theorem Memory.items_enqueue (h : mem.enqueue ring pkt = some mem') (r : Nat) :
    (mem'.rings r).items =
      if r = ring then (mem.rings r).items ++ [pkt] else (mem.rings r).items := by
  obtain ⟨q, hq, rfl⟩ := mem.enqueue_eq h
  split
  · next heq =>
    subst heq
    simp only [Function.update_self, hq]
  · next hne => simp only [Function.update_of_ne hne]

theorem Memory.items_dequeue (h : mem.dequeue ring = some (pkt, mem')) (r : Nat) :
    (mem.rings r).items =
      if r = ring then pkt :: (mem'.rings r).items else (mem'.rings r).items := by
  obtain ⟨q, hq, rfl⟩ := mem.dequeue_eq h
  split
  · next heq =>
    subst heq
    simp only [Function.update_self, hq]
  · next hne => simp only [Function.update_of_ne hne]

theorem Memory.length_enqueue (h : mem.enqueue ring pkt = some mem') (r : Nat) :
    (mem'.rings r).items.length =
      if ring = r then (mem.rings r).items.length + 1 else (mem.rings r).items.length := by
  rw [Memory.items_enqueue h]
  by_cases hr : r = ring
  · rw [if_pos hr, if_pos hr.symm, List.length_append, List.length_singleton]
  · rw [if_neg hr, if_neg (Ne.symm hr)]

theorem Memory.length_dequeue (h : mem.dequeue ring = some (pkt, mem')) (r : Nat) :
    (mem'.rings r).items.length =
      if ring = r then (mem.rings r).items.length - 1 else (mem.rings r).items.length := by
  rw [Memory.items_dequeue h]
  by_cases hr : r = ring
  · rw [if_pos hr, if_pos hr.symm, List.length_cons, Nat.add_sub_cancel]
  · rw [if_neg hr, if_neg (Ne.symm hr)]

theorem Memory.items_dequeue_none (h : mem.dequeue ring = none) : (mem.rings ring).items = [] :=
  Lib.BoundedQueue.pop_eq_none.mp (Option.map_eq_none_iff.mp h)

end

end LogCollector
