import LogCollector.Lib.Machine

/-!
# Bounded first-in first-out queues

The abstract queue a ring buffer stands for. It remembers everything that ever
entered and everything that ever left, so that order and conservation are one
field: what entered is what left followed by what is stored.
-/

namespace Lib

/-- A queue of at most `capacity` items, with its history. -/
structure BoundedQueue (α : Type*) (capacity : Nat) where
  entered : List α
  left : List α
  items : List α
  fifo : entered = left ++ items
  room : items.length ≤ capacity

namespace BoundedQueue

variable {α : Type*} {capacity : Nat}

/-- A queue that starts with some items in it. -/
def ofItems (items : List α) (room : items.length ≤ capacity) : BoundedQueue α capacity :=
  ⟨items, [], items, rfl, room⟩

/-- Items enter at the back, all of them or none. -/
def put (q : BoundedQueue α capacity) (xs : List α) : Option (BoundedQueue α capacity) :=
  if h : q.items.length + xs.length ≤ capacity then
    some ⟨q.entered ++ xs, q.left, q.items ++ xs, by rw [q.fifo, List.append_assoc],
      by rwa [List.length_append]⟩
  else none

/-- Items leave at the front, exactly `n` of them. -/
def take (q : BoundedQueue α capacity) (n : Nat) : Option (BoundedQueue α capacity) :=
  if n ≤ q.items.length then
    some ⟨q.entered, q.left ++ q.items.take n, q.items.drop n,
      by rw [q.fifo, List.append_assoc, List.take_append_drop],
      by rw [List.length_drop]; have := q.room; omega⟩
  else none

/-- What may happen to a queue. -/
inductive Action (α : Type*)
  | put (xs : List α)
  | take (n : Nat)

/-- The queue as a machine. -/
def step : Step (BoundedQueue α capacity) (Action α)
  | q, .put xs => q.put xs
  | q, .take n => q.take n

/-- The items that left are the first that entered. -/
theorem left_prefix (q : BoundedQueue α capacity) : q.left <+: q.entered :=
  ⟨q.items, q.fifo.symm⟩

theorem put_eq_some {q : BoundedQueue α capacity} {xs : List α}
    (h : q.items.length + xs.length ≤ capacity) :
    ∃ r, q.put xs = some r ∧ r.left = q.left ∧ r.items = q.items ++ xs := by
  refine ⟨_, dif_pos h, rfl, rfl⟩

theorem take_eq_some {q : BoundedQueue α capacity} {n : Nat} (h : n ≤ q.items.length) :
    ∃ r, q.take n = some r ∧ r.left = q.left ++ q.items.take n ∧ r.items = q.items.drop n := by
  refine ⟨_, if_pos h, rfl, rfl⟩

/-! ## One item at a time -/

def empty : BoundedQueue α capacity := .ofItems [] (Nat.zero_le capacity)

@[simp] theorem items_empty : (empty : BoundedQueue α capacity).items = [] := rfl

/-- One item enters. -/
def push (q : BoundedQueue α capacity) (x : α) : Option (BoundedQueue α capacity) := q.put [x]

/-- The oldest item leaves. -/
def pop (q : BoundedQueue α capacity) : Option (α × BoundedQueue α capacity) :=
  match q.items with
  | [] => none
  | x :: _ => (q.take 1).map (x, ·)

theorem items_push {q r : BoundedQueue α capacity} {x : α} (h : q.push x = some r) :
    r.items = q.items ++ [x] := by
  rw [push, put] at h
  split at h
  · cases h
    rfl
  · cases h

/-- What the oldest item leaves behind. -/
theorem items_pop {q r : BoundedQueue α capacity} {x : α} (h : q.pop = some (x, r)) :
    q.items = x :: r.items := by
  rw [pop] at h
  split at h
  · cases h
  · next y rest hitems =>
    obtain ⟨r', hr, hpair⟩ := Option.map_eq_some_iff.mp h
    obtain ⟨rfl, rfl⟩ := Prod.mk.inj hpair
    rw [take] at hr
    split at hr
    · cases hr
      simp only [hitems, List.drop_succ_cons, List.drop_zero]
    · cases hr

theorem pop_eq_none {q : BoundedQueue α capacity} : q.pop = none ↔ q.items = [] := by
  rw [pop]
  split
  · next h => simp only [h]
  · next y rest h =>
    obtain ⟨r, hr, -⟩ := take_eq_some (q := q) (n := 1) (by rw [h]; exact Nat.succ_pos _)
    simp only [hr, h, Option.map_some, reduceCtorEq]

end BoundedQueue

end Lib
