import Mathlib

/-!
# The places of an array

A list of elements fills an array one place after the other: an element may use the place
that is being filled, and one that moves on makes it the next. The elements stay within the
array where each that uses a place finds one (`within_iff`), and then no more places are
filled than there are (`Within.count_le`).
-/

namespace Lib.Places

variable {α : Type*}

/-- No element uses a place behind the last of `size`, where `place` is the first to be
filled. -/
def Within (uses moves : α → Bool) (size : Nat) : Nat → List α → Prop
  | _, [] => True
  | place, a :: as =>
    (uses a → place < size) ∧ Within uses moves size (place + if moves a then 1 else 0) as

variable {uses moves : α → Bool} {size place : Nat} {as : List α}

/-- THE PLACE an element finds is that of the elements before it that moved on. -/
theorem within_iff : Within uses moves size place as ↔ ∀ before a after,
    as = before ++ a :: after → uses a → place + before.countP moves < size := by
  induction as generalizing place with
  | nil => exact iff_of_true trivial fun before a after h => absurd h (by simp)
  | cons b as ih =>
    rw [Within, ih]
    constructor
    · rintro ⟨hhead, htail⟩ before a after hsplit huses
      cases before with
      | nil =>
        obtain ⟨rfl, -⟩ := List.cons.inj hsplit
        exact hhead huses
      | cons c before =>
        obtain ⟨rfl, hrest⟩ := List.cons.inj hsplit
        have := htail before a after hrest huses
        rw [List.countP_cons]
        omega
    · intro h
      refine ⟨h [] b as rfl, ?_⟩
      intro before a after hsplit huses
      have := h (b :: before) a after (congrArg (b :: ·) hsplit) huses
      rw [List.countP_cons] at this
      omega

/-- Where moving on is a use, no more places are filled than there are. -/
theorem Within.count_le (huses : ∀ a ∈ as, moves a → uses a) (hplace : place ≤ size)
    (h : Within uses moves size place as) : place + as.countP moves ≤ size := by
  induction as generalizing place with
  | nil => exact hplace
  | cons a as ih =>
    obtain ⟨hhead, htail⟩ := h
    obtain ⟨hmoves, hrest⟩ := List.forall_mem_cons.mp huses
    have hnext : place + (if moves a then 1 else 0) ≤ size := by
      split
      · next hmove => exact hhead (hmoves hmove)
      · exact hplace
    have := ih hrest hnext htail
    rw [List.countP_cons]
    omega

end Lib.Places
