import Mathlib

/-!
# The earliest element of maximal score

A loop that keeps the best element so far, and replaces it by one that scores
more, ends with the earliest of the elements whose score is maximal, or with what
it began with where nothing scores (`foldl_improve`).
-/

namespace Lib

variable {α : Type*}

/-- The earliest element of maximal score, where this score is positive. -/
def earliestBest (score : α → ℕ) (l : List α) : Option α :=
  (l.argmax score).filter (0 < score ·)

/-- One round: the best score so far and what has it. -/
def improve (score : α → ℕ) (best : ℕ × Option α) (a : α) : ℕ × Option α :=
  if best.1 < score a then (score a, some a) else best

namespace earliestBest

variable {score : α → ℕ} {l : List α} {a : α}

@[simp] theorem nil : earliestBest score ([] : List α) = none := rfl

/-- Nothing is best where nothing scores. -/
theorem eq_none_iff : earliestBest score l = none ↔ ∀ b ∈ l, score b = 0 := by
  rw [earliestBest]
  cases h : l.argmax score with
  | none =>
    rw [List.argmax_eq_none.mp h]
    exact iff_of_true rfl nofun
  | some m =>
    have hmem : m ∈ l := List.argmax_mem h
    have hmax : ∀ b ∈ l, score b ≤ score m := fun b hb => List.le_of_mem_argmax hb h
    rw [Option.filter_eq_none_iff]
    constructor
    · intro hzero b hb
      have := hmax b hb
      have := hzero m rfl
      simp only [decide_eq_true_eq] at this
      omega
    · intro hzero b hb
      cases hb
      simpa using hzero m hmem

/-- What is best scores most, and so does nothing before it. -/
theorem eq_some_iff [DecidableEq α] : earliestBest score l = some a ↔
    a ∈ l ∧ 0 < score a ∧ (∀ b ∈ l, score b ≤ score a) ∧
      ∀ b ∈ l, score a ≤ score b → l.idxOf a ≤ l.idxOf b := by
  rw [earliestBest, Option.filter_eq_some_iff, List.argmax_eq_some_iff, decide_eq_true_eq]
  tauto

/-- One more element at the end. -/
theorem concat : earliestBest score (l ++ [a]) =
    match earliestBest score l with
    | some m => if score m < score a then some a else some m
    | none => if 0 < score a then some a else none := by
  rw [earliestBest, earliestBest, List.argmax_concat]
  cases l.argmax score with
  | none => simp [Option.filter]
  | some m =>
    simp only [Option.filter]
    split_ifs <;> simp_all

end earliestBest

/-- THE LOOP THAT KEEPS THE BEST. -/
theorem foldl_improve (score : α → ℕ) (first : Option α) (l : List α) :
    l.foldl (improve score) (0, first) =
      match earliestBest score l with
      | some a => (score a, some a)
      | none => (0, first) := by
  induction l using List.reverseRecOn with
  | nil => rfl
  | append_singleton l a ih =>
    rw [List.foldl_concat, ih, earliestBest.concat, improve]
    cases earliestBest score l with
    | none =>
      dsimp only
      split <;> rfl
    | some m =>
      dsimp only
      split <;> rfl

/-- The best score stays 0 where nothing scores. -/
theorem foldl_improve_eq_zero_iff {score : α → ℕ} {best : ℕ × Option α} {l : List α} :
    (l.foldl (improve score) best).1 = 0 ↔ best.1 = 0 ∧ ∀ a ∈ l, score a = 0 := by
  induction l generalizing best with
  | nil => exact (and_iff_left nofun).symm
  | cons a l ih =>
    rw [List.foldl_cons, ih, List.forall_mem_cons, ← and_assoc, improve]
    split
    next hbetter =>
      have hneither : ¬ (best.1 = 0 ∧ score a = 0) := by omega
      exact iff_of_false (fun h => by have := h.1; omega) fun h => hneither h.1
    next hworse =>
      have hboth : best.1 = 0 ↔ best.1 = 0 ∧ score a = 0 := by omega
      rw [← hboth]

end Lib
