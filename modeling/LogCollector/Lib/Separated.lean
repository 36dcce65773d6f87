import Mathlib

/-!
# Pieces with a separator

Pieces that do not have the separator are written with one behind each of them. Splitting
the text at the separators gives the pieces back, with an empty one at the end; without the
last separator it gives the pieces.
-/

namespace Lib.Separated

variable {α : Type*} [DecidableEq α] {sep : α}

/-- Pieces that each end with a separator are split at it again. -/
theorem splitOn_flatMap {pieces : List (List α)} (h : ∀ piece ∈ pieces, sep ∉ piece) :
    (pieces.flatMap (· ++ [sep])).splitOn sep = pieces ++ [[]] := by
  induction pieces with
  | nil => exact List.splitOn_nil sep
  | cons piece pieces ih =>
    obtain ⟨hpiece, hpieces⟩ := List.forall_mem_cons.mp h
    rw [List.flatMap_cons, List.append_assoc, List.singleton_append,
      List.splitOn_append_cons_self_of_not_mem hpiece, ih hpieces, List.cons_append]

/-- THE LAST SEPARATOR IS TAKEN OFF, and the pieces are what the others separate. -/
theorem splitOn_dropLast {pieces : List (List α)} (h : ∀ piece ∈ pieces, sep ∉ piece)
    (hne : pieces ≠ []) : (pieces.flatMap (· ++ [sep])).dropLast.splitOn sep = pieces := by
  obtain ⟨first, last, rfl⟩ := (List.eq_nil_or_concat' pieces).resolve_left hne
  have hsplit := splitOn_flatMap h
  rw [List.flatMap_append, List.flatMap_singleton, ← List.append_assoc] at hsplit ⊢
  rw [List.splitOn_append_cons_self, List.splitOn_nil] at hsplit
  rw [List.dropLast_concat]
  exact List.append_cancel_right hsplit

end Lib.Separated
