import Mathlib

/-!
# Codes of one width

Every symbol has a code of the same width, and a list of symbols is written as the codes
one after the other. A text can then be read block by block: it begins with the codes of a
list exactly where every block is the code of the symbol at its place, and no two lists
are written the same.
-/

namespace Lib.FixedWidth

variable {α β : Type*} {code : α → List β} {w : Nat}

/-- The block at a place. -/
def block (w : Nat) (text : List β) (i : Nat) : List β := (text.drop (w * i)).take w

theorem length_encode (hw : ∀ a, (code a).length = w) (as : List α) :
    (as.flatMap code).length = w * as.length := by
  induction as with
  | nil => rfl
  | cons a as ih =>
    rw [List.flatMap_cons, List.length_append, hw, ih, List.length_cons, Nat.mul_succ,
      Nat.add_comm]

/-- A code begins a text where it is the first block. -/
theorem append_prefix_iff {c rest text : List β} (hc : c.length = w) :
    c ++ rest <+: text ↔ text.take w = c ∧ rest <+: text.drop w := by
  constructor
  · rintro ⟨after, rfl⟩
    rw [List.append_assoc, List.take_left' hc, List.drop_left' hc]
    exact ⟨rfl, List.prefix_append rest after⟩
  · rintro ⟨htake, hrest⟩
    have hsplit : text = c ++ text.drop w := by
      rw [← htake, List.take_append_drop]
    rw [hsplit]
    exact (List.prefix_append_right_inj c).mpr hrest

/-- A TEXT BEGINS WITH CODES exactly where each block is the code at its place. -/
theorem encode_prefix_iff (hw : ∀ a, (code a).length = w) (as : List α) (text : List β) :
    as.flatMap code <+: text ↔ ∀ i (h : i < as.length), block w text i = code as[i] := by
  induction as generalizing text with
  | nil => exact iff_of_true List.nil_prefix nofun
  | cons a as ih =>
    have hshift (i : Nat) : block w (text.drop w) i = block w text (i + 1) := by
      rw [block, block, List.drop_drop, Nat.mul_succ, Nat.add_comm]
    rw [List.flatMap_cons, append_prefix_iff (hw a), ih]
    constructor
    · rintro ⟨hfirst, hrest⟩ i hi
      cases i with
      | zero => exact hfirst
      | succ i =>
        rw [← hshift]
        exact hrest i (Nat.lt_of_succ_lt_succ hi)
    · intro h
      refine ⟨h 0 (Nat.succ_pos _), ?_⟩
      intro i hi
      rw [hshift]
      exact h (i + 1) (Nat.succ_lt_succ hi)

/-- NO TWO LISTS ARE WRITTEN THE SAME. -/
theorem encode_injective (hw : ∀ a, (code a).length = w) (hpos : 0 < w)
    (hcode : Function.Injective code) : Function.Injective (List.flatMap code) := by
  intro as bs h
  have hlength : as.length = bs.length := by
    have := congrArg List.length h
    rw [length_encode hw, length_encode hw] at this
    exact Nat.eq_of_mul_eq_mul_left hpos this
  apply List.ext_getElem hlength
  intro i hi hi'
  have hblock := (encode_prefix_iff hw as _).mp (List.prefix_refl _) i hi
  rw [h] at hblock
  exact hcode (hblock.symm.trans ((encode_prefix_iff hw bs _).mp (List.prefix_refl _) i hi'))

end Lib.FixedWidth
