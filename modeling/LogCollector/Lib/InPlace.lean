import Mathlib

/-!
# Text cut in place

An array holds text up to a terminator, and a position in it stands for the text
from there on. Searching a character from a position and writing the terminator
over it splits the text without moving it: what lies before the cut ends there.

Positions are lengths of what lies before them. The rules say what a search, a cut
and a reading see of an array that is written as pieces.
-/

namespace Lib.InPlace

variable {α : Type*} [DecidableEq α]

/-- The text at a position. -/
def textAt (nul : α) (mem : List α) (p : Nat) : List α := (mem.drop p).takeWhile (· ≠ nul)

/-- The first `c` of the text at a position. -/
def find (nul c : α) (mem : List α) (p : Nat) : Option Nat :=
  ((textAt nul mem p).idxOf? c).map (p + ·)

/-- The terminator is written at a position. -/
def cut (nul : α) (mem : List α) (p : Nat) : List α := mem.set p nul

/-! ## Splitting at a delimiter -/

section

variable {c : α} {before text after : List α}

omit [DecidableEq α] in
/-- Neither part of a split text has what the text does not have. -/
theorem notMem_of_split {b : α} (h : c ∉ before ++ b :: after) : c ∉ before ∧ c ∉ after := by
  obtain ⟨hbefore, hrest⟩ := not_or.mp (mt List.mem_append.mpr h)
  exact ⟨hbefore, fun hafter => hrest (List.mem_cons_of_mem b hafter)⟩

/-- A delimiter splits a text where it occurs first. -/
theorem split_or_absent (c : α) (text : List α) :
    c ∉ text ∨ ∃ before after, c ∉ before ∧ text = before ++ c :: after := by
  by_cases h : c ∈ text
  · obtain ⟨before, after, hsplit, hnot⟩ := List.eq_append_cons_of_mem h
    exact .inr ⟨before, after, hnot, hsplit⟩
  · exact .inl h

theorem decide_ne_of_notMem (h : c ∉ before) : ∀ b ∈ before, decide (b ≠ c) = true := by
  intro b hb
  have hne : b ≠ c := fun hbc => h (hbc ▸ hb)
  exact decide_eq_true hne

/-- A text up to its first delimiter, and from there on. -/
theorem takeWhile_split (h : c ∉ before) :
    (before ++ c :: after).takeWhile (· ≠ c) = before := by
  rw [List.takeWhile_append_of_pos (decide_ne_of_notMem h), List.takeWhile_cons_of_neg (by simp),
    List.append_nil]

theorem dropWhile_split (h : c ∉ before) :
    (before ++ c :: after).dropWhile (· ≠ c) = c :: after := by
  rw [List.dropWhile_append_of_pos (decide_ne_of_notMem h), List.dropWhile_cons_of_neg (by simp)]

theorem takeWhile_absent (h : c ∉ text) : text.takeWhile (· ≠ c) = text :=
  List.takeWhile_eq_self_iff.mpr (decide_ne_of_notMem h)

omit [DecidableEq α] in
/-- What a text up to its delimiter begins with. -/
theorem prefix_split_iff {piece : List α} (h : c ∉ piece) :
    piece <+: before ++ c :: after ↔ piece <+: before := by
  constructor
  · rintro ⟨rest, hrest⟩
    rcases List.append_eq_append_iff.mp hrest with ⟨rest', hbefore, -⟩ | ⟨rest', hpiece, hrest'⟩
    · exact ⟨rest', hbefore.symm⟩
    · cases rest' with
      | nil =>
        rw [hpiece, List.append_nil]
      | cons b rest' =>
        obtain ⟨rfl, -⟩ := List.cons.inj hrest'
        exact absurd (hpiece ▸ List.mem_append_right before List.mem_cons_self) h
  · intro hbefore
    exact hbefore.trans (List.prefix_append _ _)

theorem idxOf?_split (h : c ∉ before) : (before ++ c :: after).idxOf? c = some before.length := by
  induction before with
  | nil => simp [List.idxOf?_cons]
  | cons b before ih =>
    obtain ⟨hne, hrest⟩ := List.ne_and_not_mem_of_not_mem_cons h
    rw [List.cons_append, List.idxOf?_cons, if_neg (by simpa using Ne.symm hne), ih hrest]
    rfl

end

/-! ## Pieces -/

variable {nul c : α} {before text after : List α}

/-- A piece is the text at its beginning if it has no terminator but the one that
follows. -/
theorem textAt_append {p : Nat} (hp : p = before.length) (htext : nul ∉ text) :
    textAt nul (before ++ (text ++ nul :: after)) p = text := by
  subst hp
  rw [textAt, List.drop_left, takeWhile_split htext]

/-- The character that ends a piece is found there, if it is not in the piece. -/
theorem find_append {p : Nat} (hp : p = before.length) (hc : c ≠ nul) (htext : nul ∉ text)
    (hnot : c ∉ text) :
    find nul c (before ++ (text ++ c :: after)) p = some (p + text.length) := by
  subst hp
  have hread : textAt nul (before ++ (text ++ c :: after)) before.length =
      text ++ c :: after.takeWhile (· ≠ nul) := by
    rw [textAt, List.drop_left, List.takeWhile_append_of_pos (decide_ne_of_notMem htext),
      List.takeWhile_cons_of_pos (by simpa using hc)]
  rw [find, hread, idxOf?_split hnot]
  rfl

/-- A character that is not in a piece is not found before the terminator. -/
theorem find_eq_none {p : Nat} (hp : p = before.length) (htext : nul ∉ text) (hnot : c ∉ text) :
    find nul c (before ++ (text ++ nul :: after)) p = none := by
  rw [find, textAt_append hp htext, List.idxOf?_eq_none_iff.mpr hnot]
  rfl

omit [DecidableEq α] in
/-- A cut writes over one character. -/
theorem cut_append {p : Nat} (hp : p = before.length) :
    cut nul (before ++ c :: after) p = before ++ nul :: after := by
  subst hp
  rw [cut, List.set_append_right _ _ (Nat.le_refl _), Nat.sub_self, List.set_cons_zero]

end Lib.InPlace
