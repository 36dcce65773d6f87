import LogCollector.Lib.Machine

/-!
# Custody of tokens

Tokens are handed from place to place. A census counts how often a token occurs
at a place; it is located when every token is at one place, once, or nowhere. A
step that only moves one token from where it is keeps the census located, and
whatever else happens to a token is read off where the moves take it.
-/

namespace Lib.Custody

variable {ι κ : Type*}

/-- Every token is where `loc` says, once, and nowhere else. -/
def Located [DecidableEq ι] (census : ι → κ → Nat) (loc : κ → Option ι) : Prop :=
  ∀ p k, census p k = if loc k = some p then 1 else 0

/-- The token `k` moves from one place to another; `none` is no place. -/
def Moves [DecidableEq ι] [DecidableEq κ] (census census' : ι → κ → Nat) (k : κ)
    (src dst : Option ι) : Prop :=
  ∀ p k', census' p k' + (if k' = k ∧ src = some p then 1 else 0) =
    census p k' + (if k' = k ∧ dst = some p then 1 else 0)

variable [DecidableEq ι]

/-- A token that occurs at a place is there. -/
theorem Located.of_pos {census : ι → κ → Nat} {loc : κ → Option ι} (h : Located census loc) {p : ι}
    {k : κ} (hpos : 0 < census p k) : loc k = some p := by
  rw [h p k] at hpos
  by_contra hne
  rw [if_neg hne] at hpos
  omega

variable [DecidableEq κ]

/-- A token that leaves a place was there, unless it arrives there too. -/
theorem Moves.pos_of_src {census census' : ι → κ → Nat} {k : κ} {p : ι} {dst : Option ι}
    (h : Moves census census' k (some p) dst) (hne : dst ≠ some p) : 0 < census p k := by
  have := h p k
  rw [if_pos ⟨rfl, rfl⟩, if_neg fun hdst => hne hdst.2] at this
  omega

/-- THE CUSTODY RULE: moving a token from where it is leaves every token
located. -/
theorem Located.move {census census' : ι → κ → Nat} {loc : κ → Option ι} (h : Located census loc)
    {k : κ} {src dst : Option ι} (hmoves : Moves census census' k src dst) (hsrc : loc k = src) :
    Located census' (Function.update loc k dst) := by
  intro p k'
  have hmove := hmoves p k'
  have hcensus := h p k'
  by_cases hk : k' = k
  · subst hk
    rw [hsrc] at hcensus
    simp only [true_and] at hmove
    rw [Function.update_self]
    omega
  · simp only [hk, false_and, if_false, Nat.add_zero] at hmove
    rw [Function.update_of_ne hk, hmove, hcensus]

omit [DecidableEq ι] in
/-- After a move, the token that moved is where it went, and any other where it
was. -/
theorem loc_after_move {loc : κ → Option ι} {k k' : κ} {dst : Option ι} {p : ι}
    (h : Function.update loc k dst k' = some p) : (k' = k ∧ dst = some p) ∨ loc k' = some p := by
  by_cases hk : k' = k
  · rw [hk, Function.update_self] at h
    exact .inl ⟨hk, h⟩
  · rw [Function.update_of_ne hk] at h
    exact .inr h

omit [DecidableEq ι] in
/-- A move to a place takes no token away. -/
theorem placed_after_move {loc : κ → Option ι} {k k' : κ} {p : ι} (h : loc k' ≠ none) :
    Function.update loc k (some p) k' ≠ none := by
  by_cases hk : k' = k
  · rw [hk, Function.update_self]
    exact Option.some_ne_none p
  · rwa [Function.update_of_ne hk]

omit [DecidableEq ι] in
/-- A token that was nowhere is still nowhere, unless it is the one that moved. -/
theorem nowhere_after_move {loc : κ → Option ι} {k k' : κ} {dst : Option ι} (h : loc k' = none) :
    Function.update loc k dst k' = none ∨ k' = k := by
  by_cases hk : k' = k
  · exact .inr hk
  · rw [Function.update_of_ne hk]
    exact .inl h

end Lib.Custody
