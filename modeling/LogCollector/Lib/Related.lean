import Mathlib

/-!
# Two runs of one computation

A relation between the states of two runs is carried through the combinators
computations are put together with: what each step preserves, a loop preserves,
also where a step may fail. Two runs of a fallible computation are related
(`Option.Rel`) where both fail, or both succeed with related results. What is
so of each related pair is so of two lists related item by item.
-/

namespace Lib.Related

variable {α β γ δ ι : Type*}

theorem bind {R : α → β → Prop} {S : γ → δ → Prop} {x : Option α} {y : Option β}
    {f : α → Option γ} {g : β → Option δ} (h : Option.Rel R x y)
    (hstep : ∀ a b, R a b → Option.Rel S (f a) (g b)) : Option.Rel S (x.bind f) (y.bind g) := by
  cases h with
  | some hab => exact hstep _ _ hab
  | none => exact .none

theorem map {R : α → β → Prop} {S : γ → δ → Prop} {x : Option α} {y : Option β}
    {f : α → γ} {g : β → δ} (h : Option.Rel R x y) (hobs : ∀ a b, R a b → S (f a) (g b)) :
    Option.Rel S (x.map f) (y.map g) := by
  cases h with
  | some hab => exact .some (hobs _ _ hab)
  | none => exact .none

/-- What one of the runs does with its result. -/
theorem map_left {R : α → β → Prop} {S : γ → β → Prop} {x : Option α} {y : Option β} {f : α → γ}
    (h : Option.Rel R x y) (hobs : ∀ a b, R a b → S (f a) b) : Option.Rel S (x.map f) y := by
  cases h with
  | some hab => exact .some (hobs _ _ hab)
  | none => exact .none

/-- A computation related to itself. -/
theorem refl {R : α → α → Prop} (hrefl : ∀ a, R a a) : ∀ x : Option α, Option.Rel R x x
  | some a => .some (hrefl a)
  | none => .none

/-- Two runs that agree on an observation of their results. -/
theorem map_eq {R : α → β → Prop} {x : Option α} {y : Option β} {f : α → γ} {g : β → γ}
    (h : Option.Rel R x y) (hobs : ∀ a b, R a b → f a = g b) : x.map f = y.map g := by
  cases h with
  | some hab => exact congrArg some (hobs _ _ hab)
  | none => rfl

/-- THE LOOP RULE. -/
theorem foldl {R : α → β → Prop} {f : α → ι → α} {g : β → ι → β} {is : List ι}
    (hstep : ∀ a b i, R a b → R (f a i) (g b i)) :
    ∀ {a : α} {b : β}, R a b → R (is.foldl f a) (is.foldl g b) := by
  induction is with
  | nil => exact fun h => h
  | cons i is ih => exact fun h => ih (hstep _ _ i h)

/-- THE LOOP RULE, for rounds that may fail. -/
theorem foldlM {R : α → β → Prop} {f : α → ι → Option α} {g : β → ι → Option β} {is : List ι}
    (hstep : ∀ a b i, R a b → Option.Rel R (f a i) (g b i)) :
    ∀ {a : α} {b : β}, R a b → Option.Rel R (is.foldlM f a) (is.foldlM g b) := by
  induction is with
  | nil => exact fun h => .some h
  | cons i is ih =>
    intro a b h
    rw [List.foldlM_cons, List.foldlM_cons]
    exact bind (hstep a b i h) fun a b h => ih h

/-- Lists related entry by entry are related by what follows for the entries of the first. -/
theorem forall₂_of_mem {R S : α → β → Prop} {l : List α} {l' : List β}
    (hentry : ∀ a ∈ l, ∀ b, R a b → S a b) (h : List.Forall₂ R l l') : List.Forall₂ S l l' := by
  have hmem : List.Forall₂ (fun a b => a ∈ l ∧ R a b) l l' :=
    (List.forall₂_and_left l l').mpr ⟨fun _ ha => ha, h⟩
  exact hmem.imp fun a b hab => hentry a hab.1 b hab.2

theorem forall_of_forall₂ {R : α → β → Prop} {P : β → Prop} {l : List α} {l' : List β}
    (hentry : ∀ a b, R a b → P b) (h : List.Forall₂ R l l') : ∀ b ∈ l', P b := by
  have hflip : List.Forall₂ (fun b a => P b ∧ R a b) l' l :=
    (h.imp fun a b hab => ⟨hentry a b hab, hab⟩).flip
  exact ((List.forall₂_and_left l' l).mp hflip).1

/-- What is so of every related pair is so of the lists. -/
theorem forall_and_iff {R : α → β → Prop} {P S : α → Prop} {Q : β → Prop}
    (hR : ∀ a b, R a b → (P a ∧ Q b ↔ S a)) {as : List α} {bs : List β}
    (h : List.Forall₂ R as bs) :
    (∀ a ∈ as, P a) ∧ (∀ b ∈ bs, Q b) ↔ ∀ a ∈ as, S a := by
  induction h with
  | nil => exact iff_of_true ⟨fun _ h => absurd h List.not_mem_nil,
      fun _ h => absurd h List.not_mem_nil⟩ fun _ h => absurd h List.not_mem_nil
  | cons hab _ ih =>
    rw [List.forall_mem_cons, List.forall_mem_cons, List.forall_mem_cons, and_and_and_comm,
      hR _ _ hab, ih]

end Lib.Related
