import LogCollector.Lib.Machine

/-!
# Reading a quantity off a schedule

Some quantities of a machine depend on its run only through the list of
actions. Two such are treated here. A backlog grows by one with some actions,
shrinks by one with others and never below zero: it is empty in the end exactly
when from every moment on there are at least as many of the second as of the
first (`Backlog.eq_zero_iff`). A flag is raised by some actions and lowered by
others: it is down in the end exactly when every action that raises it is
followed by one that lowers it (`Flag.down_iff`).
-/

namespace Lib

namespace Schedule

variable {α : Type*}

/-- From every moment on, at least as many actions are `down` as are `up`. -/
def Settles (up down : α → Bool) : List α → Prop
  | [] => True
  | a :: as => (a :: as).countP up ≤ (a :: as).countP down ∧ Settles up down as

instance Settles.decidable (up down : α → Bool) : ∀ as, Decidable (Settles up down as)
  | [] => .isTrue trivial
  | _ :: as =>
    have := Settles.decidable up down as
    inferInstanceAs (Decidable (_ ∧ _))

theorem Settles.countP_le {up down : α → Bool} : ∀ {as : List α}, Settles up down as →
    as.countP up ≤ as.countP down
  | [], _ => le_refl 0
  | _ :: _, h => h.1

/-- Every action that is `raise` is followed by one that is `lower`. -/
def Followed (raise lower : α → Bool) : List α → Prop
  | [] => True
  | a :: as => (raise a → as.any lower) ∧ Followed raise lower as

instance Followed.decidable (raise lower : α → Bool) : ∀ as, Decidable (Followed raise lower as)
  | [] => .isTrue trivial
  | _ :: as =>
    have := Followed.decidable raise lower as
    inferInstanceAs (Decidable (_ ∧ _))

end Schedule

namespace Step

open Schedule

variable {σ : Type*} {α : Type*}

/-- A quantity that `up` actions increase by one, `down` actions decrease by
one unless it is zero, and other actions leave alone. -/
structure Backlog (step : Step σ α) (up down : α → Bool) (length : σ → Nat) : Prop where
  arrives : ∀ {s a s'}, step s a = some s' → up a → length s' = length s + 1
  leaves : ∀ {s a s'}, step s a = some s' → down a → length s' = length s - 1
  keeps : ∀ {s a s'}, step s a = some s' → up a = false → down a = false → length s' = length s
  disjoint : ∀ {a}, up a → down a = false

/-- An empty backlog, read off the schedule. -/
theorem Backlog.eq_zero_iff {step : Step σ α} {up down : α → Bool} {length : σ → Nat}
    (h : step.Backlog up down length) :
    ∀ {as : List α} {s t : σ}, step.run s as = some t →
      (length t = 0 ↔ length s + as.countP up ≤ as.countP down ∧ Settles up down as)
  | [], s, t, hrun => by
    cases hrun
    simp only [List.countP_nil, Settles, and_true]
    omega
  | a :: as, s, t, hrun => by
    obtain ⟨s', hs, hrun⟩ := run_cons_eq_some.mp hrun
    rw [h.eq_zero_iff hrun, Settles, List.countP_cons, List.countP_cons]
    cases hup : up a with
    | true =>
      have hdown := h.disjoint hup
      have hlength := h.arrives hs hup
      simp only [hdown, if_true, Bool.false_eq_true, if_false]
      constructor
      · rintro ⟨hle, hsettles⟩
        exact ⟨by omega, by omega, hsettles⟩
      · rintro ⟨hle, -, hsettles⟩
        exact ⟨by omega, hsettles⟩
    | false =>
      cases hdown : down a with
      | true =>
        have hlength := h.leaves hs hdown
        simp only [if_true, Bool.false_eq_true, if_false]
        constructor
        · rintro ⟨hle, hsettles⟩
          have := hsettles.countP_le
          exact ⟨by omega, by omega, hsettles⟩
        · rintro ⟨hle, -, hsettles⟩
          have := hsettles.countP_le
          exact ⟨by omega, hsettles⟩
      | false =>
        have hlength := h.keeps hs hup hdown
        simp only [Bool.false_eq_true, if_false, Nat.add_zero]
        constructor
        · rintro ⟨hle, hsettles⟩
          exact ⟨by omega, hsettles.countP_le, hsettles⟩
        · rintro ⟨hle, -, hsettles⟩
          exact ⟨by omega, hsettles⟩

/-- A flag that `raise` actions raise, `lower` actions lower and other actions
leave alone. -/
structure Flag (step : Step σ α) (raise lower : α → Bool) (up : σ → Prop) : Prop where
  raises : ∀ {s a s'}, step s a = some s' → raise a → up s'
  lowers : ∀ {s a s'}, step s a = some s' → lower a → ¬ up s'
  keeps : ∀ {s a s'}, step s a = some s' → raise a = false → lower a = false → (up s' ↔ up s)

/-- A lowered flag, read off the schedule. -/
theorem Flag.down_iff {step : Step σ α} {raise lower : α → Bool} {up : σ → Prop}
    (h : step.Flag raise lower up) :
    ∀ {as : List α} {s t : σ}, step.run s as = some t →
      (¬ up t ↔ (up s → as.any lower) ∧ Followed raise lower as)
  | [], s, t, hrun => by
    cases hrun
    simp only [List.any_nil, Bool.false_eq_true, Followed, and_true]
  | a :: as, s, t, hrun => by
    obtain ⟨s', hs, hrun⟩ := run_cons_eq_some.mp hrun
    rw [h.down_iff hrun, Followed, List.any_cons, Bool.or_eq_true]
    cases hraise : raise a with
    | true =>
      have hup := h.raises hs hraise
      constructor
      · rintro ⟨hlater, hfollowed⟩
        exact ⟨fun _ => .inr (hlater hup), fun _ => hlater hup, hfollowed⟩
      · rintro ⟨-, hlater, hfollowed⟩
        exact ⟨fun _ => hlater rfl, hfollowed⟩
    | false =>
      cases hlower : lower a with
      | true =>
        have hdown := h.lowers hs hlower
        constructor
        · rintro ⟨-, hfollowed⟩
          exact ⟨fun _ => .inl rfl, nofun, hfollowed⟩
        · rintro ⟨-, -, hfollowed⟩
          exact ⟨fun hup => absurd hup hdown, hfollowed⟩
      | false =>
        rw [h.keeps hs hraise hlower]
        constructor
        · rintro ⟨hlater, hfollowed⟩
          exact ⟨fun hup => .inr (hlater hup), nofun, hfollowed⟩
        · rintro ⟨hlater, -, hfollowed⟩
          exact ⟨fun hup => (hlater hup).resolve_left nofun, hfollowed⟩

end Step

end Lib
