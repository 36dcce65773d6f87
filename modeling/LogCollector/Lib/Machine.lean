import Mathlib

/-!
# Machines driven by actions

A component that shares memory with others is a partial step function: it
reads a state and the action some party takes next, and answers the state
after the action, or nothing where that party cannot take the action there.
A run is a list of actions, so "for every interleaving" is a quantifier over
lists and a concrete schedule is a value that can be evaluated.

Four rules carry the developments built on this module:

- `run_induct`, the invariant rule: what one step preserves, a run preserves;
- `along_induct`, the same rule for runs all of whose steps meet a guard,
  and `Along.imp`, which turns a guard met by every step into another one;
- `history_eq`, the history rule: what every step appends, a run appends in order;
- `Simulates.run`, the simulation rule: step matching lifts to runs.
-/

namespace Lib

/-- A partial step function: `none` where the action is not enabled. -/
abbrev Step (σ : Type*) (α : Type*) := σ → α → Option σ

namespace Step

variable {σ : Type*} {α : Type*} {τ : Type*} {β : Type*}

/-- The state after a list of actions, if each is enabled in its turn. -/
def run (step : Step σ α) : σ → List α → Option σ
  | s, [] => some s
  | s, a :: as => (step s a).bind fun s' => run step s' as

@[simp] theorem run_nil (step : Step σ α) (s : σ) : step.run s [] = some s := rfl

theorem run_cons (step : Step σ α) (s : σ) (a : α) (as : List α) :
    step.run s (a :: as) = (step s a).bind fun s' => step.run s' as := rfl

/-- A run of two lists is a run of the first followed by one of the second. -/
theorem run_append (step : Step σ α) (s : σ) (as bs : List α) :
    step.run s (as ++ bs) = (step.run s as).bind fun s' => step.run s' bs := by
  induction as generalizing s with
  | nil => rfl
  | cons a as ih =>
    cases h : step s a with
    | none => simp only [List.cons_append, run_cons, h, Option.bind_none]
    | some s' => simp only [List.cons_append, run_cons, h, Option.bind_some, ih]

/-- A run that ends with one more action. -/
theorem run_concat (step : Step σ α) (s : σ) (as : List α) (a : α) :
    step.run s (as ++ [a]) = (step.run s as).bind fun s' => step s' a := by
  rw [run_append]
  congr 1
  funext s'
  cases h : step s' a with
  | none => simp only [run_cons, h, Option.bind_none]
  | some s'' => simp only [run_cons, h, Option.bind_some, run_nil]

/-- A run through a first action is a step and the rest of the run. -/
theorem run_cons_eq_some {step : Step σ α} {s t : σ} {a : α} {as : List α} :
    step.run s (a :: as) = some t ↔ ∃ s', step s a = some s' ∧ step.run s' as = some t := by
  rw [run_cons, Option.bind_eq_some_iff]

/-- THE INVARIANT RULE: a predicate every step preserves holds at the end of
every run that starts in it. -/
theorem run_induct {step : Step σ α} {I : σ → Prop}
    (hstep : ∀ s a s', I s → step s a = some s' → I s') :
    ∀ {as : List α} {s t : σ}, I s → step.run s as = some t → I t
  | [], _, _, hs, h => by
    cases h
    exact hs
  | a :: as, s, t, hs, h => by
    obtain ⟨s', h1, h2⟩ := run_cons_eq_some.mp h
    exact run_induct hstep (hstep s a s' hs h1) h2

/-- Every step of the run meets the guard `G`, read at the state before the
step. The run stops where an action is not enabled. -/
def Along (step : Step σ α) (G : σ → α → Prop) : σ → List α → Prop
  | _, [] => True
  | s, a :: as => G s a ∧ match step s a with
    | some s' => Along step G s' as
    | none => True

instance Along.decidable (step : Step σ α) (G : σ → α → Prop) [∀ s a, Decidable (G s a)] :
    ∀ s as, Decidable (step.Along G s as)
  | _, [] => .isTrue trivial
  | s, a :: as =>
    have : Decidable (match step s a with
        | some s' => step.Along G s' as
        | none => True) :=
      match step s a with
      | some s' => Along.decidable step G s' as
      | none => .isTrue trivial
    inferInstanceAs (Decidable (G s a ∧ _))

theorem Along.head {step : Step σ α} {G : σ → α → Prop} {s : σ} {a : α} {as : List α}
    (h : step.Along G s (a :: as)) : G s a := h.1

theorem Along.tail {step : Step σ α} {G : σ → α → Prop} {s s' : σ} {a : α} {as : List α}
    (h : step.Along G s (a :: as)) (hs : step s a = some s') : step.Along G s' as := by
  have := h.2
  rwa [hs] at this

/-- The last step of a run whose steps all meet the guard. -/
theorem Along.last {step : Step σ α} {G : σ → α → Prop} {a : α} :
    ∀ {as : List α} {s t : σ}, step.Along G s (as ++ [a]) → step.run s as = some t → G t a
  | [], _, _, hg, h => by
    cases h
    exact hg.head
  | b :: as, s, t, hg, h => by
    obtain ⟨s', h1, h2⟩ := run_cons_eq_some.mp h
    exact Along.last (hg.tail h1) h2

/-- THE INVARIANT RULE FOR GUARDED RUNS: what every guarded step preserves
holds at the end of every run whose steps all meet the guard. -/
theorem along_induct {step : Step σ α} {G : σ → α → Prop} {I : σ → Prop}
    (hstep : ∀ s a s', I s → G s a → step s a = some s' → I s') :
    ∀ {as : List α} {s t : σ}, I s → step.Along G s as → step.run s as = some t → I t
  | [], _, _, hs, _, h => by
    cases h
    exact hs
  | a :: as, s, t, hs, hg, h => by
    obtain ⟨s', h1, h2⟩ := run_cons_eq_some.mp h
    exact along_induct hstep (hstep s a s' hs hg.head h1) (hg.tail h1) h2

/-- Under an invariant of the guarded steps, a guard that implies another
one at each step implies it along the whole run. -/
theorem Along.imp {step : Step σ α} {G H : σ → α → Prop} {I : σ → Prop}
    (hstep : ∀ s a s', I s → G s a → step s a = some s' → I s')
    (himp : ∀ s a, I s → G s a → H s a) :
    ∀ {as : List α} {s : σ}, I s → step.Along G s as → step.Along H s as
  | [], _, _, _ => trivial
  | a :: as, s, hs, hg => by
    refine ⟨himp s a hs hg.head, ?_⟩
    cases h : step s a with
    | none => trivial
    | some s' => exact Along.imp hstep himp (hstep s a s' hs hg.head h) (hg.tail h)

/-- A guard that every action of a list meets in any state is met along every
run. -/
theorem along_of_mem {step : Step σ α} {G : σ → α → Prop} :
    ∀ {as : List α} {s : σ}, (∀ a ∈ as, ∀ s, G s a) → step.Along G s as
  | [], _, _ => trivial
  | a :: as, s, h => by
    refine ⟨h a List.mem_cons_self s, ?_⟩
    cases step s a with
    | none => trivial
    | some s' => exact along_of_mem fun b hb => h b (List.mem_cons_of_mem a hb)

/-- A guard that holds in every state satisfying an invariant of the plain
steps is met along every run from such a state. -/
theorem along_of_invariant {step : Step σ α} {H : σ → α → Prop} {I : σ → Prop}
    (hstep : ∀ s a s', I s → step s a = some s' → I s')
    (himp : ∀ s a, I s → H s a) {as : List α} {s : σ} (hs : I s) : step.Along H s as :=
  Along.imp (G := fun _ _ => True) (fun s a s' h _ hs => hstep s a s' h hs)
    (fun s a h _ => himp s a h) hs (along_of_mem fun _ _ _ => trivial)

/-- What the steps of a run put out, in order. -/
def outputs (step : Step σ α) (out : σ → α → List β) : σ → List α → List β
  | _, [] => []
  | s, a :: as => out s a ++ match step s a with
    | some s' => outputs step out s' as
    | none => []

/-- THE HISTORY RULE: a history to which every step appends what it puts out
grows by the outputs of the run. -/
theorem history_eq {step : Step σ α} {out : σ → α → List β} {history : σ → List β}
    (hstep : ∀ s a s', step s a = some s' → history s' = history s ++ out s a) :
    ∀ {as : List α} {s t : σ}, step.run s as = some t →
      history t = history s ++ step.outputs out s as
  | [], _, _, h => by
    cases h
    exact (List.append_nil _).symm
  | a :: as, s, t, h => by
    obtain ⟨s', h1, h2⟩ := run_cons_eq_some.mp h
    rw [history_eq hstep h2, hstep s a s' h1, outputs, h1, List.append_assoc]

/-- THE TRACE RULE: what every step preserves of the state and the outputs so far holds of the last
state and the outputs of the run. -/
theorem outputs_induct {step : Step σ α} {out : σ → α → List β} {I : σ → List β → Prop}
    (hstep : ∀ s trace a s', I s trace → step s a = some s' → I s' (trace ++ out s a)) :
    ∀ {as : List α} {s t : σ} {trace : List β}, I s trace → step.run s as = some t →
      I t (trace ++ step.outputs out s as)
  | [], _, _, _, hs, h => by
    cases h
    rwa [outputs, List.append_nil]
  | a :: as, s, t, trace, hs, h => by
    obtain ⟨s', h1, h2⟩ := run_cons_eq_some.mp h
    rw [outputs, h1, ← List.append_assoc]
    exact outputs_induct hstep (hstep s trace a s' hs h1) h2

/-- A forward simulation: related states stay related when the concrete side
takes one guarded step and the abstract side takes some list of steps. -/
structure Simulates (step : Step σ α) (G : σ → α → Prop) (abs : Step τ β)
    (R : σ → τ → Prop) : Prop where
  matched : ∀ {s a s' t}, R s t → G s a → step s a = some s' →
    ∃ bs t', abs.run t bs = some t' ∧ R s' t'

/-- THE SIMULATION RULE: every guarded concrete run is matched by an abstract
run that ends in a related state. -/
theorem Simulates.run {step : Step σ α} {G : σ → α → Prop} {abs : Step τ β}
    {R : σ → τ → Prop} (sim : step.Simulates G abs R) :
    ∀ {as : List α} {s s' : σ} {t : τ}, R s t → step.Along G s as →
      step.run s as = some s' → ∃ bs t', abs.run t bs = some t' ∧ R s' t'
  | [], _, _, t, hr, _, h => by
    cases h
    exact ⟨[], t, rfl, hr⟩
  | a :: as, s, s', t, hr, hg, h => by
    obtain ⟨s₁, h1, h2⟩ := run_cons_eq_some.mp h
    obtain ⟨bs, t₁, hb, hr₁⟩ := sim.matched hr hg.head h1
    obtain ⟨cs, t₂, hc, hr₂⟩ := sim.run hr₁ (hg.tail h1) h2
    refine ⟨bs ++ cs, t₂, ?_, hr₂⟩
    rw [run_append, hb, Option.bind_some, hc]

end Step

end Lib
