import LogCollector.Lib.Machine

/-!
# Something happens along a run

`Along` says that every step of a run meets a guard, `Sometime` that one of them
does. What a run puts out was put out by one of its steps
(`sometime_of_mem_outputs`), and what a step puts out may be read as something
else that it does (`Sometime.imp`).
-/

namespace Lib.Step

variable {σ : Type*} {α : Type*}

/-- Some step of the run meets `G`, read at the state before the step. -/
def Sometime (step : Step σ α) (G : σ → α → Prop) : σ → List α → Prop
  | _, [] => False
  | s, a :: as => G s a ∨ match step s a with
    | some s' => Sometime step G s' as
    | none => False

theorem sometime_cons {step : Step σ α} {G : σ → α → Prop} {s : σ} {a : α} {as : List α} :
    step.Sometime G s (a :: as) ↔ G s a ∨ ∃ s', step s a = some s' ∧ step.Sometime G s' as := by
  apply or_congr_right
  cases h : step s a with
  | none => exact iff_of_false id fun ⟨_, h, _⟩ => nomatch h
  | some s' => exact ⟨fun hs => ⟨s', rfl, hs⟩, fun ⟨_, heq, hs⟩ => Option.some.inj heq ▸ hs⟩

/-- Under an invariant of the steps, what implies something else at each step
implies that it happens. -/
theorem Sometime.imp {step : Step σ α} {G H : σ → α → Prop} {I : σ → Prop}
    (hstep : ∀ s a s', I s → step s a = some s' → I s') (himp : ∀ s a, I s → G s a → H s a) :
    ∀ {as : List α} {s : σ}, I s → step.Sometime G s as → step.Sometime H s as
  | [], _, _, h => h
  | a :: as, s, hs, h => by
    rcases sometime_cons.mp h with hhead | ⟨s', heq, htail⟩
    · exact .inl (himp s a hs hhead)
    · exact sometime_cons.mpr (.inr ⟨s', heq, htail.imp hstep himp (hstep s a s' hs heq)⟩)

/-- A step of a run puts out what is among the outputs of the run. -/
theorem sometime_of_mem_outputs {β : Type*} {step : Step σ α} {out : σ → α → List β} {b : β} :
    ∀ {as : List α} {s t : σ}, step.run s as = some t → b ∈ step.outputs out s as →
      step.Sometime (fun s a => b ∈ out s a ∧ (step s a).isSome) s as
  | [], _, _, _, h => absurd h List.not_mem_nil
  | a :: as, s, t, hrun, h => by
    obtain ⟨s', hstep, hrest⟩ := run_cons_eq_some.mp hrun
    rw [outputs, hstep] at h
    rcases List.mem_append.mp h with hhead | htail
    · exact .inl ⟨hhead, Option.isSome_of_eq_some hstep⟩
    · exact sometime_cons.mpr (.inr ⟨s', hstep, sometime_of_mem_outputs hrest htail⟩)

end Lib.Step
