import Mathlib

/-!
# Members that are overwritten

A list of operations is applied to a state. An operation assigns a member of the
state or leaves it alone, so afterwards the member has the value assigned last, or
what it had before. What matters of two first states is then easily said: they are
told apart through a member that differs and is not assigned. A member that only grows
tells them apart wherever it differs.
-/

namespace Lib.Overwrite

variable {σ α V W : Type*} {step : σ → α → σ} {ops : List α}

/-- THE ASSIGNMENT RULE: a member is the same afterwards if and only if it was before,
or an operation assigns it. -/
theorem foldl_eq_iff (get : σ → V) {assigned : α → Option V}
    (hstep : ∀ s, ∀ op ∈ ops, get (step s op) = (assigned op).getD (get s)) (s s' : σ) :
    get (ops.foldl step s) = get (ops.foldl step s') ↔
      get s = get s' ∨ ∃ op ∈ ops, (assigned op).isSome := by
  induction ops generalizing s s' with
  | nil => simp
  | cons op ops ih =>
    have hrest := ih (fun s op' hop => hstep s op' (List.mem_cons_of_mem op hop))
    rw [List.foldl_cons, List.foldl_cons, hrest, hstep s op List.mem_cons_self,
      hstep s' op List.mem_cons_self]
    cases hop : assigned op with
    | none => simp [hop]
    | some v => simp [hop]

/-- What is added to a member that grows does not depend on the state. -/
theorem foldl_append (get : σ → List W) {added : α → List W}
    (hstep : ∀ s, ∀ op ∈ ops, get (step s op) = get s ++ added op) (s : σ) :
    get (ops.foldl step s) = get s ++ ops.flatMap added := by
  induction ops generalizing s with
  | nil => simp
  | cons op ops ih =>
    rw [List.foldl_cons, ih (fun s op' hop => hstep s op' (List.mem_cons_of_mem op hop)),
      hstep s op List.mem_cons_self, List.flatMap_cons, List.append_assoc]

/-- THE GROWTH RULE: such a member is the same afterwards if and only if it was before. -/
theorem foldl_append_eq_iff (get : σ → List W) {added : α → List W}
    (hstep : ∀ s, ∀ op ∈ ops, get (step s op) = get s ++ added op) (s s' : σ) :
    get (ops.foldl step s) = get (ops.foldl step s') ↔ get s = get s' := by
  rw [foldl_append get hstep, foldl_append get hstep, List.append_left_inj]

end Lib.Overwrite
