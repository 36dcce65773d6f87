import Mathlib

/-!
# Loops that may fail

A loop over a list whose rounds answer an `Option` stops where a round answers
nothing. `mapM_eq_some` says what such a loop collects; the other rules say
what holds where a loop that changes a state has run to its end.
-/

namespace Lib.Fallible

variable {α β : Type*}

/-- The results are those of the rounds, in order. -/
theorem mapM_eq_some {f : α → Option β} : ∀ {xs : List α} {ys : List β},
    xs.mapM f = some ys ↔ xs.map f = ys.map some
  | [], ys => by
    rw [List.mapM_nil, List.map_nil, eq_comm (a := ([] : List (Option β))), List.map_eq_nil_iff]
    exact ⟨fun h => (Option.some.inj h).symm, fun h => congrArg some h.symm⟩
  | x :: xs, ys => by
    rw [List.mapM_cons, List.map_cons]
    cases hx : f x with
    | none =>
      refine ⟨nofun, ?_⟩
      intro h
      cases ys <;> cases h
    | some y =>
      cases ys with
      | nil => cases hxs : xs.mapM f <;> simp
      | cons y' ys =>
        rw [List.map_cons, List.cons.injEq, Option.some.injEq, ← mapM_eq_some]
        cases hxs : xs.mapM f <;> simp

/-- The result at an index is that of the round at this index. -/
theorem getElem?_mapM {f : α → Option β} {xs : List α} {ys : List β} (h : xs.mapM f = some ys)
    (i : Nat) : ys[i]?.map some = xs[i]?.map f := by
  rw [← List.getElem?_map, ← List.getElem?_map, mapM_eq_some.mp h]

/-- A loop collects something where no round fails. -/
theorem mapM_isSome {f : α → Option β} {xs : List α} (h : ∀ x ∈ xs, (f x).isSome) :
    ∃ ys, xs.mapM f = some ys := by
  induction xs with
  | nil => exact ⟨[], rfl⟩
  | cons x xs ih =>
    obtain ⟨y, hy⟩ := Option.isSome_iff_exists.mp (h x List.mem_cons_self)
    obtain ⟨ys, hys⟩ := ih fun x' hx' => h x' (List.mem_cons_of_mem x hx')
    exact ⟨y :: ys, by simp only [List.mapM_cons, hy, hys]; rfl⟩

/-- The rounds that can fail decide whether the loop does. -/
theorem foldlM_isSome_iff {f : β → α → Option β} {ok : α → Prop}
    (hok : ∀ b a, (f b a).isSome ↔ ok a) {xs : List α} :
    ∀ {b : β}, (xs.foldlM f b).isSome ↔ ∀ a ∈ xs, ok a := by
  induction xs with
  | nil => exact fun {b} => iff_of_true rfl nofun
  | cons x xs ih =>
    intro b
    rw [List.foldlM_cons, List.forall_mem_cons, ← hok b x]
    cases hx : f b x with
    | none => exact iff_of_false nofun fun h => by cases h.1
    | some b' => exact ih.trans (and_iff_right rfl).symm

/-- Loops whose rounds agree wherever an invariant holds agree. -/
theorem foldlM_congr {f g : β → α → Option β} {I : β → Prop} {xs : List α}
    (hstep : ∀ b a b', a ∈ xs → I b → g b a = some b' → I b')
    (heq : ∀ b a, a ∈ xs → I b → f b a = g b a) :
    ∀ {b : β}, I b → xs.foldlM f b = xs.foldlM g b := by
  induction xs with
  | nil => exact fun _ => rfl
  | cons x xs ih =>
    intro b hb
    rw [List.foldlM_cons, List.foldlM_cons, heq b x List.mem_cons_self hb]
    cases hx : g b x with
    | none => rfl
    | some b' =>
      exact ih (fun b a b' ha => hstep b a b' (List.mem_cons_of_mem x ha))
        (fun b a ha => heq b a (List.mem_cons_of_mem x ha))
        (hstep b x b' List.mem_cons_self hb hx)

/-- THE LOOP INVARIANT: what every round keeps holds at the end. -/
theorem foldlM_induct {f : β → α → Option β} {I : β → Prop} {xs : List α}
    (hstep : ∀ b a b', a ∈ xs → I b → f b a = some b' → I b') :
    ∀ {b b' : β}, I b → xs.foldlM f b = some b' → I b' := by
  induction xs with
  | nil =>
    intro b b' hb h
    cases h
    exact hb
  | cons x xs ih =>
    intro b b' hb h
    rw [List.foldlM_cons] at h
    obtain ⟨b₁, h1, h2⟩ := Option.bind_eq_some_iff.mp h
    exact ih (fun b a b' ha => hstep b a b' (List.mem_cons_of_mem x ha))
      (hstep b x b₁ List.mem_cons_self hb h1) h2

/-- What one round brings about and every round keeps holds at the end. -/
theorem foldlM_of_mem {f : β → α → Option β} {P : β → Prop} {x : α}
    (hbrings : ∀ b b', f b x = some b' → P b')
    (hkeeps : ∀ b a b', P b → f b a = some b' → P b') {xs : List α} (hx : x ∈ xs) :
    ∀ {b b' : β}, xs.foldlM f b = some b' → P b' := by
  obtain ⟨before, after, rfl⟩ := List.append_of_mem hx
  intro b b' h
  rw [List.foldlM_append] at h
  obtain ⟨b₁, -, h2⟩ := Option.bind_eq_some_iff.mp h
  rw [List.foldlM_cons] at h2
  obtain ⟨b₂, h3, h4⟩ := Option.bind_eq_some_iff.mp h2
  exact foldlM_induct (fun b a b' _ => hkeeps b a b') (hbrings b₁ b₂ h3) h4

/-! ## Rounds that first read and then change the state -/

section

variable {ε σ : Type*} {round : σ → α → Except ε σ} {read : α → Except ε β}
  {apply : σ → β → Except ε σ}

/-- Where all is read, the loop applies what is read. -/
theorem foldlM_eq_of_mapM (hround : ∀ s x, round s x = (read x).bind (apply s)) {xs : List α} :
    ∀ {ys : List β} {s : σ}, xs.mapM read = .ok ys → xs.foldlM round s = ys.foldlM apply s := by
  induction xs with
  | nil =>
    intro ys s h
    cases h
    rfl
  | cons x xs ih =>
    intro ys s h
    rw [List.mapM_cons] at h
    cases hx : read x with
    | error e =>
      rw [hx] at h
      cases h
    | ok y =>
      cases hxs : xs.mapM read with
      | error e =>
        rw [hx, hxs] at h
        cases h
      | ok ys' =>
        rw [hx, hxs] at h
        cases h
        rw [List.foldlM_cons, List.foldlM_cons, hround, hx]
        exact congrArg _ (funext fun _ => ih hxs)

/-- A loop that ends has read all. -/
theorem mapM_of_foldlM (hround : ∀ s x, round s x = (read x).bind (apply s)) {xs : List α} :
    ∀ {s s' : σ}, xs.foldlM round s = .ok s' → ∃ ys, xs.mapM read = .ok ys := by
  induction xs with
  | nil => exact fun _ => ⟨[], rfl⟩
  | cons x xs ih =>
    intro s s' h
    rw [List.foldlM_cons, hround] at h
    cases hx : read x with
    | error e =>
      rw [hx] at h
      cases h
    | ok y =>
      rw [hx] at h
      cases hs : apply s y with
      | error e =>
        rw [show (Except.ok y).bind (apply s) = _ from hs] at h
        cases h
      | ok s₁ =>
        rw [show (Except.ok y).bind (apply s) = _ from hs] at h
        obtain ⟨ys, hys⟩ := ih h
        exact ⟨y :: ys, by rw [List.mapM_cons, hx, hys]; rfl⟩

end

/-! ## Rounds that may report an error -/

section

variable {ε σ : Type*}

/-- A computation that goes on with what another one returns. -/
theorem bind_eq_ok {x : Except ε α} {f : α → Except ε β} {b : β} :
    x.bind f = .ok b ↔ ∃ a, x = .ok a ∧ f a = .ok b := by
  cases x with
  | error e =>
    refine iff_of_false nofun ?_
    rintro ⟨a, h, -⟩
    cases h
  | ok a =>
    refine ⟨fun h => ⟨a, rfl, h⟩, ?_⟩
    rintro ⟨a', h, hf⟩
    cases h
    exact hf

/-- What a loop collects comes from its rounds. -/
theorem exists_of_mem_mapM {read : α → Except ε β} {xs : List α} :
    ∀ {ys : List β} {y : β}, xs.mapM read = .ok ys → y ∈ ys → ∃ x ∈ xs, read x = .ok y := by
  induction xs with
  | nil =>
    intro ys y h hy
    cases h
    exact absurd hy List.not_mem_nil
  | cons x xs ih =>
    intro ys y h hy
    rw [List.mapM_cons] at h
    cases hx : read x with
    | error e =>
      rw [hx] at h
      cases h
    | ok first =>
      cases hxs : xs.mapM read with
      | error e =>
        rw [hx, hxs] at h
        cases h
      | ok rest =>
        rw [hx, hxs] at h
        cases h
        rcases List.mem_cons.mp hy with rfl | hy
        · exact ⟨x, List.mem_cons_self, hx⟩
        · obtain ⟨x', hx', hread⟩ := ih hxs hy
          exact ⟨x', List.mem_cons_of_mem x hx', hread⟩

/-- A loop of checks comes to its end where every check holds. -/
theorem forM_check (check : α → Prop) [DecidablePred check] (e : ε) (xs : List α) :
    (forM xs fun x => if check x then Except.ok () else Except.error e) =
      if ∀ x ∈ xs, check x then .ok () else .error e := by
  induction xs with
  | nil => exact (if_pos nofun).symm
  | cons x xs ih =>
    rw [List.forM_cons, ih]
    by_cases hx : check x
    · rw [if_pos hx, if_congr (List.forall_mem_cons.trans (and_iff_right hx)) rfl rfl]
      rfl
    · have hnot : ¬∀ x' ∈ x :: xs, check x' := fun h => hx (h x List.mem_cons_self)
      rw [if_neg hx, if_neg hnot]
      rfl

/-- A LOOP FAILS ONLY AS IT REPORTS where every round up to the first that rejects its input
is in order, if what a round does is a matter of its input alone. -/
theorem foldlM_reports_iff (round : σ → α → Except ε σ) (reported : ε → Prop)
    (rejects : α → Bool) (ok : α → Prop) {xs : List α}
    (hrejects : ∀ s, ∀ x ∈ xs, rejects x → ∃ e, reported e ∧ round s x = .error e)
    (hok : ∀ s, ∀ x ∈ xs, ¬rejects x → ok x → ∃ s', round s x = .ok s')
    (hbad : ∀ s, ∀ x ∈ xs, ¬rejects x → ¬ok x → ∃ e, ¬reported e ∧ round s x = .error e) :
    ∀ {s : σ}, (∀ e, xs.foldlM round s = .error e → reported e) ↔
      ∀ x ∈ xs.takeWhile (!rejects ·), ok x := by
  induction xs with
  | nil =>
    intro s
    refine iff_of_true ?_ fun x hx => absurd hx List.not_mem_nil
    intro e h
    cases h
  | cons x xs ih =>
    intro s
    have ih {s : σ} := ih (fun s y hy => hrejects s y (List.mem_cons_of_mem x hy))
      (fun s y hy => hok s y (List.mem_cons_of_mem x hy))
      (fun s y hy => hbad s y (List.mem_cons_of_mem x hy)) (s := s)
    rw [List.foldlM_cons]
    by_cases hx : rejects x
    · obtain ⟨e, hreported, hround⟩ := hrejects s x List.mem_cons_self hx
      rw [hround, List.takeWhile_cons_of_neg (by simp [hx])]
      refine iff_of_true ?_ fun y hy => absurd hy List.not_mem_nil
      intro e' h
      cases h
      exact hreported
    · rw [List.takeWhile_cons_of_pos (by simp [hx]), List.forall_mem_cons]
      by_cases hokx : ok x
      · obtain ⟨s', hround⟩ := hok s x List.mem_cons_self hx hokx
        rw [hround]
        exact ih.trans (and_iff_right hokx).symm
      · obtain ⟨e, hreported, hround⟩ := hbad s x List.mem_cons_self hx hokx
        rw [hround]
        exact iff_of_false (fun h => hreported (h e rfl)) fun h => hokx h.1

end

end Lib.Fallible
