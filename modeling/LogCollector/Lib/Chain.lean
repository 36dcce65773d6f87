import Mathlib

/-!
# Chains of cells in a memory

A singly linked list lies in a memory as cells that hold each other's addresses. `Chain` says
which addresses are visited from a link, all of them in use, before the null one; so what is
proved of a list of addresses is proved of the memory. A chain is determined by the memory, has
no address twice, and is left alone by what happens to other addresses.
-/

namespace Lib

variable {A : Type*} {C : Type*}

/-- From the link `p` the cells at these addresses are visited, each in use, and then the null
link. -/
inductive Chain (memory : A → Option C) (next : C → Option A) : Option A → List A → Prop
  | nil : Chain memory next none []
  | cons {a : A} {c : C} {as : List A} (read : memory a = some c)
      (rest : Chain memory next (next c) as) : Chain memory next (some a) (a :: as)

namespace Chain

variable {memory memory' : A → Option C} {next : C → Option A} {p : Option A} {as bs : List A}
  {a b : A} {c : C}

theorem eq_nil (h : Chain memory next none as) : as = [] := by
  cases h
  rfl

/-- The first cell of a chain, and the chain behind it. -/
theorem exists_cons (h : Chain memory next (some a) as) :
    ∃ c bs, as = a :: bs ∧ memory a = some c ∧ Chain memory next (next c) bs := by
  cases h with
  | cons read rest => exact ⟨_, _, rfl, read, rest⟩

/-- A link is null where nothing is visited, and otherwise has the first address. -/
theorem head_eq (h : Chain memory next p as) : p = as.head? := by
  cases h with
  | nil => rfl
  | cons => rfl

/-- The memory determines the chain. -/
theorem unique (h : Chain memory next p as) : ∀ {bs}, Chain memory next p bs → as = bs := by
  induction h with
  | nil =>
    intro bs h
    exact h.eq_nil.symm
  | cons read rest ih =>
    intro bs h
    obtain ⟨c, bs, rfl, hread, hrest⟩ := h.exists_cons
    cases read.symm.trans hread
    rw [ih hrest]

/-- Every address of a chain is in use. -/
theorem exists_read (h : Chain memory next p as) : ∀ {a}, a ∈ as → ∃ c, memory a = some c := by
  induction h with
  | nil =>
    intro a ha
    cases ha
  | cons read rest ih =>
    intro a ha
    rcases List.mem_cons.mp ha with rfl | ha
    · exact ⟨_, read⟩
    · exact ih ha

/-- What does not touch its cells leaves a chain alone. -/
theorem frame (h : Chain memory next p as) :
    (∀ a ∈ as, memory' a = memory a) → Chain memory' next p as := by
  induction h with
  | nil => exact fun _ => .nil
  | cons read rest ih =>
    intro hsame
    refine .cons ((hsame _ List.mem_cons_self).trans read) (ih ?_)
    intro a ha
    exact hsame a (List.mem_cons_of_mem _ ha)

/-- A chain goes on from each of its cells. -/
theorem suffix : ∀ {as : List A} {p : Option A}, Chain memory next p (as ++ bs) →
    ∃ q, Chain memory next q bs
  | [], _, h => ⟨_, h⟩
  | _ :: _, _, .cons _ rest => suffix rest

/-- What a cell of a chain links to. -/
theorem next_eq (as : List A) (h : Chain memory next p (as ++ a :: bs))
    (hread : memory a = some c) :
    Chain memory next (next c) bs := by
  obtain ⟨q, hq⟩ := h.suffix
  cases hq with
  | cons read rest =>
    cases read.symm.trans hread
    exact rest

/-- No address is visited twice: from the second visit on the chain would be the same as from
the first, and longer. -/
theorem nodup (h : Chain memory next p as) : as.Nodup := by
  induction h with
  | nil => exact List.nodup_nil
  | @cons a c as read rest ih =>
    refine List.nodup_cons.mpr ⟨?_, ih⟩
    intro hmem
    obtain ⟨before, after, rfl⟩ := List.append_of_mem hmem
    have hsame : before ++ a :: after = after := rest.unique (rest.next_eq before read)
    have := congrArg List.length hsame
    rw [List.length_append, List.length_cons] at this
    omega

/-- A chain is no longer than there are addresses. -/
theorem length_le_card [Fintype A] (h : Chain memory next p as) : as.length ≤ Fintype.card A :=
  h.nodup.length_le_card

/-- A new cell in front. -/
theorem push {c : C} (h : Chain memory next p as) (ha : a ∉ as) (hread : memory' a = some c)
    (hnext : next c = p) (hsame : ∀ b, b ≠ a → memory' b = memory b) :
    Chain memory' next (some a) (a :: as) := by
  refine .cons hread ?_
  rw [hnext]
  apply h.frame
  intro b hb
  exact hsame b fun heq => ha (heq ▸ hb)

/-- A cell is taken out of the chain when the one before it links past it. -/
theorem unlink {ca cb : C} : ∀ {before : List A} {p : Option A},
    Chain memory next p (before ++ b :: a :: bs) → memory a = some ca →
    memory' b = some cb → next cb = next ca → (∀ x, x ≠ b → memory' x = memory x) →
    Chain memory' next p (before ++ b :: bs)
  | [], _, h, ha, hb, hnext, hsame => by
    have htail : Chain memory next (next ca) bs := next_eq [b] h ha
    have hnotMem : b ∉ a :: bs := (List.nodup_cons.mp h.nodup).1
    cases h with
    | cons read rest =>
      refine .cons hb ?_
      rw [hnext]
      apply htail.frame
      intro x hx
      exact hsame x fun heq => hnotMem (heq ▸ List.mem_cons_of_mem a hx)
  | x :: before, _, h, ha, hb, hnext, hsame => by
    have hnodup := h.nodup
    cases h with
    | cons read rest =>
      have hx : x ≠ b := by
        rintro rfl
        exact (List.nodup_cons.mp hnodup).1 (List.mem_append_right before List.mem_cons_self)
      exact .cons ((hsame x hx).trans read) (unlink rest ha hb hnext hsame)

end Chain

end Lib
