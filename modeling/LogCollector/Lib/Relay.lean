import LogCollector.Lib.BoundedQueue

/-!
# Relays

A relay takes items from a source, holds some of them and hands them on to a sink. It may drop an
item, but what it hands on keeps its order: what is in the sink, followed by what the relay holds,
is a subsequence of what is in the source. Relays in a row are a relay, and a bounded queue is one.

Several relays may hand on to one sink. Then each keeps the order of its own items there.
-/

namespace Lib

variable {α : Type*}

/-- What the relay handed on and what it holds came from the source, in this order. -/
def Relay (source held sink : List α) : Prop := (sink ++ held).Sublist source

namespace Relay

variable {source source' held held' middle passed sink : List α} {x : α}

/-- Before anything was handed on. -/
theorem start : Relay source [] [] := List.nil_sublist source

/-- What is in the sink is in the source. -/
theorem sublist (h : Relay source held sink) : sink.Sublist source :=
  (List.sublist_append_left sink held).trans h

/-- An item enters an idle relay. -/
theorem enter (h : Relay source [] sink) (x : α) : Relay (source ++ [x]) [x] sink := by
  rw [Relay, List.append_nil] at h
  exact h.append (List.Sublist.refl [x])

/-- The relay hands on what it holds, or part of it, and drops the rest. -/
theorem pass (h : Relay source held sink) (hpassed : passed.Sublist held) :
    Relay source [] (sink ++ passed) := by
  rw [Relay, List.append_nil]
  exact (hpassed.append_left sink).trans h

/-- The relay drops what it holds. -/
theorem drop (h : Relay source held sink) : Relay source [] sink := by
  rw [← sink.append_nil]
  exact h.pass (List.nil_sublist held)

/-- The source gets items the relay does not take. -/
theorem grow (h : Relay source held sink) (hsource : source.Sublist source') :
    Relay source' held sink := h.trans hsource

/-- RELAYS IN A ROW are a relay, which holds what they hold. -/
theorem trans (h : Relay source held middle) (h' : Relay middle held' sink) :
    Relay source (held' ++ held) sink := by
  rw [Relay, ← List.append_assoc]
  exact (h'.append_right held).trans h

end Relay

/-- Of the items in the sink, those that come from the source are relayed. -/
def SharedRelay (source held sink : List α) : Prop :=
  ∀ l : List α, l.Sublist sink → l ⊆ source → Relay source held l

namespace SharedRelay

variable {source held passed sink : List α} {x : α}

theorem start : SharedRelay source [] ([] : List α) := by
  intro l hl _
  rw [List.sublist_nil.mp hl]
  exact Relay.start

/-- An item that is not in the sink enters an idle relay. -/
theorem enter (h : SharedRelay source [] sink) (hx : x ∉ sink) :
    SharedRelay (source ++ [x]) [x] sink := by
  intro l hl hsource
  refine (h l hl fun y hy => ?_).enter x
  rcases List.mem_append.mp (hsource hy) with hy' | hy'
  · exact hy'
  · rw [List.mem_singleton.mp hy'] at hy
    exact absurd (hl.subset hy) hx

/-- The relay hands on what it holds, or part of it, and drops the rest. -/
theorem pass (h : SharedRelay source held sink) (hpassed : passed.Sublist held) :
    SharedRelay source [] (sink ++ passed) := by
  intro l hl hsource
  obtain ⟨l₁, l₂, rfl, hl₁, hl₂⟩ := List.sublist_append_iff.mp hl
  exact (h l₁ hl₁ fun x hx => hsource (List.mem_append_left l₂ hx)).pass (hl₂.trans hpassed)

theorem drop (h : SharedRelay source held sink) : SharedRelay source [] sink := by
  rw [← sink.append_nil]
  exact h.pass (List.nil_sublist held)

/-- Another relay hands on an item that does not come from the source. -/
theorem foreign (h : SharedRelay source held sink) (hx : x ∉ source) :
    SharedRelay source held (sink ++ [x]) := by
  intro l hl hsource
  obtain ⟨l₁, l₂, rfl, hl₁, hl₂⟩ := List.sublist_append_iff.mp hl
  have hnone : l₂ = [] := by
    apply List.eq_nil_iff_forall_not_mem.mpr
    intro y hy
    rw [List.mem_singleton.mp (hl₂.subset hy)] at hy
    exact hx (hsource (List.mem_append_right l₁ hy))
  rw [hnone, List.append_nil]
  exact h l₁ hl₁ fun y hy => hsource (List.mem_append_left l₂ hy)

/-- What is relayed further on keeps its order too. -/
theorem sublist (h : SharedRelay source held sink) {l : List α} (hl : l.Sublist sink)
    (hsource : l ⊆ source) : l.Sublist source := (h l hl hsource).sublist

end SharedRelay

namespace BoundedQueue

variable {capacity : Nat} {q r : BoundedQueue α capacity} {x : α}

theorem push_history (h : q.push x = some r) : r.entered = q.entered ++ [x] ∧ r.left = q.left := by
  rw [push, put] at h
  split at h
  · cases h
    exact ⟨rfl, rfl⟩
  · cases h

theorem pop_history (h : q.pop = some (x, r)) : r.entered = q.entered ∧ r.left = q.left ++ [x] := by
  rw [pop] at h
  split at h
  · cases h
  · next y rest hitems =>
    obtain ⟨r', hr, hpair⟩ := Option.map_eq_some_iff.mp h
    obtain ⟨rfl, rfl⟩ := Prod.mk.inj hpair
    rw [take] at hr
    split at hr
    · cases hr
      refine ⟨rfl, ?_⟩
      change q.left ++ q.items.take 1 = q.left ++ [y]
      rw [hitems, List.take_succ_cons, List.take_zero]
    · cases hr

/-- A bounded queue is a relay of what enters it. -/
theorem relay (q : BoundedQueue α capacity) : Relay q.entered q.items q.left := by
  rw [Relay, q.fifo]

end BoundedQueue

end Lib
