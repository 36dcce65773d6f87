import LogCollector.Lib.Machine

/-!
# Reserved intervals of a growing sequence

Threads reserve consecutive positions at the head of a sequence, work on them,
and hand them on at the tail. `Tiled` says that the reservations in progress
are non-empty, do not overlap, and cover exactly the positions between tail
and head. It is kept when a reservation is made at the head and when one that
starts at the tail is handed on, so positions are handed on in the order in
which they were reserved.
-/

namespace Lib

/-- The reservations `hold` (start and length, per holder) tile `[tail, head)`. -/
structure Tiled {ι : Type*} (hold : ι → Option (Nat × Nat)) (tail head : Nat) : Prop where
  le : tail ≤ head
  inside : ∀ {t a n}, hold t = some (a, n) → 0 < n ∧ tail ≤ a ∧ a + n ≤ head
  apart : ∀ {t u a n b m}, hold t = some (a, n) → hold u = some (b, m) → t ≠ u →
    a + n ≤ b ∨ b + m ≤ a
  covered : ∀ {p}, tail ≤ p → p < head → ∃ t a n, hold t = some (a, n) ∧ a ≤ p ∧ p < a + n

namespace Tiled

variable {ι : Type*} {hold : ι → Option (Nat × Nat)} {tail head : Nat}

/-- Where nothing is reserved there is nothing to reserve. -/
theorem none_held (p : Nat) : Tiled (fun _ : ι => none) p p where
  le := Nat.le_refl p
  inside h := by cases h
  apart h := by cases h
  covered h h' := absurd h' (Nat.not_lt.mpr h)

/-- When nobody holds a reservation the tail has caught up with the head. -/
theorem tail_eq_head (h : Tiled hold tail head) (hidle : ∀ t, hold t = none) : tail = head := by
  by_contra hne
  obtain ⟨t, a, n, ht, -⟩ := h.covered (Nat.le_refl tail) (by have := h.le; omega)
  rw [hidle t] at ht
  cases ht

/-- A reservation that starts at the tail comes before every other. -/
theorem first (h : Tiled hold tail head) {t u : ι} {n b m : Nat} (ht : hold t = some (tail, n))
    (hu : hold u = some (b, m)) (hne : u ≠ t) : tail + n ≤ b := by
  have := h.inside hu
  rcases h.apart ht hu hne.symm with hle | hle <;> omega

variable [DecidableEq ι]

/-- A holder reserves `n` positions at the head. -/
theorem reserve (h : Tiled hold tail head) {t : ι} {n : Nat} (hn : 0 < n)
    (ht : hold t = none) : Tiled (Function.update hold t (some (head, n))) tail (head + n) where
  le := by have := h.le; omega
  inside := by
    intro u a m hu
    rcases eq_or_ne u t with rfl | hne
    · rw [Function.update_self] at hu
      cases hu
      exact ⟨hn, h.le, Nat.le_refl _⟩
    · rw [Function.update_of_ne hne] at hu
      obtain ⟨hm, hta, hah⟩ := h.inside hu
      exact ⟨hm, hta, by omega⟩
  apart := by
    intro u v a m b l hu hv huv
    rcases eq_or_ne u t with rfl | hut
    · rw [Function.update_self] at hu
      rw [Function.update_of_ne huv.symm] at hv
      cases hu
      exact .inr (h.inside hv).2.2
    · rw [Function.update_of_ne hut] at hu
      rcases eq_or_ne v t with rfl | hvt
      · rw [Function.update_self] at hv
        cases hv
        exact .inl (h.inside hu).2.2
      · rw [Function.update_of_ne hvt] at hv
        exact h.apart hu hv huv
  covered := by
    intro p htp hp
    by_cases hlt : p < head
    · obtain ⟨u, a, m, hu, hap, hpa⟩ := h.covered htp hlt
      have hne : u ≠ t := by
        rintro rfl
        rw [ht] at hu
        cases hu
      exact ⟨u, a, m, by rw [Function.update_of_ne hne, hu], hap, hpa⟩
    · exact ⟨t, head, n, by rw [Function.update_self], by omega, hp⟩

/-- The holder at the tail hands its positions on. -/
theorem release (h : Tiled hold tail head) {t : ι} {n : Nat} (ht : hold t = some (tail, n)) :
    Tiled (Function.update hold t none) (tail + n) head where
  le := (h.inside ht).2.2
  inside := by
    intro u a m hu
    rcases eq_or_ne u t with rfl | hne
    · rw [Function.update_self] at hu
      cases hu
    · rw [Function.update_of_ne hne] at hu
      obtain ⟨hm, -, hah⟩ := h.inside hu
      exact ⟨hm, h.first ht hu hne, hah⟩
  apart := by
    intro u v a m b l hu hv huv
    have hut : u ≠ t := by
      rintro rfl
      rw [Function.update_self] at hu
      cases hu
    have hvt : v ≠ t := by
      rintro rfl
      rw [Function.update_self] at hv
      cases hv
    rw [Function.update_of_ne hut] at hu
    rw [Function.update_of_ne hvt] at hv
    exact h.apart hu hv huv
  covered := by
    intro p htp hp
    obtain ⟨u, a, m, hu, hap, hpa⟩ := h.covered (by omega) hp
    have hne : u ≠ t := by
      rintro rfl
      rw [ht] at hu
      cases hu
      omega
    exact ⟨u, a, m, by rw [Function.update_of_ne hne, hu], hap, hpa⟩

end Tiled

end Lib
