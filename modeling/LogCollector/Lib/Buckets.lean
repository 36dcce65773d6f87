import Mathlib

/-!
# The contents of a table of lists

What the buckets of a hash table hold, listed bucket by bucket: what becomes of that list when
one bucket changes, and where an element of one bucket stands in it.
-/

namespace Lib.Buckets

variable {A : Type*}

/-- The elements of the first `n` buckets. -/
def all (n : Nat) (bucket : Nat → List A) : List A := (List.range n).flatMap bucket

variable {n i : Nat} {bucket bucket' : Nat → List A}

theorem mem_all {a : A} : a ∈ all n bucket ↔ ∃ i < n, a ∈ bucket i := by
  simp only [all, List.mem_flatMap, List.mem_range]

theorem all_succ : all (n + 1) bucket = all n bucket ++ bucket n := by
  rw [all, List.range_succ, List.flatMap_append, List.flatMap_singleton]
  rfl

theorem all_congr (h : ∀ i < n, bucket' i = bucket i) : all n bucket' = all n bucket := by
  apply List.flatMap_congr
  intro i hi
  exact h i (List.mem_range.mp hi)

/-- The elements before a bucket, the bucket, and the elements behind it. -/
theorem all_eq_append (h : i < n) :
    all n bucket =
      all i bucket ++ (bucket i ++ (List.range' (i + 1) (n - (i + 1))).flatMap bucket) := by
  obtain ⟨m, rfl⟩ := Nat.exists_eq_add_of_lt h
  rw [all, List.range_eq_range', show i + m + 1 = i + (m + 1) by omega, ← List.range'_append_1,
    List.flatMap_append, ← List.range_eq_range', List.range'_succ, List.flatMap_cons,
    show i + (m + 1) - (i + 1) = m by omega, Nat.zero_add]
  rfl

/-- One bucket is replaced by another list. -/
theorem all_update (h : i < n) (l : List A) :
    all n (Function.update bucket i l) =
      all i bucket ++ (l ++ (List.range' (i + 1) (n - (i + 1))).flatMap bucket) := by
  rw [all_eq_append h, Function.update_self]
  congr 1
  · apply all_congr
    intro j hj
    exact Function.update_of_ne (Nat.ne_of_lt hj) l bucket
  · congr 1
    apply List.flatMap_congr
    intro j hj
    have hlt : i < j := by
      rw [List.mem_range'_1] at hj
      omega
    exact Function.update_of_ne (Nat.ne_of_gt hlt) l bucket

/-- An element that is added to a bucket is added to the contents. -/
theorem all_update_cons (bucket : Nat → List A) (h : i < n) (a : A) :
    (all n (Function.update bucket i (a :: bucket i))).Perm (a :: all n bucket) := by
  rw [all_update h, all_eq_append h, List.cons_append]
  exact List.perm_middle

/-- An element that is taken out of its bucket is taken out of the contents. -/
theorem all_update_erase [DecidableEq A] (h : i < n) {a : A} (hmem : a ∈ bucket i)
    (hbefore : a ∉ all i bucket) :
    all n (Function.update bucket i ((bucket i).erase a)) = (all n bucket).erase a := by
  rw [all_update h, all_eq_append h, List.erase_append_right _ hbefore,
    List.erase_append_left _ hmem]

/-- Buckets without repetition, each with elements of its own, have contents without
repetition. -/
theorem nodup_all (key : A → Nat) (hkey : ∀ i < n, ∀ a ∈ bucket i, key a = i)
    (hnodup : ∀ i < n, (bucket i).Nodup) : (all n bucket).Nodup := by
  induction n with
  | zero => exact List.nodup_nil
  | succ n ih =>
    rw [all_succ, List.nodup_append]
    refine ⟨ih ?_ ?_, hnodup n (Nat.lt_succ_self n), ?_⟩
    · intro i hi
      exact hkey i (Nat.lt_succ_of_lt hi)
    · intro i hi
      exact hnodup i (Nat.lt_succ_of_lt hi)
    · rintro a ha b hb rfl
      obtain ⟨i, hi, hai⟩ := mem_all.mp ha
      have hi' := hkey i (Nat.lt_succ_of_lt hi) a hai
      have hn := hkey n (Nat.lt_succ_self n) a hb
      omega

end Lib.Buckets
