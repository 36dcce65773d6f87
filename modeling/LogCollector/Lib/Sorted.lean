import LogCollector.Lib.Assoc

/-!
# Finite maps in the order of their keys

A map listed in some order is sorted by its keys. What is put in or out of order has the same
sorted list exactly where it is the same map.
-/

namespace Lib.Assoc

variable {κ : Type*} {ν μ : Type*} [LinearOrder κ]

/-- The pairs, the one with the least key first. -/
def sorted (l : List (κ × ν)) : List (κ × ν) := l.insertionSort fun p q => p.1 ≤ q.1

theorem sorted_perm (l : List (κ × ν)) : (sorted l).Perm l := List.perm_insertionSort _ l

theorem mem_sorted {l : List (κ × ν)} {p : κ × ν} : p ∈ sorted l ↔ p ∈ l := (sorted_perm l).mem_iff

theorem pairwise_sorted (l : List (κ × ν)) : (sorted l).Pairwise fun p q => p.1 ≤ q.1 := by
  have : Std.Total fun p q : κ × ν => p.1 ≤ q.1 := ⟨fun p q => le_total p.1 q.1⟩
  have : IsTrans (κ × ν) fun p q => p.1 ≤ q.1 := ⟨fun _ _ _ => le_trans⟩
  exact List.pairwise_insertionSort _ l

/-- The order is that of the keys, whatever their values are. -/
theorem sorted_map (f : ν → μ) (l : List (κ × ν)) :
    sorted (l.map fun p => (p.1, f p.2)) = (sorted l).map fun p => (p.1, f p.2) := by
  rw [sorted, sorted, List.map_insertionSort _ fun p q : κ × μ => p.1 ≤ q.1]
  exact fun _ _ _ _ => Iff.rfl

/-- Where no key is listed twice, one order is as good as another. -/
theorem sorted_eq_of_perm {l l' : List (κ × ν)} (hkeys : (keys l).Nodup) (h : l.Perm l') :
    sorted l = sorted l' := by
  have hperm : (sorted l).Perm (sorted l') := (sorted_perm l).trans (h.trans (sorted_perm l').symm)
  refine List.Perm.eq_of_pairwise ?_ (pairwise_sorted l) (pairwise_sorted l') hperm
  intro p q hp hq hpq hqp
  have hp : l.lookup p.1 = some p.2 := lookup_eq_some_of_mem hkeys (mem_sorted.mp hp)
  have hq : l.lookup q.1 = some q.2 :=
    lookup_eq_some_of_mem hkeys (h.mem_iff.mpr (mem_sorted.mp hq))
  have hkey : p.1 = q.1 := le_antisymm hpq hqp
  rw [hkey, hq] at hp
  exact Prod.ext hkey (Option.some.inj hp).symm

omit [LinearOrder κ] in
/-- Of two lists of the same length without a key twice, what one looks up the other does. -/
theorem perm_of_mem {l l' : List (κ × ν)} (hkeys : (keys l).Nodup) (hlength : l.length = l'.length)
    (h : ∀ p ∈ l, p ∈ l') : l.Perm l' := by
  have hsub : l.Subperm l' := List.subperm_of_subset (List.Nodup.of_map Prod.fst hkeys) h
  exact hsub.perm_of_length_le hlength.ge

end Lib.Assoc
