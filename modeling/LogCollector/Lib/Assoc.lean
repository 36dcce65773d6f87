import LogCollector.Lib.Machine

/-!
# Finite maps as lists of pairs

A map from keys to values listed in some order, with no key twice. `put`
inserts or replaces; what is listed where does not matter to `List.lookup`.
-/

namespace Lib.Assoc

variable {κ : Type*} {ν : Type*}

/-- The keys, in the order in which they are listed. -/
def keys (l : List (κ × ν)) : List κ := l.map Prod.fst

variable [DecidableEq κ]

/-- Insert `k`, or replace its value where it is listed. -/
def put : List (κ × ν) → κ → ν → List (κ × ν)
  | [], k, v => [(k, v)]
  | (k', v') :: l, k, v => if k' = k then (k', v) :: l else (k', v') :: put l k v

theorem lookup_cons (p : κ × ν) (l : List (κ × ν)) (k : κ) :
    (p :: l).lookup k = if p.1 = k then some p.2 else l.lookup k := by
  obtain ⟨k', v'⟩ := p
  by_cases h : k' = k
  · subst h
    simp [List.lookup]
  · have hne : (k == k') = false := beq_eq_false_iff_ne.mpr (Ne.symm h)
    simp [List.lookup, hne, h]

/-- What is looked up is listed. -/
theorem mem_of_lookup {l : List (κ × ν)} {k : κ} {v : ν} (h : l.lookup k = some v) :
    (k, v) ∈ l := by
  obtain ⟨before, after, rfl, -⟩ := List.lookup_eq_some_iff.mp h
  exact List.mem_append_right before List.mem_cons_self

theorem lookup_put_self (l : List (κ × ν)) (k : κ) (v : ν) : (put l k v).lookup k = some v := by
  induction l with
  | nil => rw [put, lookup_cons, if_pos rfl]
  | cons p l ih =>
    rw [put]
    split
    · next h => rw [lookup_cons, if_pos h]
    · next h => rw [lookup_cons, if_neg h, ih]

theorem lookup_put_of_ne (l : List (κ × ν)) {k k' : κ} (v : ν) (h : k' ≠ k) :
    (put l k v).lookup k' = l.lookup k' := by
  induction l with
  | nil => rw [put, lookup_cons, if_neg (Ne.symm h)]
  | cons p l ih =>
    rw [put]
    split
    · next heq =>
      have hne : p.1 ≠ k' := fun h' => h (h' ▸ heq)
      rw [lookup_cons, lookup_cons, if_neg hne, if_neg hne]
    · next => rw [lookup_cons, lookup_cons, ih]

/-- A key that is not listed is put at the end. -/
theorem put_of_notMem {l : List (κ × ν)} {k : κ} (v : ν) (h : k ∉ keys l) :
    put l k v = l ++ [(k, v)] := by
  induction l with
  | nil => rfl
  | cons p l ih =>
    simp only [keys, List.map_cons, List.mem_cons, not_or] at h
    rw [put, if_neg (Ne.symm h.1), ih h.2, List.cons_append]

theorem keys_put (l : List (κ × ν)) (k : κ) (v : ν) :
    keys (put l k v) = if k ∈ keys l then keys l else keys l ++ [k] := by
  by_cases h : k ∈ keys l
  · rw [if_pos h]
    induction l with
    | nil => cases h
    | cons p l ih =>
      rw [put]
      split
      · rfl
      · next hne =>
        have hmem : k ∈ keys l := (List.mem_cons.mp h).resolve_left (Ne.symm hne)
        exact congrArg (p.1 :: ·) (ih hmem)
  · rw [if_neg h, put_of_notMem v h, keys, List.map_append]
    rfl

theorem nodup_put {l : List (κ × ν)} (h : (keys l).Nodup) (k : κ) (v : ν) :
    (keys (put l k v)).Nodup := by
  rw [keys_put]
  split
  · exact h
  · next hk => exact List.nodup_append.mpr ⟨h, List.nodup_singleton k, fun a ha b hb => by
      cases List.mem_singleton.mp hb
      exact fun heq => hk (heq ▸ ha)⟩

/-- Members with keys of their own are put after one another. -/
theorem foldl_put : ∀ {m l : List (κ × ν)}, (keys (l ++ m)).Nodup →
    m.foldl (fun l p => put l p.1 p.2) l = l ++ m
  | [], l, _ => (List.append_nil l).symm
  | p :: m, l, h => by
    have hp : p.1 ∉ keys l := by
      intro hmem
      rw [keys, List.map_append, List.nodup_append] at h
      exact h.2.2 p.1 hmem p.1 List.mem_cons_self rfl
    have happ : l ++ p :: m = l ++ [p] ++ m := by
      rw [List.append_assoc, List.singleton_append]
    rw [List.foldl_cons, put_of_notMem p.2 hp, happ]
    rw [happ] at h
    exact foldl_put h

/-- THE LAST PUT WINS: after members are put one after the other, a key has the value it was
put with last, or the one it had. -/
theorem lookup_foldl_put (m l : List (κ × ν)) (k : κ) :
    (m.foldl (fun l p => put l p.1 p.2) l).lookup k = (m.reverse.lookup k).or (l.lookup k) := by
  induction m generalizing l with
  | nil => rfl
  | cons p m ih =>
    rw [List.foldl_cons, ih, List.reverse_cons, List.lookup_append, Option.or_assoc]
    congr 1
    by_cases h : p.1 = k
    · subst h
      rw [lookup_put_self, lookup_cons, if_pos rfl]
      rfl
    · rw [lookup_put_of_ne l p.2 (Ne.symm h), lookup_cons, if_neg h]
      rfl

/-- Where no key is listed twice, a pair that is listed is what is looked up. -/
theorem lookup_eq_some_of_mem {l : List (κ × ν)} (h : (keys l).Nodup) {p : κ × ν} (hp : p ∈ l) :
    l.lookup p.1 = some p.2 := by
  induction l with
  | nil => cases hp
  | cons q l ih =>
    obtain ⟨hq, hl⟩ := List.nodup_cons.mp h
    rcases List.mem_cons.mp hp with rfl | hp
    · rw [lookup_cons, if_pos rfl]
    · have hne : q.1 ≠ p.1 := fun heq => hq (heq ▸ List.mem_map_of_mem hp)
      rw [lookup_cons, if_neg hne, ih hl hp]

end Lib.Assoc
