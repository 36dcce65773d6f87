import LogCollector.HashTable.Linked

/-!
# Visiting the nodes of a hash map

`HMAP_FOR_EACH` goes from node to node by `hmap_next`: along the chain of a bucket, and from its
end to the next bucket that is not empty. What it visits is the list of nodes, so each node once;
and the same holds of a loop that removes and frees each node it comes to, since it reads the
next one before.
-/

namespace LogCollector.HashTable

open Lib (Chain)
open Lib.Buckets (all)

variable {β : Type}

/-! ## Nodes of one hash -/

/-- Has the node at this address another hash? -/
def hashDiffers (heap : Heap β) (hash : Nat) (a : Addr) : Bool :=
  (heap a).map (·.hash) != some hash

/-- What is left of a chain from the first node with the hash on. -/
theorem chain_dropWhile {heap : Heap β} {p : Option Addr} {as : List Addr}
    (h : Chain heap HmapNode.next p as) (f : Addr → Bool) :
    Chain heap HmapNode.next (as.dropWhile f).head? (as.dropWhile f) := by
  rw [← List.takeWhile_append_dropWhile (p := f) (l := as)] at h
  obtain ⟨q, hq⟩ := h.suffix
  rwa [← hq.head_eq]

/-- `hmap_next_with_hash__` stops at the first node of a chain that has the hash. -/
theorem nextWithHashFrom_eq {heap : Heap β} {p : Option Addr} {as : List Addr}
    (h : Chain heap HmapNode.next p as) (hash : Nat) : ∀ {fuel : Nat}, as.length < fuel →
    hmapNextWithHashFrom heap hash fuel p = some (as.dropWhile (hashDiffers heap hash)).head? := by
  induction h with
  | nil =>
    intro fuel hfuel
    obtain ⟨fuel, rfl⟩ := Nat.exists_eq_succ_of_ne_zero (Nat.ne_of_gt hfuel)
    rfl
  | @cons a cell as read rest ih =>
    intro fuel hfuel
    cases fuel with
    | zero => cases hfuel
    | succ fuel =>
      rw [hmapNextWithHashFrom, read]
      simp only [Option.bind_eq_bind, Option.bind_some]
      by_cases hhash : cell.hash = hash
      · have hstop : hashDiffers heap hash a = false := by
          simp only [hashDiffers, read, Option.map_some, hhash, bne_self_eq_false]
        rw [if_neg (not_not_intro hhash), List.dropWhile_cons_of_neg (by simp [hstop])]
        rfl
      · have hgo : hashDiffers heap hash a = true := by
          simp only [hashDiffers, read, Option.map_some, bne_iff_ne, ne_eq, Option.some.injEq]
          exact hhash
        rw [if_pos hhash, List.dropWhile_cons_of_pos hgo]
        exact ih (Nat.lt_of_succ_lt_succ hfuel)

/-! ## All nodes -/

namespace Linked

variable {heap : Heap β} {hmap : Hmap} {chain : Nat → List Addr} {a : Addr}

/-- The first node of the buckets from `i` on. -/
theorem firstFrom_eq (h : Linked heap hmap chain) : ∀ (rounds i : Nat), i + rounds ≤ hmap.mask + 1 →
    firstFrom hmap rounds i = ((List.range' i rounds).flatMap chain).head?
  | 0, _, _ => rfl
  | rounds + 1, i, hle => by
    have hchain := h.linked i (by omega)
    have hrest := h.firstFrom_eq rounds (i + 1) (by omega)
    rw [firstFrom, List.range'_succ, List.flatMap_cons]
    cases hbucket : hmap.buckets i with
    | none =>
      rw [hbucket] at hchain
      rw [hchain.eq_nil, List.nil_append, ← hrest]
    | some node =>
      rw [hbucket] at hchain
      obtain ⟨c, bs, heq, -, -⟩ := hchain.exists_cons
      rw [heq]
      rfl

/-- `hmap_first` finds the first node. -/
theorem first_eq (h : Linked heap hmap chain) : hmapFirst hmap = (hmap.nodes chain).head? := by
  rw [hmapFirst, hmapNextFrom, Nat.sub_zero, h.firstFrom_eq _ _ (by omega), Hmap.nodes, all,
    List.range_eq_range']

/-- `hmap_next` FINDS THE NODE BEHIND A NODE, in its bucket or in a later one. -/
theorem next_eq (h : Linked heap hmap chain) (before : List Addr) {after : List Addr}
    (hsplit : hmap.nodes chain = before ++ a :: after) :
    hmapNext heap hmap a = some after.head? := by
  have ha : a ∈ hmap.nodes chain := by
    rw [hsplit]
    simp
  obtain ⟨node, hread⟩ := h.exists_read ha
  have hbucket : node.hash &&& hmap.mask ≤ hmap.mask := Nat.and_le_right
  obtain ⟨as, bs, hchain⟩ := List.append_of_mem (h.mem_chain ha hread)
  have hnodes : hmap.nodes chain = (all (node.hash &&& hmap.mask) chain ++ as) ++ a :: (bs ++
      (List.range' ((node.hash &&& hmap.mask) + 1)
        (hmap.mask + 1 - ((node.hash &&& hmap.mask) + 1))).flatMap chain) := by
    rw [Hmap.nodes, Lib.Buckets.all_eq_append (Nat.lt_succ_of_le hbucket), hchain]
    simp only [List.append_assoc, List.cons_append]
  have hafter : after = bs ++ (List.range' ((node.hash &&& hmap.mask) + 1)
      (hmap.mask + 1 - ((node.hash &&& hmap.mask) + 1))).flatMap chain := by
    have hnodup := h.nodup
    rw [hnodes, List.nodup_middle, List.nodup_cons, List.mem_append, not_or] at hnodup
    rw [hnodes, List.append_cons_inj_of_notMem hnodup.1.1 hnodup.1.2] at hsplit
    exact hsplit.2.2.symm
  have hlinks : Chain heap HmapNode.next node.next bs := by
    have := h.linked _ hbucket
    rw [hchain] at this
    exact this.next_eq as hread
  rw [hmapNext, hread, hafter]
  simp only [Option.bind_eq_bind, Option.bind_some]
  cases hnext : node.next with
  | none =>
    rw [hnext] at hlinks
    rw [hlinks.eq_nil, List.nil_append, hmapNextFrom, h.firstFrom_eq _ _ (by omega)]
  | some next =>
    rw [hnext] at hlinks
    obtain ⟨c, cs, rfl, -, -⟩ := hlinks.exists_cons
    rfl

/-- From each node on, the nodes behind it are visited. -/
theorem forEachFrom_eq (h : Linked heap hmap chain) : ∀ (before after : List Addr) {fuel : Nat},
    hmap.nodes chain = before ++ after → after.length < fuel →
    forEachFrom heap hmap fuel after.head? = some after
  | _, [], _ + 1, _, _ => rfl
  | before, a :: after, fuel + 1, hsplit, hfuel => by
    have hnext := h.next_eq before hsplit
    have hrest := h.forEachFrom_eq (before ++ [a]) after
      (by rw [hsplit, List.append_assoc, List.singleton_append]) (Nat.lt_of_succ_lt_succ hfuel)
    rw [List.head?_cons, forEachFrom]
    simp only [Option.bind_eq_bind, Option.bind_some, hnext, hrest]

/-- `HMAP_FOR_EACH` visits the list of nodes. -/
theorem forEach_eq (h : Linked heap hmap chain) :
    hmapForEach heap hmap = some (hmap.nodes chain) := by
  rw [hmapForEach, h.first_eq]
  exact h.forEachFrom_eq [] _ (List.nil_append _).symm (length_lt_rounds h.nodup)

end Linked

end LogCollector.HashTable
