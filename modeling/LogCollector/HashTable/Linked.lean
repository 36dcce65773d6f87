import LogCollector.HashTable.Hmap

/-!
# What a hash map holds

`Linked heap hmap chain` is the invariant of a hash map: each bucket links a chain of allocated
nodes whose hashes belong there, and `n` counts them. Every operation of `hmap.c` has one lemma
that says that it comes to an end without touching memory that is not allocated, what it does
to the list of nodes (`nodes`), and that it changes nothing else in the memory.
-/

namespace LogCollector.HashTable

open Lib (Chain)
open Lib.Buckets (all)

variable {β : Type}

/-- The nodes of a hash map, bucket by bucket, when the buckets link these chains. -/
def Hmap.nodes (hmap : Hmap) (chain : Nat → List Addr) : List Addr := all (hmap.mask + 1) chain

/-- The invariant of a hash map in a memory. -/
structure Linked (heap : Heap β) (hmap : Hmap) (chain : Nat → List Addr) : Prop where
  mask : ∃ k, hmap.mask + 1 = 2 ^ k
  linked : ∀ i ≤ hmap.mask, Chain heap HmapNode.next (hmap.buckets i) (chain i)
  placed : ∀ i ≤ hmap.mask, ∀ a ∈ chain i, ∀ node, heap a = some node → node.hash &&& hmap.mask = i
  count : hmap.n = (hmap.nodes chain).length

/-- There are fewer addresses than rounds. -/
theorem length_lt_rounds {as : List Addr} (h : as.Nodup) : as.length < ROUNDS := by
  have hcard := h.length_le_card
  rw [Fintype.card_fin] at hcard
  exact lt_of_le_of_lt hcard (by decide)

/-- The second memory differs from the first one in the links of these nodes at most. -/
structure Relinked (nodes : List Addr) (heap heap' : Heap β) : Prop where
  frame : ∀ a ∉ nodes, heap' a = heap a
  kept : ∀ {a node}, heap a = some node → ∃ next, heap' a = some { node with next }

namespace Relinked

variable {nodes nodes' : List Addr} {heap heap' heap'' : Heap β}

theorem refl (nodes : List Addr) (heap : Heap β) : Relinked nodes heap heap :=
  ⟨fun _ _ => rfl, fun h => ⟨_, h⟩⟩

theorem trans (h : Relinked nodes heap heap') (h' : Relinked nodes heap' heap'') :
    Relinked nodes heap heap'' := by
  constructor
  · intro a ha
    rw [h'.frame a ha, h.frame a ha]
  · intro a node hread
    obtain ⟨next, hread'⟩ := h.kept hread
    obtain ⟨next', hread''⟩ := h'.kept hread'
    exact ⟨next', hread''⟩

theorem mono (h : Relinked nodes heap heap') (hsub : nodes ⊆ nodes') :
    Relinked nodes' heap heap' :=
  ⟨fun a ha => h.frame a fun hmem => ha (hsub hmem), h.kept⟩

/-- What is allocated afterwards was allocated before. -/
theorem back (h : Relinked nodes heap heap') (hnodes : ∀ a ∈ nodes, ∃ node, heap a = some node)
    {a : Addr} {node' : HmapNode β} (hread : heap' a = some node') :
    ∃ node, heap a = some node ∧ node'.hash = node.hash ∧ node'.container = node.container := by
  by_cases ha : a ∈ nodes
  · obtain ⟨node, hnode⟩ := hnodes a ha
    obtain ⟨next, hread'⟩ := h.kept hnode
    cases hread.symm.trans hread'
    exact ⟨node, hnode, rfl, rfl⟩
  · rw [h.frame a ha] at hread
    exact ⟨node', hread, rfl, rfl⟩

/-- One node is relinked. -/
theorem update {a : Addr} {node : HmapNode β} (hread : heap a = some node) (next : Option Addr) :
    Relinked [a] heap (Function.update heap a (some { node with next })) := by
  constructor
  · intro b hb
    exact Function.update_of_ne (List.ne_of_not_mem_cons hb) _ heap
  · intro b old hold
    by_cases hb : b = a
    · subst hb
      cases hread.symm.trans hold
      exact ⟨next, Function.update_self ..⟩
    · exact ⟨old.next, (Function.update_of_ne hb _ heap).trans hold⟩

end Relinked

namespace Linked

variable {heap heap' : Heap β} {hmap : Hmap} {chain : Nat → List Addr} {a : Addr}
  {node : HmapNode β} {i : Nat}

theorem mem_nodes : a ∈ hmap.nodes chain ↔ ∃ i ≤ hmap.mask, a ∈ chain i := by
  rw [Hmap.nodes, Lib.Buckets.mem_all]
  simp only [Nat.lt_succ_iff]

/-- A node lies in the bucket of its hash. -/
theorem mem_chain (h : Linked heap hmap chain) (ha : a ∈ hmap.nodes chain)
    (hread : heap a = some node) : a ∈ chain (node.hash &&& hmap.mask) := by
  obtain ⟨i, hi, hmem⟩ := mem_nodes.mp ha
  rwa [h.placed i hi a hmem node hread]

theorem exists_read (h : Linked heap hmap chain) (ha : a ∈ hmap.nodes chain) :
    ∃ node, heap a = some node := by
  obtain ⟨i, hi, hmem⟩ := mem_nodes.mp ha
  exact (h.linked i hi).exists_read hmem

theorem nodup (h : Linked heap hmap chain) : (hmap.nodes chain).Nodup := by
  apply Lib.Buckets.nodup_all fun a => ((heap a).elim 0 (·.hash)) &&& hmap.mask
  · intro i hi a ha
    obtain ⟨node, hread⟩ := (h.linked i (Nat.lt_succ_iff.mp hi)).exists_read ha
    rw [hread]
    exact h.placed i (Nat.lt_succ_iff.mp hi) a ha node hread
  · intro i hi
    exact (h.linked i (Nat.lt_succ_iff.mp hi)).nodup

/-- The invariant is about the nodes of the map only, and not about what they are embedded
in. -/
theorem frame (h : Linked heap hmap chain) (hsame : ∀ a ∈ hmap.nodes chain, ∀ node,
    heap a = some node → ∃ container, heap' a = some { node with container }) :
    Linked heap' hmap chain := by
  refine ⟨h.mask, ?_, ?_, h.count⟩
  · intro i hi
    have hchain := h.linked i hi
    have hmem : ∀ a ∈ chain i, a ∈ hmap.nodes chain := fun a ha => mem_nodes.mpr ⟨i, hi, ha⟩
    generalize hmap.buckets i = p at hchain
    generalize chain i = as at hchain hmem
    induction hchain with
    | nil => exact .nil
    | cons read rest ih =>
      obtain ⟨container, hread⟩ := hsame _ (hmem _ List.mem_cons_self) _ read
      refine .cons hread (ih ?_)
      intro a ha
      exact hmem a (List.mem_cons_of_mem _ ha)
  · intro i hi a ha node hread
    obtain ⟨old, hold⟩ := (h.linked i hi).exists_read ha
    obtain ⟨container, hread'⟩ := hsame a (mem_nodes.mpr ⟨i, hi, ha⟩) old hold
    cases hread.symm.trans hread'
    exact h.placed i hi a ha old hold

/-! ## Empty maps -/

theorem nodes_nil (hmap : Hmap) : hmap.nodes (fun _ => []) = [] :=
  List.flatMap_eq_nil_iff.mpr fun _ _ => rfl

/-- A table without nodes, of any size. -/
theorem empty (heap : Heap β) {mask : Nat} (hmask : ∃ k, mask + 1 = 2 ^ k) :
    Linked heap { hmapInit with mask } fun _ => [] where
  mask := hmask
  linked _ _ := .nil
  placed _ _ _ ha := absurd ha List.not_mem_nil
  count := by rw [nodes_nil]; rfl

/-- `hmap_init`. -/
theorem init (heap : Heap β) : Linked heap hmapInit fun _ => [] := empty heap ⟨0, rfl⟩

/-- `hmap_clear` leaves the buckets and takes all nodes out of them. -/
theorem clear (h : Linked heap hmap chain) : Linked heap (hmapClear hmap) fun _ => [] := by
  rw [hmapClear]
  split
  · refine ⟨h.mask, ?_, fun _ _ _ ha => absurd ha List.not_mem_nil, by rw [nodes_nil]; rfl⟩
    intro i hi
    simp only [if_pos hi]
    exact .nil
  · next hzero =>
    have hnil : hmap.nodes chain = [] := List.length_eq_zero_iff.mp (by rw [← h.count]; omega)
    refine ⟨h.mask, ?_, fun _ _ _ ha => absurd ha List.not_mem_nil, ?_⟩
    · intro i hi
      have hchain : chain i = [] := by
        rw [List.eq_nil_iff_forall_not_mem]
        intro a ha
        have := mem_nodes.mpr ⟨i, hi, ha⟩
        rw [hnil] at this
        cases this
      have := h.linked i hi
      rwa [hchain] at this
    · rw [nodes_nil, h.count, hnil]

/-! ## Insertion -/

theorem insertFast_eq (hread : heap a = some node) (hmap : Hmap) (hash : Nat) :
    hmapInsertFast heap hmap a hash =
      some (Function.update heap a
          (some { node with hash, next := hmap.buckets (hash &&& hmap.mask) }),
        { hmap with
          buckets := Function.update hmap.buckets (hash &&& hmap.mask) (some a)
          n := hmap.n + 1 }) := by
  simp only [hmapInsertFast, Heap.write, hread, Option.map_some, Option.bind_eq_bind,
    Option.bind_some]

/-- `hmap_insert_fast` puts a node in front of its bucket. -/
theorem insertFast (h : Linked heap hmap chain) (hread : heap a = some node)
    (ha : a ∉ hmap.nodes chain) (hash : Nat) :
    ∃ heap' hmap' chain', hmapInsertFast heap hmap a hash = some (heap', hmap') ∧
      Linked heap' hmap' chain' ∧ hmap'.mask = hmap.mask ∧
      (hmap'.nodes chain').Perm (a :: hmap.nodes chain) ∧
      (∃ next, heap' a = some { node with hash, next }) ∧ ∀ b, b ≠ a → heap' b = heap b := by
  have hbucket : hash &&& hmap.mask ≤ hmap.mask := Nat.and_le_right
  have hperm := Lib.Buckets.all_update_cons chain (Nat.lt_succ_of_le hbucket) a
  refine ⟨_, _, Function.update chain (hash &&& hmap.mask) (a :: chain (hash &&& hmap.mask)),
    insertFast_eq hread hmap hash, ⟨h.mask, ?_, ?_, ?_⟩, rfl, hperm,
    ⟨_, Function.update_self ..⟩, fun b hb => Function.update_of_ne hb _ heap⟩
  · intro i hi
    have hnot : a ∉ chain i := fun hmem => ha (mem_nodes.mpr ⟨i, hi, hmem⟩)
    by_cases heq : i = hash &&& hmap.mask
    · subst heq
      simp only [Function.update_self]
      exact (h.linked _ hi).push hnot (Function.update_self ..) rfl
        fun b hb => Function.update_of_ne hb _ heap
    · simp only [Function.update_of_ne heq]
      apply (h.linked i hi).frame
      intro b hb
      exact Function.update_of_ne (fun (hab : b = a) => hnot (hab ▸ hb)) _ heap
  · intro i hi b hb node' hread'
    by_cases hba : b = a
    · subst hba
      rw [Function.update_self] at hread'
      cases hread'
      by_cases heq : i = hash &&& hmap.mask
      · exact heq.symm
      · rw [Function.update_of_ne heq] at hb
        exact absurd (mem_nodes.mpr ⟨i, hi, hb⟩) ha
    · rw [Function.update_of_ne hba] at hread'
      refine h.placed i hi b ?_ node' hread'
      by_cases heq : i = hash &&& hmap.mask
      · subst heq
        rw [Function.update_self] at hb
        exact (List.mem_cons.mp hb).resolve_left hba
      · rwa [Function.update_of_ne heq] at hb
  · exact (congrArg (· + 1) h.count).trans hperm.length_eq.symm

/-! ## Resizing -/

/-- The nodes of a chain move to a table that has none of them. -/
theorem moveBucket {p : Option Addr} {as : List Addr} (hchain : Chain heap HmapNode.next p as) :
    ∀ {heap' : Heap β} {tmp : Hmap} {chain : Nat → List Addr} {fuel : Nat},
      (∀ b ∈ as, heap' b = heap b) → Linked heap' tmp chain → as.Disjoint (tmp.nodes chain) →
      as.length < fuel →
      ∃ heap'' tmp' chain', HashTable.moveBucket fuel heap' tmp p = some (heap'', tmp') ∧
        Linked heap'' tmp' chain' ∧ tmp'.mask = tmp.mask ∧
        (tmp'.nodes chain').Perm (as ++ tmp.nodes chain) ∧ Relinked as heap' heap'' := by
  have hnodup := hchain.nodup
  induction hchain with
  | nil =>
    intro heap' tmp chain fuel _ h _ hfuel
    cases fuel with
    | zero => cases hfuel
    | succ fuel => exact ⟨_, _, chain, rfl, h, rfl, .refl _, .refl _ _⟩
  | @cons a cell as read rest ih =>
    intro heap' tmp chain fuel hsame h hdisjoint hfuel
    obtain ⟨hnotMem, hnodup⟩ := List.nodup_cons.mp hnodup
    cases fuel with
    | zero => cases hfuel
    | succ fuel =>
      have hread : heap' a = some cell := (hsame a List.mem_cons_self).trans read
      have ha : a ∉ tmp.nodes chain := hdisjoint List.mem_cons_self
      obtain ⟨heap₁, tmp₁, chain₁, hinsert, h₁, hmask₁, hperm₁, ⟨next, hself⟩, hother⟩ :=
        h.insertFast hread ha cell.hash
      have hrelinked : Relinked [a] heap' heap₁ := by
        refine ⟨fun b hb => hother b (List.ne_of_not_mem_cons hb), ?_⟩
        intro b node hnode
        by_cases hb : b = a
        · subst hb
          cases hread.symm.trans hnode
          exact ⟨next, hself⟩
        · exact ⟨node.next, (hother b hb).trans hnode⟩
      have hsame₁ : ∀ b ∈ as, heap₁ b = heap b := fun b hb =>
        (hother b fun hba => hnotMem (hba ▸ hb)).trans (hsame b (List.mem_cons_of_mem a hb))
      have hdisjoint₁ : as.Disjoint (tmp₁.nodes chain₁) := by
        intro b hb hmem
        rcases List.mem_cons.mp (hperm₁.mem_iff.mp hmem) with rfl | hmem
        · exact hnotMem hb
        · exact hdisjoint (List.mem_cons_of_mem a hb) hmem
      obtain ⟨heap₂, tmp₂, chain₂, hmove, h₂, hmask₂, hperm₂, hrelinked₂⟩ :=
        ih hnodup hsame₁ h₁ hdisjoint₁ (Nat.lt_of_succ_lt_succ hfuel)
      refine ⟨heap₂, tmp₂, chain₂, ?_, h₂, hmask₂.trans hmask₁, ?_, ?_⟩
      · rw [HashTable.moveBucket, hread]
        simp only [Option.bind_eq_bind, Option.bind_some, hinsert, hmove]
      · calc (tmp₂.nodes chain₂).Perm (as ++ tmp₁.nodes chain₁) := hperm₂
          _ |>.Perm (as ++ a :: tmp.nodes chain) := hperm₁.append_left as
          _ |>.Perm (a :: as ++ tmp.nodes chain) := List.perm_middle
      · exact (hrelinked.mono (List.cons_subset_cons a (List.nil_subset as))).trans
          (hrelinked₂.mono (List.subset_cons_self a as))

/-- The nodes of a bucket are not among those of the buckets before it. -/
theorem disjoint_all (h : Linked heap hmap chain) (hi : i ≤ hmap.mask) :
    (chain i).Disjoint (all i chain) := by
  have hnodup := h.nodup
  rw [Hmap.nodes, Lib.Buckets.all_eq_append (Nat.lt_succ_of_le hi), List.nodup_append] at hnodup
  intro a ha hbefore
  exact hnodup.2.2 a hbefore a (List.mem_append_left _ ha) rfl

/-- The outer loop of `resize`, after `i` buckets. -/
theorem resize_loop (h : Linked heap hmap chain) {newMask : Nat}
    (hmask : ∃ k, newMask + 1 = 2 ^ k) :
    ∀ i ≤ hmap.mask + 1, ∃ heap' tmp chain',
      (List.range i).foldlM
        (fun (heap, tmp) i => HashTable.moveBucket ROUNDS heap tmp (hmap.buckets i))
        (heap, { hmapInit with mask := newMask }) = some (heap', tmp) ∧
      Linked heap' tmp chain' ∧ tmp.mask = newMask ∧ (tmp.nodes chain').Perm (all i chain) ∧
      Relinked (all i chain) heap heap' := by
  intro i
  induction i with
  | zero =>
    intro _
    refine ⟨heap, _, fun _ => [], rfl, empty heap hmask, rfl, ?_, .refl _ _⟩
    rw [nodes_nil]
    exact .refl []
  | succ i ih =>
    intro hi
    have hi : i ≤ hmap.mask := Nat.le_of_succ_le_succ hi
    obtain ⟨heap₁, tmp₁, chain₁, hloop, h₁, hmask₁, hperm₁, hrelinked₁⟩ := ih (Nat.le_succ_of_le hi)
    have hdisjoint := h.disjoint_all hi
    obtain ⟨heap₂, tmp₂, chain₂, hmove, h₂, hmask₂, hperm₂, hrelinked₂⟩ :=
      moveBucket (h.linked i hi) (fun b hb => hrelinked₁.frame b (hdisjoint hb)) h₁
        (fun b hb hmem => hdisjoint hb (hperm₁.mem_iff.mp hmem))
        (length_lt_rounds (h.linked i hi).nodup)
    refine ⟨heap₂, tmp₂, chain₂, ?_, h₂, hmask₂.trans hmask₁, ?_, ?_⟩
    · rw [List.range_succ, List.foldlM_append, hloop]
      simp only [Option.bind_eq_bind, Option.bind_some, List.foldlM_cons, List.foldlM_nil, hmove]
      rfl
    · rw [Lib.Buckets.all_succ]
      exact (hperm₂.trans (hperm₁.append_left _)).trans List.perm_append_comm
    · rw [Lib.Buckets.all_succ]
      exact (hrelinked₁.mono (List.subset_append_left _ _)).trans
        (hrelinked₂.mono (List.subset_append_right _ _))

theorem isPow2_two_pow (k : Nat) : isPow2 (2 ^ k) = true := by
  have hpos : 0 < 2 ^ k := Nat.two_pow_pos k
  rw [isPow2, Nat.and_two_pow_sub_one_eq_mod, Nat.mod_self, beq_self_eq_true, Bool.and_true,
    bne_iff_ne]
  exact Nat.ne_of_gt hpos

/-- RESIZING KEEPS THE NODES: a table of any size is left with the same nodes, and nothing but
their links is changed. -/
theorem resize (h : Linked heap hmap chain) {newMask : Nat} (hmask : ∃ k, newMask + 1 = 2 ^ k)
    (hsize : newMask < 2 ^ 60) :
    ∃ heap' hmap' chain', HashTable.resize heap hmap newMask = some (heap', hmap') ∧
      Linked heap' hmap' chain' ∧ hmap'.mask = newMask ∧
      (hmap'.nodes chain').Perm (hmap.nodes chain) ∧ Relinked (hmap.nodes chain) heap heap' := by
  obtain ⟨heap', tmp, chain', hloop, h'⟩ := h.resize_loop hmask (hmap.mask + 1) (Nat.le_refl _)
  refine ⟨heap', tmp, chain', ?_, h'⟩
  have hpow : isPow2 (newMask + 1) = true := by
    obtain ⟨k, hk⟩ := hmask
    rw [hk, isPow2_two_pow]
  have hbytes : BUCKET_SIZE * (newMask + 1) % 2 ^ 64 = BUCKET_SIZE * (newMask + 1) := by
    apply Nat.mod_eq_of_lt
    rw [BUCKET_SIZE]
    omega
  rw [HashTable.resize, if_pos hpow, hbytes, if_neg fun hwrap => Nat.lt_irrefl _ hwrap.2]
  exact hloop

end Linked

/-! ## How many buckets -/

/-- The mask that `calc_mask` chooses. -/
theorem calcMask_eq {capacity : Nat} (h : capacity < 2 ^ 65) :
    calcMask capacity =
      if capacity / 2 = 0 then 0 else 2 ^ max ((capacity / 2).log2 + 1) 2 - 1 := by
  by_cases hzero : capacity / 2 = 0
  · rw [if_pos hzero, calcMask, hzero]
    rfl
  · have htop := (Lib.Mask.topBits_log2 hzero).smear.smear.smear.smear.smear.smear
    have hfull := htop.eq ((Nat.log2_lt hzero).mpr (show capacity / 2 < 2 ^ 64 by omega))
    rw [if_neg hzero, ← Lib.Mask.or_shiftLeft_one (Nat.succ_pos _), ← hfull]
    rfl

section

variable {capacity : Nat}

/-- The number of buckets is a power of two. -/
theorem exists_calcMask (h : capacity < 2 ^ 65) : ∃ k, calcMask capacity + 1 = 2 ^ k := by
  rw [calcMask_eq h]
  split
  · exact ⟨0, rfl⟩
  · exact ⟨_, Nat.sub_add_cancel (Nat.two_pow_pos _)⟩

/-- There is one bucket for every two nodes at least. -/
theorem le_calcMask (h : capacity < 2 ^ 65) : capacity / 2 ≤ calcMask capacity := by
  rw [calcMask_eq h]
  split
  · next hzero => exact Nat.le_of_eq hzero
  · next hzero =>
    have hlt : capacity / 2 < 2 ^ max ((capacity / 2).log2 + 1) 2 :=
      lt_of_lt_of_le Nat.lt_log2_self (Nat.pow_le_pow_right (by decide) (Nat.le_max_left _ _))
    exact Nat.le_sub_one_of_lt hlt

/-- No smaller number of buckets would do, as long as there are not just two. -/
theorem calcMask_le (h : capacity < 2 ^ 65) {k : Nat} (hk : k ≠ 1)
    (hle : capacity / 2 ≤ 2 ^ k - 1) :
    calcMask capacity ≤ 2 ^ k - 1 := by
  rw [calcMask_eq h]
  split
  · exact Nat.zero_le _
  · next hzero =>
    have hlog := Lib.Mask.two_pow_le_of_le hzero hle
    apply Nat.sub_le_sub_right
    apply Nat.pow_le_pow_right (by decide)
    omega

/-- With room for fewer than `2 ^ 61` nodes the bytes of the buckets fit a `size_t`. -/
theorem calcMask_lt (h : capacity < 2 ^ 61) : calcMask capacity < 2 ^ 60 := by
  have hle : calcMask capacity ≤ 2 ^ 60 - 1 := calcMask_le (by omega) (by decide) (by omega)
  exact Nat.lt_of_le_pred (Nat.two_pow_pos 60) hle

end

namespace Linked

variable {heap heap' : Heap β} {hmap : Hmap} {chain : Nat → List Addr} {a : Addr}
  {node : HmapNode β}

theorem count_lt (h : Linked heap hmap chain) : hmap.n < 2 ^ 61 := by
  have hcard := h.nodup.length_le_card
  rw [Fintype.card_fin, ← h.count] at hcard
  exact lt_of_le_of_lt hcard (by decide)

/-- A table that is resized or left as it is. -/
theorem resize_or (h : Linked heap hmap chain) {newMask : Nat} (hmask : ∃ k, newMask + 1 = 2 ^ k)
    (hsize : newMask < 2 ^ 60) (c : Prop) [Decidable c] :
    ∃ heap' hmap' chain',
      (if c then HashTable.resize heap hmap newMask else some (heap, hmap)) = some (heap', hmap') ∧
      Linked heap' hmap' chain' ∧ hmap'.mask = (if c then newMask else hmap.mask) ∧
      (hmap'.nodes chain').Perm (hmap.nodes chain) ∧ Relinked (hmap.nodes chain) heap heap' := by
  by_cases hc : c
  · simp only [if_pos hc]
    exact h.resize hmask hsize
  · simp only [if_neg hc]
    exact ⟨heap, hmap, chain, rfl, h, rfl, .refl _, .refl _ _⟩

/-- `hmap_reserve_at` makes room for `n` nodes. -/
theorem reserve (h : Linked heap hmap chain) {n : Nat} (hn : n < 2 ^ 61) :
    ∃ heap' hmap' chain', hmapReserve heap hmap n = some (heap', hmap') ∧
      Linked heap' hmap' chain' ∧ n / 2 ≤ hmap'.mask ∧ hmap.mask ≤ hmap'.mask ∧
      (hmap'.nodes chain').Perm (hmap.nodes chain) ∧ Relinked (hmap.nodes chain) heap heap' := by
  have hn' : n < 2 ^ 65 := Nat.lt_trans hn (by decide)
  obtain ⟨heap', hmap', chain', hresize, hlinked, hmask, hkeep⟩ :=
    h.resize_or (exists_calcMask hn') (calcMask_lt hn) (calcMask n > hmap.mask)
  have hle := le_calcMask hn'
  refine ⟨heap', hmap', chain', hresize, hlinked, ?_, ?_, hkeep⟩
  · rw [hmask]
    split <;> omega
  · rw [hmask]
    split <;> omega

/-- `hmap_expand_at` makes room for the nodes there are. -/
theorem expand (h : Linked heap hmap chain) :
    ∃ heap' hmap' chain', hmapExpand heap hmap = some (heap', hmap') ∧
      Linked heap' hmap' chain' ∧ hmap.n / 2 ≤ hmap'.mask ∧ hmap.mask ≤ hmap'.mask ∧
      (hmap'.nodes chain').Perm (hmap.nodes chain) ∧ Relinked (hmap.nodes chain) heap heap' :=
  h.reserve h.count_lt

/-- `hmap_shrink_at` leaves no fewer buckets than the nodes need. -/
theorem shrink (h : Linked heap hmap chain) (hload : hmap.n / 2 ≤ hmap.mask) :
    ∃ heap' hmap' chain', hmapShrink heap hmap = some (heap', hmap') ∧
      Linked heap' hmap' chain' ∧ hmap.n / 2 ≤ hmap'.mask ∧ hmap'.mask ≤ hmap.mask ∧
      (hmap'.nodes chain').Perm (hmap.nodes chain) ∧ Relinked (hmap.nodes chain) heap heap' := by
  have hn : hmap.n < 2 ^ 65 := Nat.lt_trans h.count_lt (by decide)
  obtain ⟨heap', hmap', chain', hresize, hlinked, hmask, hkeep⟩ :=
    h.resize_or (exists_calcMask hn) (calcMask_lt h.count_lt) (calcMask hmap.n < hmap.mask)
  have hle := le_calcMask hn
  refine ⟨heap', hmap', chain', hresize, hlinked, ?_, ?_, hkeep⟩
  · rw [hmask]
    split <;> omega
  · rw [hmask]
    split <;> omega

/-- `hmap_insert_at` ADDS A NODE and leaves one bucket for every two nodes at least, however
many there were before. -/
theorem insert (h : Linked heap hmap chain) (hread : heap a = some node)
    (ha : a ∉ hmap.nodes chain) (hash : Nat) :
    ∃ heap' hmap' chain', hmapInsert heap hmap a hash = some (heap', hmap') ∧
      Linked heap' hmap' chain' ∧ hmap'.n / 2 ≤ hmap'.mask ∧
      (hmap'.nodes chain').Perm (a :: hmap.nodes chain) ∧
      (∃ next, heap' a = some { node with hash, next }) ∧
      Relinked (hmap.nodes chain) (Function.update heap a (heap' a)) heap' := by
  obtain ⟨heap₁, hmap₁, chain₁, hinsert, h₁, -, hperm₁, ⟨next, hself⟩, hother⟩ :=
    h.insertFast hread ha hash
  have hupdate : ∀ x, Function.update heap a x = Function.update heap₁ a x := by
    intro x
    funext b
    by_cases hb : b = a
    · rw [hb, Function.update_self, Function.update_self]
    · rw [Function.update_of_ne hb, Function.update_of_ne hb, hother b hb]
  by_cases hload : hmap₁.n / 2 > hmap₁.mask
  · obtain ⟨heap₂, hmap₂, chain₂, hexpand, h₂, hload₂, -, hperm₂, hrelinked₂⟩ := h₁.expand
    obtain ⟨next₂, hself₂⟩ := hrelinked₂.kept hself
    have hn : hmap₂.n = hmap₁.n := by rw [h₂.count, h₁.count, hperm₂.length_eq]
    refine ⟨heap₂, hmap₂, chain₂, ?_, h₂, hn ▸ hload₂, hperm₂.trans hperm₁, ⟨next₂, hself₂⟩, ?_⟩
    · simp only [hmapInsert, hinsert, Option.bind_eq_bind, Option.bind_some, if_pos hload, hexpand]
    · rw [hupdate]
      constructor
      · intro b hb
        by_cases hba : b = a
        · rw [hba, Function.update_self]
        · rw [Function.update_of_ne hba]
          apply hrelinked₂.frame
          intro hmem
          exact hb ((List.mem_cons.mp (hperm₁.mem_iff.mp hmem)).resolve_left hba)
      · intro b old hold
        by_cases hba : b = a
        · subst hba
          rw [Function.update_self] at hold
          exact ⟨old.next, hold⟩
        · rw [Function.update_of_ne hba] at hold
          exact hrelinked₂.kept hold
  · refine ⟨heap₁, hmap₁, chain₁, ?_, h₁, Nat.not_lt.mp hload, hperm₁, ⟨next, hself⟩, ?_⟩
    · simp only [hmapInsert, hinsert, Option.bind_eq_bind, Option.bind_some, if_neg hload]
    · rw [hupdate, Function.update_eq_self]
      exact .refl _ _

/-! ## Removal -/

/-- The loop of `hmap_remove` stops at the link to the node. -/
theorem seekSlot (hmap : Hmap) {before after : List Addr} :
    ∀ (slot : Slot) {p : Option Addr} {fuel : Nat},
    readSlot heap hmap slot = some p → Chain heap HmapNode.next p (before ++ a :: after) →
    a ∉ before → before.length < fuel →
    HashTable.seekSlot heap hmap a fuel slot = some (before.getLast?.elim slot .next) := by
  induction before with
  | nil =>
    intro slot p fuel hslot hchain _ hfuel
    obtain ⟨fuel, rfl⟩ := Nat.exists_eq_succ_of_ne_zero (Nat.ne_of_gt hfuel)
    obtain rfl : p = some a := hchain.head_eq
    simp only [HashTable.seekSlot, hslot, Option.bind_eq_bind, Option.bind_some, if_true]
    rfl
  | cons b before ih =>
    intro slot p fuel hslot hchain hbefore hfuel
    obtain ⟨hba, hbefore⟩ := List.ne_and_not_mem_of_not_mem_cons hbefore
    cases fuel with
    | zero => cases hfuel
    | succ fuel =>
      obtain rfl : p = some b := hchain.head_eq
      obtain ⟨cell, rest, heq, hread, hrest⟩ := hchain.exists_cons
      obtain ⟨-, rfl⟩ := List.cons.inj heq
      have hnext : readSlot heap hmap (.next b) = some cell.next := by
        rw [readSlot, hread]
        rfl
      simp only [HashTable.seekSlot, hslot, Option.bind_eq_bind, Option.bind_some,
        if_neg (Ne.symm hba)]
      rw [ih _ hnext hrest hbefore (Nat.lt_of_succ_lt_succ hfuel)]
      cases before with
      | nil => rfl
      | cons c before =>
        rw [List.getLast?_cons_cons, List.getLast?_eq_some_getLast (List.cons_ne_nil c before)]
        rfl

/-- The nodes but one, when its bucket links past it. -/
theorem nodes_erase (h : Linked heap hmap chain) (hread : heap a = some node)
    (ha : a ∈ hmap.nodes chain) :
    all (hmap.mask + 1) (Function.update chain (node.hash &&& hmap.mask)
      ((chain (node.hash &&& hmap.mask)).erase a)) = (hmap.nodes chain).erase a :=
  Lib.Buckets.all_update_erase (Nat.lt_succ_of_le Nat.and_le_right) (h.mem_chain ha hread)
    (h.disjoint_all Nat.and_le_right (h.mem_chain ha hread))

theorem of_unlinked (h : Linked heap hmap chain) (hread : heap a = some node)
    (ha : a ∈ hmap.nodes chain) (buckets' : Nat → Option Addr)
    (hrelinked : Relinked ((hmap.nodes chain).erase a) heap heap')
    (hself : Chain heap' HmapNode.next (buckets' (node.hash &&& hmap.mask))
      ((chain (node.hash &&& hmap.mask)).erase a))
    (hother : ∀ j ≤ hmap.mask, j ≠ node.hash &&& hmap.mask →
      Chain heap' HmapNode.next (buckets' j) (chain j)) :
    Linked heap' { hmap with buckets := buckets', n := hmap.n - 1 }
      (Function.update chain (node.hash &&& hmap.mask)
        ((chain (node.hash &&& hmap.mask)).erase a)) := by
  refine ⟨h.mask, ?_, ?_, ?_⟩
  · intro i hi
    by_cases heq : i = node.hash &&& hmap.mask
    · subst heq
      rw [Function.update_self]
      exact hself
    · rw [Function.update_of_ne heq]
      exact hother i hi heq
  · intro i hi b hb node' hread'
    have hmem : b ∈ chain i := by
      by_cases heq : i = node.hash &&& hmap.mask
      · subst heq
        rw [Function.update_self] at hb
        exact List.mem_of_mem_erase hb
      · rwa [Function.update_of_ne heq] at hb
    obtain ⟨old, hold, hhash, -⟩ := hrelinked.back
      (fun c hc => h.exists_read (List.mem_of_mem_erase hc)) hread'
    rw [hhash]
    exact h.placed i hi b hmem old hold
  · change hmap.n - 1 = (all (hmap.mask + 1) _).length
    rw [h.nodes_erase hread ha, List.length_erase_of_mem ha, h.count]

/-- `hmap_remove` TAKES ONE NODE OUT: the others stay in their order, and the node keeps what is
in it, its link included. -/
theorem remove (h : Linked heap hmap chain) (ha : a ∈ hmap.nodes chain) :
    ∃ heap' hmap' chain', hmapRemove heap hmap a = some (heap', hmap') ∧
      Linked heap' hmap' chain' ∧ hmap'.mask = hmap.mask ∧
      hmap'.nodes chain' = (hmap.nodes chain).erase a ∧ heap' a = heap a ∧
      Relinked ((hmap.nodes chain).erase a) heap heap' := by
  obtain ⟨node, hread⟩ := h.exists_read ha
  have hbucket : node.hash &&& hmap.mask ≤ hmap.mask := Nat.and_le_right
  have hchain := h.linked _ hbucket
  have hnodup := hchain.nodup
  obtain ⟨before, after, hsplit⟩ := List.append_of_mem (h.mem_chain ha hread)
  have hbefore : a ∉ before := by
    intro hmem
    rw [hsplit, List.nodup_append] at hnodup
    exact hnodup.2.2 a hmem a List.mem_cons_self rfl
  have herase : (chain (node.hash &&& hmap.mask)).erase a = before ++ after := by
    rw [hsplit, List.erase_append_right _ hbefore, List.erase_cons_head]
  have hlength : before.length < ROUNDS := by
    have := length_lt_rounds hnodup
    rw [hsplit, List.length_append] at this
    omega
  rw [hsplit] at hchain
  have hseek := seekSlot hmap (.bucket (node.hash &&& hmap.mask)) rfl hchain
    hbefore hlength
  obtain rfl | ⟨before, b, rfl⟩ := List.eq_nil_or_concat' before
  · -- the bucket itself links the node
    have hrelinked := Relinked.refl ((hmap.nodes chain).erase a) heap
    refine ⟨heap, _, _, ?_, h.of_unlinked hread ha (Function.update hmap.buckets
      (node.hash &&& hmap.mask) node.next) hrelinked ?_ ?_, rfl, h.nodes_erase hread ha, rfl,
        hrelinked⟩
    · simp only [hmapRemove, hread, Option.bind_eq_bind, Option.bind_some, hseek]
      rfl
    · rw [Function.update_self, herase]
      exact Chain.next_eq [] hchain hread
    · intro j hj hne
      rw [Function.update_of_ne hne]
      exact h.linked j hj
  · -- the node before it links past it
    have hb : b ∈ chain (node.hash &&& hmap.mask) := by
      rw [hsplit]
      simp
    have hba : b ≠ a := by
      rintro rfl
      exact hbefore (by simp)
    obtain ⟨cell, hcell⟩ := (h.linked _ hbucket).exists_read hb
    have hrelinked : Relinked ((hmap.nodes chain).erase a) heap
        (Function.update heap b (some { cell with next := node.next })) := by
      apply (Relinked.update hcell node.next).mono
      intro c hc
      obtain rfl := List.mem_singleton.mp hc
      exact (List.mem_erase_of_ne hba).mpr (mem_nodes.mpr ⟨_, hbucket, hb⟩)
    refine ⟨_, _, _, ?_, h.of_unlinked hread ha hmap.buckets hrelinked ?_ ?_, rfl,
      h.nodes_erase hread ha, Function.update_of_ne (Ne.symm hba) _ heap, hrelinked⟩
    · rw [List.getLast?_concat] at hseek
      simp only [hmapRemove, hread, Option.bind_eq_bind, Option.bind_some, hseek, Option.elim_some,
        writeSlot, Heap.write, hcell, Option.map_some]
    · rw [herase, List.append_assoc, List.singleton_append]
      rw [List.append_assoc, List.singleton_append] at hchain
      exact hchain.unlink hread (Function.update_self ..) rfl
        fun x hx => Function.update_of_ne hx _ heap
    · intro j hj hne
      apply (h.linked j hj).frame
      intro c hc
      apply Function.update_of_ne
      rintro rfl
      apply hne
      rw [← h.placed j hj c hc cell hcell, h.placed _ hbucket c hb cell hcell]

end Linked

end LogCollector.HashTable
