import LogCollector.HashTable.Shash
import LogCollector.Lib.Machine

/-!
# A string hash map is a finite map

Whatever is done with a string hash map, in any order and wherever `xmalloc` puts the nodes, it
answers as the finite map from names to data does: nothing depends on the hashes, on the number
of buckets or on the order in the chains. No operation touches memory that was freed, and what is
allocated for the nodes is exactly what the map has nodes for.
-/

namespace LogCollector.HashTable

open Lib (Chain)

variable {δ : Type}

namespace Shash

/-- What holds of a map between operations, in a memory that was `heap₀` before its first one. -/
structure Keeps (heap₀ : Heap (ShashNode δ)) (sh : Shash δ) (chain : Nat → List Addr)
    (m : Dictionary δ) : Prop where
  linked : Linked sh.heap sh.map chain
  means : Means (view sh.heap) (sh.map.nodes chain) m
  /-- One bucket for every two nodes at least. -/
  load : sh.map.n / 2 ≤ sh.map.mask
  /-- What was allocated before is left alone, and what is freed is free. -/
  outside : ∀ a ∉ sh.map.nodes chain, sh.heap a = heap₀ a
  inside : ∀ a ∈ sh.map.nodes chain, heap₀ a = none

variable {heap₀ : Heap (ShashNode δ)} {sh : Shash δ} {chain : Nat → List Addr} {m : Dictionary δ}
  {name : CStr} {a : Addr} {data : δ}

theorem view_of_relinked {nodes : List Addr} {heap heap' : Heap (ShashNode δ)}
    (h : Relinked nodes heap heap') (hnodes : ∀ a ∈ nodes, ∃ cell, heap a = some cell) (a : Addr) :
    view heap' a = view heap a := by
  by_cases ha : a ∈ nodes
  · obtain ⟨cell, hread⟩ := hnodes a ha
    obtain ⟨next, hread'⟩ := h.kept hread
    rw [view, view, hread, hread']
    rfl
  · rw [view, view, h.frame a ha]

namespace Keeps

/-- `shash_init`. -/
theorem init (heap : Heap (ShashNode δ)) : Keeps heap (Shash.init heap) (fun _ => []) ∅ where
  linked := Linked.init heap
  means := by
    rw [Linked.nodes_nil]
    exact .empty _
  load := by simp [Shash.init, hmapInit]
  outside _ _ := rfl
  inside a ha := by
    rw [Linked.nodes_nil] at ha
    exact absurd ha List.not_mem_nil

/-- Other links between the same nodes, in another table. -/
theorem relink (h : Keeps heap₀ sh chain m) {heap' : Heap (ShashNode δ)} {map' : Hmap}
    {chain' : Nat → List Addr} (hlinked : Linked heap' map' chain')
    (hload : sh.map.n / 2 ≤ map'.mask)
    (hperm : (map'.nodes chain').Perm (sh.map.nodes chain))
    (hrelinked : Relinked (sh.map.nodes chain) sh.heap heap') :
    Keeps heap₀ ⟨heap', map'⟩ chain' m := by
  have hn : map'.n = sh.map.n := by rw [hlinked.count, h.linked.count, hperm.length_eq]
  refine ⟨hlinked, ?_, hn ▸ hload, ?_, ?_⟩
  · apply h.means.congr hperm
    intro a _
    exact view_of_relinked hrelinked (fun b hb => h.linked.exists_read hb) a
  · intro a ha
    have ha : a ∉ sh.map.nodes chain := fun hmem => ha (hperm.mem_iff.mpr hmem)
    exact (hrelinked.frame a ha).trans (h.outside a ha)
  · intro a ha
    exact h.inside a (hperm.mem_iff.mp ha)

/-- THE SEARCH finds the node of a name where there is one, and nothing elsewhere. -/
theorem find (h : Keeps heap₀ sh chain m) (name : CStr) :
    (m.lookup name = none ∧ sh.find name = some none) ∨
    ∃ a ∈ sh.map.nodes chain, ∃ cell data, sh.find name = some (some a) ∧ sh.heap a = some cell ∧
      cell.container = ⟨name, data⟩ ∧ m.lookup name = some data := by
  have hbucket : hashName name &&& sh.map.mask ≤ sh.map.mask := Nat.and_le_right
  have hchain := h.linked.linked _ hbucket
  have hmem : ∀ a ∈ chain (hashName name &&& sh.map.mask), a ∈ sh.map.nodes chain :=
    fun a ha => Linked.mem_nodes.mpr ⟨_, hbucket, ha⟩
  have hhashed : ∀ a ∈ chain (hashName name &&& sh.map.mask), ∀ cell, sh.heap a = some cell →
      cell.hash = hashName cell.container.name := by
    intro a ha cell hread
    obtain ⟨node, hnode⟩ := h.means.hashed a (hmem a ha)
    rw [view, hread] at hnode
    obtain ⟨hhash, rfl⟩ := Prod.mk.inj (Option.some.inj hnode)
    exact hhash
  have hsub := List.dropWhile_sublist (hashDiffers sh.heap (hashName name))
    (l := chain (hashName name &&& sh.map.mask))
  have hfind : sh.find name =
      some ((chain (hashName name &&& sh.map.mask)).find? (nameAt sh.heap · == some name)) := by
    have hlt := length_lt_rounds hchain.nodup
    rw [Shash.find, findWithHash, hmapFirstWithHash, nextWithHashFrom_eq hchain _ hlt]
    simp only [Option.bind_eq_bind, Option.bind_some]
    rw [findFrom_eq (Nat.lt_of_le_of_lt hsub.length_le hlt) (chain_dropWhile hchain _)
      (fun a ha => hhashed a (hsub.subset ha)) (List.dropWhile_idempotent _ _),
      find?_dropWhile hhashed]
  rw [hfind]
  cases hresult : (chain (hashName name &&& sh.map.mask)).find? (nameAt sh.heap · == some name) with
  | none =>
    refine .inl ⟨?_, rfl⟩
    rw [Option.eq_none_iff_forall_ne_some]
    intro data hdata
    obtain ⟨a, ha, hread⟩ := (h.means.lookup name data).mp hdata
    obtain ⟨cell, hcell, heq⟩ := Option.map_eq_some_iff.mp hread
    obtain ⟨hhash, hcontainer⟩ := Prod.mk.inj heq
    have hin := h.linked.mem_chain ha hcell
    rw [hhash] at hin
    have hnot := List.find?_eq_none.mp hresult a hin
    rw [nameAt, hcell, Option.map_some, hcontainer] at hnot
    exact hnot (beq_self_eq_true _)
  | some a =>
    have ha := List.mem_of_find?_eq_some hresult
    have hname : nameAt sh.heap a = some name := by simpa using List.find?_some hresult
    obtain ⟨cell, hread, hcell⟩ := Option.map_eq_some_iff.mp hname
    have hcontainer : cell.container = ⟨name, cell.container.data⟩ := by rw [← hcell]
    refine .inr ⟨a, hmem a ha, cell, cell.container.data, rfl, hread, hcontainer, ?_⟩
    apply h.means.lookup_of_mem (hmem a ha)
    rw [view, hread, Option.map_some, ← hcontainer]

/-- A node is added under a name that is not there. -/
theorem add (h : Keeps heap₀ sh chain m) (hfree : sh.heap a = none) (habsent : m.lookup name = none)
    (data : δ) :
    ∃ sh' chain', sh.addWithHash a name data (hashName name) = some sh' ∧
      Keeps heap₀ sh' chain' (m.insert name data) := by
  have ha : a ∉ sh.map.nodes chain := by
    intro hmem
    obtain ⟨cell, hread⟩ := h.linked.exists_read hmem
    cases hfree.symm.trans hread
  let heap₁ := Function.update sh.heap a (some ⟨0, none, ⟨name, data⟩⟩)
  have hother : ∀ b, b ≠ a → heap₁ b = sh.heap b := fun b hb => Function.update_of_ne hb _ sh.heap
  have hlinked₁ : Linked heap₁ sh.map chain := by
    apply h.linked.frame
    intro b hb cell hread
    exact ⟨cell.container, (hother b fun hba => ha (hba ▸ hb)).trans hread⟩
  obtain ⟨heap', map', chain', hinsert, hlinked', hload, hperm, ⟨next, hself⟩, hrelinked⟩ :=
    hlinked₁.insert (Function.update_self ..) ha (hashName name)
  have hupdate : ∀ b, b ≠ a → Function.update heap₁ a (heap' a) b = sh.heap b := fun b hb =>
    (Function.update_of_ne hb _ heap₁).trans (hother b hb)
  refine ⟨⟨heap', map'⟩, chain', ?_, hlinked', ?_, hload, ?_, ?_⟩
  · rw [addWithHash]
    simp only [Option.bind_eq_bind]
    rw [show hmapInsert (Function.update sh.heap a (some ⟨0, none, ⟨name, data⟩⟩)) sh.map a
      (hashName name) = some (heap', map') from hinsert]
    rfl
  · refine (h.means.insert (view heap') ha habsent ?_ ?_).congr hperm fun _ _ => rfl
    · rw [view, hself]
      rfl
    · intro b hb
      have hne : b ≠ a := fun hba => ha (hba ▸ hb)
      obtain ⟨cell, hread⟩ := h.linked.exists_read hb
      obtain ⟨next', hread'⟩ := hrelinked.kept ((hupdate b hne).trans hread)
      rw [view, view, hread, hread']
      rfl
  · intro b hb
    obtain ⟨hne, hb⟩ := List.ne_and_not_mem_of_not_mem_cons fun hmem => hb (hperm.mem_iff.mpr hmem)
    change heap' b = heap₀ b
    rw [hrelinked.frame b hb, hupdate b hne, h.outside b hb]
  · intro b hb
    rcases List.mem_cons.mp (hperm.mem_iff.mp hb) with rfl | hb
    · rw [← h.outside b ha, hfree]
    · exact h.inside b hb

/-- The data of a node is replaced. -/
theorem write (h : Keeps heap₀ sh chain m) (ha : a ∈ sh.map.nodes chain)
    {cell : HmapNode (ShashNode δ)} {old : δ} (hread : sh.heap a = some cell)
    (hcontainer : cell.container = ⟨name, old⟩) (data : δ) :
    Keeps heap₀
      { sh with heap := Function.update sh.heap a (some { cell with container := ⟨name, data⟩ }) }
      chain (m.insert name data) := by
  have hhash : view sh.heap a = some (hashName name, ⟨name, old⟩) := by
    obtain ⟨node, hnode⟩ := h.means.hashed a ha
    have hview : view sh.heap a = some (cell.hash, ⟨name, old⟩) := by
      rw [view, hread, Option.map_some, hcontainer]
    obtain rfl := Means.eq_of_read hview hnode
    exact hnode
  have hcell : cell.hash = hashName name := by
    rw [view, hread, Option.map_some] at hhash
    exact (Prod.mk.inj (Option.some.inj hhash)).1
  refine ⟨?_, ?_, h.load, ?_, h.inside⟩
  · apply h.linked.frame
    intro b hb node hnode
    by_cases hba : b = a
    · subst hba
      cases hread.symm.trans hnode
      exact ⟨⟨name, data⟩, Function.update_self ..⟩
    · exact ⟨node.container, (Function.update_of_ne hba _ sh.heap).trans hnode⟩
  · apply h.means.replace ha hhash
    · simp only [view, Function.update_self, Option.map_some, hcell]
    · intro b hb
      simp only [view, Function.update_of_ne hb]
  · intro b hb
    have hba : b ≠ a := fun hba => hb (hba ▸ ha)
    exact (Function.update_of_ne hba _ sh.heap).trans (h.outside b hb)

/-- A node is removed and freed. -/
theorem delete (h : Keeps heap₀ sh chain m) (ha : a ∈ sh.map.nodes chain)
    {cell : HmapNode (ShashNode δ)} (hread : sh.heap a = some cell)
    (hcontainer : cell.container = ⟨name, data⟩) :
    ∃ heap map chain', hmapRemove sh.heap sh.map a = some (heap, map) ∧
      heap.free a = some (Function.update heap a none) ∧
      Keeps heap₀ ⟨Function.update heap a none, map⟩ chain' (m.erase name) ∧
      map.nodes chain' = (sh.map.nodes chain).erase a ∧ map.mask = sh.map.mask := by
  obtain ⟨heap, map, chain', hremove, hlinked, hmask, hnodes, hsame, hrelinked⟩ :=
    h.linked.remove ha
  have hnodup := h.linked.nodup
  have hnotMem : a ∉ map.nodes chain' := by
    rw [hnodes]
    exact hnodup.not_mem_erase
  have hother : ∀ b, b ≠ a → Function.update heap a none b = heap b := fun b hb =>
    Function.update_of_ne hb _ heap
  refine ⟨heap, map, chain', hremove, ?_, ⟨?_, ?_, ?_, ?_, ?_⟩, hnodes, hmask⟩
  · rw [Heap.free, hsame, hread]
    rfl
  · apply hlinked.frame
    intro b hb node hnode
    exact ⟨node.container, (hother b fun hba => hnotMem (hba ▸ hb)).trans hnode⟩
  · change Means _ (map.nodes chain') _
    rw [hnodes]
    have hview : view sh.heap a = some (cell.hash, ⟨name, data⟩) := by
      rw [view, hread, Option.map_some, hcontainer]
    refine (h.means.erase hnodup ha hview).congr (.refl _) ?_
    intro b hb
    have hne : b ≠ a := (hnodup.mem_erase_iff.mp hb).1
    obtain ⟨node, hnode⟩ := h.linked.exists_read (List.mem_of_mem_erase hb)
    obtain ⟨next, hnode'⟩ := hrelinked.kept hnode
    simp only [view, hother b hne, hnode', hnode, Option.map_some]
  · change map.n / 2 ≤ map.mask
    rw [hlinked.count, hnodes, List.length_erase_of_mem ha, ← h.linked.count, hmask]
    have := h.load
    omega
  · intro b hb
    change Function.update heap a none b = heap₀ b
    by_cases hba : b = a
    · subst hba
      rw [Function.update_self, h.inside b ha]
    · change b ∉ map.nodes chain' at hb
      rw [hnodes, List.mem_erase_of_ne hba] at hb
      rw [hother b hba, hrelinked.frame b fun hmem => hb (List.mem_of_mem_erase hmem),
        h.outside b hb]
  · intro b hb
    change b ∈ map.nodes chain' at hb
    rw [hnodes] at hb
    exact h.inside b (List.mem_of_mem_erase hb)

/-- `shash_clear` FREES EACH NODE ONCE and leaves the map empty. -/
theorem clear (h : Keeps heap₀ sh chain m) :
    ∃ sh' chain', sh.clear = some sh' ∧ Keeps heap₀ sh' chain' ∅ ∧ sh'.heap = heap₀ := by
  suffices hloop : ∀ (nodes : List Addr) {sh : Shash δ} {chain : Nat → List Addr} {m : Dictionary δ}
      {fuel : Nat}, Keeps heap₀ sh chain m → sh.map.nodes chain = nodes → nodes.length < fuel →
      ∃ sh' chain', clearFrom fuel sh nodes.head? = some sh' ∧ Keeps heap₀ sh' chain' ∅ ∧
        sh'.map.nodes chain' = [] by
    obtain ⟨sh', chain', hclear, hkeeps, hnil⟩ :=
      hloop _ h rfl (length_lt_rounds h.linked.nodup)
    refine ⟨sh', chain', ?_, hkeeps, ?_⟩
    · rw [Shash.clear, h.linked.first_eq, hclear]
    · funext a
      apply hkeeps.outside
      rw [hnil]
      exact List.not_mem_nil
  intro nodes
  induction nodes with
  | nil =>
    intro sh chain m fuel h hnodes hfuel
    obtain ⟨fuel, rfl⟩ := Nat.exists_eq_succ_of_ne_zero (Nat.ne_of_gt hfuel)
    have hm : m = ∅ := by
      apply Finmap.ext_lookup
      intro name
      rw [Finmap.lookup_empty, Option.eq_none_iff_forall_ne_some]
      intro data hdata
      obtain ⟨a, ha, -⟩ := (h.means.lookup name data).mp hdata
      rw [hnodes] at ha
      cases ha
    exact ⟨sh, chain, rfl, hm ▸ h, hnodes⟩
  | cons a nodes ih =>
    intro sh chain m fuel h hnodes hfuel
    cases fuel with
    | zero => cases hfuel
    | succ fuel =>
      have ha : a ∈ sh.map.nodes chain := by
        rw [hnodes]
        exact List.mem_cons_self
      obtain ⟨cell, hread⟩ := h.linked.exists_read ha
      obtain ⟨heap, map, chain₁, hremove, hfree, h₁, hnodes₁, -⟩ := h.delete ha hread rfl
      rw [hnodes, List.erase_cons_head] at hnodes₁
      obtain ⟨sh', chain', hclear, hkeeps⟩ := ih h₁ hnodes₁ (Nat.lt_of_succ_lt_succ hfuel)
      refine ⟨sh', chain', ?_, hkeeps⟩
      rw [List.head?_cons, clearFrom, h.linked.next_eq [] hnodes]
      simp only [Option.bind_eq_bind, Option.bind_some, hremove, hfree]
      exact hclear

/-- There are as many names as nodes. -/
theorem count (h : Keeps heap₀ sh chain m) : sh.count = m.keys.card := by
  rw [h.means.card_keys h.linked.nodup, Shash.count, hmapCount, h.linked.count]

end Keeps

/-! ## Runs -/

/-- What a program does with a string hash map. Where a node may be added, its address is the one
`xmalloc` answers. -/
inductive Operation (δ : Type)
  | find (name : CStr)
  | addOnce (node : Addr) (name : CStr) (data : δ)
  | replace (node : Addr) (name : CStr) (data : δ)
  | findAndDelete (name : CStr)
  | clear
  | expand
  | shrink
  | reserve (n : Nat)
  | count

/-- What it is answered. -/
inductive Answer (δ : Type)
  | data (found : Option δ)
  | added (new : Bool)
  | count (n : Nat)
  | done
deriving DecidableEq

/-- A map, and what it has answered so far. -/
structure Session (σ δ : Type) where
  map : σ
  answers : List (Answer δ)

/-- One operation on a table. -/
def execute (sh : Shash δ) : Operation δ → Option (Shash δ × Answer δ)
  | .find name => (sh.findData name).map fun found => (sh, .data found)
  | .addOnce node name data => (sh.addOnce node name data).map fun (sh, new) => (sh, .added new)
  | .replace node name data => (sh.replace node name data).map fun (sh, old) => (sh, .data old)
  | .findAndDelete name => (sh.findAndDelete name).map fun (sh, old) => (sh, .data old)
  | .clear => sh.clear.map fun sh => (sh, .done)
  | .expand => (hmapExpand sh.heap sh.map).map fun (heap, map) => (⟨heap, map⟩, .done)
  | .shrink => (hmapShrink sh.heap sh.map).map fun (heap, map) => (⟨heap, map⟩, .done)
  | .reserve n => (hmapReserve sh.heap sh.map n).map fun (heap, map) => (⟨heap, map⟩, .done)
  | .count => some (sh, .count sh.count)

/-- The operation on the finite map. -/
def Dictionary.execute (m : Dictionary δ) : Operation δ → Dictionary δ × Answer δ
  | .find name => (m, .data (m.lookup name))
  | .addOnce _ name data =>
    match m.lookup name with
    | none => (m.insert name data, .added true)
    | some _ => (m, .added false)
  | .replace _ name data => (m.insert name data, .data (m.lookup name))
  | .findAndDelete name => (m.erase name, .data (m.lookup name))
  | .clear => (∅, .done)
  | .expand => (m, .done)
  | .shrink => (m, .done)
  | .reserve _ => (m, .done)
  | .count => (m, .count m.keys.card)

/-- `xmalloc` answers an address where nothing is allocated; and no table is asked to have room
for so many nodes that the bytes of their buckets are more than a `size_t` counts. -/
def Permitted (s : Session (Shash δ) δ) : Operation δ → Prop
  | .addOnce node _ _ | .replace node _ _ => s.map.heap node = none
  | .reserve n => n < 2 ^ 61
  | .find _ | .findAndDelete _ | .clear | .expand | .shrink | .count => True

instance (s : Session (Shash δ) δ) (op : Operation δ) : Decidable (Permitted s op) :=
  match op with
  | .addOnce node _ _ | .replace node _ _ =>
    decidable_of_iff (s.map.heap node).isNone Option.isNone_iff_eq_none
  | .reserve n => inferInstanceAs (Decidable (n < 2 ^ 61))
  | .find _ | .findAndDelete _ | .clear | .expand | .shrink | .count => .isTrue trivial

/-- The table as a machine. -/
def step : Lib.Step (Session (Shash δ) δ) (Operation δ) := fun s op =>
  (execute s.map op).map fun (sh, answer) => ⟨sh, s.answers ++ [answer]⟩

/-- The finite map under a list of operations. -/
def Dictionary.run (m : Session (Dictionary δ) δ) (ops : List (Operation δ)) :
    Session (Dictionary δ) δ :=
  ops.foldl (fun s op => ⟨(s.map.execute op).1, s.answers ++ [(s.map.execute op).2]⟩) m

section

variable (h : Keeps heap₀ sh chain m)

include h

theorem Keeps.findData (name : CStr) : sh.findData name = some (m.lookup name) := by
  rcases h.find name with ⟨habsent, hfind⟩ | ⟨a, -, cell, data, hfind, hread, hcontainer, hdata⟩
  · rw [Shash.findData, hfind, habsent]
    rfl
  · simp only [Shash.findData, hfind, hread, hcontainer, hdata, Option.bind_eq_bind,
      Option.bind_some]

theorem Keeps.addOnce (hfree : sh.heap a = none) (name : CStr) (data : δ) :
    ∃ sh' chain', sh.addOnce a name data = some (sh', (m.lookup name).isNone) ∧
      Keeps heap₀ sh' chain' (if (m.lookup name).isNone then m.insert name data else m) := by
  rcases h.find name with ⟨habsent, hfind⟩ | ⟨b, -, cell, old, hfind, -, -, hdata⟩
  · obtain ⟨sh', chain', hadd, hkeeps⟩ := h.add hfree habsent data
    refine ⟨sh', chain', ?_, ?_⟩
    · simp only [Shash.addOnce, Shash.add, hfind, habsent, hadd, Option.bind_eq_bind,
        Option.bind_some, Option.isNone_none]
    · rwa [habsent, Option.isNone_none, if_pos rfl]
  · refine ⟨sh, chain, ?_, ?_⟩
    · simp only [Shash.addOnce, hfind, hdata, Option.bind_eq_bind, Option.bind_some,
        Option.isNone_some]
    · rw [hdata, Option.isNone_some, if_neg Bool.false_ne_true]
      exact h

theorem Keeps.replace (hfree : sh.heap a = none) (name : CStr) (data : δ) :
    ∃ sh' chain', sh.replace a name data = some (sh', m.lookup name) ∧
      Keeps heap₀ sh' chain' (m.insert name data) := by
  rcases h.find name with ⟨habsent, hfind⟩ | ⟨b, hb, cell, old, hfind, hread, hcontainer, hdata⟩
  · obtain ⟨sh', chain', hadd, hkeeps⟩ := h.add hfree habsent data
    refine ⟨sh', chain', ?_, hkeeps⟩
    rw [Shash.find] at hfind
    simp only [Shash.replace, hfind, habsent, hadd, Option.bind_eq_bind, Option.bind_some]
  · refine ⟨_, chain, ?_, h.write hb hread hcontainer data⟩
    rw [Shash.find] at hfind
    simp only [Shash.replace, hfind, hread, hcontainer, hdata, Heap.write, Option.bind_eq_bind,
      Option.bind_some, Option.map_some]

theorem Keeps.findAndDelete (name : CStr) :
    ∃ sh' chain', sh.findAndDelete name = some (sh', m.lookup name) ∧
      Keeps heap₀ sh' chain' (m.erase name) := by
  rcases h.find name with ⟨habsent, hfind⟩ | ⟨b, hb, cell, data, hfind, hread, hcontainer, hdata⟩
  · refine ⟨sh, chain, ?_, ?_⟩
    · rw [Shash.findAndDelete, hfind, habsent]
      rfl
    · have herase : m.erase name = m := by
        apply Finmap.ext_lookup
        intro name'
        by_cases hname : name' = name
        · rw [hname, Finmap.lookup_erase, habsent]
        · exact Finmap.lookup_erase_ne hname
      rw [herase]
      exact h
  · obtain ⟨heap, map, chain', hremove, hfreed, hkeeps, -⟩ := h.delete hb hread hcontainer
    refine ⟨_, chain', ?_, hkeeps⟩
    simp only [Shash.findAndDelete, Shash.delete, Shash.steal, hfind, hread, hcontainer, hdata,
      hremove, hfreed, Option.bind_eq_bind, Option.bind_some, Option.map_some]

/-- The finite map has exactly what the nodes of the table hold. -/
theorem Keeps.lookup_eq_some_iff {name : CStr} {data : δ} : m.lookup name = some data ↔
    ∃ a ∈ sh.map.nodes chain, ∃ cell, sh.heap a = some cell ∧ cell.container = ⟨name, data⟩ := by
  rw [h.means.lookup]
  refine exists_congr fun a => and_congr_right fun ha => ?_
  constructor
  · intro hview
    obtain ⟨cell, hread, heq⟩ := Option.map_eq_some_iff.mp hview
    exact ⟨cell, hread, (Prod.mk.inj heq).2⟩
  · rintro ⟨cell, hread, hcontainer⟩
    obtain ⟨node, hnode⟩ := h.means.hashed a ha
    have hview : view sh.heap a = some (cell.hash, ⟨name, data⟩) := by
      rw [view, hread, Option.map_some, hcontainer]
    obtain rfl := Means.eq_of_read hview hnode
    exact hnode

theorem Keeps.mem_keys_iff {name : CStr} : name ∈ m.keys ↔
    ∃ a ∈ sh.map.nodes chain, ∃ cell, sh.heap a = some cell ∧ cell.container.name = name := by
  rw [Finmap.mem_keys, Finmap.mem_iff]
  constructor
  · rintro ⟨data, hdata⟩
    obtain ⟨a, ha, cell, hread, hcontainer⟩ := h.lookup_eq_some_iff.mp hdata
    exact ⟨a, ha, cell, hread, congrArg ShashNode.name hcontainer⟩
  · rintro ⟨a, ha, cell, hread, rfl⟩
    exact ⟨_, h.lookup_eq_some_iff.mpr ⟨a, ha, cell, hread, rfl⟩⟩

/-- The loop over the nodes of another table looks up their names here. -/
theorem Keeps.allFound {other : Heap (ShashNode δ)} {nodes : List Addr}
    (hnodes : ∀ a ∈ nodes, ∃ cell, other a = some cell) :
    ∃ found, sh.allFound other nodes = some found ∧
      (found ↔ ∀ a ∈ nodes, ∀ cell, other a = some cell → cell.container.name ∈ m.keys) := by
  induction nodes with
  | nil => exact ⟨true, rfl, iff_of_true rfl fun _ ha => absurd ha List.not_mem_nil⟩
  | cons a nodes ih =>
    obtain ⟨⟨cell, hread⟩, hnodes⟩ := List.forall_mem_cons.mp hnodes
    rcases h.find cell.container.name with ⟨habsent, hfind⟩ | ⟨b, -, node, data, hfind, -, -, hdata⟩
    · refine ⟨false, ?_, iff_of_false Bool.false_ne_true ?_⟩
      · simp only [Shash.allFound, hread, hfind, Option.bind_eq_bind, Option.bind_some]
      · intro hall
        obtain ⟨data, hdata⟩ :=
          Finmap.mem_iff.mp (Finmap.mem_keys.mp (hall a List.mem_cons_self cell hread))
        cases habsent.symm.trans hdata
    · obtain ⟨found, hloop, hfound⟩ := ih hnodes
      refine ⟨found, ?_, ?_⟩
      · simp only [Shash.allFound, hread, hfind, Option.bind_eq_bind, Option.bind_some]
        exact hloop
      · rw [hfound, List.forall_mem_cons]
        refine (and_iff_right ?_).symm
        intro cell' hread'
        cases hread.symm.trans hread'
        exact Finmap.mem_keys.mpr (Finmap.mem_iff.mpr ⟨data, hdata⟩)

/-- `shash_equal_keys` compares the sets of names. -/
theorem Keeps.equalKeys {heap₀' : Heap (ShashNode δ)} {sh' : Shash δ} {chain' : Nat → List Addr}
    {m' : Dictionary δ} (h' : Keeps heap₀' sh' chain' m') :
    sh.equalKeys sh' = some (decide (m.keys = m'.keys)) := by
  have hcount : hmapCount sh.map = m.keys.card := h.count
  have hcount' : hmapCount sh'.map = m'.keys.card := h'.count
  by_cases hcards : m.keys.card = m'.keys.card
  · obtain ⟨found, hloop, hfound⟩ := h'.allFound fun a ha => h.linked.exists_read ha
    have hsubset : found ↔ m.keys ⊆ m'.keys := by
      rw [hfound]
      constructor
      · intro hall name hname
        obtain ⟨a, ha, cell, hread, rfl⟩ := h.mem_keys_iff.mp hname
        exact hall a ha cell hread
      · intro hsub a ha cell hread
        exact hsub (h.mem_keys_iff.mpr ⟨a, ha, cell, hread, rfl⟩)
    have hequal : found = decide (m.keys = m'.keys) := by
      rw [Bool.eq_iff_iff, hsubset, decide_eq_true_iff]
      constructor
      · exact fun hsub => Finset.eq_of_subset_of_card_le hsub hcards.ge
      · exact fun heq => heq.subset
    rw [Shash.equalKeys, hcount, hcount', if_neg (not_not_intro hcards), h.linked.forEach_eq,
      ← hequal]
    exact hloop
  · rw [Shash.equalKeys, hcount, hcount', if_pos hcards, decide_eq_false]
    intro heq
    exact hcards (congrArg Finset.card heq)

/-- ONE OPERATION comes to an end, does to the table what it does to the finite map, and answers
the same. -/
theorem Keeps.execute {op : Operation δ} {answers : List (Answer δ)}
    (hop : Permitted ⟨sh, answers⟩ op) :
    ∃ sh' chain', Shash.execute sh op = some (sh', (m.execute op).2) ∧
      Keeps heap₀ sh' chain' (m.execute op).1 := by
  cases op with
  | find name =>
    refine ⟨sh, chain, ?_, h⟩
    rw [Shash.execute, h.findData]
    rfl
  | addOnce node name data =>
    obtain ⟨sh', chain', hadd, hkeeps⟩ := h.addOnce hop name data
    refine ⟨sh', chain', ?_, ?_⟩
    · rw [Shash.execute, hadd, Option.map_some, Dictionary.execute]
      cases m.lookup name <;> rfl
    · rw [Dictionary.execute]
      cases hlookup : m.lookup name <;> simpa [hlookup] using hkeeps
  | replace node name data =>
    obtain ⟨sh', chain', hreplace, hkeeps⟩ := h.replace hop name data
    exact ⟨sh', chain', by rw [Shash.execute, hreplace]; rfl, hkeeps⟩
  | findAndDelete name =>
    obtain ⟨sh', chain', hdelete, hkeeps⟩ := h.findAndDelete name
    exact ⟨sh', chain', by rw [Shash.execute, hdelete]; rfl, hkeeps⟩
  | clear =>
    obtain ⟨sh', chain', hclear, hkeeps, -⟩ := h.clear
    exact ⟨sh', chain', by rw [Shash.execute, hclear]; rfl, hkeeps⟩
  | expand =>
    obtain ⟨heap', map', chain', hexpand, hlinked, hload, -, hperm, hrelinked⟩ := h.linked.expand
    exact ⟨_, chain', by rw [Shash.execute, hexpand]; rfl, h.relink hlinked hload hperm hrelinked⟩
  | shrink =>
    obtain ⟨heap', map', chain', hshrink, hlinked, hload, -, hperm, hrelinked⟩ :=
      h.linked.shrink h.load
    exact ⟨_, chain', by rw [Shash.execute, hshrink]; rfl, h.relink hlinked hload hperm hrelinked⟩
  | reserve n =>
    obtain ⟨heap', map', chain', hreserve, hlinked, -, hmask, hperm, hrelinked⟩ :=
      h.linked.reserve hop
    exact ⟨_, chain', by rw [Shash.execute, hreserve]; rfl,
      h.relink hlinked (h.load.trans hmask) hperm hrelinked⟩
  | count => exact ⟨sh, chain, by rw [Shash.execute, h.count]; rfl, h⟩

/-- A RUN of operations comes to an end where the finite map does, with the same answers. -/
theorem Keeps.run {ops : List (Operation δ)} {answers : List (Answer δ)}
    (hops : (step (δ := δ)).Along Permitted ⟨sh, answers⟩ ops) :
    ∃ sh' chain', step.run ⟨sh, answers⟩ ops =
      some ⟨sh', (Dictionary.run ⟨m, answers⟩ ops).answers⟩ ∧
      Keeps heap₀ sh' chain' (Dictionary.run ⟨m, answers⟩ ops).map := by
  induction ops generalizing sh chain m answers with
  | nil => exact ⟨sh, chain, rfl, h⟩
  | cons op ops ih =>
    obtain ⟨sh₁, chain₁, hexecute, h₁⟩ := h.execute hops.head
    have hstep : step ⟨sh, answers⟩ op = some ⟨sh₁, answers ++ [(m.execute op).2]⟩ := by
      rw [step, hexecute]
      rfl
    obtain ⟨sh', chain', hrun, hkeeps⟩ := ih h₁ (hops.tail hstep)
    refine ⟨sh', chain', ?_, hkeeps⟩
    rw [Lib.Step.run_cons, hstep, Option.bind_some, hrun]
    rfl

end

/-- A STRING HASH MAP IS A FINITE MAP: over every run of operations on a new table, in any memory
and wherever new nodes are allocated, the table comes to the end of the run with the answers of
the finite map, one bucket for every two nodes at least, each node visited once by an iteration,
and nothing allocated but the nodes it has. -/
theorem run_refines (heap : Heap (ShashNode δ)) {ops : List (Operation δ)}
    (hops : (step (δ := δ)).Along Permitted ⟨init heap, []⟩ ops) :
    ∃ sh nodes, step.run ⟨init heap, []⟩ ops =
        some ⟨sh, (Dictionary.run ⟨∅, []⟩ ops).answers⟩ ∧
      hmapForEach sh.heap sh.map = some nodes ∧ nodes.Nodup ∧
      (∀ name data, (Dictionary.run ⟨∅, []⟩ ops).map.lookup name = some data ↔
        ∃ a ∈ nodes, ∃ cell, sh.heap a = some cell ∧ cell.container = ⟨name, data⟩) ∧
      sh.map.n = (Dictionary.run ⟨∅, []⟩ ops).map.keys.card ∧
      (∃ k, sh.map.mask + 1 = 2 ^ k) ∧ sh.map.n ≤ hmapCapacity sh.map ∧
      ∀ a, sh.heap a ≠ heap a ↔ a ∈ nodes := by
  obtain ⟨sh, chain, hrun, hkeeps⟩ := (Keeps.init heap).run hops
  refine ⟨sh, sh.map.nodes chain, hrun, hkeeps.linked.forEach_eq, hkeeps.linked.nodup,
    fun _ _ => hkeeps.lookup_eq_some_iff, hkeeps.count, hkeeps.linked.mask, ?_, ?_⟩
  · have := hkeeps.load
    rw [hmapCapacity]
    omega
  · intro a
    constructor
    · intro hne
      by_contra ha
      exact hne (hkeeps.outside a ha)
    · intro ha
      obtain ⟨cell, hread⟩ := hkeeps.linked.exists_read ha
      rw [hkeeps.inside a ha, hread]
      exact Option.some_ne_none cell

/-- Five names in four buckets, the first of them twice; one is replaced, one is deleted and another
added in its place; then the table grows and shrinks, and is cleared. -/
def sampleRun : List (Operation Nat) :=
  [.addOnce ⟨5, by decide⟩ (.lit "a") 1, .addOnce ⟨6, by decide⟩ (.lit "b") 2,
    .addOnce ⟨2, by decide⟩ (.lit "c") 3, .addOnce ⟨3, by decide⟩ (.lit "d") 4,
    .addOnce ⟨8, by decide⟩ (.lit "e") 5, .addOnce ⟨9, by decide⟩ (.lit "a") 6,
    .replace ⟨9, by decide⟩ (.lit "b") 7, .findAndDelete (.lit "c"),
    .replace ⟨2, by decide⟩ (.lit "f") 8, .find (.lit "c"), .reserve 100, .find (.lit "b"),
    .shrink, .find (.lit "f"), .count, .clear, .find (.lit "a"), .count]

/-- Names of one bucket are told apart, before and after the table is resized. -/
theorem run_refines_sample : ∃ sh, (step (δ := Nat)).run ⟨init fun _ => none, []⟩ sampleRun =
    some ⟨sh, [.added true, .added true, .added true, .added true, .added true, .added false,
      .data (some 2), .data (some 3), .data none, .data none, .done, .data (some 7), .done,
      .data (some 8), .count 5, .done, .data none, .count 0]⟩ := by
  obtain ⟨sh, -, hrun, -⟩ := run_refines (fun _ => none)
    (show (step (δ := Nat)).Along Permitted ⟨init fun _ => none, []⟩ sampleRun by decide +kernel)
  refine ⟨sh, hrun.trans ?_⟩
  have hanswers : (Dictionary.run ⟨∅, []⟩ sampleRun).answers =
      [.added true, .added true, .added true, .added true, .added true, .added false,
        .data (some 2), .data (some 3), .data none, .data none, .done, .data (some 7), .done,
        .data (some 8), .count 5, .done, .data none, .count 0] := by decide +kernel
  rw [hanswers]

/-- EQUAL KEYS: whatever was done with two new tables, in whatever memories, `shash_equal_keys`
answers whether the finite maps they stand for have the same names. -/
theorem equalKeys_runs (heap heap' : Heap (ShashNode δ)) {ops ops' : List (Operation δ)}
    (hops : (step (δ := δ)).Along Permitted ⟨init heap, []⟩ ops)
    (hops' : (step (δ := δ)).Along Permitted ⟨init heap', []⟩ ops') :
    ∃ s s', step.run ⟨init heap, []⟩ ops = some s ∧ step.run ⟨init heap', []⟩ ops' = some s' ∧
      s.map.equalKeys s'.map = some (decide ((Dictionary.run ⟨∅, []⟩ ops).map.keys =
        (Dictionary.run ⟨∅, []⟩ ops').map.keys)) := by
  obtain ⟨sh, chain, hrun, hkeeps⟩ := (Keeps.init heap).run hops
  obtain ⟨sh', chain', hrun', hkeeps'⟩ := (Keeps.init heap').run hops'
  exact ⟨_, _, hrun, hrun', hkeeps.equalKeys hkeeps'⟩

/-- Names are added in another order to a table that had room for a hundred and was cleared. -/
def reusedRun : List (Operation Nat) :=
  sampleRun.take 12 ++ [.clear, .replace ⟨8, by decide⟩ (.lit "c") 9,
    .addOnce ⟨4, by decide⟩ (.lit "b") 8, .addOnce ⟨7, by decide⟩ (.lit "a") 7]

/-- The order of insertion and the number of buckets do not matter. -/
theorem equalKeys_runs_sample : ∃ s s',
    (step (δ := Nat)).run ⟨init fun _ => none, []⟩ (sampleRun.take 3) = some s ∧
    (step (δ := Nat)).run ⟨init fun _ => none, []⟩ reusedRun = some s' ∧
    s.map.equalKeys s'.map = some true := by
  have hpermitted : (step (δ := Nat)).Along Permitted ⟨init fun _ => none, []⟩
      (sampleRun.take 3) := by decide +kernel
  have hpermitted' : (step (δ := Nat)).Along Permitted ⟨init fun _ => none, []⟩ reusedRun := by
    decide +kernel
  obtain ⟨s, s', hrun, hrun', hequal⟩ :=
    equalKeys_runs (fun _ => none) (fun _ => none) hpermitted hpermitted'
  refine ⟨s, s', hrun, hrun', hequal.trans (congrArg some (decide_eq_true ?_))⟩
  decide +kernel

end Shash

end LogCollector.HashTable
