import LogCollector.Hash
import LogCollector.HashTable.Walk

/-!
# String hash maps

`shash.c`: a hash map whose nodes have names and data. JSON objects are such maps, and so is the
table of custom functions. What a map is for is to be a finite map from names to data, whatever
the hashes are and however the nodes lie in the buckets: `Means` relates the two.

A node is allocated by `xmalloc`, which answers an address where nothing is allocated; which one
it is is an argument of the operations that add nodes.
-/

namespace LogCollector.HashTable

open Lib (Chain)

/-- What a `struct shash_node` has besides its `struct hmap_node`. -/
structure ShashNode (δ : Type) where
  name : CStr
  data : δ

/-- `struct shash`, in its memory. -/
structure Shash (δ : Type) where
  heap : Heap (ShashNode δ)
  map : Hmap

variable {δ : Type}

/-- `hash_name`. -/
def hashName (name : CStr) : Nat := (hashString name 0).toNat

/-- `!strncmp(node->name, name, name_len) && !node->name[name_len]`. -/
def nameMatches (node name : CStr) (nameLen : Nat) : Bool :=
  node.bytes.take nameLen == name.bytes.take nameLen && node.strlen == nameLen

namespace Shash

/-- `shash_init`. -/
def init (heap : Heap (ShashNode δ)) : Shash δ := ⟨heap, hmapInit⟩

/-- `shash_is_empty`. -/
def isEmpty (sh : Shash δ) : Bool := hmapIsEmpty sh.map

/-- `shash_count`. -/
def count (sh : Shash δ) : Nat := hmapCount sh.map

/-- `HMAP_FOR_EACH_WITH_HASH` in `shash_find__`, from `p` on. -/
def findFrom (heap : Heap (ShashNode δ)) (name : CStr) (nameLen : Nat) :
    Nat → Option Addr → Option (Option Addr)
  | 0, _ => none
  | _ + 1, none => some none
  | fuel + 1, some node => do
    let cell ← heap node
    if nameMatches cell.container.name name nameLen then some (some node)
    else findFrom heap name nameLen fuel (← hmapNextWithHash heap node)

/-- `shash_find__`. -/
def findWithHash (sh : Shash δ) (name : CStr) (nameLen : Nat) (hash : Nat) :
    Option (Option Addr) := do
  findFrom sh.heap name nameLen ROUNDS (← hmapFirstWithHash sh.heap sh.map hash)

/-- `shash_find`. -/
def find (sh : Shash δ) (name : CStr) : Option (Option Addr) :=
  sh.findWithHash name name.strlen (hashName name)

/-- `shash_find_data`. -/
def findData (sh : Shash δ) (name : CStr) : Option (Option δ) := do
  match ← sh.find name with
  | some node => do
    let cell ← sh.heap node
    some (some cell.container.data)
  | none => some none

/-- `shash_add_nocopy__`, with the node at the address `xmalloc` answers. Its hash map node is
not set before it is inserted. -/
def addWithHash (sh : Shash δ) (node : Addr) (name : CStr) (data : δ) (hash : Nat) :
    Option (Shash δ) := do
  let heap := Function.update sh.heap node (some ⟨0, none, ⟨name, data⟩⟩)
  let (heap, map) ← hmapInsert heap sh.map node hash
  some ⟨heap, map⟩

/-- `shash_add`. -/
def add (sh : Shash δ) (node : Addr) (name : CStr) (data : δ) : Option (Shash δ) :=
  sh.addWithHash node name data (hashName name)

/-- `shash_add_once`. -/
def addOnce (sh : Shash δ) (node : Addr) (name : CStr) (data : δ) : Option (Shash δ × Bool) := do
  match ← sh.find name with
  | none => do
    let sh ← sh.add node name data
    some (sh, true)
  | some _ => some (sh, false)

/-- `shash_replace`, with the data it returns. -/
def replace (sh : Shash δ) (node : Addr) (name : CStr) (data : δ) :
    Option (Shash δ × Option δ) := do
  let hash := hashName name
  match ← sh.findWithHash name name.strlen hash with
  | none => do
    let sh ← sh.addWithHash node name data hash
    some (sh, none)
  | some found => do
    let cell ← sh.heap found
    let heap ← sh.heap.write found ({ · with container := ⟨cell.container.name, data⟩ })
    some ({ sh with heap }, some cell.container.data)

/-- `shash_steal`, with the name it returns. -/
def steal (sh : Shash δ) (node : Addr) : Option (Shash δ × CStr) := do
  let cell ← sh.heap node
  let (heap, map) ← hmapRemove sh.heap sh.map node
  let heap ← heap.free node
  some (⟨heap, map⟩, cell.container.name)

/-- `shash_delete`. -/
def delete (sh : Shash δ) (node : Addr) : Option (Shash δ) := (sh.steal node).map Prod.fst

/-- `shash_find_and_delete`, with the data it returns. -/
def findAndDelete (sh : Shash δ) (name : CStr) : Option (Shash δ × Option δ) := do
  match ← sh.find name with
  | some node => do
    let cell ← sh.heap node
    let sh ← sh.delete node
    some (sh, some cell.container.data)
  | none => some (sh, none)

/-- The loop of `shash_clear` over the nodes from `p` on, which `SHASH_FOR_EACH_SAFE` reads one
ahead. -/
def clearFrom : Nat → Shash δ → Option Addr → Option (Shash δ)
  | 0, _, _ => none
  | _ + 1, sh, none => some sh
  | fuel + 1, sh, some node => do
    let next ← hmapNext sh.heap sh.map node
    let (heap, map) ← hmapRemove sh.heap sh.map node
    let heap ← heap.free node
    clearFrom fuel ⟨heap, map⟩ next

/-- `shash_clear`. -/
def clear (sh : Shash δ) : Option (Shash δ) := clearFrom ROUNDS sh (hmapFirst sh.map)

/-- The name of the node at an address. -/
def nameAt (heap : Heap (ShashNode δ)) (node : Addr) : Option CStr :=
  (heap node).map (·.container.name)

/-- The loop of `shash_equal_keys` over the nodes of the other map. -/
def allFound (sh : Shash δ) (other : Heap (ShashNode δ)) : List Addr → Option Bool
  | [] => some true
  | node :: nodes => do
    let cell ← other node
    match ← sh.find cell.container.name with
    | none => some false
    | some _ => sh.allFound other nodes

/-- `shash_equal_keys`. -/
def equalKeys (a b : Shash δ) : Option Bool := do
  if hmapCount a.map ≠ hmapCount b.map then some false
  else b.allFound a.heap (← hmapForEach a.heap a.map)

/-! ## The finite map -/

/-- A finite map from names to data. -/
abbrev Dictionary (δ : Type) := Finmap fun _ : CStr => δ

/-- What a map holds at an address: the hash of the node, its name and its data. -/
def view (heap : Heap (ShashNode δ)) (node : Addr) : Option (Nat × ShashNode δ) :=
  (heap node).map fun cell => (cell.hash, cell.container)

/-- THE MAP THE NODES STAND FOR: each has the hash of its name, no two have the same name, and
the data of a name is that of the node that has it. -/
structure Means (contents : Addr → Option (Nat × ShashNode δ)) (nodes : List Addr)
    (m : Dictionary δ) : Prop where
  hashed : ∀ a ∈ nodes, ∃ node : ShashNode δ, contents a = some (hashName node.name, node)
  distinct : ∀ a ∈ nodes, ∀ b ∈ nodes, ∀ hash hash' : Nat, ∀ node node' : ShashNode δ,
    contents a = some (hash, node) → contents b = some (hash', node') →
      node.name = node'.name → a = b
  lookup : ∀ name data, m.lookup name = some data ↔
    ∃ a ∈ nodes, contents a = some (hashName name, ⟨name, data⟩)

namespace Means

variable {contents contents' : Addr → Option (Nat × ShashNode δ)} {nodes nodes' : List Addr}
  {m : Dictionary δ} {name : CStr} {data : δ} {a : Addr}

theorem eq_of_read {found : Option (Nat × ShashNode δ)} {hash hash' : Nat}
    {node node' : ShashNode δ}
    (h : found = some (hash, node)) (h' : found = some (hash', node')) : node = node' :=
  (Prod.mk.inj (Option.some.inj (h.symm.trans h'))).2

/-- The order of the nodes does not matter, and no more does what is elsewhere. -/
theorem congr (h : Means contents nodes m) (hperm : nodes'.Perm nodes)
    (hsame : ∀ a ∈ nodes, contents' a = contents a) : Means contents' nodes' m := by
  have hmem : ∀ {a}, a ∈ nodes' → a ∈ nodes := fun ha => hperm.mem_iff.mp ha
  refine ⟨?_, ?_, ?_⟩
  · intro a ha
    rw [hsame a (hmem ha)]
    exact h.hashed a (hmem ha)
  · intro a ha b hb hash hash' node node' hca hcb
    rw [hsame a (hmem ha)] at hca
    rw [hsame b (hmem hb)] at hcb
    exact h.distinct a (hmem ha) b (hmem hb) hash hash' node node' hca hcb
  · intro name data
    rw [h.lookup]
    constructor
    · rintro ⟨a, ha, hca⟩
      exact ⟨a, hperm.mem_iff.mpr ha, (hsame a ha).trans hca⟩
    · rintro ⟨a, ha, hca⟩
      exact ⟨a, hmem ha, (hsame a (hmem ha)).symm.trans hca⟩

/-- The empty map. -/
theorem empty (contents : Addr → Option (Nat × ShashNode δ)) : Means contents [] ∅ where
  hashed _ ha := absurd ha List.not_mem_nil
  distinct _ ha := absurd ha List.not_mem_nil
  lookup name data := by simp

/-- A name that is in the map is that of one node. -/
theorem lookup_of_mem (h : Means contents nodes m) (ha : a ∈ nodes) {hash : Nat}
    (hread : contents a = some (hash, ⟨name, data⟩)) : m.lookup name = some data := by
  obtain ⟨node, hnode⟩ := h.hashed a ha
  obtain rfl := eq_of_read hread hnode
  exact (h.lookup name data).mpr ⟨a, ha, hnode⟩

/-- A node is added under a name that is not there. -/
theorem insert (h : Means contents nodes m) (contents' : Addr → Option (Nat × ShashNode δ))
    (ha : a ∉ nodes) (habsent : m.lookup name = none)
    (hself : contents' a = some (hashName name, ⟨name, data⟩))
    (hsame : ∀ b ∈ nodes, contents' b = contents b) :
    Means contents' (a :: nodes) (m.insert name data) := by
  -- a node that was there has another name
  have hother : ∀ b ∈ nodes, ∀ hash node, contents' b = some (hash, node) → node.name ≠ name := by
    rintro b hb hash ⟨_, data'⟩ hread rfl
    rw [hsame b hb] at hread
    rw [h.lookup_of_mem hb hread] at habsent
    cases habsent
  refine ⟨?_, ?_, ?_⟩
  · intro b hb
    rcases List.mem_cons.mp hb with rfl | hb
    · exact ⟨⟨name, data⟩, hself⟩
    · rw [hsame b hb]
      exact h.hashed b hb
  · intro b hb c hc hash hash' node node' hreadb hreadc hname
    rcases List.mem_cons.mp hb with rfl | hb'
    · rcases List.mem_cons.mp hc with rfl | hc'
      · rfl
      · obtain rfl := eq_of_read hself hreadb
        exact absurd hname.symm (hother c hc' hash' node' hreadc)
    · rcases List.mem_cons.mp hc with rfl | hc'
      · obtain rfl := eq_of_read hself hreadc
        exact absurd hname (hother b hb' hash node hreadb)
      · rw [hsame b hb'] at hreadb
        rw [hsame c hc'] at hreadc
        exact h.distinct b hb' c hc' hash hash' node node' hreadb hreadc hname
  · intro name' data'
    by_cases hname : name' = name
    · subst hname
      rw [Finmap.lookup_insert]
      constructor
      · intro hdata
        obtain rfl := Option.some.inj hdata
        exact ⟨a, List.mem_cons_self, hself⟩
      · rintro ⟨b, hb, hread⟩
        rcases List.mem_cons.mp hb with rfl | hb
        · exact congrArg (some ·.data) (eq_of_read hself hread)
        · exact absurd rfl (hother b hb _ _ hread)
    · rw [Finmap.lookup_insert_of_ne m hname, h.lookup]
      constructor
      · rintro ⟨b, hb, hread⟩
        exact ⟨b, List.mem_cons_of_mem a hb, (hsame b hb).trans hread⟩
      · rintro ⟨b, hb, hread⟩
        rcases List.mem_cons.mp hb with rfl | hb
        · exact absurd (congrArg ShashNode.name (eq_of_read hread hself)) hname
        · exact ⟨b, hb, (hsame b hb).symm.trans hread⟩

/-- The data of a node is replaced. -/
theorem replace (h : Means contents nodes m) (ha : a ∈ nodes) {old : δ}
    (hread : contents a = some (hashName name, ⟨name, old⟩))
    (hself : contents' a = some (hashName name, ⟨name, data⟩))
    (hsame : ∀ b, b ≠ a → contents' b = contents b) :
    Means contents' nodes (m.insert name data) := by
  -- each node keeps its hash and its name
  have hkept : ∀ b hash node, contents' b = some (hash, node) →
      ∃ node', contents b = some (hash, node') ∧ node'.name = node.name := by
    intro b hash node hnode
    by_cases hb : b = a
    · subst hb
      obtain ⟨rfl, rfl⟩ := Prod.mk.inj (Option.some.inj (hself.symm.trans hnode))
      exact ⟨⟨name, old⟩, hread, rfl⟩
    · exact ⟨node, (hsame b hb).symm.trans hnode, rfl⟩
  refine ⟨?_, ?_, ?_⟩
  · intro b hb
    by_cases hba : b = a
    · subst hba
      exact ⟨⟨name, data⟩, hself⟩
    · rw [hsame b hba]
      exact h.hashed b hb
  · intro b hb c hc hash hash' node node' hreadb hreadc hname
    obtain ⟨nodeb, hreadb, hnameb⟩ := hkept b hash node hreadb
    obtain ⟨nodec, hreadc, hnamec⟩ := hkept c hash' node' hreadc
    exact h.distinct b hb c hc hash hash' nodeb nodec hreadb hreadc
      (hnameb.trans (hname.trans hnamec.symm))
  · intro name' data'
    by_cases hname : name' = name
    · subst hname
      rw [Finmap.lookup_insert]
      constructor
      · intro hdata
        obtain rfl := Option.some.inj hdata
        exact ⟨a, ha, hself⟩
      · rintro ⟨b, hb, hreadb⟩
        obtain ⟨nodeb, hreadb', hnameb⟩ := hkept b _ _ hreadb
        obtain rfl := h.distinct b hb a ha _ _ _ _ hreadb' hread hnameb
        exact congrArg (some ·.data) (eq_of_read hself hreadb)
    · rw [Finmap.lookup_insert_of_ne m hname, h.lookup]
      refine exists_congr fun b => and_congr_right fun _ => ?_
      by_cases hba : b = a
      · subst hba
        refine iff_of_false ?_ ?_
        · intro hreadb
          exact hname (congrArg ShashNode.name (eq_of_read hreadb hread))
        · intro hreadb
          exact hname (congrArg ShashNode.name (eq_of_read hreadb hself))
      · rw [hsame b hba]

/-- A node is taken out. -/
theorem erase (h : Means contents nodes m) (hnodup : nodes.Nodup) (ha : a ∈ nodes) {hash : Nat}
    (hread : contents a = some (hash, ⟨name, data⟩)) :
    Means contents (nodes.erase a) (m.erase name) := by
  refine ⟨?_, ?_, ?_⟩
  · intro b hb
    exact h.hashed b (List.mem_of_mem_erase hb)
  · intro b hb c hc
    exact h.distinct b (List.mem_of_mem_erase hb) c (List.mem_of_mem_erase hc)
  · intro name' data'
    by_cases hname : name' = name
    · subst hname
      rw [Finmap.lookup_erase]
      refine iff_of_false nofun ?_
      rintro ⟨b, hb, hreadb⟩
      obtain ⟨hne, hb⟩ := hnodup.mem_erase_iff.mp hb
      exact hne (h.distinct b hb a ha _ _ _ _ hreadb hread rfl)
    · rw [Finmap.lookup_erase_ne hname, h.lookup]
      refine exists_congr fun b => ?_
      rw [hnodup.mem_erase_iff, and_assoc]
      refine ⟨?_, And.right⟩
      rintro ⟨hb, hreadb⟩
      refine ⟨?_, hb, hreadb⟩
      rintro rfl
      exact hname (congrArg ShashNode.name (eq_of_read hreadb hread))

/-- There are as many names as nodes. -/
theorem card_keys (h : Means contents nodes m) (hnodup : nodes.Nodup) :
    m.keys.card = nodes.length := by
  have hkeys : m.keys = (nodes.map fun a => (contents a).map (·.2.name)).toFinset.eraseNone := by
    ext name
    rw [Finmap.mem_keys, Finmap.mem_iff, Finset.mem_eraseNone, List.mem_toFinset, List.mem_map]
    constructor
    · rintro ⟨data, hdata⟩
      obtain ⟨a, ha, hread⟩ := (h.lookup name data).mp hdata
      exact ⟨a, ha, by rw [hread]; rfl⟩
    · rintro ⟨a, ha, hname⟩
      obtain ⟨⟨hash, node⟩, hread, rfl⟩ := Option.map_eq_some_iff.mp hname
      exact ⟨node.data, h.lookup_of_mem ha hread⟩
  have hinj : ((nodes.map fun a => (contents a).map (·.2.name))).Nodup := by
    refine (List.nodup_map_iff_inj_on hnodup).mpr ?_
    intro a ha b hb hname
    obtain ⟨nodea, hreada⟩ := h.hashed a ha
    obtain ⟨nodeb, hreadb⟩ := h.hashed b hb
    simp only [hreada, hreadb, Option.map_some, Option.some.injEq] at hname
    exact h.distinct a ha b hb _ _ _ _ hreada hreadb hname
  have hnone : none ∉ (nodes.map fun a => (contents a).map (·.2.name)).toFinset := by
    rw [List.mem_toFinset, List.mem_map]
    rintro ⟨a, ha, hname⟩
    obtain ⟨node, hread⟩ := h.hashed a ha
    rw [hread] at hname
    cases hname
  rw [hkeys, Finset.card_eraseNone_of_not_mem hnone, List.toFinset_card_of_nodup hinj,
    List.length_map]

end Means

/-! ## Searching -/

theorem nameMatches_strlen (node name : CStr) :
    nameMatches node name name.strlen = decide (node = name) := by
  rw [Bool.eq_iff_iff, nameMatches, Bool.and_eq_true, beq_iff_eq, beq_iff_eq, decide_eq_true_iff]
  constructor
  · rintro ⟨htake, hlen⟩
    rw [List.take_of_length_le (Nat.le_of_eq hlen), CStr.strlen, List.take_length] at htake
    exact CStr.ext htake
  · rintro rfl
    exact ⟨rfl, rfl⟩

section

variable {heap : Heap (ShashNode δ)} {name : CStr}

/-- Nodes with another hash have another name. -/
theorem find?_dropWhile {as : List Addr} (hhashed : ∀ a ∈ as, ∀ cell, heap a = some cell →
    cell.hash = hashName cell.container.name) :
    (as.dropWhile (hashDiffers heap (hashName name))).find? (nameAt heap · == some name) =
      as.find? (nameAt heap · == some name) := by
  induction as with
  | nil => rfl
  | cons a as ih =>
    obtain ⟨ha, has⟩ := List.forall_mem_cons.mp hhashed
    by_cases hdiffers : hashDiffers heap (hashName name) a
    · have hname : (nameAt heap a == some name) = false := by
        rw [beq_eq_false_iff_ne]
        intro hname
        obtain ⟨cell, hread, rfl⟩ := Option.map_eq_some_iff.mp hname
        rw [hashDiffers, hread, Option.map_some, ha cell hread, bne_self_eq_false] at hdiffers
        cases hdiffers
      rw [List.dropWhile_cons_of_pos hdiffers, ih has, List.find?_cons_of_neg (by simp [hname])]
    · rw [List.dropWhile_cons_of_neg hdiffers]

/-- The search along a chain finds the first node with the name. -/
theorem findFrom_eq : ∀ {fuel : Nat} {as : List Addr}, as.length < fuel →
    Chain heap HmapNode.next as.head? as →
    (∀ a ∈ as, ∀ cell, heap a = some cell → cell.hash = hashName cell.container.name) →
    as.dropWhile (hashDiffers heap (hashName name)) = as →
    findFrom heap name name.strlen fuel as.head? = some (as.find? (nameAt heap · == some name))
  | _ + 1, [], _, _, _, _ => rfl
  | fuel + 1, a :: as, hfuel, hchain, hhashed, hhead => by
    obtain ⟨cell, rest, heq, hread, hrest⟩ := hchain.exists_cons
    obtain ⟨-, rfl⟩ := List.cons.inj heq
    obtain ⟨ha, has⟩ := List.forall_mem_cons.mp hhashed
    have hname : nameAt heap a = some cell.container.name := by
      rw [nameAt, hread]
      rfl
    rw [List.head?_cons, findFrom, hread]
    simp only [Option.bind_eq_bind, Option.bind_some, nameMatches_strlen]
    by_cases hmatch : cell.container.name = name
    · rw [if_pos (decide_eq_true hmatch), List.find?_cons_of_pos (by simp [hname, hmatch])]
    · have hhash : cell.hash = hashName name := by
        by_contra hne
        have hdiffers : hashDiffers heap (hashName name) a = true := by
          simp only [hashDiffers, hread, Option.map_some, bne_iff_ne, ne_eq, Option.some.injEq]
          exact hne
        rw [List.dropWhile_cons_of_pos hdiffers] at hhead
        have := (List.dropWhile_sublist (hashDiffers heap (hashName name)) (l := as)).length_le
        rw [hhead, List.length_cons] at this
        omega
      have hnext : hmapNextWithHash heap a =
          some (as.dropWhile (hashDiffers heap (hashName name))).head? := by
        rw [hmapNextWithHash, hread]
        simp only [Option.bind_eq_bind, Option.bind_some, hhash]
        exact nextWithHashFrom_eq hrest _ (length_lt_rounds hrest.nodup)
      have hsub := List.dropWhile_sublist (hashDiffers heap (hashName name)) (l := as)
      rw [if_neg (by simp [hmatch]), hnext]
      simp only [Option.bind_some]
      rw [findFrom_eq (Nat.lt_of_le_of_lt hsub.length_le (Nat.lt_of_succ_lt_succ hfuel))
        (chain_dropWhile hrest _) (fun b hb => has b (hsub.subset hb))
        (List.dropWhile_idempotent _ _),
        find?_dropWhile has, List.find?_cons_of_neg (by simp [hname, hmatch])]

end

end Shash

end LogCollector.HashTable
