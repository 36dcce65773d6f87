import LogCollector.Lib.Buckets
import LogCollector.Lib.Chain
import LogCollector.Lib.Mask

/-!
# Hash maps

`hmap.h` and `hmap.c`: a table of `mask + 1` buckets, each a chain of nodes that are linked by
their `next` pointers. The nodes lie in a memory (`Heap`) and are told apart by their addresses;
an operation that reads or writes a node that is not allocated, goes through a null pointer or
does not come to an end has no result (`none`), and that none of this happens is part of every
statement about it.

A chain has no cycle and there are fewer than `2 ^ 64` addresses, so that many rounds are
enough for each loop along a chain. `xmalloc` finds the memory it is asked for: where it does not,
the program ends.
-/

namespace LogCollector.HashTable

open Lib (Chain)

/-- The address of a node: any but the null pointer, in steps of the 16 bytes that `malloc` aligns
to. -/
abbrev Addr := Fin (2 ^ 60 - 1)

/-- `struct hmap_node`, with the structure it is embedded in. -/
structure HmapNode (β : Type) where
  hash : Nat
  next : Option Addr
  container : β

/-- The memory of the nodes: nothing where none is allocated. -/
abbrev Heap (β : Type) := Addr → Option (HmapNode β)

/-- `struct hmap`. Where `mask` is 0 the only bucket is the member `one`. -/
structure Hmap where
  buckets : Nat → Option Addr
  mask : Nat
  n : Nat

/-- More rounds than there are nodes. -/
def ROUNDS : Nat := 2 ^ 64

variable {β : Type}

/-- A store to an allocated node. -/
def Heap.write (heap : Heap β) (node : Addr) (f : HmapNode β → HmapNode β) : Option (Heap β) :=
  (heap node).map fun old => Function.update heap node (some (f old))

/-- `free`: only what is allocated can be freed. -/
def Heap.free (heap : Heap β) (node : Addr) : Option (Heap β) :=
  (heap node).map fun _ => Function.update heap node none

/-- `hmap_init`. -/
def hmapInit : Hmap := ⟨fun _ => none, 0, 0⟩

/-- `hmap_clear`. -/
def hmapClear (hmap : Hmap) : Hmap :=
  if hmap.n > 0 then
    { hmap with n := 0, buckets := fun i => if i ≤ hmap.mask then none else hmap.buckets i }
  else hmap

/-- `hmap_count`. -/
def hmapCount (hmap : Hmap) : Nat := hmap.n

/-- `hmap_capacity`: the number of nodes from which on the table should be rehashed. -/
def hmapCapacity (hmap : Hmap) : Nat := hmap.mask * 2 + 1

/-- `hmap_is_empty`. -/
def hmapIsEmpty (hmap : Hmap) : Bool := hmap.n == 0

/-! ## Insertion and resizing -/

/-- `hmap_insert_fast`. -/
def hmapInsertFast (heap : Heap β) (hmap : Hmap) (node : Addr) (hash : Nat) :
    Option (Heap β × Hmap) := do
  let bucket := hash &&& hmap.mask
  let heap ← heap.write node fun old => { old with hash, next := hmap.buckets bucket }
  some (heap, { hmap with
    buckets := Function.update hmap.buckets bucket (some node)
    n := hmap.n + 1 })

/-- The inner loop of `resize`: the nodes of one bucket move to `tmp`. -/
def moveBucket : Nat → Heap β → Hmap → Option Addr → Option (Heap β × Hmap)
  | 0, _, _, _ => none
  | _ + 1, heap, tmp, none => some (heap, tmp)
  | fuel + 1, heap, tmp, some node => do
    let cell ← heap node
    let next := cell.next
    let (heap, tmp) ← hmapInsertFast heap tmp node cell.hash
    moveBucket fuel heap tmp next

/-- `IS_POW2`. -/
def isPow2 (x : Nat) : Bool := x != 0 && x &&& (x - 1) == 0

/-- `sizeof *tmp.buckets`. -/
def BUCKET_SIZE : Nat := 8

/-- `resize`, with the table `hmap_swap` leaves in `hmap`. -/
def resize (heap : Heap β) (hmap : Hmap) (newMask : Nat) : Option (Heap β × Hmap) :=
  if isPow2 (newMask + 1) then
    if newMask ≠ 0 ∧ BUCKET_SIZE * (newMask + 1) % 2 ^ 64 < BUCKET_SIZE * (newMask + 1) then
      none -- the product wraps, and the buckets are set to NULL behind the block
    else
      (List.range (hmap.mask + 1)).foldlM
        (fun (heap, tmp) i => moveBucket ROUNDS heap tmp (hmap.buckets i))
        (heap, { hmapInit with mask := newMask })
  else none -- bull_assert

/-- `calc_mask`. -/
def calcMask (capacity : Nat) : Nat :=
  let mask := capacity / 2
  let mask := mask ||| mask >>> 1
  let mask := mask ||| mask >>> 2
  let mask := mask ||| mask >>> 4
  let mask := mask ||| mask >>> 8
  let mask := mask ||| mask >>> 16
  let mask := mask ||| mask >>> 32
  mask ||| (mask &&& 1) <<< 1

/-- `hmap_reserve_at`. -/
def hmapReserve (heap : Heap β) (hmap : Hmap) (n : Nat) : Option (Heap β × Hmap) :=
  let newMask := calcMask n
  if newMask > hmap.mask then resize heap hmap newMask else some (heap, hmap)

/-- `hmap_expand_at`. -/
def hmapExpand (heap : Heap β) (hmap : Hmap) : Option (Heap β × Hmap) :=
  let newMask := calcMask hmap.n
  if newMask > hmap.mask then resize heap hmap newMask else some (heap, hmap)

/-- `hmap_shrink_at`. -/
def hmapShrink (heap : Heap β) (hmap : Hmap) : Option (Heap β × Hmap) :=
  let newMask := calcMask hmap.n
  if newMask < hmap.mask then resize heap hmap newMask else some (heap, hmap)

/-- `hmap_insert_at`. -/
def hmapInsert (heap : Heap β) (hmap : Hmap) (node : Addr) (hash : Nat) :
    Option (Heap β × Hmap) := do
  let (heap, hmap) ← hmapInsertFast heap hmap node hash
  if hmap.n / 2 > hmap.mask then hmapExpand heap hmap else some (heap, hmap)

/-! ## Removal -/

/-- A `struct hmap_node **`: a bucket, or the `next` of a node. -/
inductive Slot
  | bucket (i : Nat)
  | next (node : Addr)

/-- `*bucket`. -/
def readSlot (heap : Heap β) (hmap : Hmap) : Slot → Option (Option Addr)
  | .bucket i => some (hmap.buckets i)
  | .next node => (heap node).map (·.next)

/-- `*bucket = p`. -/
def writeSlot (heap : Heap β) (hmap : Hmap) (p : Option Addr) : Slot → Option (Heap β × Hmap)
  | .bucket i => some (heap, { hmap with buckets := Function.update hmap.buckets i p })
  | .next node => (heap.write node ({ · with next := p })).map (·, hmap)

/-- `while (*bucket != node)`. -/
def seekSlot (heap : Heap β) (hmap : Hmap) (node : Addr) : Nat → Slot → Option Slot
  | 0, _ => none
  | fuel + 1, slot => do
    match ← readSlot heap hmap slot with
    | none => none
    | some other => if other = node then some slot else seekSlot heap hmap node fuel (.next other)

/-- `hmap_remove`. -/
def hmapRemove (heap : Heap β) (hmap : Hmap) (node : Addr) : Option (Heap β × Hmap) := do
  let cell ← heap node
  let slot ← seekSlot heap hmap node ROUNDS (.bucket (cell.hash &&& hmap.mask))
  let (heap, hmap) ← writeSlot heap hmap cell.next slot
  some (heap, { hmap with n := hmap.n - 1 })

/-! ## Search and iteration -/

/-- `hmap_next_with_hash__`. -/
def hmapNextWithHashFrom (heap : Heap β) (hash : Nat) : Nat → Option Addr → Option (Option Addr)
  | 0, _ => none
  | _ + 1, none => some none
  | fuel + 1, some node => do
    let cell ← heap node
    if cell.hash ≠ hash then hmapNextWithHashFrom heap hash fuel cell.next else some (some node)

/-- `hmap_first_with_hash`. -/
def hmapFirstWithHash (heap : Heap β) (hmap : Hmap) (hash : Nat) : Option (Option Addr) :=
  hmapNextWithHashFrom heap hash ROUNDS (hmap.buckets (hash &&& hmap.mask))

/-- `hmap_next_with_hash`. -/
def hmapNextWithHash (heap : Heap β) (node : Addr) : Option (Option Addr) := do
  let cell ← heap node
  hmapNextWithHashFrom heap cell.hash ROUNDS cell.next

/-- The loop of `hmap_next__`, for that many buckets from `i` on. -/
def firstFrom (hmap : Hmap) : Nat → Nat → Option Addr
  | 0, _ => none
  | rounds + 1, i =>
    match hmap.buckets i with
    | some node => some node
    | none => firstFrom hmap rounds (i + 1)

/-- `hmap_next__`. -/
def hmapNextFrom (hmap : Hmap) (start : Nat) : Option Addr :=
  firstFrom hmap (hmap.mask + 1 - start) start

/-- `hmap_first`. -/
def hmapFirst (hmap : Hmap) : Option Addr := hmapNextFrom hmap 0

/-- `hmap_next`. -/
def hmapNext (heap : Heap β) (hmap : Hmap) (node : Addr) : Option (Option Addr) := do
  let cell ← heap node
  match cell.next with
  | some next => some (some next)
  | none => some (hmapNextFrom hmap ((cell.hash &&& hmap.mask) + 1))

/-- The nodes that `HMAP_FOR_EACH` visits from `p` on, with a body that changes none of them. -/
def forEachFrom (heap : Heap β) (hmap : Hmap) : Nat → Option Addr → Option (List Addr)
  | 0, _ => none
  | _ + 1, none => some []
  | fuel + 1, some node => do
    let next ← hmapNext heap hmap node
    let nodes ← forEachFrom heap hmap fuel next
    some (node :: nodes)

/-- `HMAP_FOR_EACH`. -/
def hmapForEach (heap : Heap β) (hmap : Hmap) : Option (List Addr) :=
  forEachFrom heap hmap ROUNDS (hmapFirst hmap)

end LogCollector.HashTable
