import LogCollector.Ring.Machine
import LogCollector.Lib.Reservations

/-!
# The invariant of a ring

Objects are numbered in the order in which slots were reserved for them, and
position `p` lives in the slot of `base + p`. The four counters are positions,

    released ≤ claimed ≤ published ≤ reserved ≤ released + capacity,

and they cut a window of one table into regions: what consumers are reading,
what is ready, what producers are filling, what is free. Reservations tile the
two regions in progress (`Lib.Tiled`). Each region says what its cells hold
(`Cell`), and each step moves one boundary or one cell.

The invariant is kept by serialised steps: a head store that finds no other
head store since the load reserves exactly the positions the counters say are
free, and tails stored in order publish positions that are all filled.
-/

namespace LogCollector

variable {P C α : Type*}

/-- A position: the object reserved for it, what its slot holds, and whether
that was written and not yet read. -/
structure Cell (α : Type*) where
  obj : Option α
  slot : α
  live : Bool

/-- The slot holds the position's object, unread. -/
def Cell.Ready (c : Cell α) : Prop := c.obj = some c.slot ∧ c.live = true

/-- The slot holds the position's object, which was read. -/
def Cell.Read (c : Cell α) : Prop := c.obj = some c.slot ∧ c.live = false

namespace RingState

/-- The cell of a position. -/
def cell (base : Nat) (s : RingState P C α) (p : Nat) : Cell α where
  obj := s.reserved[p]?
  slot := s.ring.slots (s.ring.shape.slot (base + p))
  live := s.live (s.ring.shape.slot (base + p))

end RingState

/-- The reservation a producer holds. -/
def Enqueue.hold : Enqueue α → Option (Nat × Nat)
  | .copying _ n _ _ _ start => some (start, n.toNat)
  | _ => none

/-- The reservation a consumer holds. -/
def Dequeue.hold : Dequeue α → Option (Nat × Nat)
  | .copying _ n _ _ _ start => some (start, n.toNat)
  | _ => none

/-- Of the `n` positions from `start`, the first `done` have been copied, and
`pending` are the copies that are left. -/
structure Copied (base : Nat) (shape : RingShape) (n start : Nat) (pending : List SlotCopy)
    (done : Nat) : Prop where
  le : done ≤ n
  pending_eq : pending = (positionCopies shape (base + start) n).drop done

/-- What holds of a producer between its steps. -/
def ProducerOk (base : Nat) (s : RingState P C α) : Enqueue α → Prop
  | .idle | .entered .. => True
  | .loadedHead _ _ _ oldHead seen => seen ≤ s.reserved.length ∧
      (seen = s.reserved.length → oldHead = UInt32.ofNat (base + s.reserved.length))
  | .reserving _ n _ oldHead seen => 0 < n.toNat ∧ seen ≤ s.reserved.length ∧
      (seen = s.reserved.length → oldHead = UInt32.ofNat (base + s.reserved.length) ∧
        s.reserved.length + n.toNat ≤ s.released + s.ring.shape.capacity.toNat)
  | .copying objTable n _ newHead pending start =>
      newHead = UInt32.ofNat (base + (start + n.toNat)) ∧
      ∃ done, Copied base s.ring.shape n.toNat start pending done ∧ ∀ j < n.toNat,
        (s.cell base (start + j)).obj = some (objTable (UInt32.ofNat j)) ∧
        if j < done then (s.cell base (start + j)).Ready else (s.cell base (start + j)).live = false

/-- What holds of a consumer between its steps. -/
def ConsumerOk (base : Nat) (s : RingState P C α) : Dequeue α → Prop
  | .idle | .entered .. => True
  | .loadedHead _ _ _ oldHead seen => seen ≤ s.claimed ∧
      (seen = s.claimed → oldHead = UInt32.ofNat (base + s.claimed))
  | .reserving _ n _ oldHead seen => 0 < n.toNat ∧ seen ≤ s.claimed ∧
      (seen = s.claimed → oldHead = UInt32.ofNat (base + s.claimed) ∧
        s.claimed + n.toNat ≤ s.published)
  | .copying objTable n _ newHead pending start =>
      newHead = UInt32.ofNat (base + (start + n.toNat)) ∧
      ∃ done, Copied base s.ring.shape n.toNat start pending done ∧ ∀ j < n.toNat,
        if j < done then (s.cell base (start + j)).Read ∧
          (s.cell base (start + j)).obj = some (objTable (UInt32.ofNat j))
        else (s.cell base (start + j)).Ready

/-- THE RING INVARIANT, for a ring whose position `0` has counter `base`. -/
structure RingInvariant (base : Nat) (s : RingState P C α) : Prop where
  prodHead : s.ring.prod.head = UInt32.ofNat (base + s.reserved.length)
  prodTail : s.ring.prod.tail = UInt32.ofNat (base + s.published)
  consHead : s.ring.cons.head = UInt32.ofNat (base + s.claimed)
  consTail : s.ring.cons.tail = UInt32.ofNat (base + s.released)
  filling : Lib.Tiled (fun t => (s.producers t).hold) s.published s.reserved.length
  reading : Lib.Tiled (fun t => (s.consumers t).hold) s.released s.claimed
  claimed_le : s.claimed ≤ s.published
  room : s.reserved.length ≤ s.released + s.ring.shape.capacity.toNat
  enqueued : s.enqueued = s.reserved.take s.published
  dequeued : s.dequeued = s.reserved.take s.released
  producer : ∀ t, ProducerOk base s (s.producers t)
  consumer : ∀ t, ConsumerOk base s (s.consumers t)
  ready : ∀ p, s.claimed ≤ p → p < s.published → (s.cell base p).Ready
  free : ∀ p, s.reserved.length ≤ p → p < s.released + 2 ^ s.ring.shape.bits →
    (s.cell base p).live = false

namespace RingInvariant

variable {base : Nat} {s : RingState P C α}

/-- The counters are in order and span less than a table. -/
theorem order (h : RingInvariant base s) : s.released ≤ s.claimed ∧ s.claimed ≤ s.published ∧
    s.published ≤ s.reserved.length ∧
    s.reserved.length ≤ s.released + s.ring.shape.capacity.toNat ∧
    s.released + s.ring.shape.capacity.toNat < s.released + 2 ^ s.ring.shape.bits := by
  have := s.ring.shape.capacity_le
  have := Nat.two_pow_pos s.ring.shape.bits
  exact ⟨h.reading.le, h.claimed_le, h.filling.le, h.room, by omega⟩

/-- Two positions of the window have different slots. -/
theorem slot_ne (_ : RingInvariant base s) {p q : Nat} (hp : s.released ≤ p)
    (hp' : p < s.released + 2 ^ s.ring.shape.bits) (hq : s.released ≤ q)
    (hq' : q < s.released + 2 ^ s.ring.shape.bits) (hne : q ≠ p) :
    s.ring.shape.slot (base + q) ≠ s.ring.shape.slot (base + p) := by
  intro heq
  have := s.ring.shape.slot_injective heq (by omega) (by omega)
  omega

/-- A store to the slot of a position that a thread holds: the others that are ready or
free stay so. -/
theorem elsewhere (h : RingInvariant base s) {cell : Nat → Cell α} {held : Nat}
    (hcell : ∀ p, s.released ≤ p → p < s.released + 2 ^ s.ring.shape.bits → p ≠ held →
      cell p = s.cell base p)
    (hheld : held < s.claimed ∨ s.published ≤ held) (hreserved : held < s.reserved.length) :
    (∀ p, s.claimed ≤ p → p < s.published → (cell p).Ready) ∧
      ∀ p, s.reserved.length ≤ p → p < s.released + 2 ^ s.ring.shape.bits →
        (cell p).live = false := by
  have horder := h.order
  constructor
  · intro p hp hp'
    rw [hcell p (by omega) (by omega) (by omega)]
    exact h.ready p hp hp'
  · intro p hp hp'
    rw [hcell p (by omega) hp' (by omega)]
    exact h.free p hp hp'

/-- What a producer that fills positions holds. -/
theorem inside_filling (h : RingInvariant base s) {t : P} {objTable : UInt32 → α}
    {n free newHead : UInt32} {pending : List SlotCopy} {start : Nat}
    (ht : s.producers t = .copying objTable n free newHead pending start) :
    0 < n.toNat ∧ s.published ≤ start ∧ start + n.toNat ≤ s.reserved.length :=
  h.filling.inside (t := t) (by rw [ht]; rfl)

theorem inside_reading (h : RingInvariant base s) {t : C} {objTable : UInt32 → α}
    {n entries newHead : UInt32} {pending : List SlotCopy} {start : Nat}
    (ht : s.consumers t = .copying objTable n entries newHead pending start) :
    0 < n.toNat ∧ s.released ≤ start ∧ start + n.toNat ≤ s.claimed :=
  h.reading.inside (t := t) (by rw [ht]; rfl)

end RingInvariant

/-- The positions a producer fills keep their cells: what holds of it is kept,
as long as heads and tails only grow. -/
theorem ProducerOk.frame {base : Nat} {s s' : RingState P C α} {pc : Enqueue α}
    (h : ProducerOk base s pc) (hshape : s'.ring.shape = s.ring.shape)
    (hlen : s.reserved.length < s'.reserved.length ∨ s'.reserved = s.reserved)
    (hrel : s.released ≤ s'.released)
    (hcell : ∀ a n, pc.hold = some (a, n) → ∀ p, a ≤ p → p < a + n →
      s'.cell base p = s.cell base p) :
    ProducerOk base s' pc := by
  cases pc with
  | idle => trivial
  | entered objTable n behavior => trivial
  | loadedHead objTable n behavior oldHead seen =>
    obtain ⟨hseen, hold⟩ := h
    rcases hlen with hlt | heq
    · exact ⟨by omega, fun heq => by omega⟩
    · rw [ProducerOk, heq]
      exact ⟨hseen, hold⟩
  | reserving objTable n free oldHead seen =>
    obtain ⟨hpos, hseen, hold⟩ := h
    rcases hlen with hlt | heq
    · exact ⟨hpos, by omega, fun heq => by omega⟩
    · rw [ProducerOk, heq, hshape]
      refine ⟨hpos, hseen, fun heq => ⟨(hold heq).1, ?_⟩⟩
      have := (hold heq).2
      omega
  | copying objTable n free newHead pending start =>
    obtain ⟨hnew, done, hcopied, hcells⟩ := h
    refine ⟨hnew, done, hshape ▸ hcopied, ?_⟩
    intro j hj
    rw [hcell start n.toNat rfl (start + j) (by omega) (by omega)]
    exact hcells j hj

/-- The same of a consumer. -/
theorem ConsumerOk.frame {base : Nat} {s s' : RingState P C α} {pc : Dequeue α}
    (h : ConsumerOk base s pc) (hshape : s'.ring.shape = s.ring.shape)
    (hclaim : s.claimed < s'.claimed ∨ s'.claimed = s.claimed)
    (hpub : s.published ≤ s'.published)
    (hcell : ∀ a n, pc.hold = some (a, n) → ∀ p, a ≤ p → p < a + n →
      s'.cell base p = s.cell base p) :
    ConsumerOk base s' pc := by
  cases pc with
  | idle => trivial
  | entered objTable n behavior => trivial
  | loadedHead objTable n behavior oldHead seen =>
    obtain ⟨hseen, hold⟩ := h
    rcases hclaim with hlt | heq
    · exact ⟨by omega, fun heq => by omega⟩
    · rw [ConsumerOk, heq]
      exact ⟨hseen, hold⟩
  | reserving objTable n entries oldHead seen =>
    obtain ⟨hpos, hseen, hold⟩ := h
    rcases hclaim with hlt | heq
    · exact ⟨hpos, by omega, fun heq => by omega⟩
    · rw [ConsumerOk, heq]
      refine ⟨hpos, hseen, fun heq => ⟨(hold heq).1, ?_⟩⟩
      have := (hold heq).2
      omega
  | copying objTable n entries newHead pending start =>
    obtain ⟨hnew, done, hcopied, hcells⟩ := h
    refine ⟨hnew, done, hshape ▸ hcopied, ?_⟩
    intro j hj
    rw [hcell start n.toNat rfl (start + j) (by omega) (by omega)]
    exact hcells j hj

/-! ## Settling how many objects to move -/

/-- Never more than there is room for. -/
theorem settle_le (n room : UInt32) (behavior : RingQueueBehavior) :
    (settle n room behavior).toNat ≤ room.toNat := by
  cases behavior <;> simp only [settle] <;> split
  · exact Nat.zero_le _
  · next h => exact UInt32.le_iff_toNat_le.mp (UInt32.not_lt.mp h)
  · exact Nat.le_refl _
  · next h => exact UInt32.le_iff_toNat_le.mp (UInt32.not_lt.mp h)

theorem toNat_pos {n : UInt32} (h : n ≠ 0) : 0 < n.toNat :=
  Nat.pos_of_ne_zero fun h0 => h (UInt32.toNat.inj h0)

theorem length_objects (objTable : UInt32 → α) (n : UInt32) :
    (objects objTable n).length = n.toNat := by
  rw [objects, List.length_map, List.length_range]

theorem getElem?_objects (objTable : UInt32 → α) {n : UInt32} {j : Nat} (h : j < n.toNat) :
    (objects objTable n)[j]? = some (objTable (UInt32.ofNat j)) := by
  rw [objects, List.getElem?_map, List.getElem?_range h, Option.map_some]

namespace RingInvariant

variable {base : Nat} {s : RingState P C α}

/-- The free entries a producer computes from the current head and tail. -/
theorem toNat_freeEntries (h : RingInvariant base s) :
    (freeEntries s.ring.shape.capacity s.ring.cons.tail s.ring.prod.head).toNat =
      s.released + s.ring.shape.capacity.toNat - s.reserved.length := by
  have horder := h.order
  have hlt := s.ring.shape.two_pow_le
  have hcap := s.ring.shape.capacity_le
  rw [freeEntries, h.consTail, h.prodHead]
  conv_lhs => rw [← UInt32.ofNat_toNat (x := s.ring.shape.capacity)]
  rw [← Lib.Counter.ofNat_add, Lib.Counter.toNat_sub] <;> omega

/-- The entries a consumer computes from the current head and tail. -/
theorem toNat_entries (h : RingInvariant base s) :
    (entries s.ring.prod.tail s.ring.cons.head).toNat = s.published - s.claimed := by
  have horder := h.order
  have hlt := s.ring.shape.two_pow_le
  have hcap := s.ring.shape.capacity_le
  rw [entries, h.prodTail, h.consHead, Lib.Counter.toNat_sub] <;> omega

end RingInvariant

/-- A reservation of `n` positions at `p`, as the machine computes it. -/
theorem ofNat_add_self (p : Nat) (n : UInt32) :
    UInt32.ofNat p + n = UInt32.ofNat (p + n.toNat) := by
  rw [Lib.Counter.ofNat_add, UInt32.ofNat_toNat]

theorem copyPtrs_eq_positionCopies {shape : RingShape} {p : Nat} {n : UInt32}
    {pending : List SlotCopy} (hn : n.toNat < 2 ^ shape.bits)
    (h : copyPtrs shape (UInt32.ofNat p) n = some pending) :
    pending = positionCopies shape p n.toNat := by
  have := copyPtrs_eq shape p hn
  rw [UInt32.ofNat_toNat, h] at this
  exact Option.some.inj this

/-- The next copy of a reservation is that of its first position not done. -/
theorem Copied.next {base : Nat} {shape : RingShape} {n start done : Nat} {copy : SlotCopy}
    {pending : List SlotCopy} (h : Copied base shape n start (copy :: pending) done) :
    done < n ∧ copy = ⟨shape.slot (base + (start + done)), UInt32.ofNat done⟩ ∧
      Copied base shape n start pending (done + 1) := by
  have hlen : (positionCopies shape (base + start) n).length = n := by
    rw [positionCopies, List.length_map, List.length_range]
  have hlt : done < n := by
    by_contra hnot
    have := h.pending_eq
    rw [List.drop_eq_nil_of_le (by omega)] at this
    cases this
  have hget := h.pending_eq
  rw [List.drop_eq_getElem_cons (by omega)] at hget
  obtain ⟨rfl, rfl⟩ := List.cons.inj hget
  refine ⟨hlt, ?_, hlt, rfl⟩
  simp only [positionCopies, List.getElem_map, List.getElem_range, Nat.add_assoc]

/-- A reservation with nothing left to copy is done. -/
theorem Copied.done_eq {base : Nat} {shape : RingShape} {n start done : Nat}
    (h : Copied base shape n start [] done) : done = n := by
  have hlen : (positionCopies shape (base + start) n).length = n := by
    rw [positionCopies, List.length_map, List.length_range]
  have := List.drop_eq_nil_iff.mp h.pending_eq.symm
  have := h.le
  omega

/-- What holds of every producer after one of them moved. -/
theorem forall_update_producer [DecidableEq P] {base : Nat} {s : RingState P C α}
    {producers : P → Enqueue α} {t : P} {pc : Enqueue α} (hpc : ProducerOk base s pc)
    (hothers : ∀ u, u ≠ t → ProducerOk base s (producers u)) (u : P) :
    ProducerOk base s (Function.update producers t pc u) := by
  rcases eq_or_ne u t with rfl | hne
  · rwa [Function.update_self]
  · rw [Function.update_of_ne hne]
    exact hothers u hne

theorem forall_update_consumer [DecidableEq C] {base : Nat} {s : RingState P C α}
    {consumers : C → Dequeue α} {t : C} {pc : Dequeue α} (hpc : ConsumerOk base s pc)
    (hothers : ∀ u, u ≠ t → ConsumerOk base s (consumers u)) (u : C) :
    ConsumerOk base s (Function.update consumers t pc u) := by
  rcases eq_or_ne u t with rfl | hne
  · rwa [Function.update_self]
  · rw [Function.update_of_ne hne]
    exact hothers u hne

theorem hold_update_producer [DecidableEq P] (producers : P → Enqueue α) (t : P)
    (pc : Enqueue α) : (fun u => (Function.update producers t pc u).hold) =
      Function.update (fun u => (producers u).hold) t pc.hold :=
  Function.comp_update Enqueue.hold producers t pc

theorem hold_update_consumer [DecidableEq C] (consumers : C → Dequeue α) (t : C)
    (pc : Dequeue α) : (fun u => (Function.update consumers t pc u).hold) =
      Function.update (fun u => (consumers u).hold) t pc.hold :=
  Function.comp_update Dequeue.hold consumers t pc

/-- The log of returned calls is no part of the invariant. -/
theorem RingInvariant.setReturns {base : Nat} {s : RingState P C α} (h : RingInvariant base s)
    (returns : List (RingReturn P C)) : RingInvariant base { s with returns } :=
  { h with }

/-! ## The steps of a producer -/

section Producer

variable [DecidableEq P]

namespace RingInvariant

variable {base : Nat} {s : RingState P C α}

/-- A producer that neither stores nor copies. -/
theorem setProducer (h : RingInvariant base s) {t : P} {pc : Enqueue α}
    (hold : (s.producers t).hold = pc.hold) (hpc : ProducerOk base s pc) :
    RingInvariant base (s.setProducer t pc) :=
  { h with
    filling := by
      have := h.filling
      simp only [RingState.setProducer, hold_update_producer, ← hold]
      rwa [Function.update_eq_self_iff.mpr rfl]
    producer := forall_update_producer hpc fun u _ => h.producer u }

/-- A producer stores the head it computed from an unchanged head: it reserves
the next positions, which are free. -/
theorem storeProdHead (h : RingInvariant base s) {t : P} {objTable : UInt32 → α}
    {n free oldHead : UInt32} {pending : List SlotCopy}
    (ht : s.producers t = .reserving objTable n free oldHead s.reserved.length)
    (hpending : copyPtrs s.ring.shape oldHead n = some pending) :
    RingInvariant base (s.storeProdHead t objTable n free (oldHead + n) pending) := by
  obtain ⟨hpos, -, hnow⟩ :
      ProducerOk base s (.reserving objTable n free oldHead s.reserved.length) :=
    ht ▸ h.producer t
  obtain ⟨rfl, hroom⟩ := hnow rfl
  have horder := h.order
  have hnew := ofNat_add_self (base + s.reserved.length) n
  rw [Nat.add_assoc] at hnew
  obtain rfl := copyPtrs_eq_positionCopies (by omega) hpending
  set s' := s.storeProdHead t objTable n free (UInt32.ofNat (base + s.reserved.length) + n)
    (positionCopies s.ring.shape (base + s.reserved.length) n.toNat) with hs'
  have hlen : s'.reserved.length = s.reserved.length + n.toNat := by
    rw [hs', RingState.storeProdHead, List.length_append, length_objects]
  have hcell : ∀ p < s.reserved.length, s'.cell base p = s.cell base p := by
    intro p hp
    simp only [hs', RingState.storeProdHead, RingState.cell, List.getElem?_append_left hp]
    rfl
  have hlive : ∀ p, (s'.cell base p).live = (s.cell base p).live := fun _ => rfl
  exact {
    prodHead := by rw [hlen]; exact hnew
    prodTail := h.prodTail
    consHead := h.consHead
    consTail := h.consTail
    filling := by
      rw [hlen]
      have := h.filling.reserve (t := t) hpos (by rw [ht]; rfl)
      simpa only [hs', RingState.storeProdHead, RingState.setProducer, hold_update_producer]
    reading := h.reading
    claimed_le := h.claimed_le
    room := by rw [hlen]; exact hroom
    enqueued := by
      change s.enqueued = (s.reserved ++ objects objTable n).take s.published
      rw [List.take_append_of_le_length horder.2.2.1, h.enqueued]
    dequeued := by
      change s.dequeued = (s.reserved ++ objects objTable n).take s.released
      rw [List.take_append_of_le_length (by omega), h.dequeued]
    producer := forall_update_producer
      ⟨hnew, 0, ⟨Nat.zero_le _, rfl⟩, fun j hj => by
        constructor
        · simp only [hs', RingState.storeProdHead, RingState.cell]
          rw [List.getElem?_append_right (by omega), Nat.add_sub_cancel_left,
            getElem?_objects objTable hj]
        · rw [if_neg (Nat.not_lt_zero j), hlive]
          exact h.free _ (by omega) (by omega)⟩
      fun u hu => (h.producer u).frame rfl (.inl (by omega)) (Nat.le_refl _)
        fun a m hold p ha hp => by
          have := h.filling.inside (t := u) hold
          exact hcell p (by omega)
    consumer := fun u => (h.consumer u).frame rfl (.inr rfl) (Nat.le_refl _)
      fun a m hold p ha hp => by
        have := h.reading.inside (t := u) hold
        exact hcell p (by omega)
    ready := by
      intro p hp hp'
      have hp'' : p < s.published := hp'
      rw [hcell p (by omega)]
      exact h.ready p hp hp'
    free := by
      intro p hp hp'
      rw [hlive]
      exact h.free p (by omega) hp' }

/-- A producer copies an object into the slot of a position it reserved. -/
theorem writeSlot (h : RingInvariant base s) {t : P} {objTable : UInt32 → α}
    {n free newHead : UInt32} {copy : SlotCopy} {pending : List SlotCopy} {start : Nat}
    (ht : s.producers t = .copying objTable n free newHead (copy :: pending) start) :
    RingInvariant base (s.writeSlot t objTable n free newHead copy pending start) := by
  obtain ⟨hnew, done, hcopied, hcells⟩ :
      ProducerOk base s (.copying objTable n free newHead (copy :: pending) start) :=
    ht ▸ h.producer t
  obtain ⟨hdone, rfl, hcopied'⟩ := hcopied.next
  obtain ⟨-, hstart, hend⟩ := h.inside_filling ht
  have horder := h.order
  set slot := s.ring.shape.slot (base + (start + done)) with hslot
  set s' := s.writeSlot t objTable n free newHead ⟨slot, UInt32.ofNat done⟩ pending start with hs'
  have hwritten : s'.cell base (start + done) =
      ⟨(s.cell base (start + done)).obj, objTable (UInt32.ofNat done), true⟩ := by
    simp only [hs', RingState.writeSlot, RingState.cell, ← hslot, Function.update_self]
    rfl
  have hcell : ∀ p, s.released ≤ p → p < s.released + 2 ^ s.ring.shape.bits → p ≠ start + done →
      s'.cell base p = s.cell base p := by
    intro p hp hp' hne
    have := h.slot_ne (p := start + done) (by omega) (by omega) hp hp' hne
    simp only [hs', RingState.writeSlot, RingState.cell, hslot, Function.update_of_ne this]
    rfl
  obtain ⟨hready, hfree⟩ := h.elsewhere hcell (.inr (by omega)) (by omega)
  exact {
    prodHead := h.prodHead
    prodTail := h.prodTail
    consHead := h.consHead
    consTail := h.consTail
    filling := by
      have := h.filling
      simp only [hs', RingState.writeSlot, RingState.setProducer, hold_update_producer]
      rwa [Function.update_eq_self_iff.mpr]
      rw [ht]
      rfl
    reading := h.reading
    claimed_le := h.claimed_le
    room := h.room
    enqueued := h.enqueued
    dequeued := h.dequeued
    producer := forall_update_producer
      ⟨hnew, done + 1, hcopied', fun j hj => by
        obtain ⟨hobj, hstate⟩ := hcells j hj
        rcases eq_or_ne j done with rfl | hne
        · rw [hwritten, if_pos (Nat.lt_succ_self j)]
          exact ⟨hobj, hobj, rfl⟩
        · rw [hcell _ (by omega) (by omega) (by omega)]
          refine ⟨hobj, ?_⟩
          split at hstate
          · rwa [if_pos (by omega)]
          · rwa [if_neg (by omega)]⟩
      fun u hu => (h.producer u).frame rfl (.inr rfl) (Nat.le_refl _) fun a m hold p ha hp => by
        have hin := h.filling.inside (t := u) hold
        have := h.filling.apart (t := t) (u := u) (by rw [ht]; rfl) hold hu.symm
        exact hcell p (by omega) (by omega) (by omega)
    consumer := fun u => (h.consumer u).frame rfl (.inr rfl) (Nat.le_refl _)
      fun a m hold p ha hp => by
        have := h.reading.inside (t := u) hold
        exact hcell p (by omega) (by omega) (by omega)
    ready := hready
    free := hfree }

/-- A producer whose reservation is the earliest stores its tail: it publishes
positions that are all filled. -/
theorem storeProdTail (h : RingInvariant base s) {t : P} {objTable : UInt32 → α}
    {n free newHead : UInt32}
    (ht : s.producers t = .copying objTable n free newHead [] s.published) :
    RingInvariant base (s.storeProdTail t objTable n free newHead) := by
  obtain ⟨rfl, done, hcopied, hcells⟩ :
      ProducerOk base s (.copying objTable n free newHead [] s.published) := ht ▸ h.producer t
  obtain rfl := hcopied.done_eq
  obtain ⟨-, -, hend⟩ := h.inside_filling ht
  set s' :=
    s.storeProdTail t objTable n free (UInt32.ofNat (base + (s.published + n.toNat))) with hs'
  have hcell : ∀ p, s'.cell base p = s.cell base p := fun _ => rfl
  have hobjects : objects objTable n = (s.reserved.drop s.published).take n.toNat := by
    refine List.ext_getElem? ?_
    intro j
    by_cases hj : j < n.toNat
    · rw [getElem?_objects objTable hj, List.getElem?_take_of_lt hj, List.getElem?_drop]
      exact (hcells j hj).1.symm
    · rw [List.getElem?_eq_none (by rw [length_objects]; omega),
        List.getElem?_eq_none (by rw [List.length_take]; omega)]
  exact {
    prodHead := h.prodHead
    prodTail := rfl
    consHead := h.consHead
    consTail := h.consTail
    filling := by
      have := h.filling.release (t := t) (n := n.toNat) (by rw [ht]; rfl)
      simpa only [hs', RingState.storeProdTail, RingState.setProducer, hold_update_producer]
    reading := h.reading
    claimed_le := by
      change s.claimed ≤ s.published + n.toNat
      have := h.claimed_le
      omega
    room := h.room
    enqueued := by
      change s.enqueued ++ objects objTable n = s.reserved.take (s.published + n.toNat)
      rw [h.enqueued, hobjects, List.take_add]
    dequeued := h.dequeued
    producer := forall_update_producer trivial fun u hu =>
      (h.producer u).frame rfl (.inr rfl) (Nat.le_refl _) fun a m hold p ha hp => rfl
    consumer := fun u => (h.consumer u).frame rfl (.inr rfl) (Nat.le_add_right _ _)
      fun a m hold p ha hp => rfl
    ready := by
      intro p hp hp'
      rw [hcell]
      by_cases hlt : p < s.published
      · exact h.ready p hp hlt
      · have hp₂ : p < s.published + n.toNat := hp'
        have := (hcells (p - s.published) (by omega)).2
        rwa [if_pos (by omega), Nat.add_sub_cancel' (by omega)] at this
    free := h.free }

end RingInvariant

end Producer

/-! ## The steps of a consumer -/

section Consumer

variable [DecidableEq C]

namespace RingInvariant

variable {base : Nat} {s : RingState P C α}

/-- A consumer that neither stores nor copies. -/
theorem setConsumer (h : RingInvariant base s) {t : C} {pc : Dequeue α}
    (hold : (s.consumers t).hold = pc.hold) (hpc : ConsumerOk base s pc) :
    RingInvariant base (s.setConsumer t pc) :=
  { h with
    reading := by
      have := h.reading
      simp only [RingState.setConsumer, hold_update_consumer, ← hold]
      rwa [Function.update_eq_self_iff.mpr rfl]
    consumer := forall_update_consumer hpc fun u _ => h.consumer u }

/-- A consumer stores the head it computed from an unchanged head: it claims
the next positions, which are ready. -/
theorem storeConsHead (h : RingInvariant base s) {t : C} {objTable : UInt32 → α}
    {n entries oldHead : UInt32} {pending : List SlotCopy}
    (ht : s.consumers t = .reserving objTable n entries oldHead s.claimed)
    (hpending : copyPtrs s.ring.shape oldHead n = some pending) :
    RingInvariant base (s.storeConsHead t objTable n entries (oldHead + n) pending) := by
  obtain ⟨hpos, -, hnow⟩ : ConsumerOk base s (.reserving objTable n entries oldHead s.claimed) :=
    ht ▸ h.consumer t
  obtain ⟨rfl, hroom⟩ := hnow rfl
  have horder := h.order
  have hnew := ofNat_add_self (base + s.claimed) n
  rw [Nat.add_assoc] at hnew
  obtain rfl := copyPtrs_eq_positionCopies (by omega) hpending
  set s' := s.storeConsHead t objTable n entries (UInt32.ofNat (base + s.claimed) + n)
    (positionCopies s.ring.shape (base + s.claimed) n.toNat) with hs'
  have hcell : ∀ p, s'.cell base p = s.cell base p := fun _ => rfl
  exact {
    prodHead := h.prodHead
    prodTail := h.prodTail
    consHead := hnew
    consTail := h.consTail
    filling := h.filling
    reading := by
      have := h.reading.reserve (t := t) hpos (by rw [ht]; rfl)
      simpa only [hs', RingState.storeConsHead, RingState.setConsumer, hold_update_consumer]
    claimed_le := hroom
    room := h.room
    enqueued := h.enqueued
    dequeued := h.dequeued
    producer := fun u => (h.producer u).frame rfl (.inr rfl) (Nat.le_refl _)
      fun a m hold p ha hp => rfl
    consumer := forall_update_consumer
      ⟨hnew, 0, ⟨Nat.zero_le _, rfl⟩, fun j hj => by
        rw [if_neg (Nat.not_lt_zero j), hcell]
        exact h.ready _ (by omega) (by omega)⟩
      fun u hu => (h.consumer u).frame rfl (.inl (Nat.lt_add_of_pos_right hpos)) (Nat.le_refl _)
        fun a m hold p ha hp => rfl
    ready := fun p hp hp' => h.ready p (by
      have : s.claimed + n.toNat ≤ p := hp
      omega) hp'
    free := h.free }

/-- A consumer copies the object out of the slot of a position it claimed. -/
theorem readSlot (h : RingInvariant base s) {t : C} {objTable : UInt32 → α}
    {n entries newHead : UInt32} {copy : SlotCopy} {pending : List SlotCopy} {start : Nat}
    (ht : s.consumers t = .copying objTable n entries newHead (copy :: pending) start) :
    RingInvariant base (s.readSlot t objTable n entries newHead copy pending start) := by
  obtain ⟨hnew, done, hcopied, hcells⟩ :
      ConsumerOk base s (.copying objTable n entries newHead (copy :: pending) start) :=
    ht ▸ h.consumer t
  obtain ⟨hdone, rfl, hcopied'⟩ := hcopied.next
  obtain ⟨-, hstart, hend⟩ := h.inside_reading ht
  have horder := h.order
  set slot := s.ring.shape.slot (base + (start + done)) with hslot
  set s' := s.readSlot t objTable n entries newHead ⟨slot, UInt32.ofNat done⟩ pending start with hs'
  have hread : s'.cell base (start + done) = { s.cell base (start + done) with live := false } := by
    simp only [hs', RingState.readSlot, RingState.setConsumer, RingState.cell, ← hslot,
      Function.update_self]
  have hcell : ∀ p, s.released ≤ p → p < s.released + 2 ^ s.ring.shape.bits → p ≠ start + done →
      s'.cell base p = s.cell base p := by
    intro p hp hp' hne
    have := h.slot_ne (p := start + done) (by omega) (by omega) hp hp' hne
    simp only [hs', RingState.readSlot, RingState.setConsumer, RingState.cell, hslot,
      Function.update_of_ne this]
  obtain ⟨hready, hfree⟩ := h.elsewhere hcell (.inl (by omega)) (by omega)
  exact {
    prodHead := h.prodHead
    prodTail := h.prodTail
    consHead := h.consHead
    consTail := h.consTail
    filling := h.filling
    reading := by
      have := h.reading
      simp only [hs', RingState.readSlot, RingState.setConsumer, hold_update_consumer]
      rwa [Function.update_eq_self_iff.mpr]
      rw [ht]
      rfl
    claimed_le := h.claimed_le
    room := h.room
    enqueued := h.enqueued
    dequeued := h.dequeued
    producer := fun u => (h.producer u).frame rfl (.inr rfl) (Nat.le_refl _)
      fun a m hold p ha hp => by
        have := h.filling.inside (t := u) hold
        exact hcell p (by omega) (by omega) (by omega)
    consumer := forall_update_consumer
      ⟨hnew, done + 1, hcopied', fun j hj => by
        have hstate := hcells j hj
        rcases eq_or_ne j done with rfl | hne
        · rw [if_neg (Nat.lt_irrefl j)] at hstate
          rw [hread, if_pos (Nat.lt_succ_self j), Function.update_self]
          exact ⟨⟨hstate.1, rfl⟩, hstate.1⟩
        · rw [hcell _ (by omega) (by omega) (by omega)]
          split at hstate
          · rw [if_pos (by omega), Function.update_of_ne]
            · exact hstate
            · intro heq
              have hbits := s.ring.shape.two_pow_le
              have hcap := s.ring.shape.capacity_le
              rcases Nat.le_total j done with hle | hle
              · exact hne (Lib.Counter.eq_of_ofNat_eq heq.symm hle (by omega)).symm
              · exact hne (Lib.Counter.eq_of_ofNat_eq heq hle (by omega))
          · rwa [if_neg (by omega)]⟩
      fun u hu => (h.consumer u).frame rfl (.inr rfl) (Nat.le_refl _) fun a m hold p ha hp => by
        have hin := h.reading.inside (t := u) hold
        have := h.reading.apart (t := t) (u := u) (by rw [ht]; rfl) hold hu.symm
        exact hcell p (by omega) (by omega) (by omega)
    ready := hready
    free := hfree }

/-- A consumer whose claim is the earliest stores its tail: it releases
positions that were all read, and the slots they lived in are free again. -/
theorem storeConsTail (h : RingInvariant base s) {t : C} {objTable : UInt32 → α}
    {n entries newHead : UInt32}
    (ht : s.consumers t = .copying objTable n entries newHead [] s.released) :
    RingInvariant base (s.storeConsTail t objTable n entries newHead) := by
  obtain ⟨rfl, done, hcopied, hcells⟩ :
      ConsumerOk base s (.copying objTable n entries newHead [] s.released) := ht ▸ h.consumer t
  obtain rfl := hcopied.done_eq
  obtain ⟨-, -, hend⟩ := h.inside_reading ht
  have horder := h.order
  have hread : ∀ j < n.toNat, (s.cell base (s.released + j)).Read ∧
      (s.cell base (s.released + j)).obj = some (objTable (UInt32.ofNat j)) := by
    intro j hj
    have := hcells j hj
    rwa [if_pos hj] at this
  set s' :=
    s.storeConsTail t objTable n entries (UInt32.ofNat (base + (s.released + n.toNat))) with hs'
  have hobjects : objects objTable n = (s.reserved.drop s.released).take n.toNat := by
    refine List.ext_getElem? ?_
    intro j
    by_cases hj : j < n.toNat
    · rw [getElem?_objects objTable hj, List.getElem?_take_of_lt hj, List.getElem?_drop]
      exact (hread j hj).2.symm
    · rw [List.getElem?_eq_none (by rw [length_objects]; omega),
        List.getElem?_eq_none (by rw [List.length_take]; omega)]
  exact {
    prodHead := h.prodHead
    prodTail := h.prodTail
    consHead := h.consHead
    consTail := rfl
    filling := h.filling
    reading := by
      have := h.reading.release (t := t) (n := n.toNat) (by rw [ht]; rfl)
      simpa only [hs', RingState.storeConsTail, RingState.setConsumer, hold_update_consumer]
    claimed_le := h.claimed_le
    room := by
      change s.reserved.length ≤ s.released + n.toNat + s.ring.shape.capacity.toNat
      omega
    enqueued := h.enqueued
    dequeued := by
      change s.dequeued ++ objects objTable n = s.reserved.take (s.released + n.toNat)
      rw [h.dequeued, hobjects, List.take_add]
    producer := fun u => (h.producer u).frame rfl (.inr rfl) (Nat.le_add_right _ _)
      fun a m hold p ha hp => rfl
    consumer := forall_update_consumer trivial fun u hu =>
      (h.consumer u).frame rfl (.inr rfl) (Nat.le_refl _) fun a m hold p ha hp => rfl
    ready := h.ready
    free := by
      intro p hp hp'
      have hp₁ : s.reserved.length ≤ p := hp
      have hp₂ : p < s.released + n.toNat + 2 ^ s.ring.shape.bits := hp'
      by_cases hlt : p < s.released + 2 ^ s.ring.shape.bits
      · exact h.free p hp hlt
      · -- the slot was that of a position released by this store
        have hwas := (hread (p - 2 ^ s.ring.shape.bits - s.released) (by omega)).1.2
        have hback : base + p =
            base + (s.released + (p - 2 ^ s.ring.shape.bits - s.released)) +
              2 ^ s.ring.shape.bits := by omega
        change s.live (s.ring.shape.slot (base + p)) = false
        rw [hback, s.ring.shape.slot_add_size]
        exact hwas }

end RingInvariant

end Consumer

/-! ## Every serialised step -/

section Steps

variable [DecidableEq P] [DecidableEq C] {base : Nat} {s s' : RingState P C α}

omit [DecidableEq C] in
/-- The next access of a producer keeps the invariant. -/
theorem RingInvariant.stepProducer (h : RingInvariant base s) {t : P}
    (hser : Serialised s (.producer t)) (hstep : s.stepProducer t = some s') :
    RingInvariant base s' := by
  unfold RingState.stepProducer at hstep
  unfold Serialised at hser
  have hok := h.producer t
  cases ht : s.producers t with
  | idle => simp only [ht, reduceCtorEq] at hstep
  | entered objTable n behavior =>
    simp only [ht, Option.some.injEq] at hstep
    subst hstep
    exact h.setProducer (by rw [ht]; rfl) ⟨Nat.le_refl _, fun _ => h.prodHead⟩
  | loadedHead objTable n behavior oldHead seen =>
    simp only [ht] at hstep hok
    obtain ⟨hseen, hcurrent⟩ := hok
    split at hstep
    · cases hstep
      have hidle : RingInvariant base (s.setProducer t .idle) :=
        h.setProducer (by rw [ht]; rfl) trivial
      exact hidle.setReturns _
    · next hn =>
      cases hstep
      refine h.setProducer (by rw [ht]; rfl) ⟨toNat_pos hn, hseen, ?_⟩
      intro heq
      have hold : oldHead = s.ring.prod.head := (hcurrent heq).trans h.prodHead.symm
      have hle := settle_le n (freeEntries s.ring.shape.capacity s.ring.cons.tail oldHead) behavior
      have horder := h.order
      have hfree := h.toNat_freeEntries
      rw [← hold] at hfree
      exact ⟨hcurrent heq, by omega⟩
  | reserving objTable n free oldHead seen =>
    simp only [ht, Enqueue.Serialised] at hstep hser
    obtain ⟨pending, hpending, rfl⟩ := Option.map_eq_some_iff.mp hstep
    exact h.storeProdHead (hser ▸ ht) hpending
  | copying objTable n free newHead pending start =>
    cases pending with
    | cons copy pending =>
      simp only [ht, Option.some.injEq] at hstep
      subst hstep
      exact h.writeSlot ht
    | nil =>
      simp only [ht, Option.some.injEq, Enqueue.Serialised] at hstep hser
      subst hstep
      exact h.storeProdTail (hser ▸ ht)

omit [DecidableEq P] in
/-- The next access of a consumer keeps the invariant. -/
theorem RingInvariant.stepConsumer (h : RingInvariant base s) {t : C}
    (hser : Serialised s (.consumer t)) (hstep : s.stepConsumer t = some s') :
    RingInvariant base s' := by
  unfold RingState.stepConsumer at hstep
  unfold Serialised at hser
  have hok := h.consumer t
  cases ht : s.consumers t with
  | idle => simp only [ht, reduceCtorEq] at hstep
  | entered objTable n behavior =>
    simp only [ht, Option.some.injEq] at hstep
    subst hstep
    exact h.setConsumer (by rw [ht]; rfl) ⟨Nat.le_refl _, fun _ => h.consHead⟩
  | loadedHead objTable n behavior oldHead seen =>
    simp only [ht] at hstep hok
    obtain ⟨hseen, hcurrent⟩ := hok
    split at hstep
    · cases hstep
      have hidle : RingInvariant base (s.setConsumer t .idle) :=
        h.setConsumer (by rw [ht]; rfl) trivial
      exact hidle.setReturns _
    · next hn =>
      cases hstep
      refine h.setConsumer (by rw [ht]; rfl) ⟨toNat_pos hn, hseen, ?_⟩
      intro heq
      have hold : oldHead = s.ring.cons.head := (hcurrent heq).trans h.consHead.symm
      have hle := settle_le n (entries s.ring.prod.tail oldHead) behavior
      have horder := h.order
      have hentries := h.toNat_entries
      rw [← hold] at hentries
      exact ⟨hcurrent heq, by omega⟩
  | reserving objTable n entries oldHead seen =>
    simp only [ht, Dequeue.Serialised] at hstep hser
    obtain ⟨pending, hpending, rfl⟩ := Option.map_eq_some_iff.mp hstep
    exact h.storeConsHead (hser ▸ ht) hpending
  | copying objTable n entries newHead pending start =>
    cases pending with
    | cons copy pending =>
      simp only [ht, Option.some.injEq] at hstep
      subst hstep
      exact h.readSlot ht
    | nil =>
      simp only [ht, Option.some.injEq, Dequeue.Serialised] at hstep hser
      subst hstep
      exact h.storeConsTail (hser ▸ ht)

/-- THE STEP LEMMA: every serialised step keeps the ring invariant. -/
theorem RingInvariant.step (h : RingInvariant base s) {a : RingAction P C α}
    (hser : Serialised s a) (hstep : ringStep s a = some s') : RingInvariant base s' := by
  cases a with
  | enqueue t objTable n behavior =>
    simp only [ringStep] at hstep
    split at hstep
    · next hidle =>
      cases hstep
      exact h.setProducer (by rw [hidle]; rfl) trivial
    · cases hstep
  | producer t => exact h.stepProducer hser hstep
  | dequeue t objTable n behavior =>
    simp only [ringStep] at hstep
    split at hstep
    · next hidle =>
      cases hstep
      exact h.setConsumer (by rw [hidle]; rfl) trivial
    · cases hstep
  | consumer t => exact h.stepConsumer hser hstep

end Steps

/-! ## The start of a run, and what the invariant says -/

/-- The stored objects of a ring, by position. -/
theorem Ring.stored_eq (r : Ring α) : r.stored =
    (List.range (r.prod.tail - r.cons.tail).toNat).map fun j =>
      r.slots (r.shape.slot (r.cons.tail.toNat + j)) := by
  apply List.map_congr_left
  intro j _
  rw [RingShape.slot, Lib.Counter.ofNat_add, UInt32.ofNat_toNat]

/-- A settled ring with idle threads. -/
theorem ringInvariant_ofRing {r : Ring α} (hr : r.Settled) :
    RingInvariant r.cons.tail.toNat (RingState.ofRing r : RingState P C α) := by
  have hlen : r.stored.length = (r.prod.tail - r.cons.tail).toNat := by
    rw [Ring.stored, List.length_map, List.length_range]
  have hcount : r.stored.length ≤ r.shape.capacity.toNat :=
    hlen ▸ UInt32.le_iff_toNat_le.mp hr.count
  have hcap := r.shape.capacity_le
  have hpos := Nat.two_pow_pos r.shape.bits
  have htail : r.prod.tail = UInt32.ofNat (r.cons.tail.toNat + r.stored.length) := by
    rw [hlen, Lib.Counter.ofNat_add, UInt32.ofNat_toNat, UInt32.ofNat_toNat]
    exact (add_sub_cancel r.cons.tail r.prod.tail).symm
  have hcons : r.cons.tail = UInt32.ofNat (r.cons.tail.toNat + 0) := by
    rw [Nat.add_zero, UInt32.ofNat_toNat]
  have hlive : ∀ p, (RingState.ofRing r : RingState P C α).live
      (r.shape.slot (r.cons.tail.toNat + p)) = true ↔
      ∃ j < r.stored.length, r.shape.slot (r.cons.tail.toNat + j) =
        r.shape.slot (r.cons.tail.toNat + p) := by
    intro p
    simp only [RingState.ofRing, List.any_eq_true, List.mem_range, beq_iff_eq]
    refine exists_congr fun j => and_congr_right fun _ => ?_
    rw [RingShape.slot, RingShape.slot, Lib.Counter.ofNat_add, UInt32.ofNat_toNat,
      Lib.Counter.ofNat_add, UInt32.ofNat_toNat]
  exact {
    prodHead := hr.prod.trans htail
    prodTail := htail
    consHead := hr.cons.trans hcons
    consTail := hcons
    filling := Lib.Tiled.none_held r.stored.length
    reading := Lib.Tiled.none_held 0
    claimed_le := Nat.zero_le _
    room := by
      change r.stored.length ≤ 0 + r.shape.capacity.toNat
      omega
    enqueued := (List.take_length (l := r.stored)).symm
    dequeued := rfl
    producer := fun _ => trivial
    consumer := fun _ => trivial
    ready := by
      intro p _ hp
      have hp : p < r.stored.length := hp
      refine ⟨?_, (hlive p).mpr ⟨p, hp, rfl⟩⟩
      simp only [RingState.cell, RingState.ofRing]
      rw [Ring.stored_eq, List.getElem?_map, List.getElem?_range (hlen ▸ hp), Option.map_some]
    free := by
      intro p hp hp'
      have hp₁ : r.stored.length ≤ p := hp
      have hp₂ : p < 0 + 2 ^ r.shape.bits := hp'
      apply Bool.eq_false_iff.mpr
      intro hlivep
      obtain ⟨j, hj, heq⟩ := (hlive p).mp hlivep
      have := r.shape.slot_injective heq (by omega) (by omega)
      omega }

namespace RingInvariant

variable {base : Nat} {s : RingState P C α}

/-- Between the two tails the slots hold the objects of their positions. -/
theorem obj_eq (h : RingInvariant base s) {p : Nat} (hp : s.released ≤ p)
    (hp' : p < s.published) : (s.cell base p).obj = some (s.cell base p).slot := by
  by_cases hlt : p < s.claimed
  · obtain ⟨t, a, n, hold, hap, hpa⟩ := h.reading.covered hp hlt
    have hok := h.consumer t
    cases ht : s.consumers t with
    | copying objTable m entries newHead pending start =>
      rw [ht] at hok hold
      obtain ⟨rfl, rfl⟩ := Prod.mk.inj (Option.some.inj hold)
      obtain ⟨-, done, -, hcells⟩ := hok
      have := hcells (p - start) (by omega)
      rw [Nat.add_sub_cancel' hap] at this
      split at this
      · exact this.1.1
      · exact this.1
    | idle | entered | loadedHead | reserving => rw [ht] at hold; cases hold
  · exact (h.ready p (by omega) hp').1

/-- The ring stores what was published and not released. -/
theorem stored_eq (h : RingInvariant base s) :
    s.ring.stored = (s.reserved.take s.published).drop s.released := by
  have horder := h.order
  have hbits := s.ring.shape.two_pow_le
  have hcap := s.ring.shape.capacity_le
  have hlen : (s.ring.prod.tail - s.ring.cons.tail).toNat = s.published - s.released := by
    rw [h.prodTail, h.consTail, Lib.Counter.toNat_sub] <;> omega
  rw [Ring.stored, hlen]
  refine List.ext_getElem? ?_
  intro j
  by_cases hj : j < s.published - s.released
  · rw [List.getElem?_map, List.getElem?_range hj, List.getElem?_drop,
      List.getElem?_take_of_lt (by omega), Option.map_some, h.consTail, ← Lib.Counter.ofNat_add]
    have := h.obj_eq (p := s.released + j) (by omega) (by omega)
    simp only [RingState.cell, RingShape.slot] at this
    rw [this, Nat.add_assoc]
  · rw [List.getElem?_eq_none (by simp; omega),
      List.getElem?_eq_none (by simp only [List.length_drop, List.length_take]; omega)]

/-- Nothing is lost: what entered is what left and what is stored, in order. -/
theorem conserved (h : RingInvariant base s) : s.enqueued = s.dequeued ++ s.ring.stored := by
  have horder := h.order
  have hleft : s.dequeued = (s.reserved.take s.published).take s.released := by
    rw [h.dequeued, List.take_take, Nat.min_eq_left (by omega)]
  rw [hleft, h.stored_eq, List.take_append_drop, h.enqueued]

/-- The next slot a producer writes is free. -/
theorem not_overwrites (h : RingInvariant base s) (a : RingAction P C α) :
    overwrites s a = false := by
  unfold overwrites
  split
  · next t =>
    split
    · next objTable n free newHead copy pending start ht =>
      obtain ⟨-, done, hcopied, hcells⟩ :
          ProducerOk base s (.copying objTable n free newHead (copy :: pending) start) :=
        ht ▸ h.producer t
      obtain ⟨hdone, rfl, -⟩ := hcopied.next
      have := (hcells done hdone).2
      rwa [if_neg (Nat.lt_irrefl done)] at this
    · rfl
  · rfl

/-- The next slot a consumer reads holds an unread object. -/
theorem not_readsStale (h : RingInvariant base s) (a : RingAction P C α) :
    readsStale s a = false := by
  unfold readsStale
  split
  · next t =>
    split
    · next objTable n entries newHead copy pending start ht =>
      obtain ⟨-, done, hcopied, hcells⟩ :
          ConsumerOk base s (.copying objTable n entries newHead (copy :: pending) start) :=
        ht ▸ h.consumer t
      obtain ⟨hdone, rfl, -⟩ := hcopied.next
      have := hcells done hdone
      rw [if_neg (Nat.lt_irrefl done)] at this
      rw [Bool.not_eq_false']
      exact this.2
    · rfl
  · rfl

end RingInvariant

end LogCollector
