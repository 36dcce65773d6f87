import LogCollector.Loops.Conservation
import LogCollector.Loops.Order

/-!
# What the rings were given

The invariants of the process that follow from its loops being relays. They speak of the state and
of the events so far: which packets entered and left the rings, and in which order. Here each worker
builds records of its own kind, since each has its own plugins.
-/

namespace LogCollector

open Lib

variable {ι κ ω δ ℓ σ ρ : Type}

/-! ## Workers with their own records -/

section

variable (config : PipelineConfig κ ω) (reader : PacketReader (Buffer δ) ℓ)
  (builder : ω → RecordBuilder σ (Buffer δ) ρ)

/-- Before any thread has taken a step. -/
def processStart : Pipeline ι κ ω δ ℓ σ ρ where
  receivers _ := .top
  masters t := Master.start (config.master t)
  workers t := Worker.start (config.worker t) (builder t)
  mem := .start
  received := 0
  taken := []
  recorded := []

variable [DecidableEq ι] [DecidableEq κ] [DecidableEq ω]

/-- One step of the process, where worker `t` builds records with `builder t`. -/
def processStep : Step (Pipeline ι κ ω δ ℓ σ ρ) (PipelineAction ι κ ω δ)
  | s, .receiver t a =>
    if a.kind.fresh s.received then
      (receiverStep config.receiver_ring_cnt (s.receivers t, s.mem) a).map fun (pc, mem) =>
        { s with
          receivers := Function.update s.receivers t pc
          mem
          received := s.received + a.kind.receives }
    else none
  | s, .master t a =>
    (masterStep (config.master t) reader (s.masters t, s.mem) a).map fun (th, mem) =>
      { s with masters := Function.update s.masters t th, mem }
  | s, .worker t a => pipelineStep config reader (builder t) s (.worker t a)
  | s, .kill => some { s with mem := { s.mem with kill_signal := true } }
  | s, .rotateJson plugin fptr =>
    some { s with
      mem := { s.mem with json_fptr := Function.update s.mem.json_fptr plugin fptr } }
  | s, .rotateTemp plugin fptr =>
    some { s with
      mem := { s.mem with temp_fptr := Function.update s.mem.temp_fptr plugin fptr } }

variable {config reader builder}

/-- A step is one of the pipeline with the builder of some worker; which one matters to the workers
only. -/
theorem exists_pipelineStep [Nonempty ω] {s s' : Pipeline ι κ ω δ ℓ σ ρ}
    {a : PipelineAction ι κ ω δ} (h : processStep config reader builder s a = some s') :
    ∃ t, pipelineStep config reader (builder t) s a = some s' := by
  obtain ⟨t⟩ := ‹Nonempty ω›
  cases a with
  | worker u a => exact ⟨u, h⟩
  | receiver | master | kill | rotateJson | rotateTemp => exact ⟨t, h⟩

end

/-! ## The events of one step -/

theorem filterMap_guard {α β : Type} (c : Prop) [Decidable c] (f : α → β) (l : List α) :
    l.filterMap (fun x => if c then some (f x) else none) = if c then l.map f else [] := by
  split
  · exact congrFun List.filterMap_eq_map' l
  · exact List.filterMap_none l

theorem ofMaster_append {π : Type} (m : Nat) (records records' : List (Nat × π)) :
    ofMaster m (records ++ records') = ofMaster m records ++ ofMaster m records' := by
  rw [ofMaster, List.filter_append, List.map_append]
  rfl

namespace Trace

variable {trace trace' : Trace ι κ ω δ} {pkts : List (Buffer δ)}

@[simp] theorem received_append [DecidableEq ι] (t : ι) :
    received (trace ++ trace') t = trace.received t ++ trace'.received t :=
  List.filterMap_append

@[simp] theorem lined_append [DecidableEq κ] (t : κ) (p : Nat) :
    lined (trace ++ trace') t p = trace.lined t p ++ trace'.lined t p :=
  List.filterMap_append

@[simp] theorem recorded_append [DecidableEq ω] (t : ω) (i : Nat) :
    recorded (trace ++ trace') t i = trace.recorded t i ++ trace'.recorded t i :=
  List.filterMap_append

@[simp] theorem recordedIds_append :
    recordedIds (trace ++ trace') = trace.recordedIds ++ trace'.recordedIds :=
  List.filterMap_append

@[simp] theorem received_receipts [DecidableEq ι] (u t : ι) :
    received (pkts.map (.received u) : Trace ι κ ω δ) t = if u = t then pkts else [] := by
  rw [received, List.filterMap_map]
  simpa using filterMap_guard (u = t) id pkts

@[simp] theorem lined_receipts [DecidableEq κ] (u : ι) (t : κ) (p : Nat) :
    lined (pkts.map (.received u) : Trace ι κ ω δ) t p = [] := by
  rw [lined, List.filterMap_map]
  exact List.filterMap_none pkts

@[simp] theorem recorded_receipts [DecidableEq ω] (u : ι) (t : ω) (i : Nat) :
    recorded (pkts.map (.received u) : Trace ι κ ω δ) t i = [] := by
  rw [recorded, List.filterMap_map]
  exact List.filterMap_none pkts

end Trace

section

variable (s : Pipeline ι κ ω δ ℓ σ ρ)

/-- A step of a master is an event only where it places a line. -/
theorem Pipeline.events_master (u : κ) (a : MasterAction) :
    (∀ t [DecidableEq ι], Trace.received (s.events (.master u a)) t = []) ∧
      (∀ t p [DecidableEq κ], Trace.lined (s.events (.master u a)) t p =
        if u = t then (s.masters u).pc.lines a p else []) ∧
      ∀ t i [DecidableEq ω], Trace.recorded (s.events (.master u a)) t i = [] := by
  cases a with
  | place q =>
    rw [Pipeline.events]
    cases hpc : (s.masters u).pc with
    | place q' pkt =>
      rw [MasterPc.lines, if_pos rfl]
      refine ⟨fun t _ => rfl, fun t p _ => ?_, fun t i _ => rfl⟩
      rw [MasterPc.lines, Trace.lined]
      by_cases ht : u = t
      · by_cases hp : q = p
        · simp [ht, hp]
        · simp [ht, hp]
      · simp [ht]
    | dequeue | lookup | enqueue | free | fileTimer | drain | test | exited =>
      refine ⟨fun t _ => rfl, fun t p _ => ?_, fun t i _ => rfl⟩
      split <;> rfl
  | dequeue | lookup | enqueue | free | fileTimer | drain | test =>
    refine ⟨fun t _ => rfl, fun t p _ => ?_, fun t i _ => rfl⟩
    split
    · cases (s.masters u).pc <;> rfl
    · rfl

/-- A step of a worker is an event only where it builds a record. -/
theorem Pipeline.events_worker (u : ω) (a : WorkerAction) :
    (∀ t [DecidableEq ι], Trace.received (s.events (.worker u a)) t = []) ∧
      (∀ t p [DecidableEq κ], Trace.lined (s.events (.worker u a)) t p = []) ∧
      ∀ t i [DecidableEq ω], Trace.recorded (s.events (.worker u a)) t i =
        if u = t then (s.workers u).pc.records a i else [] := by
  cases a with
  | process j n =>
    rw [Pipeline.events]
    cases hpc : (s.workers u).pc with
    | process j' n' pkt =>
      rw [WorkerPc.records, if_pos rfl]
      refine ⟨fun t _ => rfl, fun t p _ => rfl, fun t i _ => ?_⟩
      rw [WorkerPc.records, Trace.recorded]
      by_cases ht : u = t
      · by_cases hj : j = i
        · simp [ht, hj]
        · simp [ht, hj]
      · simp [ht]
    | dequeue | free | report | test | fileTimer | exited =>
      refine ⟨fun t _ => rfl, fun t p _ => rfl, fun t i _ => ?_⟩
      split <;> rfl
  | dequeue | free | report | test | fileTimer =>
    refine ⟨fun t _ => rfl, fun t p _ => rfl, fun t i _ => ?_⟩
    split
    · cases (s.workers u).pc <;> rfl
    · rfl

/-- The records of a step of a worker. -/
theorem Pipeline.recordedIds_worker (u : ω) (a : WorkerAction) :
    Trace.recordedIds (s.events (.worker u a)) =
      match a with
      | .process _ _ => (s.workers u).building
      | _ => [] := by
  cases a with
  | process j m =>
    rw [Pipeline.events, Worker.building]
    cases (s.workers u).pc with
    | process j' m' pkt =>
      rw [WorkerPc.records, if_pos rfl]
      rfl
    | dequeue | free | report | test | fileTimer | exited => rfl
  | dequeue | free | report | test | fileTimer => rfl

theorem Pipeline.recordedIds_other {a : PipelineAction ι κ ω δ}
    (h : ∀ u b, a ≠ .worker u b) : Trace.recordedIds (s.events a) = [] := by
  cases a with
  | receiver u b =>
    rw [Pipeline.events, Trace.recordedIds, List.filterMap_map]
    exact List.filterMap_none _
  | master u b =>
    cases b with
    | place q =>
      rw [Pipeline.events, Trace.recordedIds, List.filterMap_map]
      exact List.filterMap_none _
    | dequeue | lookup | enqueue | free | fileTimer | drain | test => rfl
  | worker u b => exact absurd rfl (h u b)
  | kill | rotateJson | rotateTemp => rfl

end

/-! ## Receivers -/

section

variable [DecidableEq ι]

/-- What the rings of receivers hold, each receiver has got once, in this order. -/
structure ReceivedInOrder (s : Pipeline ι κ ω δ ℓ σ ρ) (trace : Trace ι κ ω δ) : Prop where
  numbered : ∀ t, ∀ pkt ∈ trace.received t, pkt.id < s.received
  apart : ∀ t u, ∀ pkt ∈ trace.received t, pkt ∈ trace.received u → t = u
  held : ∀ t, ∀ pkt ∈ (s.receivers t).held, pkt ∈ trace.received t
  entered : ∀ k, ∀ pkt ∈ (s.mem.receiver_rings k).entered, ∃ t, pkt ∈ trace.received t
  order : ∀ t k, SharedRelay (trace.received t) (s.receivers t).held
    (s.mem.receiver_rings k).entered

variable {s s' : Pipeline ι κ ω δ ℓ σ ρ} {trace events : Trace ι κ ω δ}

/-- A step without receivers. -/
theorem ReceivedInOrder.frame (h : ReceivedInOrder s trace)
    (hreceivers : s'.receivers = s.receivers)
    (hreceived : s'.received = s.received)
    (hentered : ∀ k, (s'.mem.receiver_rings k).entered = (s.mem.receiver_rings k).entered)
    (hevents : ∀ t, events.received t = []) : ReceivedInOrder s' (trace ++ events) := by
  have htrace (t : ι) : Trace.received (trace ++ events) t = trace.received t := by
    rw [Trace.received_append, hevents, List.append_nil]
  constructor
  · simp only [htrace, hreceived]
    exact h.numbered
  · simp only [htrace]
    exact h.apart
  · simp only [htrace, hreceivers]
    exact h.held
  · simp only [htrace, hentered]
    exact h.entered
  · simp only [htrace, hentered, hreceivers]
    exact h.order

/-- A step of a receiver. -/
theorem ReceivedInOrder.receiver {receiver_ring_cnt : Nat} {u : ι} {a : ReceiverAction (Buffer δ)}
    {pc : ReceiverPc (Buffer δ)} (h : ReceivedInOrder s trace)
    (hfresh : a.kind.fresh s.received)
    (hstep : receiverStep receiver_ring_cnt (s.receivers u, s.mem) a = some (pc, s'.mem))
    (hreceivers : s'.receivers = Function.update s.receivers u pc)
    (hreceived : s'.received = s.received + a.kind.receives) :
    ReceivedInOrder s' (trace ++ a.receipt.map (.received u)) := by
  have hreceipt : ∀ pkt ∈ a.receipt, pkt.id = s.received ∧ s.received < s'.received := by
    rw [a.receipt_eq, hreceived]
    cases hkind : a.kind with
    | receive pkt =>
      rw [hkind] at hfresh
      intro pkt' hpkt
      rw [List.mem_singleton.mp hpkt]
      exact ⟨of_decide_eq_true hfresh, Nat.lt_succ_self _⟩
    | forget | inside => exact fun pkt hpkt => absurd hpkt List.not_mem_nil
  have hnew (t : ι) : ∀ pkt ∈ a.receipt, pkt ∉ trace.received t := fun pkt hpkt hold =>
    absurd (h.numbered t pkt hold) (by rw [(hreceipt pkt hpkt).1]; exact lt_irrefl _)
  have hmem {t : ι} {pkt : Buffer δ}
      (hpkt : pkt ∈ Trace.received (trace ++ a.receipt.map (.received u)) t) :
      pkt ∈ trace.received t ∨ u = t ∧ pkt ∈ a.receipt := by
    rw [Trace.received_append, Trace.received_receipts] at hpkt
    rcases List.mem_append.mp hpkt with hold | hpkt
    · exact .inl hold
    · split at hpkt
      · next hu => exact .inr ⟨hu, hpkt⟩
      · cases hpkt
  have hold {t : ι} {pkt : Buffer δ} (hpkt : pkt ∈ trace.received t) :
      pkt ∈ Trace.received (trace ++ a.receipt.map (.received u)) t := by
    rw [Trace.received_append]
    exact List.mem_append_left _ hpkt
  constructor
  case numbered =>
    intro t pkt hpkt
    rcases hmem hpkt with hpkt | ⟨-, hpkt⟩
    · exact lt_of_lt_of_le (h.numbered t pkt hpkt) (hreceived ▸ Nat.le_add_right _ _)
    · rw [(hreceipt pkt hpkt).1]
      exact (hreceipt pkt hpkt).2
  case apart =>
    intro t v pkt ht hv
    rcases hmem ht with hold | ⟨hu, hreceipt⟩
    · rcases hmem hv with hold' | ⟨-, hreceipt⟩
      · exact h.apart t v pkt hold hold'
      · exact absurd hold (hnew t pkt hreceipt)
    · rcases hmem hv with hold | ⟨hu', -⟩
      · exact absurd hold (hnew v pkt hreceipt)
      · exact hu.symm.trans hu'
  case held =>
    intro t pkt hpkt
    rw [hreceivers] at hpkt
    by_cases ht : t = u
    · subst ht
      rw [Function.update_self] at hpkt
      rcases (receiver_keeps (k := 0) hstep).1 pkt hpkt with hpkt | hpkt
      · exact hold (h.held t pkt hpkt)
      · rw [Trace.received_append, Trace.received_receipts, if_pos rfl]
        exact List.mem_append_right _ hpkt
    · rw [Function.update_of_ne ht] at hpkt
      exact hold (h.held t pkt hpkt)
  case entered =>
    intro k pkt hpkt
    rcases (receiver_keeps hstep).2 pkt hpkt with hpkt | hpkt
    · exact (h.entered k pkt hpkt).imp fun t => hold
    · exact ⟨u, hold (h.held u pkt hpkt)⟩
  case order =>
    intro t k
    rw [hreceivers, Trace.received_append, Trace.received_receipts]
    by_cases ht : t = u
    · subst ht
      rw [Function.update_self, if_pos rfl]
      refine receiver_takes hstep (fun pkt hpkt hentered => ?_) (h.order t k)
      obtain ⟨v, hv⟩ := h.entered k pkt hentered
      exact hnew v pkt hpkt hv
    · rw [Function.update_of_ne ht, if_neg (Ne.symm ht), List.append_nil]
      refine receiver_shares hstep (fun pkt hpkt hgot => ?_) (h.order t k)
      exact ht (h.apart t u pkt hgot (h.held u pkt hpkt))

end

/-! ## Masters -/

/-- Master `t` hands packets of plugin `p` on to the ring. -/
def PipelineConfig.Feeds (config : PipelineConfig κ ω) (t : κ) (p ring : Nat) : Prop :=
  ∃ plgn core, (config.master t).plugin[p]? = some plgn ∧ plgn.ring_rxs core = some ring

section

variable [DecidableEq κ]

/-- A master places the line of each packet it takes for the plugin that listens to the sender, and
hands the packet on to a worker of this plugin, in this order. -/
structure LinedInOrder (config : PipelineConfig κ ω) (reader : PacketReader (Buffer δ) ℓ)
    (s : Pipeline ι κ ω δ ℓ σ ρ) (trace : Trace ι κ ω δ) : Prop where
  looked : ∀ t p pkt, (s.masters t).pc = .place p pkt →
    pluginLookupWithIpDec (config.master t).plugin (reader.s_addr pkt) = some p
  entering : ∀ t p pkt, (s.masters t).pc = .enqueue p pkt → pkt ∈ trace.lined t p
  listened : ∀ t p, ∀ pkt ∈ trace.lined t p,
    pluginLookupWithIpDec (config.master t).plugin (reader.s_addr pkt) = some p
  taken : ∀ t p, Relay ((config.master t).source s.mem) (s.masters t).pc.awaiting (trace.lined t p)
  fed : ∀ r, ∀ pkt ∈ (s.mem.rings r).entered, ∃ t p, config.Feeds t p r ∧ pkt ∈ trace.lined t p
  handed : ∀ t p r, (∀ t' p', config.Feeds t' p' r → t' = t ∧ p' = p) →
    Relay (trace.lined t p) ((s.masters t).pc.leaving p) (s.mem.rings r).entered

variable {config : PipelineConfig κ ω} {reader : PacketReader (Buffer δ) ℓ}
  {s s' : Pipeline ι κ ω δ ℓ σ ρ} {trace events : Trace ι κ ω δ}

/-- A step without masters. -/
theorem LinedInOrder.frame (h : LinedInOrder config reader s trace)
    (hmasters : s'.masters = s.masters)
    (hleft : ∀ k, (s.mem.receiver_rings k).left.Sublist (s'.mem.receiver_rings k).left)
    (hentered : ∀ r, (s'.mem.rings r).entered = (s.mem.rings r).entered)
    (hevents : ∀ t p, events.lined t p = []) : LinedInOrder config reader s' (trace ++ events) := by
  have htrace (t : κ) (p : Nat) : Trace.lined (trace ++ events) t p = trace.lined t p := by
    rw [Trace.lined_append, hevents, List.append_nil]
  constructor
  case looked =>
    rw [hmasters]
    exact h.looked
  case entering =>
    simp only [htrace, hmasters]
    exact h.entering
  case listened =>
    simp only [htrace]
    exact h.listened
  case taken =>
    intro t p
    rw [htrace, hmasters]
    exact (h.taken t p).grow ((config.master t).source_sublist hleft)
  case fed =>
    simp only [htrace, hentered]
    exact h.fed
  case handed =>
    simp only [htrace, hentered, hmasters]
    exact h.handed

/-- A step of a master. -/
theorem LinedInOrder.master {u : κ} {a : MasterAction} {th : Master (Buffer δ) ℓ}
    (h : LinedInOrder config reader s trace)
    (hstep : masterStep (config.master u) reader (s.masters u, s.mem) a = some (th, s'.mem))
    (hmasters : s'.masters = Function.update s.masters u th)
    (hevents : ∀ t p, events.lined t p = if u = t then (s.masters u).pc.lines a p else []) :
    LinedInOrder config reader s' (trace ++ events) := by
  have hself (p : Nat) : Trace.lined (trace ++ events) u p =
      trace.lined u p ++ (s.masters u).pc.lines a p := by
    rw [Trace.lined_append, hevents, if_pos rfl]
  have hother {t : κ} (ht : t ≠ u) (p : Nat) :
      Trace.lined (trace ++ events) t p = trace.lined t p := by
    rw [Trace.lined_append, hevents, if_neg (Ne.symm ht), List.append_nil]
  have hold (t : κ) (p : Nat) {pkt : Buffer δ} (hpkt : pkt ∈ trace.lined t p) :
      pkt ∈ Trace.lined (trace ++ events) t p := by
    rw [Trace.lined_append]
    exact List.mem_append_left _ hpkt
  obtain ⟨hreceiver, -⟩ := master_history (master_transfer hstep)
  constructor
  case looked =>
    intro t p pkt hpc
    rw [hmasters] at hpc
    by_cases ht : t = u
    · subst ht
      rw [Function.update_self] at hpc
      exact master_looked hstep hpc
    · rw [Function.update_of_ne ht] at hpc
      exact h.looked t p pkt hpc
  case entering =>
    intro t p pkt hpc
    rw [hmasters] at hpc
    by_cases ht : t = u
    · subst ht
      rw [Function.update_self] at hpc
      obtain ⟨hplace, rfl⟩ := master_entering hstep hpc
      rw [hself, hplace, MasterPc.lines, if_pos rfl]
      exact List.mem_append_right _ (List.mem_singleton_self pkt)
    · rw [Function.update_of_ne ht] at hpc
      exact hold t p (h.entering t p pkt hpc)
  case listened =>
    intro t p pkt hpkt
    by_cases ht : t = u
    · subst ht
      rw [hself] at hpkt
      rcases List.mem_append.mp hpkt with hpkt | hpkt
      · exact h.listened t p pkt hpkt
      · exact h.looked t p pkt (master_lines hstep hpkt)
    · rw [hother ht] at hpkt
      exact h.listened t p pkt hpkt
  case taken =>
    intro t p
    rw [hmasters]
    by_cases ht : t = u
    · subst ht
      rw [hself, Function.update_self]
      exact master_takes hstep p (h.taken t p)
    · rw [hother ht, Function.update_of_ne ht]
      exact (h.taken t p).grow ((config.master t).source_sublist fun k => (hreceiver k).2)
  case fed =>
    intro r pkt hpkt
    rcases master_feeds hstep r with hsame | ⟨p, pkt', plgn, core, hpc, hfound, hring, hentered⟩
    · rw [hsame] at hpkt
      obtain ⟨t, p, hfeeds, hlined⟩ := h.fed r pkt hpkt
      exact ⟨t, p, hfeeds, hold t p hlined⟩
    · rw [hentered] at hpkt
      rcases List.mem_append.mp hpkt with hpkt | hpkt
      · obtain ⟨t, p, hfeeds, hlined⟩ := h.fed r pkt hpkt
        exact ⟨t, p, hfeeds, hold t p hlined⟩
      · rw [List.mem_singleton.mp hpkt]
        exact ⟨u, p, ⟨plgn, core, hfound, hring⟩, hold u p (h.entering u p pkt' hpc)⟩
  case handed =>
    intro t p r hfeeds
    rw [hmasters]
    by_cases ht : t = u
    · subst ht
      rw [hself, Function.update_self]
      exact master_hands hstep
        (fun p' plgn core hfound hring => (hfeeds t p' ⟨plgn, core, hfound, hring⟩).2)
        (h.handed t p r hfeeds)
    · rw [hother ht, Function.update_of_ne ht]
      rcases master_feeds hstep r with hsame | ⟨p', pkt', plgn, core, -, hfound, hring, -⟩
      · rw [hsame]
        exact h.handed t p r hfeeds
      · exact absurd (hfeeds u p' ⟨plgn, core, hfound, hring⟩).1.symm ht

end

/-! ## Workers -/

section

variable [DecidableEq ω]

/-- A worker builds the records of the packets it takes from a ring in this order. -/
def RecordedInOrder (config : PipelineConfig κ ω) (s : Pipeline ι κ ω δ ℓ σ ρ)
    (trace : Trace ι κ ω δ) : Prop :=
  ∀ t i m, Relay ((config.worker t).source s.mem i m) ((s.workers t).pc.processing i m)
    (ofMaster m (trace.recorded t i))

variable {config : PipelineConfig κ ω} {builder : RecordBuilder σ (Buffer δ) ρ}
  {s s' : Pipeline ι κ ω δ ℓ σ ρ} {trace events : Trace ι κ ω δ}

/-- A step without workers. -/
theorem RecordedInOrder.frame (h : RecordedInOrder config s trace)
    (hworkers : s'.workers = s.workers)
    (hleft : ∀ r, (s.mem.rings r).left.Sublist (s'.mem.rings r).left)
    (hevents : ∀ t i, events.recorded t i = []) :
    RecordedInOrder config s' (trace ++ events) := by
  intro t i m
  rw [Trace.recorded_append, hevents, List.append_nil, hworkers]
  exact (h t i m).grow ((config.worker t).source_sublist hleft i m)

/-- A step of a worker. -/
theorem RecordedInOrder.worker {u : ω} {a : WorkerAction} {th : Worker σ (Buffer δ) ρ}
    (h : RecordedInOrder config s trace)
    (hstep : workerStep (config.worker u) builder (s.workers u, s.mem) a = some (th, s'.mem))
    (hworkers : s'.workers = Function.update s.workers u th)
    (hevents : ∀ t i, events.recorded t i = if u = t then (s.workers u).pc.records a i else []) :
    RecordedInOrder config s' (trace ++ events) := by
  intro t i m
  rw [Trace.recorded_append, hevents, hworkers]
  by_cases ht : t = u
  · subst ht
    rw [if_pos rfl, Function.update_self, ofMaster_append]
    exact worker_takes hstep i m (h t i m)
  · rw [if_neg (Ne.symm ht), List.append_nil, Function.update_of_ne ht]
    refine (h t i m).grow ((config.worker t).source_sublist ?_ i m)
    exact fun r => ((worker_history (worker_transfer hstep)).2 r).2

end

/-! ## The process -/

section

variable [DecidableEq ι] [DecidableEq κ] [DecidableEq ω]

/-- Every loop keeps the order of its packets. -/
structure OrderInvariant (config : PipelineConfig κ ω) (reader : PacketReader (Buffer δ) ℓ)
    (s : Pipeline ι κ ω δ ℓ σ ρ) (trace : Trace ι κ ω δ) : Prop where
  received : ReceivedInOrder s trace
  lined : LinedInOrder config reader s trace
  recorded : RecordedInOrder config s trace

variable {config : PipelineConfig κ ω} {reader : PacketReader (Buffer δ) ℓ}
  {builder : RecordBuilder σ (Buffer δ) ρ} {s s' : Pipeline ι κ ω δ ℓ σ ρ} {trace : Trace ι κ ω δ}
  {a : PipelineAction ι κ ω δ}

/-- A change of memory that is none of the rings. -/
theorem OrderInvariant.same_rings (h : OrderInvariant config reader s trace)
    {mem : Memory (Buffer δ)}
    (hreceiver : mem.receiver_rings = s.mem.receiver_rings) (hrings : mem.rings = s.mem.rings) :
    OrderInvariant config reader { s with mem } (trace ++ []) where
  received := h.received.frame rfl rfl (fun k => by rw [hreceiver]) fun _ => rfl
  lined := h.lined.frame rfl (fun k => by rw [hreceiver]) (fun r => by rw [hrings]) fun _ _ => rfl
  recorded := h.recorded.frame rfl (fun r => by rw [hrings]) fun _ _ => rfl

/-- ONE STEP of the process keeps the order of packets. -/
theorem OrderInvariant.step (h : OrderInvariant config reader s trace)
    (hstep : pipelineStep config reader builder s a = some s') :
    OrderInvariant config reader s' (trace ++ s.events a) := by
  cases a with
  | receiver u a =>
    rw [pipelineStep] at hstep
    split at hstep
    · next hfresh =>
      obtain ⟨⟨pc, mem⟩, hreceiver, rfl⟩ := Option.map_eq_some_iff.mp hstep
      have hevents : s.events (.receiver u a) = a.receipt.map (.received u) := rfl
      obtain ⟨hrings, hleft⟩ := receiver_history (receiver_transfer hreceiver)
      refine ⟨h.received.receiver hfresh hreceiver rfl rfl, ?_, ?_⟩
      · refine h.lined.frame rfl hleft
          (fun r => congrArg BoundedQueue.entered (congrFun hrings r)) ?_
        intro t p
        rw [hevents, Trace.lined_receipts]
      · refine h.recorded.frame rfl (fun r => by rw [hrings]) ?_
        intro t i
        rw [hevents, Trace.recorded_receipts]
    · cases hstep
  | master u a =>
    obtain ⟨⟨th, mem⟩, hmaster, rfl⟩ := Option.map_eq_some_iff.mp hstep
    obtain ⟨hreceived, hlined, hrecorded⟩ := s.events_master u a
    obtain ⟨hreceiver, hrings⟩ := master_history (master_transfer hmaster)
    exact ⟨h.received.frame rfl rfl (fun k => (hreceiver k).1) fun t => hreceived t,
      h.lined.master hmaster rfl fun t p => hlined t p,
      h.recorded.frame rfl hrings fun t i => hrecorded t i⟩
  | worker u a =>
    obtain ⟨⟨th, mem⟩, hworker, rfl⟩ := Option.map_eq_some_iff.mp hstep
    obtain ⟨hreceived, hlined, hrecorded⟩ := s.events_worker u a
    obtain ⟨hreceiver, hrings⟩ := worker_history (worker_transfer hworker)
    exact ⟨h.received.frame rfl rfl
        (fun k => congrArg BoundedQueue.entered (congrFun hreceiver k)) fun t => hreceived t,
      h.lined.frame rfl (fun k => by rw [hreceiver]) (fun r => (hrings r).1) fun t p => hlined t p,
      h.recorded.worker hworker rfl fun t i => hrecorded t i⟩
  | kill | rotateJson plugin fptr | rotateTemp plugin fptr =>
    cases hstep
    exact h.same_rings rfl rfl

theorem orderInvariant_start (config : PipelineConfig κ ω) (reader : PacketReader (Buffer δ) ℓ)
    (builder : ω → RecordBuilder σ (Buffer δ) ρ) :
    OrderInvariant config reader (processStart config builder : Pipeline ι κ ω δ ℓ σ ρ) [] := by
  have hmaster (t : κ) : (Master.start (config.master t) : Master (Buffer δ) ℓ).pc = .dequeue ∨
      (Master.start (config.master t) : Master (Buffer δ) ℓ).pc = .exited := by
    rw [Master.start]
    cases (config.master t).ring with
    | none => exact .inr rfl
    | some ring => exact .inl rfl
  refine ⟨?_, ?_, ?_⟩
  · constructor
    case numbered => exact fun t pkt hpkt => absurd hpkt List.not_mem_nil
    case apart => exact fun t u pkt hpkt => absurd hpkt List.not_mem_nil
    case held => exact fun t pkt hpkt => absurd hpkt List.not_mem_nil
    case entered => exact fun k pkt hpkt => absurd hpkt List.not_mem_nil
    case order => exact fun t k => SharedRelay.start
  · constructor
    case looked =>
      intro t p pkt hpc
      rcases hmaster t with h | h <;> cases h.symm.trans hpc
    case entering =>
      intro t p pkt hpc
      rcases hmaster t with h | h <;> cases h.symm.trans hpc
    case listened => exact fun t p pkt hpkt => absurd hpkt List.not_mem_nil
    case taken =>
      intro t p
      change Relay _ (Master.start (config.master t) : Master (Buffer δ) ℓ).pc.awaiting []
      rcases hmaster t with h | h <;> rw [h] <;> exact Relay.start
    case fed => exact fun r pkt hpkt => absurd hpkt List.not_mem_nil
    case handed =>
      intro t p r _
      change Relay [] ((Master.start (config.master t) : Master (Buffer δ) ℓ).pc.leaving p) []
      rcases hmaster t with h | h <;> rw [h] <;> exact Relay.start
  · intro t i m
    change Relay _ ((Worker.start (config.worker t) (builder t)).pc.processing i m) []
    have hidle : (Worker.start (config.worker t) (builder t)).pc.processing i m = [] := by
      rw [Worker.start]
      split
      · exact (config.worker t).processing_dequeueFrom 0 0 i m
      · rfl
    rw [hidle]
    exact Relay.start

/-- A RUN of the process keeps the order of packets. -/
theorem orderInvariant_run [Nonempty ω] {builder : ω → RecordBuilder σ (Buffer δ) ρ}
    {actions : List (PipelineAction ι κ ω δ)}
    (hrun : (processStep config reader builder).run (processStart config builder) actions =
      some s) :
    OrderInvariant config reader s ((processStep config reader builder).outputs Pipeline.events
      (processStart config builder) actions) := by
  refine Step.outputs_induct (I := OrderInvariant config reader) ?_
    (orderInvariant_start config reader builder) hrun
  intro s trace a s' h hstep
  obtain ⟨t, hstep⟩ := exists_pipelineStep hstep
  exact h.step hstep

end

end LogCollector
