import LogCollector.Loops.Buffering
import LogCollector.Loops.Delivery

/-!
# What reaches the files

The write buffers of masters and workers are given what the events of a run say: a master places
the lines of packets and a worker the records that it builds of them. Where every ring of a worker
is for one master and one plugin, the invariants of the rings tell where these packets come from:
each was received, its sender is the one the plugin listens to, no packet is recorded twice, and
the packets of one receiver that went through one master are in the order in which they came in.
-/

namespace LogCollector

open Lib

variable {ι κ ω δ ℓ σ ρ : Type}

section

variable [DecidableEq κ] [DecidableEq ω]

/-- The record is what the worker builds of the packet, with some values of its local variables. -/
def RecordBuilder.Builds (builder : RecordBuilder σ (Buffer δ) ρ) (i : Nat) (pkt : Buffer δ)
    (record : ρ) : Prop :=
  ∃ vars vars', builder.build vars i pkt = some (record, vars')

/-- What was placed in the write buffers is what the events say, and no packet has two records. -/
structure Placed (reader : PacketReader (Buffer δ) ℓ) (builder : ω → RecordBuilder σ (Buffer δ) ρ)
    (s : Pipeline ι κ ω δ ℓ σ ρ) (trace : Trace ι κ ω δ) : Prop where
  lines : ∀ t p, ((s.masters t).wb p).placed = (trace.lined t p).map reader.line
  records : ∀ t i, List.Forall₂ (fun e => (builder t).Builds i e.2) (trace.recorded t i)
    ((s.workers t).wb i).placed
  ids : s.recorded = trace.recordedIds

variable {reader : PacketReader (Buffer δ) ℓ}

/-- What a master places are the lines of its packets. -/
theorem master_places {config : MasterConfig} {th th' : Master (Buffer δ) ℓ}
    {mem mem' : Memory (Buffer δ)} {a : MasterAction}
    (h : masterStep config reader (th, mem) a = some (th', mem')) (p : Nat) :
    (th'.wb p).placed = (th.wb p).placed ++ (th.pc.lines a p).map reader.line := by
  have hevent : masterAmongOthers config reader (th, mem) (.own a) = some (th', mem') := h
  have hmade : lineMade reader p (th, mem) (.own a) = (th.pc.lines a p).map reader.line := by
    obtain ⟨pc, wb⟩ := th
    cases a with
    | place q =>
      cases pc with
      | place q' pkt =>
        change (if q = p then [reader.line pkt] else []) =
          (if q = p then [pkt] else []).map reader.line
        split <;> rfl
      | dequeue | lookup | enqueue | free | fileTimer | drain | test | exited => rfl
    | dequeue | lookup | enqueue | free | fileTimer | drain | test => cases pc <;> rfl
  rw [← hmade]
  exact master_placed p hevent

theorem WorkerPc.records_eq_nil {π : Type} {pc : WorkerPc π} {a : WorkerAction} {i : Nat}
    (h : ∀ j m, a ≠ .process j m) : pc.records a i = [] := by
  cases a with
  | process j m => exact absurd rfl (h j m)
  | dequeue | free | report | test | fileTimer => cases pc <;> rfl

/-- What a worker places are the records it builds of its packets. -/
theorem worker_places {config : WorkerConfig} {builder : RecordBuilder σ (Buffer δ) ρ}
    {th th' : Worker σ (Buffer δ) ρ} {mem mem' : Memory (Buffer δ)} {a : WorkerAction}
    (h : workerStep config builder (th, mem) a = some (th', mem')) (i : Nat) :
    ∃ records, (th'.wb i).placed = (th.wb i).placed ++ records ∧
      List.Forall₂ (fun e => builder.Builds i e.2) (th.pc.records a i) records := by
  have hevent : workerAmongOthers config builder (th, mem) (.own a) = some (th', mem') := h
  refine ⟨_, worker_placed i hevent, ?_⟩
  cases a with
  | process j m =>
    obtain ⟨pkt, record, vars, fptr, hpc, hbuild, -⟩ := workerStep_process h
    simp only [recordBuilt, hpc, hbuild, Option.map_some, Option.toList_some, WorkerPc.records]
    split
    · next heq =>
      subst heq
      exact .cons ⟨_, _, hbuild⟩ .nil
    · exact .nil
  | dequeue | free | report | test | fileTimer =>
    rw [WorkerPc.records_eq_nil fun _ _ heq => by cases heq]
    exact .nil

end

section

variable [DecidableEq κ] [DecidableEq ω]

variable {config : PipelineConfig κ ω} {reader : PacketReader (Buffer δ) ℓ}
  {builder : ω → RecordBuilder σ (Buffer δ) ρ} {s s' : Pipeline ι κ ω δ ℓ σ ρ}
  {trace : Trace ι κ ω δ}
  {a : PipelineAction ι κ ω δ}

/-- A step that places nothing. -/
theorem Placed.frame {events : Trace ι κ ω δ} (h : Placed reader builder s trace)
    (hmasters : s'.masters = s.masters) (hworkers : s'.workers = s.workers)
    (hids : s'.recorded = s.recorded) (hlined : ∀ t p, events.lined t p = [])
    (hrecorded : ∀ t i, events.recorded t i = []) (hevents : events.recordedIds = []) :
    Placed reader builder s' (trace ++ events) where
  lines t p := by
    rw [hmasters, Trace.lined_append, hlined, List.append_nil]
    exact h.lines t p
  records t i := by
    rw [hworkers, Trace.recorded_append, hrecorded, List.append_nil]
    exact h.records t i
  ids := by
    rw [hids, Trace.recordedIds_append, hevents, List.append_nil]
    exact h.ids

theorem placed_start (config : PipelineConfig κ ω) (reader : PacketReader (Buffer δ) ℓ)
    (builder : ω → RecordBuilder σ (Buffer δ) ρ) :
    Placed reader builder (processStart config builder : Pipeline ι κ ω δ ℓ σ ρ) [] where
  lines _ _ := rfl
  records t i := by
    change List.Forall₂ _ [] ((Worker.start (config.worker t) (builder t)).wb i).placed
    have hnothing : ((Worker.start (config.worker t) (builder t)).wb i).placed = [] := by
      rw [Worker.start]
      split <;> rfl
    rw [hnothing]
    exact .nil
  ids := rfl

variable [DecidableEq ι]

/-- ONE STEP places what its event says. -/
theorem Placed.step (h : Placed reader builder s trace)
    (hstep : processStep config reader builder s a = some s') :
    Placed reader builder s' (trace ++ s.events a) := by
  cases a with
  | receiver u a =>
    rw [processStep] at hstep
    split at hstep
    · obtain ⟨⟨pc, mem⟩, -, rfl⟩ := Option.map_eq_some_iff.mp hstep
      exact h.frame rfl rfl rfl (fun t p => Trace.lined_receipts u t p)
        (fun t i => Trace.recorded_receipts u t i) (s.recordedIds_other fun _ _ heq => by cases heq)
    · cases hstep
  | master u a =>
    obtain ⟨⟨th, mem⟩, hmaster, rfl⟩ := Option.map_eq_some_iff.mp hstep
    obtain ⟨-, hlined, hrecorded⟩ := s.events_master u a
    constructor
    case lines =>
      intro t p
      rw [Trace.lined_append, hlined, List.map_append, ← h.lines]
      by_cases ht : t = u
      · subst ht
        simpa only [Function.update_self, if_true] using master_places hmaster p
      · simp only [Function.update_of_ne ht, if_neg (Ne.symm ht), List.map_nil, List.append_nil]
    case records =>
      intro t i
      rw [Trace.recorded_append, hrecorded, List.append_nil]
      exact h.records t i
    case ids =>
      rw [Trace.recordedIds_append, s.recordedIds_other (fun _ _ heq => by cases heq),
        List.append_nil]
      exact h.ids
  | worker u a =>
    obtain ⟨⟨th, mem⟩, hworker, rfl⟩ := Option.map_eq_some_iff.mp hstep
    obtain ⟨-, hlined, hrecorded⟩ := s.events_worker u a
    constructor
    case lines =>
      intro t p
      rw [Trace.lined_append, hlined, List.append_nil]
      exact h.lines t p
    case records =>
      intro t i
      rw [Trace.recorded_append, hrecorded]
      by_cases ht : t = u
      · subst ht
        obtain ⟨records, hplaced, hbuilt⟩ := worker_places hworker i
        rw [if_pos rfl]
        simp only [Function.update_self, hplaced]
        exact List.rel_append (h.records t i) hbuilt
      · rw [if_neg (Ne.symm ht), List.append_nil]
        simp only [Function.update_of_ne ht]
        exact h.records t i
    case ids =>
      rw [Trace.recordedIds_append, s.recordedIds_worker, ← h.ids]
      cases a <;> simp only [List.append_nil]
  | kill | rotateJson | rotateTemp =>
    cases hstep
    exact h.frame rfl rfl rfl (fun _ _ => rfl) (fun _ _ => rfl) rfl

/-- A RUN of the process places what its events say. -/
theorem placed_run_events {actions : List (PipelineAction ι κ ω δ)}
    (hrun : (processStep config reader builder).run (processStart config builder) actions =
      some s) :
    Placed reader builder s ((processStep config reader builder).outputs Pipeline.events
      (processStart config builder) actions) :=
  Step.outputs_induct (fun _ _ _ _ h hstep => h.step hstep)
    (placed_start config reader builder) hrun

end

/-! ## Where records come from -/

section

variable [DecidableEq ι] [DecidableEq κ] [DecidableEq ω] {config : PipelineConfig κ ω}
  {reader : PacketReader (Buffer δ) ℓ} {builder : ω → RecordBuilder σ (Buffer δ) ρ}
  {s : Pipeline ι κ ω δ ℓ σ ρ} {trace : Trace ι κ ω δ}

omit [DecidableEq ι] [DecidableEq κ] [DecidableEq ω] in
/-- No packet has two records. -/
theorem RecordsOnce.nodup (h : RecordsOnce s) : s.recorded.Nodup := by
  apply List.nodup_iff_count_le_one.mpr
  intro id
  by_cases hbuilding : ∃ t, id ∈ (s.workers t).building
  · obtain ⟨t, ht⟩ := hbuilding
    rw [(h.building t id ht).1]
    exact Nat.zero_le 1
  · rw [h.built id fun t ht => hbuilding ⟨t, ht⟩]
    exact h.once id

omit [DecidableEq ι] [DecidableEq κ] [DecidableEq ω] in
theorem held_processStart (builder : ω → RecordBuilder σ (Buffer δ) ρ) (T : Thread ι κ ω) :
    (processStart config builder : Pipeline ι κ ω δ ℓ σ ρ).held T = [] := by
  cases T with
  | receiver t => rfl
  | master t =>
    change (Master.start (config.master t) : Master (Buffer δ) ℓ).pc.held = []
    rw [Master.start]
    cases (config.master t).ring <;> rfl
  | worker t =>
    change (Worker.start (config.worker t) (builder t)).pc.held = []
    rw [Worker.start]
    split
    · exact (config.worker t).held_dequeueFrom 0 0
    · rfl

theorem pipelineInvariant_processStart (builder : ω → RecordBuilder σ (Buffer δ) ρ) :
    PipelineInvariant (processStart config builder : Pipeline ι κ ω δ ℓ σ ρ) fun _ => none := by
  constructor
  case located =>
    intro p id
    rw [if_neg nofun]
    cases p with
    | thread T =>
      change ((processStart config builder : Pipeline ι κ ω δ ℓ σ ρ).held T).countP _ = 0
      rw [held_processStart, List.countP_nil]
    | receiverRing k | workerRing r | freed => rfl
  case fresh => exact fun id _ => ⟨rfl, rfl⟩
  case upstream =>
    intro id p h
    cases h
  case records =>
    refine ⟨fun _ => Nat.zero_le 1, ?_, fun _ _ => rfl⟩
    intro t id hid
    rcases ((processStart config builder : Pipeline ι κ ω δ ℓ σ ρ).workers t).building_cases with
      hnone | ⟨pkt, -, hheld⟩
    · rw [hnone] at hid
      cases hid
    · cases (held_processStart builder (.worker t)).symm.trans hheld

/-- In a run no packet has two records. -/
theorem nodup_recorded [Nonempty ω] {actions : List (PipelineAction ι κ ω δ)}
    (hrun : (processStep config reader builder).run (processStart config builder) actions =
      some s) :
    s.recorded.Nodup := by
  obtain ⟨loc, h⟩ : ∃ loc, PipelineInvariant s loc := by
    refine Step.run_induct (I := fun s : Pipeline ι κ ω δ ℓ σ ρ => ∃ loc, PipelineInvariant s loc)
      ?_ ⟨_, pipelineInvariant_processStart builder⟩ hrun
    rintro s a s' ⟨loc, h⟩ hstep
    obtain ⟨t, hstep⟩ := exists_pipelineStep hstep
    obtain ⟨loc', hadvances⟩ := h.step hstep
    exact ⟨loc', hadvances.invariant⟩
  exact h.records.nodup

/-- The ring from which a worker takes packets of a plugin and a master is fed by this master for
this plugin only. -/
structure PrivateRings (config : PipelineConfig κ ω) (number : κ → Nat) : Prop where
  injective : Function.Injective number
  only : ∀ t p ring, config.Feeds t p ring → ∀ w i m, (config.worker w).ring_rxs i m = some ring →
    number t = m ∧ (config.worker w).plugins[i]? = some p

variable {number : κ → Nat}

/-- A packet of which a worker builds a record was lined by the master it came from, for the plugin
of the worker. -/
theorem OrderInvariant.lined_of_recorded (h : OrderInvariant config reader s trace)
    (hrings : PrivateRings config number) {w : ω} {i m : Nat} {pkt : Buffer δ}
    (hpkt : (m, pkt) ∈ trace.recorded w i) :
    ∃ t p, number t = m ∧ (config.worker w).plugins[i]? = some p ∧ pkt ∈ trace.lined t p := by
  have hmem : pkt ∈ ofMaster m (trace.recorded w i) :=
    List.mem_map.mpr ⟨(m, pkt), List.mem_filter.mpr ⟨hpkt, decide_eq_true rfl⟩, rfl⟩
  have hsource := (h.recorded w i m).sublist.subset hmem
  rw [WorkerConfig.source] at hsource
  cases hring : (config.worker w).ring_rxs i m with
  | none =>
    rw [hring] at hsource
    cases hsource
  | some ring =>
    rw [hring] at hsource
    have hentered := (s.mem.rings ring).relay.sublist.subset hsource
    obtain ⟨t, p, hfeeds, hlined⟩ := h.lined.fed ring pkt hentered
    obtain ⟨hnumber, hplugin⟩ := hrings.only t p ring hfeeds w i m hring
    exact ⟨t, p, hnumber, hplugin, hlined⟩

/-- A packet of which a master places the line was received, and the plugin listens to its
sender. -/
theorem OrderInvariant.received_of_lined (h : OrderInvariant config reader s trace)
    {t : κ} {p : Nat} {pkt : Buffer δ} (hpkt : pkt ∈ trace.lined t p) :
    (∃ u, pkt ∈ trace.received u) ∧
      pluginLookupWithIpDec (config.master t).plugin (reader.s_addr pkt) = some p := by
  refine ⟨?_, h.lined.listened t p pkt hpkt⟩
  have hsource := (h.lined.taken t p).sublist.subset hpkt
  rw [MasterConfig.source] at hsource
  split at hsource
  · next ring _ =>
    have hentered := (s.mem.receiver_rings ring).relay.sublist.subset hsource
    exact h.received.entered ring pkt hentered
  · cases hsource

/-- A worker builds records in the order in which the master placed the lines. -/
theorem OrderInvariant.recorded_sublist (h : OrderInvariant config reader s trace)
    (hrings : PrivateRings config number) {w : ω} {i p : Nat}
    (hplugin : (config.worker w).plugins[i]? = some p) (t : κ) :
    (ofMaster (number t) (trace.recorded w i)).Sublist (trace.lined t p) := by
  have hsource := (h.recorded w i (number t)).sublist
  rw [WorkerConfig.source] at hsource
  cases hring : (config.worker w).ring_rxs i (number t) with
  | none =>
    rw [hring] at hsource
    rw [List.sublist_nil.mp hsource]
    exact List.nil_sublist _
  | some ring =>
    rw [hring] at hsource
    have hhanded := h.lined.handed t p ring fun t' p' hfeeds => by
      obtain ⟨hnumber, hplugin'⟩ := hrings.only t' p' ring hfeeds w i _ hring
      exact ⟨hrings.injective hnumber, Option.some.inj (hplugin'.symm.trans hplugin)⟩
    exact hsource.trans ((s.mem.rings ring).relay.sublist.trans hhanded.sublist)

/-- A master places lines in the order in which a receiver got the packets. -/
theorem OrderInvariant.lined_sublist (h : OrderInvariant config reader s trace) {t : κ} {p : Nat}
    {u : ι} {pkts : List (Buffer δ)} (hpkts : pkts.Sublist (trace.lined t p))
    (hreceived : pkts ⊆ trace.received u) : pkts.Sublist (trace.received u) := by
  have hsource := hpkts.trans (h.lined.taken t p).sublist
  rw [MasterConfig.source] at hsource
  split at hsource
  · next ring _ =>
    exact (h.received.order u ring).sublist
      (hsource.trans (s.mem.receiver_rings ring).relay.sublist) hreceived
  · rw [List.sublist_nil.mp hsource]
    exact List.nil_sublist _

end

end LogCollector
