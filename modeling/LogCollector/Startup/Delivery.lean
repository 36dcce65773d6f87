import LogCollector.Loops.Files
import LogCollector.Startup.Routing

/-!
# What a process delivers

A ring that `create_rings_dedicated_threads` makes is for one master and one plugin, and no other
code makes one. So in a process that `main` has started, a record is in the file of the plugin that
listens to the sender, and a file has the packets of a receiver and a master in order.

The loops use a ring as a queue, which it is for one producer and one consumer
(`ring_refines_queue`) and for more of them is not (`ring_loses_object`). Two receivers share every
receiver ring, and threads that were given one core share the rings that have its name or its
number. What is said here is said of the processes in which no two threads do (`SeparateCores`).
-/

namespace LogCollector

/-! ## Rings with one thread at each end -/

/-- One receiver, and no core given to two masters or to two workers. -/
structure SeparateCores (core_conf : List Core) : Prop where
  receivers : receiverCoreCount core_conf = 1
  masters : (masterThreadCores core_conf).Nodup
  workers : (slaveThreadCores core_conf).Nodup

/-- Each ring has one thread at most that puts packets into it and one at most that takes them out.
Every receiver puts packets into every receiver ring. -/
structure OneToOne (ι : Type) {κ ω : Type} (config : PipelineConfig κ ω) : Prop where
  receivers : Subsingleton ι
  masters : ∀ t t' ring, (config.master t).ring = some ring →
    (config.master t').ring = some ring → t = t'
  feeders : ∀ t t' p p' ring, config.Feeds t p ring → config.Feeds t' p' ring → t = t'
  workers : ∀ w w' ring, (config.worker w).Polls ring → (config.worker w').Polls ring → w = w'

section

variable {core_conf : List Core} {table : PluginTable} {s : Started}

/-- The ring that a master feeds was created in a round for this master. -/
theorem StartedWith.exists_round (h : StartedWith core_conf table s) {t : Fin s.mthreads.length}
    {index ring : Nat} (hfed : s.pipelineConfig.Feeds t index ring) :
    ∃ p rings round site, s.plugin[index]? = some (p, rings) ∧
      round ∈ dedicatedRounds s.mthreads.length p ∧ round.master = t.val ∧
      rings (coreIndex round.core_id) round.master = some site ∧
      site = .dedicated index round.i t ∧ site.number = ring := by
  obtain ⟨plgn, core, hplgn, hring⟩ := hfed
  obtain ⟨p, rings, hplugin, rfl⟩ := (StartedWith.routed t).mp hplgn
  obtain ⟨site, hsite, rfl⟩ := Option.map_eq_some_iff.mp hring
  obtain ⟨round, hround, rfl, hmaster, hdedicated⟩ :=
    site_of_createRings (h.plugin.getElem hplugin) hsite
  rw [← hmaster] at hsite
  exact ⟨p, rings, round, site, hplugin, hround, hmaster, hsite, hdedicated, rfl⟩

/-- A ring that a worker polls is fed by a master. -/
theorem StartedWith.exists_feeder (h : StartedWith core_conf table s) {w : Fin s.sthreads.length}
    {ring : Nat} (hpolled : (s.workerConfig w).Polls ring) :
    ∃ t index, s.pipelineConfig.Feeds t index ring := by
  obtain ⟨i, -, m, hm, hring⟩ := hpolled
  obtain ⟨⟨index, rings⟩, hcopy, hring⟩ := Option.bind_eq_some_iff.mp hring
  obtain ⟨p, hplugin⟩ := exists_of_mem_workerPlugins (h.mem_plugins.mp (List.mem_of_getElem? hcopy))
  exact ⟨⟨m, hm⟩, index, _, _, (StartedWith.routed _).mpr ⟨p, rings, hplugin, rfl⟩, hring⟩

/-- NO TWO THREADS AT ONE END of a ring, in a process with separate cores. -/
theorem StartedWith.oneToOne (h : StartedWith core_conf table s)
    (hcores : SeparateCores core_conf) :
    OneToOne (Fin (receiverCoreCount core_conf)) s.pipelineConfig where
  receivers := by
    rw [hcores.receivers]
    exact inferInstance
  masters := by
    intro t t' ring ht ht'
    obtain ⟨_, hname, -⟩ := (h.ring_eq t ring).mp ht
    obtain ⟨_, hname', -⟩ := (h.ring_eq t' ring).mp ht'
    have hnodup : s.mthreads.Nodup := h.mthreads ▸ hcores.masters
    exact List.nodup_iff_injective_get.mp hnodup (hname.symm.trans hname')
  feeders := by
    intro t t' p p' ring hfed hfed'
    obtain ⟨-, -, round, site, -, -, -, -, hsite, hnumber⟩ := h.exists_round hfed
    obtain ⟨-, -, round', site', -, -, -, -, hsite', hnumber'⟩ := h.exists_round hfed'
    have heq := RingSite.number_injective (hnumber.trans hnumber'.symm)
    rw [hsite, hsite'] at heq
    exact Fin.ext (RingSite.dedicated.inj heq).2.2
  workers := by
    intro w w' ring hpolled hpolled'
    obtain ⟨t, index, hfed⟩ := h.exists_feeder hpolled
    obtain ⟨p, rings, round, site, hplugin, hround, -, hsite, -, rfl⟩ := h.exists_round hfed
    have hcore := (h.polls_iff hplugin hround hsite w).mp hpolled
    have hcore' := (h.polls_iff hplugin hround hsite w').mp hpolled'
    have hnodup : (s.sthreads.map WorkerThread.core_id).Nodup := h.cores ▸ hcores.workers
    have hinjective := List.inj_on_of_nodup_map hnodup
    have hthread : s.sthreads.get w = s.sthreads.get w' :=
      hinjective (List.get_mem _ w) (List.get_mem _ w') (hcore.trans hcore'.symm)
    exact List.nodup_iff_injective_get.mp hnodup.of_map hthread

/-- The rings of a started process are private. -/
theorem StartedWith.privateRings (h : StartedWith core_conf table s) :
    PrivateRings s.pipelineConfig Fin.val where
  injective := Fin.val_injective
  only := by
    intro t p ring hfed w i m hpolled
    obtain ⟨-, -, round, site, -, -, -, -, hround, rfl⟩ := h.exists_round hfed
    obtain ⟨⟨p', rings'⟩, hcopy, hpolled⟩ := Option.bind_eq_some_iff.mp hpolled
    obtain ⟨site', hsite', heq⟩ := Option.map_eq_some_iff.mp hpolled
    obtain ⟨entry', hplugin'⟩ :=
      exists_of_mem_workerPlugins (h.mem_plugins.mp (List.mem_of_getElem? hcopy))
    obtain ⟨round', -, -, -, hround'⟩ := site_of_createRings (h.plugin.getElem hplugin') hsite'
    rw [RingSite.number_injective heq, hround] at hround'
    obtain ⟨rfl, -, hmaster⟩ := RingSite.dedicated.inj hround'
    refine ⟨hmaster, ?_⟩
    change (s.sthreads[w].plugins.map Prod.fst)[i]? = some p
    rw [List.getElem?_map, hcopy]
    rfl

end

/-! ## Runs of a process -/

section

variable {δ ℓ σ ρ : Type} {options : List (CoreRole × CStr)} {core_conf : List Core}
  {table : PluginTable} {s : Started}

/-- What the threads of a process do: a receiver for each core of `-s`, and the masters and workers
that `main` has started. -/
abbrev Started.Action (s : Started) (core_conf : List Core) (δ : Type) :=
  PipelineAction (Fin (receiverCoreCount core_conf)) (Fin s.mthreads.length)
    (Fin s.sthreads.length) δ

/-- The threads of the process and their memory. -/
abbrev Started.State (s : Started) (core_conf : List Core) (δ ℓ σ ρ : Type) :=
  Pipeline (Fin (receiverCoreCount core_conf)) (Fin s.mthreads.length) (Fin s.sthreads.length)
    δ ℓ σ ρ

/-- The events of a run of the process. -/
def Started.trace (s : Started) (reader : PacketReader (Buffer δ) ℓ)
    (builder : Fin s.sthreads.length → RecordBuilder σ (Buffer δ) ρ)
    (actions : List (s.Action core_conf δ)) :
    Trace (Fin (receiverCoreCount core_conf)) (Fin s.mthreads.length) (Fin s.sthreads.length) δ :=
  (processStep s.pipelineConfig reader builder).outputs Pipeline.events
    (processStart s.pipelineConfig builder) actions

/-- A process that `main` has started has a worker. -/
theorem StartedWith.nonempty_workers (h : StartedWith core_conf table s)
    (haccept : acceptCommandLine options = some core_conf) : Nonempty (Fin s.sthreads.length) := by
  have hcount := congrArg List.length h.cores
  rw [List.length_map, length_slaveThreadCores] at hcount
  refine ⟨⟨0, ?_⟩⟩
  rw [hcount]
  exact (acceptCommandLine_counts haccept).2.2

/-- The cores of the command line are those of the process. -/
theorem startedWith_of_accept (haccept : acceptCommandLine options = some core_conf)
    (hstart : startUp options table = some s) : StartedWith core_conf table s := by
  obtain ⟨core_conf', haccept', h⟩ := startedWith_of_startUp hstart
  cases haccept.symm.trans haccept'
  exact h

/-- EACH RECORD IS OF A RECEIVED DATAGRAM AND IN THE RIGHT FILE, and no datagram has two records: in
every run of every process that `main` starts on separate cores, where each ring has one producer
and one consumer, what a worker has written and still holds for a plugin are the records of packets
that were received, whose senders this plugin listens to, and of which a master has placed the line
for this plugin. -/
theorem records_delivered (haccept : acceptCommandLine options = some core_conf)
    (hcores : SeparateCores core_conf) (hstart : startUp options table = some s)
    (reader : PacketReader (Buffer δ) ℓ)
    (builder : Fin s.sthreads.length → RecordBuilder σ (Buffer δ) ρ)
    {actions : List (s.Action core_conf δ)} {c : s.State core_conf δ ℓ σ ρ}
    (hrun : (processStep s.pipelineConfig reader builder).run
      (processStart s.pipelineConfig builder) actions = some c) :
    OneToOne (Fin (receiverCoreCount core_conf)) s.pipelineConfig ∧
      (∀ w i, List.Forall₂ (fun e => (builder w).Builds i e.2)
        ((s.trace reader builder actions).recorded w i)
        (((c.workers w).wb i).written.map Prod.snd ++ ((c.workers w).wb i).wb.items)) ∧
      (s.trace reader builder actions).recordedIds.Nodup ∧
      ∀ w i m pkt, (m, pkt) ∈ (s.trace reader builder actions).recorded w i →
        (∃ u, pkt ∈ (s.trace reader builder actions).received u) ∧
        ∃ t p, t.val = m ∧ (s.workerConfig w).plugins[i]? = some p ∧
          pkt ∈ (s.trace reader builder actions).lined t p ∧
          pluginLookupWithIpDec (s.masterConfig t).plugin (reader.s_addr pkt) = some p := by
  have hstarted := startedWith_of_accept haccept hstart
  have hworkers := hstarted.nonempty_workers haccept
  have horder : OrderInvariant s.pipelineConfig reader c (s.trace reader builder actions) :=
    orderInvariant_run hrun
  have hplaced : Placed reader builder c (s.trace reader builder actions) := placed_run_events hrun
  refine ⟨hstarted.oneToOne hcores, ?_, ?_, ?_⟩
  · intro w i
    rw [((c.workers w).wb i).conserved]
    exact hplaced.records w i
  · rw [← hplaced.ids]
    exact nodup_recorded hrun
  · intro w i m pkt hpkt
    obtain ⟨t, p, hm, hplugin, hlined⟩ := horder.lined_of_recorded hstarted.privateRings hpkt
    obtain ⟨hreceived, hlistened⟩ := horder.received_of_lined hlined
    exact ⟨hreceived, t, p, hm, hplugin, hlined, hlistened⟩

/-- The process of `nondedicated_unrouted`. -/
def mixedStarted : Started := (startUp twoSlaves mixedTable).get (by decide)

theorem mixedStarted_eq : startUp twoSlaves mixedTable = some mixedStarted :=
  (Option.some_get _).symm

/-- Its cores. -/
def mixedCores : List Core := [⟨.receiver, 0⟩, ⟨.master, 1⟩, ⟨.slave, 2⟩, ⟨.slave, 3⟩]

theorem mixedCores_eq : acceptCommandLine twoSlaves = some mixedCores := by decide

theorem mixedCores_separate : SeparateCores mixedCores := ⟨by decide, by decide, by decide⟩

/-- Its receiver, its master and its first worker. -/
def mixedReceiver : Fin (receiverCoreCount mixedCores) := ⟨0, by decide⟩

def mixedMaster : Fin mixedStarted.mthreads.length := ⟨0, by decide⟩

def mixedWorker : Fin mixedStarted.sthreads.length := ⟨0, by decide⟩

/-- Each of its workers records the senders. -/
def mixedBuilder (_ : Fin mixedStarted.sthreads.length) :
    RecordBuilder Unit (Buffer UInt32) UInt32 := bufferBuilder

/-- Two datagrams from the sender of the first plugin; the worker has got to the first. -/
def twoDatagrams : List (mixedStarted.Action mixedCores UInt32) :=
  [.receiver mixedReceiver .test, .receiver mixedReceiver (.recvfrom (some ⟨0, 1⟩)),
    .receiver mixedReceiver (.enqueue 0), .master mixedMaster .dequeue,
    .master mixedMaster .lookup, .master mixedMaster (.place 0),
    .receiver mixedReceiver .test, .receiver mixedReceiver (.recvfrom (some ⟨1, 1⟩)),
    .receiver mixedReceiver (.enqueue 0), .master mixedMaster (.enqueue 0),
    .master mixedMaster (.fileTimer false), .master mixedMaster .dequeue,
    .master mixedMaster .lookup, .master mixedMaster (.place 0),
    .worker mixedWorker (.dequeue 0 0), .worker mixedWorker (.process 0 0)]

theorem records_delivered_mixed : ∃ c : mixedStarted.State mixedCores UInt32 UInt32 Unit UInt32,
    (processStep mixedStarted.pipelineConfig bufferReader mixedBuilder).run
      (processStart mixedStarted.pipelineConfig mixedBuilder) twoDatagrams = some c ∧
    ∃ t p, t.val = 0 ∧ (mixedStarted.workerConfig mixedWorker).plugins[0]? = some p ∧
      ⟨0, 1⟩ ∈ (mixedStarted.trace bufferReader mixedBuilder twoDatagrams).lined t p ∧
      pluginLookupWithIpDec (mixedStarted.masterConfig t).plugin 1 = some p := by
  obtain ⟨c, hrun⟩ : ∃ c, (processStep mixedStarted.pipelineConfig bufferReader mixedBuilder).run
      (processStart mixedStarted.pipelineConfig mixedBuilder) twoDatagrams = some c :=
    Option.isSome_iff_exists.mp rfl
  have hrecorded : (0, ⟨0, 1⟩) ∈
      (mixedStarted.trace bufferReader mixedBuilder twoDatagrams).recorded mixedWorker 0 :=
    List.mem_of_getElem? (i := 0) rfl
  obtain ⟨-, -, -, hdelivered⟩ := records_delivered mixedCores_eq mixedCores_separate
    mixedStarted_eq bufferReader mixedBuilder hrun
  exact ⟨c, hrun, (hdelivered mixedWorker 0 0 ⟨0, 1⟩ hrecorded).2⟩

/-- THE FILES KEEP THE ORDER OF ARRIVAL: in every run of every process that `main` starts on
separate cores, where each ring has one producer and one consumer, what a master has written and
still holds for a plugin are the lines of packets in the order in which the receiver got them, and
a worker of the plugin builds the records of the packets from one master in the order of the
lines. -/
theorem files_keep_order (haccept : acceptCommandLine options = some core_conf)
    (hcores : SeparateCores core_conf) (hstart : startUp options table = some s)
    (reader : PacketReader (Buffer δ) ℓ)
    (builder : Fin s.sthreads.length → RecordBuilder σ (Buffer δ) ρ)
    {actions : List (s.Action core_conf δ)} {c : s.State core_conf δ ℓ σ ρ}
    (hrun : (processStep s.pipelineConfig reader builder).run
      (processStart s.pipelineConfig builder) actions = some c) :
    OneToOne (Fin (receiverCoreCount core_conf)) s.pipelineConfig ∧
      (∀ t p, ((c.masters t).wb p).written.map Prod.snd ++ ((c.masters t).wb p).wb.items =
        ((s.trace reader builder actions).lined t p).map reader.line) ∧
      (∀ t p u, ((s.trace reader builder actions).lined t p).Sublist
        ((s.trace reader builder actions).received u)) ∧
      ∀ (t : Fin s.mthreads.length) p w i, (s.workerConfig w).plugins[i]? = some p →
        (ofMaster t ((s.trace reader builder actions).recorded w i)).Sublist
          ((s.trace reader builder actions).lined t p) := by
  have hstarted := startedWith_of_accept haccept hstart
  have hworkers := hstarted.nonempty_workers haccept
  have horder : OrderInvariant s.pipelineConfig reader c (s.trace reader builder actions) :=
    orderInvariant_run hrun
  have hplaced : Placed reader builder c (s.trace reader builder actions) := placed_run_events hrun
  have halone := hstarted.oneToOne hcores
  refine ⟨halone, ?_, ?_, ?_⟩
  · intro t p
    rw [((c.masters t).wb p).conserved]
    exact hplaced.lines t p
  · intro t p u
    refine horder.lined_sublist (List.Sublist.refl _) ?_
    intro pkt hlined
    -- there is no other receiver
    obtain ⟨⟨u', hreceived⟩, -⟩ := horder.received_of_lined hlined
    have := halone.receivers
    rwa [Subsingleton.elim u u']
  · intro t p w i hplugin
    exact horder.recorded_sublist hstarted.privateRings hplugin t

theorem files_keep_order_mixed : ∃ c : mixedStarted.State mixedCores UInt32 UInt32 Unit UInt32,
    (processStep mixedStarted.pipelineConfig bufferReader mixedBuilder).run
      (processStart mixedStarted.pipelineConfig mixedBuilder) twoDatagrams = some c ∧
    ((c.masters mixedMaster).wb 0).written.map Prod.snd ++
      ((c.masters mixedMaster).wb 0).wb.items = [1, 1] ∧
    List.Sublist [⟨0, 1⟩, ⟨1, 1⟩]
      ((mixedStarted.trace bufferReader mixedBuilder twoDatagrams).received mixedReceiver) := by
  obtain ⟨c, hrun⟩ : ∃ c, (processStep mixedStarted.pipelineConfig bufferReader mixedBuilder).run
      (processStart mixedStarted.pipelineConfig mixedBuilder) twoDatagrams = some c :=
    Option.isSome_iff_exists.mp rfl
  have hlined : (mixedStarted.trace bufferReader mixedBuilder twoDatagrams).lined mixedMaster 0 =
      [⟨0, 1⟩, ⟨1, 1⟩] := rfl
  obtain ⟨-, hlines, horder, -⟩ := files_keep_order mixedCores_eq mixedCores_separate
    mixedStarted_eq bufferReader mixedBuilder hrun
  refine ⟨c, hrun, ?_, ?_⟩
  · rw [hlines, hlined]
    rfl
  · rw [← hlined]
    exact horder mixedMaster 0 mixedReceiver

end

end LogCollector
