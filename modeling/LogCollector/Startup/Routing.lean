import LogCollector.Startup.Created

/-!
# Is every ring polled?

Four pieces of code have to agree on which ring a packet goes through: the
creation of the rings, the assignment of plugins to workers, the core a master
draws, and the name by which a master finds its receiver ring.

They do exactly where every plugin lists cores, each of them the core of one
worker, and the masters run on different cores (`routing_total_iff`). A plugin
for all other workers has no ring at all: the test before its rings are created
is never true, and rings created there would be in the copies of the workers
where no master looks (`nondedicated_unrouted`).
-/

namespace LogCollector

/-- The worker takes packets from the ring. -/
def WorkerConfig.Polls (config : WorkerConfig) (ring : Nat) : Prop :=
  ∃ i < config.plugins.length, ∃ m < config.nb_masters, config.ring_rxs i m = some ring

/-- Every packet can reach a worker that has its plugin. -/
structure RoutingTotal {κ ω : Type} (config : PipelineConfig κ ω) : Prop where
  /-- Each ring a receiver can draw is polled by exactly one master. -/
  received : ∀ ring < config.receiver_ring_cnt, ∃! t, (config.master t).ring = some ring
  /-- The ring a master draws for a plugin exists and is polled by exactly one
  worker, which has the plugin. -/
  chosen : ∀ t p plgn, (config.master t).plugin[p]? = some plgn → ∀ draw, ∃ ring,
    plgn.ring_rxs (plgn.ringIndex (config.master t).nb_slaves draw) = some ring ∧
      (∃! w, (config.worker w).Polls ring) ∧
      ∀ w, (config.worker w).Polls ring → p ∈ (config.worker w).plugins
  /-- Each ring a worker polls exists. -/
  polled : ∀ w, ∀ i < (config.worker w).plugins.length, ∀ m < (config.worker w).nb_masters,
    ((config.worker w).ring_rxs i m).isSome

/-- The command lines and plugin tables that are routed. -/
structure RoutesAll (core_conf : List Core) (table : PluginTable) : Prop where
  /-- The masters run on different cores. -/
  masters : (masterThreadCores core_conf).Nodup
  /-- No plugin is for all other workers. -/
  dedicated : ∀ p ∈ table.entries, p.all_nondedicated_cores = false
  listed : ∀ p ∈ table.entries, p.core_ids ≠ []
  /-- Each core a plugin lists is the core of exactly one worker. -/
  served : ∀ p ∈ table.entries, ∀ core_id ∈ p.core_ids,
    ∃! w : Nat, (slaveThreadCores core_conf)[w]? = some core_id
  /-- The names of its rings fit in `ring_name` and its cores in `ring_rxs`. -/
  inBounds : ∀ p ∈ table.entries,
    ∀ round ∈ dedicatedRounds (masterCoreCount core_conf) p, round.InBounds p
  /-- The lists name no core of a worker more often than it can take plugins. -/
  room : ∀ core_id ∈ slaveThreadCores core_conf,
    (table.entries.map fun p => p.core_ids.count core_id).sum ≤ MAX_PLUGIN_CNT

/-! ## Starting up -/

theorem nondedicatedPlugins_eq_nil {plugin : List (PluginEntry × RingTable)}
    (h : ∀ p ∈ plugin.map Prod.fst, p.all_nondedicated_cores = false) :
    nondedicatedPlugins plugin = [] := by
  apply List.eq_nil_iff_forall_not_mem.mpr
  rintro ⟨index, rings⟩ hmem
  obtain ⟨p, hplugin, hall⟩ := mem_nondedicatedPlugins.mp hmem
  have := h p (List.mem_map_of_mem (List.mem_of_getElem? hplugin))
  rw [hall] at this
  cases this

/-- Without plugins for all other workers a worker has a copy for each time a list
names its core. -/
theorem length_workerPlugins {plugin : List (PluginEntry × RingTable)} {entries : List PluginEntry}
    (hentries : plugin.map Prod.fst = entries)
    (hdedicated : ∀ p ∈ entries, p.all_nondedicated_cores = false) (core_id : Int32) :
    (workerPlugins plugin core_id).length =
      (entries.map fun p => p.core_ids.count core_id).sum := by
  have hlength : (dedicatedPlugins plugin core_id).length =
      (entries.map fun p => p.core_ids.count core_id).sum := by
    rw [length_dedicatedPlugins, hentries]
    refine congrArg List.sum (List.map_congr_left ?_)
    intro p hp
    rw [hdedicated p hp]
    rfl
  rw [workerPlugins, nondedicatedPlugins_eq_nil (hentries ▸ hdedicated)]
  split
  · next hnil => rw [← hlength, hnil]
  · exact hlength

/-- `main` gets its rings to the loops where it stays inside its arrays. -/
theorem RoutesAll.startUp {options : List (CoreRole × CStr)} {table : PluginTable}
    {core_conf : List Core} (h : RoutesAll core_conf table)
    (haccept : acceptCommandLine options = some core_conf) :
    ∃ s, startUp options table = some s := by
  have hcreated : ∀ entry ∈ table.entries.zipIdx,
      ((createRingsDedicatedThreads (masterCoreCount core_conf) entry.2 entry.1).map
        (entry.1, ·)).isSome := by
    rintro ⟨p, index⟩ hmem
    rw [Option.isSome_map]
    exact createRings_isSome.mpr (h.inBounds p (List.fst_mem_of_mem_zipIdx hmem))
  obtain ⟨plugin, hplugin⟩ := Lib.Fallible.mapM_isSome hcreated
  have hentries := (ringsCreated hplugin).entries
  have hassigned : ∀ core_id ∈ slaveThreadCores core_conf,
      (assignPluginsToWorker plugin core_id).isSome := by
    intro core_id hcore
    have hroom : (workerPlugins plugin core_id).length ≤ MAX_PLUGIN_CNT := by
      rw [length_workerPlugins hentries h.dedicated]
      exact h.room core_id hcore
    rw [assignPluginsToWorker, if_pos hroom]
    rfl
  obtain ⟨sthreads, hsthreads⟩ := Lib.Fallible.mapM_isSome hassigned
  exact ⟨_, Option.bind_eq_some_iff.mpr ⟨core_conf, haccept, Option.bind_eq_some_iff.mpr
    ⟨plugin, hplugin, Option.map_eq_some_iff.mpr ⟨sthreads, hsthreads, rfl⟩⟩⟩⟩

/-! ## Receiver rings -/

section

variable {core_conf : List Core} {table : PluginTable} {s : Started}

theorem receiverRingName_injective : Function.Injective receiverRingName := fun _ _ h =>
  Int32.toInt_inj.mp (CStr.ofInt_injective (CStr.append_right_injective _ h))

/-- A master takes the first receiver ring with the name of its core. -/
theorem StartedWith.ring_eq (h : StartedWith core_conf table s) (t : Fin s.mthreads.length)
    (ring : Nat) : (s.masterConfig t).ring = some ring ↔
      ∃ hring : ring < s.mthreads.length, s.mthreads[ring] = s.mthreads[t] ∧
        ∀ j (hj : j < ring), s.mthreads[j] ≠ s.mthreads[t] := by
  have hname : (fun name => decide (name = receiverRingName s.mthreads[t])) ∘ receiverRingName =
      fun core_id => decide (core_id = s.mthreads[t]) := by
    funext core_id
    exact decide_eq_decide.mpr receiverRingName_injective.eq_iff
  rw [Started.masterConfig]
  simp only [h.receiver_rings, List.findIdx?_map, hname, List.findIdx?_eq_some_iff_getElem,
    decide_eq_true_eq, ne_eq]

/-- Every receiver ring is polled by one master exactly where the masters run on
different cores. -/
theorem StartedWith.received_iff (h : StartedWith core_conf table s) :
    (∀ ring < s.receiver_rings.length, ∃! t, (s.masterConfig t).ring = some ring) ↔
      s.mthreads.Nodup := by
  rw [h.receiver_rings, List.length_map, List.nodup_iff_injective_get]
  constructor
  · intro hreceived
    -- of two rings with one name no master finds the second
    have hfirst {i j : Nat} (hj : j < s.mthreads.length) (hij : i < j)
        (heq : s.mthreads[i] = s.mthreads[j]) : False := by
      obtain ⟨t, ht, -⟩ := hreceived j hj
      obtain ⟨_, hname, hbefore⟩ := (h.ring_eq t j).mp ht
      exact hbefore i hij (heq.trans hname)
    intro i j heq
    rcases Nat.lt_trichotomy i j with hij | hij | hij
    · exact (hfirst j.isLt hij heq).elim
    · exact Fin.ext hij
    · exact (hfirst i.isLt hij heq.symm).elim
  · intro hinj ring hring
    refine ⟨⟨ring, hring⟩, (h.ring_eq _ ring).mpr ⟨hring, rfl, ?_⟩,
      ?_⟩
    · intro j hj heq
      have : (⟨j, hj.trans hring⟩ : Fin s.mthreads.length) = ⟨ring, hring⟩ := hinj heq
      exact absurd (congrArg Fin.val this) hj.ne
    · intro t ht
      obtain ⟨_, hname, -⟩ := (h.ring_eq t ring).mp ht
      have : (⟨ring, hring⟩ : Fin s.mthreads.length) = t := hinj hname
      exact this.symm

/-! ## Worker rings -/

/-- The rings of a plugin go with it to the workers. -/
theorem StartedWith.mem_plugins (h : StartedWith core_conf table s) {w : Fin s.sthreads.length}
    {index : Nat} {rings : RingTable} :
    (index, rings) ∈ (s.sthreads.get w).plugins ↔
      (index, rings) ∈ workerPlugins s.plugin (s.sthreads.get w).core_id := by
  rw [(assignPluginsToWorker_eq (h.assigned (s.sthreads.get w) (List.get_mem _ w))).2.1]

theorem exists_of_mem_workerPlugins {plugin : List (PluginEntry × RingTable)} {core_id : Int32}
    {index : Nat} {rings : RingTable} (h : (index, rings) ∈ workerPlugins plugin core_id) :
    ∃ p, plugin[index]? = some (p, rings) := by
  rw [workerPlugins] at h
  split at h
  · obtain ⟨p, hplugin, -⟩ := mem_nondedicatedPlugins.mp h
    exact ⟨p, hplugin⟩
  · obtain ⟨p, hplugin, -⟩ := mem_dedicatedPlugins.mp h
    exact ⟨p, hplugin⟩

/-- A worker whose core a plugin lists has the plugin. -/
theorem mem_workerPlugins_of_listed {plugin : List (PluginEntry × RingTable)} {core_id : Int32}
    {index : Nat} {p : PluginEntry} {rings : RingTable}
    (hplugin : plugin[index]? = some (p, rings)) (hall : p.all_nondedicated_cores = false)
    (hcore : core_id ∈ p.core_ids) : (index, rings) ∈ workerPlugins plugin core_id := by
  have hmem := mem_dedicatedPlugins.mpr ⟨p, hplugin, hall, hcore⟩
  rw [workerPlugins, if_neg (List.ne_nil_of_mem hmem)]
  exact hmem

/-- A worker polls the ring of a plugin and a core where this is its core. -/
theorem StartedWith.polls_iff (h : StartedWith core_conf table s) {index : Nat} {p : PluginEntry}
    {rings : RingTable} (hplugin : s.plugin[index]? = some (p, rings)) {round : RingRound}
    (hround : round ∈ dedicatedRounds s.mthreads.length p) {site : RingSite}
    (hsite : rings (coreIndex round.core_id) round.master = some site)
    (w : Fin s.sthreads.length) :
    (s.workerConfig w).Polls site.number ↔ (s.sthreads.get w).core_id = round.core_id := by
  have hcreate := h.plugin.getElem hplugin
  have hbounds := (inBounds_of_createRings hcreate round hround).2
  constructor
  · rintro ⟨i, -, m, -, hring⟩
    obtain ⟨⟨index', rings'⟩, hcopy, hring⟩ := Option.bind_eq_some_iff.mp hring
    obtain ⟨site', hsite', heq⟩ := Option.map_eq_some_iff.mp hring
    cases RingSite.number_injective heq
    obtain ⟨p', hplugin'⟩ :=
      exists_of_mem_workerPlugins (h.mem_plugins.mp (List.mem_of_getElem? hcopy))
    -- the two tables hold the ring, so it was created in the same round
    obtain ⟨r, hr, hrcore, -, hrsite⟩ := site_of_createRings hcreate hsite
    obtain ⟨r', hr', hrcore', -, hrsite'⟩ :=
      site_of_createRings (h.plugin.getElem hplugin') hsite'
    rw [hrsite] at hrsite'
    obtain ⟨rfl, hi, -⟩ := RingSite.dedicated.inj hrsite'
    obtain ⟨rfl, rfl⟩ := Prod.mk.inj (Option.some.inj (hplugin.symm.trans hplugin'))
    have hsame := (mem_dedicatedRounds.mp hr).2.2
    rw [hi, (mem_dedicatedRounds.mp hr').2.2] at hsame
    rw [Option.some.inj hsame, hrcore] at hrcore'
    exact coreIndex_injective hbounds hrcore'.symm
  · intro hcore
    obtain ⟨hmaster, hall, hlisted⟩ := mem_dedicatedRounds.mp hround
    have hmem := h.mem_plugins.mpr (mem_workerPlugins_of_listed hplugin hall
      (hcore ▸ List.mem_of_getElem? hlisted))
    obtain ⟨i, hi⟩ := List.mem_iff_getElem?.mp hmem
    refine ⟨i, ?_, round.master, hmaster, ?_⟩
    · rw [Started.workerConfig, List.length_map]
      exact (List.getElem?_eq_some_iff.mp hi).1
    · show ((s.sthreads.get w).plugins[i]?.bind fun copy => Option.map RingSite.number
        (copy.2 (coreIndex (s.sthreads.get w).core_id) round.master)) = some site.number
      rw [hi, Option.bind_some, hcore]
      exact congrArg (Option.map RingSite.number) hsite

/-- The core a master draws is one the plugin lists. -/
theorem ringIndex_mem {plgn : RoutedPlugin} (hlisted : plgn.core_ids ≠ []) (nb_slaves draw : Nat) :
    ∃ i : Nat, plgn.core_ids[i]? = some (plgn.ringIndex nb_slaves draw) := by
  have hpos := List.length_pos_iff.mpr hlisted
  refine ⟨draw % plgn.core_ids.length, ?_⟩
  have hlt := Nat.mod_lt draw hpos
  rw [RoutedPlugin.ringIndex, if_pos hpos.ne', List.getD_eq_getElem?_getD,
    List.getElem?_eq_getElem hlt, Option.getD_some]

/-- Every core a plugin lists can be drawn. -/
theorem ringIndex_of_getElem {plgn : RoutedPlugin} {i core : Nat}
    (h : plgn.core_ids[i]? = some core) (nb_slaves : Nat) : plgn.ringIndex nb_slaves i = core := by
  obtain ⟨hlt, hcore⟩ := List.getElem?_eq_some_iff.mp h
  rw [RoutedPlugin.ringIndex, if_pos (by omega), Nat.mod_eq_of_lt hlt,
    List.getD_eq_getElem?_getD, h, Option.getD_some]

/-- Exactly one worker polls the ring of a plugin and a core where this is the
core of exactly one worker. -/
theorem StartedWith.polled_once_iff (h : StartedWith core_conf table s) {index : Nat}
    {p : PluginEntry} {rings : RingTable} (hplugin : s.plugin[index]? = some (p, rings))
    {round : RingRound} (hround : round ∈ dedicatedRounds s.mthreads.length p) {site : RingSite}
    (hsite : rings (coreIndex round.core_id) round.master = some site) :
    (∃! w, (s.workerConfig w).Polls site.number) ↔
      ∃! w : Nat, (slaveThreadCores core_conf)[w]? = some round.core_id := by
  have hcore (w : Nat) : (slaveThreadCores core_conf)[w]? = some round.core_id ↔
      ∃ hw : w < s.sthreads.length, s.sthreads[w].core_id = round.core_id := by
    rw [← h.cores, List.getElem?_map, Option.map_eq_some_iff]
    constructor
    · rintro ⟨th, hth, hcore⟩
      obtain ⟨hw, rfl⟩ := List.getElem?_eq_some_iff.mp hth
      exact ⟨hw, hcore⟩
    · rintro ⟨hw, hcore⟩
      exact ⟨_, List.getElem?_eq_getElem hw, hcore⟩
  simp only [h.polls_iff hplugin hround hsite, hcore]
  constructor
  · rintro ⟨w, hw, hunique⟩
    exact ⟨w, ⟨w.isLt, hw⟩, fun w' ⟨hlt, hw'⟩ => congrArg Fin.val (hunique ⟨w', hlt⟩ hw')⟩
  · rintro ⟨w, ⟨hlt, hw⟩, hunique⟩
    exact ⟨⟨w, hlt⟩, hw, fun w' hw' => Fin.ext (hunique w' ⟨w'.isLt, hw'⟩)⟩

/-- What `main_loop` reads of a plugin is what the plugin table holds. -/
theorem StartedWith.routed (t : Fin s.mthreads.length) {index : Nat} {plgn : RoutedPlugin} :
    (s.masterConfig t).plugin[index]? = some plgn ↔
      ∃ p rings, s.plugin[index]? = some (p, rings) ∧ plgn = routedPlugin t (p, rings) := by
  rw [Started.masterConfig, List.getElem?_map, Option.map_eq_some_iff]
  constructor
  · rintro ⟨⟨p, rings⟩, hplugin, rfl⟩
    exact ⟨p, rings, hplugin, rfl⟩
  · rintro ⟨p, rings, hplugin, rfl⟩
    exact ⟨(p, rings), hplugin, rfl⟩

end

/-! ## Routing -/

/-- What the plugin files and the command line have to say for the process to be
routed. -/
theorem StartedWith.routesAll {core_conf : List Core} {table : PluginTable} {s : Started}
    (h : StartedWith core_conf table s) (hmasters : 0 < s.mthreads.length)
    (htotal : RoutingTotal s.pipelineConfig) : RoutesAll core_conf table := by
  have hlength : s.mthreads.length = masterCoreCount core_conf := by
    rw [h.mthreads, length_masterThreadCores]
  -- the first master finds a ring for every plugin, so the plugin lists its core
  have hround {p : PluginEntry} (hp : p ∈ table.entries) :
      ∃ round, round ∈ dedicatedRounds s.mthreads.length p := by
    obtain ⟨index, rings, hplugin⟩ := h.plugin.exists_rings hp
    obtain ⟨ring, hring, -⟩ := htotal.chosen ⟨0, hmasters⟩ index _
      (StartedWith.routed _ |>.mpr ⟨p, rings, hplugin, rfl⟩) 0
    obtain ⟨site, hsite, -⟩ := Option.map_eq_some_iff.mp hring
    obtain ⟨round, hround, -⟩ := site_of_createRings (h.plugin.getElem hplugin) hsite
    exact ⟨round, hround⟩
  have hdedicated : ∀ p ∈ table.entries, p.all_nondedicated_cores = false := by
    intro p hp
    obtain ⟨round, hround⟩ := hround hp
    exact (mem_dedicatedRounds.mp hround).2.1
  constructor
  case masters =>
    rw [← h.mthreads]
    exact h.received_iff.mp htotal.received
  case dedicated => exact hdedicated
  case listed =>
    intro p hp hnil
    obtain ⟨round, hround⟩ := hround hp
    have := (mem_dedicatedRounds.mp hround).2.2
    rw [hnil] at this
    cases this
  case served =>
    intro p hp core_id hcore
    obtain ⟨index, rings, hplugin⟩ := h.plugin.exists_rings hp
    obtain ⟨i, hi⟩ := List.mem_iff_getElem?.mp hcore
    -- the draw `i` picks this core
    obtain ⟨ring, hring, hpolled, -⟩ := htotal.chosen ⟨0, hmasters⟩ index _
      (StartedWith.routed _ |>.mpr ⟨p, rings, hplugin, rfl⟩) i
    have hdraw : (routedPlugin 0 (p, rings)).core_ids[i]? = some (coreIndex core_id) := by
      simp [routedPlugin, hi]
    rw [ringIndex_of_getElem hdraw] at hring
    obtain ⟨site, hsite, rfl⟩ := Option.map_eq_some_iff.mp hring
    have hround : (⟨0, i, core_id⟩ : RingRound) ∈ dedicatedRounds s.mthreads.length p :=
      mem_dedicatedRounds.mpr ⟨hmasters, hdedicated p hp, hi⟩
    exact (h.polled_once_iff hplugin hround hsite).mp hpolled
  case inBounds =>
    intro p hp
    obtain ⟨index, rings, hplugin⟩ := h.plugin.exists_rings hp
    rw [← hlength]
    exact inBounds_of_createRings (h.plugin.getElem hplugin)
  case room =>
    intro core_id hcore
    rw [← h.cores] at hcore
    obtain ⟨th, hth, rfl⟩ := List.mem_map.mp hcore
    rw [← length_workerPlugins h.plugin.entries hdedicated]
    exact (assignPluginsToWorker_eq (h.assigned th hth)).2.2

/-- A process with such plugin files and such a command line is routed. -/
theorem StartedWith.routingTotal {core_conf : List Core} {table : PluginTable} {s : Started}
    (h : StartedWith core_conf table s) (hroutes : RoutesAll core_conf table) :
    RoutingTotal s.pipelineConfig := by
  constructor
  case received =>
    apply h.received_iff.mpr
    rw [h.mthreads]
    exact hroutes.masters
  case chosen =>
    intro t index plgn hplgn draw
    obtain ⟨p, rings, hplugin, rfl⟩ := (StartedWith.routed t).mp hplgn
    have hp := h.plugin.mem hplugin
    have hall := hroutes.dedicated p hp
    have hlisted : (routedPlugin t (p, rings)).core_ids ≠ [] :=
      List.map_eq_nil_iff.not.mpr (hroutes.listed p hp)
    obtain ⟨i, hi⟩ := ringIndex_mem hlisted s.sthreads.length draw
    rw [routedPlugin, List.getElem?_map] at hi
    obtain ⟨core_id, hcore, hindex⟩ := Option.map_eq_some_iff.mp hi
    let round : RingRound := ⟨t, i, core_id⟩
    have hround : round ∈ dedicatedRounds s.mthreads.length p :=
      mem_dedicatedRounds.mpr ⟨t.isLt, hall, hcore⟩
    obtain ⟨site, hsite⟩ := Option.isSome_iff_exists.mp
      (createRings_of_mem (h.plugin.getElem hplugin) hround)
    have hring : (routedPlugin t (p, rings)).ring_rxs (coreIndex core_id) = some site.number :=
      congrArg (Option.map RingSite.number) hsite
    have hmem : round.core_id ∈ p.core_ids := List.mem_of_getElem? hcore
    refine ⟨site.number, hindex ▸ hring, (h.polled_once_iff hplugin hround hsite).mpr
      (hroutes.served p hp core_id hmem), ?_⟩
    intro w hpolls
    have hw := (h.polls_iff hplugin hround hsite w).mp hpolls
    have hplugins := h.mem_plugins.mpr
      (mem_workerPlugins_of_listed hplugin hall (hw.symm ▸ hmem))
    exact List.mem_map_of_mem (f := Prod.fst) hplugins
  case polled =>
    intro w i hi m hm
    have hi : i < s.sthreads[w].plugins.length := by
      simpa only [Started.pipelineConfig, Started.workerConfig, List.length_map] using hi
    -- no plugin is for all other workers, so some list names the core of this one
    have hmem := h.mem_plugins.mp (List.getElem_mem hi)
    rw [workerPlugins, nondedicatedPlugins_eq_nil (h.plugin.entries ▸ hroutes.dedicated)] at hmem
    split at hmem
    · cases hmem
    · obtain ⟨p, hplugin, hall, hcore⟩ := mem_dedicatedPlugins.mp hmem
      obtain ⟨j, hj⟩ := List.mem_iff_getElem?.mp hcore
      have hround : (⟨m, j, _⟩ : RingRound) ∈ dedicatedRounds s.mthreads.length p :=
        mem_dedicatedRounds.mpr ⟨hm, hall, hj⟩
      have hsite := createRings_of_mem (h.plugin.getElem hplugin) hround
      simp only [Started.pipelineConfig, Started.workerConfig, List.getElem?_eq_getElem hi,
        Option.bind_some, Option.isSome_map]
      exact hsite

/-- THE ROUTED CONFIGURATIONS: the rings of a process are created and routed exactly
where its command line is accepted and its plugin files list cores as they have
to. -/
theorem routing_total_iff (options : List (CoreRole × CStr)) (table : PluginTable) :
    (∃ s, startUp options table = some s ∧ RoutingTotal s.pipelineConfig) ↔
      ∃ core_conf, acceptCommandLine options = some core_conf ∧ RoutesAll core_conf table := by
  constructor
  · rintro ⟨s, hs, htotal⟩
    obtain ⟨core_conf, haccept, h⟩ := startedWith_of_startUp hs
    have hmasters : 0 < s.mthreads.length := by
      rw [h.mthreads, length_masterThreadCores]
      exact (acceptCommandLine_counts haccept).2.1
    exact ⟨core_conf, haccept, h.routesAll hmasters htotal⟩
  · rintro ⟨core_conf, haccept, hroutes⟩
    obtain ⟨s, hs⟩ := hroutes.startUp haccept
    obtain ⟨core_conf', haccept', h⟩ := startedWith_of_startUp hs
    cases haccept.symm.trans haccept'
    exact ⟨s, hs, h.routingTotal hroutes⟩

/-- `-s 0 -m 1,2 -c 3,4`. -/
def twoByTwo : List (CoreRole × CStr) :=
  [(.receiver, .lit "0"), (.master, .lit "1,2"), (.slave, .lit "3,4")]

/-- The first plugin is for both workers and the second for one of them. -/
def sharedTable : PluginTable where
  entries := [⟨.lit "fortigate.plugin", [3, 4], false, 1⟩, ⟨.lit "citrix.plugin", [3], false, 2⟩]
  fits := by decide

theorem routing_total_shared :
    ∃ s, startUp twoByTwo sharedTable = some s ∧ RoutingTotal s.pipelineConfig := by
  refine (routing_total_iff twoByTwo sharedTable).mpr
    ⟨[⟨.receiver, 0⟩, ⟨.master, 1⟩, ⟨.master, 2⟩, ⟨.slave, 3⟩, ⟨.slave, 4⟩], by decide, ?_⟩
  constructor
  case masters => decide
  case dedicated => simp [sharedTable]
  case listed => simp [sharedTable]
  case served =>
    have hcores : slaveThreadCores
        [⟨.receiver, 0⟩, ⟨.master, 1⟩, ⟨.master, 2⟩, ⟨.slave, 3⟩, ⟨.slave, 4⟩] = [3, 4] := by
      decide
    -- the cores of the workers are different, so each is that of one worker
    have honly {core_id : Int32} (hcore : core_id ∈ [3, 4]) :
        ∃! w : Nat, ([3, 4] : List Int32)[w]? = some core_id := by
      obtain ⟨w, hw⟩ := List.mem_iff_getElem?.mp hcore
      have hnodup : ([3, 4] : List Int32).Nodup := by decide
      refine ⟨w, hw, fun w' hw' => ?_⟩
      have hlt := (List.getElem?_eq_some_iff.mp hw').1
      exact (List.getElem?_inj hlt hnodup).mp (hw'.trans hw.symm)
    rw [hcores]
    intro p hp core_id hcore
    refine honly ?_
    rcases List.mem_cons.mp hp with rfl | hp
    · exact hcore
    · cases List.mem_singleton.mp hp
      exact List.mem_cons.mpr (.inl (List.mem_singleton.mp hcore))
  case inBounds => decide
  case room =>
    simp [slaveThreadCores, receiverCoreCount, masterCoreCount, slaveCoreCount, sharedTable,
      MAX_PLUGIN_CNT]

/-! ## A plugin for all other workers -/

/-- Every plugin lists cores given with `-c`, or is for all other workers while
some worker is dedicated to no plugin. -/
def WellListed (core_conf : List Core) (table : PluginTable) : Prop :=
  ∀ p ∈ table.entries,
    (p.all_nondedicated_cores = false ∧
        ∀ core_id ∈ p.core_ids, ⟨.slave, core_id⟩ ∈ core_conf) ∨
      (p.all_nondedicated_cores = true ∧ ∃ core ∈ core_conf, core.role = .slave ∧
        ∀ q ∈ table.entries, q.all_nondedicated_cores = false → core.core_id ∉ q.core_ids)

/-- `-s 0 -m 1 -c 2,3`. -/
def twoSlaves : List (CoreRole × CStr) :=
  [(.receiver, .lit "0"), (.master, .lit "1"), (.slave, .lit "2,3")]

/-- One plugin for core 2 and one for all other workers. -/
def mixedTable : PluginTable where
  entries := [
    { filename := .lit "fortigate.plugin"
      core_ids := [2]
      all_nondedicated_cores := false
      ip_dec := 1 },
    { filename := .lit "citrix.plugin"
      core_ids := []
      all_nondedicated_cores := true
      ip_dec := 2 }]
  fits := by decide

/-- The worker on core 3 is dedicated to no plugin, but no packet of the second
plugin reaches it. -/
theorem nondedicated_unrouted :
    (∃ core_conf, acceptCommandLine twoSlaves = some core_conf ∧
        WellListed core_conf mixedTable) ∧
      (startUp twoSlaves mixedTable).isSome ∧
      ¬ ∃ s, startUp twoSlaves mixedTable = some s ∧ RoutingTotal s.pipelineConfig := by
  refine ⟨⟨[⟨.receiver, 0⟩, ⟨.master, 1⟩, ⟨.slave, 2⟩, ⟨.slave, 3⟩], by decide, ?_⟩, by decide, ?_⟩
  · intro p hp
    rcases List.mem_cons.mp hp with rfl | hp
    · exact .inl ⟨rfl, by simp⟩
    · cases List.mem_singleton.mp hp
      exact .inr ⟨rfl, ⟨.slave, 3⟩, by simp, rfl, by simp [mixedTable]⟩
  · rintro ⟨s, hs, htotal⟩
    obtain ⟨core_conf, haccept, h⟩ := startedWith_of_startUp hs
    have hmasters : 0 < s.mthreads.length := by
      rw [h.mthreads, length_masterThreadCores]
      exact (acceptCommandLine_counts haccept).2.1
    exact absurd ((h.routesAll hmasters htotal).dedicated _
      (List.mem_cons_of_mem _ List.mem_cons_self)) nofun

end LogCollector
