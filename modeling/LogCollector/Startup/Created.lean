import LogCollector.Startup.Rings

/-!
# What `main` leaves to the loops

The rings a plugin has and the plugins a worker has, read off the loops that
create and copy them, and what is known of a process once `main` has started its
threads (`StartedWith`).
-/

namespace LogCollector

/-! ## The rings of a plugin -/

theorem coreIndex_injective {core_id core_id' : Int32}
    (hbounds : 0 ≤ core_id.toInt ∧ core_id.toInt < MAX_CORE_NUM)
    (h : coreIndex core_id' = coreIndex core_id) : core_id' = core_id := by
  rw [coreIndex, coreIndex, if_pos hbounds] at h
  split at h
  · exact Int32.toInt_inj.mp (by omega)
  · omega

theorem mem_dedicatedRounds {nb_masters : Nat} {p : PluginEntry} {round : RingRound} :
    round ∈ dedicatedRounds nb_masters p ↔ round.master < nb_masters ∧
      p.all_nondedicated_cores = false ∧ p.core_ids[round.i]? = some round.core_id := by
  obtain ⟨master, i, core_id⟩ := round
  rw [dedicatedRounds, List.mem_flatMap]
  cases hall : p.all_nondedicated_cores with
  | true => simp
  | false =>
    simp only [List.mem_range, Bool.false_eq_true, if_false, List.mem_map, Prod.exists,
      List.mem_zipIdx_iff_getElem?, RingRound.mk.injEq]
    constructor
    · rintro ⟨_, hmaster, _, _, hcore, rfl, rfl, rfl⟩
      exact ⟨hmaster, trivial, hcore⟩
    · rintro ⟨hmaster, -, hcore⟩
      exact ⟨master, hmaster, core_id, i, hcore, rfl, rfl, rfl⟩

section

variable {nb_masters index : Nat} {p : PluginEntry} {rings : RingTable}

theorem createRings_isSome : (createRingsDedicatedThreads nb_masters index p).isSome ↔
    ∀ round ∈ dedicatedRounds nb_masters p, round.InBounds p := by
  apply Lib.Fallible.foldlM_isSome_iff
  intro rings round
  rw [createRing]
  split
  · next h => exact iff_of_true rfl h
  · next h => exact iff_of_false nofun h

theorem inBounds_of_createRings
    (h : createRingsDedicatedThreads nb_masters index p = some rings) :
    ∀ round ∈ dedicatedRounds nb_masters p, round.InBounds p :=
  createRings_isSome.mp (Option.isSome_iff_exists.mpr ⟨rings, h⟩)

theorem createRing_eq {rings' : RingTable} {round : RingRound}
    (h : createRing index p rings round = some rings') :
    rings' = rings.set (coreIndex round.core_id) round.master
      (.dedicated index round.i round.master) := by
  rw [createRing] at h
  split at h
  · exact (Option.some.inj h).symm
  · cases h

/-- A ring is where a round has put it. -/
theorem site_of_createRings (h : createRingsDedicatedThreads nb_masters index p = some rings)
    {core master : Nat} {site : RingSite} (hsite : rings core master = some site) :
    ∃ round ∈ dedicatedRounds nb_masters p, coreIndex round.core_id = core ∧
      round.master = master ∧ site = .dedicated index round.i master := by
  refine Lib.Fallible.foldlM_induct (I := fun rings => ∀ core master site,
    rings core master = some site → ∃ round ∈ dedicatedRounds nb_masters p,
      coreIndex round.core_id = core ∧ round.master = master ∧
        site = .dedicated index round.i master) ?_ nofun h core master site hsite
  intro rings round rings' hround hrings hcreate core master site hsite
  rw [createRing_eq hcreate, RingTable.set] at hsite
  split at hsite
  · next heq =>
    obtain ⟨rfl, rfl⟩ := heq
    exact ⟨round, hround, rfl, rfl, (Option.some.inj hsite).symm⟩
  · exact hrings core master site hsite

/-- Every round has put a ring. -/
theorem createRings_of_mem (h : createRingsDedicatedThreads nb_masters index p = some rings)
    {round : RingRound} (hround : round ∈ dedicatedRounds nb_masters p) :
    (rings (coreIndex round.core_id) round.master).isSome := by
  refine Lib.Fallible.foldlM_of_mem
    (P := fun rings => (rings (coreIndex round.core_id) round.master).isSome) ?_ ?_ hround h
  · intro rings rings' hcreate
    rw [createRing_eq hcreate, RingTable.set, if_pos ⟨rfl, rfl⟩]
    rfl
  · intro rings round' rings' hrings hcreate
    rw [createRing_eq hcreate, RingTable.set]
    split
    · rfl
    · exact hrings

end

/-! ## The plugins of a worker -/

theorem mem_dedicatedPlugins {plugin : List (PluginEntry × RingTable)} {core_id : Int32}
    {index : Nat} {rings : RingTable} :
    (index, rings) ∈ dedicatedPlugins plugin core_id ↔ ∃ p, plugin[index]? = some (p, rings) ∧
      p.all_nondedicated_cores = false ∧ core_id ∈ p.core_ids := by
  simp only [dedicatedPlugins, List.mem_flatMap, Prod.exists, List.mem_zipIdx_iff_getElem?]
  constructor
  · rintro ⟨p, rings', index', hplugin, hmem⟩
    split at hmem
    · cases hmem
    · next hall =>
      obtain ⟨hcount, heq⟩ := List.mem_replicate.mp hmem
      obtain ⟨rfl, rfl⟩ := Prod.mk.inj heq
      exact ⟨p, hplugin, by simpa using hall, List.count_pos_iff.mp (Nat.pos_of_ne_zero hcount)⟩
  · rintro ⟨p, hplugin, hall, hcore⟩
    refine ⟨p, rings, index, hplugin, ?_⟩
    rw [hall]
    exact List.mem_replicate.mpr ⟨(List.count_pos_iff.mpr hcore).ne', rfl⟩

theorem mem_nondedicatedPlugins {plugin : List (PluginEntry × RingTable)} {index : Nat}
    {rings : RingTable} :
    (index, rings) ∈ nondedicatedPlugins plugin ↔ ∃ p, plugin[index]? = some (p, rings) ∧
      p.all_nondedicated_cores = true := by
  simp only [nondedicatedPlugins, List.mem_map, List.mem_filter, Prod.exists,
    List.mem_zipIdx_iff_getElem?, Prod.mk.injEq]
  constructor
  · rintro ⟨p, rings', index', ⟨hplugin, hall⟩, rfl, rfl⟩
    exact ⟨p, hplugin, hall⟩
  · rintro ⟨p, hplugin, hall⟩
    exact ⟨p, rings, index, ⟨hplugin, hall⟩, rfl, rfl⟩

/-- `create_rings_nondedicated_threads` creates no ring. -/
theorem createRingsNondedicatedThreads_eq (nb_masters : Nat) (sthreads : List WorkerThread)
    (worker k : Nat) (rings : RingTable) :
    createRingsNondedicatedThreads nb_masters sthreads worker k rings = rings := by
  simp only [createRingsNondedicatedThreads, rowIsNull, Bool.false_eq_true, and_false, if_false,
    List.foldl_fixed]

/-- A loop that leaves every element as it is. -/
theorem mapIdx_eq_self {α : Type} {f : Nat → α → α} (h : ∀ i x, f i x = x) (xs : List α) :
    xs.mapIdx f = xs := by
  refine List.ext_getElem? ?_
  intro i
  rw [List.getElem?_mapIdx]
  cases xs[i]? with
  | none => rfl
  | some x => exact congrArg some (h i x)

theorem createRingsOfWorker_eq (nb_masters : Nat) (sthreads : List WorkerThread) (worker : Nat)
    (th : WorkerThread) : createRingsOfWorker nb_masters sthreads worker th = th := by
  rw [createRingsOfWorker]
  split
  · rfl
  · rw [mapIdx_eq_self fun k copy => by rw [createRingsNondedicatedThreads_eq]]

/-- How many copies `assign_plugins_to_workers` makes for a dedicated worker. -/
theorem length_dedicatedPlugins (plugin : List (PluginEntry × RingTable)) (core_id : Int32) :
    (dedicatedPlugins plugin core_id).length = ((plugin.map Prod.fst).map fun p =>
      if p.all_nondedicated_cores then 0 else p.core_ids.count core_id).sum := by
  have hlength : (fun entry : (PluginEntry × RingTable) × Nat =>
      (if entry.1.1.all_nondedicated_cores then []
        else List.replicate (entry.1.1.core_ids.count core_id) (entry.2, entry.1.2)).length) =
      (fun p : PluginEntry => if p.all_nondedicated_cores then 0 else p.core_ids.count core_id) ∘
        Prod.fst ∘ Prod.fst := by
    funext entry
    simp only [Function.comp_apply]
    split
    · rfl
    · exact List.length_replicate
  rw [dedicatedPlugins, List.length_flatMap, hlength, ← List.map_map, ← List.map_map,
    List.zipIdx_map_fst]

/-! ## A process that has started -/

/-- The plugin table after its rings were created. -/
structure RingsCreated (nb_masters : Nat) (table : PluginTable)
    (plugin : List (PluginEntry × RingTable)) : Prop where
  getElem : ∀ {index : Nat} {p : PluginEntry} {rings : RingTable},
    plugin[index]? = some (p, rings) →
      createRingsDedicatedThreads nb_masters index p = some rings
  entries : plugin.map Prod.fst = table.entries

theorem ringsCreated {nb_masters : Nat} {table : PluginTable}
    {plugin : List (PluginEntry × RingTable)}
    (h : (table.entries.zipIdx.mapM fun entry =>
      (createRingsDedicatedThreads nb_masters entry.2 entry.1).map (entry.1, ·)) = some plugin) :
    RingsCreated nb_masters table plugin := by
  have hentry (index : Nat) : plugin[index]?.map some = table.entries[index]?.map fun p =>
      (createRingsDedicatedThreads nb_masters index p).map (p, ·) := by
    rw [Lib.Fallible.getElem?_mapM h, List.getElem?_zipIdx, Option.map_map, Nat.zero_add]
    rfl
  constructor
  case getElem =>
    intro index p rings hplugin
    have := hentry index
    rw [hplugin] at this
    obtain ⟨p', -, hmap⟩ := Option.map_eq_some_iff.mp this.symm
    obtain ⟨rings', hrings, heq⟩ := Option.map_eq_some_iff.mp hmap
    obtain ⟨rfl, rfl⟩ := Prod.mk.inj heq
    exact hrings
  case entries =>
    refine List.ext_getElem? ?_
    intro index
    have := hentry index
    rw [List.getElem?_map]
    cases hp : table.entries[index]? with
    | none =>
      rw [hp] at this
      rw [Option.map_eq_none_iff.mp this, Option.map_none]
    | some p =>
      rw [hp, Option.map_some] at this
      obtain ⟨entry, hplugin, heq⟩ := Option.map_eq_some_iff.mp this
      obtain ⟨rings, -, rfl⟩ := Option.map_eq_some_iff.mp heq.symm
      rw [hplugin, Option.map_some]

theorem RingsCreated.exists_rings {nb_masters : Nat} {table : PluginTable}
    {plugin : List (PluginEntry × RingTable)} (h : RingsCreated nb_masters table plugin)
    {p : PluginEntry} (hp : p ∈ table.entries) :
    ∃ (index : Nat) (rings : RingTable), plugin[index]? = some (p, rings) := by
  rw [← h.entries] at hp
  obtain ⟨⟨p, rings⟩, hmem, rfl⟩ := List.mem_map.mp hp
  obtain ⟨index, hindex⟩ := List.mem_iff_getElem?.mp hmem
  exact ⟨index, rings, hindex⟩

theorem RingsCreated.mem {nb_masters : Nat} {table : PluginTable}
    {plugin : List (PluginEntry × RingTable)} (h : RingsCreated nb_masters table plugin)
    {index : Nat} {p : PluginEntry} {rings : RingTable}
    (hplugin : plugin[index]? = some (p, rings)) : p ∈ table.entries := by
  rw [← h.entries]
  exact List.mem_map_of_mem (List.mem_of_getElem? hplugin)

/-- What is known of a process that was started with these cores and plugins. -/
structure StartedWith (core_conf : List Core) (table : PluginTable) (s : Started) : Prop where
  mthreads : s.mthreads = masterThreadCores core_conf
  receiver_rings : s.receiver_rings = s.mthreads.map receiverRingName
  plugin : RingsCreated s.mthreads.length table s.plugin
  cores : s.sthreads.map WorkerThread.core_id = slaveThreadCores core_conf
  assigned : ∀ th ∈ s.sthreads, assignPluginsToWorker s.plugin th.core_id = some th

theorem assignPluginsToWorker_eq {plugin : List (PluginEntry × RingTable)} {core_id : Int32}
    {th : WorkerThread} (h : assignPluginsToWorker plugin core_id = some th) :
    th.core_id = core_id ∧ th.plugins = workerPlugins plugin core_id ∧
      (workerPlugins plugin core_id).length ≤ MAX_PLUGIN_CNT := by
  rw [assignPluginsToWorker] at h
  split at h
  · next hroom =>
    cases h
    exact ⟨rfl, rfl, hroom⟩
  · cases h

/-- What `main` does. -/
theorem startedWith_of_startUp {options : List (CoreRole × CStr)} {table : PluginTable}
    {s : Started} (h : startUp options table = some s) :
    ∃ core_conf, acceptCommandLine options = some core_conf ∧ StartedWith core_conf table s := by
  obtain ⟨core_conf, haccept, h⟩ := Option.bind_eq_some_iff.mp h
  obtain ⟨plugin, hplugin, h⟩ := Option.bind_eq_some_iff.mp h
  obtain ⟨sthreads, hsthreads, rfl⟩ := Option.map_eq_some_iff.mp h
  have hself : sthreads.mapIdx (createRingsOfWorker (masterCoreCount core_conf) sthreads) =
      sthreads := mapIdx_eq_self (createRingsOfWorker_eq _ _) _
  refine ⟨core_conf, haccept, ?_⟩
  constructor
  case mthreads => rfl
  case receiver_rings => rfl
  case plugin =>
    rw [length_masterThreadCores]
    exact ringsCreated hplugin
  case cores =>
    rw [hself]
    refine List.ext_getElem? ?_
    intro w
    have := Lib.Fallible.getElem?_mapM hsthreads w
    rw [List.getElem?_map]
    cases hcore : (slaveThreadCores core_conf)[w]? with
    | none =>
      rw [hcore] at this
      rw [Option.map_eq_none_iff.mp this, Option.map_none]
    | some core_id =>
      rw [hcore, Option.map_some] at this
      obtain ⟨th, hth, heq⟩ := Option.map_eq_some_iff.mp this
      rw [hth, Option.map_some, (assignPluginsToWorker_eq heq.symm).1]
  case assigned =>
    rw [hself]
    intro th hth
    have hmem := List.mem_map_of_mem (f := some) hth
    rw [← Lib.Fallible.mapM_eq_some.mp hsthreads] at hmem
    obtain ⟨core_id, -, hassign⟩ := List.mem_map.mp hmem
    rw [(assignPluginsToWorker_eq hassign).1]
    exact hassign

end LogCollector
