import LogCollector.Lib.Fallible
import LogCollector.Loops.Pipeline
import LogCollector.Startup.CommandLine

/-!
# Rings and the plugins of the workers

What `main` does about rings and plugins before it starts the loops. The rings
between masters and workers are created in the plugin table for the cores each
plugin lists (`create_rings_dedicated_threads`), the table is copied to the
workers (`assign_plugins_to_workers`), and for plugins that go to all other
workers rings are to be created in these copies
(`create_rings_nondedicated_threads`). Each master has a receiver ring, which it
finds by its name.

`main` does more, and may end there: it checks the key, compiles the regexes of
each copy (`compile_and_study_regexes`), copies the strings of a plugin and its
regexes (`strdup` crashes on one that no row has set), and binds the threads to
their cores. None of that makes or moves a ring, and it is left out: a process
is taken to get past it.

`Started.pipelineConfig` is what the three loops are then started with.
-/

namespace LogCollector

def MAX_PLUGIN_CNT : Nat := 32

/-- `sizeof ring_name`. -/
def RING_NAME_SIZE : Nat := 32

/-- The members of `struct plugin_t` on which its rings and its workers depend. -/
structure PluginEntry where
  filename : CStr
  /-- `core_ids[0 .. core_id_num)`. -/
  core_ids : List Int32
  all_nondedicated_cores : Bool
  ip_dec : UInt32

/-- `plugin[0 .. plugin_cnt)`, after the plugin files were read. -/
structure PluginTable where
  entries : List PluginEntry
  fits : entries.length ≤ MAX_PLUGIN_CNT

/-- The ring a call of `ring_create` returned, as where it was created: for entry
`i` of the core list of a plugin, or for a core in copy `k` of a worker. -/
inductive RingSite
  | dedicated (plugin i master : Nat)
  | nondedicated (worker k core master : Nat)
deriving DecidableEq

/-- The number of a ring. -/
def RingSite.number : RingSite → Nat
  | .dedicated plugin i master => 2 * Nat.pair plugin (Nat.pair i master)
  | .nondedicated worker k core master =>
    2 * Nat.pair worker (Nat.pair k (Nat.pair core master)) + 1

theorem RingSite.number_injective : Function.Injective RingSite.number := by
  intro site site' h
  cases site <;> cases site' <;> simp only [number] at h
  · have := (Nat.mul_right_inj (by decide)).mp h
    simp only [Nat.pair_eq_pair] at this
    obtain ⟨rfl, rfl, rfl⟩ := this
    rfl
  · omega
  · omega
  · have := (Nat.mul_right_inj (by decide)).mp (Nat.succ_inj.mp h)
    simp only [Nat.pair_eq_pair] at this
    obtain ⟨rfl, rfl, rfl, rfl⟩ := this
    rfl

/-- `ring_rxs[core][master]`; NULL is `none`. -/
abbrev RingTable := Nat → Nat → Option RingSite

namespace RingTable

/-- As `calloc` leaves it. -/
def null : RingTable := fun _ _ => none

def set (rings : RingTable) (core master : Nat) (site : RingSite) : RingTable :=
  fun core' master' =>
    if core' = core ∧ master' = master then some site else rings core' master'

end RingTable

/-- The row of a core. A core outside the array has one that holds no ring. -/
def coreIndex (core_id : Int32) : Nat :=
  if 0 ≤ core_id.toInt ∧ core_id.toInt < MAX_CORE_NUM then core_id.toInt.toNat else MAX_CORE_NUM

/-! ## `create_rings_dedicated_threads` -/

/-- One round of its loops over the masters and the cores of a plugin. -/
structure RingRound where
  master : Nat
  i : Nat
  core_id : Int32

/-- The rounds for a plugin, in order. -/
def dedicatedRounds (nb_masters : Nat) (p : PluginEntry) : List RingRound :=
  (List.range nb_masters).flatMap fun master =>
    if p.all_nondedicated_cores then []
    else p.core_ids.zipIdx.map fun entry => { master, i := entry.2, core_id := entry.1 }

/-- `ring_rx_%d_%s_%d`; the name of the ring for the other direction is as
long. -/
def ringRxName (master : Nat) (filename : CStr) (core_id : Int32) : CStr :=
  .lit "ring_rx_" ++ .ofInt master ++ .lit "_" ++ filename ++ .lit "_" ++ .ofInt core_id.toInt

/-- A round stays inside `ring_name` and `ring_rxs`. -/
def RingRound.InBounds (p : PluginEntry) (round : RingRound) : Prop :=
  (ringRxName round.master p.filename round.core_id).strlen < RING_NAME_SIZE ∧
    0 ≤ round.core_id.toInt ∧ round.core_id.toInt < MAX_CORE_NUM

instance (p : PluginEntry) (round : RingRound) : Decidable (round.InBounds p) :=
  inferInstanceAs (Decidable (_ ∧ _))

/-- The body of the loops, for the plugin at `index`. -/
def createRing (index : Nat) (p : PluginEntry) (rings : RingTable) (round : RingRound) :
    Option RingTable :=
  if round.InBounds p then
    some (rings.set (coreIndex round.core_id) round.master
      (.dedicated index round.i round.master))
  else none

/-- `create_rings_dedicated_threads`. -/
def createRingsDedicatedThreads (nb_masters index : Nat) (p : PluginEntry) : Option RingTable :=
  (dedicatedRounds nb_masters p).foldlM (createRing index p) .null

/-! ## `assign_plugins_to_workers` -/

/-- What `main` gives to a worker: its core, and the plugins with their tables of
rings. -/
structure WorkerThread where
  core_id : Int32
  dedicated : Bool
  plugins : List (Nat × RingTable)

/-- The copies of the loop over the plugins with a core list, one each time a
list names the core. -/
def dedicatedPlugins (plugin : List (PluginEntry × RingTable)) (core_id : Int32) :
    List (Nat × RingTable) :=
  plugin.zipIdx.flatMap fun entry =>
    if entry.1.1.all_nondedicated_cores then []
    else List.replicate (entry.1.1.core_ids.count core_id) (entry.2, entry.1.2)

/-- The copies of the loop over the plugins for all other workers. -/
def nondedicatedPlugins (plugin : List (PluginEntry × RingTable)) : List (Nat × RingTable) :=
  (plugin.zipIdx.filter fun entry => entry.1.1.all_nondedicated_cores).map fun entry =>
    (entry.2, entry.1.2)

/-- The plugins of a worker. It is dedicated where some list names its core. -/
def workerPlugins (plugin : List (PluginEntry × RingTable)) (core_id : Int32) :
    List (Nat × RingTable) :=
  if dedicatedPlugins plugin core_id = [] then nondedicatedPlugins plugin
  else dedicatedPlugins plugin core_id

/-- `assign_plugins_to_workers` for one worker; `none` past the end of
`plugins`. -/
def assignPluginsToWorker (plugin : List (PluginEntry × RingTable)) (core_id : Int32) :
    Option WorkerThread :=
  if (workerPlugins plugin core_id).length ≤ MAX_PLUGIN_CNT then
    some
      { core_id
        dedicated := dedicatedPlugins plugin core_id ≠ []
        plugins := workerPlugins plugin core_id }
  else none

/-! ## `create_rings_nondedicated_threads` -/

/-- `p->ring_rxs[core_id] == NULL`. This compares the address of a row of an
array, which is never NULL. -/
def rowIsNull (_rings : RingTable) (_core_id : Int32) : Bool := false

/-- `create_rings_nondedicated_threads` on copy `k` of a worker. -/
def createRingsNondedicatedThreads (nb_masters : Nat) (sthreads : List WorkerThread)
    (worker k : Nat) (rings : RingTable) : RingTable :=
  (List.range nb_masters).foldl
    (fun rings master =>
      sthreads.foldl
        (fun rings th =>
          if ¬ th.dedicated ∧ rowIsNull rings th.core_id then
            rings.set (coreIndex th.core_id) master
              (.nondedicated worker k (coreIndex th.core_id) master)
          else rings)
        rings)
    rings

/-- The loop of `main` over the workers and their plugins. -/
def createRingsOfWorker (nb_masters : Nat) (sthreads : List WorkerThread) (worker : Nat)
    (th : WorkerThread) : WorkerThread :=
  if th.dedicated then th
  else
    { th with
      plugins := th.plugins.mapIdx fun k copy =>
        (copy.1, createRingsNondedicatedThreads nb_masters sthreads worker k copy.2) }

/-! ## `main` -/

/-- The process when its loops start. -/
structure Started where
  mthreads : List Int32
  sthreads : List WorkerThread
  receiver_rings : List CStr
  plugin : List (PluginEntry × RingTable)

/-- `ring_rec_%d`. -/
def receiverRingName (core_id : Int32) : CStr := .lit "ring_rec_" ++ .ofInt core_id.toInt

/-- `main`, from the command line and the plugin table to the start of the
loops, as far as rings go; `none` where this part of it exits or leaves the
bounds of an array. -/
def startUp (options : List (CoreRole × CStr)) (table : PluginTable) : Option Started :=
  (acceptCommandLine options).bind fun core_conf =>
    let nb_masters := masterCoreCount core_conf
    (table.entries.zipIdx.mapM fun entry =>
        (createRingsDedicatedThreads nb_masters entry.2 entry.1).map (entry.1, ·)).bind
      fun plugin =>
        ((slaveThreadCores core_conf).mapM (assignPluginsToWorker plugin)).map fun sthreads =>
          { mthreads := masterThreadCores core_conf
            sthreads := sthreads.mapIdx (createRingsOfWorker nb_masters sthreads)
            receiver_rings := (masterThreadCores core_conf).map receiverRingName
            plugin }

/-- What master `t` reads of a plugin. -/
def routedPlugin (t : Nat) (entry : PluginEntry × RingTable) : RoutedPlugin where
  ip_dec := entry.1.ip_dec
  core_ids := entry.1.core_ids.map coreIndex
  ring_rxs core := (entry.2 core t).map RingSite.number

namespace Started

/-- What `main_loop` finds when a master starts. -/
def masterConfig (s : Started) (t : Fin s.mthreads.length) : MasterConfig where
  ring := s.receiver_rings.findIdx? (· = receiverRingName s.mthreads[t])
  plugin := s.plugin.map (routedPlugin t)
  nb_slaves := s.sthreads.length

/-- What a worker is started with. -/
def workerConfig (s : Started) (w : Fin s.sthreads.length) : WorkerConfig where
  plugins := s.sthreads[w].plugins.map Prod.fst
  nb_masters := s.mthreads.length
  ring_rxs i m := s.sthreads[w].plugins[i]?.bind fun copy =>
    (copy.2 (coreIndex s.sthreads[w].core_id) m).map RingSite.number

/-- What the loops are started with. -/
def pipelineConfig (s : Started) :
    PipelineConfig (Fin s.mthreads.length) (Fin s.sthreads.length) where
  receiver_ring_cnt := s.receiver_rings.length
  master := s.masterConfig
  worker := s.workerConfig

end Started

end LogCollector
