import LogCollector.Loops.Memory
import LogCollector.WriteBuffer

/-!
# `main_loop`

A master takes packets from its receiver ring. It looks up the plugin that
listens to the sender, places the log line in the write buffer of that plugin's
temp file and hands the packet on to the ring of one of the plugin's workers.
Once a second it drains the write buffers of all plugins in turn, and leaves
the loop between two of them if it was killed and finds its receiver ring
empty.

A packet whose sender no plugin listens to is forgotten: the `continue` of that
branch skips the timers too.
-/

namespace LogCollector

/-- What `main_loop` reads of a packet: `client_addr.sin_addr.s_addr`, and the
line it makes of `log`. -/
structure PacketReader (π ℓ : Type) where
  s_addr : π → UInt32
  line : π → ℓ

/-- What `main_loop` reads of a plugin. -/
structure RoutedPlugin where
  ip_dec : UInt32
  /-- `core_ids[0 .. core_id_num)`; the rest of the array is zero. -/
  core_ids : List Nat
  /-- `ring_rxs[ring_index][thread->thread_index]`. -/
  ring_rxs : Nat → Option Nat

/-- What a master is started with. -/
structure MasterConfig where
  /-- The receiver ring that has the name of this master's core. -/
  ring : Option Nat
  plugin : List RoutedPlugin
  nb_slaves : Nat

/-- `plugin_lookup_with_ip_dec`. -/
def pluginLookupWithIpDec (plugin : List RoutedPlugin) (ip : UInt32) : Option Nat :=
  plugin.findIdx? (·.ip_dec = ip)

/-- The choice of a worker ring, `draw` being what `rand` returns. -/
def RoutedPlugin.ringIndex (plgn : RoutedPlugin) (nb_slaves draw : Nat) : Nat :=
  if plgn.core_ids.length ≠ 0 then plgn.core_ids.getD (draw % plgn.core_ids.length) 0
  else plgn.core_ids.getD (draw % nb_slaves) 0

/-- Where a master is in its loop; `p` and `i` are indices of the plugin table. -/
inductive MasterPc (π : Type)
  | dequeue
  | lookup (pkt : π)
  /-- Before the line is placed in `wb[p]`. -/
  | place (p : Nat) (pkt : π)
  | enqueue (p : Nat) (pkt : π)
  /-- Before `free(pkt)`. -/
  | free (pkt : π)
  | fileTimer
  /-- In the loop over the plugins, before a drain. -/
  | drain (i : Nat)
  /-- In the loop over the plugins, before `kill_signal` is looked at. -/
  | test (i : Nat)
  | exited

/-- The variables of one master, with a write buffer for each plugin. -/
structure Master (π ℓ : Type) where
  pc : MasterPc π
  wb : Nat → BufferedFile ℓ

/-- One step of a master. -/
inductive MasterAction
  | dequeue
  | lookup
  | place (p : Nat)
  | enqueue (draw : Nat)
  | free
  | fileTimer (due : Bool)
  | drain (i : Nat)
  | test (i : Nat)
deriving DecidableEq

variable {π ℓ : Type}

/-- A master before its loop. Without a receiver ring it does not enter it. -/
def Master.start (config : MasterConfig) : Master π ℓ where
  pc := if config.ring.isSome then .dequeue else .exited
  wb _ := .empty

/-- The loop over the plugins, from `i` on. -/
def MasterConfig.drainFrom (config : MasterConfig) (i : Nat) : MasterPc π :=
  if i < config.plugin.length then .drain i else .dequeue

/-- One step of a master. Nothing happens after the loop was left. -/
def masterStep (config : MasterConfig) (reader : PacketReader π ℓ) :
    Lib.Step (Master π ℓ × Memory π) MasterAction
  | (th, mem), a =>
    match th.pc, a with
    | .dequeue, .dequeue =>
      config.ring.map fun ring =>
        match mem.dequeueReceived ring with
        | some (pkt, mem) => ({ th with pc := .lookup pkt }, mem)
        | none => ({ th with pc := .fileTimer }, mem)
    | .lookup pkt, .lookup =>
      match pluginLookupWithIpDec config.plugin (reader.s_addr pkt) with
      | some p => some ({ th with pc := .place p pkt }, mem)
      -- `continue`
      | none => some ({ th with pc := .dequeue }, mem)
    | .place p pkt, .place p' =>
      if p' = p then
        let wb := Function.update th.wb p ((th.wb p).place (mem.temp_fptr p) (reader.line pkt))
        some ({ pc := .enqueue p pkt, wb }, mem)
      else none
    | .enqueue p pkt, .enqueue draw =>
      config.plugin[p]?.bind fun plgn =>
        -- a ring that does not exist is a null pointer
        (plgn.ring_rxs (plgn.ringIndex config.nb_slaves draw)).map fun ring =>
          match mem.enqueue ring pkt with
          | some mem => ({ th with pc := .fileTimer }, mem)
          | none => ({ th with pc := .free pkt }, mem)
    | .free pkt, .free => some ({ th with pc := .fileTimer }, mem.free pkt)
    | .fileTimer, .fileTimer due =>
      some ({ th with pc := if due then config.drainFrom 0 else .dequeue }, mem)
    | .drain i, .drain i' =>
      if i' = i then
        some ({ pc := .test i, wb := BufferedFile.drainPending th.wb i (mem.temp_fptr i) }, mem)
      else none
    | .test i, .test i' =>
      if i' = i then
        config.ring.map fun ring =>
          -- `kill_signal` is read before `ring_count`
          if mem.kill_signal ∧ (mem.receiver_rings ring).items.length = 0 then
            ({ th with pc := .exited }, mem)
          else ({ th with pc := config.drainFrom (i + 1) }, mem)
      else none
    | _, _ => none

/-- The branches of `masterStep`: where the master was, what it found there and
what it left. -/
inductive MasterStepped (config : MasterConfig) (reader : PacketReader π ℓ) (th : Master π ℓ)
    (mem : Memory π) : MasterAction → Master π ℓ → Memory π → Prop
  | took {ring : Nat} {pkt : π} {mem' : Memory π} (pc_eq : th.pc = .dequeue)
    (exists_ring : config.ring = some ring)
    (taken : mem.dequeueReceived ring = some (pkt, mem')) :
    MasterStepped config reader th mem .dequeue { th with pc := .lookup pkt } mem'
  | foundEmpty {ring : Nat} (pc_eq : th.pc = .dequeue) (exists_ring : config.ring = some ring)
    (empty : mem.dequeueReceived ring = none) :
    MasterStepped config reader th mem .dequeue { th with pc := .fileTimer } mem
  | listened {p : Nat} {pkt : π} (pc_eq : th.pc = .lookup pkt)
    (found : pluginLookupWithIpDec config.plugin (reader.s_addr pkt) = some p) :
    MasterStepped config reader th mem .lookup { th with pc := .place p pkt } mem
  | unlistened {pkt : π} (pc_eq : th.pc = .lookup pkt)
    (found : pluginLookupWithIpDec config.plugin (reader.s_addr pkt) = none) :
    MasterStepped config reader th mem .lookup { th with pc := .dequeue } mem
  | placed {p : Nat} {pkt : π} (pc_eq : th.pc = .place p pkt) :
    MasterStepped config reader th mem (.place p)
      { pc := .enqueue p pkt,
        wb := Function.update th.wb p ((th.wb p).place (mem.temp_fptr p) (reader.line pkt)) } mem
  | handedOn {p draw ring : Nat} {pkt : π} {plgn : RoutedPlugin} {mem' : Memory π}
    (pc_eq : th.pc = .enqueue p pkt) (found : config.plugin[p]? = some plgn)
    (exists_ring : plgn.ring_rxs (plgn.ringIndex config.nb_slaves draw) = some ring)
    (put : mem.enqueue ring pkt = some mem') :
    MasterStepped config reader th mem (.enqueue draw) { th with pc := .fileTimer } mem'
  | refused {p draw ring : Nat} {pkt : π} {plgn : RoutedPlugin} (pc_eq : th.pc = .enqueue p pkt)
    (found : config.plugin[p]? = some plgn)
    (exists_ring : plgn.ring_rxs (plgn.ringIndex config.nb_slaves draw) = some ring)
    (full : mem.enqueue ring pkt = none) :
    MasterStepped config reader th mem (.enqueue draw) { th with pc := .free pkt } mem
  | freed {pkt : π} (pc_eq : th.pc = .free pkt) :
    MasterStepped config reader th mem .free { th with pc := .fileTimer } (mem.free pkt)
  | timed {due : Bool} (pc_eq : th.pc = .fileTimer) :
    MasterStepped config reader th mem (.fileTimer due)
      { th with pc := if due then config.drainFrom 0 else .dequeue } mem
  | drained {i : Nat} (pc_eq : th.pc = .drain i) :
    MasterStepped config reader th mem (.drain i)
      { pc := .test i, wb := BufferedFile.drainPending th.wb i (mem.temp_fptr i) } mem
  | left {i ring : Nat} (pc_eq : th.pc = .test i) (exists_ring : config.ring = some ring)
    (killed : mem.kill_signal = true) (empty : (mem.receiver_rings ring).items = []) :
    MasterStepped config reader th mem (.test i) { th with pc := .exited } mem
  | stayed {i ring : Nat} (pc_eq : th.pc = .test i) (exists_ring : config.ring = some ring)
    (unfinished : ¬ (mem.kill_signal = true ∧ (mem.receiver_rings ring).items.length = 0)) :
    MasterStepped config reader th mem (.test i) { th with pc := config.drainFrom (i + 1) } mem

theorem masterStepped {config : MasterConfig} {reader : PacketReader π ℓ} {th th' : Master π ℓ}
    {mem mem' : Memory π} {a : MasterAction}
    (h : masterStep config reader (th, mem) a = some (th', mem')) :
    MasterStepped config reader th mem a th' mem' := by
  simp only [masterStep] at h
  split at h
  · -- dequeue
    next hpc =>
    obtain ⟨ring, hring, heq⟩ := Option.map_eq_some_iff.mp h
    split at heq
    · next hdeq =>
      obtain ⟨rfl, rfl⟩ := Prod.mk.inj heq
      exact .took hpc hring hdeq
    · next hdeq =>
      obtain ⟨rfl, rfl⟩ := Prod.mk.inj heq
      exact .foundEmpty hpc hring hdeq
  · -- lookup
    next hpc =>
    split at h
    · next hlookup =>
      cases h
      exact .listened hpc hlookup
    · next hlookup =>
      cases h
      exact .unlistened hpc hlookup
  · -- place
    next hpc =>
    split at h
    · next heq =>
      subst heq
      cases h
      exact .placed hpc
    · cases h
  · -- enqueue
    next hpc =>
    obtain ⟨plgn, hplgn, h⟩ := Option.bind_eq_some_iff.mp h
    obtain ⟨ring, hring, heq⟩ := Option.map_eq_some_iff.mp h
    split at heq
    · next hput =>
      obtain ⟨rfl, rfl⟩ := Prod.mk.inj heq
      exact .handedOn hpc hplgn hring hput
    · next hput =>
      obtain ⟨rfl, rfl⟩ := Prod.mk.inj heq
      exact .refused hpc hplgn hring hput
  · -- free
    next hpc =>
    cases h
    exact .freed hpc
  · -- fileTimer
    next hpc =>
    cases h
    exact .timed hpc
  · -- drain
    next hpc =>
    split at h
    · next heq =>
      subst heq
      cases h
      exact .drained hpc
    · cases h
  · -- test
    next hpc =>
    split at h
    · next heq =>
      subst heq
      obtain ⟨ring, hring, heq⟩ := Option.map_eq_some_iff.mp h
      split at heq
      · next hleave =>
        obtain ⟨rfl, rfl⟩ := Prod.mk.inj heq
        exact .left hpc hring hleave.1 (List.length_eq_zero_iff.mp hleave.2)
      · next hstay =>
        obtain ⟨rfl, rfl⟩ := Prod.mk.inj heq
        exact .stayed hpc hring hstay
    · cases h
  · cases h

end LogCollector
