import LogCollector.Loops.Receiver
import LogCollector.Loops.Master
import LogCollector.Loops.Worker
import LogCollector.Lib.Custody

/-!
# Who holds a packet

Whatever a thread does, it does one of a few things to packets: it gets one from
the network, takes one from a ring, puts one on a ring, frees one, or forgets
one. `Transfer` lists them; each loop is shown to do nothing else, and the one
step that forgets is the lookup of a sender that no plugin listens to.
-/

namespace LogCollector

variable {π : Type}

/-- The three kinds of threads that handle packets. -/
inductive Role
  | receiver
  | master
  | worker

/-- Whether a step brings a packet into the process or loses one. -/
inductive TransferKind (π : Type)
  | receive (pkt : π)
  | forget
  | inside

/-- How many packets the step brings in. -/
def TransferKind.receives : TransferKind π → Nat
  | .receive _ => 1
  | .forget | .inside => 0

/-- What one step of a thread does to the packets it holds and to the memory. -/
inductive Transfer (held held' : List π) (mem mem' : Memory π) : Role → TransferKind π → Prop
  | nothing {role : Role} (holds : held' = held) (same : mem' = mem) :
    Transfer held held' mem mem' role .inside
  | receive (pkt : π) (before : held = []) (after : held' = [pkt]) (same : mem' = mem) :
    Transfer held held' mem mem' .receiver (.receive pkt)
  | putReceived (ring : Nat) (pkt : π) (before : held = [pkt]) (after : held' = [])
    (put : mem.enqueueReceived ring pkt = some mem') :
    Transfer held held' mem mem' .receiver .inside
  | takeReceived (ring : Nat) (pkt : π) (before : held = []) (after : held' = [pkt])
    (take : mem.dequeueReceived ring = some (pkt, mem')) :
    Transfer held held' mem mem' .master .inside
  | put (ring : Nat) (pkt : π) (before : held = [pkt]) (after : held' = [])
    (put : mem.enqueue ring pkt = some mem') : Transfer held held' mem mem' .master .inside
  | forget (pkt : π) (before : held = [pkt]) (after : held' = []) (same : mem' = mem) :
    Transfer held held' mem mem' .master .forget
  | take (ring : Nat) (pkt : π) (before : held = []) (after : held' = [pkt])
    (take : mem.dequeue ring = some (pkt, mem')) : Transfer held held' mem mem' .worker .inside
  | free {role : Role} (pkt : π) (before : held = [pkt]) (after : held' = [])
    (freed : mem' = mem.free pkt) : Transfer held held' mem mem' role .inside

/-! ## The three loops -/

/-- The packet a receiver holds. -/
def ReceiverPc.held : ReceiverPc π → List π
  | .top | .recvfrom | .exited => []
  | .enqueue pkt | .free pkt => [pkt]

/-- The packet a master holds. -/
def MasterPc.held : MasterPc π → List π
  | .dequeue | .fileTimer | .drain _ | .test _ | .exited => []
  | .lookup pkt | .place _ pkt | .enqueue _ pkt | .free pkt => [pkt]

/-- The packet a worker holds. -/
def WorkerPc.held : WorkerPc π → List π
  | .dequeue _ _ | .report _ | .test _ _ | .fileTimer _ | .exited => []
  | .process _ _ pkt | .free _ _ pkt => [pkt]

def ReceiverAction.kind : ReceiverAction π → TransferKind π
  | .recvfrom (some pkt) => .receive pkt
  | _ => .inside

theorem receiver_transfer {receiver_ring_cnt : Nat} {pc pc' : ReceiverPc π} {mem mem' : Memory π}
    {a : ReceiverAction π} (h : receiverStep receiver_ring_cnt (pc, mem) a = some (pc', mem')) :
    Transfer pc.held pc'.held mem mem' .receiver a.kind := by
  simp only [receiverStep] at h
  split at h
  · cases h
    refine .nothing ?_ rfl
    split <;> rfl
  · cases h
    exact .nothing rfl rfl
  · cases h
    exact .receive _ rfl rfl rfl
  · next pkt draw =>
    split at h
    · next hmem =>
      cases h
      exact .putReceived _ pkt rfl rfl hmem
    · cases h
      exact .nothing rfl rfl
  · cases h
    exact .free _ rfl rfl rfl
  · cases h

/-- The master looks up a sender that no plugin listens to. -/
def forgets {ℓ : Type} (config : MasterConfig) (reader : PacketReader π ℓ)
    (pc : MasterPc π) : Bool :=
  match pc with
  | .lookup pkt => (pluginLookupWithIpDec config.plugin (reader.s_addr pkt)).isNone
  | _ => false

theorem MasterConfig.held_drainFrom (config : MasterConfig) (i : Nat) :
    (config.drainFrom i : MasterPc π).held = [] := by
  rw [drainFrom]
  split <;> rfl

theorem master_transfer {ℓ : Type} {config : MasterConfig} {reader : PacketReader π ℓ}
    {th th' : Master π ℓ} {mem mem' : Memory π} {a : MasterAction}
    (h : masterStep config reader (th, mem) a = some (th', mem')) :
    Transfer th.pc.held th'.pc.held mem mem' .master
      (if forgets config reader th.pc then .forget else .inside) := by
  cases masterStepped h with
  | @took ring _ _ hpc _ hdeq =>
    rw [hpc]
    exact .takeReceived ring _ rfl rfl hdeq
  | foundEmpty hpc | placed hpc | refused hpc | drained hpc | left hpc =>
    rw [hpc]
    exact .nothing rfl rfl
  | listened hpc hlookup =>
    rw [hpc, forgets, hlookup]
    exact .nothing rfl rfl
  | unlistened hpc hlookup =>
    rw [hpc, forgets, hlookup]
    exact .forget _ rfl rfl rfl
  | @handedOn _ _ ring _ _ _ hpc _ _ hput =>
    rw [hpc]
    exact .put ring _ rfl rfl hput
  | freed hpc =>
    rw [hpc]
    exact .free _ rfl rfl rfl
  | @timed due hpc =>
    rw [hpc]
    refine .nothing ?_ rfl
    cases due with
    | false => rfl
    | true => exact config.held_drainFrom 0
  | stayed hpc =>
    rw [hpc]
    exact .nothing (config.held_drainFrom _) rfl

theorem WorkerConfig.held_dequeueFrom (config : WorkerConfig) (i m : Nat) :
    (config.dequeueFrom i m : WorkerPc π).held = [] := by
  rw [dequeueFrom]
  split <;> rfl

theorem WorkerConfig.held_testFrom (config : WorkerConfig) (i m : Nat) :
    (config.testFrom i m : WorkerPc π).held = [] := by
  rw [testFrom]
  split <;> rfl

theorem worker_transfer {σ ρ : Type} {config : WorkerConfig} {builder : RecordBuilder σ π ρ}
    {th th' : Worker σ π ρ} {mem mem' : Memory π} {a : WorkerAction}
    (h : workerStep config builder (th, mem) a = some (th', mem')) :
    Transfer th.pc.held th'.pc.held mem mem' .worker .inside := by
  cases workerStepped h with
  | @took _ _ ring _ _ hpc _ hdeq =>
    rw [hpc]
    exact .take ring _ rfl rfl hdeq
  | foundEmpty hpc | timed hpc =>
    rw [hpc]
    exact .nothing (config.held_dequeueFrom _ _) rfl
  | processed hpc | left hpc =>
    rw [hpc]
    exact .nothing rfl rfl
  | freed hpc =>
    rw [hpc]
    exact .free _ rfl (config.held_dequeueFrom _ _) rfl
  | @reported _ due hpc =>
    rw [hpc]
    refine .nothing ?_ rfl
    cases due with
    | false => rfl
    | true => exact config.held_testFrom _ 0
  | stayed hpc =>
    rw [hpc]
    exact .nothing (config.held_testFrom _ _) rfl

end LogCollector
