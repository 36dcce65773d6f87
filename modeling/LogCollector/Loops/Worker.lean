import LogCollector.Loops.Memory
import LogCollector.WriteBuffer

/-!
# `worker_loop`

One worker goes through its plugins for ever. For each it takes at most one
packet from the ring of every master, builds a record of it, places the record
in the plugin's write buffer and frees the packet. Then come two one-second
timers: the first prints a report and, while it prints, leaves the loop if the
worker was killed and finds a ring of this plugin empty; the second drains the
write buffer of this plugin.

How a record is built is a parameter here (`RecordBuilder`).
-/

namespace LogCollector

/-- How `worker_loop` makes a record of a packet: the local variables it reads
and leaves behind, their contents when the thread starts, what the declarations
at the head of the loop over plugins do to them, and the code that builds the
record for the plugin at an index of `th->plugins`. `none` is a crash. -/
structure RecordBuilder (σ π ρ : Type) where
  initial : σ
  beginPass : σ → σ
  build : σ → Nat → π → Option (ρ × σ)

/-- Where a worker is in its loop; `i` is an index of `th->plugins` and `m` a
master. -/
inductive WorkerPc (π : Type)
  /-- Before `ring_dequeue`. -/
  | dequeue (i m : Nat)
  /-- With a packet of which no record is built yet. -/
  | process (i m : Nat) (pkt : π)
  /-- Before `free(pkt)`. -/
  | free (i m : Nat) (pkt : π)
  /-- Before the report timer. -/
  | report (i : Nat)
  /-- In the report, before `kill_signal` and the ring are looked at. -/
  | test (i m : Nat)
  /-- Before the file timer. -/
  | fileTimer (i : Nat)
  | exited

/-- What a worker is started with: the plugins assigned to it, as indices of the
plugin table, and its row of their `ring_rxs`. -/
structure WorkerConfig where
  plugins : List Nat
  nb_masters : Nat
  /-- `th->plugins[i]->ring_rxs[th->core_id][m]`. -/
  ring_rxs : Nat → Nat → Option Nat

/-- The variables of one worker, with a write buffer for each plugin. -/
structure Worker (σ π ρ : Type) where
  pc : WorkerPc π
  vars : σ
  wb : Nat → BufferedFile ρ

/-- One step of a worker. A timer step says whether the timer is due. -/
inductive WorkerAction
  | dequeue (i m : Nat)
  | process (i m : Nat)
  | free (i m : Nat)
  | report (i : Nat) (due : Bool)
  | test (i m : Nat)
  | fileTimer (i : Nat) (due : Bool)
deriving DecidableEq

variable {σ π ρ : Type}

namespace WorkerConfig

/-- The loop over the masters, from `m` on. -/
def dequeueFrom (config : WorkerConfig) (i m : Nat) : WorkerPc π :=
  if m < config.nb_masters then .dequeue i m else .report i

/-- The loop over the masters in the report, from `m` on. -/
def testFrom (config : WorkerConfig) (i m : Nat) : WorkerPc π :=
  if m < config.nb_masters then .test i m else .fileTimer i

/-- The plugin after the one at `i`, where `while (th->pcnt > 0)` starts over
after the last. -/
def following (config : WorkerConfig) (i : Nat) : Nat :=
  if i + 1 < config.plugins.length then i + 1 else 0

end WorkerConfig

namespace Worker

/-- The pass over the masters for the plugin at `i` begins. -/
def beginPass (config : WorkerConfig) (builder : RecordBuilder σ π ρ)
    (th : Worker σ π ρ) (i : Nat) : Worker σ π ρ :=
  { th with pc := config.dequeueFrom i 0, vars := builder.beginPass th.vars }

/-- A worker before its loop. Without plugins it does not enter it. -/
def start (config : WorkerConfig) (builder : RecordBuilder σ π ρ) : Worker σ π ρ :=
  let th : Worker σ π ρ :=
    { pc := .exited, vars := builder.initial, wb := fun _ => .empty }
  if config.plugins.length > 0 then th.beginPass config builder 0 else th

end Worker

/-- One step of a worker. Nothing happens after the loop was left. -/
def workerStep (config : WorkerConfig) (builder : RecordBuilder σ π ρ) :
    Lib.Step (Worker σ π ρ × Memory π) WorkerAction
  | (th, mem), a =>
    match th.pc, a with
    | .dequeue i m, .dequeue i' m' =>
      if (i', m') = (i, m) then
        -- a ring that does not exist is a null pointer
        (config.ring_rxs i m).map fun ring =>
          match mem.dequeue ring with
          | some (pkt, mem) => ({ th with pc := .process i m pkt }, mem)
          | none => ({ th with pc := config.dequeueFrom i (m + 1) }, mem)
      else none
    | .process i m pkt, .process i' m' =>
      if (i', m') = (i, m) then
        (builder.build th.vars i pkt).map fun (record, vars) =>
          let fptr := mem.json_fptr (config.plugins.getD i 0)
          let wb := Function.update th.wb i ((th.wb i).place fptr record)
          ({ pc := .free i m pkt, vars, wb }, mem)
      else none
    | .free i m pkt, .free i' m' =>
      if (i', m') = (i, m) then
        some ({ th with pc := config.dequeueFrom i (m + 1) }, mem.free pkt)
      else none
    | .report i, .report i' due =>
      if i' = i then
        some ({ th with pc := if due then config.testFrom i 0 else .fileTimer i }, mem)
      else none
    | .test i m, .test i' m' =>
      if (i', m') = (i, m) then
        (config.ring_rxs i m).map fun ring =>
          -- `kill_signal` is read before `ring_count`
          if mem.kill_signal ∧ (mem.rings ring).items.length = 0 then
            ({ th with pc := .exited }, mem)
          else ({ th with pc := config.testFrom i (m + 1) }, mem)
      else none
    | .fileTimer i, .fileTimer i' due =>
      if i' = i then
        let fptr := mem.json_fptr (config.plugins.getD i 0)
        let wb := if due then BufferedFile.drainPending th.wb i fptr else th.wb
        some ({ th with wb }.beginPass config builder (config.following i), mem)
      else none
    | _, _ => none

/-- The branches of `workerStep`: where the worker was, what it found there and
what it left. -/
inductive WorkerStepped (config : WorkerConfig) (builder : RecordBuilder σ π ρ) (th : Worker σ π ρ)
    (mem : Memory π) : WorkerAction → Worker σ π ρ → Memory π → Prop
  | took {i m ring : Nat} {pkt : π} {mem' : Memory π} (pc_eq : th.pc = .dequeue i m)
    (exists_ring : config.ring_rxs i m = some ring) (taken : mem.dequeue ring = some (pkt, mem')) :
    WorkerStepped config builder th mem (.dequeue i m) { th with pc := .process i m pkt } mem'
  | foundEmpty {i m ring : Nat} (pc_eq : th.pc = .dequeue i m)
    (exists_ring : config.ring_rxs i m = some ring) (empty : mem.dequeue ring = none) :
    WorkerStepped config builder th mem (.dequeue i m)
      { th with pc := config.dequeueFrom i (m + 1) } mem
  | processed {i m : Nat} {pkt : π} {record : ρ} {vars : σ} (pc_eq : th.pc = .process i m pkt)
    (built : builder.build th.vars i pkt = some (record, vars)) :
    WorkerStepped config builder th mem (.process i m)
      { pc := .free i m pkt, vars,
        wb := Function.update th.wb i
          ((th.wb i).place (mem.json_fptr (config.plugins.getD i 0)) record) } mem
  | freed {i m : Nat} {pkt : π} (pc_eq : th.pc = .free i m pkt) :
    WorkerStepped config builder th mem (.free i m)
      { th with pc := config.dequeueFrom i (m + 1) } (mem.free pkt)
  | reported {i : Nat} {due : Bool} (pc_eq : th.pc = .report i) :
    WorkerStepped config builder th mem (.report i due)
      { th with pc := if due then config.testFrom i 0 else .fileTimer i } mem
  | left {i m ring : Nat} (pc_eq : th.pc = .test i m)
    (exists_ring : config.ring_rxs i m = some ring) (killed : mem.kill_signal = true)
    (empty : (mem.rings ring).items = []) :
    WorkerStepped config builder th mem (.test i m) { th with pc := .exited } mem
  | stayed {i m ring : Nat} (pc_eq : th.pc = .test i m)
    (exists_ring : config.ring_rxs i m = some ring)
    (unfinished : ¬ (mem.kill_signal = true ∧ (mem.rings ring).items.length = 0)) :
    WorkerStepped config builder th mem (.test i m) { th with pc := config.testFrom i (m + 1) } mem
  | timed {i : Nat} {due : Bool} {wb : Nat → BufferedFile ρ} (pc_eq : th.pc = .fileTimer i)
    (wb_eq : wb = if due then
      BufferedFile.drainPending th.wb i (mem.json_fptr (config.plugins.getD i 0)) else th.wb) :
    WorkerStepped config builder th mem (.fileTimer i due)
      ({ th with wb }.beginPass config builder (config.following i)) mem

theorem workerStepped {config : WorkerConfig} {builder : RecordBuilder σ π ρ}
    {th th' : Worker σ π ρ} {mem mem' : Memory π} {a : WorkerAction}
    (h : workerStep config builder (th, mem) a = some (th', mem')) :
    WorkerStepped config builder th mem a th' mem' := by
  simp only [workerStep] at h
  split at h
  · -- dequeue
    next hpc =>
    split at h
    · next heq =>
      obtain ⟨rfl, rfl⟩ := Prod.mk.inj heq
      obtain ⟨ring, hring, heq⟩ := Option.map_eq_some_iff.mp h
      split at heq
      · next hdeq =>
        obtain ⟨rfl, rfl⟩ := Prod.mk.inj heq
        exact .took hpc hring hdeq
      · next hdeq =>
        obtain ⟨rfl, rfl⟩ := Prod.mk.inj heq
        exact .foundEmpty hpc hring hdeq
    · cases h
  · -- process
    next hpc =>
    split at h
    · next heq =>
      obtain ⟨rfl, rfl⟩ := Prod.mk.inj heq
      obtain ⟨⟨record, vars⟩, hbuild, heq⟩ := Option.map_eq_some_iff.mp h
      obtain ⟨rfl, rfl⟩ := Prod.mk.inj heq
      exact .processed hpc hbuild
    · cases h
  · -- free
    next hpc =>
    split at h
    · next heq =>
      obtain ⟨rfl, rfl⟩ := Prod.mk.inj heq
      cases h
      exact .freed hpc
    · cases h
  · -- report
    next hpc =>
    split at h
    · next heq =>
      subst heq
      cases h
      exact .reported hpc
    · cases h
  · -- test
    next hpc =>
    split at h
    · next heq =>
      obtain ⟨rfl, rfl⟩ := Prod.mk.inj heq
      obtain ⟨ring, hring, heq⟩ := Option.map_eq_some_iff.mp h
      split at heq
      · next hleave =>
        obtain ⟨rfl, rfl⟩ := Prod.mk.inj heq
        exact .left hpc hring hleave.1 (List.length_eq_zero_iff.mp hleave.2)
      · next hstay =>
        obtain ⟨rfl, rfl⟩ := Prod.mk.inj heq
        exact .stayed hpc hring hstay
    · cases h
  · -- fileTimer
    next hpc =>
    split at h
    · next heq =>
      subst heq
      cases h
      exact .timed hpc rfl
    · cases h
  · cases h

end LogCollector
