import LogCollector.Loops.WorkerExit
import LogCollector.Loops.MasterExit

/-!
# Burst buffering

A worker places the record of every packet in the write buffer of its plugin,
and a master the line of every packet. What the drains of one thread wrote to
the files of a plugin, followed by what waits in its write buffer, is what the
thread placed there, in order and once, whatever the timers do and whichever
files are current (`burst_buffering`).

A `BufferedFile` keeps this about the lines placed in it. Here the lines are
those the run itself produces: the records that are built and the lines that are
made of packets.
-/

namespace LogCollector

variable {σ π ρ ℓ : Type}

/-- The record the event builds for the plugin at `i`. -/
def recordBuilt (builder : RecordBuilder σ π ρ) (i : Nat) (s : Worker σ π ρ × Memory π) :
    WorkerEvent π → List ρ
  | .own (.process j _) =>
    match s.1.pc with
    | .process _ _ pkt =>
      if j = i then ((builder.build s.1.vars j pkt).map Prod.fst).toList else []
    | _ => []
  | _ => []

/-- The line the event makes of a packet for plugin `p`. -/
def lineMade (reader : PacketReader π ℓ) (p : Nat) (s : Master π ℓ × Memory π) :
    MasterEvent π → List ℓ
  | .own (.place q) =>
    match s.1.pc with
    | .place _ pkt => if q = p then [reader.line pkt] else []
    | _ => []
  | _ => []

/-- The newest entry of the write buffer is `x`, stored inside the array. -/
def StoredInside {α : Type} (b : BufferedFile α) (x : α) : Prop :=
  ∃ cnt < MAX_LOG_BURST, b.wb.items[cnt]? = some x ∧ b.wb.items.length = cnt + 1

/-- A record the event builds is stored inside `wb[i]->buffer`. -/
def StoresRecord (config : WorkerConfig) (builder : RecordBuilder σ π ρ)
    (s : Worker σ π ρ × Memory π) (event : WorkerEvent π) : Prop :=
  ∀ s', workerAmongOthers config builder s event = some s' →
    ∀ i, ∀ record ∈ recordBuilt builder i s event, StoredInside (s'.1.wb i) record

/-- A line the event makes is stored inside `wb[p_index]->buffer`. -/
def StoresLine (config : MasterConfig) (reader : PacketReader π ℓ) (s : Master π ℓ × Memory π)
    (event : MasterEvent π) : Prop :=
  ∀ s', masterAmongOthers config reader s event = some s' →
    ∀ p, ∀ line ∈ lineMade reader p s event, StoredInside (s'.1.wb p) line

theorem BufferedFile.placed_drainPending {α : Type} (wb : Nat → BufferedFile α) (i fptr p : Nat) :
    (drainPending wb i fptr p).placed = (wb p).placed := by
  by_cases hp : p = i
  · subst hp
    rw [drainPending]
    split
    · rw [Function.update_self]
      rfl
    · rfl
  · rw [drainPending_of_ne wb fptr hp]

/-- What placing does to the lines placed so far. -/
theorem BufferedFile.placed_update {α : Type} (wb : Nat → BufferedFile α) (i fptr p : Nat) (x : α) :
    (Function.update wb i ((wb i).place fptr x) p).placed =
      (wb p).placed ++ if i = p then [x] else [] := by
  by_cases hp : p = i
  · subst hp
    rw [Function.update_self, if_pos rfl]
    rfl
  · rw [Function.update_of_ne hp, if_neg (Ne.symm hp), List.append_nil]

/-! ## Workers -/

section

variable {config : WorkerConfig} {builder : RecordBuilder σ π ρ}

/-- The step that builds a record. -/
theorem workerStep_process {th : Worker σ π ρ} {mem : Memory π}
    {s' : Worker σ π ρ × Memory π} {i m : Nat}
    (h : workerStep config builder (th, mem) (.process i m) = some s') :
    ∃ pkt record vars fptr, th.pc = .process i m pkt ∧
      builder.build th.vars i pkt = some (record, vars) ∧
      s'.1.wb = Function.update th.wb i ((th.wb i).place fptr record) := by
  obtain ⟨th', mem'⟩ := s'
  cases workerStepped h with
  | processed hpc hbuild => exact ⟨_, _, _, _, hpc, hbuild, rfl⟩

/-- A record that is built is placed in its write buffer, and nothing else is
placed in any. -/
theorem worker_placed {s s' : Worker σ π ρ × Memory π} {event : WorkerEvent π} (i : Nat)
    (h : workerAmongOthers config builder s event = some s') :
    (s'.1.wb i).placed = (s.1.wb i).placed ++ recordBuilt builder i s event := by
  obtain ⟨th, mem⟩ := s
  cases event with
  | elsewhere e =>
    obtain ⟨-, heq, -⟩ := elsewhere_step h
    simp only [heq, recordBuilt, List.append_nil]
  | own a =>
    cases a with
    | process j m =>
      obtain ⟨pkt, record, vars, fptr, hpc, hbuild, hwb⟩ := workerStep_process h
      rw [hwb, BufferedFile.placed_update]
      simp only [recordBuilt, hpc, hbuild, Option.map_some, Option.toList_some]
    | fileTimer j due =>
      obtain ⟨th', mem'⟩ := s'
      simp only [recordBuilt, List.append_nil]
      cases (workerEffect h).1 with
      | drained _ hwb => rw [hwb, BufferedFile.placed_drainPending]
      | notDue _ hwb => rw [hwb]
    | dequeue j m | free j m | report j due | test j m =>
      obtain ⟨th', mem'⟩ := s'
      have hwb : th'.wb = th.wb := by
        cases (workerEffect h).1 <;> assumption
      simp only [recordBuilt, List.append_nil, hwb]

theorem worker_stores {s : Worker σ π ρ × Memory π} {event : WorkerEvent π} :
    StoresRecord config builder s event := by
  intro s' h i record hrecord
  obtain ⟨th, mem⟩ := s
  cases event with
  | elsewhere e => cases hrecord
  | own a =>
    cases a with
    | process j m =>
      obtain ⟨pkt, record', vars, fptr, hpc, hbuild, hwb⟩ := workerStep_process h
      simp only [recordBuilt, hpc, hbuild, Option.map_some, Option.toList_some] at hrecord
      split at hrecord
      · next heq =>
        subst heq
        cases List.mem_singleton.mp hrecord
        rw [hwb, Function.update_self]
        exact (th.wb j).wb.push_newest record
      · cases hrecord
    | dequeue | free | report | test | fileTimer => cases hrecord

end

/-! ## Masters -/

section

variable {config : MasterConfig} {reader : PacketReader π ℓ}

/-- The step that makes a line. -/
theorem masterStep_place {th : Master π ℓ} {mem : Memory π} {s' : Master π ℓ × Memory π} {p : Nat}
    (h : masterStep config reader (th, mem) (.place p) = some s') :
    ∃ pkt fptr, th.pc = .place p pkt ∧
      s'.1.wb = Function.update th.wb p ((th.wb p).place fptr (reader.line pkt)) := by
  obtain ⟨th', mem'⟩ := s'
  cases masterStepped h with
  | placed hpc => exact ⟨_, _, hpc, rfl⟩

/-- A line that is made is placed in its write buffer, and nothing else is placed
in any. -/
theorem master_placed {s s' : Master π ℓ × Memory π} {event : MasterEvent π} (p : Nat)
    (h : masterAmongOthers config reader s event = some s') :
    (s'.1.wb p).placed = (s.1.wb p).placed ++ lineMade reader p s event := by
  obtain ⟨th, mem⟩ := s
  cases event with
  | elsewhere e =>
    obtain ⟨-, heq⟩ := master_elsewhere h
    simp only [heq, lineMade, List.append_nil]
  | own a =>
    cases a with
    | place q =>
      obtain ⟨pkt, fptr, hpc, hwb⟩ := masterStep_place h
      rw [hwb, BufferedFile.placed_update]
      simp only [lineMade, hpc]
    | drain q =>
      obtain ⟨th', mem'⟩ := s'
      simp only [lineMade, List.append_nil]
      cases (masterEffect h).1 with
      | drained hwb => rw [hwb, BufferedFile.placed_drainPending]
      | kept _ hdrain => exact absurd rfl (hdrain q)
    | dequeue | lookup | enqueue draw | free | fileTimer due | test i =>
      obtain ⟨th', mem'⟩ := s'
      have hwb : th'.wb = th.wb := by
        cases (masterEffect h).1 with
        | kept _ _ hwb => exact hwb
      simp only [lineMade, List.append_nil, hwb]

theorem master_stores {s : Master π ℓ × Memory π} {event : MasterEvent π} :
    StoresLine config reader s event := by
  intro s' h p line hline
  obtain ⟨th, mem⟩ := s
  cases event with
  | elsewhere e => cases hline
  | own a =>
    cases a with
    | place q =>
      obtain ⟨pkt, fptr, hpc, hwb⟩ := masterStep_place h
      simp only [lineMade, hpc] at hline
      split at hline
      · next heq =>
        subst heq
        cases List.mem_singleton.mp hline
        rw [hwb, Function.update_self]
        exact (th.wb q).wb.push_newest (reader.line pkt)
      · cases hline
    | dequeue | lookup | enqueue | free | fileTimer | drain | test => cases hline

end

/-! ## Runs -/

/-- What one worker has written for each of its plugins and what it still holds
is what it built, and it stores inside its arrays. -/
theorem worker_buffering (config : WorkerConfig) (builder : RecordBuilder σ π ρ)
    (mem mem' : Memory π) (events : List (WorkerEvent π)) (th : Worker σ π ρ)
    (h : (workerAmongOthers config builder).run (.start config builder, mem) events =
      some (th, mem')) (i : Nat) :
    (th.wb i).written.map Prod.snd ++ (th.wb i).wb.items =
      (workerAmongOthers config builder).outputs (recordBuilt builder i)
        (.start config builder, mem) events := by
  have hstart : ((Worker.start config builder).wb i).placed = [] := by
    rw [Worker.start]
    split <;> rfl
  have hhistory := Lib.Step.history_eq (fun _ _ _ => worker_placed i) h
  rw [(th.wb i).conserved, hhistory, hstart, List.nil_append]

/-- The same for the lines of a master. -/
theorem master_buffering (config : MasterConfig) (reader : PacketReader π ℓ)
    (mem mem' : Memory π) (events : List (MasterEvent π)) (th : Master π ℓ)
    (h : (masterAmongOthers config reader).run (.start config, mem) events = some (th, mem'))
    (p : Nat) :
    (th.wb p).written.map Prod.snd ++ (th.wb p).wb.items =
      (masterAmongOthers config reader).outputs (lineMade reader p)
        (.start config, mem) events := by
  have hhistory := Lib.Step.history_eq (fun _ _ _ => master_placed p) h
  rw [(th.wb p).conserved, hhistory]
  rfl

/-- BURST BUFFERING neither loses, duplicates nor reorders, and never stores
past the end of a write buffer. -/
theorem burst_buffering :
    (∀ (config : WorkerConfig) (builder : RecordBuilder σ π ρ) (mem : Memory π)
        (events : List (WorkerEvent π)),
      (∀ th mem', (workerAmongOthers config builder).run (.start config builder, mem) events =
          some (th, mem') → ∀ i, (th.wb i).written.map Prod.snd ++ (th.wb i).wb.items =
        (workerAmongOthers config builder).outputs (recordBuilt builder i)
          (.start config builder, mem) events) ∧
      (workerAmongOthers config builder).Along (StoresRecord config builder)
        (.start config builder, mem) events) ∧
    ∀ (config : MasterConfig) (reader : PacketReader π ℓ) (mem : Memory π)
        (events : List (MasterEvent π)),
      (∀ th mem', (masterAmongOthers config reader).run (.start config, mem) events =
          some (th, mem') → ∀ p, (th.wb p).written.map Prod.snd ++ (th.wb p).wb.items =
        (masterAmongOthers config reader).outputs (lineMade reader p)
          (.start config, mem) events) ∧
      (masterAmongOthers config reader).Along (StoresLine config reader)
        (.start config, mem) events := by
  refine ⟨fun config builder mem events => ⟨fun th mem' h i => ?_, ?_⟩,
    fun config reader mem events => ⟨fun th mem' h p => ?_, ?_⟩⟩
  · exact worker_buffering config builder mem mem' events th h i
  · exact Lib.Step.along_of_mem fun _ _ _ => worker_stores
  · exact master_buffering config reader mem mem' events th h p
  · exact Lib.Step.along_of_mem fun _ _ _ => master_stores

/-- A worker with one plugin and one master, whose records are the packets. -/
def sampleWorker : WorkerConfig := ⟨[0], 1, fun _ _ => some 0⟩

def sampleBuilder : RecordBuilder Unit Nat Nat := ⟨(), id, fun _ _ pkt => some (pkt, ())⟩

/-- A turn of its loop, with a packet. -/
def workerTurn (due : Bool) (pkt : Nat) : List (WorkerEvent Nat) :=
  [.elsewhere (.enqueue 0 pkt), .own (.dequeue 0 0), .own (.process 0 0), .own (.free 0 0),
    .own (.report 0 false), .own (.fileTimer 0 due)]

/-- A master with one plugin that listens to everything, whose lines are the packets. -/
def sampleMaster : MasterConfig := ⟨some 0, [⟨1, [0], fun _ => some 0⟩], 1⟩

def sampleReader : PacketReader Nat Nat := ⟨fun _ => 1, id⟩

def masterTurn (due : Bool) (pkt : Nat) : List (MasterEvent Nat) :=
  [.elsewhere (.enqueueReceived 0 pkt), .own .dequeue, .own .lookup, .own (.place 0),
      .own (.enqueue 0), .own (.fileTimer due)] ++
    if due then [.own (.drain 0), .own (.test 0)] else []

/-- A packet more than a burst, a rotation, a packet before the timer and one after it. -/
def workerTurns : List (WorkerEvent Nat) :=
  (List.range (MAX_LOG_BURST + 1)).flatMap (workerTurn false) ++
    .elsewhere (.rotateJson 0 1) :: (workerTurn true 65 ++ workerTurn false 66)

def masterTurns : List (MasterEvent Nat) :=
  (List.range (MAX_LOG_BURST + 1)).flatMap (masterTurn false) ++
    .elsewhere (.rotateTemp 0 1) :: (masterTurn true 65 ++ masterTurn false 66)

/-- A full burst is in the first file, what the timer drained in the next one, and a packet
waits. -/
theorem burst_buffering_rotated :
    (∃ th mem', (workerAmongOthers sampleWorker sampleBuilder).run
        (.start sampleWorker sampleBuilder, .start) workerTurns = some (th, mem') ∧
      (th.wb 0).written = (List.range MAX_LOG_BURST).map (0, ·) ++ [(1, 64), (1, 65)] ∧
      (th.wb 0).written.map Prod.snd ++ (th.wb 0).wb.items = List.range 67) ∧
    ∃ th mem', (masterAmongOthers sampleMaster sampleReader).run (.start sampleMaster, .start)
        masterTurns = some (th, mem') ∧
      (th.wb 0).written = (List.range MAX_LOG_BURST).map (0, ·) ++ [(1, 64), (1, 65)] ∧
      (th.wb 0).written.map Prod.snd ++ (th.wb 0).wb.items = List.range 67 := by
  obtain ⟨hworker, hmaster⟩ := burst_buffering (σ := Unit) (π := Nat) (ρ := Nat) (ℓ := Nat)
  constructor
  · have hwritten : ((workerAmongOthers sampleWorker sampleBuilder).run
        (.start sampleWorker sampleBuilder, .start) workerTurns).map (fun s => (s.1.wb 0).written) =
          some ((List.range MAX_LOG_BURST).map (0, ·) ++ [(1, 64), (1, 65)]) := by
      decide +kernel
    have hrecords : (workerAmongOthers sampleWorker sampleBuilder).outputs
        (recordBuilt sampleBuilder 0) (.start sampleWorker sampleBuilder, .start) workerTurns =
          List.range 67 := by
      decide +kernel
    obtain ⟨⟨th, mem'⟩, hrun, hwritten⟩ := Option.map_eq_some_iff.mp hwritten
    refine ⟨th, mem', hrun, hwritten, ?_⟩
    exact ((hworker sampleWorker sampleBuilder .start workerTurns).1 th mem' hrun 0).trans hrecords
  · have hwritten : ((masterAmongOthers sampleMaster sampleReader).run
        (.start sampleMaster, .start) masterTurns).map (fun s => (s.1.wb 0).written) =
          some ((List.range MAX_LOG_BURST).map (0, ·) ++ [(1, 64), (1, 65)]) := by
      decide +kernel
    have hlines : (masterAmongOthers sampleMaster sampleReader).outputs (lineMade sampleReader 0)
        (.start sampleMaster, .start) masterTurns = List.range 67 := by
      decide +kernel
    obtain ⟨⟨th, mem'⟩, hrun, hwritten⟩ := Option.map_eq_some_iff.mp hwritten
    refine ⟨th, mem', hrun, hwritten, ?_⟩
    exact ((hmaster sampleMaster sampleReader .start masterTurns).1 th mem' hrun 0).trans hlines

end LogCollector
