import LogCollector.Loops.Worker
import LogCollector.Lib.Schedule

/-!
# Leaving `worker_loop`

A killed worker leaves its loop when the report of one plugin finds the ring of
one master empty. The other rings of that plugin, the rings of the other
plugins and the write buffers are not looked at, although the program then
prints that it waited until all rings were emptied: `worker_exit_loses` is a
run that leaves a packet in a ring and a record in a write buffer.

What is left behind can be read off the schedule alone. A ring is empty when
from every moment on it was polled as often as packets were put on it, and the
records of a plugin are all in its file when the file timer fell due for that
plugin after the last of them (`worker_exit_lossless_iff`).
-/

namespace LogCollector

variable {σ π ρ : Type}

/-- What happens while a worker runs: its own steps, and those of the rest of
the process. -/
inductive WorkerEvent (π : Type)
  | own (a : WorkerAction)
  | elsewhere (e : Elsewhere π)

/-- A worker among the other threads. The run ends when the worker leaves its
loop. -/
def workerAmongOthers (config : WorkerConfig) (builder : RecordBuilder σ π ρ) :
    Lib.Step (Worker σ π ρ × Memory π) (WorkerEvent π)
  | (th, mem), .own a => workerStep config builder (th, mem) a
  | (th, mem), .elsewhere e =>
    match th.pc with
    | .exited => none
    | _ => (mem.elsewhere e).map (th, ·)

/-- No packet is put on a ring after the kill signal. -/
def QuietAfterKill (events : List (WorkerEvent π)) : Prop :=
  events.Pairwise fun a b => match a, b with
    | .elsewhere .kill, .elsewhere (.enqueue _ _) => False
    | _, _ => True

/-- Every ring the worker polls is empty, and every record placed in a write
buffer was written. -/
structure WorkerLossless (config : WorkerConfig) (th : Worker σ π ρ) (mem : Memory π) : Prop where
  rings : ∀ i < config.plugins.length, ∀ m < config.nb_masters, ∀ ring,
    config.ring_rxs i m = some ring → (mem.rings ring).items = []
  records : ∀ i < config.plugins.length, (th.wb i).written.map Prod.snd = (th.wb i).placed

/-! ## Reading the schedule -/

/-- A packet is put on the ring. -/
def arrivesAt (ring : Nat) : WorkerEvent π → Bool
  | .elsewhere (.enqueue r _) => r = ring
  | _ => false

/-- The ring is polled. -/
def pollsAt (config : WorkerConfig) (ring : Nat) : WorkerEvent π → Bool
  | .own (.dequeue i m) => config.ring_rxs i m = some ring
  | .elsewhere (.dequeue r) => r = ring
  | _ => false

/-- A record is placed in `wb[i]`. -/
def placesIn (i : Nat) : WorkerEvent π → Bool
  | .own (.process j _) => j = i
  | _ => false

/-- The file timer is due for the plugin at `i`. -/
def fileTimerDue (i : Nat) : WorkerEvent π → Bool
  | .own (.fileTimer j due) => j = i && due
  | _ => false

/-! ## What one step does -/

/-- What an own step does to the rings and the write buffers. -/
inductive WorkerEffect (config : WorkerConfig) (th th' : Worker σ π ρ) (mem mem' : Memory π) :
    WorkerAction → Prop
  | took {i m ring : Nat} {pkt : π} (exists_ring : config.ring_rxs i m = some ring)
    (mem_eq : mem.dequeue ring = some (pkt, mem')) (wb_eq : th'.wb = th.wb) :
    WorkerEffect config th th' mem mem' (.dequeue i m)
  | foundEmpty {i m ring : Nat} (exists_ring : config.ring_rxs i m = some ring)
    (empty : mem.dequeue ring = none) (mem_eq : mem' = mem) (wb_eq : th'.wb = th.wb) :
    WorkerEffect config th th' mem mem' (.dequeue i m)
  | placed {i m fptr : Nat} {record : ρ} (mem_eq : mem' = mem)
    (wb_eq : th'.wb = Function.update th.wb i ((th.wb i).place fptr record)) :
    WorkerEffect config th th' mem mem' (.process i m)
  | drained {i fptr : Nat} (mem_eq : mem' = mem)
    (wb_eq : th'.wb = BufferedFile.drainPending th.wb i fptr) :
    WorkerEffect config th th' mem mem' (.fileTimer i true)
  | notDue {i : Nat} (mem_eq : mem' = mem) (wb_eq : th'.wb = th.wb) :
    WorkerEffect config th th' mem mem' (.fileTimer i false)
  | free {i m : Nat} (rings_eq : mem'.rings = mem.rings) (wb_eq : th'.wb = th.wb) :
    WorkerEffect config th th' mem mem' (.free i m)
  | report {i : Nat} {due : Bool} (mem_eq : mem' = mem) (wb_eq : th'.wb = th.wb) :
    WorkerEffect config th th' mem mem' (.report i due)
  | tested {i m : Nat} (mem_eq : mem' = mem) (wb_eq : th'.wb = th.wb) :
    WorkerEffect config th th' mem mem' (.test i m)

/-- An own step leaves the loop only where a test finds a ring empty. -/
def Leaves (config : WorkerConfig) (mem : Memory π) (a : WorkerAction) : Prop :=
  ∃ i m ring, a = .test i m ∧ config.ring_rxs i m = some ring ∧ (mem.rings ring).items = []

theorem WorkerConfig.dequeueFrom_ne_exited (config : WorkerConfig) (i m : Nat) :
    (config.dequeueFrom i m : WorkerPc π) ≠ .exited := by
  rw [dequeueFrom]
  split <;> exact nofun

theorem WorkerConfig.testFrom_ne_exited (config : WorkerConfig) (i m : Nat) :
    (config.testFrom i m : WorkerPc π) ≠ .exited := by
  rw [testFrom]
  split <;> exact nofun

theorem workerEffect {config : WorkerConfig} {builder : RecordBuilder σ π ρ}
    {th th' : Worker σ π ρ} {mem mem' : Memory π} {a : WorkerAction}
    (h : workerStep config builder (th, mem) a = some (th', mem')) :
    WorkerEffect config th th' mem mem' a ∧ (th'.pc = .exited → Leaves config mem a) := by
  have stays {pc : WorkerPc π} (hne : pc ≠ .exited) (heq : pc = .exited) : Leaves config mem a :=
    absurd heq hne
  cases workerStepped h with
  | took _ hring hdeq => exact ⟨.took hring hdeq rfl, stays nofun⟩
  | foundEmpty _ hring hdeq =>
    exact ⟨.foundEmpty hring hdeq rfl rfl, stays (config.dequeueFrom_ne_exited _ _)⟩
  | processed => exact ⟨.placed rfl rfl, stays nofun⟩
  | freed => exact ⟨.free rfl rfl, stays (config.dequeueFrom_ne_exited _ _)⟩
  | @reported i due =>
    refine ⟨.report rfl rfl, stays ?_⟩
    cases due with
    | false => exact nofun
    | true => exact config.testFrom_ne_exited _ 0
  | left _ hring _ hempty => exact ⟨.tested rfl rfl, fun _ => ⟨_, _, _, rfl, hring, hempty⟩⟩
  | stayed => exact ⟨.tested rfl rfl, stays (config.testFrom_ne_exited _ _)⟩
  | @timed i due wb _ hwb =>
    refine ⟨?_, stays (config.dequeueFrom_ne_exited _ 0)⟩
    cases due with
    | false => exact .notDue rfl hwb
    | true => exact .drained rfl hwb

/-- A step of the rest of the process leaves the worker alone. -/
theorem elsewhere_step {config : WorkerConfig} {builder : RecordBuilder σ π ρ}
    {s s' : Worker σ π ρ × Memory π} {e : Elsewhere π}
    (h : workerAmongOthers config builder s (.elsewhere e) = some s') :
    s.1.pc ≠ .exited ∧ s'.1 = s.1 ∧ s.2.elsewhere e = some s'.2 := by
  obtain ⟨th, mem⟩ := s
  simp only [workerAmongOthers] at h
  split at h
  · cases h
  · next hpc =>
    obtain ⟨mem', hmem, rfl⟩ := Option.map_eq_some_iff.mp h
    exact ⟨hpc, rfl, hmem⟩

/-! ## Rings and write buffers along a run -/

/-- What one event does to the length of a ring. -/
theorem length_ring_event {config : WorkerConfig} {builder : RecordBuilder σ π ρ} (ring : Nat)
    {s s' : Worker σ π ρ × Memory π} {event : WorkerEvent π}
    (h : workerAmongOthers config builder s event = some s') :
    (s'.2.rings ring).items.length =
      if arrivesAt ring event then (s.2.rings ring).items.length + 1
      else if pollsAt config ring event then (s.2.rings ring).items.length - 1
      else (s.2.rings ring).items.length := by
  obtain ⟨th, mem⟩ := s
  obtain ⟨th', mem'⟩ := s'
  cases event with
  | own a =>
    cases (workerEffect h).1 with
    | @took i m r pkt hring hmem =>
      simp only [arrivesAt, pollsAt, hring, Bool.false_eq_true, if_false, Option.some.injEq,
        decide_eq_true_eq]
      exact Memory.length_dequeue hmem ring
    | @foundEmpty i m r hring hempty hmem =>
      have hitems := Memory.items_dequeue_none hempty
      subst hmem
      simp only [arrivesAt, pollsAt, hring, Bool.false_eq_true, if_false, Option.some.injEq,
        decide_eq_true_eq]
      split
      · next hr =>
        subst hr
        rw [hitems, List.length_nil]
      · rfl
    | placed hmem | drained hmem | notDue hmem | report hmem | tested hmem =>
      subst hmem
      rfl
    | free hrings =>
      rw [hrings]
      rfl
  | elsewhere e =>
    obtain ⟨-, -, hmem⟩ := elsewhere_step h
    cases e with
    | enqueue r pkt =>
      simp only [arrivesAt, pollsAt, Bool.false_eq_true, if_false, decide_eq_true_eq]
      exact Memory.length_enqueue hmem ring
    | dequeue r =>
      obtain ⟨⟨pkt, mem''⟩, hdeq, rfl⟩ := Option.map_eq_some_iff.mp hmem
      simp only [arrivesAt, pollsAt, Bool.false_eq_true, if_false, decide_eq_true_eq]
      exact Memory.length_dequeue hdeq ring
    | enqueueReceived r pkt =>
      obtain ⟨q, -, rfl⟩ := mem.enqueueReceived_eq hmem
      rfl
    | dequeueReceived r =>
      obtain ⟨⟨pkt, mem''⟩, hdeq, rfl⟩ := Option.map_eq_some_iff.mp hmem
      obtain ⟨q, -, rfl⟩ := mem.dequeueReceived_eq hdeq
      rfl
    | kill | rotateJson p f | rotateTemp p f =>
      cases hmem
      rfl

theorem not_pollsAt_of_arrivesAt {config : WorkerConfig} {ring : Nat} {event : WorkerEvent π}
    (harrives : arrivesAt ring event) : pollsAt config ring event = false := by
  cases event with
  | own a => cases harrives
  | elsewhere e =>
    cases e with
    | enqueue r pkt => rfl
    | _ => cases harrives

theorem ring_backlog (config : WorkerConfig) (builder : RecordBuilder σ π ρ) (ring : Nat) :
    (workerAmongOthers config builder).Backlog (arrivesAt ring) (pollsAt config ring)
      fun s => (s.2.rings ring).items.length where
  arrives h harrives := by rw [length_ring_event ring h, if_pos harrives]
  leaves {s event s'} h hpolls := by
    have harrives : ¬ arrivesAt ring event := by
      intro harrives
      rw [not_pollsAt_of_arrivesAt harrives] at hpolls
      cases hpolls
    rw [length_ring_event ring h, if_neg harrives, if_pos hpolls]
  keeps h harrives hpolls := by
    rw [length_ring_event ring h, if_neg (Bool.eq_false_iff.mp harrives),
      if_neg (Bool.eq_false_iff.mp hpolls)]
  disjoint := not_pollsAt_of_arrivesAt

/-- What one event does to the records that wait in a write buffer. -/
theorem waiting_flag (config : WorkerConfig) (builder : RecordBuilder σ π ρ) (i : Nat) :
    (workerAmongOthers config builder).Flag (placesIn i) (fileTimerDue i)
      fun s => (s.1.wb i).wb.items ≠ [] where
  raises {s event s'} h hraise := by
    obtain ⟨th, mem⟩ := s
    obtain ⟨th', mem'⟩ := s'
    cases event with
    | own a =>
      cases (workerEffect h).1 with
      | @placed j m fptr record _ hwb =>
        obtain rfl : j = i := of_decide_eq_true hraise
        rw [hwb, Function.update_self]
        exact BufferedFile.place_ne_nil _ fptr record
      | _ => cases hraise
    | elsewhere e => cases hraise
  lowers {s event s'} h hlower := by
    obtain ⟨th, mem⟩ := s
    obtain ⟨th', mem'⟩ := s'
    cases event with
    | own a =>
      cases (workerEffect h).1 with
      | @drained j fptr _ hwb =>
        obtain rfl : j = i := by simpa [fileTimerDue] using hlower
        rw [hwb]
        exact fun hne => hne (BufferedFile.drainPending_self _ _ _)
      | notDue => simp [fileTimerDue] at hlower
      | _ => cases hlower
    | elsewhere e => cases hlower
  keeps {s event s'} h hraise hlower := by
    obtain ⟨th, mem⟩ := s
    obtain ⟨th', mem'⟩ := s'
    cases event with
    | own a =>
      cases (workerEffect h).1 with
      | @placed j m fptr record _ hwb =>
        have hne : i ≠ j := fun heq => of_decide_eq_false hraise heq.symm
        rw [hwb, Function.update_of_ne hne]
      | @drained j fptr _ hwb =>
        have hne : i ≠ j := fun heq => by simp [fileTimerDue, heq] at hlower
        rw [hwb, BufferedFile.drainPending_of_ne _ _ hne]
      | took _ _ hwb | foundEmpty _ _ _ hwb | notDue _ hwb | free _ hwb
      | report _ hwb | tested _ hwb => rw [hwb]
    | elsewhere e =>
      obtain ⟨-, hth, -⟩ := elsewhere_step h
      rw [hth]

/-! ## Leaving the loop -/

/-- A run that ends outside the loop ends with a test of a ring that is empty,
or the worker has no plugins. -/
theorem exited_last {config : WorkerConfig} {builder : RecordBuilder σ π ρ}
    {events : List (WorkerEvent π)} {th : Worker σ π ρ} {mem : Memory π}
    (hrun : (workerAmongOthers config builder).run (Worker.start config builder, .start) events =
      some (th, mem))
    (hexit : th.pc = .exited) :
    config.plugins.length = 0 ∨ ∃ i m ring, events.getLast? = some (.own (.test i m)) ∧
      config.ring_rxs i m = some ring ∧ (mem.rings ring).items = [] := by
  rcases List.eq_nil_or_concat events with rfl | ⟨before, event, rfl⟩
  · left
    cases hrun
    by_contra hpos
    rw [Worker.start, if_pos (Nat.pos_of_ne_zero hpos)] at hexit
    exact config.dequeueFrom_ne_exited 0 0 hexit
  · right
    rw [List.concat_eq_append] at hrun ⊢
    rw [Lib.Step.run_concat] at hrun
    obtain ⟨⟨th₀, mem₀⟩, -, hstep⟩ := Option.bind_eq_some_iff.mp hrun
    cases event with
    | own a =>
      obtain ⟨heffect, hleaves⟩ := workerEffect hstep
      obtain ⟨i, m, ring, rfl, hring, hempty⟩ := hleaves hexit
      cases heffect with
      | tested hmem =>
        exact ⟨i, m, ring, List.getLast?_concat, hring, hmem ▸ hempty⟩
    | elsewhere e =>
      obtain ⟨hpc, rfl, -⟩ := elsewhere_step hstep
      exact absurd hexit hpc

/-- WHAT A WORKER LEAVES BEHIND: every packet was taken and every record is in
its file exactly when each ring, but the one found empty on leaving, was polled
from every moment on as often as packets were put on it, and the records of
each plugin are followed by a file timer that is due for it. -/
theorem worker_exit_lossless_iff (config : WorkerConfig) (builder : RecordBuilder σ π ρ)
    {events : List (WorkerEvent π)} {th : Worker σ π ρ} {mem : Memory π}
    (hrun : (workerAmongOthers config builder).run (Worker.start config builder, .start) events =
      some (th, mem))
    (hexit : th.pc = .exited) :
    WorkerLossless config th mem ↔
      (∀ i < config.plugins.length, ∀ m < config.nb_masters, ∀ ring,
        config.ring_rxs i m = some ring → events.getLast? ≠ some (.own (.test i m)) →
          Lib.Schedule.Settles (arrivesAt ring) (pollsAt config ring) events) ∧
      (∀ i < config.plugins.length,
        Lib.Schedule.Followed (placesIn i) (fileTimerDue i) events) := by
  have ring_iff (ring : Nat) : (mem.rings ring).items = [] ↔
      Lib.Schedule.Settles (arrivesAt ring) (pollsAt config ring) events := by
    have h := (ring_backlog config builder ring).eq_zero_iff hrun
    rw [List.length_eq_zero_iff] at h
    rw [h, and_iff_right_iff_imp]
    intro hsettles
    have hstart : ((Memory.start : Memory π).rings ring).items.length = 0 := rfl
    rw [hstart, Nat.zero_add]
    exact hsettles.countP_le
  have records_iff (i : Nat) : (th.wb i).written.map Prod.snd = (th.wb i).placed ↔
      Lib.Schedule.Followed (placesIn i) (fileTimerDue i) events := by
    have h := (waiting_flag config builder i).down_iff hrun
    rw [not_not] at h
    rw [BufferedFile.written_eq_placed_iff, h, and_iff_right_iff_imp]
    intro _ hwaiting
    refine absurd ?_ hwaiting
    rw [Worker.start]
    split <;> rfl
  constructor
  · intro h
    exact ⟨fun i hi m hm ring hring _ => (ring_iff ring).mp (h.rings i hi m hm ring hring),
      fun i hi => (records_iff i).mp (h.records i hi)⟩
  · rintro ⟨hrings, hrecords⟩
    refine ⟨?_, fun i hi => (records_iff i).mpr (hrecords i hi)⟩
    intro i hi m hm ring hring
    by_cases hlast : events.getLast? = some (.own (.test i m))
    · rcases exited_last hrun hexit with hnone | ⟨i', m', ring', hlast', hring', hempty⟩
      · omega
      · rw [hlast] at hlast'
        cases hlast'
        cases hring.symm.trans hring'
        exact hempty
    · exact (ring_iff ring).mpr (hrings i hi m hm ring hring hlast)

/-! ## A run that loses -/

/-- One plugin and two masters. -/
def twoRings : WorkerConfig where
  plugins := [0]
  nb_masters := 2
  ring_rxs _ m := some m

/-- A record that is the packet. -/
def copyBuilder : RecordBuilder Unit Nat Nat where
  initial := ()
  beginPass := id
  build _ _ pkt := some (pkt, ())

/-- The second ring gets a packet after it was polled. The worker is killed and
leaves when its next report finds the first ring empty. -/
def losingRun : List (WorkerEvent Nat) :=
  [.elsewhere (.enqueue 0 7), .own (.dequeue 0 0), .own (.process 0 0), .own (.free 0 0),
    .own (.dequeue 0 1), .elsewhere (.enqueue 1 8), .elsewhere .kill, .own (.report 0 true),
    .own (.test 0 0)]

theorem worker_exit_loses : ∃ s, QuietAfterKill losingRun ∧
    (workerAmongOthers twoRings copyBuilder).run (Worker.start twoRings copyBuilder, .start)
      losingRun = some s ∧
    s.1.pc = .exited ∧ (s.2.rings 1).items = [8] ∧ (s.1.wb 0).placed = [7] ∧
    (s.1.wb 0).written = [] ∧ ¬ WorkerLossless twoRings s.1 s.2 := by
  refine ⟨_, ?_, rfl, rfl, rfl, rfl, rfl, ?_⟩
  · simp [QuietAfterKill, losingRun]
  · intro h
    exact absurd (h.records 0 Nat.zero_lt_one) (by decide)

/-- The same packets; the worker polls both rings again and its file timer
falls due before the report. -/
def losslessRun : List (WorkerEvent Nat) :=
  [.elsewhere (.enqueue 0 7), .own (.dequeue 0 0), .own (.process 0 0), .own (.free 0 0),
    .own (.dequeue 0 1), .elsewhere (.enqueue 1 8), .elsewhere .kill, .own (.report 0 false),
    .own (.fileTimer 0 false), .own (.dequeue 0 0), .own (.dequeue 0 1), .own (.process 0 1),
    .own (.free 0 1), .own (.report 0 false), .own (.fileTimer 0 true), .own (.dequeue 0 0),
    .own (.dequeue 0 1), .own (.report 0 true), .own (.test 0 0)]

theorem worker_exit_lossless : ∃ s,
    (workerAmongOthers twoRings copyBuilder).run (Worker.start twoRings copyBuilder, .start)
      losslessRun = some s ∧ s.1.pc = .exited ∧ WorkerLossless twoRings s.1 s.2 := by
  obtain ⟨s, hs⟩ : ∃ s, (workerAmongOthers twoRings copyBuilder).run
      (Worker.start twoRings copyBuilder, .start) losslessRun = some s :=
    Option.isSome_iff_exists.mp rfl
  have hpc : ((workerAmongOthers twoRings copyBuilder).run
      (Worker.start twoRings copyBuilder, .start) losslessRun).map (·.1.pc) = some .exited := rfl
  rw [hs] at hpc
  have hexit : s.1.pc = .exited := Option.some.inj hpc
  refine ⟨s, hs, hexit, (worker_exit_lossless_iff twoRings copyBuilder hs hexit).mpr ⟨?_, ?_⟩⟩
  · intro i _ m hm ring hring _
    replace hm : m < 2 := hm
    cases hring
    interval_cases m
    · decide
    · decide
  · intro i hi
    replace hi : i < 1 := hi
    interval_cases i
    decide

end LogCollector
