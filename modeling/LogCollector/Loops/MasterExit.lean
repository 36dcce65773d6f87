import LogCollector.Loops.Master
import LogCollector.Lib.Schedule

/-!
# Leaving `main_loop`

The test that lets a killed master leave its loop stands inside the loop over
the plugins, after the drain of one write buffer and before the drain of the
next. The receiver ring is empty then, and so are the write buffers up to that
plugin; what waits in the buffers of later plugins is lost (`master_exit_loses`)
unless it was drained on an earlier round (`master_exit_lossless_iff`).
-/

namespace LogCollector

variable {π ℓ : Type}

/-- What happens while a master runs: its own steps, and those of the rest of
the process. -/
inductive MasterEvent (π : Type)
  | own (a : MasterAction)
  | elsewhere (e : Elsewhere π)

/-- A master among the other threads. The run ends when the master leaves its
loop. -/
def masterAmongOthers (config : MasterConfig) (reader : PacketReader π ℓ) :
    Lib.Step (Master π ℓ × Memory π) (MasterEvent π)
  | (th, mem), .own a => masterStep config reader (th, mem) a
  | (th, mem), .elsewhere e =>
    match th.pc with
    | .exited => none
    | _ => (mem.elsewhere e).map (th, ·)

/-- No packet arrives after the kill signal. -/
def NothingArrivesAfterKill (events : List (MasterEvent π)) : Prop :=
  events.Pairwise fun a b => match a, b with
    | .elsewhere .kill, .elsewhere (.enqueueReceived _ _) => False
    | _, _ => True

/-- The receiver ring is empty, and every line placed in a write buffer was
written, in order and once. -/
structure MasterLossless (config : MasterConfig) (ring : Nat) (th : Master π ℓ) (mem : Memory π) :
    Prop where
  ring : (mem.receiver_rings ring).items = []
  lines : ∀ p < config.plugin.length, (th.wb p).written.map Prod.snd = (th.wb p).placed

/-! ## Reading the schedule -/

/-- A line is placed in `wb[p]`. -/
def placesLine (p : Nat) : MasterEvent π → Bool
  | .own (.place q) => q = p
  | _ => false

/-- `wb[p]` is drained by the file timer. -/
def drainsLines (p : Nat) : MasterEvent π → Bool
  | .own (.drain q) => q = p
  | _ => false

/-! ## What one step does -/

/-- What an own step does to the write buffers. -/
inductive MasterEffect (th th' : Master π ℓ) : MasterAction → Prop
  | placed {p fptr : Nat} {line : ℓ}
    (wb_eq : th'.wb = Function.update th.wb p ((th.wb p).place fptr line)) :
    MasterEffect th th' (.place p)
  | drained {i fptr : Nat} (wb_eq : th'.wb = BufferedFile.drainPending th.wb i fptr) :
    MasterEffect th th' (.drain i)
  | kept {a : MasterAction} (place : ∀ p, a ≠ .place p) (drain : ∀ p, a ≠ .drain p)
    (wb_eq : th'.wb = th.wb) : MasterEffect th th' a

/-- In the loop over the plugins, the buffers of the plugins already visited are
empty. -/
def DrainedBelow (th : Master π ℓ) : Prop :=
  match th.pc with
  | .drain i => ∀ p < i, (th.wb p).wb.items = []
  | .test i => ∀ p ≤ i, (th.wb p).wb.items = []
  | _ => True

/-- Outside the loop over the plugins there is nothing to keep, and its head is
outside for a first plugin. -/
theorem drainedBelow_drainFrom {config : MasterConfig} {th : Master π ℓ} {i : Nat}
    (hpc : th.pc = config.drainFrom i) (h : ∀ p < i, (th.wb p).wb.items = []) :
    DrainedBelow th := by
  rw [DrainedBelow, hpc, MasterConfig.drainFrom]
  split
  · next heq =>
    split at heq <;> cases heq
    exact h
  · next heq => split at heq <;> cases heq
  · trivial

theorem MasterConfig.drainFrom_ne_exited (config : MasterConfig) (i : Nat) :
    (config.drainFrom i : MasterPc π) ≠ .exited := by
  rw [drainFrom]
  split <;> exact nofun

/-- An own step leaves the loop only where a test finds the receiver ring empty. -/
def LeavesMain (config : MasterConfig) (th : Master π ℓ) (mem : Memory π)
    (a : MasterAction) : Prop :=
  ∃ i ring, a = .test i ∧ th.pc = .test i ∧ config.ring = some ring ∧
    (mem.receiver_rings ring).items = []

theorem masterEffect {config : MasterConfig} {reader : PacketReader π ℓ} {th th' : Master π ℓ}
    {mem mem' : Memory π} {a : MasterAction}
    (h : masterStep config reader (th, mem) a = some (th', mem')) :
    MasterEffect th th' a ∧ (DrainedBelow th → DrainedBelow th') ∧
      (th'.pc = .exited → LeavesMain config th mem a ∧ mem' = mem) := by
  have stays {pc : MasterPc π} (hne : pc ≠ .exited) (heq : pc = .exited) :
      LeavesMain config th mem a ∧ mem' = mem := absurd heq hne
  cases masterStepped h with
  | took | foundEmpty | listened | unlistened | handedOn | refused | freed =>
    exact ⟨.kept nofun nofun rfl, fun _ => trivial, stays nofun⟩
  | placed => exact ⟨.placed rfl, fun _ => trivial, stays nofun⟩
  | @timed due =>
    cases due with
    | false => exact ⟨.kept nofun nofun rfl, fun _ => trivial, stays nofun⟩
    | true =>
      refine ⟨.kept nofun nofun rfl, ?_, stays (config.drainFrom_ne_exited 0)⟩
      intro _
      exact drainedBelow_drainFrom rfl fun p hp => absurd hp p.not_lt_zero
  | @drained i hpc =>
    refine ⟨.drained rfl, ?_, nofun⟩
    intro hbelow p hp
    rw [DrainedBelow, hpc] at hbelow
    rcases Nat.lt_or_eq_of_le hp with hlt | rfl
    · have hkept := BufferedFile.drainPending_of_ne th.wb (mem.temp_fptr i) (Nat.ne_of_lt hlt)
      exact (congrArg (·.wb.items) hkept).trans (hbelow p hlt)
    · exact BufferedFile.drainPending_self _ _ _
  | left hpc hring _ hempty =>
    exact ⟨.kept nofun nofun rfl, fun _ => trivial,
      fun _ => ⟨⟨_, _, rfl, hpc, hring, hempty⟩, rfl⟩⟩
  | stayed hpc =>
    refine ⟨.kept nofun nofun rfl, ?_, stays (config.drainFrom_ne_exited _)⟩
    intro hbelow
    rw [DrainedBelow, hpc] at hbelow
    exact drainedBelow_drainFrom rfl fun p hp => hbelow p (Nat.le_of_lt_succ hp)

/-! ## Write buffers along a run -/

/-- A step of the rest of the process leaves the master alone. -/
theorem master_elsewhere {config : MasterConfig} {reader : PacketReader π ℓ}
    {s s' : Master π ℓ × Memory π} {e : Elsewhere π}
    (h : masterAmongOthers config reader s (.elsewhere e) = some s') :
    s.1.pc ≠ .exited ∧ s'.1 = s.1 := by
  obtain ⟨th, mem⟩ := s
  simp only [masterAmongOthers] at h
  split at h
  · cases h
  · next hpc =>
    obtain ⟨mem', -, rfl⟩ := Option.map_eq_some_iff.mp h
    exact ⟨hpc, rfl⟩

theorem drainedBelow_start (config : MasterConfig) :
    DrainedBelow (Master.start config : Master π ℓ) := by
  rw [DrainedBelow, Master.start]
  cases config.ring <;> trivial

theorem drainedBelow_step {config : MasterConfig} {reader : PacketReader π ℓ}
    (s : Master π ℓ × Memory π) (event : MasterEvent π) (s' : Master π ℓ × Memory π)
    (hbelow : DrainedBelow s.1) (h : masterAmongOthers config reader s event = some s') :
    DrainedBelow s'.1 := by
  cases event with
  | own a => exact (masterEffect h).2.1 hbelow
  | elsewhere e =>
    rw [(master_elsewhere h).2]
    exact hbelow

/-- What one event does to the lines that wait in a write buffer. -/
theorem lines_flag (config : MasterConfig) (reader : PacketReader π ℓ) (p : Nat) :
    (masterAmongOthers config reader).Flag (placesLine p) (drainsLines p)
      fun s => (s.1.wb p).wb.items ≠ [] where
  raises {s event s'} h hraise := by
    cases event with
    | elsewhere e => cases hraise
    | own a =>
      cases (masterEffect h).1 with
      | @placed q fptr line hwb =>
        obtain rfl : q = p := of_decide_eq_true hraise
        rw [hwb, Function.update_self]
        exact BufferedFile.place_ne_nil _ fptr line
      | drained => cases hraise
      | kept hplace =>
        cases a with
        | place q => exact absurd rfl (hplace q)
        | _ => cases hraise
  lowers {s event s'} h hlower := by
    cases event with
    | elsewhere e => cases hlower
    | own a =>
      cases (masterEffect h).1 with
      | placed => cases hlower
      | @drained q fptr hwb =>
        obtain rfl : q = p := of_decide_eq_true hlower
        rw [hwb]
        exact fun hne => hne (BufferedFile.drainPending_self _ _ _)
      | kept _ hdrain =>
        cases a with
        | drain q => exact absurd rfl (hdrain q)
        | _ => cases hlower
  keeps {s event s'} h hraise hlower := by
    cases event with
    | elsewhere e => rw [(master_elsewhere h).2]
    | own a =>
      cases (masterEffect h).1 with
      | @placed q fptr line hwb =>
        have hne : p ≠ q := fun heq => of_decide_eq_false hraise heq.symm
        rw [hwb, Function.update_of_ne hne]
      | @drained q fptr hwb =>
        have hne : p ≠ q := fun heq => of_decide_eq_false hlower heq.symm
        rw [hwb, BufferedFile.drainPending_of_ne _ _ hne]
      | kept _ _ hwb => rw [hwb]

/-! ## Leaving the loop -/

/-- A run that ends outside the loop ends with the test after the drain of some
plugin, with the receiver ring empty and so every buffer up to that plugin. -/
theorem master_exited {config : MasterConfig} {reader : PacketReader π ℓ} {ring : Nat}
    (hring : config.ring = some ring) {events : List (MasterEvent π)} {th : Master π ℓ}
    {mem : Memory π}
    (hrun : (masterAmongOthers config reader).run (Master.start config, .start) events =
      some (th, mem))
    (hexit : th.pc = .exited) :
    ∃ i, events.getLast? = some (.own (.test i)) ∧ (mem.receiver_rings ring).items = [] ∧
      ∀ p ≤ i, (th.wb p).wb.items = [] := by
  rcases List.eq_nil_or_concat events with rfl | ⟨before, event, rfl⟩
  · cases hrun
    rw [Master.start, hring] at hexit
    cases hexit
  · rw [List.concat_eq_append] at hrun ⊢
    rw [Lib.Step.run_concat] at hrun
    obtain ⟨⟨th₀, mem₀⟩, hbefore, hstep⟩ := Option.bind_eq_some_iff.mp hrun
    have hbelow : DrainedBelow th₀ :=
      Lib.Step.run_induct (I := fun s => DrainedBelow s.1) drainedBelow_step
        (drainedBelow_start config) hbefore
    cases event with
    | own a =>
      obtain ⟨heffect, -, hleaves⟩ := masterEffect hstep
      obtain ⟨⟨i, ring', rfl, hpc, hring', hempty⟩, rfl⟩ := hleaves hexit
      rw [DrainedBelow, hpc] at hbelow
      cases hring.symm.trans hring'
      cases heffect with
      | kept _ _ hwb => exact ⟨i, List.getLast?_concat, hempty, fun p hp => hwb ▸ hbelow p hp⟩
    | elsewhere e =>
      obtain ⟨hpc, rfl⟩ := master_elsewhere hstep
      exact absurd hexit hpc

/-- WHAT A MASTER LEAVES BEHIND: every packet was taken and every line is in its
file exactly when each line of a plugin after the one at which the master left
is followed by a drain of that plugin. -/
theorem master_exit_lossless_iff (config : MasterConfig) (reader : PacketReader π ℓ) {ring : Nat}
    (hring : config.ring = some ring) {events : List (MasterEvent π)} {th : Master π ℓ}
    {mem : Memory π}
    (hrun : (masterAmongOthers config reader).run (Master.start config, .start) events =
      some (th, mem))
    (hexit : th.pc = .exited) :
    MasterLossless config ring th mem ↔
      ∀ i, events.getLast? = some (.own (.test i)) → ∀ p < config.plugin.length, i < p →
        Lib.Schedule.Followed (placesLine p) (drainsLines p) events := by
  obtain ⟨i, hlast, hempty, hbelow⟩ := master_exited hring hrun hexit
  have lines_iff (p : Nat) : (th.wb p).written.map Prod.snd = (th.wb p).placed ↔
      Lib.Schedule.Followed (placesLine p) (drainsLines p) events := by
    have h := (lines_flag config reader p).down_iff hrun
    rw [not_not] at h
    rw [BufferedFile.written_eq_placed_iff, h, and_iff_right_iff_imp]
    exact fun _ hwaiting => absurd rfl hwaiting
  constructor
  · intro h _ _ p hp _
    exact (lines_iff p).mp (h.lines p hp)
  · intro h
    refine ⟨hempty, ?_⟩
    intro p hp
    rcases Nat.lt_or_ge i p with hlt | hle
    · exact (lines_iff p).mpr (h i hlast p hp hlt)
    · exact (BufferedFile.written_eq_placed_iff _).mpr (hbelow p hle)

/-! ## A run that loses -/

/-- Two plugins, each with a worker of its own. -/
def twoPlugins : MasterConfig where
  ring := some 0
  plugin := [⟨1, [0], some⟩, ⟨2, [1], some⟩]
  nb_slaves := 2

/-- A packet is its sender, and so is its line. -/
def senderReader : PacketReader UInt32 UInt32 := ⟨id, id⟩

/-- A line of the second plugin waits when the master is killed, and the test
after the first plugin finds the receiver ring empty. -/
def losingMaster : List (MasterEvent UInt32) :=
  [.elsewhere (.enqueueReceived 0 2), .own .dequeue, .own .lookup, .own (.place 1),
    .own (.enqueue 0), .elsewhere .kill, .own (.fileTimer true), .own (.drain 0), .own (.test 0)]

theorem master_exit_loses : ∃ s, NothingArrivesAfterKill losingMaster ∧
    (masterAmongOthers twoPlugins senderReader).run (Master.start twoPlugins, .start) losingMaster =
      some s ∧
    s.1.pc = .exited ∧ (s.1.wb 1).placed = [2] ∧ (s.1.wb 1).written = [] ∧
    ¬ MasterLossless twoPlugins 0 s.1 s.2 := by
  refine ⟨_, ?_, rfl, rfl, rfl, rfl, ?_⟩
  · simp [NothingArrivesAfterKill, losingMaster]
  · intro h
    exact absurd (h.lines 1 (by decide)) (by decide)

/-- The same line, drained on the round before. -/
def losslessMaster : List (MasterEvent UInt32) :=
  [.elsewhere (.enqueueReceived 0 2), .own .dequeue, .own .lookup, .own (.place 1),
    .own (.enqueue 0), .own (.fileTimer true), .own (.drain 0), .own (.test 0), .own (.drain 1),
    .own (.test 1), .elsewhere .kill, .own .dequeue, .own (.fileTimer true), .own (.drain 0),
    .own (.test 0)]

theorem master_exit_lossless : ∃ s,
    (masterAmongOthers twoPlugins senderReader).run (Master.start twoPlugins, .start)
      losslessMaster = some s ∧
    s.1.pc = .exited ∧ MasterLossless twoPlugins 0 s.1 s.2 := by
  obtain ⟨s, hs⟩ : ∃ s, (masterAmongOthers twoPlugins senderReader).run
      (Master.start twoPlugins, .start) losslessMaster = some s :=
    Option.isSome_iff_exists.mp rfl
  have hpc : ((masterAmongOthers twoPlugins senderReader).run
      (Master.start twoPlugins, .start) losslessMaster).map (·.1.pc) = some .exited := rfl
  rw [hs] at hpc
  have hexit : s.1.pc = .exited := Option.some.inj hpc
  refine ⟨s, hs, hexit, (master_exit_lossless_iff twoPlugins senderReader rfl hs hexit).mpr ?_⟩
  intro i hlast p hp hlt
  cases hlast
  replace hp : p < 2 := hp
  interval_cases p
  decide

end LogCollector
