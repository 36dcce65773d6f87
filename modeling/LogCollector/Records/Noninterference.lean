import LogCollector.Lib.Related
import LogCollector.Loops.WorkerExit
import LogCollector.Records.Emission

/-!
# Does one log change the record of another?

The variables of a pass are set once, before the packets of all masters are
taken. The second packet of a pass finds the regexes and the score of the first
one, so it can be given a regex that does not match it
(`second_packet_misjudged`). And `func_ret_str` is never cleared, so a custom
function that begins with `strcat` passes on what an earlier one wrote.

Where a packet finds the variables of the pass as they were set and its own
custom functions begin with `strcpy`, its record depends on nothing else
(`record_of_packet_alone`). That is said of two runs, so the proof
carries a relation between the variables of two workers (`Agree`) through the
choice, and one between their results through the fields.
-/

namespace LogCollector

/-! ## The choice -/

/-- Two workers that have chosen the same regex so far. What they hold in rows
that lost and in `func_ret_str` may differ. -/
structure Agree (vars vars' : PassVars) : Prop where
  suit_rgxs : vars.suit_rgxs = vars'.suit_rgxs
  best_match : vars.best_match = vars'.best_match
  best_rgx : 0 < vars.best_match → vars.best_rgx = vars'.best_rgx
  best_rgx_index : 0 < vars.best_match → vars.best_rgx_index = vars'.best_rgx_index
  ovector : 0 < vars.best_match →
    vars.rgx_sub_vectors vars.best_rgx_index = vars'.rgx_sub_vectors vars'.best_rgx_index

namespace Agree

variable {vars vars' : PassVars}

theorem withSuitable (h : Agree vars vars') (suit_rgxs : List Regex) :
    Agree { vars with suit_rgxs } { vars' with suit_rgxs } :=
  { h with suit_rgxs := rfl }

theorem tryRegex (h : Agree vars vars') (pcre : Pcre) (buf : CStr) (r_index : Nat) (rgx : Regex) :
    Agree (LogCollector.tryRegex pcre buf vars r_index rgx)
      (LogCollector.tryRegex pcre buf vars' r_index rgx) := by
  simp only [LogCollector.tryRegex]
  by_cases hbetter : (matchWithPcreJit pcre rgx buf).1 > vars.best_match
  · rw [if_pos hbetter, if_pos (h.best_match ▸ hbetter)]
    exact ⟨h.suit_rgxs, rfl, fun _ => rfl, fun _ => rfl, fun _ => by
      simp only [Function.update_self]⟩
  · rw [if_neg hbetter, if_neg (h.best_match ▸ hbetter)]
    refine ⟨h.suit_rgxs, h.best_match, h.best_rgx, h.best_rgx_index, ?_⟩
    intro hpos
    -- the row of the best regex is matched again, or left alone
    have hindex := h.best_rgx_index hpos
    by_cases hrow : vars'.best_rgx_index = r_index
    · simp only [hindex, hrow, Function.update_self]
    · have := h.ovector hpos
      simp only [hindex] at this
      simp only [hindex, Function.update_of_ne hrow, this]

theorem matchSuitable (h : Agree vars vars') (pcre : Pcre) (buf : CStr) :
    Agree (LogCollector.matchSuitable pcre buf vars)
      (LogCollector.matchSuitable pcre buf vars') := by
  rw [LogCollector.matchSuitable, LogCollector.matchSuitable, h.suit_rgxs]
  exact Lib.Related.foldl (fun _ _ entry h => h.tryRegex pcre buf entry.2 entry.1) h

theorem matchGeneric (h : Agree vars vars') (pcre : Pcre) (plgn : Plugin) (i : Nat) (buf : CStr) :
    Option.Rel Agree (LogCollector.matchGeneric pcre plgn i buf vars)
      (LogCollector.matchGeneric pcre plgn i buf vars') := by
  refine Lib.Related.foldlM ?_ (h.withSuitable [])
  intro vars vars' r_index h
  rw [h.suit_rgxs]
  cases plgn.generic_p_regex[i]? with
  | none => exact .none
  | some rgx =>
    cases hstore : storeSuitable vars'.suit_rgxs rgx with
    | none =>
      simp only [Option.bind_some, hstore, Option.map_none]
      exact .none
    | some suit_rgxs =>
      simp only [Option.bind_some, hstore, Option.map_some]
      exact .some ((h.withSuitable suit_rgxs).tryRegex pcre buf r_index rgx)

/-- Workers that agree before a packet agree after its choice. -/
theorem chooseRegex (h : Agree vars vars') (env : RecordEnv) (i : Nat) (buf : CStr) :
    Option.Rel Agree (LogCollector.chooseRegex env i buf vars)
      (LogCollector.chooseRegex env i buf vars') := by
  rw [LogCollector.chooseRegex, LogCollector.chooseRegex, h.suit_rgxs]
  refine Lib.Related.bind (Lib.Related.refl (R := Eq) (fun _ => rfl) _) ?_
  rintro plgn _ rfl
  refine Lib.Related.bind (Lib.Related.refl (R := Eq) (fun _ => rfl) _) ?_
  rintro suit_rgxs _ rfl
  have hmatch := (h.withSuitable suit_rgxs).matchSuitable env.pcre buf
  simp only [hmatch.best_match]
  split
  · exact hmatch.matchGeneric env.pcre plgn i buf
  · exact .some hmatch

theorem chosen (h : Agree vars vars') : vars.chosen = vars'.chosen := by
  rw [PassVars.chosen, PassVars.chosen, ← h.best_match]
  split
  · next hpos => exact h.best_rgx hpos
  · rfl

end Agree

/-- The variables as they are set at the head of the loop over the plugins. -/
def PassVars.Fresh (vars : PassVars) : Prop := vars.suit_rgxs = [] ∧ vars.best_match = 0

instance (vars : PassVars) : Decidable vars.Fresh := inferInstanceAs (Decidable (_ ∧ _))

theorem PassVars.fresh_beginPass (vars : PassVars) : vars.beginPass.Fresh := ⟨rfl, rfl⟩

/-- Before their first match two workers agree, whatever their stacks hold. -/
theorem Agree.of_fresh {vars vars' : PassVars} (h : vars.Fresh) (h' : vars'.Fresh) :
    Agree vars vars' where
  suit_rgxs := h.1.trans h'.1.symm
  best_match := h.2.trans h'.2.symm
  best_rgx hpos := absurd h.2 (Nat.pos_iff_ne_zero.mp hpos)
  best_rgx_index hpos := absurd h.2 (Nat.pos_iff_ne_zero.mp hpos)
  ovector hpos := absurd h.2 (Nat.pos_iff_ne_zero.mp hpos)

/-! ## The record -/

/-- Is the first custom function that is called for these fields one that starts
from the old contents of `func_ret_str`? -/
def readsOld (pcre : Pcre) (rgx : Regex) (buf : CStr) (ovector : Nat → Int) (stringcount : Nat) :
    List Field → Bool
  | [] => false
  | field :: fields =>
    match field.is_value, capturedBy pcre rgx buf ovector stringcount field, field.func_name with
    | false, some sub, some func_name => keepsOld pcre func_name sub
    | _, _, _ => readsOld pcre rgx buf ovector stringcount fields

/-- The record of the chosen regex starts from the old contents of
`func_ret_str`. -/
def PassVars.readsOld (vars : PassVars) (pcre : Pcre) (buf : CStr) : Bool :=
  match vars.chosen with
  | some rgx =>
    LogCollector.readsOld pcre rgx buf (vars.rgx_sub_vectors vars.best_rgx_index) vars.best_match
      rgx.fields
  | none => false

/-- The fields put the same into the record whatever was in the buffer. -/
theorem foldlM_emitField {pcre : Pcre} {rgx : Regex} {buf : CStr} {ovector : Nat → Int}
    {stringcount : Nat} {fields : List Field}
    (hold : readsOld pcre rgx buf ovector stringcount fields = false) :
    ∀ (e : Emission) (s t : CStr),
      Option.Rel (fun a b => a.1 = b.1)
        (fields.foldlM (emitField pcre rgx buf ovector stringcount) (e, s))
        (fields.foldlM (emitField pcre rgx buf ovector stringcount) (e, t)) := by
  induction fields with
  | nil => exact fun e s t => .some rfl
  | cons field fields ih =>
    intro e s t
    rw [List.foldlM_cons, List.foldlM_cons]
    simp only [emitField]
    rw [readsOld] at hold
    cases hvalue : field.is_value with
    | true =>
      simp only [hvalue] at hold
      simp only [if_true]
      exact ih hold _ s t
    | false =>
      simp only [hvalue] at hold
      simp only [Bool.false_eq_true, if_false]
      cases hcaptured : capturedBy pcre rgx buf ovector stringcount field with
      | none =>
        simp only [hcaptured] at hold
        exact ih hold e s t
      | some sub =>
        cases hfunc : field.func_name with
        | none =>
          simp only [hcaptured, hfunc] at hold
          exact ih hold _ s t
        | some func_name =>
          -- both runs go on with the same buffer
          simp only [hcaptured, hfunc] at hold
          simp only [customFunction_eq pcre func_name sub s, customFunction_eq pcre func_name sub t,
            hold, Bool.false_eq_true, if_false]
          exact Lib.Related.refl (R := fun a b : Emission × CStr => a.1 = b.1) (fun _ => rfl) _

/-- The record of a packet reads nothing an earlier packet left behind. -/
structure LeftoversUnread (env : RecordEnv) (i : Nat) (buf : CStr) (vars : PassVars) : Prop where
  fresh : vars.Fresh
  buffer : ∀ chosen ∈ chooseRegex env i buf vars, chosen.readsOld env.pcre buf = false
  /-- `debug` reads `best_rgx` even where no regex was chosen. -/
  debug : ∀ chosen ∈ chooseRegex env i buf vars, env.debug → 0 < chosen.best_match

instance (env : RecordEnv) (i : Nat) (buf : CStr) (vars : PassVars) :
    Decidable (LeftoversUnread env i buf vars) :=
  decidable_of_iff
    (vars.Fresh ∧ (∀ chosen ∈ chooseRegex env i buf vars, chosen.readsOld env.pcre buf = false) ∧
      ∀ chosen ∈ chooseRegex env i buf vars, env.debug → 0 < chosen.best_match)
    ⟨fun ⟨fresh, buffer, debug⟩ => ⟨fresh, buffer, debug⟩,
      fun ⟨fresh, buffer, debug⟩ => ⟨fresh, buffer, debug⟩⟩

theorem emitMatch_agree {pcre : Pcre} {buf : CStr} {vars vars' : PassVars} (h : Agree vars vars')
    (hold : vars.readsOld pcre buf = false) :
    Option.Rel (fun a b => a.1 = b.1) (emitMatch pcre buf vars) (emitMatch pcre buf vars') := by
  rw [emitMatch, emitMatch, ← h.best_match]
  split
  · next hpos =>
    rw [← h.best_rgx hpos]
    rw [PassVars.readsOld, PassVars.chosen, if_pos hpos] at hold
    cases hbest : vars.best_rgx with
    | none => exact .none
    | some rgx =>
      simp only [hbest] at hold
      simp only [Option.bind_some, ← h.ovector hpos]
      apply Lib.Related.map (foldlM_emitField hold .empty _ _)
      rintro ⟨e, s⟩ ⟨_, t⟩ rfl
      rfl
  · exact .some rfl

theorem putDebug_agree {vars vars' : PassVars} (h : Agree vars vars') (hpos : 0 < vars.best_match)
    (jason : Record) : putDebug vars jason = putDebug vars' jason := by
  rw [putDebug, putDebug, h.best_rgx hpos, h.best_match, h.suit_rgxs]

/-- Workers that agree on the choice build the same record. -/
theorem emitRecord_agree {env : RecordEnv} {i : Nat} {buf : CStr} {vars vars' : PassVars}
    (h : Agree vars vars') (hold : vars.readsOld env.pcre buf = false)
    (hdebug : env.debug → 0 < vars.best_match) :
    Option.Rel (fun a b => a.1 = b.1) (emitRecord env i buf vars) (emitRecord env i buf vars') := by
  refine Lib.Related.bind (Lib.Related.refl (R := Eq) (fun _ => rfl) _) ?_
  rintro plgn _ rfl
  apply Lib.Related.bind (emitMatch_agree h hold)
  rintro ⟨e, s⟩ ⟨_, t⟩ rfl
  have hjason (jason : Record) :
      (if env.debug then putDebug vars jason else some jason) =
        if env.debug then putDebug vars' jason else some jason := by
    split
    · next hon => exact putDebug_agree h (hdebug hon) jason
    · rfl
  simp only [hjason]
  refine Lib.Related.map (Lib.Related.refl (R := Eq) (fun _ => rfl) _) ?_
  rintro jason _ rfl
  rfl

/-- THE RECORD OF ONE PACKET: where nothing left behind is read, any worker that
takes the packet with fresh variables chooses the same regex and builds the same
record. -/
theorem processPacket_of_unread {env : RecordEnv} {i : Nat} {buf : CStr} {vars vars' : PassVars}
    (h : LeftoversUnread env i buf vars) (h' : vars'.Fresh) :
    (chooseRegex env i buf vars).map PassVars.chosen =
        (chooseRegex env i buf vars').map PassVars.chosen ∧
      (processPacket env vars i buf).map Prod.fst =
        (processPacket env vars' i buf).map Prod.fst := by
  have hchoice := (Agree.of_fresh h.fresh h').chooseRegex env i buf
  refine ⟨Lib.Related.map_eq hchoice fun _ _ h => h.chosen, ?_⟩
  have hbuffer := h.buffer
  have hdebug := h.debug
  rw [processPacket, processPacket]
  generalize chooseRegex env i buf vars = x at hchoice hbuffer hdebug
  generalize chooseRegex env i buf vars' = y at hchoice
  cases hchoice with
  | none => rfl
  | some hagree =>
    simp only [Option.bind_some, Option.map_map]
    exact Lib.Related.map_eq (emitRecord_agree hagree (hbuffer _ rfl) (hdebug _ rfl))
      fun _ _ h => h

/-! ## Runs of a worker -/

/-- Before the first packet of a pass. -/
def WorkerPc.atFirst {π : Type} : WorkerPc π → Prop
  | .dequeue _ 0 | .process _ 0 _ => True
  | _ => False

/-- What an own step does to the variables that outlive a packet. -/
inductive VarsEffect {σ π ρ : Type} (builder : RecordBuilder σ π ρ) (th th' : Worker σ π ρ) :
    WorkerAction → Prop
  | built {i m : Nat} {pkt : π} {record : ρ} (pc_eq : th.pc = .process i m pkt)
    (built_eq : builder.build th.vars i pkt = some (record, th'.vars))
    (later : ¬ th'.pc.atFirst) : VarsEffect builder th th' (.process i m)
  | kept {a : WorkerAction} (not_process : ∀ i m, a ≠ .process i m)
    (vars_eq : th'.vars = th.vars) (first : th'.pc.atFirst → th.pc.atFirst) :
    VarsEffect builder th th' a
  | began {i : Nat} {due : Bool} (vars_eq : th'.vars = builder.beginPass th.vars) :
    VarsEffect builder th th' (.fileTimer i due)

section

variable {σ π ρ : Type}

theorem WorkerConfig.dequeueFrom_not_atFirst (config : WorkerConfig) (i m : Nat) :
    ¬ (config.dequeueFrom i (m + 1) : WorkerPc π).atFirst := by
  rw [dequeueFrom]
  split <;> exact not_false

theorem WorkerConfig.testFrom_not_atFirst (config : WorkerConfig) (i m : Nat) :
    ¬ (config.testFrom i m : WorkerPc π).atFirst := by
  rw [testFrom]
  split <;> exact not_false

theorem varsEffect {config : WorkerConfig} {builder : RecordBuilder σ π ρ}
    {th th' : Worker σ π ρ} {mem mem' : Memory π} {a : WorkerAction}
    (h : workerStep config builder (th, mem) a = some (th', mem')) :
    VarsEffect builder th th' a := by
  have later {pc : WorkerPc π} (hne : ¬ pc.atFirst) (hfirst : pc.atFirst) : th.pc.atFirst :=
    absurd hfirst hne
  cases workerStepped h with
  | @took i m _ _ _ hpc =>
    refine .kept (fun _ _ ha => by cases ha) rfl ?_
    intro hfirst
    rw [hpc]
    cases m with
    | zero => trivial
    | succ m => exact hfirst
  | foundEmpty | freed =>
    exact .kept (fun _ _ ha => by cases ha) rfl (later (config.dequeueFrom_not_atFirst _ _))
  | processed hpc hbuild => exact .built hpc hbuild not_false
  | @reported i due =>
    refine .kept (fun _ _ ha => by cases ha) rfl (later ?_)
    cases due with
    | false => exact not_false
    | true => exact config.testFrom_not_atFirst _ 0
  | left => exact .kept (fun _ _ ha => by cases ha) rfl (later not_false)
  | stayed => exact .kept (fun _ _ ha => by cases ha) rfl (later (config.testFrom_not_atFirst _ _))
  | timed => exact .began rfl

end

/-- A worker among the other threads, started with these contents of its
stack. -/
abbrev startedWith (config : WorkerConfig) (env : RecordEnv) (stack : PassVars)
    (mem : Memory CStr) : Worker PassVars CStr Record × Memory CStr :=
  (.start config (recordBuilder env stack), mem)

/-- The event builds a record. -/
def buildsRecord : WorkerEvent CStr → Bool
  | .own (.process _ _) => true
  | _ => false

theorem workerStep_exited {σ π ρ : Type} {config : WorkerConfig} {builder : RecordBuilder σ π ρ}
    {th : Worker σ π ρ} {mem : Memory π} (hpc : th.pc = .exited) (a : WorkerAction) :
    workerStep config builder (th, mem) a = none := by
  simp only [workerStep, hpc]

/-- What every step keeps that builds no record, and what holds at the start. -/
def Idle (s : Worker PassVars CStr Record × Memory CStr) : Prop :=
  s.1.pc = .exited ∨ s.1.vars.Fresh

theorem idle_start (config : WorkerConfig) (env : RecordEnv) (stack : PassVars)
    (mem : Memory CStr) : Idle (startedWith config env stack mem) := by
  simp only [Idle, Worker.start]
  split
  · exact .inr (PassVars.fresh_beginPass stack)
  · exact .inl rfl

theorem idle_step {config : WorkerConfig} {env : RecordEnv} {stack : PassVars}
    (s : Worker PassVars CStr Record × Memory CStr) (event : WorkerEvent CStr)
    (s' : Worker PassVars CStr Record × Memory CStr) (hs : Idle s)
    (hidle : buildsRecord event = false)
    (h : workerAmongOthers config (recordBuilder env stack) s event = some s') : Idle s' := by
  obtain ⟨th, mem⟩ := s
  obtain ⟨th', mem'⟩ := s'
  cases event with
  | elsewhere e =>
    obtain ⟨-, rfl, -⟩ := elsewhere_step h
    exact hs
  | own a =>
    obtain hpc | hfresh := hs
    · have h : workerStep config (recordBuilder env stack) (th, mem) a = some (th', mem') := h
      rw [workerStep_exited hpc a] at h
      cases h
    · cases varsEffect h with
      | built => cases hidle
      | kept _ hvars => exact .inr (hvars ▸ hfresh)
      | began hvars => exact .inr (hvars ▸ PassVars.fresh_beginPass th.vars)

/-- A worker that has not built a record yet has fresh variables. -/
theorem fresh_of_idle {config : WorkerConfig} {env : RecordEnv} {stack : PassVars}
    {mem : Memory CStr} {events : List (WorkerEvent CStr)}
    {s : Worker PassVars CStr Record × Memory CStr}
    (hidle : ∀ event ∈ events, buildsRecord event = false)
    (hrun : (workerAmongOthers config (recordBuilder env stack)).run
      (startedWith config env stack mem) events = some s) : Idle s :=
  Lib.Step.along_induct (G := fun _ event => buildsRecord event = false) idle_step
    (idle_start config env stack mem) (Lib.Step.along_of_mem fun event h _ => hidle event h) hrun

/-- The first packet of every pass, that of the first master, finds the variables
of the pass as they were set. -/
theorem fresh_of_atFirst {config : WorkerConfig} {env : RecordEnv} {stack : PassVars}
    {mem : Memory CStr} {events : List (WorkerEvent CStr)}
    {s : Worker PassVars CStr Record × Memory CStr}
    (hrun : (workerAmongOthers config (recordBuilder env stack)).run
      (startedWith config env stack mem) events = some s) (hfirst : s.1.pc.atFirst) :
    s.1.vars.Fresh := by
  revert hfirst
  refine Lib.Step.run_induct (I := fun s => s.1.pc.atFirst → s.1.vars.Fresh) ?_ ?_ hrun
  · intro s event s' hs h hfirst
    obtain ⟨th, mem⟩ := s
    obtain ⟨th', mem'⟩ := s'
    cases event with
    | elsewhere e =>
      obtain ⟨-, rfl, -⟩ := elsewhere_step h
      exact hs hfirst
    | own a =>
      cases varsEffect h with
      | built _ _ hlater => exact absurd hfirst hlater
      | kept _ hvars hbefore => exact hvars ▸ hs (hbefore hfirst)
      | began hvars => exact hvars ▸ PassVars.fresh_beginPass th.vars
  · intro hfirst
    obtain hexited | hfresh := idle_start config env stack mem
    · rw [hexited] at hfirst
      cases hfirst
    · exact hfresh

/-! ## Noninterference -/

/-- The record the event builds reads nothing left behind. -/
def ReadsOwnPacket (env : RecordEnv) (s : Worker PassVars CStr Record × Memory CStr) :
    WorkerEvent CStr → Prop
  | .own (.process _ _) =>
    match s.1.pc with
    | .process i _ buf => LeftoversUnread env i buf s.1.vars
    | _ => True
  | _ => True

instance (env : RecordEnv) (s : Worker PassVars CStr Record × Memory CStr) :
    (event : WorkerEvent CStr) → Decidable (ReadsOwnPacket env s event)
  | .own (.process _ _) =>
    match h : s.1.pc with
    | .process i _ buf =>
      decidable_of_iff (LeftoversUnread env i buf s.1.vars) (by simp only [ReadsOwnPacket, h])
    | .dequeue _ _ | .free _ _ _ | .report _ | .test _ _ | .fileTimer _ | .exited =>
      .isTrue (by simp only [ReadsOwnPacket, h])
  | .own (.dequeue _ _) | .own (.free _ _) | .own (.report _ _) | .own (.test _ _)
  | .own (.fileTimer _ _) | .elsewhere _ => .isTrue trivial

/-- The regex the event chooses and the record it builds are those of a worker
with any memory and any stack contents that processes this packet and, before
it, no other. -/
def AsAlone (config : WorkerConfig) (env : RecordEnv)
    (s : Worker PassVars CStr Record × Memory CStr) : WorkerEvent CStr → Prop
  | .own (.process _ _) =>
    ∀ i m buf, s.1.pc = .process i m buf →
    ∀ stack mem events s' m', (∀ event ∈ events, buildsRecord event = false) →
      (workerAmongOthers config (recordBuilder env stack)).run
        (startedWith config env stack mem) events = some s' →
      s'.1.pc = .process i m' buf →
      (chooseRegex env i buf s.1.vars).map PassVars.chosen =
          (chooseRegex env i buf s'.1.vars).map PassVars.chosen ∧
        (processPacket env s.1.vars i buf).map Prod.fst =
          (processPacket env s'.1.vars i buf).map Prod.fst
  | _ => True

/-- NONINTERFERENCE: in a run in which no record reads what an earlier packet
left behind, every record is the record of its packet alone. -/
theorem record_of_packet_alone (config : WorkerConfig) (env : RecordEnv) (stack : PassVars)
    (mem : Memory CStr) (events : List (WorkerEvent CStr))
    (h : (workerAmongOthers config (recordBuilder env stack)).Along (ReadsOwnPacket env)
      (startedWith config env stack mem) events) :
    (workerAmongOthers config (recordBuilder env stack)).Along (AsAlone config env)
      (startedWith config env stack mem) events := by
  refine Lib.Step.Along.imp (I := fun _ => True) (fun _ _ _ _ _ _ => trivial) ?_ trivial h
  intro s event _ hreads
  cases event with
  | elsewhere e => trivial
  | own a =>
    cases a with
    | process i m =>
      intro i m buf hpc stack' mem' events' s' m' hidle hrun hpc'
      simp only [ReadsOwnPacket, hpc] at hreads
      obtain hexited | hfresh := fresh_of_idle hidle hrun
      · cases hpc'.symm.trans hexited
      · exact processPacket_of_unread hreads hfresh
    | _ => trivial

/-! ## Two packets in one pass -/

/-- PCRE on patterns that are plain text without groups. -/
def literalPcre : Pcre where
  jit_exec regexp _ text :=
    match (List.range (text.strlen + 1)).find? fun start =>
        regexp.bytes.isPrefixOf (text.bytes.drop start) with
    | some start =>
      (1, fun i => if i = 0 then start else if i = 1 then start + regexp.strlen else -1)
    | none => (-1, fun _ => -1)
  get_named_substring _ _ _ _ _ := none

/-- One plugin with one regex. -/
def denyEnv : RecordEnv where
  pcre := literalPcre
  plugins := [{
    plugin_id := 1
    optimized := false
    regex := [{
      id := 1
      description := .lit "denied"
      precheck := .lit "deny"
      regexp := .lit "deny"
      fields := [] }] }]
  debug := false

/-- Two masters. -/
def twoMasters : WorkerConfig where
  plugins := [0]
  nb_masters := 2
  ring_rxs _ m := some m

def emptyStack : PassVars where
  suit_rgxs := []
  best_match := 0
  best_rgx := none
  best_rgx_index := 0
  rgx_sub_vectors _ _ := 0
  func_ret_str := .empty

/-- Each master hands one log to the worker, which takes both in one pass. -/
def takeBoth (first second : CStr) : List (WorkerEvent CStr) := [
  .elsewhere (.enqueue 0 first), .elsewhere (.enqueue 1 second),
  .own (.dequeue 0 0), .own (.process 0 0), .own (.free 0 0), .own (.dequeue 0 1)]

/-- The second log alone. -/
def takeSecond (second : CStr) : List (WorkerEvent CStr) := [
  .elsewhere (.enqueue 1 second), .own (.dequeue 0 0), .own (.dequeue 0 1)]

/-- A log no regex matches leaves nothing behind. -/
theorem record_of_packet_alone_unmatched :
    (workerAmongOthers twoMasters (recordBuilder denyEnv emptyStack)).Along
      (AsAlone twoMasters denyEnv) (startedWith twoMasters denyEnv emptyStack .start)
      (takeBoth (.lit "allow") (.lit "deny") ++ [.own (.process 0 1)]) :=
  record_of_packet_alone twoMasters denyEnv emptyStack .start _ (by decide)

/-- After a log that the regex matches, one that it does not match gets a record
that says it did. -/
theorem second_packet_misjudged :
    ¬ (workerAmongOthers twoMasters (recordBuilder denyEnv emptyStack)).Along
      (AsAlone twoMasters denyEnv) (startedWith twoMasters denyEnv emptyStack .start)
      (takeBoth (.lit "deny") (.lit "allow") ++ [.own (.process 0 1)]) := by
  intro h
  let step := workerAmongOthers twoMasters (recordBuilder denyEnv emptyStack)
  let start := startedWith twoMasters denyEnv emptyStack .start
  obtain ⟨s, hs⟩ : ∃ s, step.run start (takeBoth (.lit "deny") (.lit "allow")) = some s :=
    Option.isSome_iff_exists.mp (by decide)
  obtain ⟨s', hs'⟩ : ∃ s', step.run start (takeSecond (.lit "allow")) = some s' :=
    Option.isSome_iff_exists.mp (by decide)
  let matched (s : Worker PassVars CStr Record × Memory CStr) : Option (Option Scalar) :=
    (processPacket denyEnv s.1.vars 0 (.lit "allow")).map fun built =>
      built.1.get (.lit "regex_matched")
  have hmatched : matched s = some (some (.boolean true)) := by
    have : (step.run start (takeBoth (.lit "deny") (.lit "allow"))).map matched =
      some (some (some (.boolean true))) := by decide
    rw [hs] at this
    exact Option.some.inj this
  have hmatched' : matched s' = some (some (.boolean false)) := by
    have : (step.run start (takeSecond (.lit "allow"))).map matched =
      some (some (some (.boolean false))) := by decide
    rw [hs'] at this
    exact Option.some.inj this
  have hpc : s.1.pc = .process 0 1 (.lit "allow") := by
    have : (step.run start (takeBoth (.lit "deny") (.lit "allow"))).map (·.1.pc) =
      some (.process 0 1 (.lit "allow")) := rfl
    rw [hs] at this
    exact Option.some.inj this
  have hpc' : s'.1.pc = .process 0 1 (.lit "allow") := by
    have : (step.run start (takeSecond (.lit "allow"))).map (·.1.pc) =
      some (.process 0 1 (.lit "allow")) := rfl
    rw [hs'] at this
    exact Option.some.inj this
  have hsame := (h.last hs 0 1 _ hpc emptyStack .start (takeSecond (.lit "allow")) s' 1
    (by decide) hs' hpc').2
  have : matched s = matched s' := by
    have hget :=
      congrArg (Option.map fun record : Record => record.get (.lit "regex_matched")) hsame
    rw [Option.map_map, Option.map_map] at hget
    exact hget
  rw [hmatched, hmatched'] at this
  cases this

end LogCollector
