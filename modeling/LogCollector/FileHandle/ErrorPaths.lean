import LogCollector.FileHandle.Drain

/-!
# The error paths of create and set calls

Every create and set call takes the lock of its handle, makes sure of the four
directories the file lies in, and may return `ERR` before it has changed
anything. It returns with the lock held, so no other call on the handle returns
after it: the lock is released exactly where no such return is taken
(`error_paths_recoverable_iff`). `worker_loop` and `main_loop` do not look at the
result of a set call, and every thread of the plugin hangs at its next rotation
(`blocked_of_failed_set`).
-/

namespace LogCollector

/-! ## The directories of a file -/

/-- The four directories of a log file, from the outside in. -/
def logDirectories (ip : CStr) (tm : Tm) (folder : CStr) : List CStr :=
  let top := folder ++ ip
  let year := top ++ .lit "/" ++ .ofInt (tm.tmYear + 1900)
  let month := year ++ .lit "/" ++ .ofInt (tm.tmMon + 1)
  let day := month ++ .lit "/" ++ .ofInt tm.tmMday
  [top, year, month, day]

/-- The directory the file itself is put in. -/
def dayDirectory (ip : CStr) (tm : Tm) (folder : CStr) : CStr :=
  folder ++ ip ++ .lit "/" ++ .ofInt (tm.tmYear + 1900) ++ .lit "/" ++ .ofInt (tm.tmMon + 1) ++
    .lit "/" ++ .ofInt tm.tmMday

namespace CallArgs

/-- Every directory is there or can be made. -/
def DirectoriesReady (c : CallArgs) (folder : CStr) : Prop :=
  ∀ directory ∈ logDirectories c.ip c.tm folder, c.fs.ensure directory

instance DirectoriesReady.decidable (c : CallArgs) (folder : CStr) :
    Decidable (c.DirectoriesReady folder) :=
  inferInstanceAs (Decidable (∀ _ ∈ _, _))

/-- The path given to `fopen`. -/
def fullPath (c : CallArgs) (folder : CStr) : CStr :=
  dayDirectory c.ip c.tm folder ++ .lit "/" ++ c.newFileName

end CallArgs

/-- `set_log_files_directory` answers the day's directory, or `ERR` where one of
the four levels is missing and cannot be made. -/
theorem setLogFilesDirectory_eq (c : CallArgs) (folder : CStr) :
    setLogFilesDirectory c.fs c.ip c.tm (some folder) =
      if c.DirectoriesReady folder then some (dayDirectory c.ip c.tm folder) else none := by
  have hguard (b : Bool) (next : Unit → Option CStr) :
      (guard (b = true) : Option Unit).bind next = if b then next () else none := by
    cases b <;> rfl
  have hready : c.DirectoriesReady folder ↔ _ :=
    List.forall_mem_cons.trans <| and_congr_right' <| List.forall_mem_cons.trans <|
      and_congr_right' <| List.forall_mem_cons.trans <| and_congr_right' <|
      List.forall_mem_singleton
  simp only [hready, setLogFilesDirectory, Option.bind_eq_bind, hguard, ite_and]
  rfl

/-! ## Calls that return -/

/-- What a failed call must keep. -/
structure KeepsCounters (before after : FileHandle) : Prop where
  fptr : after.fptr = before.fptr
  prevFptr : after.prevFptr = before.prevFptr
  ref : after.ref = before.ref
  prevRef : after.prevRef = before.prevRef
  fileSize : after.fileSize = before.fileSize

/-- A call that returns has released the lock, and one that returns `ERR` has
changed nothing. -/
def Recoverable (s : Shared) (result : Outcome × Shared) : Prop :=
  ∀ code, result.1 = .returns code →
    result.2.handle.fileLock = false ∧
      (code = ERR → KeepsCounters s.handle result.2.handle)

/-- Nothing makes the call return `ERR`: its directories are ready and, where it
is a create call that opens the first file, `fopen` succeeds. -/
def Call.Unhindered (config : Configuration) (kind : FileType) : Call → Shared → Prop
  | .create c, s => c.DirectoriesReady (kind.folder config) ∧
      (s.handle.fptr = none → c.fs.fopen (c.fullPath (kind.folder config)))
  | .set c, _ => c.DirectoriesReady (kind.folder config)

theorem not_recoverable_of_err {s : Shared} {result : Outcome × Shared}
    (herr : result = (.returns ERR, s.lock)) : ¬ Recoverable s result := by
  intro h
  have := (h ERR (by rw [herr])).1
  rw [herr] at this
  cases this

/-- A call that succeeds releases the lock as its last action. -/
theorem recoverable_of_success {s t : Shared} : Recoverable s (.returns SUCCESS, t.unlock) := by
  intro code hcode
  refine ⟨rfl, ?_⟩
  intro herr
  rw [herr] at hcode
  cases hcode

/-- A create call. -/
theorem createLogFile_recoverable_iff (folder : CStr) (c : CallArgs) (s : Shared) :
    Recoverable s (createLogFile (some folder) c s) ↔
      c.DirectoriesReady folder ∧ (s.handle.fptr = none → c.fs.fopen (c.fullPath folder)) := by
  unfold createLogFile
  rw [setLogFilesDirectory_eq]
  by_cases hready : c.DirectoriesReady folder
  case neg =>
    rw [if_neg hready]
    exact iff_of_false (not_recoverable_of_err rfl) fun h => hready h.1
  case pos =>
    rw [if_pos hready]
    have hlocked : s.lock.handle.fptr = s.handle.fptr := rfl
    cases hfptr : s.handle.fptr with
    | some f =>
      simp only [hlocked, hfptr]
      exact iff_of_true recoverable_of_success ⟨hready, nofun⟩
    | none =>
      simp only [hlocked, hfptr]
      split
      · next hopen => exact iff_of_true recoverable_of_success ⟨hready, fun _ => hopen⟩
      · next hopen =>
        exact iff_of_false (not_recoverable_of_err rfl) fun h => hopen (h.2 trivial)

/-- A set call. Where `fopen` fails it exits the process, and does not return. -/
theorem setFilePtr_recoverable_iff (folder : CStr) (c : CallArgs) (s : Shared) :
    Recoverable s (setFilePtr (some folder) c s) ↔ c.DirectoriesReady folder := by
  unfold setFilePtr
  rw [setLogFilesDirectory_eq]
  by_cases hready : c.DirectoriesReady folder
  case neg =>
    rw [if_neg hready]
    exact iff_of_false (not_recoverable_of_err rfl) hready
  case pos =>
    rw [if_pos hready]
    refine iff_of_true ?_ hready
    dsimp only
    split
    · split
      · exact recoverable_of_success
      · exact nofun
    · exact recoverable_of_success

/-- THE ERROR PATHS KEEP THE LOCK: a create or set call on a json or a temp
handle is recoverable exactly where it runs into no error that makes it return. -/
theorem error_paths_recoverable_iff (config : Configuration) (kind : FileType) (call : Call)
    (s : Shared) :
    Recoverable s (call.exec config kind s) ↔ call.Unhindered config kind s := by
  cases call with
  | create c =>
    rw [Call.exec_create]
    exact createLogFile_recoverable_iff (kind.folder config) c s
  | set c =>
    rw [Call.exec_set]
    exact setFilePtr_recoverable_iff (kind.folder config) c s

/-- A thread has opened the json file; when it rotates, the day's directory is
missing and cannot be made. -/
theorem full_disk_keeps_lock :
    ¬ Recoverable (createJsonLogFile sampleConfiguration sampleCall initializeFileHandles).2
      ((Call.set { sampleCall with fs := { sampleCall.fs with mkdir := fun _ => false } }).exec
        sampleConfiguration .json
        (createJsonLogFile sampleConfiguration sampleCall initializeFileHandles).2) := by
  intro h
  have hreleased := (h ERR rfl).1
  exact absurd hreleased (by decide)

/-! ## What the other threads see -/

variable {ι : Type*} [DecidableEq ι]

/-- No call on the handle returns any more. -/
def Blocked (config : Configuration) (kind : FileType) (s : Writers ι) : Prop :=
  ∀ t c, drainStep config kind s (.set t c) = none ∧ drainStep config kind s (.create t c) = none

/-- While the lock is held there is no call, and no other step releases it. -/
theorem blocked_of_locked {config : Configuration} {kind : FileType} {s s' : Writers ι}
    (hlock : s.shared.handle.fileLock) {acts : List (DrainAction ι)}
    (hrun : (drainStep config kind).run s acts = some s') : Blocked config kind s' := by
  have hlocked : s'.shared.handle.fileLock := by
    refine Lib.Step.run_induct (I := fun s => s.shared.handle.fileLock) ?_ hlock hrun
    intro s a s' hlock hstep
    cases a with
    | create t c => simp [drainStep, hlock] at hstep
    | set t c => simp [drainStep, hlock] at hstep
    | readFptr t =>
      simp only [drainStep] at hstep
      split at hstep
      · cases hstep
      · cases hstep
        exact hlock
    | write t =>
      simp only [drainStep] at hstep
      split at hstep
      · cases hstep
      · split at hstep
        · cases hstep
          exact hlock
        · cases hstep
  intro t c
  simp [drainStep, hlocked]

/-- AFTER A SET CALL WHOSE DIRECTORIES COULD NOT BE MADE every call on the handle
hangs, whatever the threads do. -/
theorem blocked_of_failed_set {config : Configuration} {kind : FileType} {s s' s'' : Writers ι}
    {t : ι} {c : CallArgs} (hfails : ¬ c.DirectoriesReady (kind.folder config))
    (hstep : drainStep config kind s (.set t c) = some s') {acts : List (DrainAction ι)}
    (hrun : (drainStep config kind).run s' acts = some s'') : Blocked config kind s'' := by
  refine blocked_of_locked ?_ hrun
  have hexec : setFilePtr (some (kind.folder config)) c s.shared =
      (.returns ERR, s.shared.lock) := by
    unfold setFilePtr
    rw [setLogFilesDirectory_eq, if_neg hfails]
  simp only [drainStep, Call.exec_set, hexec] at hstep
  split at hstep
  · cases hstep
  · cases hstep
    rfl

end LogCollector
