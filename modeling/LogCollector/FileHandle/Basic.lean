import LogCollector.CString

/-!
# Log file handles

A plugin owns two log files, the temp file its masters append raw lines to and
the json file its workers append records to. Each is shared by several threads
through a handle with the current `FILE *`, the previous one while a rotation
is half done, and two counters. Four functions change a handle, each under the
handle's lock: `create_temp_log_file` and `create_json_log_file` when a thread
starts, `set_temp_file_ptr` and `set_json_file_ptr` when a thread rotates.

The temp and the json variant of a function differ in the configured folder
and in the wording of a fatal message only, so each pair is one definition with
the folder as a parameter. What the operating system answers during a call is
an argument of the call.
-/

namespace LogCollector

/-- `SUCCESS`. -/
def SUCCESS : Int := 0

/-- `ERR`. -/
def ERR : Int := -1

/-- How a function that may call `ERROR_EXIT` ends. -/
inductive Outcome
  | returns (code : Int)
  | exits
deriving DecidableEq

/-- The fields of `struct tm` that name a log directory. -/
structure Tm where
  tmYear : Int
  tmMon : Int
  tmMday : Int

/-- The folders and size limits of `struct configuration`. -/
structure Configuration where
  tmpFolder : CStr
  tempFileSize : Nat
  jsonFolder : CStr
  jsonFileSize : Nat

/-- What the file system answers during one call. -/
structure FileSystem where
  /-- `stat(path, &st) != -1`. -/
  stat : CStr → Bool
  /-- `mkdir(path, 0777) >= 0`. -/
  mkdir : CStr → Bool
  /-- `fopen(path, "a") != NULL`. -/
  fopen : CStr → Bool

/-- One level of `set_log_files_directory`: the directory is there or is made. -/
def FileSystem.ensure (fs : FileSystem) (directory : CStr) : Bool :=
  fs.stat directory || fs.mkdir directory

/-- `set_log_files_directory`: `<folder><ip>/<year>/<month>/<day>`, each level
made where it is missing. `none` is the return value `ERR`. -/
def setLogFilesDirectory (fs : FileSystem) (ip : CStr) (tm : Tm) (folder : Option CStr) :
    Option CStr := do
  let directory := match folder with
    | some folder => folder ++ ip
    | none => ip
  guard (fs.ensure directory)
  let directory := directory ++ .lit "/" ++ .ofInt (tm.tmYear + 1900)
  guard (fs.ensure directory)
  let directory := directory ++ .lit "/" ++ .ofInt (tm.tmMon + 1)
  guard (fs.ensure directory)
  let directory := directory ++ .lit "/" ++ .ofInt tm.tmMday
  guard (fs.ensure directory)
  return directory

/-- The calls of `fopen` that succeeded and the calls of `fclose`, in order.
A `FILE *` is the position of the `fopen` that returned it. -/
structure Files where
  opened : List CStr
  fclosed : List (Option Nat)

namespace Files

def fopen (files : Files) (path : CStr) : Nat × Files :=
  (files.opened.length, { files with opened := files.opened ++ [path] })

/-- `fclose`; its argument may be NULL, which this model records. -/
def fclose (files : Files) (fptr : Option Nat) : Files :=
  { files with fclosed := files.fclosed ++ [fptr] }

/-- The file was opened and has not been closed. -/
def IsOpen (files : Files) (f : Nat) : Prop :=
  f < files.opened.length ∧ some f ∉ files.fclosed

end Files

/-- `struct json_file_handle_t` and `struct temp_file_handle_t`. -/
structure FileHandle where
  fileLock : Bool
  fptr : Option Nat
  prevFptr : Option Nat
  fileSize : Nat
  ref : Int
  prevRef : Int

/-- A handle together with the files the process has opened through it. -/
structure Shared where
  handle : FileHandle
  files : Files

/-- `initialize_json_file_handles`, `initialize_temp_file_handles`. -/
def initializeFileHandles : Shared where
  handle := { fileLock := false, fptr := none, prevFptr := none, fileSize := 0, ref := 0,
              prevRef := 0 }
  files := { opened := [], fclosed := [] }

/-- The arguments of a create or set call and the file system's answers. -/
structure CallArgs where
  ip : CStr
  tm : Tm
  newFileName : CStr
  fs : FileSystem

/-- The path at which a call opens a file, where the directories can be made and
the file can be opened. -/
def CallArgs.openable (c : CallArgs) (folder : Option CStr) : Option CStr :=
  ((setLogFilesDirectory c.fs c.ip c.tm folder).map fun logFolderPath =>
    logFolderPath ++ .lit "/" ++ c.newFileName).filter c.fs.fopen

/-- A configuration, and the arguments of a call for which every directory can
be made and every file opened. -/
def sampleConfiguration : Configuration where
  tmpFolder := .lit "temps/"
  tempFileSize := 2097152
  jsonFolder := .lit "jsons/"
  jsonFileSize := 2097152

def sampleCall : CallArgs where
  ip := .lit "10.0.0.1"
  tm := { tmYear := 121, tmMon := 5, tmMday := 14 }
  newFileName := .lit "10.0.0.1_10:15:00_7.json"
  fs := { stat := fun _ => false, mkdir := fun _ => true, fopen := fun _ => true }

namespace Shared

def lock (s : Shared) : Shared :=
  { s with handle := { s.handle with fileLock := true } }

def unlock (s : Shared) : Shared :=
  { s with handle := { s.handle with fileLock := false } }

/-- The first thread to create a log file opens it. -/
def openFirst (s : Shared) (path : CStr) : Shared :=
  let (f, files) := s.files.fopen path
  { handle := { s.handle with fptr := some f, ref := 1, prevRef := 0 }, files }

/-- A later one is counted on the file that is open. -/
def join (s : Shared) : Shared :=
  { s with handle := { s.handle with ref := s.handle.ref + 1 } }

/-- A rotation begins: the current file becomes the previous one, every
counted thread but the caller is still on it. -/
def rotate (s : Shared) (path : CStr) : Shared :=
  let (f, files) := s.files.fopen path
  { handle := { s.handle with prevFptr := s.handle.fptr, fptr := some f, fileSize := 0,
                              prevRef := s.handle.ref - 1, ref := 1 }, files }

/-- A call that finds a rotation half done moves one count over. -/
def acknowledge (s : Shared) : Shared :=
  { s with handle := { s.handle with ref := s.handle.ref + 1, prevRef := s.handle.prevRef - 1 } }

/-- `if (prev_ref == 0)`: flush, close and forget the previous file. -/
def closeIfLast (s : Shared) : Shared :=
  if s.handle.prevRef = 0 then
    { handle := { s.handle with prevFptr := none }, files := s.files.fclose s.handle.prevFptr }
  else s

end Shared

/-- The body shared by `create_temp_log_file` and `create_json_log_file`. -/
def createLogFile (folder : Option CStr) (c : CallArgs) (s : Shared) : Outcome × Shared :=
  let s := s.lock
  match setLogFilesDirectory c.fs c.ip c.tm folder with
  -- both early returns leave the lock held
  | none => (.returns ERR, s)
  | some logFolderPath =>
    let fullPath := logFolderPath ++ .lit "/" ++ c.newFileName
    match s.handle.fptr with
    | none =>
      if c.fs.fopen fullPath then (.returns SUCCESS, (s.openFirst fullPath).unlock)
      else (.returns ERR, s)
    | some _ => (.returns SUCCESS, s.join.unlock)

/-- The body shared by `set_temp_file_ptr` and `set_json_file_ptr`. -/
def setFilePtr (folder : Option CStr) (c : CallArgs) (s : Shared) : Outcome × Shared :=
  let s := s.lock
  match setLogFilesDirectory c.fs c.ip c.tm folder with
  | none => (.returns ERR, s)
  | some logFolderPath =>
    let fullPath := logFolderPath ++ .lit "/" ++ c.newFileName
    if s.handle.prevFptr = none ∧ s.handle.prevRef = 0 then
      if c.fs.fopen fullPath then
        (.returns SUCCESS, (s.rotate fullPath).closeIfLast.unlock)
      else (.exits, { s with handle := { s.handle with prevFptr := s.handle.fptr, fptr := none } })
    else (.returns SUCCESS, s.acknowledge.closeIfLast.unlock)

/-- `create_temp_log_file`. -/
def createTempLogFile (config : Configuration) (c : CallArgs) (s : Shared) : Outcome × Shared :=
  createLogFile (some config.tmpFolder) c s

/-- `create_json_log_file`. -/
def createJsonLogFile (config : Configuration) (c : CallArgs) (s : Shared) : Outcome × Shared :=
  createLogFile (some config.jsonFolder) c s

/-- `set_temp_file_ptr`. -/
def setTempFilePtr (config : Configuration) (c : CallArgs) (s : Shared) : Outcome × Shared :=
  setFilePtr (some config.tmpFolder) c s

/-- `set_json_file_ptr`. -/
def setJsonFilePtr (config : Configuration) (c : CallArgs) (s : Shared) : Outcome × Shared :=
  setFilePtr (some config.jsonFolder) c s

/-- `delete_temp_file_handles` and `delete_json_file_handles`: close the files
that are still there. -/
def deleteFileHandles (s : Shared) : Files :=
  let files := match s.handle.fptr with
    | some f => s.files.fclose (some f)
    | none => s.files
  match s.handle.prevFptr with
  | some p => files.fclose (some p)
  | none => files

/-! ## What a successful call did -/

/-- A create call that returns `SUCCESS` opened the first file or was counted
on the open one. -/
theorem createLogFile_success {folder : Option CStr} {c : CallArgs} {s s' : Shared}
    (h : createLogFile folder c s = (.returns SUCCESS, s')) :
    (s.handle.fptr = none ∧ ∃ path, s' = (s.lock.openFirst path).unlock) ∨
      (∃ f, s.handle.fptr = some f) ∧ s' = s.lock.join.unlock := by
  unfold createLogFile at h
  cases hdir : setLogFilesDirectory c.fs c.ip c.tm folder with
  | none => simp [hdir, ERR, SUCCESS] at h
  | some path =>
    cases hf : s.handle.fptr with
    | none =>
      have hlocked : s.lock.handle.fptr = none := hf
      simp only [hdir, hlocked] at h
      split at h
      · exact .inl ⟨rfl, _, (Prod.mk.inj h).2.symm⟩
      · simp [ERR, SUCCESS] at h
    | some f =>
      have hlocked : s.lock.handle.fptr = some f := hf
      simp only [hdir, hlocked] at h
      exact .inr ⟨⟨f, rfl⟩, (Prod.mk.inj h).2.symm⟩

/-- A set call that returns `SUCCESS` began a rotation or moved one count over
in the rotation that was half done, and closed the previous file if no count
was left on it. -/
theorem setFilePtr_success {folder : Option CStr} {c : CallArgs} {s s' : Shared}
    (h : setFilePtr folder c s = (.returns SUCCESS, s')) :
    ((s.handle.prevFptr = none ∧ s.handle.prevRef = 0) ∧
        ∃ path, c.openable folder = some path ∧
          s' = (s.lock.rotate path).closeIfLast.unlock) ∨
      ¬ (s.handle.prevFptr = none ∧ s.handle.prevRef = 0) ∧
        s' = s.lock.acknowledge.closeIfLast.unlock := by
  unfold setFilePtr at h
  cases hdir : setLogFilesDirectory c.fs c.ip c.tm folder with
  | none => simp [hdir, ERR, SUCCESS] at h
  | some path =>
    simp only [hdir] at h
    split at h
    · next hp =>
      split at h
      · next hopen =>
        refine .inl ⟨hp, _, ?_, (Prod.mk.inj h).2.symm⟩
        rw [CallArgs.openable, hdir, Option.map_some, Option.filter_some, if_pos hopen]
      · simp at h
    · next hp => exact .inr ⟨hp, (Prod.mk.inj h).2.symm⟩

/-- A set call that returns at all either succeeded or left the handle as it
was but for the lock, which it keeps, because a directory is missing. -/
theorem setFilePtr_returns {folder : Option CStr} {c : CallArgs} {s s' : Shared} {code : Int}
    (h : setFilePtr folder c s = (.returns code, s')) :
    code = SUCCESS ∨ code = ERR ∧ s' = s.lock ∧ c.openable folder = none := by
  unfold setFilePtr at h
  cases hdir : setLogFilesDirectory c.fs c.ip c.tm folder with
  | none =>
    simp only [hdir, Prod.mk.injEq, Outcome.returns.injEq] at h
    refine .inr ⟨h.1.symm, h.2.symm, ?_⟩
    rw [CallArgs.openable, hdir, Option.map_none, Option.filter_none]
  | some path =>
    simp only [hdir] at h
    split at h
    · split at h
      · exact .inl (Outcome.returns.inj (Prod.mk.inj h).1).symm
      · simp at h
    · exact .inl (Outcome.returns.inj (Prod.mk.inj h).1).symm

/-- A create call never exits: it succeeds, or leaves the handle as it was but
for the lock, which it keeps. -/
theorem createLogFile_returns {folder : Option CStr} {c : CallArgs} {s s' : Shared} {o : Outcome}
    (h : createLogFile folder c s = (o, s')) :
    o = .returns SUCCESS ∨ o = .returns ERR ∧ s' = s.lock := by
  unfold createLogFile at h
  cases hdir : setLogFilesDirectory c.fs c.ip c.tm folder with
  | none =>
    simp only [hdir, Prod.mk.injEq] at h
    exact .inr ⟨h.1.symm, h.2.symm⟩
  | some path =>
    simp only [hdir] at h
    split at h
    · split at h
      · exact .inl (Prod.mk.inj h).1.symm
      · simp only [Prod.mk.injEq] at h
        exact .inr ⟨h.1.symm, h.2.symm⟩
    · exact .inl (Prod.mk.inj h).1.symm

end LogCollector
