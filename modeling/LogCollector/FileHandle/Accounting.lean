import LogCollector.FileHandle.SizeLimit
import LogCollector.WriteBuffer

/-!
# What the size of a file counts

A thread adds to `file_size` what its drain returned. `drain_write_buffer` returns
the bytes it wrote; `drain_write_buffer_json` writes a newline after each record and
does not count it. So `file_size` is the length of the file as long as no record was
drained through the second, and short of it by a byte for each record from then on
(`accounting_exact_iff`).

One thread is on the handle here, which fills and drains its buffer and rotates the
file in any order.
-/

namespace LogCollector

/-- What a drain writes and what it returns. `none` where the length of an entry is not
an `int`. -/
def drained (routine : FileType) (entries : List CStr) : Option (List UInt8 × Nat) :=
  if ∀ s ∈ entries, s.strlen < 2 ^ 31 then
    some (match routine with
      | .temp => drainWriteBuffer entries
      | .json => drainWriteBufferJson entries, drainedLength entries)
  else none

/-- A thread with its buffer. -/
structure LogWriter where
  shared : Shared
  wb : WriteBuffer CStr
  /-- What each file holds. A file is new when it is opened. -/
  contents : Nat → List UInt8

namespace LogWriter

def start : LogWriter := ⟨initializeFileHandles, .empty, fun _ => []⟩

/-- A drain into the current file, whose result is added to `file_size`. -/
def write (s : LogWriter) (routine : FileType) (entries : List CStr) : Option LogWriter :=
  (drained routine entries).bind fun (bytes, len) =>
    s.shared.handle.fptr.map fun f =>
      { s with
        shared := s.shared.grow len
        contents := Function.update s.contents f (s.contents f ++ bytes) }

end LogWriter

/-- A step of the thread; a drain is by either routine. -/
inductive WriterAction
  | create (c : CallArgs)
  | set (c : CallArgs)
  /-- An entry is placed. A full buffer is drained first. -/
  | place (routine : FileType) (x : CStr)
  | drain (routine : FileType)

def writerStep (config : Configuration) (kind : FileType) : Lib.Step LogWriter WriterAction
  | s, .create c =>
    if s.shared.handle.fptr = none then
      match (Call.create c).exec config kind s.shared with
      | (.returns code, shared) => if code = SUCCESS then some { s with shared } else none
      | (.exits, _) => none
    else none
  | s, .set c =>
    if s.shared.handle.fptr = none ∨ s.shared.handle.fileLock then none
    else match (Call.set c).exec config kind s.shared with
      | (.returns _, shared) => some { s with shared }
      | (.exits, _) => none
  | s, .place routine x =>
    (s.write routine (s.wb.push x).1).map fun s' => { s' with wb := (s.wb.push x).2 }
  | s, .drain routine => (s.write routine s.wb.items).map fun s' => { s' with wb := .empty }

/-- The routine a step drains with, and the entries it drains. -/
def LogWriter.drains (s : LogWriter) : WriterAction → Option (FileType × List CStr)
  | .place routine x => some (routine, (s.wb.push x).1)
  | .drain routine => some (routine, s.wb.items)
  | _ => none

/-- `file_size` is the length of the current file. -/
def LogWriter.SizeExact (s : LogWriter) : Prop :=
  ∀ f, s.shared.handle.fptr = some f → s.shared.handle.fileSize = (s.contents f).length

/-- A drain returns the number of bytes it wrote, and the step leaves `file_size` at the
length of the current file. -/
def AccountsExactly (config : Configuration) (kind : FileType) (s : LogWriter)
    (a : WriterAction) : Prop :=
  (∀ routine entries, s.drains a = some (routine, entries) →
    ∃ bytes, drained routine entries = some (bytes, bytes.length)) ∧
  ∀ s', writerStep config kind s a = some s' → s'.SizeExact

/-- The step drains nothing through `drain_write_buffer_json`, and what it drains fits
into an `int` and into the counter. -/
def DrainsCounted (s : LogWriter) (a : WriterAction) : Prop :=
  ∀ routine entries, s.drains a = some (routine, entries) →
    (∀ x ∈ entries, x.strlen < 2 ^ 31) ∧ (routine = .json → entries = []) ∧
      ∀ f, s.shared.handle.fptr = some f →
        (s.contents f).length + drainedLength entries < 2 ^ 64

/-! ## What a drain counts -/

theorem length_drainWriteBuffer (entries : List CStr) :
    (drainWriteBuffer entries).length = drainedLength entries :=
  List.length_flatMap

/-- A newline for each entry is not counted. -/
theorem length_drainWriteBufferJson (entries : List CStr) :
    (drainWriteBufferJson entries).length = drainedLength entries + entries.length := by
  induction entries with
  | nil => rfl
  | cons x entries ih =>
    simp only [drainWriteBufferJson, drainedLength, List.flatMap_cons, List.map_cons, List.sum_cons,
      List.length_append, List.length_cons, List.length_nil] at ih ⊢
    rw [ih, CStr.strlen]
    omega

theorem len_of_drained {routine : FileType} {entries : List CStr} {bytes : List UInt8} {len : Nat}
    (h : drained routine entries = some (bytes, len)) : len = drainedLength entries := by
  obtain ⟨-, hpair⟩ := Option.ite_none_right_eq_some.mp h
  exact (Prod.mk.inj (Option.some.inj hpair)).2.symm

/-- A drain returns what it wrote exactly where it adds no newline. -/
theorem drained_exact_iff {routine : FileType} {entries : List CStr} :
    (∃ bytes, drained routine entries = some (bytes, bytes.length)) ↔
      (∀ x ∈ entries, x.strlen < 2 ^ 31) ∧ (routine = .json → entries = []) := by
  unfold drained
  split
  case isFalse hlong =>
    refine iff_of_false ?_ fun h => hlong h.1
    rintro ⟨s', h⟩
    cases h
  case isTrue hshort =>
    rw [and_iff_right hshort]
    cases routine with
    | temp =>
      refine iff_of_true ⟨drainWriteBuffer entries, ?_⟩ fun h => by cases h
      rw [length_drainWriteBuffer]
    | json =>
      constructor
      · rintro ⟨bytes, h⟩ -
        obtain ⟨rfl, hlength⟩ := Prod.mk.inj (Option.some.inj h)
        rw [length_drainWriteBufferJson] at hlength
        exact List.length_eq_zero_iff.mp (by omega)
      · intro h
        refine ⟨drainWriteBufferJson entries, ?_⟩
        rw [length_drainWriteBufferJson, h rfl]
        rfl

/-! ## Steps -/

namespace LogWriter

/-- What every step keeps of the files. -/
structure Filed (s : LogWriter) : Prop where
  /-- Nothing was written to a file that was not opened. -/
  new : ∀ f, s.shared.files.opened.length ≤ f → s.contents f = []
  opened : ∀ f, s.shared.handle.fptr = some f → f < s.shared.files.opened.length
  zero : s.shared.handle.fptr = none → s.shared.handle.fileSize = 0

theorem filed_start : start.Filed where
  new _ _ := rfl
  opened _ h := by cases h
  zero _ := rfl

theorem sizeExact_start : start.SizeExact := fun _ h => by cases h

/-- What a drain does. -/
theorem write_eq_some {s s' : LogWriter} {routine : FileType} {entries : List CStr}
    (h : s.write routine entries = some s') :
    ∃ bytes len f, drained routine entries = some (bytes, len) ∧
      s.shared.handle.fptr = some f ∧
      s' = { s with
        shared := s.shared.grow len
        contents := Function.update s.contents f (s.contents f ++ bytes) } := by
  obtain ⟨⟨bytes, len⟩, hdrained, h⟩ := Option.bind_eq_some_iff.mp h
  obtain ⟨f, hf, rfl⟩ := Option.map_eq_some_iff.mp h
  exact ⟨bytes, len, f, hdrained, hf, rfl⟩

theorem Filed.write {s s' : LogWriter} (h : s.Filed) {routine : FileType} {entries : List CStr}
    (hwrite : s.write routine entries = some s') : s'.Filed := by
  obtain ⟨bytes, len, f, -, hf, rfl⟩ := write_eq_some hwrite
  have hlt := h.opened f hf
  constructor
  · intro g hg
    have hne : g ≠ f := by
      rintro rfl
      exact absurd hg (Nat.not_le.mpr hlt)
    exact (Function.update_of_ne hne _ _).trans (h.new g hg)
  · exact h.opened
  · intro hnone
    rw [show s.shared.handle.fptr = none from hnone] at hf
    cases hf

/-- A drain that returns what it wrote keeps the count, as long as the counter has
room. -/
theorem SizeExact.write {s s' : LogWriter} (h : s.SizeExact) {routine : FileType}
    {entries : List CStr} (hshort : ∀ x ∈ entries, x.strlen < 2 ^ 31)
    (hplain : routine = .json → entries = [])
    (hroom : ∀ f, s.shared.handle.fptr = some f →
      (s.contents f).length + drainedLength entries < 2 ^ 64)
    (hwrite : s.write routine entries = some s') : s'.SizeExact := by
  obtain ⟨bytes, len, f, hdrained, hf, rfl⟩ := write_eq_some hwrite
  obtain ⟨bytes', hexact⟩ := drained_exact_iff.mpr ⟨hshort, hplain⟩
  rw [hdrained] at hexact
  cases hexact
  have hlen := len_of_drained hdrained
  intro g hg
  obtain rfl := Option.some.inj (hf.symm.trans hg)
  show (s.shared.handle.fileSize + bytes.length) % 2 ^ 64 =
    (Function.update s.contents f _ f).length
  rw [h f hf, Function.update_self, List.length_append, hlen, Nat.mod_eq_of_lt (hroom f hf)]

/-- Where the count stays exact over a drain the counter had room. -/
theorem room_of_write {s s' : LogWriter} (h : s.SizeExact) {routine : FileType}
    {entries : List CStr} (hexact : ∃ bytes, drained routine entries = some (bytes, bytes.length))
    (hwrite : s.write routine entries = some s') (h' : s'.SizeExact) {f : Nat}
    (hf : s.shared.handle.fptr = some f) :
    (s.contents f).length + drainedLength entries < 2 ^ 64 := by
  obtain ⟨bytes, len, g, hdrained, hg, rfl⟩ := write_eq_some hwrite
  obtain rfl := Option.some.inj (hf.symm.trans hg)
  obtain ⟨bytes', hexact⟩ := hexact
  rw [hdrained] at hexact
  cases hexact
  have hlen := len_of_drained hdrained
  have hsize : (s.shared.handle.fileSize + bytes.length) % 2 ^ 64 =
      (Function.update s.contents f (s.contents f ++ bytes) f).length := h' f hf
  rw [h f hf, Function.update_self, List.length_append, hlen] at hsize
  exact hsize ▸ Nat.mod_lt _ (by decide)

end LogWriter

/-- The current file and its count stay. -/
structure Shared.SameFile (s s' : Shared) : Prop where
  fptr : s'.handle.fptr = s.handle.fptr
  fileSize : s'.handle.fileSize = s.handle.fileSize
  opened : s'.files.opened = s.files.opened

/-- A file is opened and the count begins again. -/
structure Shared.NewFile (s s' : Shared) : Prop where
  fptr : s'.handle.fptr = some s.files.opened.length
  fileSize : s'.handle.fileSize = 0
  opened : s'.files.opened.length = s.files.opened.length + 1

/-- The first create call opens the file. -/
theorem newFile_of_create {folder : Option CStr} {c : CallArgs} {s s' : Shared}
    (hnone : s.handle.fptr = none) (hzero : s.handle.fileSize = 0)
    (h : createLogFile folder c s = (.returns SUCCESS, s')) : s.NewFile s' := by
  rcases createLogFile_success h with ⟨-, path, rfl⟩ | ⟨⟨f, hf⟩, -⟩
  · exact ⟨rfl, hzero, List.length_append⟩
  · rw [hnone] at hf
    cases hf

/-- A set call that returns opens a file or leaves the one that is open. -/
theorem sameFile_or_newFile_of_set {folder : Option CStr} {c : CallArgs} {s s' : Shared}
    {code : Int} (h : setFilePtr folder c s = (.returns code, s')) :
    s.SameFile s' ∨ s.NewFile s' := by
  rcases setFilePtr_returns h with rfl | ⟨-, rfl, -⟩
  · rcases setFilePtr_success h with ⟨-, path, -, rfl⟩ | ⟨-, rfl⟩
    · have hopens := Shared.rotate_opensFile s path
      exact .inr ⟨hopens.fptr, hopens.fileSize, hopens.opened ▸ List.length_append⟩
    · refine .inl ⟨?_, ?_, ?_⟩
      · exact Shared.closeIfLast_fptr _
      · exact Shared.closeIfLast_fileSize _
      · exact Shared.closeIfLast_opened _
  · exact .inl ⟨rfl, rfl, rfl⟩

namespace LogWriter

theorem Filed.sameFile {s : LogWriter} (h : s.Filed) {shared : Shared}
    (hsame : s.shared.SameFile shared) : Filed { s with shared } where
  new f hf := h.new f (hsame.opened ▸ hf)
  opened f hf := hsame.opened ▸ h.opened f (hsame.fptr ▸ hf)
  zero hnone := hsame.fileSize.trans (h.zero (hsame.fptr ▸ hnone))

theorem SizeExact.sameFile {s : LogWriter} (h : s.SizeExact) {shared : Shared}
    (hsame : s.shared.SameFile shared) : SizeExact { s with shared } :=
  fun f hf => hsame.fileSize.trans (h f (hsame.fptr ▸ hf))

theorem Filed.newFile {s : LogWriter} (h : s.Filed) {shared : Shared}
    (hnew : s.shared.NewFile shared) : Filed { s with shared } := by
  have hopened := hnew.opened
  constructor
  · intro f hf
    rw [hopened] at hf
    exact h.new f (Nat.le_of_succ_le hf)
  · intro f hf
    obtain rfl := Option.some.inj (hnew.fptr.symm.trans hf)
    exact hopened ▸ Nat.lt_succ_self _
  · intro hnone
    cases hnew.fptr.symm.trans hnone

/-- A file that was just opened is empty. -/
theorem sizeExact_newFile {s : LogWriter} (h : s.Filed) {shared : Shared}
    (hnew : s.shared.NewFile shared) : SizeExact { s with shared } := by
  intro f hf
  obtain rfl := Option.some.inj (hnew.fptr.symm.trans hf)
  rw [hnew.fileSize, h.new _ (Nat.le_refl _)]
  rfl

/-- What a step does to the files: a drain, or a call under the lock. -/
theorem writerStep_cases {config : Configuration} {kind : FileType} {s s' : LogWriter}
    {a : WriterAction} (hfiled : s.Filed) (h : writerStep config kind s a = some s') :
    (∃ routine entries wb t, s.drains a = some (routine, entries) ∧
        s.write routine entries = some t ∧ s' = { t with wb }) ∨
      s.drains a = none ∧ ∃ shared, s' = { s with shared } ∧
        (s.shared.SameFile shared ∨ s.shared.NewFile shared) := by
  cases a with
  | create c =>
    refine .inr ⟨rfl, ?_⟩
    simp only [writerStep, Call.exec_create] at h
    split at h
    next hnone =>
      split at h
      next code shared hexec =>
        obtain ⟨rfl, hnext⟩ := Option.ite_none_right_eq_some.mp h
        cases hnext
        exact ⟨shared, rfl, .inr (newFile_of_create hnone (hfiled.zero hnone) hexec)⟩
      next => cases h
    next => cases h
  | set c =>
    refine .inr ⟨rfl, ?_⟩
    simp only [writerStep, Call.exec_set] at h
    split at h
    next => cases h
    next =>
      split at h
      next code shared hexec =>
        cases h
        exact ⟨shared, rfl, sameFile_or_newFile_of_set hexec⟩
      next => cases h
  | place routine x =>
    obtain ⟨t, ht, rfl⟩ := Option.map_eq_some_iff.mp h
    exact .inl ⟨routine, _, _, t, rfl, ht, rfl⟩
  | drain routine =>
    obtain ⟨t, ht, rfl⟩ := Option.map_eq_some_iff.mp h
    exact .inl ⟨routine, _, _, t, rfl, ht, rfl⟩

theorem filed_step {config : Configuration} {kind : FileType} {s s' : LogWriter}
    {a : WriterAction} (h : s.Filed) (hstep : writerStep config kind s a = some s') :
    s'.Filed := by
  rcases writerStep_cases h hstep with
    ⟨routine, entries, wb, t, -, hwrite, rfl⟩ | ⟨-, shared, rfl, hsame | hnew⟩
  · have ht := h.write hwrite
    exact ⟨ht.new, ht.opened, ht.zero⟩
  · exact h.sameFile hsame
  · exact h.newFile hnew

/-- A step that drains writes, and changes the buffer only after that. -/
theorem writerStep_of_drains (config : Configuration) (kind : FileType) {s : LogWriter}
    {a : WriterAction} {routine : FileType} {entries : List CStr}
    (h : s.drains a = some (routine, entries)) :
    ∃ wb, writerStep config kind s a = (s.write routine entries).map fun t => { t with wb } := by
  cases a with
  | create c => cases h
  | set c => cases h
  | place routine x =>
    cases h
    exact ⟨_, rfl⟩
  | drain routine =>
    cases h
    exact ⟨_, rfl⟩

/-- A step accounts for what it writes exactly where what it drains is counted. -/
theorem accountsExactly_iff (config : Configuration) (kind : FileType) {s : LogWriter}
    (hfiled : s.Filed) (hexact : s.SizeExact) (a : WriterAction) :
    AccountsExactly config kind s a ↔ DrainsCounted s a := by
  constructor
  · rintro ⟨hreturns, hafter⟩ routine entries hdrains
    have hdrained := hreturns routine entries hdrains
    obtain ⟨hshort, hplain⟩ := drained_exact_iff.mp hdrained
    refine ⟨hshort, hplain, ?_⟩
    intro f hf
    obtain ⟨wb, hstep⟩ := writerStep_of_drains config kind hdrains
    obtain ⟨t, hwrite⟩ : ∃ t, s.write routine entries = some t := by
      obtain ⟨bytes, hbytes⟩ := hdrained
      rw [LogWriter.write, hbytes, Option.bind_some, hf]
      exact ⟨_, rfl⟩
    rw [hwrite, Option.map_some] at hstep
    have ht := hafter _ hstep
    exact room_of_write hexact hdrained hwrite ht hf
  · intro h
    constructor
    · intro routine entries hdrains
      obtain ⟨hshort, hplain, -⟩ := h routine entries hdrains
      exact drained_exact_iff.mpr ⟨hshort, hplain⟩
    · intro s' hstep
      rcases writerStep_cases hfiled hstep with
        ⟨routine, entries, wb, t, hdrains, hwrite, rfl⟩ | ⟨-, shared, rfl, hsame | hnew⟩
      · obtain ⟨hshort, hplain, hroom⟩ := h routine entries hdrains
        have ht : t.SizeExact := hexact.write hshort hplain hroom hwrite
        exact ht
      · exact hexact.sameFile hsame
      · exact sizeExact_newFile hfiled hnew

end LogWriter

/-! ## Runs -/

/-- THE ACCOUNTING IS EXACT along a run exactly where every drain of the run is
counted: none of a record through `drain_write_buffer_json`. -/
theorem accounting_exact_iff (config : Configuration) (kind : FileType)
    (acts : List WriterAction) :
    (writerStep config kind).Along (AccountsExactly config kind) .start acts ↔
      (writerStep config kind).Along DrainsCounted .start acts := by
  have hstart : LogWriter.start.Filed ∧ LogWriter.start.SizeExact :=
    ⟨LogWriter.filed_start, LogWriter.sizeExact_start⟩
  constructor
  · apply Lib.Step.Along.imp (I := fun s => s.Filed ∧ s.SizeExact) _ _ hstart
    · intro s a s' h hexact hstep
      exact ⟨LogWriter.filed_step h.1 hstep, hexact.2 s' hstep⟩
    · intro s a h
      exact (LogWriter.accountsExactly_iff config kind h.1 h.2 a).mp
  · apply Lib.Step.Along.imp (I := fun s => s.Filed ∧ s.SizeExact) _ _ hstart
    · intro s a s' h hcounted hstep
      have hexact := (LogWriter.accountsExactly_iff config kind h.1 h.2 a).mpr hcounted
      exact ⟨LogWriter.filed_step h.1 hstep, hexact.2 s' hstep⟩
    · intro s a h
      exact (LogWriter.accountsExactly_iff config kind h.1 h.2 a).mpr

/-- A record is placed and drained: three bytes are written and two are counted. -/
theorem record_newline_uncounted :
    ¬ (writerStep sampleConfiguration .json).Along (AccountsExactly sampleConfiguration .json)
      .start [.create sampleCall, .place .json (.lit "\x7b\x7d"), .drain .json] := by
  intro h
  have hdrain := ((h.tail rfl).tail rfl).head
  obtain ⟨bytes, hbytes⟩ := hdrain.1 .json [.lit "\x7b\x7d"] rfl
  have hjson := (drained_exact_iff.mp ⟨bytes, hbytes⟩).2 rfl
  cases hjson

end LogCollector
