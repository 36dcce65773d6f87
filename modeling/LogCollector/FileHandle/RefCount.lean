import LogCollector.FileHandle.Basic

/-!
# The reference counts of a log file handle

`ref` and `prev_ref` are stated nowhere; this module finds what they count. A
handle is in one of two phases (`Phase`): SETTLED, with no previous file and
every create call counted in `ref`, or ROTATING, with a previous file that is
still open and the create calls split between `ref` and `prev_ref`, at least
one on each side. Create and set calls move between the phases, in any order
and by any threads, and `fclose` is applied to the previous file exactly when
the last count leaves it.

The files of the process are kept in a ledger (`Accounted`): the closed ones
are the opened ones that are not live, each closed once.
-/

namespace LogCollector

/-! ## The ledger of files -/

/-- The files that have been closed are the opened ones not in `live`, each
closed once, and `fclose` was never given NULL. -/
structure Accounted (files : Files) (live : List Nat) : Prop where
  nodup : files.fclosed.Nodup
  notNull : none ∉ files.fclosed
  closed : ∀ g, some g ∈ files.fclosed ↔ g < files.opened.length ∧ g ∉ live
  opened : ∀ g ∈ live, g < files.opened.length

namespace Accounted

/-- A live file is open. -/
theorem isOpen {files : Files} {live : List Nat} (h : Accounted files live) {g : Nat}
    (hg : g ∈ live) : files.IsOpen g :=
  ⟨h.opened g hg, fun hc => ((h.closed g).mp hc).2 hg⟩

/-- And an open file is live. -/
theorem mem_of_isOpen {files : Files} {live : List Nat} (h : Accounted files live)
    {g : Nat} (hg : files.IsOpen g) : g ∈ live := by
  by_contra hnot
  exact hg.2 ((h.closed g).mpr ⟨hg.1, hnot⟩)

/-- The order in which live files are listed does not matter. -/
theorem perm {files : Files} {live live' : List Nat} (h : Accounted files live)
    (hp : ∀ g, g ∈ live ↔ g ∈ live') : Accounted files live' where
  nodup := h.nodup
  notNull := h.notNull
  closed g := by rw [h.closed g, hp g]
  opened g hg := h.opened g ((hp g).mpr hg)

/-- `fopen` makes one more live file, which no file before it equals. -/
theorem fopen {files : Files} {live : List Nat} (h : Accounted files live) (path : CStr) :
    Accounted (files.fopen path).2 ((files.fopen path).1 :: live) := by
  refine ⟨h.nodup, h.notNull, ?_, ?_⟩
  · intro g
    simp only [Files.fopen, h.closed g, List.length_append, List.length_singleton,
      List.mem_cons, not_or]
    constructor
    · intro ⟨hlt, hnot⟩
      exact ⟨by omega, by omega, hnot⟩
    · intro ⟨hlt, hne, hnot⟩
      exact ⟨by omega, hnot⟩
  · intro g hg
    simp only [Files.fopen, List.length_append, List.length_singleton]
    rcases List.mem_cons.mp hg with rfl | hg
    · simp only [Files.fopen]
      omega
    · have := h.opened g hg
      omega

theorem fopen_fresh {files : Files} {live : List Nat} (h : Accounted files live)
    (path : CStr) : (files.fopen path).1 ∉ live := by
  intro hmem
  have := h.opened _ hmem
  simp only [Files.fopen] at this
  omega

/-- `fclose` of a live file takes it out of the ledger. -/
theorem fclose {files : Files} {live : List Nat} {p : Nat}
    (h : Accounted files (p :: live)) (hp : p ∉ live) :
    Accounted (files.fclose (some p)) live := by
  have hopen := h.isOpen List.mem_cons_self
  refine ⟨?_, ?_, ?_, fun g hg => h.opened g (List.mem_cons_of_mem _ hg)⟩
  · exact List.nodup_append.mpr ⟨h.nodup, List.nodup_singleton _, fun a ha b hb => by
      cases List.mem_singleton.mp hb
      exact fun heq => hopen.2 (heq ▸ ha)⟩
  · simpa [Files.fclose] using h.notNull
  · intro g
    simp only [Files.fclose, List.mem_append, List.mem_cons, List.not_mem_nil, or_false,
      Option.some.injEq, h.closed g, not_or]
    constructor
    · rintro (⟨hlt, -, hnot⟩ | rfl)
      · exact ⟨hlt, hnot⟩
      · exact ⟨hopen.1, hp⟩
    · intro ⟨hlt, hnot⟩
      by_cases hgp : g = p
      · exact .inr hgp
      · exact .inl ⟨hlt, hgp, hnot⟩

/-- A file that was opened and is not live was closed exactly once. -/
theorem count_eq_one {files : Files} {live : List Nat} (h : Accounted files live)
    {g : Nat} (hlt : g < files.opened.length) (hg : g ∉ live) :
    files.fclosed.count (some g) = 1 :=
  List.count_eq_one_of_mem h.nodup ((h.closed g).mpr ⟨hlt, hg⟩)

end Accounted

theorem accounted_fresh : Accounted initializeFileHandles.files [] where
  nodup := List.nodup_nil
  notNull := List.not_mem_nil
  closed g := by simp [initializeFileHandles]
  opened := by simp

/-! ## The two phases -/

/-- What the counters mean after `n` create calls. -/
inductive Phase (n : Int) (s : Shared) : Prop
  | settled {f : Nat} (cur : s.handle.fptr = some f) (prev : s.handle.prevFptr = none)
      (prevRef : s.handle.prevRef = 0) (ref : s.handle.ref = n) (pos : 1 ≤ n)
      (ledger : Accounted s.files [f])
  | rotating {f p : Nat} (cur : s.handle.fptr = some f) (prev : s.handle.prevFptr = some p)
      (prevRef : 1 ≤ s.handle.prevRef) (ref : 1 ≤ s.handle.ref)
      (total : s.handle.ref + s.handle.prevRef = n) (ne : p ≠ f)
      (ledger : Accounted s.files [p, f])

/-- A rotating handle before the test for the last count: `prev_ref` may
already be zero. -/
structure HalfDone (n : Int) (s : Shared) (f p : Nat) : Prop where
  cur : s.handle.fptr = some f
  prev : s.handle.prevFptr = some p
  prevRef : 0 ≤ s.handle.prevRef
  ref : 1 ≤ s.handle.ref
  total : s.handle.ref + s.handle.prevRef = n
  ne : p ≠ f
  ledger : Accounted s.files [p, f]

/-- The test for the last count ends the rotation or leaves it half done. -/
theorem HalfDone.closeIfLast {n : Int} {s : Shared} {f p : Nat} (h : HalfDone n s f p) :
    Phase n s.closeIfLast.unlock := by
  unfold Shared.closeIfLast
  split
  · next h0 =>
    refine .settled (f := f) h.cur rfl h0 ?_ ?_ ?_
    · have := h.total
      simp only [Shared.unlock]
      omega
    · have := h.total
      have := h.ref
      omega
    · have := h.ledger.fclose (p := p) (by simpa using h.ne)
      simpa only [Shared.unlock, h.prev] using this
  · next h0 =>
    have := h.prevRef
    exact .rotating h.cur h.prev (by simp only [Shared.unlock]; omega) h.ref h.total h.ne h.ledger

/-- The first create call. -/
theorem phase_openFirst {s : Shared} (hledger : Accounted s.files [])
    (hprev : s.handle.prevFptr = none) (path : CStr) :
    Phase 1 (s.lock.openFirst path).unlock :=
  .settled rfl hprev rfl rfl (by omega) (hledger.fopen path)

/-- A create call that arrives later, in either phase. -/
theorem Phase.join {n : Int} {s : Shared} (h : Phase n s) : Phase (n + 1) s.lock.join.unlock := by
  cases h with
  | settled cur prev prevRef ref pos ledger =>
    exact .settled cur prev prevRef (by simp only [Shared.join, Shared.lock, Shared.unlock]; omega)
      (by omega) ledger
  | rotating cur prev prevRef ref total ne ledger =>
    exact .rotating cur prev prevRef (by simp only [Shared.join, Shared.lock, Shared.unlock]; omega)
      (by simp only [Shared.join, Shared.lock, Shared.unlock]; omega) ne ledger

/-- A set call that finds the handle settled rotates. -/
theorem Phase.rotate {n : Int} {s : Shared} (h : Phase n s) (hprev : s.handle.prevFptr = none)
    (path : CStr) : Phase n (s.lock.rotate path).closeIfLast.unlock := by
  cases h with
  | @settled f cur prev prevRef ref pos ledger =>
    refine HalfDone.closeIfLast (f := (s.files.fopen path).1) (p := f)
      ⟨rfl, cur, ?_, ?_, ?_, ?_, ?_⟩
    · simp only [Shared.rotate, Shared.lock]
      omega
    · simp only [Shared.rotate, Shared.lock]
      omega
    · simp only [Shared.rotate, Shared.lock]
      omega
    · have := ledger.fopen_fresh path
      intro heq
      exact this (heq ▸ List.mem_singleton_self f)
    · exact (ledger.fopen path).perm fun g => by simp [or_comm]
  | rotating cur prev => rw [hprev] at prev; cases prev

/-- A set call that finds a rotation half done moves one count over. -/
theorem Phase.acknowledge {n : Int} {s : Shared} (h : Phase n s)
    (hnot : ¬ (s.handle.prevFptr = none ∧ s.handle.prevRef = 0)) :
    Phase n s.lock.acknowledge.closeIfLast.unlock := by
  cases h with
  | settled cur prev prevRef => exact absurd ⟨prev, prevRef⟩ hnot
  | @rotating f p cur prev prevRef ref total ne ledger =>
    refine HalfDone.closeIfLast (f := f) (p := p) ⟨cur, prev, ?_, ?_, ?_, ne, ledger⟩ <;>
      simp only [Shared.acknowledge, Shared.lock] <;> omega

/-! ## Runs of create and set calls -/

/-- `enum file_type`. -/
inductive FileType
  | json
  | temp
deriving DecidableEq

/-- A call on a handle, by any thread. -/
inductive Call
  | create (c : CallArgs)
  | set (c : CallArgs)

def Call.isCreate : Call → Bool
  | .create _ => true
  | .set _ => false

/-- The call on the handle of the given kind. -/
def Call.exec (config : Configuration) (kind : FileType) : Call → Shared → Outcome × Shared
  | .create c => match kind with
    | .json => createJsonLogFile config c
    | .temp => createTempLogFile config c
  | .set c => match kind with
    | .json => setJsonFilePtr config c
    | .temp => setTempFilePtr config c

/-- The folder a kind of file lives under. -/
def FileType.folder (config : Configuration) : FileType → CStr
  | .json => config.jsonFolder
  | .temp => config.tmpFolder

theorem Call.exec_create (config : Configuration) (kind : FileType) (c : CallArgs) (s : Shared) :
    (Call.create c).exec config kind s = createLogFile (some (kind.folder config)) c s := by
  cases kind <;> rfl

theorem Call.exec_set (config : Configuration) (kind : FileType) (c : CallArgs) (s : Shared) :
    (Call.set c).exec config kind s = setFilePtr (some (kind.folder config)) c s := by
  cases kind <;> rfl

/-- One successful call; a call that finds the lock held never returns. -/
def callStep (config : Configuration) (kind : FileType) : Lib.Step Shared Call := fun s call =>
  if s.handle.fileLock then none
  else match call.exec config kind s with
    | (.returns code, s') => if code = SUCCESS then some s' else none
    | (.exits, _) => none

theorem callStep_eq_some {config : Configuration} {kind : FileType} {s s' : Shared} {call : Call}
    (h : callStep config kind s call = some s') :
    call.exec config kind s = (.returns SUCCESS, s') := by
  unfold callStep at h
  split at h
  · cases h
  · split at h
    · next code t heq =>
      split at h
      · next hcode =>
        cases h
        rw [heq, hcode]
      · cases h
    · cases h

/-- The create calls among a list of calls. -/
def creates (calls : List Call) : Nat := calls.countP Call.isCreate

/-- One successful call keeps the phase, with one more create call counted if
it was one. -/
theorem Phase.call {config : Configuration} {kind : FileType} {n : Int} {s s' : Shared}
    {call : Call} (h : Phase n s) (hstep : callStep config kind s call = some s') :
    Phase (n + if call.isCreate then 1 else 0) s' := by
  have hexec := callStep_eq_some hstep
  cases call with
  | create c =>
    rw [Call.exec_create] at hexec
    rcases createLogFile_success hexec with ⟨hnone, -⟩ | ⟨-, rfl⟩
    · cases h with
      | settled cur => rw [hnone] at cur; cases cur
      | rotating cur => rw [hnone] at cur; cases cur
    · exact h.join
  | set c =>
    rw [Call.exec_set] at hexec
    simp only [Call.isCreate, Bool.false_eq_true, if_false, add_zero]
    rcases setFilePtr_success hexec with ⟨⟨hprev, -⟩, path, -, rfl⟩ | ⟨hnot, rfl⟩
    · exact h.rotate hprev path
    · exact h.acknowledge hnot

/-- A run of successful calls keeps the phase and counts its create calls. -/
theorem Phase.calls {config : Configuration} {kind : FileType} :
    ∀ {calls : List Call} {n : Int} {s s' : Shared}, Phase n s →
      (callStep config kind).run s calls = some s' → Phase (n + creates calls) s'
  | [], n, s, s', h, hrun => by
    cases hrun
    simpa [creates] using h
  | call :: calls, n, s, s', h, hrun => by
    obtain ⟨s₁, hstep, hrest⟩ := Lib.Step.run_cons_eq_some.mp hrun
    have hrec := Phase.calls (h.call hstep) hrest
    have hcount : n + (if call.isCreate then 1 else 0) + (creates calls : Int)
        = n + creates (call :: calls) := by
      simp only [creates, List.countP_cons]
      split <;> push_cast <;> omega
    rwa [hcount] at hrec

/-- A run that starts with a create call on a fresh handle. -/
theorem phase_of_run {config : Configuration} {kind : FileType} {c : CallArgs}
    {calls : List Call} {s : Shared}
    (hrun : (callStep config kind).run initializeFileHandles (.create c :: calls) = some s) :
    Phase (creates (.create c :: calls)) s := by
  obtain ⟨s₁, hstep, hrest⟩ := Lib.Step.run_cons_eq_some.mp hrun
  have hexec := callStep_eq_some hstep
  rw [Call.exec_create] at hexec
  rcases createLogFile_success hexec with ⟨-, path, rfl⟩ | ⟨⟨f, hf⟩, -⟩
  · have := Phase.calls (phase_openFirst accounted_fresh rfl path) hrest
    simpa [creates, List.countP_cons, Call.isCreate, add_comm] using this
  · cases hf

/-! ## The invariant -/

/-- What holds of a handle after `n` create calls and any set calls. -/
structure RefCountInvariant (n : Nat) (s : Shared) : Prop where
  /-- `fptr` is an open file. -/
  current : ∃ f, s.handle.fptr = some f ∧ s.files.IsOpen f
  /-- Every create call is counted on one of the two sides. -/
  total : s.handle.ref + s.handle.prevRef = n
  /-- The handle is settled, or rotating away from an open file. -/
  phase : (s.handle.prevFptr = none ∧ s.handle.prevRef = 0 ∧ s.handle.ref = n) ∨
    ∃ p, s.handle.prevFptr = some p ∧ s.files.IsOpen p ∧ s.handle.fptr ≠ some p ∧
      1 ≤ s.handle.prevRef ∧ s.handle.prevRef ≤ n - 1
  /-- Every other file was closed exactly once. -/
  others : ∀ g, g < s.files.opened.length → s.handle.fptr ≠ some g → s.handle.prevFptr ≠ some g →
    s.files.fclosed.count (some g) = 1
  /-- `fclose` was never given NULL. -/
  notNull : none ∉ s.files.fclosed
  /-- No file was given to `fclose` twice. -/
  once : s.files.fclosed.Nodup

theorem Phase.invariant {n : Nat} {s : Shared} (h : Phase n s) : RefCountInvariant n s := by
  cases h with
  | @settled f cur prev prevRef ref pos ledger =>
    refine ⟨⟨f, cur, ledger.isOpen (List.mem_singleton_self f)⟩, by omega,
      .inl ⟨prev, prevRef, ref⟩,
      fun g hlt hg _ => ledger.count_eq_one hlt fun hmem => ?_, ledger.notNull, ledger.nodup⟩
    rw [cur, List.mem_singleton.mp hmem] at hg
    exact hg rfl
  | @rotating f p cur prev prevRef ref total ne ledger =>
    refine ⟨⟨f, cur, ledger.isOpen (by simp)⟩, total,
      .inr ⟨p, prev, ledger.isOpen (by simp), ?_, prevRef, by omega⟩,
      fun g hlt hg hgp => ledger.count_eq_one hlt fun hmem => ?_, ledger.notNull, ledger.nodup⟩
    · rw [cur]
      exact fun heq => ne (Option.some.inj heq).symm
    · rw [cur] at hg
      rw [prev] at hgp
      simp only [List.mem_cons, List.not_mem_nil, or_false] at hmem
      rcases hmem with rfl | rfl
      · exact hgp rfl
      · exact hg rfl

/-- The final clean-up closes the files that are still open, each once, and
nothing else. -/
theorem Phase.cleanUp {n : Int} {s : Shared} (h : Phase n s) :
    ∃ closed : List Nat, (deleteFileHandles s).fclosed = s.files.fclosed ++ closed.map some ∧
      closed.Nodup ∧ ∀ g, g ∈ closed ↔ s.files.IsOpen g := by
  unfold deleteFileHandles
  cases h with
  | @settled f cur prev prevRef ref pos ledger =>
    refine ⟨[f], ?_, List.nodup_singleton f, fun g => ⟨ledger.isOpen, ledger.mem_of_isOpen⟩⟩
    simp only [cur, prev, Files.fclose, List.map_cons, List.map_nil]
  | @rotating f p cur prev prevRef ref total ne ledger =>
    refine ⟨[f, p], ?_, by simpa using fun h => ne h.symm, ?_⟩
    · simp only [cur, prev, Files.fclose, List.map_cons, List.map_nil, List.append_assoc,
        List.cons_append, List.nil_append]
    · intro g
      have hmem : g ∈ [f, p] ↔ g ∈ [p, f] := by simp [or_comm]
      exact hmem.trans ⟨ledger.isOpen, ledger.mem_of_isOpen⟩

/-- THE REFERENCE COUNTS ARE SOUND: after any successful create and set calls
that begin with a create call, on a json or a temp handle, the counters split
the create calls between the current and the previous file, every file that is
neither has been closed exactly once, and deleting the handle closes exactly
what is still open. -/
theorem rotation_refCounts (config : Configuration) (kind : FileType) (c : CallArgs)
    (calls : List Call) (s : Shared)
    (hrun : (callStep config kind).run initializeFileHandles (.create c :: calls) = some s) :
    RefCountInvariant (creates (.create c :: calls)) s ∧
      ∃ closed : List Nat, (deleteFileHandles s).fclosed = s.files.fclosed ++ closed.map some ∧
        closed.Nodup ∧ ∀ g, g ∈ closed ↔ s.files.IsOpen g :=
  have hphase := phase_of_run hrun
  ⟨hphase.invariant, hphase.cleanUp⟩

/-- Two threads join, both rotate, and a third joins half way through. -/
theorem rotation_refCounts_three : ∃ s, RefCountInvariant 3 s ∧
    (callStep sampleConfiguration .json).run initializeFileHandles
      [.create sampleCall, .create sampleCall, .set sampleCall, .create sampleCall,
        .set sampleCall] = some s :=
  ⟨_, (rotation_refCounts sampleConfiguration .json sampleCall
    [.create sampleCall, .set sampleCall, .create sampleCall, .set sampleCall] _ rfl).1, rfl⟩

end LogCollector
