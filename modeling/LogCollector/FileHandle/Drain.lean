import LogCollector.FileHandle.RefCount
import LogCollector.Lib.Handover

/-!
# Draining into a shared log file

A thread drains a write buffer in two steps: it reads the handle's `fptr` as
the argument of `drain_write_buffer_json` or `drain_write_buffer`, outside the
lock, and then writes the burst to that file. Meanwhile the other threads
sharing the handle rotate it. This module interleaves the two, one action a
step, with create and set calls atomic under the lock.

`prev_ref` counts set CALLS, not the threads that made them. A thread that
calls twice while a rotation is half done uses up the count of a thread that
has not called, and the previous file is closed under that thread's drain
(`drain_into_closed_file`). When every call made during a rotation is made by
a thread that is still behind (`OncePerRotation`), the counters are the
cardinalities of a hand-over (`Lib.Handover`) and no drain meets a closed file
(`drain_open_of_oncePerRotation`).
-/

namespace LogCollector

/-- Where a thread stands with respect to one log file. -/
inductive Activity
  | absent
  | idle
  | draining (fptr : Option Nat)
deriving DecidableEq

/-- The threads sharing a handle. `handover` is a history variable: the
threads that have joined, and those that have made no set call since the
rotation that is half done began. -/
structure Writers (ι : Type*) where
  shared : Shared
  activity : ι → Activity
  exited : Bool
  handover : Lib.Handover ι

/-- One step of one thread. -/
inductive DrainAction (ι : Type*)
  | create (t : ι) (c : CallArgs)
  | set (t : ι) (c : CallArgs)
  /-- `plgn->j_file->fptr` is read as the argument of the drain. -/
  | readFptr (t : ι)
  /-- The drain writes its burst to the file it was given. -/
  | write (t : ι)

variable {ι : Type*} [DecidableEq ι]

namespace Writers

/-- No thread has started. -/
def start : Writers ι where
  shared := initializeFileHandles
  activity _ := .absent
  exited := false
  handover := .empty

def setActivity (s : Writers ι) (t : ι) (a : Activity) : Writers ι :=
  { s with activity := Function.update s.activity t a }

end Writers

/-- The step of one thread. A thread waits while another holds the lock, and
nobody takes a step after the process has exited. A failed create call exits
the process in its caller; the result of a set call is ignored. -/
def drainStep (config : Configuration) (kind : FileType) :
    Lib.Step (Writers ι) (DrainAction ι)
  | s, .create t c =>
    if s.exited ∨ s.shared.handle.fileLock ∨ s.activity t ≠ .absent then none
    else match (Call.create c).exec config kind s.shared with
      | (.returns code, shared) =>
        if code = SUCCESS then
          some ({ s with shared, handover := s.handover.join t }.setActivity t .idle)
        else some { s with shared, exited := true }
      | (.exits, shared) => some { s with shared, exited := true }
  | s, .set t c =>
    if s.exited ∨ s.shared.handle.fileLock ∨ s.activity t ≠ .idle then none
    else match (Call.set c).exec config kind s.shared with
      | (.returns code, shared) =>
        if code = SUCCESS then
          some { s with
            shared
            handover := if s.shared.handle.prevFptr = none then s.handover.begin t
              else s.handover.leave t }
        else some { s with shared }
      | (.exits, shared) => some { s with shared, exited := true }
  | s, .readFptr t =>
    if s.exited ∨ s.activity t ≠ .idle then none
    else some (s.setActivity t (.draining s.shared.handle.fptr))
  | s, .write t =>
    if s.exited then none
    else match s.activity t with
      | .draining _ => some (s.setActivity t .idle)
      | _ => none

/-- The step is a drain writing to a file that was passed to `fclose`. -/
def WritesClosed (s : Writers ι) : DrainAction ι → Prop
  | .write t => match s.activity t with
    | .draining f => s.exited = false ∧ f ∈ s.shared.files.fclosed
    | _ => False
  | _ => False

/-- A set call made while a rotation is half done is made by a thread that was
there when the rotation began and has made no set call since. -/
def OncePerRotation (s : Writers ι) : DrainAction ι → Prop
  | .set t _ => s.shared.handle.prevFptr = none ∨ t ∈ s.handover.behind
  | _ => True

instance WritesClosed.decidable (s : Writers ι) (a : DrainAction ι) :
    Decidable (WritesClosed s a) :=
  match a with
  | .write t =>
    match h : s.activity t with
    | .draining f => decidable_of_iff (s.exited = false ∧ f ∈ s.shared.files.fclosed)
        (by simp only [WritesClosed, h])
    | .absent => .isFalse (by simp only [WritesClosed, h, not_false_eq_true])
    | .idle => .isFalse (by simp only [WritesClosed, h, not_false_eq_true])
  | .create .. | .set .. | .readFptr _ => .isFalse not_false

instance OncePerRotation.decidable (s : Writers ι) (a : DrainAction ι) :
    Decidable (OncePerRotation s a) :=
  match a with
  | .set t _ => inferInstanceAs (Decidable (_ ∨ t ∈ s.handover.behind))
  | .create .. | .readFptr _ | .write _ => .isTrue trivial

/-! ## The hand-over the counters implement -/

/-- The counters are the cardinalities of the hand-over. -/
structure Tracks (shared : Shared) (handover : Lib.Handover ι) : Prop where
  phase : Phase handover.users.card shared
  counts : handover.Counts shared.handle.ref shared.handle.prevRef
  settled : shared.handle.prevFptr = none → handover.behind = ∅

/-- The invariant of runs in which every rotation is called once by each
thread: before the first create call nothing has happened; from then on the
counters track the hand-over, and a drain holds the current file, or the
previous one if its thread is behind. -/
structure DrainInvariant (s : Writers ι) : Prop where
  users : ∀ t, t ∈ s.handover.users ↔ s.activity t ≠ .absent
  fresh : s.handover.users = ∅ → s.shared = initializeFileHandles
  tracks : s.handover.users.Nonempty → Tracks s.shared s.handover
  drains : ∀ t f, s.activity t = .draining f → f = s.shared.handle.fptr ∨
    f = s.shared.handle.prevFptr ∧ t ∈ s.handover.behind

/-- The lock is no part of a phase. -/
theorem Phase.lock {n : Int} {s : Shared} (h : Phase n s) : Phase n s.lock := by
  cases h with
  | settled cur prev prevRef ref pos ledger => exact .settled cur prev prevRef ref pos ledger
  | rotating cur prev prevRef ref total ne ledger =>
    exact .rotating cur prev prevRef ref total ne ledger

/-- A settled handle has no previous file and no count on one. -/
theorem Phase.prevRef_of_settled {n : Int} {s : Shared} (h : Phase n s)
    (hprev : s.handle.prevFptr = none) : s.handle.prevRef = 0 := by
  cases h with
  | settled cur prev prevRef => exact prevRef
  | rotating cur prev => rw [hprev] at prev; cases prev

/-- Neither the current nor the previous file of a handle is closed. -/
theorem Phase.not_closed {n : Int} {s : Shared} (h : Phase n s) {f : Option Nat}
    (hf : f = s.handle.fptr ∨ f = s.handle.prevFptr) : f ∉ s.files.fclosed := by
  have live {live : List Nat} (ledger : Accounted s.files live) {g : Nat} (hg : g ∈ live) :
      some g ∉ s.files.fclosed := (ledger.isOpen hg).2
  cases h with
  | settled cur prev prevRef ref pos ledger =>
    rcases hf with rfl | rfl
    · exact cur ▸ live ledger (List.mem_singleton_self _)
    · exact prev ▸ ledger.notNull
  | rotating cur prev prevRef ref total ne ledger =>
    rcases hf with rfl | rfl
    · exact cur ▸ live ledger (by simp)
    · exact prev ▸ live ledger (by simp)

@[simp] theorem Shared.closeIfLast_fptr (s : Shared) :
    s.closeIfLast.handle.fptr = s.handle.fptr := by
  unfold Shared.closeIfLast
  split <;> rfl

@[simp] theorem Shared.closeIfLast_ref (s : Shared) :
    s.closeIfLast.handle.ref = s.handle.ref := by
  unfold Shared.closeIfLast
  split <;> rfl

@[simp] theorem Shared.closeIfLast_prevRef (s : Shared) :
    s.closeIfLast.handle.prevRef = s.handle.prevRef := by
  unfold Shared.closeIfLast
  split <;> rfl

/-- The test for the last count keeps the previous file as long as a count is
left on it. -/
theorem Shared.closeIfLast_prevFptr (s : Shared) :
    s.closeIfLast.handle.prevFptr = if s.handle.prevRef = 0 then none else s.handle.prevFptr := by
  unfold Shared.closeIfLast
  split <;> rfl

omit [DecidableEq ι] in
/-- After the test for the last count, nobody is behind if the previous file
is gone: counters that track a hand-over whose previous file is `p` still do. -/
theorem tracks_closeIfLast {s : Shared} {h : Lib.Handover ι} {p : Nat}
    (phase : Phase h.users.card s.closeIfLast.unlock)
    (counts : h.Counts s.handle.ref s.handle.prevRef) (prev : s.handle.prevFptr = some p) :
    Tracks s.closeIfLast.unlock h where
  phase := phase
  counts := by simpa [Shared.unlock] using counts
  settled hnone := by
    simp only [Shared.unlock, Shared.closeIfLast_prevFptr] at hnone
    split at hnone
    · next h0 => exact Lib.Handover.Counts.behind_eq_empty (h0 ▸ counts)
    · rw [prev] at hnone
      cases hnone

/-! ## The hand-over is kept -/

/-- A create call is a join. -/
theorem Tracks.create {folder : Option CStr} {c : CallArgs} {s s' : Shared} {h : Lib.Handover ι}
    (ht : Tracks s h) {t : ι} (hnew : t ∉ h.users)
    (hexec : createLogFile folder c s = (.returns SUCCESS, s')) :
    Tracks s' (h.join t) ∧ s'.handle.fptr = s.handle.fptr ∧
      s'.handle.prevFptr = s.handle.prevFptr := by
  rcases createLogFile_success hexec with ⟨hnone, -⟩ | ⟨-, rfl⟩
  · cases ht.phase with
    | settled cur => rw [hnone] at cur; cases cur
    | rotating cur => rw [hnone] at cur; cases cur
  · refine ⟨⟨?_, ht.counts.join hnew, ht.settled⟩, rfl, rfl⟩
    have hcard : ((h.join t).users.card : Int) = h.users.card + 1 := by
      simp only [Lib.Handover.join, Finset.card_insert_of_notMem hnew]
      push_cast
      rfl
    rw [hcard]
    exact ht.phase.join

/-- The first create call is a join of the empty hand-over. -/
theorem tracks_first {folder : Option CStr} {c : CallArgs} {s' : Shared} {h : Lib.Handover ι}
    (hempty : h.users = ∅) (t : ι)
    (hexec : createLogFile folder c initializeFileHandles = (.returns SUCCESS, s')) :
    Tracks s' (h.join t) := by
  have hbehind : h.behind = ∅ := Finset.subset_empty.mp (hempty ▸ h.sub)
  rcases createLogFile_success hexec with ⟨-, path, rfl⟩ | ⟨⟨f, hf⟩, -⟩
  · refine ⟨?_, ?_, fun _ => hbehind⟩
    · simpa [Lib.Handover.join, hempty] using phase_openFirst accounted_fresh rfl path
    · simp [Lib.Handover.Counts, Lib.Handover.join, hempty, hbehind, Shared.unlock,
        Shared.openFirst]
  · cases hf

/-- A set call that finds the handle settled begins a hand-over: every drain
by another thread now holds the previous file, and its thread is behind. -/
theorem Tracks.begin {s : Shared} {h : Lib.Handover ι} (ht : Tracks s h) {t : ι}
    (hmem : t ∈ h.users) (hprev : s.handle.prevFptr = none) (path : CStr) :
    Tracks (s.lock.rotate path).closeIfLast.unlock (h.begin t) ∧
      ∀ u ∈ h.users, u ≠ t →
        s.handle.fptr = (s.lock.rotate path).closeIfLast.unlock.handle.prevFptr := by
  obtain ⟨f, cur⟩ : ∃ f, s.handle.fptr = some f := by
    cases ht.phase with
    | settled cur => exact ⟨_, cur⟩
    | rotating cur => exact ⟨_, cur⟩
  have counts : (h.begin t).Counts (s.lock.rotate path).handle.ref
      (s.lock.rotate path).handle.prevRef := ht.counts.begin (ht.settled hprev) hmem
  refine ⟨tracks_closeIfLast (ht.phase.rotate hprev path) counts cur, ?_⟩
  intro u hu hne
  have hpos : (s.lock.rotate path).handle.prevRef ≠ 0 := by
    intro h0
    have := Lib.Handover.Counts.behind_eq_empty (h0 ▸ counts)
    exact Finset.notMem_empty u (this ▸ Finset.mem_erase.mpr ⟨hne, hu⟩)
  simp only [Shared.unlock, Shared.closeIfLast_prevFptr, if_neg hpos]
  rfl

/-- A set call by a thread that is behind leaves the previous file, which
stays as long as another thread is behind. -/
theorem Tracks.leave {s : Shared} {h : Lib.Handover ι} (ht : Tracks s h) {t : ι}
    (hmem : t ∈ h.behind) (hnot : ¬ (s.handle.prevFptr = none ∧ s.handle.prevRef = 0)) :
    Tracks s.lock.acknowledge.closeIfLast.unlock (h.leave t) ∧
      ∀ u ∈ h.behind, u ≠ t →
        s.handle.prevFptr = s.lock.acknowledge.closeIfLast.unlock.handle.prevFptr := by
  obtain ⟨p, prev⟩ : ∃ p, s.handle.prevFptr = some p := by
    cases ht.phase with
    | settled cur prev prevRef => exact absurd ⟨prev, prevRef⟩ hnot
    | rotating cur prev => exact ⟨_, prev⟩
  have counts : (h.leave t).Counts s.lock.acknowledge.handle.ref
      s.lock.acknowledge.handle.prevRef := ht.counts.leave hmem
  refine ⟨tracks_closeIfLast (ht.phase.acknowledge hnot) counts prev, ?_⟩
  intro u hu hne
  have hpos : s.lock.acknowledge.handle.prevRef ≠ 0 := by
    intro h0
    have := Lib.Handover.Counts.behind_eq_empty (h0 ▸ counts)
    exact Finset.notMem_empty u (this ▸ Finset.mem_erase.mpr ⟨hne, hu⟩)
  simp only [Shared.unlock, Shared.closeIfLast_prevFptr, if_neg hpos]
  rfl


/-! ## The invariant along a run -/

omit [DecidableEq ι] in
/-- Nothing has happened before the first create call. -/
theorem drainInvariant_start : DrainInvariant (Writers.start : Writers ι) where
  users t := by simp [Writers.start, Lib.Handover.empty]
  fresh _ := rfl
  tracks h := by simp [Writers.start, Lib.Handover.empty] at h
  drains t f h := by cases h

omit [DecidableEq ι] in
/-- A thread that takes part has joined, so the counters track the hand-over. -/
theorem DrainInvariant.joined {s : Writers ι} (h : DrainInvariant s) {t : ι}
    (ht : s.activity t ≠ .absent) :
    t ∈ s.handover.users ∧ Tracks s.shared s.handover :=
  have hmem := (h.users t).mpr ht
  ⟨hmem, h.tracks ⟨t, hmem⟩⟩

/-- A create call that succeeds keeps the invariant. -/
theorem DrainInvariant.create {s : Writers ι} (h : DrainInvariant s) {folder : Option CStr}
    {c : CallArgs} {shared : Shared} {t : ι} (ht : s.activity t = .absent)
    (hexec : createLogFile folder c s.shared = (.returns SUCCESS, shared)) :
    DrainInvariant ({ s with shared, handover := s.handover.join t }.setActivity t .idle) := by
  have hnew : t ∉ s.handover.users := fun hmem => (h.users t).mp hmem ht
  have users (u : ι) : u ∈ (s.handover.join t).users ↔
      Function.update s.activity t .idle u ≠ .absent := by
    rcases eq_or_ne u t with rfl | hu
    · simp [Lib.Handover.join]
    · simp only [Lib.Handover.join, Finset.mem_insert, hu, false_or,
        Function.update_of_ne hu, h.users u]
  have draining {u : ι} {f : Option Nat} (hu : Function.update s.activity t .idle u = .draining f) :
      s.activity u = .draining f := by
    rcases eq_or_ne u t with rfl | hne
    · simp at hu
    · rwa [Function.update_of_ne hne] at hu
  refine ⟨users, ?_, ?_, ?_⟩
  · intro hempty
    exact absurd hempty (Finset.insert_ne_empty t s.handover.users)
  · intro _
    rcases s.handover.users.eq_empty_or_nonempty with hempty | hne
    · rw [h.fresh hempty] at hexec
      exact tracks_first hempty t hexec
    · exact ((h.tracks hne).create hnew hexec).1
  · intro u f hu
    have hpresent : s.activity u ≠ .absent := by
      rw [draining hu]
      intro habsent
      cases habsent
    obtain ⟨-, tracks⟩ := h.joined hpresent
    obtain ⟨-, hcur, hprev⟩ := tracks.create hnew hexec
    rcases h.drains u f (draining hu) with rfl | ⟨rfl, hb⟩
    · exact .inl hcur.symm
    · exact .inr ⟨hprev.symm, hb⟩

/-- A set call that succeeds keeps the invariant, if it is made once per
rotation. -/
theorem DrainInvariant.set {s : Writers ι} (h : DrainInvariant s) {folder : Option CStr}
    {c : CallArgs} {shared : Shared} {t : ι} (ht : s.activity t = .idle)
    (honce : s.shared.handle.prevFptr = none ∨ t ∈ s.handover.behind)
    (hexec : setFilePtr folder c s.shared = (.returns SUCCESS, shared)) :
    DrainInvariant { s with
      shared
      handover := if s.shared.handle.prevFptr = none then s.handover.begin t
        else s.handover.leave t } := by
  obtain ⟨hmem, tracks⟩ := h.joined (t := t) (by rw [ht]; exact nofun)
  -- a drain is by another thread, since the caller is idle
  have other {u : ι} {f : Option Nat} (hu : s.activity u = .draining f) :
      u ≠ t ∧ u ∈ s.handover.users := by
    refine ⟨?_, (h.users u).mpr (by rw [hu]; exact nofun)⟩
    rintro rfl
    rw [ht] at hu
    cases hu
  rcases setFilePtr_success hexec with ⟨⟨hprev, -⟩, path, -, rfl⟩ | ⟨hnot, rfl⟩
  · obtain ⟨htracks, hmoved⟩ := tracks.begin hmem hprev path
    simp only [if_pos hprev]
    refine ⟨h.users, ?_, fun _ => htracks, ?_⟩
    · intro hempty
      exact absurd (hempty ▸ hmem) (Finset.notMem_empty t)
    · intro u f hu
      obtain ⟨hne, huser⟩ := other hu
      have hbehind : s.handover.behind = ∅ := tracks.settled hprev
      rcases h.drains u f hu with rfl | ⟨-, hb⟩
      · exact .inr ⟨hmoved u huser hne, Finset.mem_erase.mpr ⟨hne, huser⟩⟩
      · exact absurd (hbehind ▸ hb) (Finset.notMem_empty u)
  · have hprev : s.shared.handle.prevFptr ≠ none := fun hnone =>
      hnot ⟨hnone, tracks.phase.prevRef_of_settled hnone⟩
    have hbehind : t ∈ s.handover.behind := honce.resolve_left hprev
    obtain ⟨htracks, hmoved⟩ := tracks.leave hbehind hnot
    simp only [if_neg hprev]
    refine ⟨h.users, ?_, fun _ => htracks, ?_⟩
    · intro hempty
      exact absurd (hempty ▸ hmem) (Finset.notMem_empty t)
    · intro u f hu
      obtain ⟨hne, -⟩ := other hu
      rcases h.drains u f hu with rfl | ⟨rfl, hb⟩
      · left
        simp only [Shared.unlock, Shared.closeIfLast_fptr]
        rfl
      · exact .inr ⟨hmoved u hb hne, Finset.mem_erase.mpr ⟨hne, hb⟩⟩

omit [DecidableEq ι] in
/-- A call that fails takes the lock and changes nothing else. -/
theorem DrainInvariant.lock {s : Writers ι} (h : DrainInvariant s)
    (hne : s.handover.users.Nonempty) : DrainInvariant { s with shared := s.shared.lock } where
  users := h.users
  fresh hempty := absurd hempty hne.ne_empty
  tracks _ := ⟨(h.tracks hne).phase.lock, (h.tracks hne).counts, (h.tracks hne).settled⟩
  drains := h.drains

/-- A thread that starts or ends a drain keeps the invariant. -/
theorem DrainInvariant.setActivity {s : Writers ι} (h : DrainInvariant s) {t : ι} {a : Activity}
    (ht : s.activity t ≠ .absent) (ha : a = .idle ∨ a = .draining s.shared.handle.fptr) :
    DrainInvariant (s.setActivity t a) where
  users u := by
    rcases eq_or_ne u t with rfl | hu
    · simp only [Writers.setActivity, Function.update_self]
      apply iff_of_true ((h.users u).mpr ht)
      rcases ha with rfl | rfl <;> exact nofun
    · simp only [Writers.setActivity, Function.update_of_ne hu, h.users u]
  fresh := h.fresh
  tracks := h.tracks
  drains u f hu := by
    rcases eq_or_ne u t with rfl | hne
    · simp only [Writers.setActivity, Function.update_self] at hu
      rcases ha with rfl | rfl
      · cases hu
      · exact .inl (Activity.draining.inj hu).symm
    · simp only [Writers.setActivity, Function.update_of_ne hne] at hu
      exact h.drains u f hu

/-- What holds along a run: the invariant, until the process exits. -/
def DrainSafe (s : Writers ι) : Prop := s.exited = true ∨ DrainInvariant s

/-- Every step made once per rotation keeps the invariant. -/
theorem DrainSafe.step {config : Configuration} {kind : FileType} {s s' : Writers ι}
    {a : DrainAction ι} (h : DrainSafe s) (honce : OncePerRotation s a)
    (hstep : drainStep config kind s a = some s') : DrainSafe s' := by
  have alive : s.exited = false := by
    cases hex : s.exited with
    | false => rfl
    | true => cases a <;> simp [drainStep, hex] at hstep
  replace h : DrainInvariant s := h.resolve_left (by simp [alive])
  cases a with
  | create t c =>
    simp only [drainStep, Call.exec_create] at hstep
    split at hstep
    · cases hstep
    next hguard =>
    simp only [not_or, ne_eq, not_not] at hguard
    split at hstep
    · next code shared hexec =>
      split at hstep
      · next hcode =>
        cases hstep
        exact .inr (h.create hguard.2.2 (hcode ▸ hexec))
      · cases hstep
        exact .inl rfl
    · cases hstep
      exact .inl rfl
  | set t c =>
    simp only [drainStep, Call.exec_set] at hstep
    split at hstep
    · cases hstep
    next hguard =>
    simp only [not_or, ne_eq, not_not] at hguard
    split at hstep
    · next code shared hexec =>
      split at hstep
      · next hcode =>
        cases hstep
        exact .inr (h.set hguard.2.2 honce (hcode ▸ hexec))
      · next hcode =>
        cases hstep
        obtain ⟨-, rfl, -⟩ := (setFilePtr_returns hexec).resolve_left hcode
        obtain ⟨hmem, -⟩ := h.joined (t := t) (by rw [hguard.2.2]; exact nofun)
        exact .inr (h.lock ⟨t, hmem⟩)
    · cases hstep
      exact .inl rfl
  | readFptr t =>
    simp only [drainStep] at hstep
    split at hstep
    · cases hstep
    next hguard =>
    simp only [not_or, ne_eq, not_not] at hguard
    cases hstep
    exact .inr (h.setActivity (by rw [hguard.2]; exact nofun) (.inr rfl))
  | write t =>
    simp only [drainStep, alive, Bool.false_eq_true, if_false] at hstep
    split at hstep
    · next hdrain =>
      cases hstep
      exact .inr (h.setActivity (by rw [hdrain]; exact nofun) (.inl rfl))
    · cases hstep

omit [DecidableEq ι] in
/-- Under the invariant no drain meets a closed file. -/
theorem DrainSafe.not_writesClosed {s : Writers ι} {a : DrainAction ι} (h : DrainSafe s) :
    ¬ WritesClosed s a := by
  intro hclosed
  unfold WritesClosed at hclosed
  split at hclosed
  · next t =>
    split at hclosed
    · next f hdrain =>
      have hinv := h.resolve_left (by simp [hclosed.1])
      obtain ⟨-, tracks⟩ := hinv.joined (t := t) (by rw [hdrain]; exact nofun)
      refine tracks.phase.not_closed ?_ hclosed.2
      rcases hinv.drains t f hdrain with rfl | ⟨rfl, -⟩
      · exact .inl rfl
      · exact .inr rfl
    · exact hclosed
  · exact hclosed

/-- NO WRITE TO A CLOSED FILE, WHEN EVERY ROTATION IS CALLED ONCE BY EACH
THREAD: in every run in which a set call made during a rotation is made by a
thread that is still behind, no drain writes to a file passed to `fclose`. -/
theorem drain_open_of_oncePerRotation (config : Configuration) (kind : FileType)
    (acts : List (DrainAction ι))
    (honce : (drainStep config kind).Along OncePerRotation Writers.start acts) :
    (drainStep config kind).Along (fun s a => ¬ WritesClosed s a) Writers.start acts :=
  have start : DrainSafe (Writers.start : Writers ι) := .inr drainInvariant_start
  Lib.Step.Along.imp (fun _ _ _ h hg hs => h.step hg hs) (fun _ _ h _ => h.not_writesClosed)
    start honce

/-- Two threads that drain once each and rotate once each. -/
theorem drain_open_of_oncePerRotation_two :
    (drainStep sampleConfiguration .json).Along (fun s a => ¬ WritesClosed s a)
      (Writers.start : Writers (Fin 2))
      [.create 0 sampleCall, .create 1 sampleCall, .readFptr 0, .set 1 sampleCall, .write 0,
        .set 0 sampleCall] :=
  drain_open_of_oncePerRotation sampleConfiguration .json _ (by decide)

/-- Thread 1 rotates twice, for the size limit and for the full hour, while
thread 0 sits between the two steps of a drain: the second call uses up the
count of thread 0 and closes the file it is about to write to. -/
theorem drain_into_closed_file :
    ¬ (drainStep sampleConfiguration .json).Along (fun s a => ¬ WritesClosed s a)
      (Writers.start : Writers (Fin 2))
      [.create 0 sampleCall, .create 1 sampleCall, .readFptr 0, .set 1 sampleCall,
        .set 1 sampleCall, .write 0] := by
  decide

end LogCollector
