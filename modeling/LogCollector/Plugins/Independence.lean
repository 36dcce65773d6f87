import LogCollector.Lib.Overwrite
import LogCollector.Plugins.Slots

/-!
# Plugin files and what they leave behind

The table after a list of plugin files is the concatenation of the tables of the
files, if every file finds the slot as if it were zero. The slot is never zeroed
between two files: what a file stores behind its last `end`, or without any, is there
when the next file begins, and gets into the first entry that is finished then, unless
it is overwritten before (`parsed_apart_iff`).

Core ids and finished regexes are only added to. The other members are assigned, so
they do not matter where the file assigns them before its first `end`, and those of
the unfinished regex where it does so before the first `fields` of this entry.
-/

namespace LogCollector

/-! ## Members -/

/-- The value of a member. -/
inductive MemberValue
  | text (value : Option CStr)
  | number (value : Int32)
  | flag (value : Bool)
  | address (value : UInt32)
deriving DecidableEq

/-- The members of `struct plugin_t` that are assigned. -/
inductive PluginMember
  | filename
  | plugin_id
  | all_nondedicated_cores
  | optimized
  | ip
  | ip_dec

/-- The members of `struct regex_t` that are assigned. -/
inductive RegexMember
  | id
  | description
  | precheck
  | regexp

def PluginData.member (slot : PluginData) : PluginMember → MemberValue
  | .filename => .text slot.filename
  | .plugin_id => .number slot.plugin_id
  | .all_nondedicated_cores => .flag slot.all_nondedicated_cores
  | .optimized => .flag slot.optimized
  | .ip => .text slot.ip
  | .ip_dec => .address slot.ip_dec

def RegexHead.member (next : RegexHead) : RegexMember → MemberValue
  | .id => .number next.id
  | .description => .text next.description
  | .precheck => .text next.precheck
  | .regexp => .text next.regexp

namespace Directive

/-- What a directive assigns to a member of the slot. -/
def assigns : Directive → PluginMember → Option MemberValue
  | .filename value, .filename => some (.text (some value))
  | .pluginId value, .plugin_id => some (.number value)
  | .allNondedicatedCores flag, .all_nondedicated_cores => some (.flag flag)
  | .optimized flag, .optimized => some (.flag flag)
  | .listenIp value _, .ip => some (.text (some value))
  | .listenIp _ addr, .ip_dec => addr.map .address
  | _, _ => none

/-- What it assigns to a member of the unfinished regex. -/
def assignsRegex : Directive → RegexMember → Option MemberValue
  | .regexId value, .id => some (.number value)
  | .description value, .description => some (.text (some value))
  | .precheck value, .precheck => some (.text (some value))
  | .regexp value, .regexp => some (.text (some value))
  | _, _ => none

/-- The core ids it adds. -/
def addedCores : Directive → List Int32
  | .coreId core_ids => core_ids
  | _ => []

/-- Does it finish a regex? -/
def isFields : Directive → Bool
  | .fields _ => true
  | _ => false

end Directive

/-- The directives before the first `end`. -/
def firstEntry (ds : List Directive) : List Directive := ds.takeWhile (· ≠ .endPlugin)

/-- The directives before the first `end` and before the first `fields`. -/
def firstRegex (ds : List Directive) : List Directive :=
  (firstEntry ds).takeWhile fun d => !d.isFields

/-- What is in the slot does not get into the first entry of the directives. -/
structure StartsClean (slot : PluginData) (ds : List Directive) : Prop where
  core_ids : slot.core_ids = []
  regex : slot.regex = []
  members : ∀ m, slot.member m = PluginData.zero.member m ∨
    ∃ d ∈ firstEntry ds, (d.assigns m).isSome
  next : ∀ m, slot.next.member m = RegexHead.zero.member m ∨
    ∃ d ∈ firstRegex ds, (d.assignsRegex m).isSome

/-- What is in the slot leaves room for the directives and, where they finish an
entry, does not get into it. -/
structure Unaffected (slot : PluginData) (ds : List Directive) : Prop where
  room : RoomFor slot ds
  clean : .endPlugin ∈ ds → StartsClean slot ds

/-! ## What one directive assigns -/

section

variable {slot slot' : PluginData} {d : Directive}

theorem member_after (hd : d ≠ .endPlugin) (m : PluginMember) :
    (slot.after d).member m = (d.assigns m).getD (slot.member m) := by
  cases d with
  | endPlugin => exact absurd rfl hd
  | listenIp value addr => cases m <;> cases addr <;> rfl
  | _ => cases m <;> rfl

theorem next_member_after (hd : d ≠ .endPlugin) (hfields : d.isFields = false) (m : RegexMember) :
    (slot.after d).next.member m = (d.assignsRegex m).getD (slot.next.member m) := by
  cases d with
  | endPlugin => exact absurd rfl hd
  | fields fs => cases hfields
  | _ => cases m <;> rfl

theorem core_ids_after (hd : d ≠ .endPlugin) :
    (slot.after d).core_ids = slot.core_ids ++ d.addedCores := by
  cases d with
  | endPlugin => exact absurd rfl hd
  | coreId core_ids => rfl
  | _ => exact (List.append_nil _).symm

theorem regex_after (hd : d ≠ .endPlugin) (hfields : d.isFields = false) :
    (slot.after d).regex = slot.regex := by
  cases d with
  | endPlugin => exact absurd rfl hd
  | fields fs => cases hfields
  | _ => rfl

/-- The unfinished regex depends on the unfinished regex only. -/
theorem next_after_congr (h : slot.next = slot'.next) :
    (slot.after d).next = (slot'.after d).next := by
  cases d <;> simp [PluginData.after, h]

theorem RegexHead.eq_iff {next next' : RegexHead} :
    next = next' ↔ ∀ m, next.member m = next'.member m := by
  constructor
  · rintro rfl _
    rfl
  · intro h
    have hid := h .id
    have hdescription := h .description
    have hprecheck := h .precheck
    have hregexp := h .regexp
    obtain ⟨id, description, precheck, regexp⟩ := next
    simp_all [RegexHead.member]

theorem PluginData.eq_iff : slot = slot' ↔ (∀ m, slot.member m = slot'.member m) ∧
    slot.core_ids = slot'.core_ids ∧ slot.regex = slot'.regex ∧ slot.next = slot'.next := by
  constructor
  · rintro rfl
    exact ⟨fun _ => rfl, rfl, rfl, rfl⟩
  · rintro ⟨hmember, hcores, hregex, hnext⟩
    have hfilename := hmember .filename
    have hid := hmember .plugin_id
    have hall := hmember .all_nondedicated_cores
    have hoptimized := hmember .optimized
    have hip := hmember .ip
    have hdec := hmember .ip_dec
    obtain ⟨filename, plugin_id, core_ids, all, optimized, ip, ip_dec, regex, next⟩ := slot
    simp_all [PluginData.member]

end

/-! ## What the directives before an `end` assign -/

section

variable {ds : List Directive}

theorem next_slotAfter_congr {slot slot' : PluginData} (h : slot.next = slot'.next) :
    (slotAfter slot ds).next = (slotAfter slot' ds).next := by
  induction ds generalizing slot slot' with
  | nil => exact h
  | cons d ds ih => exact ih (next_after_congr h)

/-- The regexes of two slots stay apart if their finished ones are, or if the members
of the unfinished ones are that are not assigned before `fields`. -/
theorem regex_slotAfter_eq_iff (hend : .endPlugin ∉ ds) (slot slot' : PluginData) :
    ((slotAfter slot ds).regex = (slotAfter slot' ds).regex ∧
        (slotAfter slot ds).next = (slotAfter slot' ds).next) ↔
      slot.regex = slot'.regex ∧
        (slotAfter slot (ds.takeWhile fun d => !d.isFields)).next =
          (slotAfter slot' (ds.takeWhile fun d => !d.isFields)).next := by
  induction ds generalizing slot slot' with
  | nil => exact Iff.rfl
  | cons d ds ih =>
    obtain ⟨hd, hds⟩ := List.ne_and_not_mem_of_not_mem_cons hend
    have hrest := ih hds (slot.after d) (slot'.after d)
    apply Iff.trans hrest
    cases hfields : d.isFields with
    | false =>
      rw [regex_after (Ne.symm hd) hfields, regex_after (Ne.symm hd) hfields,
        List.takeWhile_cons_of_pos (by rw [hfields]; rfl)]
      rfl
    | true =>
      obtain ⟨fs, rfl⟩ : ∃ fs, d = .fields fs := by
        cases d with
        | fields fs => exact ⟨fs, rfl⟩
        | _ => cases hfields
      have hnext : (slot.after (.fields fs)).next = (slot'.after (.fields fs)).next := rfl
      rw [List.takeWhile_cons_of_neg (by rw [hfields]; decide),
        and_iff_left (next_slotAfter_congr hnext)]
      show slot.regex ++ [⟨slot.next, fs⟩] = slot'.regex ++ [⟨slot'.next, fs⟩] ↔
        slot.regex = slot'.regex ∧ slot.next = slot'.next
      constructor
      · intro h
        obtain ⟨hregex, hlast⟩ := List.append_inj' h rfl
        exact ⟨hregex, congrArg RegexData.toRegexHead (List.singleton_inj.mp hlast)⟩
      · rintro ⟨hregex, hnext⟩
        rw [hregex, hnext]

/-- No `end` stands before the first one. -/
theorem endPlugin_notMem_firstEntry : .endPlugin ∉ firstEntry ds := by
  intro h
  simpa using List.mem_takeWhile_imp h

/-- What is left of two slots at the first `end` is the same if and only if no core id
and no regex tells them apart, and no member that was not assigned. -/
theorem slotAfter_firstEntry_eq_iff (slot slot' : PluginData) :
    slotAfter slot (firstEntry ds) = slotAfter slot' (firstEntry ds) ↔
      (∀ m, slot.member m = slot'.member m ∨ ∃ d ∈ firstEntry ds, (d.assigns m).isSome) ∧
        slot.core_ids = slot'.core_ids ∧ slot.regex = slot'.regex ∧
        ∀ m, slot.next.member m = slot'.next.member m ∨
          ∃ d ∈ firstRegex ds, (d.assignsRegex m).isSome := by
  have hend : .endPlugin ∉ firstEntry ds := endPlugin_notMem_firstEntry
  have hne : ∀ d ∈ firstEntry ds, d ≠ .endPlugin := fun d hd h => hend (h ▸ hd)
  have hregex : ∀ d ∈ firstRegex ds, d ≠ .endPlugin ∧ d.isFields = false := fun d hd =>
    ⟨hne d (List.takeWhile_subset _ hd), by simpa using List.mem_takeWhile_imp hd⟩
  have hcores : ∀ slot : PluginData, ∀ d ∈ firstEntry ds,
      (slot.after d).core_ids = slot.core_ids ++ d.addedCores :=
    fun _ d hd => core_ids_after (hne d hd)
  rw [PluginData.eq_iff, regex_slotAfter_eq_iff hend, RegexHead.eq_iff]
  refine and_congr (forall_congr' ?_) (and_congr ?_ (and_congr Iff.rfl
    (forall_congr' ?_)))
  · intro m
    exact Lib.Overwrite.foldl_eq_iff (fun slot : PluginData => slot.member m)
      (fun _ d hd => member_after (hne d hd) m) slot slot'
  · exact Lib.Overwrite.foldl_append_eq_iff PluginData.core_ids hcores slot slot'
  · intro m
    exact Lib.Overwrite.foldl_eq_iff (fun slot : PluginData => slot.next.member m)
      (fun _ d hd => next_member_after (hregex d hd).1 (hregex d hd).2 m) slot slot'

/-- The directives up to and behind the first `end`. -/
theorem exists_of_mem_endPlugin (h : .endPlugin ∈ ds) :
    ∃ rest, ds = firstEntry ds ++ .endPlugin :: rest := by
  induction ds with
  | nil => exact absurd h List.not_mem_nil
  | cons d ds ih =>
    by_cases hd : d = .endPlugin
    · subst hd
      exact ⟨ds, rfl⟩
    · obtain ⟨rest, hrest⟩ := ih ((List.mem_cons.mp h).resolve_left (Ne.symm hd))
      refine ⟨rest, ?_⟩
      rw [firstEntry, List.takeWhile_cons_of_pos (by simpa using hd), List.cons_append]
      exact congrArg (d :: ·) hrest

theorem finishedEntries_append (before after : List Directive) (slot : PluginData) :
    finishedEntries slot (before ++ after) =
      finishedEntries slot before ++ finishedEntries (slotAfter slot before) after := by
  induction before generalizing slot with
  | nil => rfl
  | cons d before ih =>
    rw [List.cons_append, finishedEntries_cons, finishedEntries_cons, ih, List.append_assoc]
    rfl

/-- Without an `end` no entry is finished. -/
theorem finishedEntries_eq_nil (h : .endPlugin ∉ ds) (slot : PluginData) :
    finishedEntries slot ds = [] := by
  induction ds generalizing slot with
  | nil => rfl
  | cons d ds ih =>
    obtain ⟨hd, hds⟩ := List.ne_and_not_mem_of_not_mem_cons h
    rw [finishedEntries_cons, if_neg (Ne.symm hd), ih hds]
    rfl

/-- As many entries are finished as there are `end`s. -/
theorem length_finishedEntries (slot : PluginData) :
    (finishedEntries slot ds).length = ds.countP (· = .endPlugin) := by
  induction ds generalizing slot with
  | nil => rfl
  | cons d ds ih =>
    rw [finishedEntries_cons, List.length_append, ih, List.countP_cons]
    by_cases hd : d = .endPlugin <;> simp [hd, Nat.add_comm]

/-- THE ENTRIES OF TWO SLOTS: those of a slot are those of the zeroed slot if and only
if what is in it does not get into the first of them. -/
theorem finishedEntries_eq_iff (slot : PluginData) (ds : List Directive) :
    finishedEntries slot ds = finishedEntries .zero ds ↔
      (.endPlugin ∈ ds → StartsClean slot ds) := by
  by_cases h : .endPlugin ∈ ds
  · obtain ⟨rest, hsplit⟩ := exists_of_mem_endPlugin h
    have hentries : ∀ slot : PluginData,
        finishedEntries slot ds = slotAfter slot (firstEntry ds) :: finishedEntries .zero rest := by
      intro slot
      conv_lhs => rw [hsplit]
      rw [finishedEntries_append, finishedEntries_eq_nil endPlugin_notMem_firstEntry]
      rfl
    rw [hentries, hentries, List.cons.injEq, and_iff_left rfl, slotAfter_firstEntry_eq_iff]
    constructor
    · rintro ⟨hmembers, hcores, hregex, hnext⟩ _
      exact ⟨hcores, hregex, hmembers, hnext⟩
    · intro hclean
      obtain ⟨hcores, hregex, hmembers, hnext⟩ := hclean h
      exact ⟨hmembers, hcores, hregex, hnext⟩
  · rw [finishedEntries_eq_nil h, finishedEntries_eq_nil h]
    exact iff_of_true rfl fun hmem => absurd hmem h

end

/-! ## Files -/

section

variable (inet_aton : CStr → Option UInt32)

/-- The slot that files leave. -/
def slotLeft (slot : PluginData) (files : List (Option (List UInt8))) : PluginData :=
  slotAfter slot (files.flatMap (directivesOf inet_aton))

/-- Every file finds a slot that does not affect it, where the first finds `slot`. -/
def FilesUnaffected (slot : PluginData) (files : List (Option (List UInt8))) : Prop :=
  ∀ before file after, files = before ++ file :: after →
    Unaffected (slotLeft inet_aton slot before) (directivesOf inet_aton file)

/-- Parsed one after the other, files make up the table of their tables, and none
changes what was finished before. -/
structure ParsedApart (files : List (Option (List UInt8))) (tables : List (List PluginData)) :
    Prop where
  table : (parsePluginFiles inet_aton .start files).map PluginState.entries = .ok tables.flatten
  finished_kept : ∀ before after s s', files = before ++ after →
    parsePluginFiles inet_aton .start before = .ok s →
    parsePluginFiles inet_aton s after = .ok s' → s.entries <+: s'.entries

/-- The file is parsed with success from the zeroed table, which gives the table. -/
def ParsedAlone (file : Option (List UInt8)) (table : List PluginData) : Prop :=
  ∃ slot, parsePluginFile inet_aton .start file = .ok (SUCCESS, ⟨table, slot⟩)

variable {inet_aton} {file : Option (List UInt8)} {table : List PluginData}

/-- A file parsed alone finishes what its directives finish from the zeroed slot. -/
theorem ParsedAlone.run (h : ParsedAlone inet_aton file table) :
    RoomFor .zero (directivesOf inet_aton file) ∧
      table = finishedEntries .zero (directivesOf inet_aton file) ∧
      ∀ s, parseNext inet_aton s file =
        (directivesOf inet_aton file).foldlM Directive.apply s := by
  obtain ⟨slot, h⟩ := h
  have hnext := parseNext_of_success h
  have hrun := parseNext_eq hnext
  rw [hrun] at hnext
  obtain ⟨hroom, hs⟩ := run_ok hnext
  refine ⟨hroom, ?_, hrun⟩
  have := congrArg PluginState.entries hs
  simpa [PluginState.start] using this

/-- ONE FILE: from a state, it gives its own table and leaves the slot its directives
leave, if and only if it is not affected. -/
theorem parseNext_entries_iff (h : ParsedAlone inet_aton file table) (s : PluginState)
    (hfits : parseNext inet_aton s file ≠ .error .tableFull) :
    parseNext inet_aton s file =
        .ok ⟨s.entries ++ table, slotAfter s.slot (directivesOf inet_aton file)⟩ ↔
      Unaffected s.slot (directivesOf inet_aton file) := by
  obtain ⟨hzero, rfl, hrun⟩ := h.run
  rw [hrun] at hfits ⊢
  constructor
  · intro hok
    obtain ⟨hroom, hs⟩ := run_ok hok
    have hentries := List.append_cancel_left (congrArg PluginState.entries hs)
    exact ⟨hroom, (finishedEntries_eq_iff _ _).mp hentries.symm⟩
  · intro hun
    obtain ⟨s', hok⟩ := (run_of_room hun.room).resolve_right hfits
    obtain ⟨-, rfl⟩ := run_ok hok
    rw [hok, (finishedEntries_eq_iff _ _).mpr hun.clean]

/-- NO FILE CHANGES A FINISHED ENTRY. -/
theorem parseNext_entries_grow {s s' : PluginState} (h : parseNext inet_aton s file = .ok s') :
    s.entries <+: s'.entries := by
  rw [parseNext_eq h] at h
  obtain ⟨-, rfl⟩ := run_ok h
  exact List.prefix_append _ _

theorem parsePluginFiles_cons (s : PluginState) (file : Option (List UInt8))
    (files : List (Option (List UInt8))) : parsePluginFiles inet_aton s (file :: files) =
      (parseNext inet_aton s file).bind fun s => parsePluginFiles inet_aton s files :=
  List.foldlM_cons ..

theorem parsePluginFiles_entries_grow {files : List (Option (List UInt8))} {s s' : PluginState}
    (h : parsePluginFiles inet_aton s files = .ok s') : s.entries <+: s'.entries := by
  induction files generalizing s with
  | nil =>
    cases h
    exact List.prefix_rfl
  | cons file files ih =>
    rw [parsePluginFiles_cons] at h
    cases hfile : parseNext inet_aton s file with
    | error fault =>
      rw [hfile] at h
      cases h
    | ok s₁ =>
      rw [hfile] at h
      exact (parseNext_entries_grow hfile).trans (ih h)

/-- Of a list with a head, the first file finds the slot, and the others what the first
leaves. -/
theorem filesUnaffected_cons (slot : PluginData) (file : Option (List UInt8))
    (files : List (Option (List UInt8))) : FilesUnaffected inet_aton slot (file :: files) ↔
      Unaffected slot (directivesOf inet_aton file) ∧
        FilesUnaffected inet_aton (slotAfter slot (directivesOf inet_aton file)) files := by
  have hleft : ∀ before, slotLeft inet_aton slot (file :: before) =
      slotLeft inet_aton (slotAfter slot (directivesOf inet_aton file)) before := by
    intro before
    unfold slotLeft slotAfter
    rw [List.flatMap_cons, List.foldl_append]
  constructor
  · intro h
    refine ⟨h [] file files rfl, ?_⟩
    intro before next after hsplit
    rw [← hleft]
    exact h (file :: before) next after (by rw [hsplit]; rfl)
  · rintro ⟨hhead, htail⟩ before next after hsplit
    cases before with
    | nil =>
      obtain ⟨rfl, -⟩ := List.cons.inj hsplit
      exact hhead
    | cons first before =>
      obtain ⟨rfl, hrest⟩ := List.cons.inj (hsplit.trans (List.cons_append ..))
      rw [hleft]
      exact htail before next after hrest

/-- The entries of a first file can be read off the table: they are as many as those it
finishes alone, so they stand apart from the ones that follow. -/
theorem entries_eq_of_table {files : List (Option (List UInt8))} {s s₁ : PluginState}
    {more : List PluginData} (halone : ParsedAlone inet_aton file table)
    (hs : parseNext inet_aton s file = .ok s₁)
    (htable : (parsePluginFiles inet_aton s₁ files).map PluginState.entries =
      .ok (s.entries ++ table ++ more)) :
    s₁.entries = s.entries ++ table := by
  obtain ⟨-, rfl, hrun⟩ := halone.run
  rw [hrun] at hs
  obtain ⟨-, rfl⟩ := run_ok hs
  cases hall : parsePluginFiles inet_aton _ files with
  | error fault =>
    rw [hall] at htable
    cases htable
  | ok s₂ =>
    obtain ⟨rest, hrest⟩ := parsePluginFiles_entries_grow hall
    rw [hall] at htable
    refine (List.append_inj (hrest.trans (Except.ok.inj htable)) ?_).1
    rw [List.length_append, List.length_append, length_finishedEntries, length_finishedEntries]

/-- THE FILES, from any state. The induction is on the files: what the first leaves is
the slot the next ones start in. -/
theorem parsePluginFiles_entries_iff {files : List (Option (List UInt8))}
    {tables : List (List PluginData)} (halone : List.Forall₂ (ParsedAlone inet_aton) files tables)
    (s : PluginState) (hfits : parsePluginFiles inet_aton s files ≠ .error .tableFull) :
    (parsePluginFiles inet_aton s files).map PluginState.entries =
        .ok (s.entries ++ tables.flatten) ↔
      FilesUnaffected inet_aton s.slot files := by
  induction halone generalizing s with
  | nil =>
    refine iff_of_true ?_ ?_
    · rw [List.flatten_nil, List.append_nil]
      rfl
    · intro before file after h
      simp at h
  | @cons file table files tables hfile _ ih =>
    rw [filesUnaffected_cons]
    rw [parsePluginFiles_cons] at hfits ⊢
    have hnext : parseNext inet_aton s file ≠ .error .tableFull := by
      intro h
      rw [h] at hfits
      exact hfits rfl
    rw [← parseNext_entries_iff hfile s hnext]
    obtain ⟨-, -, hrun⟩ := hfile.run
    cases hs : parseNext inet_aton s file with
    | error fault => exact iff_of_false nofun nofun
    | ok s₁ =>
      have hbind : (Except.ok s₁).bind (fun s => parsePluginFiles inet_aton s files) =
          parsePluginFiles inet_aton s₁ files := rfl
      rw [hs, hbind] at hfits
      have hslot : s₁.slot = slotAfter s.slot (directivesOf inet_aton file) :=
        congrArg PluginState.slot (run_ok (hrun s ▸ hs)).2
      rw [hbind, ← hslot, ← ih s₁ hfits, List.flatten_cons, ← List.append_assoc]
      constructor
      · intro h
        have hentries := entries_eq_of_table hfile hs h
        rw [← hentries] at h ⊢
        exact ⟨rfl, h⟩
      · rintro ⟨hok, h⟩
        have hentries := congrArg PluginState.entries (Except.ok.inj hok)
        rw [show s.entries ++ table = _ from hentries.symm]
        exact h

/-! ## Files that end with `end` -/

/-- Nothing is stored behind the last `end`. -/
def Ended (ds : List Directive) : Prop :=
  ∀ d ∈ (ds.filter (· ≠ .ignored)).getLast?, d = .endPlugin

theorem slotAfter_filter (ds : List Directive) (slot : PluginData) :
    slotAfter slot (ds.filter (· ≠ .ignored)) = slotAfter slot ds := by
  induction ds generalizing slot with
  | nil => rfl
  | cons d ds ih =>
    by_cases hd : d = .ignored
    · subst hd
      rw [List.filter_cons_of_neg (by decide)]
      exact ih slot
    · rw [List.filter_cons_of_pos (by simpa using hd)]
      exact ih (slot.after d)

/-- Such directives leave the zeroed slot zero. -/
theorem slotAfter_of_ended {ds : List Directive} (h : Ended ds) : slotAfter .zero ds = .zero := by
  rw [← slotAfter_filter]
  unfold Ended at h
  generalize ds.filter (· ≠ .ignored) = stored at h
  rcases List.eq_nil_or_concat stored with rfl | ⟨before, d, rfl⟩
  · rfl
  · obtain rfl := h d (by simp)
    unfold slotAfter
    rw [List.concat_eq_append, List.foldl_append]
    rfl

/-- The zeroed slot affects nothing. -/
theorem unaffected_zero {ds : List Directive} (hroom : RoomFor .zero ds) :
    Unaffected .zero ds where
  room := hroom
  clean _ := ⟨rfl, rfl, fun _ => .inl rfl, fun _ => .inl rfl⟩

/-- Files that end with `end` do not affect each other. -/
theorem filesUnaffected_of_ended {files : List (Option (List UInt8))}
    {tables : List (List PluginData)} (halone : List.Forall₂ (ParsedAlone inet_aton) files tables)
    (hended : ∀ file ∈ files, Ended (directivesOf inet_aton file)) :
    FilesUnaffected inet_aton .zero files := by
  induction halone with
  | nil => exact fun before file after h => by simp at h
  | cons hfile _ ih =>
    obtain ⟨hfirst, hrest⟩ := List.forall_mem_cons.mp hended
    rw [filesUnaffected_cons, slotAfter_of_ended hfirst]
    exact ⟨unaffected_zero hfile.run.1, ih hrest⟩

/-! ## The files of a run -/

/-- PLUGIN FILES ARE INDEPENDENT if and only if each of them finds a slot that does not
affect it. The table is not to be too small for them. -/
theorem parsed_apart_iff (inet_aton : CStr → Option UInt32) (files : List (Option (List UInt8)))
    (tables : List (List PluginData))
    (halone : List.Forall₂ (ParsedAlone inet_aton) files tables)
    (hfits : parsePluginFiles inet_aton .start files ≠ .error .tableFull) :
    ParsedApart inet_aton files tables ↔ FilesUnaffected inet_aton .zero files := by
  have htable := parsePluginFiles_entries_iff halone .start hfits
  constructor
  · intro h
    exact htable.mp h.table
  · intro h
    exact ⟨htable.mpr h, fun _ _ _ _ _ _ hafter => parsePluginFiles_entries_grow hafter⟩

/-- `listen_ip` of the examples. -/
def exampleAton (s : CStr) : Option UInt32 :=
  if s = .lit "10.0.0.1" then some 0x0100000a else none

/-- A file that can be opened. -/
def fileOf (text : String) : Option (List UInt8) := some (CStr.lit text).bytes

/-- A plugin with an address and a core. -/
def endedFile : Option (List UInt8) :=
  fileOf "plugin_id: 1\nlisten_ip: 10.0.0.1\ncore_id: [4]\nend: end\n"

/-- The same plugin, where `end` has no value. -/
def unendedFile : Option (List UInt8) :=
  fileOf "plugin_id: 1\nlisten_ip: 10.0.0.1\ncore_id: [4]\nend:\n"

/-- A plugin without either. -/
def bareFile : Option (List UInt8) := fileOf "plugin_id: 2\nend: end\n"

def bareEntry : PluginData := { PluginData.zero with plugin_id := 2 }

def endedEntry : PluginData :=
  { PluginData.zero with
    plugin_id := 1, ip := some (.lit "10.0.0.1"), ip_dec := 0x0100000a, core_ids := [4] }

theorem parsed_apart_ended :
    List.Forall₂ (ParsedAlone exampleAton) [endedFile, bareFile] [[endedEntry], [bareEntry]] ∧
      (ParsedApart exampleAton [endedFile, bareFile] [[endedEntry], [bareEntry]] ↔
        FilesUnaffected exampleAton .zero [endedFile, bareFile]) ∧
      ParsedApart exampleAton [endedFile, bareFile] [[endedEntry], [bareEntry]] := by
  have halone : List.Forall₂ (ParsedAlone exampleAton) [endedFile, bareFile]
      [[endedEntry], [bareEntry]] :=
    .cons ⟨.zero, by decide +kernel⟩ (.cons ⟨.zero, by decide +kernel⟩ .nil)
  have hfits : parsePluginFiles exampleAton .start [endedFile, bareFile] ≠ .error .tableFull := by
    decide +kernel
  refine ⟨halone, parsed_apart_iff _ _ _ halone hfits, ?_, ?_⟩
  · decide +kernel
  · exact fun _ _ _ _ _ _ hafter => parsePluginFiles_entries_grow hafter

/-- Where `end` has no value, the plugin of the first file is not in the table, and its
core and its address are in the entry of the second. -/
theorem unended_file_leaks :
    List.Forall₂ (ParsedAlone exampleAton) [unendedFile, bareFile] [[], [bareEntry]] ∧
      parsePluginFiles exampleAton .start [unendedFile, bareFile] =
        .ok ⟨[{ endedEntry with plugin_id := 2 }], .zero⟩ ∧
      ¬ ParsedApart exampleAton [unendedFile, bareFile] [[], [bareEntry]] := by
  refine ⟨.cons ⟨endedEntry, by decide +kernel⟩ (.cons ⟨.zero, by decide +kernel⟩ .nil),
    by decide +kernel, ?_⟩
  intro h
  exact absurd h.table (by decide +kernel)

end

end LogCollector
