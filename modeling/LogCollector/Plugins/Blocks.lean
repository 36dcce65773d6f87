import LogCollector.Plugins.Independence

/-!
# The blocks of regexes

The lines of a regex are to come in the order of `regex_keys`, and `evaluate_plugin`
keeps in `rgx_index` how far a block has come. But a key that is not the next one is
handled like the next one: `rgx_index` decides nothing. A `fields` line stores what
the slot has by then, and that is a whole regex only where the file keeps the order by
itself (`stored_regexes_complete_iff`).
-/

namespace LogCollector

def REGEX_KEY_CNT : Nat := 5

/-- The index of a directive's key in `regex_keys`. -/
def Directive.regexKey : Directive → Option Nat
  | .regexId _ => some 0
  | .description _ => some 1
  | .precheck _ => some 2
  | .regexp _ => some 3
  | .fields _ => some 4
  | _ => none

/-- The keys come in the order of `regex_keys`, again and again, and no plugin ends within
a block; `rgx_index` is the next one. -/
def InOrder : Nat → List Directive → Prop
  | rgx_index, [] => rgx_index = 0
  | rgx_index, d :: ds =>
    match d.regexKey with
    | some key => key = rgx_index ∧ InOrder ((rgx_index + 1) % REGEX_KEY_CNT) ds
    | none => (d = .endPlugin → rgx_index = 0) ∧ InOrder rgx_index ds

instance InOrder.decidable : ∀ rgx_index ds, Decidable (InOrder rgx_index ds)
  | rgx_index, [] => inferInstanceAs (Decidable (rgx_index = 0))
  | rgx_index, d :: ds =>
    have := InOrder.decidable ((rgx_index + 1) % REGEX_KEY_CNT) ds
    have := InOrder.decidable rgx_index ds
    match hkey : d.regexKey with
    | some key =>
      decidable_of_iff (key = rgx_index ∧ InOrder ((rgx_index + 1) % REGEX_KEY_CNT) ds)
        (by simp only [InOrder, hkey])
    | none =>
      decidable_of_iff ((d = .endPlugin → rgx_index = 0) ∧ InOrder rgx_index ds)
        (by simp only [InOrder, hkey])

/-! ## Blocks -/

/-- The directives up to each `fields`, and those behind the last one; `block` is what
came before them. -/
def splitBlocks : List Directive → List Directive → List (List Directive) × List Directive
  | block, [] => ([], block)
  | block, .fields fields :: ds =>
    ((block ++ [.fields fields]) :: (splitBlocks [] ds).1, (splitBlocks [] ds).2)
  | block, d :: ds => splitBlocks (block ++ [d]) ds

/-- The keys of a block. -/
def keysOf (block : List Directive) : List Nat := block.filterMap Directive.regexKey

/-- No plugin ends between two keys. -/
def NoEndInside (block : List Directive) : Prop :=
  ∀ before after, block = before ++ .endPlugin :: after → keysOf before = []

/-- No key is missing, repeated or out of its place. -/
structure WholeBlock (block : List Directive) : Prop where
  keys : keysOf block = List.range REGEX_KEY_CNT
  inside : NoEndInside block

/-- Every block is whole, and no key is behind the last one. -/
def WholeBlocks (blocks : List (List Directive) × List Directive) : Prop :=
  (∀ block ∈ blocks.1, WholeBlock block) ∧ keysOf blocks.2 = []

/-- Every attribute is set, from a directive of the block. -/
structure FromBlock (block : List Directive) (rgx : RegexData) : Prop where
  id : .regexId rgx.id ∈ block
  description : ∃ value, .description value ∈ block ∧ rgx.description = some value
  precheck : ∃ value, .precheck value ∈ block ∧ rgx.precheck = some value
  regexp : ∃ value, .regexp value ∈ block ∧ rgx.regexp = some value
  fields : .fields rgx.fields ∈ block

/-- The regexes below `regex_cnt`, over all entries and the slot. -/
def PluginState.regexes (s : PluginState) : List RegexData :=
  s.entries.flatMap PluginData.regex ++ s.slot.regex

/-- What an accepted file stores is complete, and the file is one that need not be
rejected. -/
structure AcceptedComplete (s : PluginState) (ds : List Directive) (s' : PluginState) :
    Prop where
  stored : ∃ stored, s'.regexes = s.regexes ++ stored ∧
    List.Forall₂ FromBlock (splitBlocks [] ds).1 stored
  accepted : WholeBlocks (splitBlocks [] ds)

section

variable {block : List Directive} {d : Directive}

theorem keysOf_append (before after : List Directive) :
    keysOf (before ++ after) = keysOf before ++ keysOf after :=
  List.filterMap_append

theorem keysOf_concat_none (h : d.regexKey = none) : keysOf (block ++ [d]) = keysOf block := by
  have hlast : keysOf [d] = [] := List.filterMap_cons_none h
  rw [keysOf_append, hlast, List.append_nil]

theorem keysOf_concat_some {key : Nat} (h : d.regexKey = some key) :
    keysOf (block ++ [d]) = keysOf block ++ [key] := by
  have hlast : keysOf [d] = [key] := List.filterMap_cons_some h
  rw [keysOf_append, hlast]

theorem NoEndInside.concat (h : NoEndInside block) (hend : d = .endPlugin → keysOf block = []) :
    NoEndInside (block ++ [d]) := by
  intro before after hsplit
  rcases List.append_eq_append_iff.mp hsplit with ⟨rest, hbefore, hrest⟩ | ⟨rest, hblock, hrest⟩
  · cases rest with
    | nil =>
      rw [List.nil_append, List.cons.injEq] at hrest
      rw [hbefore, List.append_nil]
      exact hend hrest.1
    | cons c rest =>
      have hlength := congrArg List.length hrest
      simp only [List.length_cons, List.length_append, List.length_nil] at hlength
      omega
  · cases rest with
    | nil =>
      rw [List.nil_append, List.cons.injEq] at hrest
      rw [hblock, List.append_nil] at hend
      exact hend hrest.1.symm
    | cons c rest =>
      rw [List.cons_append, List.cons.injEq] at hrest
      exact h before rest (hrest.1 ▸ hblock)

theorem NoEndInside.of_append {after : List Directive} (h : NoEndInside (block ++ after)) :
    NoEndInside block := by
  intro before rest hblock
  apply h before (rest ++ after)
  rw [hblock, List.append_assoc, List.cons_append]

theorem noEndInside_of_keysOf (h : keysOf block = []) : NoEndInside block := by
  rintro before after rfl
  rw [keysOf_append] at h
  exact (List.append_eq_nil_iff.mp h).1

end

/-- A directive that is not `fields` goes into the block. -/
theorem splitBlocks_cons {d : Directive} (h : d.regexKey ≠ some 4) (block ds : List Directive) :
    splitBlocks block (d :: ds) = splitBlocks (block ++ [d]) ds := by
  cases d with
  | fields fields => exact absurd rfl h
  | _ => rfl

theorem splitBlocks_fields (block ds : List Directive) (fields : List Field) :
    splitBlocks block (.fields fields :: ds) =
      ((block ++ [.fields fields]) :: (splitBlocks [] ds).1, (splitBlocks [] ds).2) := rfl

theorem eq_fields_of_regexKey {d : Directive} (h : d.regexKey = some 4) :
    ∃ fields, d = .fields fields := by
  cases d with
  | fields fields => exact ⟨fields, rfl⟩
  | _ => cases h

theorem regexKey_lt {d : Directive} {key : Nat} (h : d.regexKey = some key) :
    key < REGEX_KEY_CNT := by
  cases d with
  | regexId | description | precheck | regexp | fields =>
    cases h
    decide
  | _ => cases h

theorem ne_endPlugin_of_regexKey {d : Directive} {key : Nat} (h : d.regexKey = some key) :
    d ≠ .endPlugin := by
  rintro rfl
  cases h

/-- A key that is not the last one has a next one. -/
theorem succ_regexKey_lt {d : Directive} {key : Nat} (h : d.regexKey = some key)
    (hlast : key ≠ 4) : key + 1 < REGEX_KEY_CNT := by
  have hlt := regexKey_lt h
  rw [REGEX_KEY_CNT] at hlt ⊢
  omega

/-- What a block begins with is the beginning of a whole block. -/
theorem WholeBlocks.begins {ds block : List Directive} (h : WholeBlocks (splitBlocks block ds)) :
    keysOf block <+: List.range REGEX_KEY_CNT ∧ NoEndInside block := by
  induction ds generalizing block with
  | nil =>
    have hkeys : keysOf block = [] := h.2
    exact ⟨hkeys ▸ List.nil_prefix, noEndInside_of_keysOf hkeys⟩
  | cons d ds ih =>
    by_cases hfields : d.regexKey = some 4
    · obtain ⟨fields, rfl⟩ := eq_fields_of_regexKey hfields
      rw [splitBlocks_fields] at h
      have hblock := h.1 _ List.mem_cons_self
      refine ⟨?_, hblock.inside.of_append⟩
      rw [← hblock.keys, keysOf_append]
      exact List.prefix_append _ _
    · rw [splitBlocks_cons hfields] at h
      obtain ⟨hkeys, hinside⟩ := ih h
      refine ⟨?_, hinside.of_append⟩
      rw [keysOf_append] at hkeys
      exact (List.prefix_append _ _).trans hkeys

/-- The key behind the beginning of a whole block is the next one. -/
theorem WholeBlocks.next_key {d : Directive} {ds block : List Directive} {key rgx_index : Nat}
    (h : WholeBlocks (splitBlocks block (d :: ds))) (hkey : d.regexKey = some key)
    (hkeys : keysOf block = List.range rgx_index) : key = rgx_index := by
  have hprefix : keysOf (block ++ [d]) <+: List.range REGEX_KEY_CNT := by
    by_cases hfields : d.regexKey = some 4
    · obtain ⟨fields, rfl⟩ := eq_fields_of_regexKey hfields
      rw [splitBlocks_fields] at h
      exact (h.1 _ List.mem_cons_self).keys ▸ List.prefix_rfl
    · rw [splitBlocks_cons hfields] at h
      exact h.begins.1
  rw [keysOf_concat_some hkey, hkeys] at hprefix
  have hget := hprefix.getElem (i := rgx_index) (by simp)
  rw [List.getElem_range, List.getElem_append_right (by simp)] at hget
  simpa using hget

/-- Behind a whole block the next one begins. -/
theorem wholeBlocks_fields_iff {block ds : List Directive} {fields : List Field}
    (hblock : WholeBlock (block ++ [.fields fields])) :
    WholeBlocks (splitBlocks block (.fields fields :: ds)) ↔ WholeBlocks (splitBlocks [] ds) := by
  rw [splitBlocks_fields]
  constructor
  · intro h
    exact ⟨fun b hb => h.1 b (List.mem_cons_of_mem _ hb), h.2⟩
  · intro h
    refine ⟨?_, h.2⟩
    intro b hb
    rcases List.mem_cons.mp hb with rfl | hb
    · exact hblock
    · exact h.1 b hb

/-- The blocks are whole exactly where the keys come in order. -/
theorem wholeBlocks_iff {ds : List Directive} : ∀ {block : List Directive} {rgx_index : Nat},
    rgx_index < REGEX_KEY_CNT → keysOf block = List.range rgx_index → NoEndInside block →
      (WholeBlocks (splitBlocks block ds) ↔ InOrder rgx_index ds) := by
  induction ds with
  | nil =>
    intro block rgx_index _ hkeys _
    have hnone : keysOf block = [] ↔ rgx_index = 0 := by
      rw [hkeys, List.range_eq_nil]
    exact ⟨fun h => hnone.mp h.2,
      fun h => ⟨fun _ hmem => (List.not_mem_nil hmem).elim, hnone.mpr h⟩⟩
  | cons d ds ih =>
    intro block rgx_index hlt hkeys hinside
    unfold InOrder
    cases hkey : d.regexKey with
    | none =>
      have hfields : d.regexKey ≠ some 4 := by rw [hkey]; nofun
      have hkeys' : keysOf (block ++ [d]) = List.range rgx_index :=
        (keysOf_concat_none hkey).trans hkeys
      rw [splitBlocks_cons hfields]
      by_cases hend : d = .endPlugin → rgx_index = 0
      · rw [and_iff_right hend]
        refine ih hlt hkeys' (hinside.concat ?_)
        intro h
        rw [hkeys, hend h]
        rfl
      · refine iff_of_false (fun h => hend fun hd => ?_) fun h => hend h.1
        -- the keys before the end of the plugin are in one block with it
        have hbefore : keysOf block = [] := h.begins.2 block [] (by rw [hd])
        rwa [hkeys, List.range_eq_nil] at hbefore
    | some key =>
      by_cases hnext : key = rgx_index
      case neg => exact iff_of_false (fun h => hnext (h.next_key hkey hkeys)) fun h => hnext h.1
      case pos =>
        subst hnext
        have hkeys' : keysOf (block ++ [d]) = List.range (key + 1) := by
          rw [keysOf_concat_some hkey, hkeys, List.range_succ]
        have hinside' : NoEndInside (block ++ [d]) :=
          hinside.concat fun h => absurd h (ne_endPlugin_of_regexKey hkey)
        simp only [true_and]
        by_cases hfields : d.regexKey = some 4
        · obtain ⟨fields, rfl⟩ := eq_fields_of_regexKey hfields
          cases hkey
          have hrest : WholeBlocks (splitBlocks [] ds) ↔ InOrder 0 ds :=
            ih (by decide) rfl (noEndInside_of_keysOf rfl)
          exact (wholeBlocks_fields_iff ⟨hkeys', hinside'⟩).trans hrest
        · have hlast : key + 1 < REGEX_KEY_CNT :=
            succ_regexKey_lt hkey fun h => hfields (hkey.trans (congrArg some h))
          rw [splitBlocks_cons hfields, Nat.mod_eq_of_lt hlast]
          exact ih hlast hkeys' hinside'

/-! ## What is stored -/

/-- The attributes the keys so far have set are from the block. -/
structure HeadFrom (rgx_index : Nat) (block : List Directive) (next : RegexHead) : Prop where
  id : 0 < rgx_index → .regexId next.id ∈ block
  description : 1 < rgx_index → ∃ value, .description value ∈ block ∧ next.description = some value
  precheck : 2 < rgx_index → ∃ value, .precheck value ∈ block ∧ next.precheck = some value
  regexp : 3 < rgx_index → ∃ value, .regexp value ∈ block ∧ next.regexp = some value

theorem headFrom_zero (block : List Directive) (next : RegexHead) : HeadFrom 0 block next :=
  ⟨nofun, nofun, nofun, nofun⟩

/-- A directive that is no key of a regex leaves the unfinished regex. -/
theorem next_after {d : Directive} (hkey : d.regexKey = none) (hend : d ≠ .endPlugin)
    (slot : PluginData) : (slot.after d).next = slot.next ∧ (slot.after d).regex = slot.regex := by
  cases d with
  | endPlugin => exact absurd rfl hend
  | regexId | description | precheck | regexp | fields => cases hkey
  | _ => exact ⟨rfl, rfl⟩

theorem HeadFrom.concat {rgx_index : Nat} {block : List Directive} {next : RegexHead}
    (h : HeadFrom rgx_index block next) (d : Directive) :
    HeadFrom rgx_index (block ++ [d]) next where
  id hlt := List.mem_append_left _ (h.id hlt)
  description hlt := (h.description hlt).imp fun _ hv => ⟨List.mem_append_left _ hv.1, hv.2⟩
  precheck hlt := (h.precheck hlt).imp fun _ hv => ⟨List.mem_append_left _ hv.1, hv.2⟩
  regexp hlt := (h.regexp hlt).imp fun _ hv => ⟨List.mem_append_left _ hv.1, hv.2⟩

/-- The next key sets its attribute and keeps those before it. -/
theorem HeadFrom.after {rgx_index : Nat} {block : List Directive} {slot : PluginData}
    (h : HeadFrom rgx_index block slot.next) {d : Directive} (hkey : d.regexKey = some rgx_index)
    (hfields : rgx_index ≠ 4) :
    HeadFrom (rgx_index + 1) (block ++ [d]) (slot.after d).next ∧
      (slot.after d).regex = slot.regex := by
  have hkept := h.concat d
  have hlast : d ∈ block ++ [d] := List.mem_append_right _ (List.mem_singleton_self d)
  cases d with
  | regexId value =>
    cases hkey
    exact ⟨⟨fun _ => hlast, nofun, nofun, nofun⟩, rfl⟩
  | description value =>
    cases hkey
    exact ⟨⟨fun _ => hkept.id (by decide), fun _ => ⟨value, hlast, rfl⟩, nofun, nofun⟩, rfl⟩
  | precheck value =>
    cases hkey
    exact ⟨⟨fun _ => hkept.id (by decide), fun _ => hkept.description (by decide),
      fun _ => ⟨value, hlast, rfl⟩, nofun⟩, rfl⟩
  | regexp value =>
    cases hkey
    exact ⟨⟨fun _ => hkept.id (by decide), fun _ => hkept.description (by decide),
      fun _ => hkept.precheck (by decide), fun _ => ⟨value, hlast, rfl⟩⟩, rfl⟩
  | fields value => exact absurd (Option.some.inj hkey).symm hfields
  | _ => cases hkey

/-- IN ORDER, every `fields` stores what its own block has set. -/
theorem stored_from_blocks {ds : List Directive} : ∀ {block : List Directive} {rgx_index : Nat}
    {slot : PluginData}, InOrder rgx_index ds → HeadFrom rgx_index block slot.next →
      ∃ stored, (finishedEntries slot ds).flatMap PluginData.regex ++ (slotAfter slot ds).regex =
          slot.regex ++ stored ∧
        List.Forall₂ FromBlock (splitBlocks block ds).1 stored := by
  induction ds with
  | nil =>
    intro block rgx_index slot _ _
    exact ⟨[], (List.append_nil _).symm, .nil⟩
  | cons d ds ih =>
    intro block rgx_index slot horder hhead
    unfold InOrder at horder
    have hslot : slotAfter slot (d :: ds) = slotAfter (slot.after d) ds := rfl
    rw [finishedEntries_cons, hslot, List.flatMap_append, List.append_assoc]
    cases hkey : d.regexKey with
    | none =>
      rw [hkey] at horder
      have hfields : d.regexKey ≠ some 4 := by rw [hkey]; nofun
      rw [splitBlocks_cons hfields]
      by_cases hend : d = .endPlugin
      · subst hend
        rw [horder.1 rfl] at horder
        obtain ⟨stored, hstored, hblocks⟩ :=
          ih horder.2 (headFrom_zero (block ++ [.endPlugin]) PluginData.zero.next)
        refine ⟨stored, ?_, hblocks⟩
        have hzero : slot.after .endPlugin = .zero := rfl
        rw [if_pos rfl, hzero, hstored, List.flatMap_singleton]
        rfl
      · obtain ⟨hnext, hregex⟩ := next_after hkey hend slot
        have hhead' : HeadFrom rgx_index (block ++ [d]) (slot.after d).next :=
          hnext ▸ hhead.concat d
        obtain ⟨stored, hstored, hblocks⟩ := ih horder.2 hhead'
        refine ⟨stored, ?_, hblocks⟩
        rw [if_neg hend, hstored, hregex]
        rfl
    | some key =>
      rw [hkey] at horder
      obtain ⟨rfl, horder⟩ := horder
      rw [if_neg (ne_endPlugin_of_regexKey hkey), List.flatMap_nil, List.nil_append]
      by_cases hfields : key = 4
      · subst hfields
        obtain ⟨fields, rfl⟩ := eq_fields_of_regexKey hkey
        obtain ⟨stored, hstored, hblocks⟩ :=
          ih horder (headFrom_zero [] (slot.after (.fields fields)).next)
        have hhead' := hhead.concat (.fields fields)
        have hown : FromBlock (block ++ [.fields fields]) ⟨slot.next, fields⟩ :=
          ⟨hhead'.id (by decide), hhead'.description (by decide), hhead'.precheck (by decide),
            hhead'.regexp (by decide), List.mem_append_right _ (List.mem_singleton_self _)⟩
        refine ⟨⟨slot.next, fields⟩ :: stored, ?_, .cons hown hblocks⟩
        rw [hstored]
        exact List.append_assoc _ _ _
      · obtain ⟨hnext, hregex⟩ := hhead.after hkey hfields
        have hnot : d.regexKey ≠ some 4 := by
          rw [hkey, ne_eq, Option.some.injEq]
          exact hfields
        rw [Nat.mod_eq_of_lt (succ_regexKey_lt hkey hfields)] at horder
        obtain ⟨stored, hstored, hblocks⟩ := ih horder hnext
        refine ⟨stored, ?_, ?_⟩
        · rw [hstored, hregex]
        · rw [splitBlocks_cons hnot]
          exact hblocks

variable {inet_aton : CStr → Option UInt32}

/-- THE REGEXES OF AN ACCEPTED FILE ARE COMPLETE exactly where the file keeps the order of
the keys by itself. -/
theorem stored_regexes_complete_iff {s s' : PluginState} {file : Option (List UInt8)}
    (h : parsePluginFile inet_aton s file = .ok (SUCCESS, s')) :
    AcceptedComplete s (directivesOf inet_aton file) s' ↔
      InOrder 0 (directivesOf inet_aton file) := by
  have hwhole : WholeBlocks (splitBlocks [] (directivesOf inet_aton file)) ↔
      InOrder 0 (directivesOf inet_aton file) :=
    wholeBlocks_iff (by decide) rfl (noEndInside_of_keysOf rfl)
  have hrun : parseNext inet_aton s file = .ok s' := by
    unfold parseNext
    rw [h]
    rfl
  rw [parseNext_eq hrun] at hrun
  obtain ⟨-, rfl⟩ := run_ok hrun
  constructor
  · intro hcomplete
    exact hwhole.mp hcomplete.accepted
  · intro horder
    refine ⟨?_, hwhole.mpr horder⟩
    obtain ⟨stored, hstored, hblocks⟩ :=
      stored_from_blocks horder (headFrom_zero [] s.slot.next)
    refine ⟨stored, ?_, hblocks⟩
    rw [PluginState.regexes, PluginState.regexes, List.flatMap_append, List.append_assoc,
      hstored, List.append_assoc]

/-- A file with one block, in order. -/
def orderedFile : Option (List UInt8) :=
  fileOf "regex_id: 1\ndescription: d\nprecheck: p\nregexp: r\nfields: [a:b]\n"

theorem stored_regexes_complete_ordered :
    ∃ s', parsePluginFile exampleAton .start orderedFile = .ok (SUCCESS, s') ∧
      AcceptedComplete .start (directivesOf exampleAton orderedFile) s' := by
  have horder : InOrder 0 (directivesOf exampleAton orderedFile) := by decide +kernel
  exact ⟨_, rfl, (stored_regexes_complete_iff rfl).mpr horder⟩

/-- A file with a `fields` line alone. -/
def fieldsOnlyFile : Option (List UInt8) := fileOf "fields: [a:b]\n"

/-- It is accepted, and stores a regex without a precheck. -/
theorem fields_only_stored :
    ∃ s', parsePluginFile exampleAton .start fieldsOnlyFile = .ok (SUCCESS, s') ∧
      s'.regexes.map (·.precheck) = [none] ∧
      ¬ AcceptedComplete .start (directivesOf exampleAton fieldsOnlyFile) s' := by
  refine ⟨_, rfl, rfl, ?_⟩
  intro h
  have hblocks : (splitBlocks [] (directivesOf exampleAton fieldsOnlyFile)).1.map keysOf =
      [[4]] := by
    decide +kernel
  obtain ⟨block, hblock, hkeys⟩ := List.mem_map.mp (hblocks ▸ List.mem_singleton_self [4])
  exact absurd (hkeys.symm.trans (h.accepted.1 block hblock).keys) (by decide)

end LogCollector
