import LogCollector.Lib.Assoc
import LogCollector.Lib.Fallible
import LogCollector.Plugins.Directives

/-!
# Rows as assignments

What a row does depends on the table through two bounds only. A row is read as a
directive first, which says what is stored, and the directive is then applied to the
slot (`evaluateRow_eq`). Over directives a run is simple: `finishedEntries` is the entries it
finishes and `slotAfter` is the slot it leaves, and both are functions of the slot
it starts in.
-/

namespace LogCollector

/-- What a row stores. -/
inductive Directive
  /-- Nothing. -/
  | ignored
  | filename (value : CStr)
  | pluginId (value : Int32)
  | listenIp (value : CStr) (addr : Option UInt32)
  | coreId (core_ids : List Int32)
  | allNondedicatedCores (flag : Bool)
  | optimized (flag : Bool)
  | endPlugin
  | regexId (value : Int32)
  | description (value : CStr)
  | precheck (value : CStr)
  | regexp (value : CStr)
  | fields (fields : List Field)
deriving DecidableEq

/-- The slot after a directive. -/
def PluginData.after (slot : PluginData) : Directive → PluginData
  | .ignored => slot
  | .filename value => { slot with filename := some value }
  | .pluginId value => { slot with plugin_id := value }
  | .listenIp value addr => { slot with ip := some value, ip_dec := addr.getD slot.ip_dec }
  | .coreId core_ids => { slot with core_ids := slot.core_ids ++ core_ids }
  | .allNondedicatedCores flag => { slot with all_nondedicated_cores := flag }
  | .optimized flag => { slot with optimized := flag }
  | .endPlugin => .zero
  | .regexId value => { slot with next := { slot.next with id := value } }
  | .description value => { slot with next := { slot.next with description := some value } }
  | .precheck value => { slot with next := { slot.next with precheck := some value } }
  | .regexp value => { slot with next := { slot.next with regexp := some value } }
  | .fields fields =>
    { slot with regex := slot.regex ++ [⟨slot.next, fields⟩], next := .zero }

/-- Is there room in the arrays of the slot? -/
def PluginData.hasRoom (slot : PluginData) : Directive → Bool
  | .coreId core_ids => slot.core_ids.length + core_ids.length ≤ MAX_PLUGIN_CORE_CNT
  | .regexId _ | .description _ | .precheck _ | .regexp _ | .fields _ =>
    slot.regex.length < MAX_REGEX_CNT
  | _ => true

/-- The table after a directive. -/
def Directive.apply (s : PluginState) (d : Directive) : Except Fault PluginState :=
  if d = .ignored then .ok s
  else if s.slot.hasRoom d = false then .error .badAccess
  else if s.entries.length < MAX_PLUGIN_CNT then
    .ok { entries := if d = .endPlugin then s.entries ++ [s.slot] else s.entries
          slot := s.slot.after d }
  else .error .tableFull

/-! ## Reading a value -/

/-- How the value of a key is read. -/
abbrev Reader : Type := CStr → Except Fault Directive

/-- What is stored, where the value is not empty. -/
def readText (store : CStr → Directive) : Reader := fun value =>
  .ok (if value = .empty then .ignored else store value)

def readFlag (store : Bool → Directive) : Reader := fun value =>
  .ok (if value = .lit "true" then store true
    else if value = .lit "false" then store false else .ignored)

def readCores : Reader := fun value =>
  match readCoreIds MAX_PLUGIN_CORE_CNT value with
  | none => .error .badAccess
  | some [] => .ok .ignored
  | some core_ids => .ok (.coreId core_ids)

/-- What is stored; an empty value ends the program. -/
def readRegexText (store : CStr → Directive) : Reader := fun value =>
  if value = .empty then .error .exit else .ok (store value)

def readFields : Reader := fun value =>
  match regexKeyFields value with
  | none => .error .badAccess
  | some (res, fields) => if res < 0 then .error .exit else .ok (.fields fields)

def pluginReaders (inet_aton : CStr → Option UInt32) : List (CStr × Reader) :=
  [(.lit "filename", readText .filename),
    (.lit "plugin_id", readText fun value => .pluginId (parseDecimal value).toInt32),
    (.lit "listen_ip", readText fun value => .listenIp value (inet_aton value)),
    (.lit "core_id", readCores),
    (.lit "all_nondedicated_cores", readFlag .allNondedicatedCores),
    (.lit "optimized", readFlag .optimized),
    (.lit "end", readText fun _ => .endPlugin)]

def regexReaders : List (CStr × Reader) :=
  [(.lit "regex_id", readRegexText fun value => .regexId (parseDecimal value).toInt32),
    (.lit "description", readRegexText .description),
    (.lit "precheck", fun value => .ok (.precheck value)),
    (.lit "regexp", readRegexText .regexp), (.lit "fields", readFields)]

/-- What a row stores. -/
def readDirective (inet_aton : CStr → Option UInt32) (row : CStr) : Except Fault Directive :=
  if row = .empty then .ok .ignored
  else
    match splitRow row with
    | none => .error .badAccess
    | some (key, value) =>
      match (pluginReaders inet_aton ++ regexReaders).lookup key with
      | some read => read value
      | none => .ok .ignored

/-! ## Handlers read and apply -/

/-- A handler of the first dictionary, the result of which is ignored. -/
def ReadsPlugin (func : Handler) (read : Reader) : Prop :=
  ∀ value s, (func value s).map Prod.snd = (read value).bind (Directive.apply s)

/-- A handler of the second dictionary. -/
def ReadsRegex (func : Handler) (read : Reader) : Prop :=
  ∀ value s, ((func value s).bind fun (res, s) => if res < 0 then .error .exit else .ok s) =
    (read value).bind (Directive.apply s)

section

variable {s : PluginState} {d : Directive} {slot : PluginData}

/-- A directive that needs no room stores into the slot. -/
theorem apply_of_store (hd : d ≠ .ignored) (hend : d ≠ .endPlugin) (hroom : s.slot.hasRoom d)
    (hslot : s.slot.after d = slot) : d.apply s = (s.store slot).map Prod.snd := by
  unfold Directive.apply PluginState.store
  rw [if_neg hd, if_neg (by rw [hroom]; decide), if_neg hend, hslot]
  split
  all_goals rfl

theorem apply_of_no_room (hd : d ≠ .ignored) (hroom : s.slot.hasRoom d = false) :
    d.apply s = .error .badAccess := by
  unfold Directive.apply
  rw [if_neg hd, if_pos hroom]

/-- A directive for the unfinished regex stores into the slot where there is room for
it. -/
theorem apply_of_storeRegex {next : RegexHead} (hd : d ≠ .ignored) (hend : d ≠ .endPlugin)
    (hroom : s.slot.hasRoom d = decide (s.slot.regex.length < MAX_REGEX_CNT))
    (hslot : s.slot.after d = { s.slot with next := next }) :
    d.apply s = (s.storeRegex next).map Prod.snd := by
  unfold PluginState.storeRegex
  by_cases hlt : s.slot.regex.length < MAX_REGEX_CNT
  · rw [if_pos hlt]
    exact apply_of_store hd hend (by rw [hroom]; exact decide_eq_true hlt) hslot
  · rw [if_neg hlt]
    rw [apply_of_no_room hd (by rw [hroom]; exact decide_eq_false hlt)]
    rfl

/-- A handler that stores is never below 0. -/
theorem bind_store : ((s.store slot).bind fun (res, s) =>
    if res < 0 then Except.error Fault.exit else .ok s) = (s.store slot).map Prod.snd := by
  unfold PluginState.store
  split
  all_goals rfl

theorem bind_storeRegex {next : RegexHead} : ((s.storeRegex next).bind fun (res, s) =>
    if res < 0 then Except.error Fault.exit else .ok s) = (s.storeRegex next).map Prod.snd := by
  unfold PluginState.storeRegex
  split
  · exact bind_store
  · rfl

end

/-- A handler that stores a text, if it is not empty. -/
theorem readsPlugin_text {func : Handler} {set : PluginState → CStr → PluginData}
    {store : CStr → Directive}
    (hfunc : ∀ value s, func value s =
      if value = .empty then .ok (ERR, s) else s.store (set s value))
    (hstore : ∀ value, store value ≠ .ignored ∧ store value ≠ .endPlugin)
    (hset : ∀ value (s : PluginState),
      s.slot.hasRoom (store value) ∧ s.slot.after (store value) = set s value) :
    ReadsPlugin func (readText store) := by
  intro value s
  rw [hfunc]
  unfold readText
  split
  · rfl
  · obtain ⟨hroom, hslot⟩ := hset value s
    exact (apply_of_store (hstore value).1 (hstore value).2 hroom hslot).symm

/-- A handler that stores `true` or `false`. -/
theorem readsPlugin_flag {set : PluginData → Bool → PluginData} {store : Bool → Directive}
    (hstore : ∀ flag, store flag ≠ .ignored ∧ store flag ≠ .endPlugin)
    (hset : ∀ flag (slot : PluginData),
      slot.hasRoom (store flag) ∧ slot.after (store flag) = set slot flag) :
    ReadsPlugin (flagHandler set) (readFlag store) := by
  intro value s
  have happly (flag : Bool) : (store flag).apply s = (s.store (set s.slot flag)).map Prod.snd :=
    apply_of_store (hstore flag).1 (hstore flag).2 (hset flag s.slot).1 (hset flag s.slot).2
  unfold flagHandler readFlag
  by_cases hempty : value = .empty
  · rw [if_pos hempty, if_neg (by rw [hempty]; decide), if_neg (by rw [hempty]; decide)]
    rfl
  · rw [if_neg hempty]
    split
    · exact (happly true).symm
    · split
      · exact (happly false).symm
      · rfl

theorem readsPlugin_end : ReadsPlugin pluginKeyEnd (readText fun _ => .endPlugin) := by
  intro value s
  unfold pluginKeyEnd readText
  split
  · rfl
  · show _ = Directive.apply s .endPlugin
    unfold Directive.apply
    have hnot : Directive.endPlugin ≠ .ignored := nofun
    rw [if_neg hnot, if_neg (show ¬s.slot.hasRoom .endPlugin = false from nofun)]
    split
    all_goals rfl

/-- With less room the loop stops at fewer numbers. -/
theorem coreIdsLoop_eq (room room' : Nat) (hle : room ≤ room') (mem : List UInt8)
    (delim : Option Nat) : coreIdsLoop room mem delim =
      (coreIdsLoop room' mem delim).filter fun core_ids => core_ids.length ≤ room := by
  induction room generalizing room' mem delim with
  | zero =>
    cases delim with
    | none => cases room' <;> rfl
    | some delim =>
      cases room' with
      | zero => rfl
      | succ room' =>
        simp only [coreIdsLoop]
        cases strchr (terminate mem delim) (delim + 1) ']' with
        | none => rfl
        | some close =>
          rw [Option.bind_some]
          generalize coreIdsLoop room' _ _ = result
          cases result with
          | none => rfl
          | some core_ids => rfl
  | succ room ih =>
    obtain ⟨room', rfl⟩ : ∃ k, room' = k + 1 := Nat.exists_eq_add_one.mpr (by omega)
    cases delim with
    | none => rfl
    | some delim =>
      simp only [coreIdsLoop]
      cases strchr (terminate mem delim) (delim + 1) ']' with
      | none => rfl
      | some close =>
        rw [Option.bind_some, Option.bind_some, ih room' (by omega)]
        generalize coreIdsLoop room' _ _ = result
        cases result with
        | none => rfl
        | some core_ids => by_cases h : core_ids.length ≤ room <;> simp [Option.filter, h]

theorem readsPlugin_coreId : ReadsPlugin pluginKeyCoreId readCores := by
  intro value s
  have hloop : readCoreIds (MAX_PLUGIN_CORE_CNT - s.slot.core_ids.length) value = _ :=
    coreIdsLoop_eq _ MAX_PLUGIN_CORE_CNT (Nat.sub_le _ _) _ _
  unfold pluginKeyCoreId readCores
  by_cases hempty : value = .empty
  · subst hempty
    rfl
  · rw [if_neg hempty, hloop]
    show Except.map _ (match Option.filter _ (readCoreIds MAX_PLUGIN_CORE_CNT value) with
      | none => _ | some [] => _ | some core_ids => _) = _
    cases readCoreIds MAX_PLUGIN_CORE_CNT value with
    | none => rfl
    | some core_ids =>
      cases core_ids with
      | nil => rfl
      | cons id core_ids =>
        by_cases hroom : (id :: core_ids).length ≤ MAX_PLUGIN_CORE_CNT - s.slot.core_ids.length
        · rw [Option.filter_some_pos (by simpa using hroom)]
          have hfits : s.slot.hasRoom (.coreId (id :: core_ids)) := by
            simp only [List.length_cons] at hroom
            simp only [PluginData.hasRoom, List.length_cons, decide_eq_true_eq]
            omega
          have happly : Directive.apply s (.coreId (id :: core_ids)) = _ :=
            apply_of_store nofun nofun hfits rfl
          exact happly.symm
        · rw [Option.filter_some_neg (by simpa using hroom)]
          have hfull : s.slot.hasRoom (.coreId (id :: core_ids)) = false := by
            simp only [List.length_cons] at hroom
            simp only [PluginData.hasRoom, List.length_cons, decide_eq_false_iff_not]
            omega
          have happly : Directive.apply s (.coreId (id :: core_ids)) = _ :=
            apply_of_no_room nofun hfull
          exact happly.symm

/-- A handler of a regex that stores a text, which must not be empty. -/
theorem readsRegex_text {func : Handler} {set : PluginState → CStr → RegexHead}
    {store : CStr → Directive}
    (hfunc : ∀ value s, func value s =
      if value = .empty then .ok (ERR, s) else s.storeRegex (set s value))
    (hstore : ∀ value, store value ≠ .ignored ∧ store value ≠ .endPlugin)
    (hset : ∀ value (s : PluginState),
      s.slot.hasRoom (store value) = decide (s.slot.regex.length < MAX_REGEX_CNT) ∧
        s.slot.after (store value) = { s.slot with next := set s value }) :
    ReadsRegex func (readRegexText store) := by
  intro value s
  rw [hfunc]
  unfold readRegexText
  split
  · rfl
  · obtain ⟨hroom, hslot⟩ := hset value s
    exact bind_storeRegex.trans
      (apply_of_storeRegex (hstore value).1 (hstore value).2 hroom hslot).symm

theorem readsRegex_precheck : ReadsRegex regexKeyPrecheck fun value => .ok (.precheck value) := by
  intro value s
  have happly : Directive.apply s (.precheck value) = _ :=
    apply_of_storeRegex nofun nofun rfl rfl
  exact bind_storeRegex.trans happly.symm

theorem readsRegex_fields : ReadsRegex regexKeyFieldsHandler readFields := by
  intro value s
  unfold regexKeyFieldsHandler readFields
  cases regexKeyFields value with
  | none => rfl
  | some result =>
    obtain ⟨res, fields⟩ := result
    dsimp only
    by_cases hres : res < 0
    · rw [if_pos hres, if_pos hres]
      show (if res < 0 then _ else _) = _
      rw [if_pos hres]
      rfl
    · rw [if_neg hres, if_neg hres]
      by_cases hroom : s.slot.regex.length < MAX_REGEX_CNT
      · rw [if_pos hroom, bind_store]
        have happly : Directive.apply s (.fields fields) = _ :=
          apply_of_store nofun nofun (decide_eq_true hroom) rfl
        exact happly.symm
      · rw [if_neg hroom]
        have happly : Directive.apply s (.fields fields) = _ :=
          apply_of_no_room nofun (decide_eq_false hroom)
        exact happly.symm

/-! ## Dictionaries -/

/-- Two dictionaries have the same keys, and what they have for a key is related. -/
theorem lookup_rel {α β : Type} {R : α → β → Prop} {funcs : List (CStr × α)}
    {reads : List (CStr × β)}
    (h : List.Forall₂ (fun func read => func.1 = read.1 ∧ R func.2 read.2) funcs reads)
    (key : CStr) : Option.Rel R (funcs.lookup key) (reads.lookup key) := by
  induction h with
  | nil => exact .none
  | @cons func read funcs reads hfirst _ ih =>
    obtain ⟨name, func⟩ := func
    obtain ⟨name', read⟩ := read
    obtain ⟨rfl, hrel⟩ := hfirst
    rw [List.lookup_cons, List.lookup_cons]
    cases key == name with
    | true => exact .some hrel
    | false => exact ih

theorem pluginDictionary_reads (inet_aton : CStr → Option UInt32) (key : CStr) :
    Option.Rel ReadsPlugin ((pluginDictionary inet_aton).lookup key)
      ((pluginReaders inet_aton).lookup key) := by
  have hcores : ReadsPlugin pluginKeyAllNondedicatedCores (readFlag .allNondedicatedCores) :=
    readsPlugin_flag (fun _ => ⟨nofun, nofun⟩) fun _ _ => ⟨rfl, rfl⟩
  have hoptimized : ReadsPlugin pluginKeyOptimized (readFlag .optimized) :=
    readsPlugin_flag (fun _ => ⟨nofun, nofun⟩) fun _ _ => ⟨rfl, rfl⟩
  refine lookup_rel ?_ key
  refine .cons ⟨rfl, readsPlugin_text (fun _ _ => rfl) (fun _ => ⟨nofun, nofun⟩)
    fun _ _ => ⟨rfl, rfl⟩⟩ ?_
  refine .cons ⟨rfl, readsPlugin_text (fun _ _ => rfl) (fun _ => ⟨nofun, nofun⟩)
    fun _ _ => ⟨rfl, rfl⟩⟩ ?_
  refine .cons ⟨rfl, readsPlugin_text (fun _ _ => rfl) (fun _ => ⟨nofun, nofun⟩)
    fun _ _ => ⟨rfl, rfl⟩⟩ ?_
  refine .cons ⟨rfl, readsPlugin_coreId⟩ ?_
  refine .cons ⟨rfl, hcores⟩ ?_
  refine .cons ⟨rfl, hoptimized⟩ ?_
  exact .cons ⟨rfl, readsPlugin_end⟩ .nil

theorem regexDictionary_reads (key : CStr) :
    Option.Rel ReadsRegex (regexDictionary.lookup key) (regexReaders.lookup key) := by
  refine lookup_rel ?_ key
  refine .cons ⟨rfl, readsRegex_text (fun _ _ => rfl) (fun _ => ⟨nofun, nofun⟩)
    fun _ _ => ⟨rfl, rfl⟩⟩ ?_
  refine .cons ⟨rfl, readsRegex_text (fun _ _ => rfl) (fun _ => ⟨nofun, nofun⟩)
    fun _ _ => ⟨rfl, rfl⟩⟩ ?_
  refine .cons ⟨rfl, readsRegex_precheck⟩ ?_
  refine .cons ⟨rfl, readsRegex_text (fun _ _ => rfl) (fun _ => ⟨nofun, nofun⟩)
    fun _ _ => ⟨rfl, rfl⟩⟩ ?_
  exact .cons ⟨rfl, readsRegex_fields⟩ .nil

/-- No key is in both dictionaries. -/
theorem regexDictionary_of_pluginDictionary {inet_aton : CStr → Option UInt32} {key : CStr}
    {func : Handler} (h : (pluginDictionary inet_aton).lookup key = some func) :
    regexDictionary.lookup key = none := by
  have hkeys : ∀ name ∈ (pluginDictionary fun _ => none).map Prod.fst,
      ∀ entry ∈ regexDictionary, (name != entry.1) = true := by
    decide
  have hnames : (pluginDictionary inet_aton).map Prod.fst =
      (pluginDictionary fun _ => none).map Prod.fst := rfl
  refine List.lookup_eq_none_iff.mpr fun entry hentry => hkeys key ?_ entry hentry
  rw [← hnames]
  exact List.mem_map.mpr ⟨(key, func), Lib.Assoc.mem_of_lookup h, rfl⟩

/-- A ROUND READS a directive and applies it. -/
theorem evaluateRow_eq (inet_aton : CStr → Option UInt32) (s : PluginState) (row : CStr) :
    evaluateRow inet_aton s row = (readDirective inet_aton row).bind (Directive.apply s) := by
  unfold evaluateRow readDirective
  by_cases hempty : row = .empty
  · rw [if_pos hempty, if_pos hempty]
    rfl
  · rw [if_neg hempty, if_neg hempty]
    cases splitRow row with
    | none => rfl
    | some pair =>
      obtain ⟨key, value⟩ := pair
      dsimp only
      have hplugin := pluginDictionary_reads inet_aton key
      have hregex := regexDictionary_reads key
      rw [List.lookup_append]
      cases hfunc : (pluginDictionary inet_aton).lookup key with
      | some func =>
        rw [regexDictionary_of_pluginDictionary hfunc]
        rw [hfunc] at hplugin
        generalize (pluginReaders inet_aton).lookup key = reader at hplugin ⊢
        cases hplugin with
        | some hreads =>
          rw [Option.some_or]
          dsimp only
          rw [← hreads value s]
          cases func value s with
          | error fault => rfl
          | ok result => rfl
      | none =>
        rw [hfunc] at hplugin
        generalize (pluginReaders inet_aton).lookup key = reader at hplugin ⊢
        cases hplugin
        rw [Option.none_or]
        generalize regexDictionary.lookup key = func at hregex ⊢
        generalize regexReaders.lookup key = reader at hregex ⊢
        cases hregex with
        | none => rfl
        | some hreads => exact hreads value s

/-! ## Runs -/

/-- The slot that directives leave. -/
def slotAfter (slot : PluginData) (ds : List Directive) : PluginData :=
  ds.foldl PluginData.after slot

/-- The entries that directives finish. -/
def finishedEntries : PluginData → List Directive → List PluginData
  | _, [] => []
  | slot, d :: ds =>
    if d = .endPlugin then slot :: finishedEntries .zero ds else finishedEntries (slot.after d) ds

/-- No array of the slot is too small for the directives. -/
def RoomFor : PluginData → List Directive → Prop
  | _, [] => True
  | slot, d :: ds => slot.hasRoom d ∧ RoomFor (slot.after d) ds

theorem finishedEntries_cons (slot : PluginData) (d : Directive) (ds : List Directive) :
    finishedEntries slot (d :: ds) =
      (if d = .endPlugin then [slot] else []) ++ finishedEntries (slot.after d) ds := by
  rw [finishedEntries]
  split
  · next h =>
    subst h
    rfl
  · rfl

/-- What a directive does, where it succeeds. -/
theorem apply_ok {d : Directive} {s s' : PluginState} (h : d.apply s = .ok s') :
    s.slot.hasRoom d ∧ s' = ⟨s.entries ++ (if d = .endPlugin then [s.slot] else []),
      s.slot.after d⟩ := by
  unfold Directive.apply at h
  split at h
  · next hd =>
    cases h
    subst hd
    exact ⟨rfl, by simp [PluginData.after]⟩
  · split at h
    · cases h
    · next hroom =>
      split at h
      · cases h
        refine ⟨by simpa using hroom, ?_⟩
        congr 1
        split
        · rfl
        · rw [List.append_nil]
      · cases h

/-- A directive for which there is room succeeds, or the table is full. -/
theorem apply_of_room {d : Directive} {s : PluginState} (hroom : s.slot.hasRoom d) :
    (∃ s', d.apply s = .ok s') ∨ d.apply s = .error .tableFull := by
  unfold Directive.apply
  split
  · exact .inl ⟨s, rfl⟩
  · rw [if_neg (by simp [hroom])]
    split
    · exact .inl ⟨_, rfl⟩
    · exact .inr rfl

/-- A RUN that succeeds finishes the entries of its slot. -/
theorem run_ok {ds : List Directive} : ∀ {s s' : PluginState},
    ds.foldlM Directive.apply s = .ok s' →
      RoomFor s.slot ds ∧ s' = ⟨s.entries ++ finishedEntries s.slot ds, slotAfter s.slot ds⟩ := by
  induction ds with
  | nil =>
    intro s s' h
    cases h
    exact ⟨trivial, by simp [finishedEntries, slotAfter]⟩
  | cons d ds ih =>
    intro s s' h
    rw [List.foldlM_cons] at h
    cases hd : d.apply s with
    | error fault =>
      rw [hd] at h
      cases h
    | ok s₁ =>
      rw [hd] at h
      obtain ⟨hroom, rfl⟩ := apply_ok hd
      obtain ⟨hrest, rfl⟩ := ih h
      refine ⟨⟨hroom, hrest⟩, ?_⟩
      rw [finishedEntries_cons, List.append_assoc]
      rfl

/-- A RUN for which there is room succeeds, or the table is full. -/
theorem run_of_room {ds : List Directive} : ∀ {s : PluginState}, RoomFor s.slot ds →
    (∃ s', ds.foldlM Directive.apply s = .ok s') ∨
      ds.foldlM Directive.apply s = .error .tableFull := by
  induction ds with
  | nil => exact fun _ => .inl ⟨_, rfl⟩
  | cons d ds ih =>
    intro s ⟨hroom, hrest⟩
    rw [List.foldlM_cons]
    rcases apply_of_room hroom with ⟨s₁, hd⟩ | hd
    · rw [hd]
      obtain ⟨-, rfl⟩ := apply_ok hd
      exact ih hrest
    · rw [hd]
      exact .inr rfl

/-! ## Files -/

section

variable (inet_aton : CStr → Option UInt32)

/-- What is stored by the rows of a file. -/
def readDirectives (file : List UInt8) : Except Fault (List Directive) := do
  let rows ← sanitizePlugin (readRows LARGEBUFLEN file)
  rows.mapM (readDirective inet_aton)

/-- The directives of a file that can be read to its end. -/
def directivesOf (file : Option (List UInt8)) : List Directive :=
  match file.map (readDirectives inet_aton) with
  | some (.ok ds) => ds
  | _ => []

variable {inet_aton} {file : Option (List UInt8)} {s₀ s s' : PluginState}

/-- A file that can be opened is sanitized and evaluated. -/
theorem parseNext_some (s : PluginState) (file : List UInt8) :
    parseNext inet_aton s (some file) =
      (sanitizePlugin (readRows LARGEBUFLEN file)).bind (evaluatePlugin inet_aton s) := by
  unfold parseNext parsePluginFile
  dsimp only
  cases sanitizePlugin (readRows LARGEBUFLEN file) with
  | error fault => rfl
  | ok rows =>
    show ((evaluatePlugin inet_aton s rows).bind fun s => Except.ok (SUCCESS, s)).bind _ =
      evaluatePlugin inet_aton s rows
    cases evaluatePlugin inet_aton s rows with
    | error fault => rfl
    | ok s => rfl

/-- A FILE that is parsed once is parsed by its directives from any state. -/
theorem parseNext_eq (h : parseNext inet_aton s₀ file = .ok s') (s : PluginState) :
    parseNext inet_aton s file = (directivesOf inet_aton file).foldlM Directive.apply s := by
  cases file with
  | none => cases h
  | some file =>
    rw [parseNext_some] at h ⊢
    unfold directivesOf readDirectives
    cases hrows : sanitizePlugin (readRows LARGEBUFLEN file) with
    | error fault =>
      rw [hrows] at h
      cases h
    | ok rows =>
      rw [hrows] at h
      obtain ⟨ds, hds⟩ := Lib.Fallible.mapM_of_foldlM (evaluateRow_eq inet_aton) h
      have hread : (some file).map (fun file => do
          let rows ← sanitizePlugin (readRows LARGEBUFLEN file)
          rows.mapM (readDirective inet_aton)) = some (.ok ds) := by
        rw [Option.map_some, hrows]
        exact congrArg some hds
      rw [hread]
      exact Lib.Fallible.foldlM_eq_of_mapM (evaluateRow_eq inet_aton) hds

/-- A file parsed alone. -/
theorem parseNext_of_success {table : List PluginData} {slot : PluginData}
    (h : parsePluginFile inet_aton .start file = .ok (SUCCESS, ⟨table, slot⟩)) :
    parseNext inet_aton .start file = .ok ⟨table, slot⟩ := by
  unfold parseNext
  rw [h]
  rfl

end

end LogCollector
