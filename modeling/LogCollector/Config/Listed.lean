import LogCollector.Config.Totality
import LogCollector.Plugins.Independence

/-!
# What the rows of the files list

A configuration file and the plugin files it names are tables of keys and values, and what
the loader stores of a row can be read off its text: the value of a key, the texts in
brackets, the specifications of a regex, and whether anything is stored at all. What
`loadDirective` makes of a row is compared with that here (`addsListed_of_load`,
`usesSlot_of_load`).
-/

namespace LogCollector

/-! ## Counting in the text -/

/-- The value of a row with a key, if it is not empty; `cut` is what becomes of the key
before it is looked up. -/
def valueOf (cut : CStr → CStr) (key row : CStr) : Option CStr :=
  match splitRow row with
  | none => none
  | some (name, value) => if cut name = key ∧ value ≠ .empty then some value else none

/-- The values that rows of a configuration file have for a key. -/
def configValues (key : CStr) (rows : List CStr) : List CStr :=
  rows.filterMap (valueOf nameless key)

/-- Does a row of a plugin file finish a plugin? -/
def endsPlugin (row : CStr) : Bool := (valueOf id (.lit "end") row).isSome

/-- The texts in brackets that a row lists as core ids. -/
def coreTexts (row : CStr) : List (List UInt8) :=
  match valueOf id (.lit "core_id") row with
  | none => []
  | some value => (bracketed none value.bytes).getD []

/-- How many fields the regex has that a row finishes, if it finishes one. -/
def specCounts (row : CStr) : List Nat :=
  match valueOf id (.lit "fields") row with
  | none => []
  | some value => [((specBodies .outside value.bytes).getD []).length]

/-- Does a row finish a regex? -/
def finishesRegex (row : CStr) : Bool := (valueOf id (.lit "fields") row).isSome

/-- The keys of a regex. -/
def regexKeys : List CStr :=
  [.lit "regex_id", .lit "description", .lit "precheck", .lit "regexp", .lit "fields"]

/-- Does a row have a key of a regex? -/
def regexRow (row : CStr) : Bool :=
  match splitRow row with
  | none => false
  | some (key, _) => key ∈ regexKeys

/-- Does a value of a key get stored? -/
def storesValue (key value : CStr) : Bool :=
  if key ∈ regexKeys then true
  else if key = .lit "core_id" then (bracketed none value.bytes).getD [] ≠ []
  else if key ∈ [.lit "all_nondedicated_cores", .lit "optimized"] then
    value ∈ [.lit "true", .lit "false"]
  else if key ∈ [.lit "filename", .lit "plugin_id", .lit "listen_ip", .lit "end"] then
    value ≠ .empty
  else false

/-- Does a row of a plugin file store into a plugin, or finish it? -/
def storesRow (row : CStr) : Bool :=
  match splitRow row with
  | none => false
  | some (key, value) => storesValue key value

/-- The core id a text is read as: a decimal number, narrowed to an `int`. -/
def coreNumber (text : List UInt8) : Int32 := (parseDecimal (.ofBytes text)).toInt32

/-! ## The lists of a plugin -/

/-- How many fields the regex has that a directive finishes, if it finishes one. -/
def Directive.addedFields : Directive → List Nat
  | .fields listed => [listed.length]
  | _ => []

section

variable {inet_aton : CStr → Option UInt32} {row : CStr} {d : Directive}

/-- What a directive adds to the lists of a slot. -/
def AddsListed (row : CStr) (d : Directive) : Prop :=
  (d = .endPlugin ↔ endsPlugin row) ∧ d.addedCores = (coreTexts row).map coreNumber ∧
    d.addedFields = specCounts row

/-- A directive that lists nothing, for a row that lists nothing. -/
theorem addsListed_plain (hd : d.plain) (hend : valueOf id (.lit "end") row = none)
    (hcores : valueOf id (.lit "core_id") row = none)
    (hfields : valueOf id (.lit "fields") row = none) : AddsListed row d := by
  unfold AddsListed endsPlugin coreTexts specCounts
  rw [hend, hcores, hfields]
  cases d with
  | coreId core_ids => cases hd
  | fields fields => cases hd
  | endPlugin => cases hd
  | _ => exact ⟨iff_of_false nofun nofun, rfl, rfl⟩

/-- What a row has for a key that is not its own. -/
theorem valueOf_other (cut : CStr → CStr) {key name value : CStr}
    (hsplit : splitRow row = some (name, value)) (h : cut name ≠ key) :
    valueOf cut key row = none := by
  unfold valueOf
  rw [hsplit]
  exact if_neg fun hboth => h hboth.1

/-- What a row has for a key, as a list. -/
theorem toList_valueOf (cut : CStr → CStr) {key name value : CStr}
    (hsplit : splitRow row = some (key, value)) : (valueOf cut name row).toList =
      if cut key = name ∧ value ≠ .empty then [value] else [] := by
  unfold valueOf
  rw [hsplit]
  dsimp only
  split
  · rfl
  · rfl

theorem valueOf_own (cut : CStr → CStr) {name value : CStr}
    (hsplit : splitRow row = some (name, value)) (h : value ≠ .empty) :
    valueOf cut (cut name) row = some value := by
  unfold valueOf
  rw [hsplit]
  exact if_pos ⟨rfl, h⟩

theorem valueOf_empty {cut : CStr → CStr} {key name : CStr}
    (hsplit : splitRow row = some (name, .empty)) : valueOf cut key row = none := by
  unfold valueOf
  rw [hsplit]
  exact if_neg fun hboth => hboth.2 rfl

/-- A row that has a value for a key splits into the two. -/
theorem splitRow_of_valueOf {key : CStr} (h : (valueOf id key row).isSome) :
    ∃ value, splitRow row = some (key, value) ∧ value ≠ .empty := by
  unfold valueOf at h
  cases hsplit : splitRow row with
  | none =>
    rw [hsplit] at h
    cases h
  | some pair =>
    obtain ⟨name, value⟩ := pair
    rw [hsplit] at h
    dsimp only [id] at h
    split at h
    · next hown => exact ⟨value, hown.1 ▸ rfl, hown.2⟩
    · cases h

/-- The core ids a value lists are its texts in brackets. -/
theorem addedCores_of_loadCores {value : CStr} (h : loadCores value = .ok d) :
    d ≠ .endPlugin ∧ d.addedFields = [] ∧
      d.addedCores = ((bracketed none value.bytes).getD []).map coreNumber := by
  unfold loadCores at h
  rw [readCoreIds_eq_bracketed value (Nat.le_refl _)] at h
  cases hinners : bracketed none value.bytes with
  | none =>
    rw [hinners] at h
    cases h
  | some inners =>
    rw [hinners] at h
    cases inners with
    | nil =>
      cases h
      exact ⟨nofun, rfl, rfl⟩
    | cons inner inners =>
      cases h
      exact ⟨nofun, rfl, rfl⟩

/-- The fields a value lists are as many as its specifications. -/
theorem addedFields_of_loadFields {value : CStr} (h : loadFields value = .ok d) :
    value ≠ .empty ∧ d ≠ .endPlugin ∧ d.addedCores = [] ∧
      d.addedFields = [((specBodies .outside value.bytes).getD []).length] := by
  have hloop := fieldsLoop_eq_bodies value.strlen value.bytes [] none (Nat.le_refl _)
    value.nulFree
  simp only [List.nil_append, List.length_nil, Option.isSome_none] at hloop
  unfold loadFields at h
  split at h
  · cases h
  · next hvalue =>
    dsimp only at h
    generalize fieldsLoop value.strlen _ _ _ = result at hloop h
    cases result with
    | none => cases h
    | some result =>
      obtain ⟨mem, slots⟩ := result
      cases h
      refine ⟨hvalue, nofun, rfl, ?_⟩
      obtain ⟨bodies, hbodies, hlength⟩ := Option.map_eq_some_iff.mp hloop.symm
      obtain ⟨hsome, -⟩ := Option.filter_eq_some_iff.mp hbodies
      rw [hsome]
      show [(slots.map (·.read mem)).length] = [bodies.length]
      rw [List.length_map, hlength]

section

variable {key value : CStr}

theorem addsListed_cores (hsplit : splitRow row = some (.lit "core_id", value))
    (h : loadCores value = .ok d) : AddsListed row d := by
  have hend : CStr.lit "core_id" ≠ .lit "end" := by decide
  have hfields : CStr.lit "core_id" ≠ .lit "fields" := by decide
  obtain ⟨hd, hcounts, hadded⟩ := addedCores_of_loadCores h
  unfold AddsListed endsPlugin coreTexts specCounts
  rw [valueOf_other id hsplit hend, valueOf_other id hsplit hfields, hadded,
    hcounts]
  refine ⟨iff_of_false hd nofun, ?_, rfl⟩
  by_cases hvalue : value = .empty
  · subst hvalue
    rw [valueOf_empty hsplit]
    rfl
  · rw [show valueOf id (.lit "core_id") row = some value from valueOf_own id hsplit hvalue]

theorem addsListed_fields (hsplit : splitRow row = some (.lit "fields", value))
    (h : loadFields value = .ok d) : AddsListed row d := by
  have hend : CStr.lit "fields" ≠ .lit "end" := by decide
  have hcores : CStr.lit "fields" ≠ .lit "core_id" := by decide
  obtain ⟨hvalue, hd, hadded, hcounts⟩ := addedFields_of_loadFields h
  unfold AddsListed endsPlugin coreTexts specCounts
  rw [valueOf_other id hsplit hend, valueOf_other id hsplit hcores, hadded,
    hcounts, show valueOf id (.lit "fields") row = some value from valueOf_own id hsplit hvalue]
  exact ⟨iff_of_false hd nofun, rfl, rfl⟩

theorem addsListed_other (hsplit : splitRow row = some (key, value))
    (hcores : key ≠ .lit "core_id") (hfields : key ≠ .lit "fields")
    (h : ReaderOutcome key value (.ok d)) : AddsListed row d := by
  have hstored := h.stored
  by_cases hend : key = .lit "end" ∧ value ≠ .empty
  · rw [if_pos hend] at hstored
    obtain ⟨rfl, hvalue⟩ := hend
    subst hstored
    unfold AddsListed endsPlugin coreTexts specCounts
    rw [valueOf_other id hsplit hcores, valueOf_other id hsplit hfields,
      show valueOf id (.lit "end") row = some value from valueOf_own id hsplit hvalue]
    exact ⟨iff_of_true rfl rfl, rfl, rfl⟩
  · rw [if_neg hend] at hstored
    refine addsListed_plain hstored ?_ (valueOf_other id hsplit hcores)
      (valueOf_other id hsplit hfields)
    unfold valueOf
    rw [hsplit]
    exact if_neg hend

end

/-- A ROW ADDS what its text lists. -/
theorem addsListed_of_load (h : loadDirective inet_aton row = .ok d) : AddsListed row d := by
  cases hsplit : splitRow row with
  | none =>
    rw [loadDirective_keyless hsplit] at h
    have hnone (key : CStr) : valueOf id key row = none := by
      unfold valueOf
      rw [hsplit]
    split at h
    · cases h
      exact addsListed_plain rfl (hnone _) (hnone _) (hnone _)
    · cases h
  | some pair =>
    obtain ⟨key, value⟩ := pair
    by_cases hcores : key = .lit "core_id"
    · subst hcores
      rw [loadDirective_cores hsplit] at h
      exact addsListed_cores hsplit h
    · by_cases hfields : key = .lit "fields"
      · subst hfields
        rw [loadDirective_fields hsplit] at h
        exact addsListed_fields hsplit h
      · rw [loadDirective_other hsplit hcores hfields] at h
        have houtcome : ReaderOutcome key value (readDirective inet_aton row) :=
          readDirective_outcome hsplit hcores hfields
        rw [h] at houtcome
        exact addsListed_other hsplit hcores hfields houtcome

end

/-! ## The slot a row uses -/

/-- Does a directive fill the regex that is not finished? -/
def Directive.ofRegex : Directive → Bool
  | .regexId _ | .description _ | .precheck _ | .regexp _ | .fields _ => true
  | _ => false

/-- A directive stores something, and of a regex, where the row does. -/
structure UsesSlot (row : CStr) (d : Directive) : Prop where
  stores : d ≠ .ignored ↔ storesRow row
  ofRegex : d.ofRegex ↔ regexRow row

section

variable {inet_aton : CStr → Option UInt32} {row key value : CStr} {d : Directive}

/-- What a row with a key uses is for its key and value to say. -/
theorem usesSlot_of_split (hsplit : splitRow row = some (key, value))
    (hstores : d ≠ .ignored ↔ storesValue key value) (hregex : d.ofRegex ↔ key ∈ regexKeys) :
    UsesSlot row d where
  stores := by
    unfold storesRow
    rw [hsplit]
    exact hstores
  ofRegex := by
    unfold regexRow
    rw [hsplit]
    exact hregex.trans decide_eq_true_iff.symm

theorem usesSlot_of_readText (hsplit : splitRow row = some (key, value))
    {store : CStr → Directive}
    (hstore : store value ≠ .ignored ∧ (store value).ofRegex = false) (hkey : key ∉ regexKeys)
    (hvalue : storesValue key value = decide (value ≠ .empty))
    (h : readText store value = .ok d) : UsesSlot row d := by
  cases h
  refine usesSlot_of_split hsplit ?_ ?_
  · rw [hvalue, decide_eq_true_iff]
    split
    · next hempty => exact iff_of_false (fun hd => hd rfl) (fun hne => hne hempty)
    · next hempty => exact iff_of_true hstore.1 hempty
  · refine iff_of_false ?_ hkey
    split
    · exact Bool.false_ne_true
    · rw [hstore.2]
      exact Bool.false_ne_true

theorem usesSlot_of_readFlag (hsplit : splitRow row = some (key, value))
    {store : Bool → Directive}
    (hstore : ∀ flag, store flag ≠ .ignored ∧ (store flag).ofRegex = false)
    (hkey : key ∉ regexKeys)
    (hvalue : storesValue key value = decide (value ∈ [CStr.lit "true", CStr.lit "false"]))
    (h : readFlag store value = .ok d) : UsesSlot row d := by
  cases h
  refine usesSlot_of_split hsplit ?_ ?_
  · rw [hvalue, decide_eq_true_iff, List.mem_cons, List.mem_singleton]
    split
    · next htrue => exact iff_of_true (hstore true).1 (.inl htrue)
    · next htrue =>
      split
      · next hfalse => exact iff_of_true (hstore false).1 (.inr hfalse)
      · next hfalse => exact iff_of_false (fun hd => hd rfl) (fun hor => hor.elim htrue hfalse)
  · refine iff_of_false ?_ hkey
    split
    · rw [(hstore true).2]
      exact Bool.false_ne_true
    · split
      · rw [(hstore false).2]
        exact Bool.false_ne_true
      · exact Bool.false_ne_true

theorem usesSlot_of_regex (hsplit : splitRow row = some (key, value)) (hd : d.ofRegex)
    (hkey : key ∈ regexKeys) : UsesSlot row d := by
  refine usesSlot_of_split hsplit (iff_of_true ?_ ?_) (iff_of_true hd hkey)
  · rintro rfl
    cases hd
  · unfold storesValue
    rw [if_pos hkey]

theorem usesSlot_of_readRegexText (hsplit : splitRow row = some (key, value))
    {store : CStr → Directive} (hstore : (store value).ofRegex) (hkey : key ∈ regexKeys)
    (h : readRegexText store value = .ok d) : UsesSlot row d := by
  unfold readRegexText at h
  split at h
  · cases h
  · cases h
    exact usesSlot_of_regex hsplit hstore hkey

/-- THE READERS store what their values say. -/
theorem usesSlot_of_reader {read : Reader} (hsplit : splitRow row = some (key, value))
    (hcores : key ≠ .lit "core_id") (hfields : key ≠ .lit "fields")
    (hread : (pluginReaders inet_aton ++ regexReaders).lookup key = some read)
    (h : read value = .ok d) : UsesSlot row d := by
  have hmem := Lib.Assoc.mem_of_lookup hread
  simp only [pluginReaders, regexReaders, List.cons_append, List.nil_append, List.mem_cons,
    Prod.mk.injEq, List.not_mem_nil, or_false] at hmem
  rcases hmem with ⟨rfl, rfl⟩ | ⟨rfl, rfl⟩ | ⟨rfl, rfl⟩ | ⟨hkey, -⟩ | ⟨rfl, rfl⟩ | ⟨rfl, rfl⟩ |
    ⟨rfl, rfl⟩ | ⟨rfl, rfl⟩ | ⟨rfl, rfl⟩ | ⟨rfl, rfl⟩ | ⟨rfl, rfl⟩ | ⟨hkey, -⟩
  · exact usesSlot_of_readText hsplit ⟨by simp, rfl⟩ (by decide) rfl h
  · exact usesSlot_of_readText hsplit ⟨by simp, rfl⟩ (by decide) rfl h
  · exact usesSlot_of_readText hsplit ⟨by simp, rfl⟩ (by decide) rfl h
  · exact absurd hkey hcores
  · exact usesSlot_of_readFlag hsplit (fun _ => ⟨by simp, rfl⟩) (by decide) rfl h
  · exact usesSlot_of_readFlag hsplit (fun _ => ⟨by simp, rfl⟩) (by decide) rfl h
  · exact usesSlot_of_readText hsplit ⟨by simp, rfl⟩ (by decide) rfl h
  · exact usesSlot_of_readRegexText hsplit rfl (by decide) h
  · exact usesSlot_of_readRegexText hsplit rfl (by decide) h
  · cases h
    exact usesSlot_of_regex hsplit rfl (by decide)
  · exact usesSlot_of_readRegexText hsplit rfl (by decide) h
  · exact absurd hkey hfields

/-- A value of a key that no reader has is not stored. -/
theorem storesValue_of_none (hread : (pluginReaders inet_aton ++ regexReaders).lookup key = none) :
    storesValue key value = false ∧ key ∉ regexKeys := by
  have hnot {names : List CStr}
      (h : ∀ name ∈ names, ((pluginReaders inet_aton ++ regexReaders).lookup name).isSome) :
      key ∉ names := by
    intro hmem
    have hsome := h key hmem
    rw [hread] at hsome
    cases hsome
  have hregex : key ∉ regexKeys := by
    apply hnot
    intro name hname
    simp only [regexKeys, List.mem_cons, List.not_mem_nil, or_false] at hname
    rcases hname with rfl | rfl | rfl | rfl | rfl
    all_goals rfl
  have hplugin : key ∉ [CStr.lit "core_id", .lit "all_nondedicated_cores", .lit "optimized",
      .lit "filename", .lit "plugin_id", .lit "listen_ip", .lit "end"] := by
    apply hnot
    intro name hname
    simp only [List.mem_cons, List.not_mem_nil, or_false] at hname
    rcases hname with rfl | rfl | rfl | rfl | rfl | rfl | rfl
    all_goals rfl
  simp only [List.mem_cons, List.not_mem_nil, or_false, not_or] at hplugin
  obtain ⟨hcores, hdedicated, hoptimized, hfilename, hid, hip, hend⟩ := hplugin
  refine ⟨?_, hregex⟩
  unfold storesValue
  rw [if_neg hregex, if_neg hcores, if_neg (by simp [hdedicated, hoptimized]),
    if_neg (by simp [hfilename, hid, hip, hend])]

theorem usesSlot_of_loadCores (hsplit : splitRow row = some (.lit "core_id", value))
    (h : loadCores value = .ok d) : UsesSlot row d := by
  have hvalue : storesValue (.lit "core_id") value =
      decide ((bracketed none value.bytes).getD [] ≠ []) := rfl
  unfold loadCores at h
  rw [readCoreIds_eq_bracketed value (Nat.le_refl _)] at h
  cases hinners : bracketed none value.bytes with
  | none =>
    rw [hinners] at h
    cases h
  | some inners =>
    rw [hinners] at h hvalue
    refine usesSlot_of_split hsplit ?_ ?_
    · rw [hvalue, decide_eq_true_iff]
      cases inners with
      | nil =>
        cases h
        exact iff_of_false (fun hd => hd rfl) (fun hne => hne rfl)
      | cons inner inners =>
        cases h
        exact iff_of_true (by simp) (by simp)
    · refine iff_of_false ?_ (by decide)
      cases inners with
      | nil =>
        cases h
        exact Bool.false_ne_true
      | cons inner inners =>
        cases h
        exact Bool.false_ne_true

theorem usesSlot_of_loadFields (hsplit : splitRow row = some (.lit "fields", value))
    (h : loadFields value = .ok d) : UsesSlot row d := by
  refine usesSlot_of_regex hsplit ?_ (by decide)
  unfold loadFields at h
  split at h
  · cases h
  · dsimp only at h
    split at h
    · cases h
    · cases h
      rfl

/-- A ROW USES what its text says. -/
theorem usesSlot_of_load (h : loadDirective inet_aton row = .ok d) : UsesSlot row d := by
  cases hsplit : splitRow row with
  | none =>
    rw [loadDirective_keyless hsplit] at h
    split at h
    · cases h
      refine ⟨iff_of_false (fun hd => hd rfl) ?_, iff_of_false Bool.false_ne_true ?_⟩
      · unfold storesRow
        rw [hsplit]
        exact Bool.false_ne_true
      · unfold regexRow
        rw [hsplit]
        exact Bool.false_ne_true
    · cases h
  | some pair =>
    obtain ⟨key, value⟩ := pair
    by_cases hcores : key = .lit "core_id"
    · subst hcores
      rw [loadDirective_cores hsplit] at h
      exact usesSlot_of_loadCores hsplit h
    · by_cases hfields : key = .lit "fields"
      · subst hfields
        rw [loadDirective_fields hsplit] at h
        exact usesSlot_of_loadFields hsplit h
      · rw [loadDirective_other hsplit hcores hfields] at h
        cases hlookup : (pluginReaders inet_aton ++ regexReaders).lookup key with
        | none =>
          rw [readDirective_of_none hsplit hlookup] at h
          cases h
          obtain ⟨hstores, hkey⟩ : storesValue key value = false ∧ key ∉ regexKeys :=
            storesValue_of_none hlookup
          exact usesSlot_of_split hsplit
            (iff_of_false (fun hd => hd rfl) (by rw [hstores]; exact Bool.false_ne_true))
            (iff_of_false Bool.false_ne_true hkey)
        | some read =>
          rw [readDirective_of_some hsplit hlookup] at h
          exact usesSlot_of_reader hsplit hcores hfields hlookup h

end

end LogCollector
