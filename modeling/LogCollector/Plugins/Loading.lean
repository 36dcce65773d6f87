import LogCollector.Plugins.Delimiters

/-!
# The loader without the ends of its arrays

No handler looks whether an index is behind the end of an array. `loadPlugin` is
`evaluate_plugin` with arrays that are as long as what a file lists: it says which
pointers are used and what the counters come to, whatever lies behind the arrays.
`readDirective` is `loadDirective` with the ends put back (`readDirective_eq`), and a round
that `evaluate_plugin` makes within its arrays is made the same (`evaluateRow_ok`).
-/

namespace LogCollector

/-- `plugin_key_core_id`; a value has no more brackets than characters. -/
def loadCores : Reader := fun value =>
  match readCoreIds value.strlen value with
  | none => .error .badAccess
  | some [] => .ok .ignored
  | some core_ids => .ok (.coreId core_ids)

/-- `regex_key_fields`. -/
def loadFields : Reader := fun value =>
  if value = .empty then .error .exit
  else
    let mem := value.bytes ++ [0]
    match fieldsLoop value.strlen mem none (strchr mem 0 '[') with
    | none => .error .badAccess
    | some (mem, slots) => .ok (.fields (slots.map (·.read mem)))

/-- What a row stores, however much it lists. -/
def loadDirective (inet_aton : CStr → Option UInt32) (row : CStr) : Except Fault Directive :=
  match splitRow row with
  | none => readDirective inet_aton row
  | some (key, value) =>
    if key = .lit "core_id" then loadCores value
    else if key = .lit "fields" then loadFields value
    else readDirective inet_aton row

/-- The table after a directive, whatever its size. -/
def PluginState.load (s : PluginState) (d : Directive) : PluginState where
  entries := s.entries ++ (if d = .endPlugin then [s.slot] else [])
  slot := s.slot.after d

/-- A round of `loadPlugin`. -/
def loadRow (inet_aton : CStr → Option UInt32) (s : PluginState) (row : CStr) :
    Except Fault PluginState :=
  (loadDirective inet_aton row).map s.load

/-- `evaluate_plugin`, as if no array had an end. -/
def loadPlugin (inet_aton : CStr → Option UInt32) (s : PluginState) (rows : List CStr) :
    Except Fault PluginState :=
  rows.foldlM (loadRow inet_aton) s

/-- The keys of a regex that must have a value. -/
def mandatoryKeys : List CStr :=
  [.lit "regex_id", .lit "description", .lit "regexp", .lit "fields"]

/-- A directive that adds nothing to an array and finishes nothing. -/
def Directive.plain : Directive → Bool
  | .coreId _ => false
  | .fields _ => false
  | .endPlugin => false
  | _ => true

/-- A directive that the arrays its handler fills have room for. -/
def Directive.fits : Directive → Bool
  | .coreId listed => listed.length ≤ MAX_PLUGIN_CORE_CNT
  | .fields listed => listed.length ≤ MAX_REGEX_FIELDS
  | _ => true

/-! ## Room -/

/-- With less room the loop stops at fewer fields. -/
theorem fieldsLoop_filter (room room' : Nat) (hle : room ≤ room') (mem : List UInt8)
    (temp7 delim : Option Nat) : fieldsLoop room mem temp7 delim =
      (fieldsLoop room' mem temp7 delim).filter fun result => result.2.length ≤ room := by
  induction room generalizing room' mem temp7 delim with
  | zero =>
    cases delim with
    | none => cases room' <;> rfl
    | some delim =>
      cases room' with
      | zero => rfl
      | succ room' =>
        simp only [fieldsLoop]
        cases fieldStep mem temp7 delim with
        | none => rfl
        | some step =>
          obtain ⟨mem, temp7, slot, temp3⟩ := step
          rw [Option.bind_some]
          dsimp only
          generalize fieldsLoop room' mem temp7 _ = result
          cases result with
          | none => rfl
          | some result => rfl
  | succ room ih =>
    obtain ⟨room', rfl⟩ : ∃ k, room' = k + 1 := Nat.exists_eq_add_one.mpr (by omega)
    cases delim with
    | none => rfl
    | some delim =>
      simp only [fieldsLoop]
      cases fieldStep mem temp7 delim with
      | none => rfl
      | some step =>
        obtain ⟨mem, temp7, slot, temp3⟩ := step
        rw [Option.bind_some, Option.bind_some]
        dsimp only
        rw [ih room' (by omega)]
        generalize fieldsLoop room' mem temp7 _ = result
        cases result with
        | none => rfl
        | some result =>
          by_cases h : result.2.length ≤ room
          · simp [Option.filter, h]
          · simp [Option.filter, h]

section

variable (value : CStr)

/-- THE NUMBERS OF A VALUE, with all the room they need. -/
theorem readCoreIds_eq_bracketed {room : Nat} (hroom : value.strlen ≤ room) :
    readCoreIds room value =
      (bracketed none value.bytes).map
        (List.map fun inner => (parseDecimal (.ofBytes inner)).toInt32) :=
  coreIdsLoop_eq_bracketed room value.bytes [] hroom value.nulFree

/-- The arrays of a value of `core_id` have an end. -/
theorem readCoreIds_max : readCoreIds MAX_PLUGIN_CORE_CNT value =
    (readCoreIds value.strlen value).filter fun core_ids =>
      core_ids.length ≤ MAX_PLUGIN_CORE_CNT := by
  have hroom : value.strlen ≤ value.strlen + MAX_PLUGIN_CORE_CNT := Nat.le_add_right _ _
  rw [readCoreIds_eq_bracketed value (Nat.le_refl _), ← readCoreIds_eq_bracketed value hroom]
  exact coreIdsLoop_eq _ _ (Nat.le_add_left _ _) _ _

/-- A loop that has room for a field a character has room for all. -/
theorem fieldsLoop_strlen {room : Nat} (hroom : value.strlen ≤ room) :
    fieldsLoop room (value.bytes ++ [0]) none (strchr (value.bytes ++ [0]) 0 '[') =
      fieldsLoop value.strlen (value.bytes ++ [0]) none (strchr (value.bytes ++ [0]) 0 '[') := by
  have hlarge := fieldsLoop_eq_bodies room value.bytes [] none hroom value.nulFree
  have hsmall := fieldsLoop_eq_bodies value.strlen value.bytes [] none (Nat.le_refl _) value.nulFree
  have hfilter := fieldsLoop_filter value.strlen room hroom (value.bytes ++ [0]) none
    (strchr (value.bytes ++ [0]) 0 '[')
  have hsame := hlarge.trans hsmall.symm
  simp only [List.nil_append, List.length_nil] at hsame
  generalize fieldsLoop value.strlen _ _ _ = small at hsame hfilter ⊢
  generalize fieldsLoop room _ _ _ = large at hsame hfilter ⊢
  cases large with
  | none => exact hfilter.symm
  | some result =>
    rw [Option.filter_some] at hfilter
    split at hfilter
    · exact hfilter.symm
    · subst hfilter
      cases hsame

/-- The array of a value of `fields` has an end. -/
theorem fieldsLoop_max :
    fieldsLoop MAX_REGEX_FIELDS (value.bytes ++ [0]) none (strchr (value.bytes ++ [0]) 0 '[') =
      (fieldsLoop value.strlen (value.bytes ++ [0]) none
        (strchr (value.bytes ++ [0]) 0 '[')).filter
          fun result => result.2.length ≤ MAX_REGEX_FIELDS := by
  have hroom : value.strlen ≤ value.strlen + MAX_REGEX_FIELDS := Nat.le_add_right _ _
  rw [← fieldsLoop_strlen value hroom]
  exact fieldsLoop_filter _ _ (Nat.le_add_left _ _) _ _ _

end

/-! ## The arrays put back -/

section

variable {inet_aton : CStr → Option UInt32}

/-- A handler that fills no array stores something, or ends the program. -/
theorem readText_ok {store : CStr → Directive} (hstore : ∀ value, (store value).plain)
    (value : CStr) : ∃ d, readText store value = .ok d ∧ d.plain := by
  refine ⟨_, rfl, ?_⟩
  split
  · rfl
  · exact hstore value

theorem readFlag_ok {store : Bool → Directive} (hstore : ∀ flag, (store flag).plain)
    (value : CStr) : ∃ d, readFlag store value = .ok d ∧ d.plain := by
  refine ⟨_, rfl, ?_⟩
  split
  · exact hstore true
  · split
    · exact hstore false
    · rfl

theorem readRegexText_outcome {store : CStr → Directive} (hstore : ∀ value, (store value).plain)
    (value : CStr) : if value = .empty then readRegexText store value = .error .exit
      else ∃ d, readRegexText store value = .ok d ∧ d.plain := by
  unfold readRegexText
  split
  · rfl
  · exact ⟨_, rfl, hstore value⟩

/-- What the reader of a key makes of a value, if it fills no array. -/
def ReaderOutcome (key value : CStr) (result : Except Fault Directive) : Prop :=
  if key ∈ mandatoryKeys ∧ value = .empty then result = .error .exit
  else ∃ d, result = .ok d ∧
    if key = .lit "end" ∧ value ≠ .empty then d = .endPlugin else d.plain

theorem readerOutcome_of_plain {key value : CStr} {result : Except Fault Directive}
    (hkey : key ∉ mandatoryKeys) (hend : key ≠ .lit "end")
    (h : ∃ d, result = .ok d ∧ d.plain) : ReaderOutcome key value result := by
  unfold ReaderOutcome
  rw [if_neg fun h => hkey h.1]
  simpa only [hend, false_and, if_false] using h

theorem readerOutcome_of_mandatory {key value : CStr} {result : Except Fault Directive}
    (hkey : key ∈ mandatoryKeys) (hend : key ≠ .lit "end")
    (h : if value = .empty then result = .error .exit else ∃ d, result = .ok d ∧ d.plain) :
    ReaderOutcome key value result := by
  unfold ReaderOutcome
  simpa only [hkey, hend, true_and, false_and, if_false] using h

/-- THE READERS that fill no array: an empty value of a key that must have one ends the
program, and every other value is stored or ignored. -/
theorem reader_outcome {key : CStr} (value : CStr) {read : Reader} (hcores : key ≠ .lit "core_id")
    (hfields : key ≠ .lit "fields")
    (hread : (pluginReaders inet_aton ++ regexReaders).lookup key = some read) :
    ReaderOutcome key value (read value) := by
  have hmem := Lib.Assoc.mem_of_lookup hread
  simp only [pluginReaders, regexReaders, List.cons_append, List.nil_append, List.mem_cons,
    Prod.mk.injEq, List.not_mem_nil, or_false] at hmem
  rcases hmem with ⟨rfl, rfl⟩ | ⟨rfl, rfl⟩ | ⟨rfl, rfl⟩ | ⟨hkey, -⟩ | ⟨rfl, rfl⟩ | ⟨rfl, rfl⟩ |
    ⟨rfl, rfl⟩ | ⟨rfl, rfl⟩ | ⟨rfl, rfl⟩ | ⟨rfl, rfl⟩ | ⟨rfl, rfl⟩ | ⟨hkey, -⟩
  · exact readerOutcome_of_plain (by decide) (by decide) (readText_ok (fun _ => rfl) value)
  · exact readerOutcome_of_plain (by decide) (by decide) (readText_ok (fun _ => rfl) value)
  · exact readerOutcome_of_plain (by decide) (by decide) (readText_ok (fun _ => rfl) value)
  · exact absurd hkey hcores
  · exact readerOutcome_of_plain (by decide) (by decide) (readFlag_ok (fun _ => rfl) value)
  · exact readerOutcome_of_plain (by decide) (by decide) (readFlag_ok (fun _ => rfl) value)
  · have hfree : CStr.lit "end" ∉ mandatoryKeys := by decide
    unfold ReaderOutcome readText
    rw [if_neg fun h => hfree h.1]
    refine ⟨_, rfl, ?_⟩
    by_cases hvalue : value = .empty
    · rw [if_pos hvalue, if_neg fun h => h.2 hvalue]
      rfl
    · rw [if_neg hvalue, if_pos ⟨rfl, hvalue⟩]
  · exact readerOutcome_of_mandatory (by decide) (by decide)
      (readRegexText_outcome (fun _ => rfl) value)
  · exact readerOutcome_of_mandatory (by decide) (by decide)
      (readRegexText_outcome (fun _ => rfl) value)
  · exact readerOutcome_of_plain (by decide) (by decide) ⟨_, rfl, rfl⟩
  · exact readerOutcome_of_mandatory (by decide) (by decide)
      (readRegexText_outcome (fun _ => rfl) value)
  · exact absurd hkey hfields

/-- What is stored then. -/
theorem ReaderOutcome.stored {key value : CStr} {d : Directive}
    (h : ReaderOutcome key value (.ok d)) :
    if key = .lit "end" ∧ value ≠ .empty then d = .endPlugin else d.plain := by
  unfold ReaderOutcome at h
  split at h
  · cases h
  · obtain ⟨d', hd, hstored⟩ := h
    cases hd
    exact hstored

theorem Directive.fits_of_plain {d : Directive} (h : d.plain) : d.fits := by
  cases d with
  | coreId core_ids => cases h
  | fields fields => cases h
  | _ => rfl

/-- A directive that is read as it is loaded. -/
def fitted (d : Directive) : Except Fault Directive := if d.fits then .ok d else .error .badAccess

theorem readCores_eq (value : CStr) : readCores value = (loadCores value).bind fitted := by
  unfold readCores loadCores
  rw [readCoreIds_max]
  cases readCoreIds value.strlen value with
  | none => rfl
  | some core_ids =>
    cases core_ids with
    | nil => rfl
    | cons id core_ids =>
      show _ = fitted (.coreId (id :: core_ids))
      have hlength : (Directive.coreId (id :: core_ids)).fits =
          decide ((id :: core_ids).length ≤ MAX_PLUGIN_CORE_CNT) := rfl
      unfold fitted
      rw [hlength, Option.filter_some]
      by_cases hfits : decide ((id :: core_ids).length ≤ MAX_PLUGIN_CORE_CNT)
      · rw [if_pos hfits, if_pos hfits]
      · rw [if_neg hfits, if_neg hfits]

theorem readFields_eq (value : CStr) : readFields value = (loadFields value).bind fitted := by
  unfold readFields loadFields regexKeyFields
  by_cases hempty : value = .empty
  · rw [if_pos hempty, if_pos hempty]
    rfl
  · rw [if_neg hempty, if_neg hempty]
    dsimp only
    rw [fieldsLoop_max]
    generalize fieldsLoop value.strlen _ _ _ = result
    cases result with
    | none => rfl
    | some result =>
      obtain ⟨mem, slots⟩ := result
      show _ = fitted (.fields (slots.map (·.read mem)))
      unfold fitted
      have hlength : (Directive.fields (slots.map (·.read mem))).fits =
          decide (slots.length ≤ MAX_REGEX_FIELDS) :=
        congrArg (fun n => decide (n ≤ MAX_REGEX_FIELDS)) (List.length_map _)
      rw [hlength, Option.filter_some]
      by_cases hfits : decide (slots.length ≤ MAX_REGEX_FIELDS)
      · rw [if_pos hfits, if_pos hfits]
        rfl
      · rw [if_neg hfits, if_neg hfits]
        rfl

/-- A row that splits is not empty. -/
theorem ne_empty_of_splitRow {row : CStr} {pair : CStr × CStr} (h : splitRow row = some pair) :
    row ≠ .empty := by
  rintro rfl
  cases h

/-- A row with a key is read by the reader of this key, and ignored where there is none. -/
theorem readDirective_of_some {row key value : CStr} {read : Reader}
    (hsplit : splitRow row = some (key, value))
    (hlookup : (pluginReaders inet_aton ++ regexReaders).lookup key = some read) :
    readDirective inet_aton row = read value := by
  unfold readDirective
  rw [if_neg (ne_empty_of_splitRow hsplit), hsplit]
  dsimp only
  rw [hlookup]

theorem readDirective_of_none {row key value : CStr}
    (hsplit : splitRow row = some (key, value))
    (hlookup : (pluginReaders inet_aton ++ regexReaders).lookup key = none) :
    readDirective inet_aton row = .ok .ignored := by
  unfold readDirective
  rw [if_neg (ne_empty_of_splitRow hsplit), hsplit]
  dsimp only
  rw [hlookup]

/-- A ROW WITH A KEY THAT FILLS NO ARRAY is read by the reader of its key, or ignored. -/
theorem readDirective_outcome {row key value : CStr} (hsplit : splitRow row = some (key, value))
    (hcores : key ≠ .lit "core_id") (hfields : key ≠ .lit "fields") :
    ReaderOutcome key value (readDirective inet_aton row) := by
  cases hlookup : (pluginReaders inet_aton ++ regexReaders).lookup key with
  | none =>
    rw [readDirective_of_none hsplit hlookup]
    have hend : key ≠ .lit "end" := by
      rintro rfl
      cases hlookup
    refine readerOutcome_of_plain ?_ hend ⟨_, rfl, rfl⟩
    intro hmandatory
    simp only [mandatoryKeys, List.mem_cons, List.not_mem_nil, or_false] at hmandatory
    rcases hmandatory with rfl | rfl | rfl | rfl
    all_goals cases hlookup
  | some read =>
    rw [readDirective_of_some hsplit hlookup]
    exact reader_outcome value hcores hfields hlookup

section

variable {row key value : CStr}

theorem loadDirective_cores (hsplit : splitRow row = some (.lit "core_id", value)) :
    loadDirective inet_aton row = loadCores value := by
  unfold loadDirective
  rw [hsplit]
  exact if_pos rfl

theorem loadDirective_fields (hsplit : splitRow row = some (.lit "fields", value)) :
    loadDirective inet_aton row = loadFields value := by
  have hne : CStr.lit "fields" ≠ .lit "core_id" := by decide
  unfold loadDirective
  rw [hsplit]
  exact (if_neg hne).trans (if_pos rfl)

theorem loadDirective_other (hsplit : splitRow row = some (key, value))
    (hcores : key ≠ .lit "core_id") (hfields : key ≠ .lit "fields") :
    loadDirective inet_aton row = readDirective inet_aton row := by
  unfold loadDirective
  rw [hsplit]
  exact (if_neg hcores).trans (if_neg hfields)

/-- A row without a key is empty, or ends the program. -/
theorem loadDirective_keyless (hsplit : splitRow row = none) :
    loadDirective inet_aton row = if row = .empty then .ok .ignored else .error .badAccess := by
  unfold loadDirective readDirective
  rw [hsplit]

end

/-- A ROW IS READ as it is loaded, with the ends of the arrays put back. -/
theorem readDirective_eq (row : CStr) :
    readDirective inet_aton row = (loadDirective inet_aton row).bind fitted := by
  have hbound (h : ∀ d, readDirective inet_aton row = .ok d → d.fits) :
      readDirective inet_aton row = (readDirective inet_aton row).bind fitted := by
    cases hread : readDirective inet_aton row with
    | error fault => rfl
    | ok d =>
      show _ = fitted d
      rw [fitted, if_pos (h d hread)]
  cases hsplit : splitRow row with
  | none =>
    rw [loadDirective_keyless hsplit]
    unfold readDirective
    rw [hsplit]
    split
    · rfl
    · rfl
  | some pair =>
    obtain ⟨key, value⟩ := pair
    by_cases hcores : key = .lit "core_id"
    · subst hcores
      rw [loadDirective_cores hsplit, readDirective_of_some hsplit rfl]
      exact readCores_eq value
    · by_cases hfields : key = .lit "fields"
      · subst hfields
        rw [loadDirective_fields hsplit, readDirective_of_some hsplit rfl]
        exact readFields_eq value
      · rw [loadDirective_other hsplit hcores hfields]
        apply hbound
        intro d h
        have houtcome : ReaderOutcome key value (readDirective inet_aton row) :=
          readDirective_outcome hsplit hcores hfields
        rw [h] at houtcome
        have hstored := houtcome.stored
        split at hstored
        · subst hstored
          rfl
        · exact d.fits_of_plain hstored

/-- A round that ends within the arrays. -/
theorem evaluateRow_ok {s s' : PluginState} {row : CStr}
    (h : evaluateRow inet_aton s row = .ok s') : loadRow inet_aton s row = .ok s' := by
  rw [evaluateRow_eq, readDirective_eq] at h
  unfold loadRow
  cases hload : loadDirective inet_aton row with
  | error fault =>
    rw [hload] at h
    cases h
  | ok d =>
    rw [hload] at h
    change (fitted d).bind (Directive.apply s) = .ok s' at h
    unfold fitted at h
    split at h
    · obtain ⟨-, rfl⟩ := apply_ok h
      rfl
    · cases h

end

end LogCollector
