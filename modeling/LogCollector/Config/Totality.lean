import LogCollector.Config.Sizes
import LogCollector.Plugins.Loading
import LogCollector.Plugins.Sanitize

/-!
# Delimiters that are not there

The handlers search for the delimiter that ends what they cut out and write a terminator
over it, whether it was found or not. A row is delimited where every search that a handler
relies on succeeds. This is a matter of its text alone, and the loaders go on or report
what they stop for exactly where the rows they come to are delimited
(`loaders_total_iff`).
-/

namespace LogCollector

/-- The loader goes on, or stops with a message. -/
def Reports {σ : Type} (result : Except Fault σ) : Prop :=
  ∀ fault, result = .error fault → fault = .exit

/-! ## Rows of a configuration file -/

/-- A bracket in the key is closed. -/
def NameClosed (key : CStr) : Prop :=
  byteOf '[' ∈ key.bytes → byteOf ']' ∈ key.bytes.dropWhile (· ≠ byteOf '[')

/-- The key without the name in brackets. -/
def nameless (key : CStr) : CStr := .ofBytes (key.bytes.takeWhile (· ≠ byteOf '['))

/-- A size that is made of the letters of its unit only. -/
def UnitOnly (value : CStr) : Prop :=
  ∃ unit ∈ [CStr.lit "MB", CStr.lit "GB"], value.strstr unit ∧ ∀ c ∈ value.bytes, c ∈ unit.bytes

def sizeKeys : List CStr := [.lit "temp_file_size", .lit "json_file_size"]

/-- A row of a configuration file whose delimiters are all there. -/
def ConfigRowDelimited (row : CStr) : Prop :=
  ∀ key value, splitRow row = some (key, value) →
    NameClosed key ∧ (nameless key ∈ sizeKeys → ¬UnitOnly value)

/-! ## Rows of a plugin file -/

/-- A row of a plugin file whose delimiters are all there. -/
def PluginRowDelimited (row : CStr) : Prop :=
  ∀ key value, splitRow row = some (key, value) →
    (key = .lit "core_id" → ∃ inners, bracketed none value.bytes = some inners) ∧
      (key = .lit "fields" →
        ∃ bodies, specBodies .outside value.bytes = some bodies ∧ bodiesReadable false bodies)

/-- What holds of the key and the value of a row, if it has them, can be tested. -/
def decidableRow {P : CStr → CStr → Prop} [∀ key value, Decidable (P key value)] (row : CStr) :
    Decidable (∀ key value, splitRow row = some (key, value) → P key value) :=
  match splitRow row with
  | none => .isTrue fun _ _ hsplit => absurd hsplit.symm (Option.some_ne_none _)
  | some (key, value) =>
    decidable_of_iff (P key value)
      ⟨fun h _ _ hsplit => by cases hsplit; exact h, fun h => h key value rfl⟩

instance (key : CStr) : Decidable (NameClosed key) := inferInstanceAs (Decidable (_ → _))

instance (value : CStr) : Decidable (UnitOnly value) :=
  inferInstanceAs (Decidable (∃ unit ∈ _, _ ∧ _))

instance (row : CStr) : Decidable (ConfigRowDelimited row) := decidableRow row

instance (value : CStr) : Decidable (∃ inners, bracketed none value.bytes = some inners) :=
  decidable_of_iff _ Option.isSome_iff_exists

instance (value : CStr) : Decidable
    (∃ bodies, specBodies .outside value.bytes = some bodies ∧ bodiesReadable false bodies) :=
  inferInstanceAs (Decidable (∃ bodies ∈ specBodies .outside value.bytes,
    bodiesReadable false bodies))

instance (row : CStr) : Decidable (PluginRowDelimited row) := decidableRow row

/-- A row of a plugin file the program stops at with a message. -/
def rejected (row : CStr) : Bool :=
  match splitRow row with
  | none => false
  | some (key, value) => decide (key ∈ mandatoryKeys ∧ value = .empty)

/-! ## Sizes -/

section

variable {value unit : CStr}

/-- No token is found among separators. -/
theorem firstToken_eq_none_iff :
    firstToken unit value = none ↔ ∀ c ∈ value.bytes, c ∈ unit.bytes := by
  have hspaces : value.bytes.dropWhile (· ∈ unit.bytes) = [] ↔
      ∀ c ∈ value.bytes, c ∈ unit.bytes := by
    rw [List.dropWhile_eq_nil_iff]
    simp only [decide_eq_true_eq]
  rw [← hspaces]
  unfold firstToken
  split
  · next h => exact iff_of_true rfl h
  · next h => exact iff_of_false nofun h

theorem sizeInUnit_outcome (unit value : CStr) (size : Int64) :
    if ∀ c ∈ value.bytes, c ∈ unit.bytes then sizeInUnit unit size value = .error .badAccess
    else ∃ stored, sizeInUnit unit size value = .ok stored := by
  unfold sizeInUnit
  by_cases h : ∀ c ∈ value.bytes, c ∈ unit.bytes
  · rw [if_pos h, firstToken_eq_none_iff.mpr h]
  · rw [if_neg h]
    cases htoken : firstToken unit value with
    | none => exact absurd (firstToken_eq_none_iff.mp htoken) h
    | some token => exact ⟨_, rfl⟩

/-- A text with an `M` is not made of the letters of the other unit. -/
theorem not_gigabytes_of_strstr (h : value.strstr (.lit "MB")) :
    ¬∀ c ∈ value.bytes, c ∈ (CStr.lit "GB").bytes := by
  intro hall
  have hM : byteOf 'M' ∈ value.bytes :=
    (of_decide_eq_true h : _ <:+: _).subset (by decide)
  exact absurd (hall _ hM) (by decide)

/-- A SIZE is stored unless it is made of the letters of its unit only. -/
theorem storedSize_outcome (value : CStr) :
    (UnitOnly value → storedSize value = .error .badAccess) ∧
      (¬UnitOnly value → ∃ size, storedSize value = .ok size) := by
  by_cases hmega : value.strstr (.lit "MB")
  · rw [storedSize_megabytes hmega]
    have houtcome := sizeInUnit_outcome (.lit "MB") value MB_SIZE
    constructor
    · rintro ⟨unit, hunit, -, hall⟩
      rcases List.mem_cons.mp hunit with rfl | hunit
      · rwa [if_pos hall] at houtcome
      · obtain rfl := List.mem_singleton.mp hunit
        exact absurd hall (not_gigabytes_of_strstr hmega)
    · intro hnot
      rwa [if_neg fun hall => hnot ⟨_, List.mem_cons_self, hmega, hall⟩] at houtcome
  · unfold storedSize
    rw [if_neg hmega]
    by_cases hgiga : value.strstr (.lit "GB")
    · rw [if_neg (ne_empty_of_strstr isUnit_gigabytes.1 hgiga), if_pos hgiga]
      have houtcome := sizeInUnit_outcome (.lit "GB") value GB_SIZE
      constructor
      · rintro ⟨unit, hunit, hstr, hall⟩
        rcases List.mem_cons.mp hunit with rfl | hunit
        · exact absurd hstr hmega
        · obtain rfl := List.mem_singleton.mp hunit
          rwa [if_pos hall] at houtcome
      · intro hnot
        have hunit : CStr.lit "GB" ∈ [CStr.lit "MB", CStr.lit "GB"] :=
          List.mem_cons_of_mem _ List.mem_cons_self
        rwa [if_neg fun hall => hnot ⟨_, hunit, hgiga, hall⟩] at houtcome
    · rw [if_neg hgiga, ite_self]
      refine ⟨?_, fun _ => ⟨_, rfl⟩⟩
      rintro ⟨unit, hunit, hstr, -⟩
      rcases List.mem_cons.mp hunit with rfl | hunit
      · exact absurd hstr hmega
      · obtain rfl := List.mem_singleton.mp hunit
        exact absurd hstr hgiga

end

/-! ## One row of a configuration file -/

section

variable {key value row : CStr} {config : ConfigData}

/-- The name is cut off where its bracket is closed. -/
theorem cutName_outcome (key : CStr) :
    (NameClosed key → cutName key = some (nameless key)) ∧
      (¬NameClosed key → cutName key = none) := by
  unfold cutName NameClosed nameless
  rcases Lib.InPlace.split_or_absent (byteOf '[') key.bytes
    with habsent | ⟨before, after, hbefore, hsplit⟩
  · rw [if_pos habsent, Lib.InPlace.takeWhile_absent habsent, CStr.ofBytes_bytes]
    exact ⟨fun _ => rfl, fun h => absurd (fun hopen => absurd hopen habsent) h⟩
  · have hopen : byteOf '[' ∈ before ++ byteOf '[' :: after :=
      List.mem_append_right before List.mem_cons_self
    have hclosed : byteOf ']' ∈ byteOf '[' :: after ↔ byteOf ']' ∈ after :=
      List.mem_cons.trans (or_iff_right (by decide))
    rw [hsplit, if_neg (not_not.mpr hopen), Lib.InPlace.takeWhile_split hbefore,
      Lib.InPlace.dropWhile_split hbefore, List.tail_cons, hclosed]
    refine ⟨fun h => if_pos (h hopen), fun h => if_neg fun hmem => h fun _ => hmem⟩

theorem textHandler_ok (store : CStr → ConfigData → ConfigData) :
    ∃ result, textHandler store value config = .ok result := by
  unfold textHandler
  split
  · exact ⟨_, rfl⟩
  · exact ⟨_, rfl⟩

/-- A handler of a size stores, unless the value is made of the letters of its unit. -/
theorem sizeKey_outcome (sizeKey : SizeKey) :
    (UnitOnly value → sizeKey.handler value config = .error .badAccess) ∧
      (¬UnitOnly value → ∃ result, sizeKey.handler value config = .ok result) := by
  rw [SizeKey.handler_eq]
  obtain ⟨hfault, hok⟩ := storedSize_outcome value
  constructor
  · intro h
    rw [hfault h]
    rfl
  · intro h
    obtain ⟨size, hsize⟩ := hok h
    rw [hsize]
    exact ⟨_, rfl⟩

/-- THE HANDLERS store, report or ignore every value but a size that is made of the letters
of its unit. -/
theorem configHandler_outcome (value : CStr) (config : ConfigData) {func : ConfigHandler}
    (hlookup : configDictionary.lookup key = some func) :
    (key ∈ sizeKeys ∧ UnitOnly value → func value config = .error .badAccess) ∧
      (¬(key ∈ sizeKeys ∧ UnitOnly value) → ∃ result, func value config = .ok result) := by
  have hmem := Lib.Assoc.mem_of_lookup hlookup
  have htext (hkey : key ∉ sizeKeys) (h : ∃ result, func value config = .ok result) :
      (key ∈ sizeKeys ∧ UnitOnly value → func value config = .error .badAccess) ∧
        (¬(key ∈ sizeKeys ∧ UnitOnly value) → ∃ result, func value config = .ok result) :=
    ⟨fun h => absurd h.1 hkey, fun _ => h⟩
  have hsize (hkey : key ∈ sizeKeys)
      (h : (UnitOnly value → func value config = .error .badAccess) ∧
        (¬UnitOnly value → ∃ result, func value config = .ok result)) :
      (key ∈ sizeKeys ∧ UnitOnly value → func value config = .error .badAccess) ∧
        (¬(key ∈ sizeKeys ∧ UnitOnly value) → ∃ result, func value config = .ok result) :=
    ⟨fun hboth => h.1 hboth.2, fun hnot => h.2 fun hunit => hnot ⟨hkey, hunit⟩⟩
  simp only [configDictionary, List.mem_cons, Prod.mk.injEq, List.not_mem_nil, or_false] at hmem
  rcases hmem with ⟨rfl, rfl⟩ | ⟨rfl, rfl⟩ | ⟨rfl, rfl⟩ | ⟨rfl, rfl⟩ | ⟨rfl, rfl⟩ | ⟨rfl, rfl⟩ |
    ⟨rfl, rfl⟩ | ⟨rfl, rfl⟩
  · exact htext (by decide) (textHandler_ok _)
  · exact htext (by decide) (textHandler_ok _)
  · exact htext (by decide) (textHandler_ok _)
  · exact htext (by decide) (textHandler_ok _)
  · exact htext (by decide) (textHandler_ok _)
  · exact hsize (by decide) (sizeKey_outcome .temp_file_size)
  · exact htext (by decide) (textHandler_ok _)
  · exact hsize (by decide) (sizeKey_outcome .json_file_size)

/-- A sanitized row splits unless it is empty. -/
theorem splitRow_of_sanitized (h : row = .empty ∨ byteOf ':' ∈ row.bytes) :
    row = .empty ∨ row ≠ .empty ∧ ∃ key value, splitRow row = some (key, value) := by
  rcases h with rfl | h
  · exact .inl rfl
  · refine .inr ⟨?_, ?_⟩
    · rintro rfl
      exact List.not_mem_nil h
    · unfold splitRow
      rw [if_pos h]
      exact ⟨_, _, rfl⟩

/-- A ROUND of `evaluate_configuration` goes on exactly where the row is delimited. -/
theorem configureRow_outcome (hrow : row = .empty ∨ byteOf ':' ∈ row.bytes) :
    (ConfigRowDelimited row → ∃ config', configureRow config row = .ok config') ∧
      (¬ConfigRowDelimited row → configureRow config row = .error .badAccess) := by
  rcases splitRow_of_sanitized hrow with rfl | ⟨hne, key, value, hsplit⟩
  · refine ⟨fun _ => ⟨config, rfl⟩, fun h => absurd ?_ h⟩
    intro key value hsplit
    cases hsplit
  · have hdelimited : ConfigRowDelimited row ↔
        NameClosed key ∧ (nameless key ∈ sizeKeys → ¬UnitOnly value) := by
      unfold ConfigRowDelimited
      rw [hsplit]
      refine ⟨fun h => h key value rfl, ?_⟩
      intro h key' value' hpair
      cases hpair
      exact h
    rw [hdelimited]
    unfold configureRow
    rw [if_neg hne, hsplit]
    dsimp only
    obtain ⟨hclosed, hopen⟩ := cutName_outcome key
    by_cases hname : NameClosed key
    case neg =>
      rw [hopen hname]
      exact ⟨fun h => absurd h.1 hname, fun _ => rfl⟩
    case pos =>
      rw [hclosed hname]
      dsimp only
      cases hlookup : configDictionary.lookup (nameless key) with
      | none =>
        have hsize : nameless key ∉ sizeKeys := by
          intro h
          rcases List.mem_cons.mp h with h | h
          · rw [h] at hlookup
            cases hlookup
          · rw [List.mem_singleton.mp h] at hlookup
            cases hlookup
        exact ⟨fun _ => ⟨config, rfl⟩,
          fun h => absurd ⟨hname, fun hmem => absurd hmem hsize⟩ h⟩
      | some func =>
        obtain ⟨hfault, hok⟩ := configHandler_outcome value config hlookup
        dsimp only
        constructor
        · intro h
          obtain ⟨result, hresult⟩ := hok fun hboth => h.2 hboth.1 hboth.2
          rw [hresult]
          exact ⟨_, rfl⟩
        · intro h
          have hboth : nameless key ∈ sizeKeys ∧ UnitOnly value := by
            by_contra hnot
            exact h ⟨hname, fun hmem hunit => hnot ⟨hmem, hunit⟩⟩
          rw [hfault hboth]
          rfl

end

/-! ## One row of a plugin file -/

section

variable {inet_aton : CStr → Option UInt32} {row : CStr}

theorem loadCores_outcome (value : CStr) :
    ((∃ inners, bracketed none value.bytes = some inners) → ∃ d, loadCores value = .ok d) ∧
      ((¬∃ inners, bracketed none value.bytes = some inners) →
        loadCores value = .error .badAccess) := by
  unfold loadCores
  rw [readCoreIds_eq_bracketed value (Nat.le_refl _)]
  constructor
  · rintro ⟨inners, h⟩
    rw [h]
    cases inners with
    | nil => exact ⟨_, rfl⟩
    | cons inner inners => exact ⟨_, rfl⟩
  · intro h
    cases hinners : bracketed none value.bytes with
    | none => rfl
    | some inners => exact absurd ⟨inners, hinners⟩ h

theorem loadFields_outcome {value : CStr} (hvalue : value ≠ .empty) :
    ((∃ bodies, specBodies .outside value.bytes = some bodies ∧ bodiesReadable false bodies) →
        ∃ d, loadFields value = .ok d) ∧
      ((¬∃ bodies, specBodies .outside value.bytes = some bodies ∧ bodiesReadable false bodies) →
        loadFields value = .error .badAccess) := by
  have hloop := fieldsLoop_eq_bodies value.strlen value.bytes [] none (Nat.le_refl _)
    value.nulFree
  simp only [List.nil_append, List.length_nil, Option.isSome_none] at hloop
  unfold loadFields
  rw [if_neg hvalue]
  dsimp only
  generalize fieldsLoop value.strlen _ _ _ = result at hloop ⊢
  constructor
  · rintro ⟨bodies, hbodies, hread⟩
    rw [hbodies, Option.filter_some_pos hread] at hloop
    cases result with
    | none => cases hloop
    | some result => exact ⟨_, rfl⟩
  · intro h
    cases result with
    | none => rfl
    | some result =>
      cases hbodies : specBodies .outside value.bytes with
      | none =>
        rw [hbodies] at hloop
        cases hloop
      | some bodies =>
        rw [hbodies] at hloop
        by_cases hread : bodiesReadable false bodies
        · exact absurd ⟨bodies, hbodies, hread⟩ h
        · rw [Option.filter_some_neg (by simpa using hread)] at hloop
          cases hloop

/-- A ROUND of `evaluate_plugin`: a row is rejected with a message, or it is loaded exactly
where it is delimited. -/
theorem loadDirective_outcome (hrow : row = .empty ∨ byteOf ':' ∈ row.bytes) :
    (rejected row → loadDirective inet_aton row = .error .exit) ∧
      (¬rejected row → PluginRowDelimited row → ∃ d, loadDirective inet_aton row = .ok d) ∧
        (¬rejected row → ¬PluginRowDelimited row →
          loadDirective inet_aton row = .error .badAccess) := by
  rcases splitRow_of_sanitized hrow with rfl | ⟨hne, key, value, hsplit⟩
  · refine ⟨nofun, fun _ _ => ⟨.ignored, rfl⟩, fun _ h => absurd ?_ h⟩
    intro key value hsplit
    cases hsplit
  · have hrejected : rejected row ↔ key ∈ mandatoryKeys ∧ value = .empty := by
      unfold rejected
      rw [hsplit]
      exact decide_eq_true_iff
    have hdelimited : PluginRowDelimited row ↔
        (key = .lit "core_id" → ∃ inners, bracketed none value.bytes = some inners) ∧
          (key = .lit "fields" → ∃ bodies,
            specBodies .outside value.bytes = some bodies ∧ bodiesReadable false bodies) := by
      unfold PluginRowDelimited
      rw [hsplit]
      refine ⟨fun h => h key value rfl, ?_⟩
      intro h key' value' hpair
      cases hpair
      exact h
    rw [hrejected, hdelimited]
    by_cases hcores : key = .lit "core_id"
    · subst hcores
      have hfree : CStr.lit "core_id" ∉ mandatoryKeys := by decide
      have hfields : CStr.lit "core_id" ≠ .lit "fields" := by decide
      rw [loadDirective_cores hsplit]
      obtain ⟨hok, hfault⟩ := loadCores_outcome value
      refine ⟨fun h => absurd h.1 hfree, fun _ h => hok (h.1 rfl), fun _ h => hfault ?_⟩
      exact fun hinners => h ⟨fun _ => hinners, fun h => absurd h hfields⟩
    · by_cases hfields : key = .lit "fields"
      · subst hfields
        have hmandatory : CStr.lit "fields" ∈ mandatoryKeys := by decide
        rw [loadDirective_fields hsplit]
        by_cases hvalue : value = .empty
        · refine ⟨?_, fun h => absurd ⟨hmandatory, hvalue⟩ h,
            fun h => absurd ⟨hmandatory, hvalue⟩ h⟩
          intro _
          unfold loadFields
          rw [if_pos hvalue]
        · obtain ⟨hok, hfault⟩ := loadFields_outcome hvalue
          refine ⟨fun h => absurd h.2 hvalue, fun _ h => hok (h.2 rfl), fun _ h => hfault ?_⟩
          exact fun hbodies => h ⟨fun h => absurd h hcores, fun _ => hbodies⟩
      · rw [loadDirective_other hsplit hcores hfields]
        have hthere : (key = .lit "core_id" → ∃ inners, bracketed none value.bytes = some inners) ∧
            (key = .lit "fields" → ∃ bodies,
              specBodies .outside value.bytes = some bodies ∧ bodiesReadable false bodies) :=
          ⟨fun h => absurd h hcores, fun h => absurd h hfields⟩
        have houtcome : ReaderOutcome key value (readDirective inet_aton row) :=
          readDirective_outcome hsplit hcores hfields
        unfold ReaderOutcome at houtcome
        refine ⟨?_, ?_, fun _ h => absurd hthere h⟩
        · intro h
          rwa [if_pos h] at houtcome
        · intro h _
          rw [if_neg h] at houtcome
          obtain ⟨d, hd, -⟩ := houtcome
          exact ⟨d, hd⟩

end

/-! ## Files -/

/-- Sanitized rows are empty or have a `:`. -/
theorem sanitized_rows {lines rows : List CStr} (h : lines.mapM sanitizeRow = .ok rows) :
    ∀ row ∈ rows, row = .empty ∨ byteOf ':' ∈ row.bytes := by
  intro row hrow
  obtain ⟨line, -, hline⟩ := Lib.Fallible.exists_of_mem_mapM h hrow
  exact colon_of_sanitizeRow hline

theorem evaluateConfiguration_reports_iff {rows : List CStr} (config : ConfigData)
    (hrows : ∀ row ∈ rows, row = .empty ∨ byteOf ':' ∈ row.bytes) :
    Reports (evaluateConfiguration config rows) ↔ ∀ row ∈ rows, ConfigRowDelimited row := by
  have hall : rows.takeWhile (fun _ => !false) = rows :=
    List.takeWhile_eq_self_iff.mpr fun _ _ => rfl
  have hiff : Reports (evaluateConfiguration config rows) ↔
      ∀ row ∈ rows.takeWhile (fun _ => !false), ConfigRowDelimited row :=
    Lib.Fallible.foldlM_reports_iff configureRow (· = .exit) (fun _ => false)
      ConfigRowDelimited ?_ ?_ ?_
  · rwa [hall] at hiff
  · intro config row _ h
    cases h
  · intro config row hrow _ h
    exact (configureRow_outcome (hrows row hrow)).1 h
  · intro config row hrow _ h
    exact ⟨.badAccess, nofun, (configureRow_outcome (hrows row hrow)).2 h⟩

theorem loadPlugin_reports_iff (inet_aton : CStr → Option UInt32) {rows : List CStr}
    (s : PluginState) (hrows : ∀ row ∈ rows, row = .empty ∨ byteOf ':' ∈ row.bytes) :
    Reports (loadPlugin inet_aton s rows) ↔
      ∀ row ∈ rows.takeWhile (!rejected ·), PluginRowDelimited row := by
  refine Lib.Fallible.foldlM_reports_iff (loadRow inet_aton) (· = .exit) rejected
    PluginRowDelimited ?_ ?_ ?_
  · intro s row hrow h
    refine ⟨.exit, rfl, ?_⟩
    rw [loadRow, (loadDirective_outcome (hrows row hrow)).1 h]
    rfl
  · intro s row hrow hrejected h
    obtain ⟨d, hd⟩ := (loadDirective_outcome (hrows row hrow)).2.1 hrejected h
    exact ⟨s.load d, by rw [loadRow, hd]; rfl⟩
  · intro s row hrow hrejected h
    refine ⟨.badAccess, nofun, ?_⟩
    rw [loadRow, (loadDirective_outcome (hrows row hrow)).2.2 hrejected h]
    rfl

end LogCollector
