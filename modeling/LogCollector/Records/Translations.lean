import LogCollector.Datagram

/-!
# What custom functions translate, and whether the result fits

`custom_function` looks up the function a field names and has it write into
`func_ret_str`, an array of 256 bytes; `worker_loop` copies the value there itself
where the name is not registered. Nothing on this way looks at a length. A value is
as long as the log allows, so the array is overrun wherever a long value is copied
whole or a long date is put together (`custom_function_fits_iff`).

The three functions that translate without a pattern do what their names say, but
for `normalize_protocol`: it takes the result of `strcmp` for a test of equality
(`translated_as_specified_iff`).

Both are about a `func_ret_str` that is empty at first.
-/

namespace LogCollector

/-! ## Names -/

/-- The names in `cf_dictionary`. -/
def registeredNames : List CStr := cfDictionary.map Prod.fst

theorem findCustomFunction_eq_none_iff {name : CStr} :
    findCustomFunction name = none ↔ name ∉ registeredNames := by
  rw [findCustomFunction, Option.map_eq_none_iff, List.find?_eq_none, registeredNames, List.mem_map]
  constructor
  · rintro h ⟨item, hitem, rfl⟩
    exact h item hitem (decide_eq_true rfl)
  · intro h item hitem heq
    exact h ⟨item, hitem, of_decide_eq_true heq⟩

theorem find_fortigateSid :
    findCustomFunction (.lit "fortigate_sid") = some (.fortigateSid, .lit "") := by
  decide +kernel

theorem find_normalizeProtocol :
    findCustomFunction (.lit "normalize_protocol") = some (.normalizeProtocol, .lit "") := by
  decide +kernel

theorem find_translateCitrix :
    findCustomFunction (.lit "translate_citrix") = some (.translateCitrix, .lit "") := by
  decide +kernel

section

variable (pcre : Pcre)

/-! ## The text of a date -/

/-- All groups of a date, each with what follows it. -/
def allDateGroups : List (String × String) := ("year", "-") :: dateGroups

/-- The groups that PCRE gives of a date, each with what follows it. -/
def datePieces (regexp date : CStr) : List CStr :=
  let found := cfMatchWithPcreJit pcre regexp date
  allDateGroups.filterMap fun group =>
    (pcre.get_named_substring regexp date found.2 found.1 (.lit group.1)).map (· ++ .lit group.2)

theorem foldl_catGroup (regexp date : CStr) (found : Int × (Nat → Int))
    (groups : List (String × String)) (ret_str : CStr) :
    groups.foldl (catGroup pcre regexp date found) ret_str =
      ret_str ++ CStr.concat (groups.filterMap fun group =>
        (pcre.get_named_substring regexp date found.2 found.1 (.lit group.1)).map
          (· ++ .lit group.2)) := by
  induction groups generalizing ret_str with
  | nil => rw [List.foldl_nil, List.filterMap_nil, CStr.concat_nil, CStr.append_empty]
  | cons group groups ih =>
    rw [List.foldl_cons, ih, catGroup, List.filterMap_cons]
    cases pcre.get_named_substring regexp date found.2 found.1 (.lit group.1) with
    | none => rfl
    | some sub =>
      rw [Option.map_some, CStr.concat_cons, CStr.append_assoc, CStr.append_assoc,
        CStr.append_assoc]

/-- A date is put together of its groups, or copied where it is not matched. -/
theorem normalizeDate_empty (regexp date : CStr) :
    normalizeDate pcre regexp date .empty =
      if 0 < (cfMatchWithPcreJit pcre regexp date).1 then CStr.concat (datePieces pcre regexp date)
      else date := by
  rw [normalizeDate]
  dsimp only
  split
  · rw [foldl_catGroup, datePieces, allDateGroups, List.filterMap_cons]
    cases pcre.get_named_substring regexp date (cfMatchWithPcreJit pcre regexp date).2
        (cfMatchWithPcreJit pcre regexp date).1 (.lit "year") with
    | none =>
      rw [CStr.empty_append]
      rfl
    | some year => rfl
  · rw [CStr.empty_append]

/-! ## Room in `func_ret_str` -/

/-- What goes into the array leaves room for the terminator: all of a value that is
copied, with `10` before it where it is short, or the groups of a date with their
separators. -/
def ResultFits (name value : CStr) : Prop :=
  match findCustomFunction name with
  | none | some (.fortigateSid, _) => value.strlen < MAX_CUST_FUNC_RET_STR
  | some (.normalizeProtocol, _) => True
  | some (.translateCitrix, _) => citrixCode value = none → value.strlen < MAX_CUST_FUNC_RET_STR
  | some (.normalizeDateFortigate, regexp) | some (.normalizeDateCitrix, regexp) =>
    if 0 < (cfMatchWithPcreJit pcre regexp value).1 then
      ((datePieces pcre regexp value).map CStr.strlen).sum < MAX_CUST_FUNC_RET_STR
    else value.strlen < MAX_CUST_FUNC_RET_STR

theorem strlen_fortigateSid_lt_iff (value : CStr) :
    (fortigateSid value .empty).strlen < MAX_CUST_FUNC_RET_STR ↔
      value.strlen < MAX_CUST_FUNC_RET_STR := by
  have hlit : (CStr.lit "10").strlen = 2 := by decide
  rw [fortigateSid, CStr.strlen_append]
  split
  · rw [hlit, MAX_CUST_FUNC_RET_STR]
    omega
  · exact (Nat.zero_add value.strlen).symm ▸ Iff.rfl

theorem strlen_normalizeProtocol_lt (value : CStr) :
    (normalizeProtocol value).strlen < MAX_CUST_FUNC_RET_STR := by
  by_cases hone : value = .lit "1"
  · subst hone
    decide
  · rw [normalizeProtocol, if_pos hone]
    decide

/-- Every code of the dictionary is shorter than the array. -/
theorem strlen_citrixCode_lt {value code : CStr} (h : citrixCode value = some code) :
    code.strlen < MAX_CUST_FUNC_RET_STR := by
  have hall : ∀ entry ∈ citrixDictionary,
      (CStr.lit entry.2).strlen < MAX_CUST_FUNC_RET_STR := by
    decide +kernel
  obtain ⟨entry, hfind, rfl⟩ := Option.map_eq_some_iff.mp h
  exact hall entry (List.mem_of_find?_eq_some hfind)

theorem strlen_normalizeDate_lt_iff (regexp value : CStr) :
    (normalizeDate pcre regexp value .empty).strlen < MAX_CUST_FUNC_RET_STR ↔
      if 0 < (cfMatchWithPcreJit pcre regexp value).1 then
        ((datePieces pcre regexp value).map CStr.strlen).sum < MAX_CUST_FUNC_RET_STR
      else value.strlen < MAX_CUST_FUNC_RET_STR := by
  rw [normalizeDate_empty]
  split
  · rw [CStr.strlen_concat]
  · exact Iff.rfl

/-- THE RESULT FITS, with its terminator, exactly where what is copied is short
enough. -/
theorem custom_function_fits_iff (name value : CStr) :
    (customFunction pcre name value .empty).strlen + 1 ≤ MAX_CUST_FUNC_RET_STR ↔
      ResultFits pcre name value := by
  rw [Nat.succ_le_iff, customFunction, ResultFits]
  cases findCustomFunction name with
  | none => exact Iff.rfl
  | some item =>
    obtain ⟨func, regexp⟩ := item
    cases func with
    | normalizeDateFortigate => exact strlen_normalizeDate_lt_iff pcre regexp value
    | normalizeDateCitrix => exact strlen_normalizeDate_lt_iff pcre regexp value
    | fortigateSid => exact strlen_fortigateSid_lt_iff value
    | normalizeProtocol => exact iff_of_true (strlen_normalizeProtocol_lt value) trivial
    | translateCitrix =>
      show (translateCitrix value .empty).strlen < _ ↔ _
      cases hcode : citrixCode value with
      | some code =>
        rw [translateCitrix, hcode]
        exact iff_of_true (strlen_citrixCode_lt hcode) fun h =>
          absurd h (Option.some_ne_none code)
      | none =>
        rw [translateCitrix, hcode]
        exact ⟨fun h _ => h, fun h => h rfl⟩

/-! ## Translations -/

/-- What `custom_function` and its fallback leave in the array; `none` where they
write past its end. -/
def translate (name value : CStr) : Option CStr :=
  let func_ret_str := customFunction pcre name value .empty
  if func_ret_str.strlen < MAX_CUST_FUNC_RET_STR then some func_ret_str else none

/-- The name of a protocol, by its number. -/
def protocolName (value : CStr) : CStr :=
  if value = .lit "1" then .lit "icmp"
  else if value = .lit "6" then .lit "tcp"
  else if value = .lit "17" then .lit "udp"
  else value

/-- What the names of the functions promise of a value. -/
structure TranslatedAsSpecified (name value : CStr) : Prop where
  unregistered : name ∉ registeredNames → translate pcre name value = some value
  protocol : name = .lit "normalize_protocol" →
    translate pcre name value = some (protocolName value)
  sid : name = .lit "fortigate_sid" →
    translate pcre name value = some (if value.strlen < 8 then .lit "10" ++ value else value)
  /-- The first entry with the key counts. -/
  code : name = .lit "translate_citrix" →
    ∀ before key code after, citrixDictionary = before ++ (key, code) :: after →
      (∀ entry ∈ before, CStr.lit entry.1 ≠ value) → CStr.lit key = value →
      translate pcre name value = some (.lit code)
  noCode : name = .lit "translate_citrix" → (∀ entry ∈ citrixDictionary, CStr.lit entry.1 ≠ value) →
    translate pcre name value = some value

/-- The value goes into the array as it is. -/
def CopiesValue (name value : CStr) : Prop :=
  name ∉ registeredNames ∨ name = .lit "fortigate_sid" ∨
    (name = .lit "translate_citrix" ∧ ∀ entry ∈ citrixDictionary, CStr.lit entry.1 ≠ value)

theorem translate_unregistered {name : CStr} (h : name ∉ registeredNames) (value : CStr) :
    translate pcre name value =
      if value.strlen < MAX_CUST_FUNC_RET_STR then some value else none := by
  rw [translate, customFunction, findCustomFunction_eq_none_iff.mpr h]

theorem translate_fortigateSid (value : CStr) :
    translate pcre (.lit "fortigate_sid") value =
      if value.strlen < MAX_CUST_FUNC_RET_STR then
        some (if value.strlen < 8 then .lit "10" ++ value else value) else none := by
  have hresult : customFunction pcre (.lit "fortigate_sid") value .empty =
      fortigateSid value .empty := by
    rw [customFunction, find_fortigateSid]
    rfl
  have htext : fortigateSid value .empty =
      if value.strlen < 8 then .lit "10" ++ value else value := by
    rw [fortigateSid]
    split
    · rfl
    · exact CStr.empty_append value
  rw [translate, hresult, ← htext]
  simp only [strlen_fortigateSid_lt_iff]

/-- The result always fits. -/
theorem translate_normalizeProtocol (value : CStr) :
    translate pcre (.lit "normalize_protocol") value = some (normalizeProtocol value) := by
  have hresult : customFunction pcre (.lit "normalize_protocol") value .empty =
      normalizeProtocol value := by
    rw [customFunction, find_normalizeProtocol]
    rfl
  rw [translate, hresult]
  exact if_pos (strlen_normalizeProtocol_lt value)

theorem customFunction_translateCitrix (value : CStr) :
    customFunction pcre (.lit "translate_citrix") value .empty = translateCitrix value .empty := by
  rw [customFunction, find_translateCitrix]
  rfl

theorem translate_translateCitrix_of_code {value code : CStr} (h : citrixCode value = some code) :
    translate pcre (.lit "translate_citrix") value = some code := by
  rw [translate, customFunction_translateCitrix, translateCitrix, h]
  exact if_pos (strlen_citrixCode_lt h)

theorem translate_translateCitrix_of_none {value : CStr} (h : citrixCode value = none) :
    translate pcre (.lit "translate_citrix") value =
      if value.strlen < MAX_CUST_FUNC_RET_STR then some value else none := by
  rw [translate, customFunction_translateCitrix, translateCitrix, h]
  dsimp only
  rw [CStr.empty_append]

end

theorem citrixCode_eq_none_iff {value : CStr} :
    citrixCode value = none ↔ ∀ entry ∈ citrixDictionary, CStr.lit entry.1 ≠ value := by
  rw [citrixCode, Option.map_eq_none_iff, List.find?_eq_none]
  simp only [decide_eq_true_eq, ne_eq]

/-- The code of the first entry with the key. -/
theorem citrixCode_of_first {before after : List (String × String)} {key code : String}
    {value : CStr} (hsplit : citrixDictionary = before ++ (key, code) :: after)
    (hbefore : ∀ entry ∈ before, CStr.lit entry.1 ≠ value) (hkey : CStr.lit key = value) :
    citrixCode value = some (.lit code) := by
  have hnone : before.find? (fun entry => decide (CStr.lit entry.1 = value)) = none := by
    apply List.find?_eq_none.mpr
    intro entry hentry
    simpa only [decide_eq_true_eq] using hbefore entry hentry
  rw [citrixCode, hsplit, List.find?_append, hnone, Option.none_or,
    List.find?_cons_of_pos (by simpa only [decide_eq_true_eq] using hkey), Option.map_some]

/-- The comparisons are the wrong way round, so a name comes out right only where it
goes in. -/
theorem normalizeProtocol_eq_iff {value : CStr} :
    normalizeProtocol value = protocolName value ↔ value = .lit "icmp" := by
  by_cases hone : value = .lit "1"
  · subst hone
    exact iff_of_false (by decide) (by decide)
  rw [normalizeProtocol, if_pos hone, protocolName, if_neg hone]
  by_cases hsix : value = .lit "6"
  · subst hsix
    exact iff_of_false (by decide) (by decide)
  rw [if_neg hsix]
  by_cases hseventeen : value = .lit "17"
  · subst hseventeen
    exact iff_of_false (by decide) (by decide)
  rw [if_neg hseventeen]
  exact eq_comm

/-- CUSTOM FUNCTIONS TRANSLATE AS SPECIFIED exactly where the function is not
`normalize_protocol`, unless the value is its result already, and the array has room
for a value that is copied. -/
theorem translated_as_specified_iff (pcre : Pcre) (name value : CStr) :
    TranslatedAsSpecified pcre name value ↔
      (name = .lit "normalize_protocol" → value = .lit "icmp") ∧
        (CopiesValue name value → value.strlen < MAX_CUST_FUNC_RET_STR) := by
  constructor
  · intro h
    constructor
    · rintro rfl
      have hname := h.protocol rfl
      rw [translate_normalizeProtocol, Option.some.injEq] at hname
      exact normalizeProtocol_eq_iff.mp hname
    · rintro (hname | rfl | ⟨rfl, hcode⟩)
      · have hvalue := h.unregistered hname
        rw [translate_unregistered pcre hname] at hvalue
        exact (Option.ite_none_right_eq_some.mp hvalue).1
      · have hvalue := h.sid rfl
        rw [translate_fortigateSid] at hvalue
        exact (Option.ite_none_right_eq_some.mp hvalue).1
      · have hvalue := h.noCode rfl hcode
        rw [translate_translateCitrix_of_none pcre (citrixCode_eq_none_iff.mpr hcode)] at hvalue
        exact (Option.ite_none_right_eq_some.mp hvalue).1
  · rintro ⟨hprotocol, hfits⟩
    constructor
    case unregistered =>
      intro hname
      rw [translate_unregistered pcre hname, if_pos (hfits (.inl hname))]
    case protocol =>
      intro hname
      rw [hname, translate_normalizeProtocol, normalizeProtocol_eq_iff.mpr (hprotocol hname)]
    case sid =>
      intro hname
      rw [hname, translate_fortigateSid, if_pos (hfits (.inr (.inl hname)))]
    case code =>
      intro hname before key code after hsplit hbefore hkey
      rw [hname]
      exact translate_translateCitrix_of_code pcre (citrixCode_of_first hsplit hbefore hkey)
    case noCode =>
      intro hname hcode
      rw [hname, translate_translateCitrix_of_none pcre (citrixCode_eq_none_iff.mpr hcode),
        if_pos (hfits (.inr (.inr ⟨hname, hcode⟩)))]

/-! ## Two values -/

/-- PCRE on a pattern whose one group takes all of a text. -/
def wholePcre : Pcre where
  jit_exec _ _ text := (2, fun i => if i % 2 = 0 then 0 else text.strlen)
  get_named_substring _ text _ stringcount _ := if 1 < stringcount then some text else none

/-- Protocol number 6 becomes `icmp`. -/
theorem protocol_misnamed :
    translate wholePcre (.lit "normalize_protocol") (.lit "6") = some (.lit "icmp") ∧
      ¬ TranslatedAsSpecified wholePcre (.lit "normalize_protocol") (.lit "6") := by
  have hresult : translate wholePcre (.lit "normalize_protocol") (.lit "6") = some (.lit "icmp") :=
    translate_normalizeProtocol wholePcre (.lit "6")
  refine ⟨hresult, ?_⟩
  intro h
  have hname := h.protocol rfl
  rw [hresult] at hname
  exact absurd hname (by decide)

/-- A log of letters. -/
def letters (n : Nat) : CStr :=
  ⟨List.replicate n 0x61, fun h => absurd (List.eq_of_mem_replicate h) (by decide)⟩

theorem strlen_letters (n : Nat) : (letters n).strlen = n := List.length_replicate

/-- A field of the whole log, with a function that is not registered. -/
theorem unregistered_overruns :
    (letters 300).strlen ≤ MAX_MSG ∧
      capturedBy wholePcre ⟨1, .empty, .empty, .lit "(?P<all>.*)", []⟩ (letters 300) (fun _ => 0) 2
        ⟨.lit "user", .lit "all", some (.lit "lookup_user"), false, false⟩ =
          some (letters 300) ∧
      ¬ (customFunction wholePcre (.lit "lookup_user") (letters 300) .empty).strlen + 1 ≤
        MAX_CUST_FUNC_RET_STR := by
  have hunregistered : .lit "lookup_user" ∉ registeredNames := by decide +kernel
  refine ⟨by rw [strlen_letters]; decide, rfl, ?_⟩
  rw [customFunction, findCustomFunction_eq_none_iff.mpr hunregistered, strlen_letters]
  decide

end LogCollector
