import LogCollector.Records.CitrixDictionary
import LogCollector.Records.Regex

/-!
# Custom functions

A field may name a function that translates what its group captured. Every
function writes into a buffer of its caller, `func_ret_str`, and is given what
that buffer held before. `worker_loop` never clears it: where a function begins
with `strcat`, its result starts with the old contents.
`customFunction_eq` says when that is.
-/

namespace LogCollector

def CF_MAX_PCRE_SUB_STR_NUM : Nat := 90

/-- `match_with_pcre_jit` of `custom_functions.c`: the result of PCRE, where
groups that do not fit in the `ovector` count as those that do. -/
def cfMatchWithPcreJit (pcre : Pcre) (regexp date : CStr) : Int × (Nat → Int) :=
  let (pcreExecRet, ovector) := pcre.jit_exec regexp CF_MAX_PCRE_SUB_STR_NUM date
  if pcreExecRet < 0 then (0, ovector)
  else if pcreExecRet = 0 then (CF_MAX_PCRE_SUB_STR_NUM / 3, ovector)
  else (pcreExecRet, ovector)

/-- The functions `cf_dictionary` points to. -/
inductive CustomFunction
  | normalizeDateFortigate
  | fortigateSid
  | normalizeProtocol
  | normalizeDateCitrix
  | translateCitrix
deriving DecidableEq

/-- `cf_dictionary`: the name, the function and the pattern of each entry. -/
def cfDictionary : List (CStr × CustomFunction × CStr) := [
  (.lit "normalize_date_fortigate", .normalizeDateFortigate,
    .lit ("(?P<year>\\d\x7b4\x7d)-(?P<month>\\d+)-(?P<day>\\d+)\\s+" ++
      "time=(?P<hour>\\d+):(?P<minute>\\d+):(?P<second>\\d+)")),
  (.lit "fortigate_sid", .fortigateSid, .lit ""),
  (.lit "normalize_protocol", .normalizeProtocol, .lit ""),
  (.lit "normalize_date_citrix", .normalizeDateCitrix,
    .lit ("(?P<month>(0?[1-9])|(1[0-2]))/(?P<day>(1[0-9])|(2[0-9])|(3[0-1])|(0?[0-9]))/" ++
      "(?P<year>\\d\x7b4\x7d):(?P<hour>\\d\x7b1,2\x7d):" ++
      "(?P<minute>\\d\x7b1,2\x7d):(?P<second>\\d\x7b1,2\x7d)")),
  (.lit "translate_citrix", .translateCitrix, .lit "")]

section

variable (pcre : Pcre)

/-- `strcat(ret_str, group); strcat(ret_str, separator)` where the group is
reported. -/
def catGroup (regexp date : CStr) (found : Int × (Nat → Int)) (ret_str : CStr)
    (group : String × String) : CStr :=
  match pcre.get_named_substring regexp date found.2 found.1 (.lit group.1) with
  | some sub => ret_str ++ sub ++ .lit group.2
  | none => ret_str

/-- The groups of a date after the year, each with what follows it. -/
def dateGroups : List (String × String) :=
  [("month", "-"), ("day", " "), ("hour", ":"), ("minute", ":"), ("second", "")]

/-- `normalize_date_fortigate` and `normalize_date_citrix`, which differ in
their patterns alone. -/
def normalizeDate (regexp date ret_str : CStr) : CStr :=
  let found := cfMatchWithPcreJit pcre regexp date
  if 0 < found.1 then
    let ret_str :=
      match pcre.get_named_substring regexp date found.2 found.1 (.lit "year") with
      | some year => year ++ .lit "-"
      | none => ret_str
    dateGroups.foldl (catGroup pcre regexp date found) ret_str
  else ret_str ++ date

/-- `fortigate_sid`. -/
def fortigateSid (attack_id ret_str : CStr) : CStr :=
  (if attack_id.strlen < 8 then .lit "10" else ret_str) ++ attack_id

/-- `normalize_protocol`, where `strcmp` is not 0 on strings that differ. -/
def normalizeProtocol (protocol : CStr) : CStr :=
  if protocol ≠ .lit "1" then .lit "icmp"
  else if protocol ≠ .lit "6" then .lit "tcp"
  else if protocol ≠ .lit "17" then .lit "udp"
  else protocol

/-- `translate_citrix`. -/
def translateCitrix (key ret_str : CStr) : CStr :=
  match citrixCode key with
  | some value => value
  | none => ret_str ++ key

/-- `(*handle->func)(…, value, ret_str)`: what is in the buffer afterwards. -/
def callCustomFunction (func : CustomFunction) (regexp value ret_str : CStr) : CStr :=
  match func with
  | .normalizeDateFortigate => normalizeDate pcre regexp value ret_str
  | .fortigateSid => fortigateSid value ret_str
  | .normalizeProtocol => normalizeProtocol value
  | .normalizeDateCitrix => normalizeDate pcre regexp value ret_str
  | .translateCitrix => translateCitrix value ret_str

/-- `shash_find(hash_map, func)`. -/
def findCustomFunction (name : CStr) : Option (CustomFunction × CStr) :=
  (cfDictionary.find? fun item => item.1 = name).map fun item => item.2

/-- `custom_function` with the fallback of `worker_loop`: what is in the buffer
afterwards. -/
def customFunction (name value ret_str : CStr) : CStr :=
  match findCustomFunction name with
  | some (func, regexp) => callCustomFunction pcre func regexp value ret_str
  | none => value

/-! ## What a function does to the old contents -/

/-- Does the function begin with `strcat`? -/
def beginsWithCat (func : CustomFunction) (regexp value : CStr) : Bool :=
  match func with
  | .normalizeDateFortigate | .normalizeDateCitrix =>
    let found := cfMatchWithPcreJit pcre regexp value
    found.1 ≤ 0 ||
      (pcre.get_named_substring regexp value found.2 found.1 (.lit "year")).isNone
  | .fortigateSid => 8 ≤ value.strlen
  | .normalizeProtocol => false
  | .translateCitrix => (citrixCode value).isNone

/-- Does the result of `custom_function` start with the old contents of the
buffer? -/
def keepsOld (name value : CStr) : Bool :=
  match findCustomFunction name with
  | some (func, regexp) => beginsWithCat pcre func regexp value
  | none => false

theorem catGroup_append (regexp date : CStr) (found : Int × (Nat → Int)) (s t : CStr)
    (group : String × String) :
    catGroup pcre regexp date found (s ++ t) group =
      s ++ catGroup pcre regexp date found t group := by
  rw [catGroup, catGroup]
  split
  · rw [CStr.append_assoc, CStr.append_assoc, CStr.append_assoc]
  · rfl

theorem foldl_catGroup_append (regexp date : CStr) (found : Int × (Nat → Int)) (s : CStr)
    (groups : List (String × String)) :
    ∀ t, groups.foldl (catGroup pcre regexp date found) (s ++ t) =
      s ++ groups.foldl (catGroup pcre regexp date found) t := by
  induction groups with
  | nil => exact fun t => rfl
  | cons group groups ih =>
    intro t
    rw [List.foldl_cons, List.foldl_cons, catGroup_append, ih]

/-- A date that is not matched is appended whole, and one without a year after
its separators. -/
theorem normalizeDate_eq (regexp date ret_str : CStr) :
    normalizeDate pcre regexp date ret_str =
      if beginsWithCat pcre .normalizeDateFortigate regexp date then
        ret_str ++ normalizeDate pcre regexp date .empty
      else normalizeDate pcre regexp date .empty := by
  simp only [normalizeDate, beginsWithCat]
  by_cases hfound : 0 < (cfMatchWithPcreJit pcre regexp date).1
  · simp only [hfound, if_true, Int.not_le.mpr hfound, decide_false, Bool.false_or]
    cases pcre.get_named_substring regexp date (cfMatchWithPcreJit pcre regexp date).2
        (cfMatchWithPcreJit pcre regexp date).1 (.lit "year") with
    | some year => rfl
    | none =>
      simp only [Option.isNone_none, if_true]
      rw [← foldl_catGroup_append, CStr.append_empty]
  · simp only [hfound, if_false, Int.not_lt.mp hfound, decide_true, Bool.true_or, if_true,
      CStr.empty_append]

theorem callCustomFunction_eq (func : CustomFunction) (regexp value ret_str : CStr) :
    callCustomFunction pcre func regexp value ret_str =
      if beginsWithCat pcre func regexp value then
        ret_str ++ callCustomFunction pcre func regexp value .empty
      else callCustomFunction pcre func regexp value .empty := by
  cases func with
  | normalizeDateFortigate => exact normalizeDate_eq pcre regexp value ret_str
  | normalizeDateCitrix => exact normalizeDate_eq pcre regexp value ret_str
  | normalizeProtocol => rfl
  | fortigateSid =>
    simp only [callCustomFunction, fortigateSid, beginsWithCat]
    by_cases hlen : value.strlen < 8
    · simp only [hlen, if_true, Nat.not_le.mpr hlen, decide_false, Bool.false_eq_true, if_false]
    · simp only [hlen, if_false, Nat.not_lt.mp hlen, decide_true, if_true, CStr.empty_append]
  | translateCitrix =>
    cases hcode : citrixCode value with
    | some code => simp [callCustomFunction, translateCitrix, beginsWithCat, hcode]
    | none => simp [callCustomFunction, translateCitrix, beginsWithCat, hcode]

/-- What the buffer held before is either a prefix of the result or not part of
it. -/
theorem customFunction_eq (name value ret_str : CStr) :
    customFunction pcre name value ret_str =
      if keepsOld pcre name value then ret_str ++ customFunction pcre name value .empty
      else customFunction pcre name value .empty := by
  cases hfind : findCustomFunction name with
  | none => simp only [customFunction, keepsOld, hfind, Bool.false_eq_true, if_false]
  | some item =>
    simp only [customFunction, keepsOld, hfind]
    exact callCustomFunction_eq pcre item.1 item.2 value ret_str

end

end LogCollector
