import LogCollector.CString

/-!
# Plugins and their regexes

What a worker reads of the plugins assigned to it, and the one place where it
calls PCRE to match a log. PCRE is not part of this program: `Pcre` gives the
two functions the program calls, and takes matching as a function of the
pattern and the text. A compiled pattern is named by its text.
-/

namespace LogCollector

def MAX_REGEX_CNT : Nat := 64

def MAX_PCRE_SUB_STR_NUM : Nat := 210

/-- `GENERIC_LOG_PRECHECK`. -/
def GENERIC_LOG_PRECHECK : CStr := .lit "GENERIC_LOG"

/-- `struct field_t`: the group a member of the record is captured by, or its
literal value. -/
structure Field where
  key : CStr
  findby : CStr
  func_name : Option CStr
  is_value : Bool
  is_integer : Bool
deriving DecidableEq

/-- `struct regex_t`; `fields` has `field_cnt` entries. -/
structure Regex where
  id : Int32
  description : CStr
  precheck : CStr
  regexp : CStr
  fields : List Field
deriving DecidableEq

/-- What a worker reads of `struct plugin_t` to build a record; `regex` has
`regex_cnt` entries. -/
structure Plugin where
  plugin_id : Int32
  optimized : Bool
  regex : List Regex
deriving DecidableEq

namespace Plugin

/-- `empty_p_regex`, as `worker_loop` fills it before its loop. -/
def empty_p_regex (plgn : Plugin) : List Regex :=
  plgn.regex.filter fun rgx => rgx.precheck = .lit ""

/-- `generic_p_regex`. -/
def generic_p_regex (plgn : Plugin) : List Regex :=
  plgn.regex.filter fun rgx => rgx.precheck ≠ .lit "" ∧ rgx.precheck = GENERIC_LOG_PRECHECK

/-- `filled_p_regex`. -/
def filled_p_regex (plgn : Plugin) : List Regex :=
  plgn.regex.filter fun rgx => rgx.precheck ≠ .lit "" ∧ rgx.precheck ≠ GENERIC_LOG_PRECHECK

end Plugin

/-- The functions of PCRE that the program calls. -/
structure Pcre where
  /-- `pcre_jit_exec` on all of a text, with an `ovector` of a size: its result
  and what it leaves in the `ovector`. -/
  jit_exec (regexp : CStr) (ovecsize : Nat) (text : CStr) : Int × (Nat → Int)
  /-- `pcre_get_named_substring`; `none` where it returns an error. -/
  get_named_substring (regexp text : CStr) (ovector : Nat → Int) (stringcount : Int)
    (name : CStr) : Option CStr

/-- `match_with_pcre_jit` of `logcollector.c`: how many of the reported groups
are not empty, and the `ovector`. -/
def matchWithPcreJit (pcre : Pcre) (rgx : Regex) (buf : CStr) : Nat × (Nat → Int) :=
  let (pcreExecRet, ovector) := pcre.jit_exec rgx.regexp MAX_PCRE_SUB_STR_NUM buf
  if pcreExecRet < 0 then (0, ovector)
  else
    -- 0 says that there are more groups than fit in the `ovector`
    let reported := if pcreExecRet = 0 then MAX_PCRE_SUB_STR_NUM / 3 else pcreExecRet.toNat
    ((List.range reported).countP fun i => 0 < ovector (2 * i + 1) - ovector (2 * i), ovector)

end LogCollector
