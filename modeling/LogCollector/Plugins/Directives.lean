import LogCollector.Plugins.Lines
import LogCollector.Startup.Rings

/-!
# What the directives of a plugin file do

Every directive stores into the slot `plugin[plugin_cnt]`, the regex directives into
`regex[regex_cnt]` of this slot. `fields` moves on to the next regex and `end` to the
next slot. Nothing else does: a file begins in the slot the file before left.

The slots behind `plugin_cnt` and the regexes behind `regex_cnt` are zero, so only the
first of them is part of the state. A pointer that was not set is `none`. `regex_keys`
and `rgx_index` are left out: nothing depends on them.
-/

namespace LogCollector

def MAX_PLUGIN_CORE_CNT : Nat := MAX_CORE_NUM

/-- The members of `struct regex_t` before `fields`. -/
structure RegexHead where
  id : Int32
  description : Option CStr
  precheck : Option CStr
  regexp : Option CStr
deriving DecidableEq

/-- `struct regex_t`, as a plugin file fills it; `fields` has `field_cnt` entries. -/
structure RegexData extends RegexHead where
  fields : List Field
deriving DecidableEq

/-- `struct plugin_t`, as a plugin file fills it. -/
structure PluginData where
  filename : Option CStr
  plugin_id : Int32
  /-- `core_ids[0 .. core_id_num)`. -/
  core_ids : List Int32
  all_nondedicated_cores : Bool
  optimized : Bool
  ip : Option CStr
  ip_dec : UInt32
  /-- `regex[0 .. regex_cnt)`. -/
  regex : List RegexData
  /-- `regex[regex_cnt]`. -/
  next : RegexHead
deriving DecidableEq

/-- A regex of the zeroed table. -/
def RegexHead.zero : RegexHead := ⟨0, none, none, none⟩

/-- A slot of the zeroed table. -/
def PluginData.zero : PluginData := ⟨none, 0, [], false, false, none, 0, [], .zero⟩

/-- The table and `plugin_cnt`. -/
structure PluginState where
  /-- `plugin[0 .. plugin_cnt)`. -/
  entries : List PluginData
  /-- `plugin[plugin_cnt]`. -/
  slot : PluginData
deriving DecidableEq

/-- The table the program starts with. -/
def PluginState.start : PluginState := ⟨[], .zero⟩

/-! ## Numbers -/

/-- `strtoull(str, &end, 10)`: its result, and what is at `end`. -/
def strtoull (str : CStr) : UInt64 × List UInt8 :=
  let read (negative : Bool) (text : List UInt8) : UInt64 × List UInt8 :=
    let digits := text.takeWhile Lib.Decimal.isDigit
    let value := Lib.Decimal.fold digits 0
    if digits = [] then (0, str.bytes)
    else if 2 ^ 64 ≤ value then (-1, text.drop digits.length)
    else (if negative then -UInt64.ofNat value else UInt64.ofNat value, text.drop digits.length)
  match str.bytes.dropWhile CStr.isspace with
  | 45 :: text => read true text
  | 43 :: text => read false text
  | text => read false text

/-- `parse_decimal`. -/
def parseDecimal (str : CStr) : Int64 :=
  let (num, rest) := strtoull str
  if str = .empty ∨ rest ≠ [] ∨ 2 ^ 63 - 1 < num.toNat then -1 else num.toInt64

/-! ## Handlers -/

/-- What a handler makes of the value and the table; its result is below 0 where the
value is not valid. -/
abbrev Handler : Type := CStr → PluginState → Except Fault (Int × PluginState)

/-- The slot is written. -/
def PluginState.store (s : PluginState) (slot : PluginData) : Except Fault (Int × PluginState) :=
  if s.entries.length < MAX_PLUGIN_CNT then .ok (SUCCESS, { s with slot := slot })
  else .error .tableFull

/-- The regex is written that is not finished. -/
def PluginState.storeRegex (s : PluginState) (next : RegexHead) :
    Except Fault (Int × PluginState) :=
  if s.slot.regex.length < MAX_REGEX_CNT then s.store { s.slot with next := next }
  else .error .badAccess

def pluginKeyFilename : Handler := fun value_ptr s =>
  if value_ptr = .empty then .ok (ERR, s)
  else s.store { s.slot with filename := some value_ptr }

def pluginKeyPluginId : Handler := fun value_ptr s =>
  if value_ptr = .empty then .ok (ERR, s)
  else s.store { s.slot with plugin_id := (parseDecimal value_ptr).toInt32 }

/-- `plugin_key_listen_ip`; `inet_aton` gives the address where it returns 1. -/
def pluginKeyListenIp (inet_aton : CStr → Option UInt32) : Handler := fun value_ptr s =>
  if value_ptr = .empty then .ok (ERR, s)
  else s.store
    { s.slot with
      ip := some value_ptr
      ip_dec := (inet_aton value_ptr).getD s.slot.ip_dec }

/-- The loop of `plugin_key_core_id` over `[…]`, with room for `room` more numbers. -/
def coreIdsLoop : Nat → List UInt8 → Option Nat → Option (List Int32)
  | _, _, none => some []
  | 0, _, some _ => none
  | room + 1, mem, some delim =>
    let mem := terminate mem delim
    let temp := delim + 1
    (strchr mem temp ']').bind fun delim =>
      let mem := terminate mem delim
      let temp2 := delim + 1
      (coreIdsLoop room mem (strchr mem temp2 '[')).map fun core_ids =>
        (parseDecimal (stringAt mem temp)).toInt32 :: core_ids

/-- The numbers a value lists, where there is room for `room`. -/
def readCoreIds (room : Nat) (value_ptr : CStr) : Option (List Int32) :=
  let mem := value_ptr.bytes ++ [0]
  coreIdsLoop room mem (strchr mem 0 '[')

def pluginKeyCoreId : Handler := fun value_ptr s =>
  if value_ptr = .empty then .ok (ERR, s)
  else
    match readCoreIds (MAX_PLUGIN_CORE_CNT - s.slot.core_ids.length) value_ptr with
    | none => .error .badAccess
    | some [] => .ok (SUCCESS, s)
    | some core_ids => s.store { s.slot with core_ids := s.slot.core_ids ++ core_ids }

/-- A member that is `true` or `false`. -/
def flagHandler (set : PluginData → Bool → PluginData) : Handler := fun value_ptr s =>
  if value_ptr = .empty then .ok (ERR, s)
  else if value_ptr = .lit "true" then s.store (set s.slot true)
  else if value_ptr = .lit "false" then s.store (set s.slot false)
  else .ok (ERR, s)

def pluginKeyAllNondedicatedCores : Handler :=
  flagHandler fun slot flag => { slot with all_nondedicated_cores := flag }

def pluginKeyOptimized : Handler := flagHandler fun slot flag => { slot with optimized := flag }

/-- `plugin_key_end`. Where `plugin_cnt` gets larger than the table, `main` reads behind
its end. -/
def pluginKeyEnd : Handler := fun value_ptr s =>
  if value_ptr = .empty then .ok (ERR, s)
  else if s.entries.length < MAX_PLUGIN_CNT then
    .ok (SUCCESS, { entries := s.entries ++ [s.slot], slot := .zero })
  else .error .tableFull

def regexKeyRegexId : Handler := fun value_ptr s =>
  if value_ptr = .empty then .ok (ERR, s)
  else s.storeRegex { s.slot.next with id := (parseDecimal value_ptr).toInt32 }

def regexKeyDescription : Handler := fun value_ptr s =>
  if value_ptr = .empty then .ok (ERR, s)
  else s.storeRegex { s.slot.next with description := some value_ptr }

/-- `regex_key_precheck`, which stores an empty value as well. -/
def regexKeyPrecheck : Handler := fun value_ptr s =>
  s.storeRegex { s.slot.next with precheck := some value_ptr }

def regexKeyRegexp : Handler := fun value_ptr s =>
  if value_ptr = .empty then .ok (ERR, s)
  else s.storeRegex { s.slot.next with regexp := some value_ptr }

/-- `regex_key_fields` and the regex it finishes. -/
def regexKeyFieldsHandler : Handler := fun value_ptr s =>
  match regexKeyFields value_ptr with
  | none => .error .badAccess
  | some (res, fields) =>
    if res < 0 then .ok (res, s)
    else if s.slot.regex.length < MAX_REGEX_CNT then
      s.store { s.slot with regex := s.slot.regex ++ [⟨s.slot.next, fields⟩], next := .zero }
    else .error .badAccess

/-! ## Files -/

def pluginDictionary (inet_aton : CStr → Option UInt32) : List (CStr × Handler) :=
  [(.lit "filename", pluginKeyFilename), (.lit "plugin_id", pluginKeyPluginId),
    (.lit "listen_ip", pluginKeyListenIp inet_aton), (.lit "core_id", pluginKeyCoreId),
    (.lit "all_nondedicated_cores", pluginKeyAllNondedicatedCores),
    (.lit "optimized", pluginKeyOptimized), (.lit "end", pluginKeyEnd)]

def regexDictionary : List (CStr × Handler) :=
  [(.lit "regex_id", regexKeyRegexId), (.lit "description", regexKeyDescription),
    (.lit "precheck", regexKeyPrecheck), (.lit "regexp", regexKeyRegexp),
    (.lit "fields", regexKeyFieldsHandler)]

variable (inet_aton : CStr → Option UInt32)

/-- A round of `evaluate_plugin`. -/
def evaluateRow (s : PluginState) (row : CStr) : Except Fault PluginState :=
  if row = .empty then .ok s
  else
    match splitRow row with
    | none => .error .badAccess
    | some (key, value) => do
      -- a value that is not valid is ignored here
      let s ← match (pluginDictionary inet_aton).lookup key with
        | some func => (func value s).map Prod.snd
        | none => .ok s
      match regexDictionary.lookup key with
      | some func =>
        let (res, s) ← func value s
        if res < 0 then .error .exit else .ok s
      | none => .ok s

def evaluatePlugin (s : PluginState) (rows : List CStr) : Except Fault PluginState :=
  rows.foldlM (evaluateRow inet_aton) s

/-- `parse_plugin_file`, where `file` is what is in the file, if it can be opened. -/
def parsePluginFile (s : PluginState) (file : Option (List UInt8)) :
    Except Fault (Int × PluginState) :=
  match file with
  | none => .ok (ERR, s)
  | some file => do
    let rows ← sanitizePlugin (readRows LARGEBUFLEN file)
    let s ← evaluatePlugin inet_aton s rows
    .ok (SUCCESS, s)

/-- A round of the loop of `main` over `plugin_file`. -/
def parseNext (s : PluginState) (file : Option (List UInt8)) : Except Fault PluginState := do
  let (res, s) ← parsePluginFile inet_aton s file
  if res < 0 then .error .exit else .ok s

/-- The loop of `main` over `plugin_file`. -/
def parsePluginFiles (s : PluginState) (files : List (Option (List UInt8))) :
    Except Fault PluginState :=
  files.foldlM (parseNext inet_aton) s

end LogCollector
