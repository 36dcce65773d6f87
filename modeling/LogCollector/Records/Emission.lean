import LogCollector.Records.Choice
import LogCollector.Records.CustomFunctions
import LogCollector.Json.Value
import LogCollector.Loops.Worker
import LogCollector.Hash

/-!
# Building a record

The second half of what `worker_loop` does with a packet: the fields of the
chosen regex are put into a JSON object and, one after the other, into
`sub_strings`, whose hash is the last member. `recordBuilder` is the record
builder of the worker's loop.
-/

namespace LogCollector

def MAX_SUB_STR_LEN : Nat := 4096

def MAX_CUST_FUNC_RET_STR : Nat := 256

/-- `STR_CAT`: a piece that does not fit is left out. -/
def strCat (sub_strings piece : CStr) : CStr :=
  if sub_strings.strlen + piece.strlen < MAX_SUB_STR_LEN then sub_strings ++ piece
  else sub_strings

/-- The record under construction. -/
structure Emission where
  jason : Record
  sub_strings : CStr

namespace Emission

/-- `json_object_create` and an empty `sub_strings`. -/
def empty : Emission := ⟨.empty, .empty⟩

/-- A member, and its text for the hash. -/
def put (e : Emission) (key : CStr) (value : Scalar) (piece : CStr) : Emission :=
  ⟨e.jason.put key value, strCat e.sub_strings piece⟩

/-- The member of a field. -/
def putField (e : Emission) (field : Field) (s : CStr) : Emission :=
  e.put field.key (if field.is_integer then .integer s.strtol else .string s) s

end Emission

section

variable (pcre : Pcre) (rgx : Regex) (buf : CStr) (ovector : Nat → Int) (stringcount : Nat)

/-- What a field of the chosen regex captured. -/
def capturedBy (field : Field) : Option CStr :=
  pcre.get_named_substring rgx.regexp buf ovector stringcount field.findby

/-- The loop over the fields of the chosen regex; `none` where a custom function
writes past the end of `func_ret_str`. -/
def emitField : Emission × CStr → Field → Option (Emission × CStr)
  | (e, func_ret_str), field =>
    if field.is_value then some (e.putField field field.findby, func_ret_str)
    else match capturedBy pcre rgx buf ovector stringcount field, field.func_name with
      | none, _ => some (e, func_ret_str)
      | some sub, none => some (e.putField field sub, func_ret_str)
      | some sub, some func_name =>
        let func_ret_str := customFunction pcre func_name sub func_ret_str
        if func_ret_str.strlen < MAX_CUST_FUNC_RET_STR then
          some (e.putField field func_ret_str, func_ret_str)
        else none

end

/-- The members that depend on the choice. -/
def emitMatch (pcre : Pcre) (buf : CStr) (vars : PassVars) : Option (Emission × CStr) :=
  if 0 < vars.best_match then
    vars.best_rgx.bind fun rgx =>
      let ovector := vars.rgx_sub_vectors vars.best_rgx_index
      (rgx.fields.foldlM (emitField pcre rgx buf ovector vars.best_match)
        (.empty, vars.func_ret_str)).map fun (e, func_ret_str) =>
          let e := e.put (.lit "regex_matched") (.boolean true) (.lit "true")
          (e.put (.lit "matched_regex_name") (.string rgx.description) rgx.description,
            func_ret_str)
  else
    some (Emission.empty.put (.lit "regex_matched") (.boolean false) (.lit "false"),
      vars.func_ret_str)

/-- `suit_rgx_indxs`; each identifier is cut after four characters. -/
def suitIndices (suit_rgxs : List Regex) : CStr :=
  suit_rgxs.foldl (fun s rgx => s ++ .ofBytes ((CStr.ofInt rgx.id.toInt ++ .lit " ").bytes.take 4))
    .empty

/-- The member `debug`. It names `best_rgx`, whether or not a regex was
chosen. -/
def putDebug (vars : PassVars) (jason : Record) : Option Record :=
  vars.best_rgx.map fun rgx =>
    jason.put (.lit "debug") <| .string <|
      .lit "BRI: " ++ .ofInt rgx.id.toInt ++ .lit ", BM: " ++ .ofInt vars.best_match ++
      .lit ", SC: " ++ .ofInt vars.suit_rgxs.length ++ .lit ", SRI: " ++
      suitIndices vars.suit_rgxs

/-- The record of a log, and what is left in `func_ret_str`. -/
def emitRecord (env : RecordEnv) (i : Nat) (buf : CStr) (vars : PassVars) :
    Option (Record × CStr) :=
  env.plugins[i]?.bind fun plgn =>
    (emitMatch env.pcre buf vars).bind fun (e, func_ret_str) =>
      let e := e.put (.lit "raw_log") (.string buf) buf
      let e := e.put (.lit "plugin_id") (.integer plgn.plugin_id.toInt64)
        (.ofInt plgn.plugin_id.toInt)
      let hash := hashString e.sub_strings 0
      let jason := e.jason.put (.lit "siemplus_hash") (.string (.ofInt hash.toNat))
      (if env.debug then putDebug vars jason else some jason).map (·, func_ret_str)

/-- What `worker_loop` makes of a packet of the plugin at `i`. -/
def processPacket (env : RecordEnv) (vars : PassVars) (i : Nat) (buf : CStr) :
    Option (Record × PassVars) :=
  (chooseRegex env i buf vars).bind fun vars =>
    (emitRecord env i buf vars).map fun (record, func_ret_str) =>
      (record, { vars with func_ret_str })

/-- The record builder of `worker_loop`; `stack` is what its variables happen to
hold when the thread starts. -/
def recordBuilder (env : RecordEnv) (stack : PassVars) : RecordBuilder PassVars CStr Record where
  initial := stack
  beginPass := PassVars.beginPass
  build := processPacket env

end LogCollector
