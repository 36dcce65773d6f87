import LogCollector.Records.Regex

/-!
# Choosing a regex

The first half of what `worker_loop` does with a packet: the regexes whose
precheck occurs in the log are put into `suit_rgxs`, all of `suit_rgxs` is
matched, and where nothing matched the generic regexes are. The variables this
works on are declared at the head of the loop over the plugins, so they are set
once for the packets of all masters.
-/

namespace LogCollector

/-- What `worker_loop` builds records with: the plugins of the thread, and
whether `debug_enabled && debug_level == 2`. -/
structure RecordEnv where
  pcre : Pcre
  plugins : List Plugin
  debug : Bool

/-- The variables of `worker_loop` that keep their contents from one packet to
the next. -/
structure PassVars where
  /-- The first `suit_cnt` entries. -/
  suit_rgxs : List Regex
  best_match : Nat
  /-- `none` before the first assignment. -/
  best_rgx : Option Regex
  best_rgx_index : Nat
  rgx_sub_vectors : Nat → Nat → Int
  /-- Declared where it is used, without an initialiser. -/
  func_ret_str : CStr

/-- The initialisers at the head of the loop over the plugins. -/
def PassVars.beginPass (vars : PassVars) : PassVars :=
  { vars with suit_rgxs := [], best_match := 0, best_rgx_index := 0 }

/-- `suit_rgxs[suit_cnt] = rgx; suit_cnt++`; `none` past the end of the array. -/
def storeSuitable (suit_rgxs : List Regex) (rgx : Regex) : Option (List Regex) :=
  if suit_rgxs.length < MAX_REGEX_CNT then some (suit_rgxs ++ [rgx]) else none

/-- A regex with a precheck is dropped where the array is full. -/
def addFilled (buf : CStr) (suit_rgxs : List Regex) (rgx : Regex) : List Regex :=
  if buf.strstr rgx.precheck then (storeSuitable suit_rgxs rgx).getD suit_rgxs else suit_rgxs

/-- The regexes to match. -/
def selectSuitable (plgn : Plugin) (buf : CStr) (suit_rgxs : List Regex) :
    Option (List Regex) :=
  let filled := plgn.filled_p_regex.foldl (addFilled buf) suit_rgxs
  if plgn.optimized then some filled
  -- the length is not looked at here
  else plgn.empty_p_regex.foldlM storeSuitable filled

/-- The body of both loops that match: `rgx` is matched into row `r_index`, and
is the best one where it scores more than the best so far. -/
def tryRegex (pcre : Pcre) (buf : CStr) (vars : PassVars) (r_index : Nat) (rgx : Regex) :
    PassVars :=
  let (ret, ovector) := matchWithPcreJit pcre rgx buf
  let vars :=
    { vars with rgx_sub_vectors := Function.update vars.rgx_sub_vectors r_index ovector }
  if ret > vars.best_match then
    { vars with best_match := ret, best_rgx := some rgx, best_rgx_index := r_index }
  else vars

/-- The loop over `suit_rgxs`. -/
def matchSuitable (pcre : Pcre) (buf : CStr) (vars : PassVars) : PassVars :=
  vars.suit_rgxs.zipIdx.foldl (fun vars entry => tryRegex pcre buf vars entry.2 entry.1) vars

/-- The loop over the generic regexes. It reads entry `i` in every round, where
`i` is the index of the plugin; an entry that was not filled is a null
pointer. -/
def matchGeneric (pcre : Pcre) (plgn : Plugin) (i : Nat) (buf : CStr) (vars : PassVars) :
    Option PassVars :=
  (List.range plgn.generic_p_regex.length).foldlM
    (fun vars r_index =>
      plgn.generic_p_regex[i]?.bind fun rgx =>
        (storeSuitable vars.suit_rgxs rgx).map fun suit_rgxs =>
          tryRegex pcre buf { vars with suit_rgxs } r_index rgx)
    { vars with suit_rgxs := [] }

/-- The variables when a regex was chosen for a log of the plugin at `i`;
`best_match` is 0 where none was. -/
def chooseRegex (env : RecordEnv) (i : Nat) (buf : CStr) (vars : PassVars) : Option PassVars :=
  env.plugins[i]?.bind fun plgn =>
    (selectSuitable plgn buf vars.suit_rgxs).bind fun suit_rgxs =>
      let vars := matchSuitable env.pcre buf { vars with suit_rgxs }
      if vars.best_match = 0 then matchGeneric env.pcre plgn i buf vars else some vars

/-- The regex a record is built with. -/
def PassVars.chosen (vars : PassVars) : Option Regex :=
  if 0 < vars.best_match then vars.best_rgx else none

end LogCollector
