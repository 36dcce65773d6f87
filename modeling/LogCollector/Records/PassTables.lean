import LogCollector.Lib.Fallible
import LogCollector.Lib.Machine
import LogCollector.Records.Selection

/-!
# The tables of a pass

`suit_rgxs`, `rgx_sub_vectors` and `best_rgx` are declared in the loop over the
plugins and serve the packets of all masters. Here `worker_loop` is read with
every access to them checked: a store or a row past the end of its array, and a
regex pointer that nothing was assigned to in this pass, end the run
(`packetTables`).

Three accesses are not kept in bounds. The regexes without a precheck are stored
behind what the packets of earlier masters left, the generic regexes are read at
the index of the plugin, and the debug output follows `best_rgx` where nothing was
chosen. A run is safe exactly where no packet meets one of them
(`tables_safe_iff`).
-/

namespace LogCollector

/-! ## Checked accesses -/

/-- The variables at the head of the loop over the plugins. Nothing is assigned to
`best_rgx` yet. -/
def PassVars.declared (vars : PassVars) : PassVars := { vars.beginPass with best_rgx := none }

/-- The body of the matching loops, with its row checked. -/
def tryRow (pcre : Pcre) (buf : CStr) (vars : PassVars) (r_index : Nat) (rgx : Regex) :
    Option PassVars :=
  if r_index < MAX_REGEX_CNT then some (tryRegex pcre buf vars r_index rgx) else none

/-- `matchSuitable`, with its rows checked. -/
def matchSuitableRows (pcre : Pcre) (buf : CStr) (vars : PassVars) : Option PassVars :=
  vars.suit_rgxs.zipIdx.foldlM (fun vars entry => tryRow pcre buf vars entry.2 entry.1) vars

/-- `matchGeneric`, with its rows checked. -/
def matchGenericRows (pcre : Pcre) (plgn : Plugin) (i : Nat) (buf : CStr) (vars : PassVars) :
    Option PassVars :=
  (List.range plgn.generic_p_regex.length).foldlM
    (fun vars r_index =>
      plgn.generic_p_regex[i]?.bind fun rgx =>
        (storeSuitable vars.suit_rgxs rgx).bind fun suit_rgxs =>
          tryRow pcre buf { vars with suit_rgxs } r_index rgx)
    { vars with suit_rgxs := [] }

/-- The record of a matched log is built with `best_rgx` and the row it was matched
into. -/
def readBest (vars : PassVars) : Option PassVars :=
  if 0 < vars.best_match then
    vars.best_rgx.bind fun _ => if vars.best_rgx_index < MAX_REGEX_CNT then some vars else none
  else some vars

/-- The debug output follows `best_rgx` whatever the result. -/
def readDebug (debug : Bool) (vars : PassVars) : Option PassVars :=
  if debug then vars.best_rgx.map fun _ => vars else some vars

/-- What `worker_loop` does to the tables for a packet; `none` where an access is out of
bounds or follows a pointer that was not assigned. -/
def packetTables (env : RecordEnv) (i : Nat) (buf : CStr) (vars : PassVars) : Option PassVars :=
  env.plugins[i]?.bind fun plgn =>
    (selectSuitable plgn buf vars.suit_rgxs).bind fun suit_rgxs =>
      (matchSuitableRows env.pcre buf { vars with suit_rgxs }).bind fun vars =>
        (if vars.best_match = 0 then matchGenericRows env.pcre plgn i buf vars
          else some vars).bind fun vars =>
          (readBest vars).bind (readDebug env.debug)

/-- Where a worker stands: the plugin of the pass, and the variables. -/
structure Pass where
  i : Nat
  vars : PassVars

inductive PassEvent where
  /-- The next round of the loop over the plugins. -/
  | plugin (i : Nat)
  /-- A packet from one of the masters. -/
  | packet (buf : CStr)

/-- A worker on its tables. The masters come in any number and order. -/
def passStep (env : RecordEnv) : Lib.Step Pass PassEvent
  | s, .plugin i => if i < env.plugins.length then some ⟨i, s.vars.declared⟩ else none
  | s, .packet buf => (packetTables env s.i buf s.vars).map (⟨s.i, ·⟩)

/-- The first round; `stack` is what the variables happen to hold. -/
def firstPass (stack : PassVars) : Pass := ⟨0, stack.declared⟩

/-- The accesses for a packet are all good. -/
def AccessesGood (env : RecordEnv) (s : Pass) : PassEvent → Prop
  | .plugin _ => True
  | .packet buf => packetTables env s.i buf s.vars ≠ none

/-! ## Exactly when -/

/-- `suit_rgxs` after the regexes with a precheck: a full array takes no more. -/
def filledAfter (plgn : Plugin) (buf : CStr) (suit_rgxs : List Regex) : List Regex :=
  (suit_rgxs ++ plgn.filled_p_regex.filter fun rgx => buf.strstr rgx.precheck).take MAX_REGEX_CNT

/-- The regexes that are matched first. -/
def toMatch (plgn : Plugin) (buf : CStr) (suit_rgxs : List Regex) : List Regex :=
  filledAfter plgn buf suit_rgxs ++ if plgn.optimized then [] else plgn.empty_p_regex

/-- What the packet needs of its plugin and of what the packets before it left. -/
structure TablesSuffice (env : RecordEnv) (i : Nat) (buf : CStr) (vars : PassVars)
    (plgn : Plugin) : Prop where
  /-- The regexes without a precheck find room. -/
  room : plgn.optimized = false →
    (filledAfter plgn buf vars.suit_rgxs).length + plgn.empty_p_regex.length ≤ MAX_REGEX_CNT
  /-- Where nothing scores there is a generic regex at the index of the plugin, or
  none at all. -/
  generic : vars.best_match = 0 →
    (∀ rgx ∈ toMatch plgn buf vars.suit_rgxs, regexScore env.pcre buf rgx = 0) →
      plgn.generic_p_regex = [] ∨ i < plgn.generic_p_regex.length
  /-- With debug output something scores, now or for a packet before. -/
  chosen : env.debug = true → 0 < vars.best_match ∨
    (∃ rgx ∈ toMatch plgn buf vars.suit_rgxs, 0 < regexScore env.pcre buf rgx) ∨
    ∃ g, plgn.generic_p_regex[i]? = some g ∧ 0 < regexScore env.pcre buf g

instance TablesSuffice.decidable (env : RecordEnv) (i : Nat) (buf : CStr) (vars : PassVars)
    (plgn : Plugin) : Decidable (TablesSuffice env i buf vars plgn) :=
  have : Decidable (∃ g, plgn.generic_p_regex[i]? = some g ∧ 0 < regexScore env.pcre buf g) :=
    inferInstanceAs (Decidable (∃ g ∈ plgn.generic_p_regex[i]?, 0 < regexScore env.pcre buf g))
  decidable_of_iff (_ ∧ _ ∧ _)
    ⟨fun ⟨room, generic, chosen⟩ => ⟨room, generic, chosen⟩,
      fun h => ⟨h.room, h.generic, h.chosen⟩⟩

def TablesSufficeFor (env : RecordEnv) (s : Pass) : PassEvent → Prop
  | .plugin _ => True
  | .packet buf => ∃ plgn, env.plugins[s.i]? = some plgn ∧ TablesSuffice env s.i buf s.vars plgn

instance TablesSufficeFor.decidable (env : RecordEnv) (s : Pass) (event : PassEvent) :
    Decidable (TablesSufficeFor env s event) :=
  match event with
  | .plugin _ => .isTrue trivial
  | .packet buf => inferInstanceAs
      (Decidable (∃ plgn ∈ env.plugins[s.i]?, TablesSuffice env s.i buf s.vars plgn))

/-! ## The variables between packets -/

/-- `best_rgx` is assigned with the first score, and its row is one of the table. -/
structure PassVars.Kept (vars : PassVars) : Prop where
  suit : vars.suit_rgxs.length ≤ MAX_REGEX_CNT
  assigned : vars.best_rgx.isSome ↔ 0 < vars.best_match
  row : vars.best_rgx_index < MAX_REGEX_CNT

theorem PassVars.kept_declared (vars : PassVars) : vars.declared.Kept where
  suit := Nat.zero_le _
  assigned := iff_of_false (fun h => by cases h) (Nat.lt_irrefl 0)
  row := Nat.zero_lt_succ _

theorem PassVars.Kept.withSuitable {vars : PassVars} (h : vars.Kept) {suit_rgxs : List Regex}
    (hsuit : suit_rgxs.length ≤ MAX_REGEX_CNT) : PassVars.Kept { vars with suit_rgxs } :=
  ⟨hsuit, h.assigned, h.row⟩

@[simp] theorem suit_rgxs_tryRegex (pcre : Pcre) (buf : CStr) (vars : PassVars) (r_index : Nat)
    (rgx : Regex) : (tryRegex pcre buf vars r_index rgx).suit_rgxs = vars.suit_rgxs := by
  unfold tryRegex
  dsimp only
  split
  · rfl
  · rfl

/-- A match keeps the variables in order. -/
theorem PassVars.Kept.tryRegex {vars : PassVars} (h : vars.Kept) (pcre : Pcre) (buf : CStr)
    {r_index : Nat} (hrow : r_index < MAX_REGEX_CNT) (rgx : Regex) :
    (tryRegex pcre buf vars r_index rgx).Kept := by
  unfold LogCollector.tryRegex
  dsimp only
  split
  next hbetter => exact ⟨h.suit, iff_of_true rfl (Nat.zero_lt_of_lt hbetter), hrow⟩
  next => exact ⟨h.suit, h.assigned, h.row⟩

theorem storeSuitable_eq_some {suit_rgxs suit_rgxs' : List Regex} {rgx : Regex}
    (h : storeSuitable suit_rgxs rgx = some suit_rgxs') :
    suit_rgxs'.length = suit_rgxs.length + 1 ∧ suit_rgxs'.length ≤ MAX_REGEX_CNT := by
  obtain ⟨hroom, hstored⟩ := Option.ite_none_right_eq_some.mp h
  cases hstored
  rw [List.length_append, List.length_singleton]
  exact ⟨rfl, hroom⟩

/-! ## Selection -/

theorem foldl_addFilled_take (buf : CStr) {rgxs suit_rgxs : List Regex}
    (hsuit : suit_rgxs.length ≤ MAX_REGEX_CNT) :
    rgxs.foldl (addFilled buf) suit_rgxs =
      (suit_rgxs ++ rgxs.filter fun rgx => buf.strstr rgx.precheck).take MAX_REGEX_CNT := by
  induction rgxs generalizing suit_rgxs with
  | nil => rw [List.foldl_nil, List.filter_nil, List.append_nil, List.take_of_length_le hsuit]
  | cons rgx rgxs ih =>
    rw [List.foldl_cons, List.filter_cons, addFilled]
    split
    · by_cases hroom : suit_rgxs.length < MAX_REGEX_CNT
      · have hstored : (suit_rgxs ++ [rgx]).length ≤ MAX_REGEX_CNT := by
          rw [List.length_append, List.length_singleton]
          exact hroom
        rw [storeSuitable, if_pos hroom, Option.getD_some, ih hstored, List.append_assoc,
          List.singleton_append]
      · have hfull : suit_rgxs.length = MAX_REGEX_CNT := by omega
        rw [storeSuitable, if_neg hroom, Option.getD_none, ih hsuit, ← hfull, List.take_left,
          List.take_left]
    · exact ih hsuit

/-- The array has room for what is stored, or the store is past its end. -/
theorem foldlM_storeSuitable_eq {rgxs suit_rgxs : List Regex}
    (hsuit : suit_rgxs.length ≤ MAX_REGEX_CNT) :
    rgxs.foldlM storeSuitable suit_rgxs =
      if suit_rgxs.length + rgxs.length ≤ MAX_REGEX_CNT then some (suit_rgxs ++ rgxs)
      else none := by
  split
  next hfits => exact foldlM_storeSuitable hfits
  next hover =>
    induction rgxs generalizing suit_rgxs with
    | nil => exact absurd hsuit hover
    | cons rgx rgxs ih =>
      rw [List.foldlM_cons]
      cases hstore : storeSuitable suit_rgxs rgx with
      | none => rfl
      | some suit_rgxs' =>
        obtain ⟨hlength, hroom⟩ := storeSuitable_eq_some hstore
        apply ih hroom
        rw [List.length_cons] at hover
        omega

theorem length_filledAfter_le (plgn : Plugin) (buf : CStr) (suit_rgxs : List Regex) :
    (filledAfter plgn buf suit_rgxs).length ≤ MAX_REGEX_CNT := by
  rw [filledAfter, List.length_take]
  exact Nat.min_le_left _ _

theorem selectSuitable_eq_toMatch {plgn : Plugin} {suit_rgxs : List Regex}
    (hsuit : suit_rgxs.length ≤ MAX_REGEX_CNT) (buf : CStr) :
    selectSuitable plgn buf suit_rgxs =
      if plgn.optimized = false → (filledAfter plgn buf suit_rgxs).length +
          plgn.empty_p_regex.length ≤ MAX_REGEX_CNT then some (toMatch plgn buf suit_rgxs)
      else none := by
  have hfilled : plgn.filled_p_regex.foldl (addFilled buf) suit_rgxs =
      filledAfter plgn buf suit_rgxs := foldl_addFilled_take buf hsuit
  rw [selectSuitable, hfilled, toMatch]
  cases plgn.optimized with
  | true => simp only [if_true, List.append_nil, Bool.true_eq_false, false_implies]
  | false =>
    simp only [Bool.false_eq_true, if_false, forall_const]
    exact foldlM_storeSuitable_eq (length_filledAfter_le plgn buf suit_rgxs)

theorem length_of_selectSuitable {plgn : Plugin} {buf : CStr} {suit_rgxs suit_rgxs' : List Regex}
    (hsuit : suit_rgxs.length ≤ MAX_REGEX_CNT)
    (h : selectSuitable plgn buf suit_rgxs = some suit_rgxs') :
    suit_rgxs'.length ≤ MAX_REGEX_CNT := by
  rw [selectSuitable_eq_toMatch hsuit] at h
  obtain ⟨hroom, hselected⟩ := Option.ite_none_right_eq_some.mp h
  cases hselected
  rw [toMatch, List.length_append]
  cases hoptimized : plgn.optimized with
  | true =>
    rw [if_pos rfl, List.length_nil, Nat.add_zero]
    exact length_filledAfter_le plgn buf suit_rgxs
  | false =>
    rw [if_neg (by decide)]
    exact hroom hoptimized

/-! ## The checks that cannot fail -/

/-- Every row of the first loop is the index of an entry. -/
theorem matchSuitableRows_eq {vars : PassVars} (hsuit : vars.suit_rgxs.length ≤ MAX_REGEX_CNT)
    (pcre : Pcre) (buf : CStr) :
    matchSuitableRows pcre buf vars = some (matchSuitable pcre buf vars) := by
  have hrows : ∀ entry ∈ vars.suit_rgxs.zipIdx, entry.2 < MAX_REGEX_CNT := by
    intro entry hentry
    have := List.snd_lt_of_mem_zipIdx hentry
    omega
  have hfold : ∀ (entries : List (Regex × Nat)) (vars : PassVars),
      (∀ entry ∈ entries, entry.2 < MAX_REGEX_CNT) →
      entries.foldlM (fun vars entry => tryRow pcre buf vars entry.2 entry.1) vars =
        some (entries.foldl (fun vars entry => tryRegex pcre buf vars entry.2 entry.1) vars) := by
    intro entries
    induction entries with
    | nil => exact fun _ _ => rfl
    | cons entry entries ih =>
      intro vars hentries
      obtain ⟨hrow, hrest⟩ := List.forall_mem_cons.mp hentries
      rw [List.foldlM_cons, tryRow, if_pos hrow]
      exact ih _ hrest
  exact hfold _ _ hrows

/-- Every row of the second loop is the index of a generic regex. -/
theorem matchGenericRows_eq {plgn : Plugin} (hcnt : plgn.regex.length ≤ MAX_REGEX_CNT)
    (pcre : Pcre) (i : Nat) (buf : CStr) (vars : PassVars) :
    matchGenericRows pcre plgn i buf vars = matchGeneric pcre plgn i buf vars := by
  have hlength : plgn.generic_p_regex.length ≤ plgn.regex.length := List.length_filter_le _ _
  refine Lib.Fallible.foldlM_congr (I := fun _ => True) (fun _ _ _ _ _ _ => trivial) ?_ trivial
  intro vars r_index hmem _
  have hrow : r_index < MAX_REGEX_CNT := by
    have := List.mem_range.mp hmem
    omega
  simp only [tryRow, if_pos hrow, Option.map_eq_bind]
  rfl

/-- What is left to check is `best_rgx`. -/
theorem packetTables_eq {env : RecordEnv} {i : Nat} {buf : CStr} {vars : PassVars}
    (hcnt : ∀ plgn ∈ env.plugins, plgn.regex.length ≤ MAX_REGEX_CNT)
    (hsuit : vars.suit_rgxs.length ≤ MAX_REGEX_CNT) :
    packetTables env i buf vars =
      (chooseRegex env i buf vars).bind fun vars => (readBest vars).bind (readDebug env.debug) := by
  rw [packetTables, chooseRegex]
  cases hplgn : env.plugins[i]? with
  | none => rfl
  | some plgn =>
    have hplgnCnt := hcnt plgn (List.mem_of_getElem? hplgn)
    rw [Option.bind_some, Option.bind_some]
    cases hselect : selectSuitable plgn buf vars.suit_rgxs with
    | none => rfl
    | some suit_rgxs =>
      have hsuit' : { vars with suit_rgxs }.suit_rgxs.length ≤ MAX_REGEX_CNT :=
        length_of_selectSuitable hsuit hselect
      have hrows := matchSuitableRows_eq hsuit' env.pcre buf
      simp only [Option.bind_some, hrows, matchGenericRows_eq hplgnCnt]

/-! ## What a packet leaves -/

theorem PassVars.Kept.matchSuitable {vars : PassVars} (h : vars.Kept) (pcre : Pcre) (buf : CStr) :
    (matchSuitable pcre buf vars).Kept := by
  have hrows : ∀ entry ∈ vars.suit_rgxs.zipIdx, entry.2 < MAX_REGEX_CNT := by
    intro entry hentry
    have := List.snd_lt_of_mem_zipIdx hentry
    have := h.suit
    omega
  exact List.foldlRecOn _ _ h fun vars hkept entry hentry =>
    hkept.tryRegex pcre buf (hrows entry hentry) entry.1

theorem PassVars.Kept.matchGeneric {vars vars' : PassVars} (h : vars.Kept) {plgn : Plugin}
    (hcnt : plgn.regex.length ≤ MAX_REGEX_CNT) {pcre : Pcre} {i : Nat} {buf : CStr}
    (hrun : matchGeneric pcre plgn i buf vars = some vars') : vars'.Kept := by
  have hlength : plgn.generic_p_regex.length ≤ plgn.regex.length := List.length_filter_le _ _
  refine Lib.Fallible.foldlM_induct (I := PassVars.Kept) ?_ (h.withSuitable (Nat.zero_le _)) hrun
  intro vars r_index vars' hmem hkept hround
  obtain ⟨rgx, -, hround⟩ := Option.bind_eq_some_iff.mp hround
  obtain ⟨suit_rgxs, hstore, rfl⟩ := Option.map_eq_some_iff.mp hround
  refine (hkept.withSuitable (storeSuitable_eq_some hstore).2).tryRegex pcre buf ?_ rgx
  have := List.mem_range.mp hmem
  omega

theorem PassVars.Kept.chooseRegex {vars vars' : PassVars} (h : vars.Kept) {env : RecordEnv}
    (hcnt : ∀ plgn ∈ env.plugins, plgn.regex.length ≤ MAX_REGEX_CNT) {i : Nat} {buf : CStr}
    (hrun : chooseRegex env i buf vars = some vars') : vars'.Kept := by
  obtain ⟨plgn, hplgn, hrun⟩ := Option.bind_eq_some_iff.mp hrun
  obtain ⟨suit_rgxs, hselect, hrun⟩ := Option.bind_eq_some_iff.mp hrun
  have hkept : (LogCollector.matchSuitable env.pcre buf { vars with suit_rgxs }).Kept :=
    (h.withSuitable (length_of_selectSuitable h.suit hselect)).matchSuitable env.pcre buf
  dsimp only at hrun
  split at hrun
  next => exact hkept.matchGeneric (hcnt plgn (List.mem_of_getElem? hplgn)) hrun
  next =>
    cases hrun
    exact hkept

/-- A record is built with a regex that was chosen. -/
theorem PassVars.Kept.readBest {vars : PassVars} (h : vars.Kept) : readBest vars = some vars := by
  unfold LogCollector.readBest
  split
  next hpos =>
    obtain ⟨rgx, hrgx⟩ := Option.isSome_iff_exists.mp (h.assigned.mpr hpos)
    rw [hrgx, Option.bind_some, if_pos h.row]
  next => rfl

theorem PassVars.Kept.readDebug_ne_none_iff {vars : PassVars} (h : vars.Kept) (debug : Bool) :
    readDebug debug vars ≠ none ↔ (debug = true → 0 < vars.best_match) := by
  rw [readDebug, ← h.assigned]
  cases debug with
  | true =>
    rw [if_pos rfl, ne_eq, Option.map_eq_none_iff, ← ne_eq, Option.ne_none_iff_isSome]
    exact ⟨fun h _ => h, fun h => h rfl⟩
  | false => exact iff_of_true (fun h => by cases h) (fun h => by cases h)

theorem readDebug_eq_some {debug : Bool} {vars vars' : PassVars}
    (h : readDebug debug vars = some vars') : vars' = vars := by
  unfold readDebug at h
  split at h
  next =>
    obtain ⟨_, -, rfl⟩ := Option.map_eq_some_iff.mp h
    rfl
  next =>
    cases h
    rfl

theorem PassVars.Kept.packetTables {vars vars' : PassVars} (h : vars.Kept) {env : RecordEnv}
    (hcnt : ∀ plgn ∈ env.plugins, plgn.regex.length ≤ MAX_REGEX_CNT) {i : Nat} {buf : CStr}
    (hrun : packetTables env i buf vars = some vars') : vars'.Kept := by
  rw [packetTables_eq hcnt h.suit] at hrun
  obtain ⟨chosen, hchosen, hrun⟩ := Option.bind_eq_some_iff.mp hrun
  have hkept := h.chooseRegex hcnt hchosen
  rw [hkept.readBest, Option.bind_some] at hrun
  rw [readDebug_eq_some hrun]
  exact hkept

/-! ## One packet -/

/-- Nothing has scored after the first loop exactly where nothing had before and
nothing does now. -/
theorem best_match_matchSuitable_eq_zero_iff (pcre : Pcre) (buf : CStr) (vars : PassVars) :
    (matchSuitable pcre buf vars).best_match = 0 ↔
      vars.best_match = 0 ∧ ∀ rgx ∈ vars.suit_rgxs, regexScore pcre buf rgx = 0 := by
  have hbest := congrArg Prod.fst (best_matchSuitable pcre buf vars)
  exact (Eq.congr_left hbest).trans Lib.foldl_improve_eq_zero_iff

/-- The second loop, where there is a generic regex at the index of the plugin. -/
theorem matchGeneric_scores (pcre : Pcre) (buf : CStr) {plgn : Plugin} {i : Nat} {g : Regex}
    (hcnt : plgn.regex.length ≤ MAX_REGEX_CNT) (hg : plgn.generic_p_regex[i]? = some g)
    {vars : PassVars} (hzero : vars.best_match = 0) :
    ∃ vars', matchGeneric pcre plgn i buf vars = some vars' ∧
      (0 < vars'.best_match ↔ 0 < regexScore pcre buf g) := by
  obtain ⟨vars', n, hpos, hrun, hbest⟩ := exists_matchGeneric hcnt hg vars
  refine ⟨vars', hrun, ?_⟩
  have hnothing : vars'.best_match = 0 ↔ regexScore pcre buf g = 0 := by
    apply (Eq.congr_left (congrArg Prod.fst hbest)).trans
    rw [Lib.foldl_improve_eq_zero_iff]
    constructor
    · intro h
      exact h.2 g (List.mem_replicate.mpr ⟨hpos.ne', rfl⟩)
    · intro h
      exact ⟨hzero, fun rgx hrgx => List.eq_of_mem_replicate hrgx ▸ h⟩
  rw [Nat.pos_iff_ne_zero, Nat.pos_iff_ne_zero, ne_eq, ne_eq, hnothing]

/-- Where the second loop comes to its end, and what it has chosen then. -/
theorem matchGeneric_ends {pcre : Pcre} {plgn : Plugin} {i : Nat} {buf : CStr}
    (hcnt : plgn.regex.length ≤ MAX_REGEX_CNT) {vars : PassVars} (hzero : vars.best_match = 0) :
    (matchGeneric pcre plgn i buf vars ≠ none ↔
      plgn.generic_p_regex = [] ∨ i < plgn.generic_p_regex.length) ∧
    ∀ vars', matchGeneric pcre plgn i buf vars = some vars' →
      (0 < vars'.best_match ↔
        ∃ g, plgn.generic_p_regex[i]? = some g ∧ 0 < regexScore pcre buf g) := by
  cases hg : plgn.generic_p_regex[i]? with
  | some g =>
    obtain ⟨vars', hrun, hpos⟩ := matchGeneric_scores pcre buf hcnt hg hzero
    have hindex := (List.getElem?_eq_some_iff.mp hg).1
    rw [hrun]
    refine ⟨iff_of_true (Option.some_ne_none _) (.inr hindex), ?_⟩
    intro vars'' h
    cases h
    rw [hpos]
    constructor
    · intro h
      exact ⟨g, rfl, h⟩
    · rintro ⟨g', h, hscore⟩
      cases h
      exact hscore
  | none =>
    have hindex : ¬ i < plgn.generic_p_regex.length :=
      Nat.not_lt.mpr (List.getElem?_eq_none_iff.mp hg)
    by_cases hnil : plgn.generic_p_regex = []
    · have hrun : matchGeneric pcre plgn i buf vars = some { vars with suit_rgxs := [] } := by
        rw [matchGeneric, hnil]
        rfl
      rw [hrun]
      refine ⟨iff_of_true (Option.some_ne_none _) (.inl hnil), ?_⟩
      intro vars'' h
      cases h
      apply iff_of_false (Nat.not_lt.mpr hzero.le)
      rintro ⟨g, h, -⟩
      cases h
    · rw [matchGeneric_eq_none hg hnil]
      refine ⟨iff_of_false (fun h => h rfl) (not_or.mpr ⟨hnil, hindex⟩), ?_⟩
      intro vars'' h
      cases h

section

variable {env : RecordEnv} {i : Nat} {buf : CStr} {vars : PassVars} {plgn : Plugin}

/-- The variables when the regexes of `suit_rgxs` were matched. -/
def afterSuitable (env : RecordEnv) (buf : CStr) (vars : PassVars) (plgn : Plugin) : PassVars :=
  matchSuitable env.pcre buf { vars with suit_rgxs := toMatch plgn buf vars.suit_rgxs }

theorem best_match_afterSuitable_eq_zero_iff :
    (afterSuitable env buf vars plgn).best_match = 0 ↔ vars.best_match = 0 ∧
      ∀ rgx ∈ toMatch plgn buf vars.suit_rgxs, regexScore env.pcre buf rgx = 0 :=
  best_match_matchSuitable_eq_zero_iff ..

theorem chooseRegex_eq_ite (hplgn : env.plugins[i]? = some plgn)
    (hsuit : vars.suit_rgxs.length ≤ MAX_REGEX_CNT) :
    chooseRegex env i buf vars =
      if plgn.optimized = false → (filledAfter plgn buf vars.suit_rgxs).length +
          plgn.empty_p_regex.length ≤ MAX_REGEX_CNT then
        if (afterSuitable env buf vars plgn).best_match = 0 then
          matchGeneric env.pcre plgn i buf (afterSuitable env buf vars plgn)
        else some (afterSuitable env buf vars plgn)
      else none := by
  rw [chooseRegex, hplgn, Option.bind_some, selectSuitable_eq_toMatch hsuit]
  split
  · rfl
  · rfl

/-- Where a choice is made at all. -/
theorem chooseRegex_ne_none_iff (hplgn : env.plugins[i]? = some plgn)
    (hcnt : plgn.regex.length ≤ MAX_REGEX_CNT) (hsuit : vars.suit_rgxs.length ≤ MAX_REGEX_CNT) :
    chooseRegex env i buf vars ≠ none ↔
      (plgn.optimized = false → (filledAfter plgn buf vars.suit_rgxs).length +
        plgn.empty_p_regex.length ≤ MAX_REGEX_CNT) ∧
      (vars.best_match = 0 →
        (∀ rgx ∈ toMatch plgn buf vars.suit_rgxs, regexScore env.pcre buf rgx = 0) →
          plgn.generic_p_regex = [] ∨ i < plgn.generic_p_regex.length) := by
  rw [chooseRegex_eq_ite hplgn hsuit, ← and_imp, ← best_match_afterSuitable_eq_zero_iff]
  split
  next hroom =>
    rw [and_iff_right hroom]
    split
    next hzero => rw [(matchGeneric_ends hcnt hzero).1, forall_prop_of_true hzero]
    next hscored => exact iff_of_true (Option.some_ne_none _) fun h => absurd h hscored
  next hfull => exact iff_of_false (fun h => h rfl) fun h => hfull h.1

/-- Where something is chosen. -/
theorem best_match_chooseRegex_pos_iff (hplgn : env.plugins[i]? = some plgn)
    (hcnt : plgn.regex.length ≤ MAX_REGEX_CNT) (hsuit : vars.suit_rgxs.length ≤ MAX_REGEX_CNT)
    {vars' : PassVars} (hrun : chooseRegex env i buf vars = some vars') :
    0 < vars'.best_match ↔ 0 < vars.best_match ∨
      (∃ rgx ∈ toMatch plgn buf vars.suit_rgxs, 0 < regexScore env.pcre buf rgx) ∨
      ∃ g, plgn.generic_p_regex[i]? = some g ∧ 0 < regexScore env.pcre buf g := by
  have hsplit : 0 < (afterSuitable env buf vars plgn).best_match ↔ 0 < vars.best_match ∨
      ∃ rgx ∈ toMatch plgn buf vars.suit_rgxs, 0 < regexScore env.pcre buf rgx := by
    rw [Nat.pos_iff_ne_zero, ne_eq, best_match_afterSuitable_eq_zero_iff, not_and_or]
    simp only [Nat.pos_iff_ne_zero, ne_eq, not_forall, exists_prop]
  rw [chooseRegex_eq_ite hplgn hsuit] at hrun
  rw [← or_assoc, ← hsplit]
  obtain ⟨-, hrun⟩ := Option.ite_none_right_eq_some.mp hrun
  split at hrun
  next hzero =>
    rw [(matchGeneric_ends hcnt hzero).2 vars' hrun]
    exact (or_iff_right (Nat.not_lt.mpr hzero.le)).symm
  next hscored =>
    cases hrun
    have hpos := Nat.pos_of_ne_zero hscored
    exact iff_of_true hpos (.inl hpos)

/-- The accesses for a packet are good exactly where the tables suffice for it. -/
theorem packetTables_ne_none_iff (hcnt : ∀ plgn ∈ env.plugins, plgn.regex.length ≤ MAX_REGEX_CNT)
    (hkept : vars.Kept) :
    packetTables env i buf vars ≠ none ↔
      ∃ plgn, env.plugins[i]? = some plgn ∧ TablesSuffice env i buf vars plgn := by
  cases hplgn : env.plugins[i]? with
  | none =>
    rw [packetTables, hplgn]
    refine iff_of_false (fun h => h rfl) ?_
    rintro ⟨plgn, h, -⟩
    cases h
  | some plgn =>
    have hplgnCnt := hcnt plgn (List.mem_of_getElem? hplgn)
    have hends : chooseRegex env i buf vars ≠ none ↔ _ :=
      chooseRegex_ne_none_iff hplgn hplgnCnt hkept.suit
    have hchosen (vars' : PassVars) (hrun : chooseRegex env i buf vars = some vars') :=
      best_match_chooseRegex_pos_iff hplgn hplgnCnt hkept.suit hrun
    rw [packetTables_eq hcnt hkept.suit]
    cases hrun : chooseRegex env i buf vars with
    | none =>
      refine iff_of_false (fun h => h rfl) ?_
      rintro ⟨plgn', h, hsuffices⟩
      cases h
      exact hends.mpr ⟨hsuffices.room, hsuffices.generic⟩ hrun
    | some vars' =>
      have hkept' := hkept.chooseRegex hcnt hrun
      obtain ⟨hroom, hgeneric⟩ := hends.mp (hrun ▸ Option.some_ne_none vars')
      rw [Option.bind_some, hkept'.readBest, Option.bind_some, hkept'.readDebug_ne_none_iff,
        hchosen vars' hrun]
      constructor
      · intro h
        exact ⟨plgn, rfl, hroom, hgeneric, h⟩
      · rintro ⟨plgn', h, hsuffices⟩
        cases h
        exact hsuffices.chosen

end

/-! ## Runs -/

theorem kept_passStep {env : RecordEnv}
    (hcnt : ∀ plgn ∈ env.plugins, plgn.regex.length ≤ MAX_REGEX_CNT) {s s' : Pass}
    {event : PassEvent} (h : s.vars.Kept) (hstep : passStep env s event = some s') :
    s'.vars.Kept := by
  cases event with
  | plugin i =>
    obtain ⟨-, hnext⟩ := Option.ite_none_right_eq_some.mp hstep
    cases hnext
    exact s.vars.kept_declared
  | packet buf =>
    obtain ⟨vars, hvars, rfl⟩ := Option.map_eq_some_iff.mp hstep
    exact h.packetTables hcnt hvars

theorem accessesGood_iff {env : RecordEnv}
    (hcnt : ∀ plgn ∈ env.plugins, plgn.regex.length ≤ MAX_REGEX_CNT) {s : Pass}
    (h : s.vars.Kept) (event : PassEvent) :
    AccessesGood env s event ↔ TablesSufficeFor env s event := by
  cases event with
  | plugin i => exact Iff.rfl
  | packet buf => exact packetTables_ne_none_iff hcnt h

/-- THE TABLES ARE USED SAFELY in a run exactly where they suffice for each packet of
the run, in the state the packets before it left. -/
theorem tables_safe_iff {env : RecordEnv}
    (hcnt : ∀ plgn ∈ env.plugins, plgn.regex.length ≤ MAX_REGEX_CNT) (stack : PassVars)
    (events : List PassEvent) :
    (passStep env).Along (AccessesGood env) (firstPass stack) events ↔
      (passStep env).Along (TablesSufficeFor env) (firstPass stack) events := by
  have hkept : (firstPass stack).vars.Kept := stack.kept_declared
  constructor
  · exact Lib.Step.Along.imp (I := fun s => s.vars.Kept)
      (fun s event s' h _ hstep => kept_passStep hcnt h hstep)
      (fun s event h => (accessesGood_iff hcnt h event).mp) hkept
  · exact Lib.Step.Along.imp (I := fun s => s.vars.Kept)
      (fun s event s' h _ hstep => kept_passStep hcnt h hstep)
      (fun s event h => (accessesGood_iff hcnt h event).mpr) hkept

/-- Packets for a plugin without regexes and for one with several, some of which need the second
pass and some of which come behind others. -/
def wordsPass : List PassEvent :=
  [.packet (.lit "a log"), .plugin 1, .packet (.lit "user deny"), .packet (.lit "a log"),
    .plugin 0, .plugin 1, .packet (.lit "a log"), .packet (.lit "user deny"),
    .packet (.lit "user")]

theorem tables_safe_words :
    (passStep wordsEnv).Along (AccessesGood wordsEnv) (firstPass emptyStack) wordsPass :=
  (tables_safe_iff (by decide) emptyStack wordsPass).mpr (by decide +kernel)

/-- `denyEnv` with debug output. -/
def denyDebugEnv : RecordEnv := { denyEnv with debug := true }

/-- A log that matches nothing, at debug level 2: `best_rgx` is followed all the
same. -/
theorem debug_follows_unassigned :
    ¬ (passStep denyDebugEnv).Along (AccessesGood denyDebugEnv) (firstPass emptyStack)
      [.packet (.lit "allow")] := by
  intro h
  have hnone : packetTables denyDebugEnv 0 (.lit "allow") (firstPass emptyStack).vars = none := rfl
  exact h.head hnone

end LogCollector
