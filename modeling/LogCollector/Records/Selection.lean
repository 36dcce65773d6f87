import LogCollector.Lib.EarliestBest
import LogCollector.Records.Noninterference

/-!
# Which regex is chosen

What `worker_loop` is to choose can be said without its loops: the earliest regex
of maximal score among those the log selects and, where none of them scores, among
the generic regexes of the plugin (`specifiedChoice`). The first pass does that. The
second reads the generic regex at the index of the PLUGIN in every round, which is
the right one only by chance (`choice_as_specified_iff`): where it is not the last
of several it may be the wrong one (`second_generic_unread`), and where there is
none the null pointer is read.
-/

namespace LogCollector

/-! ## The specification -/

/-- How many groups of `rgx` captured some of the log. -/
def regexScore (pcre : Pcre) (buf : CStr) (rgx : Regex) : Nat := (matchWithPcreJit pcre rgx buf).1

/-- The regexes a log selects, in the order they are matched. -/
def selectedBy (buf : CStr) (plgn : Plugin) : List Regex :=
  plgn.filled_p_regex.filter (fun rgx => buf.strstr rgx.precheck) ++
    if plgn.optimized then [] else plgn.empty_p_regex

/-- The regex a log is to be parsed with. -/
def specifiedChoice (pcre : Pcre) (plgn : Plugin) (buf : CStr) : Option Regex :=
  (Lib.earliestBest (regexScore pcre buf) (selectedBy buf plgn)).or
    (Lib.earliestBest (regexScore pcre buf) plgn.generic_p_regex)

/-- The second pass is not reached, has nothing to match, or finds at the index of
the plugin a generic regex that no other one beats and none before it equals. -/
def GenericAtIndexIsBest (pcre : Pcre) (plgn : Plugin) (i : Nat) (buf : CStr) : Prop :=
  (∃ rgx ∈ selectedBy buf plgn, 0 < regexScore pcre buf rgx) ∨ plgn.generic_p_regex = [] ∨
    ∃ g, plgn.generic_p_regex[i]? = some g ∧
      (∀ h ∈ plgn.generic_p_regex, regexScore pcre buf h ≤ regexScore pcre buf g) ∧
      (0 < regexScore pcre buf g → ∀ h ∈ plgn.generic_p_regex,
        regexScore pcre buf g ≤ regexScore pcre buf h →
          plgn.generic_p_regex.idxOf g ≤ plgn.generic_p_regex.idxOf h)

/-! ## The regexes to match -/

/-- The array has room for what is stored. -/
theorem foldlM_storeSuitable {rgxs suit_rgxs : List Regex}
    (hfits : suit_rgxs.length + rgxs.length ≤ MAX_REGEX_CNT) :
    rgxs.foldlM storeSuitable suit_rgxs = some (suit_rgxs ++ rgxs) := by
  induction rgxs generalizing suit_rgxs with
  | nil => simp
  | cons rgx rgxs ih =>
    rw [List.length_cons] at hfits
    have hroom : storeSuitable suit_rgxs rgx = some (suit_rgxs ++ [rgx]) :=
      if_pos (by omega)
    rw [List.foldlM_cons, hroom]
    show rgxs.foldlM storeSuitable (suit_rgxs ++ [rgx]) = _
    rw [ih (by simp only [List.length_append, List.length_singleton]; omega), List.append_assoc]
    rfl

/-- The regexes with a precheck are those whose precheck occurs in the log. -/
theorem foldl_addFilled (buf : CStr) {rgxs suit_rgxs : List Regex}
    (hfits : suit_rgxs.length + rgxs.length ≤ MAX_REGEX_CNT) :
    rgxs.foldl (addFilled buf) suit_rgxs =
      suit_rgxs ++ rgxs.filter (fun rgx => buf.strstr rgx.precheck) := by
  induction rgxs generalizing suit_rgxs with
  | nil => simp
  | cons rgx rgxs ih =>
    rw [List.length_cons] at hfits
    rw [List.foldl_cons, List.filter_cons, addFilled]
    split
    · have hroom : storeSuitable suit_rgxs rgx = some (suit_rgxs ++ [rgx]) :=
        if_pos (by omega)
      rw [hroom, Option.getD_some,
        ih (by simp only [List.length_append, List.length_singleton]; omega), List.append_assoc]
      rfl
    · exact ih (by omega)

/-- No regex both has a precheck and has none. -/
theorem filled_add_empty_le (plgn : Plugin) :
    plgn.filled_p_regex.length + plgn.empty_p_regex.length ≤ plgn.regex.length := by
  rw [Plugin.filled_p_regex, Plugin.empty_p_regex, ← List.countP_eq_length_filter,
    ← List.countP_eq_length_filter]
  generalize plgn.regex = rgxs
  induction rgxs with
  | nil => exact Nat.le_refl 0
  | cons rgx rgxs ih =>
    rw [List.countP_cons, List.countP_cons, List.length_cons]
    simp only [ne_eq] at ih ⊢
    by_cases hempty : rgx.precheck = .lit ""
    · simp only [hempty, not_true_eq_false, false_and, decide_false, decide_true,
        Bool.false_eq_true, if_false, if_true]
      omega
    · simp only [hempty, decide_false, Bool.false_eq_true, if_false]
      split <;> omega

/-- A plugin within its bounds has its regexes selected as specified. -/
theorem selectSuitable_eq {plgn : Plugin} (hcnt : plgn.regex.length ≤ MAX_REGEX_CNT) (buf : CStr) :
    selectSuitable plgn buf [] = some (selectedBy buf plgn) := by
  have hle := filled_add_empty_le plgn
  have hfilled : plgn.filled_p_regex.foldl (addFilled buf) [] =
      plgn.filled_p_regex.filter (fun rgx => buf.strstr rgx.precheck) :=
    foldl_addFilled buf (by simp only [List.length_nil]; omega)
  rw [selectSuitable, hfilled, selectedBy]
  split
  · rw [List.append_nil]
  · apply foldlM_storeSuitable
    have := List.length_filter_le (fun rgx => buf.strstr rgx.precheck) plgn.filled_p_regex
    omega

/-! ## The two passes -/

/-- What has the best score so far. -/
def PassVars.best (vars : PassVars) : Nat × Option Regex := (vars.best_match, vars.best_rgx)

/-- A match keeps the best. -/
theorem best_tryRegex (pcre : Pcre) (buf : CStr) (vars : PassVars) (r_index : Nat) (rgx : Regex) :
    (tryRegex pcre buf vars r_index rgx).best =
      Lib.improve (regexScore pcre buf) vars.best rgx := by
  unfold tryRegex Lib.improve
  by_cases hbetter : (matchWithPcreJit pcre rgx buf).1 > vars.best_match
  · rw [if_pos (show vars.best.1 < regexScore pcre buf rgx from hbetter)]
    simp only [if_pos hbetter]
    rfl
  · rw [if_neg (show ¬ vars.best.1 < regexScore pcre buf rgx from hbetter)]
    simp only [if_neg hbetter]
    rfl

/-- The first pass keeps the best of the regexes to match. -/
theorem best_matchSuitable (pcre : Pcre) (buf : CStr) (vars : PassVars) :
    (matchSuitable pcre buf vars).best =
      vars.suit_rgxs.foldl (Lib.improve (regexScore pcre buf)) vars.best := by
  have hfold : ∀ (entries : List (Regex × Nat)) (vars : PassVars),
      (entries.foldl (fun vars entry => tryRegex pcre buf vars entry.2 entry.1) vars).best =
        (entries.map Prod.fst).foldl (Lib.improve (regexScore pcre buf)) vars.best := by
    intro entries
    induction entries with
    | nil => exact fun _ => rfl
    | cons entry entries ih =>
      intro vars
      rw [List.foldl_cons, ih, best_tryRegex, List.map_cons, List.foldl_cons]
  rw [matchSuitable, hfold, List.zipIdx_map_fst]

/-- The choice after a loop that began with nothing. -/
theorem chosen_of_best {score : Regex → ℕ} {vars : PassVars} {first : Option Regex}
    {rgxs : List Regex} (hbest : vars.best = rgxs.foldl (Lib.improve score) (0, first)) :
    vars.chosen = Lib.earliestBest score rgxs ∧
      (vars.best_match = 0 ↔ Lib.earliestBest score rgxs = none) := by
  rw [Lib.foldl_improve] at hbest
  cases h : Lib.earliestBest score rgxs with
  | none =>
    rw [h] at hbest
    have hmatch : vars.best_match = 0 := congrArg Prod.fst hbest
    simp only [PassVars.chosen, hmatch, Nat.lt_irrefl, if_false, true_and]
  | some rgx =>
    rw [h] at hbest
    have hmatch : vars.best_match = score rgx := congrArg Prod.fst hbest
    have hrgx : vars.best_rgx = some rgx := congrArg Prod.snd hbest
    have hpos : 0 < score rgx := (Lib.earliestBest.eq_some_iff.mp h).2.1
    rw [PassVars.chosen, hmatch, if_pos hpos]
    exact ⟨hrgx, iff_of_false hpos.ne' (Option.some_ne_none rgx)⟩

/-- The second pass matches one regex over and over. -/
theorem foldlM_generic (pcre : Pcre) (buf : CStr) {generics : List Regex} {i : Nat} {g : Regex}
    (hg : generics[i]? = some g) {rounds : List Nat} {vars : PassVars}
    (hfits : vars.suit_rgxs.length + rounds.length ≤ MAX_REGEX_CNT) :
    ∃ vars', rounds.foldlM (fun vars r_index => generics[i]?.bind fun rgx =>
        (storeSuitable vars.suit_rgxs rgx).map fun suit_rgxs =>
          tryRegex pcre buf { vars with suit_rgxs } r_index rgx) vars = some vars' ∧
      vars'.best = (rounds.map fun _ => g).foldl (Lib.improve (regexScore pcre buf)) vars.best := by
  induction rounds generalizing vars with
  | nil => exact ⟨vars, rfl, rfl⟩
  | cons r_index rounds ih =>
    rw [List.length_cons] at hfits
    have hroom : storeSuitable vars.suit_rgxs g = some (vars.suit_rgxs ++ [g]) :=
      if_pos (by omega)
    rw [List.foldlM_cons, hg, Option.bind_some, hroom, Option.map_some, List.map_cons,
      List.foldl_cons]
    let next := tryRegex pcre buf { vars with suit_rgxs := vars.suit_rgxs ++ [g] } r_index g
    have hsuit : next.suit_rgxs = vars.suit_rgxs ++ [g] := by
      simp only [next, tryRegex]
      split <;> rfl
    have hbest : next.best = Lib.improve (regexScore pcre buf) vars.best g := best_tryRegex ..
    rw [← hbest]
    apply hg ▸ ih
    rw [hsuit, List.length_append, List.length_singleton]
    omega

/-- What is best among copies of one regex. -/
theorem earliestBest_replicate (score : Regex → ℕ) (g : Regex) {n : Nat} (hn : 0 < n) :
    Lib.earliestBest score (List.replicate n g) = if 0 < score g then some g else none := by
  split
  · next hpos =>
    refine Lib.earliestBest.eq_some_iff.mpr ⟨List.mem_replicate.mpr ⟨hn.ne', rfl⟩, hpos, ?_, ?_⟩
    · intro h hmem
      rw [List.eq_of_mem_replicate hmem]
    · intro h hmem _
      rw [List.eq_of_mem_replicate hmem]
  · next hzero =>
    apply Lib.earliestBest.eq_none_iff.mpr
    intro h hmem
    rw [List.eq_of_mem_replicate hmem]
    omega

/-- THE SECOND PASS tries the generic regex at the index of the plugin, once for each. -/
theorem exists_matchGeneric {pcre : Pcre} {plgn : Plugin} {i : Nat} {buf : CStr} {g : Regex}
    (hcnt : plgn.regex.length ≤ MAX_REGEX_CNT) (hg : plgn.generic_p_regex[i]? = some g)
    (vars : PassVars) :
    ∃ vars' n, 0 < n ∧ matchGeneric pcre plgn i buf vars = some vars' ∧
      vars'.best = (List.replicate n g).foldl (Lib.improve (regexScore pcre buf)) vars.best := by
  have hlen : plgn.generic_p_regex.length ≤ plgn.regex.length := List.length_filter_le _ _
  have hpos : 0 < plgn.generic_p_regex.length :=
    Nat.lt_of_le_of_lt (Nat.zero_le i) (List.getElem?_eq_some_iff.mp hg).1
  have hfits : { vars with suit_rgxs := [] }.suit_rgxs.length +
      (List.range plgn.generic_p_regex.length).length ≤ MAX_REGEX_CNT := by
    simp only [List.length_nil, List.length_range]
    omega
  obtain ⟨vars', hrun, hbest⟩ := foldlM_generic pcre buf hg hfits
  rw [List.map_const', List.length_range] at hbest
  exact ⟨vars', _, hpos, hrun, hbest⟩

/-- The second pass chooses the generic regex at the index of the plugin, if it
scores. -/
theorem chosen_matchGeneric {pcre : Pcre} {plgn : Plugin} {i : Nat} {buf : CStr} {g : Regex}
    (hcnt : plgn.regex.length ≤ MAX_REGEX_CNT) (hg : plgn.generic_p_regex[i]? = some g)
    {vars : PassVars} (hnone : vars.best_match = 0) :
    (matchGeneric pcre plgn i buf vars).map PassVars.chosen =
      some (if 0 < regexScore pcre buf g then some g else none) := by
  obtain ⟨vars', n, hpos, hrun, hbest⟩ := exists_matchGeneric hcnt hg vars
  have hfirst : vars.best = (0, vars.best_rgx) := by
    rw [PassVars.best, hnone]
  rw [hfirst] at hbest
  rw [hrun, Option.map_some, (chosen_of_best hbest).1, earliestBest_replicate _ _ hpos]

/-- Where the second pass has nothing at the index of the plugin it reads a null
pointer, unless there is no generic regex at all. -/
theorem matchGeneric_eq_none {pcre : Pcre} {plgn : Plugin} {i : Nat} {buf : CStr}
    (hg : plgn.generic_p_regex[i]? = none) (hne : plgn.generic_p_regex ≠ []) {vars : PassVars} :
    matchGeneric pcre plgn i buf vars = none := by
  obtain ⟨n, hn⟩ := Nat.exists_eq_succ_of_ne_zero fun h => hne (List.length_eq_zero_iff.mp h)
  rw [matchGeneric, hn, List.range_succ_eq_map, List.foldlM_cons, hg]
  rfl

/-- What is at an index is best where nothing beats it and nothing before it is as
good. -/
theorem atIndex_isBest_iff {score : Regex → ℕ} {generics : List Regex} {g : Regex}
    (hmem : g ∈ generics) :
    Lib.earliestBest score generics = (if 0 < score g then some g else none) ↔
      (∀ h ∈ generics, score h ≤ score g) ∧
        (0 < score g → ∀ h ∈ generics, score g ≤ score h →
          generics.idxOf g ≤ generics.idxOf h) := by
  by_cases hpos : 0 < score g
  · rw [if_pos hpos, Lib.earliestBest.eq_some_iff]
    exact ⟨fun h => ⟨h.2.2.1, fun _ => h.2.2.2⟩, fun h => ⟨hmem, hpos, h.1, h.2 hpos⟩⟩
  · rw [if_neg hpos, Lib.earliestBest.eq_none_iff]
    constructor
    · intro hzero
      exact ⟨fun h hh => (hzero h hh).trans_le (Nat.zero_le _), fun h => absurd h hpos⟩
    · intro h b hb
      have := h.1 b hb
      omega

/-- THE CHOICE IS AS SPECIFIED exactly where the second pass is not reached, has
nothing to match, or finds the best generic regex at the index of the plugin. -/
theorem choice_as_specified_iff {env : RecordEnv} {i : Nat} {plgn : Plugin}
    (hplgn : env.plugins[i]? = some plgn) (hcnt : plgn.regex.length ≤ MAX_REGEX_CNT)
    {vars : PassVars} (hfresh : vars.Fresh) (buf : CStr) :
    (chooseRegex env i buf vars).map PassVars.chosen =
        some (specifiedChoice env.pcre plgn buf) ↔
      GenericAtIndexIsBest env.pcre plgn i buf := by
  obtain ⟨hsuit, hmatch⟩ := hfresh
  have hfirst : (matchSuitable env.pcre buf { vars with suit_rgxs := selectedBy buf plgn }).best =
      (selectedBy buf plgn).foldl (Lib.improve (regexScore env.pcre buf)) (0, vars.best_rgx) := by
    rw [best_matchSuitable, ← hmatch]
    rfl
  obtain ⟨hchosen, hzero⟩ := chosen_of_best hfirst
  rw [chooseRegex, hplgn, Option.bind_some, hsuit, selectSuitable_eq hcnt, Option.bind_some,
    specifiedChoice]
  dsimp only
  cases hselected : Lib.earliestBest (regexScore env.pcre buf) (selectedBy buf plgn) with
  | some rgx =>
    have hscores := Lib.earliestBest.eq_some_iff.mp hselected
    have hmatched : ¬ (matchSuitable env.pcre buf
        { vars with suit_rgxs := selectedBy buf plgn }).best_match = 0 := by
      rw [hzero, hselected]
      exact Option.some_ne_none rgx
    rw [if_neg hmatched, Option.map_some, hchosen, hselected, Option.some_or]
    exact iff_of_true rfl (.inl ⟨rgx, hscores.1, hscores.2.1⟩)
  | none =>
    have hnothing := Lib.earliestBest.eq_none_iff.mp hselected
    have hmatch₀ := hzero.mpr hselected
    rw [if_pos hmatch₀, Option.none_or]
    have hnone : ¬ ∃ rgx ∈ selectedBy buf plgn, 0 < regexScore env.pcre buf rgx := by
      rintro ⟨rgx, hmem, hpos⟩
      exact absurd (hnothing rgx hmem) hpos.ne'
    have hcond : GenericAtIndexIsBest env.pcre plgn i buf ↔ plgn.generic_p_regex = [] ∨ _ :=
      or_iff_right hnone
    rw [hcond]
    cases hg : plgn.generic_p_regex[i]? with
    | some g =>
      have hmem : g ∈ plgn.generic_p_regex := List.mem_of_getElem? hg
      rw [chosen_matchGeneric hcnt hg hmatch₀, Option.some.injEq, eq_comm, atIndex_isBest_iff hmem]
      constructor
      · exact fun h => .inr ⟨g, rfl, h.1, h.2⟩
      · rintro (hnil | ⟨_, hsome, h⟩)
        · rw [hnil] at hmem
          cases hmem
        · cases hsome
          exact h
    | none =>
      by_cases hnil : plgn.generic_p_regex = []
      · rw [matchGeneric, hnil]
        refine iff_of_true ?_ (.inl rfl)
        show some (PassVars.chosen { matchSuitable env.pcre buf _ with suit_rgxs := [] }) =
          some none
        rw [PassVars.chosen, hmatch₀]
        rfl
      · rw [matchGeneric_eq_none hg hnil]
        apply iff_of_false (Option.some_ne_none _).symm
        rintro (hempty | ⟨g, hsome, -⟩)
        · exact hnil hempty
        · cases hsome

/-- PCRE on the patterns of `wordsPlugin` and two logs: where the groups begin and end. -/
def wordsPcre : Pcre where
  jit_exec regexp _ text :=
    let groups : List (Int × Int) :=
      if text = .lit "user deny" then
        if regexp = .lit "(deny)" then [(5, 9), (5, 9)]
        else if regexp = .lit "(user) (deny)" then [(0, 9), (0, 4), (5, 9)] else []
      else if text = .lit "a log" then
        if regexp = .lit "(log)" then [(2, 5), (2, 5)]
        else if regexp = .lit "(a) (log)" then [(0, 5), (0, 1), (2, 5)] else []
      else []
    (if groups = [] then -1 else groups.length, fun i =>
      let group := groups.getD (i / 2) (-1, -1)
      if i % 2 = 0 then group.1 else group.2)
  get_named_substring _ _ _ _ _ := none

/-- Two regexes with a precheck, one without, and two generic ones. -/
def wordsPlugin : Plugin where
  plugin_id := 2
  optimized := false
  regex := [⟨1, .lit "denied", .lit "deny", .lit "(deny)", []⟩,
    ⟨2, .lit "user denied", .lit "user", .lit "(user) (deny)", []⟩,
    ⟨3, .lit "digits", .lit "", .lit "(\\d+)", []⟩,
    ⟨4, .lit "log", GENERIC_LOG_PRECHECK, .lit "(log)", []⟩,
    ⟨5, .lit "a log", GENERIC_LOG_PRECHECK, .lit "(a) (log)", []⟩]

/-- The second plugin of its worker. -/
def wordsEnv : RecordEnv := ⟨wordsPcre, [⟨1, true, []⟩, wordsPlugin], false⟩

/-- The second regex scores more than the first; and where none of them matches, the second generic
one scores more than the first. -/
theorem choice_as_specified_words :
    (chooseRegex wordsEnv 1 (.lit "user deny") emptyStack).map PassVars.chosen =
        some (specifiedChoice wordsPcre wordsPlugin (.lit "user deny")) ∧
      (chooseRegex wordsEnv 1 (.lit "a log") emptyStack).map PassVars.chosen =
        some (specifiedChoice wordsPcre wordsPlugin (.lit "a log")) := by
  constructor
  · exact (choice_as_specified_iff rfl (by decide) ⟨rfl, rfl⟩ (.lit "user deny")).mpr
      (.inl (by decide))
  · exact (choice_as_specified_iff rfl (by decide) ⟨rfl, rfl⟩ (.lit "a log")).mpr
      (.inr (.inr ⟨_, rfl, by decide, by decide⟩))

/-- One plugin with two generic regexes. -/
def genericEnv : RecordEnv where
  pcre := literalPcre
  plugins := [{
    plugin_id := 1
    optimized := true
    regex := [
      { id := 1, description := .lit "allowed", precheck := .lit "GENERIC_LOG",
        regexp := .lit "allow", fields := [] },
      { id := 2, description := .lit "denied", precheck := .lit "GENERIC_LOG",
        regexp := .lit "deny", fields := [] }] }]
  debug := false

/-- The second generic regex matches the log and is never tried. -/
theorem second_generic_unread :
    (chooseRegex genericEnv 0 (.lit "deny") emptyStack).map PassVars.chosen ≠
      some (specifiedChoice genericEnv.pcre (genericEnv.plugins[0]) (.lit "deny")) := by
  decide

end LogCollector
