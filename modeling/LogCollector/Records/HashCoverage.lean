import LogCollector.Plugins.Fields
import LogCollector.Records.Noninterference
import LogCollector.Records.Translations

/-!
# What a hash covers

`worker_loop` collects the texts of a record in `sub_strings` and hashes them.
`STR_CAT` leaves out a piece that does not fit, and goes on with the next one.
`recordPieces` are the texts in the order of the members, whatever their
lengths; the hash covers all of them exactly where together they fit.
-/

namespace LogCollector

/-! ## Bounded concatenation -/

/-- `STR_CAT` of every piece. -/
def catAll (sub_strings : CStr) (pieces : List CStr) : CStr := pieces.foldl strCat sub_strings

@[simp] theorem catAll_nil (s : CStr) : catAll s [] = s := rfl

@[simp] theorem catAll_cons (s piece : CStr) (pieces : List CStr) :
    catAll s (piece :: pieces) = catAll (strCat s piece) pieces := rfl

theorem catAll_append (s : CStr) (before after : List CStr) :
    catAll s (before ++ after) = catAll (catAll s before) after :=
  List.foldl_append

theorem strlen_strCat_lt {s : CStr} (h : s.strlen < MAX_SUB_STR_LEN) (piece : CStr) :
    (strCat s piece).strlen < MAX_SUB_STR_LEN := by
  unfold strCat
  split
  next hfits => exact (CStr.strlen_append s piece).symm ▸ hfits
  next => exact h

/-- A terminator is left in the array. -/
theorem strlen_catAll_lt {s : CStr} (h : s.strlen < MAX_SUB_STR_LEN) (pieces : List CStr) :
    (catAll s pieces).strlen < MAX_SUB_STR_LEN := by
  induction pieces generalizing s with
  | nil => exact h
  | cons piece pieces ih => exact ih (strlen_strCat_lt h piece)

theorem catAll_eq_append {s : CStr} {pieces : List CStr}
    (h : s.strlen + (pieces.map CStr.strlen).sum < MAX_SUB_STR_LEN) :
    catAll s pieces = s ++ CStr.concat pieces := by
  induction pieces generalizing s with
  | nil => exact (CStr.append_empty s).symm
  | cons piece pieces ih =>
    rw [List.map_cons, List.sum_cons, ← Nat.add_assoc] at h
    have hpiece : strCat s piece = s ++ piece :=
      if_pos (Nat.lt_of_le_of_lt (Nat.le_add_right _ _) h)
    rw [catAll_cons, hpiece, ih ((CStr.strlen_append s piece).symm ▸ h), CStr.concat_cons,
      CStr.append_assoc]

/-- Nothing is left out exactly where everything fits. -/
theorem catAll_empty_eq_concat_iff {pieces : List CStr} :
    catAll .empty pieces = CStr.concat pieces ↔
      (pieces.map CStr.strlen).sum < MAX_SUB_STR_LEN := by
  constructor
  · intro h
    have hlength : (catAll .empty pieces).strlen < MAX_SUB_STR_LEN :=
      strlen_catAll_lt (by decide) pieces
    rwa [h, CStr.strlen_concat] at hlength
  · intro h
    have hempty : CStr.empty.strlen + (pieces.map CStr.strlen).sum < MAX_SUB_STR_LEN :=
      (Nat.zero_add _).symm ▸ h
    rw [catAll_eq_append hempty, CStr.empty_append]

/-! ## The pieces of a record -/

section

variable (pcre : Pcre) (rgx : Regex) (buf : CStr) (ovector : Nat → Int) (stringcount : Nat)

/-- The text of a field, if there is one, and what is left in `func_ret_str`; `none` where
a custom function writes past its end. -/
def fieldPiece (func_ret_str : CStr) (field : Field) : Option (Option CStr × CStr) :=
  if field.is_value then some (some field.findby, func_ret_str)
  else match capturedBy pcre rgx buf ovector stringcount field, field.func_name with
    | none, _ => some (none, func_ret_str)
    | some sub, none => some (some sub, func_ret_str)
    | some sub, some func_name =>
      let func_ret_str := customFunction pcre func_name sub func_ret_str
      if func_ret_str.strlen < MAX_CUST_FUNC_RET_STR then some (some func_ret_str, func_ret_str)
      else none

/-- The texts of the fields, in their order. -/
def fieldPieces (func_ret_str : CStr) : List Field → Option (List CStr)
  | [] => some []
  | field :: fields =>
    (fieldPiece pcre rgx buf ovector stringcount func_ret_str field).bind
      fun (piece, func_ret_str) =>
        (fieldPieces func_ret_str fields).map (piece.toList ++ ·)

end

/-- The flag, after the fields and before the name of the regex that was chosen. -/
def matchPieces (pcre : Pcre) (buf : CStr) (vars : PassVars) : Option (List CStr) :=
  if 0 < vars.best_match then
    vars.best_rgx.bind fun rgx =>
      (fieldPieces pcre rgx buf (vars.rgx_sub_vectors vars.best_rgx_index) vars.best_match
        vars.func_ret_str rgx.fields).map (· ++ [.lit "true", rgx.description])
  else some [.lit "false"]

/-- The texts of a record, in the order of its members. -/
def recordPieces (env : RecordEnv) (i : Nat) (buf : CStr) (vars : PassVars) :
    Option (List CStr) :=
  env.plugins[i]?.bind fun plgn =>
    (matchPieces env.pcre buf vars).map (· ++ [buf, .ofInt plgn.plugin_id.toInt])

/-! ## What is hashed -/

/-- The record before its hash is put in, and what is left in `func_ret_str`. -/
def beforeHash (env : RecordEnv) (i : Nat) (buf : CStr) (vars : PassVars) :
    Option (Emission × CStr) :=
  env.plugins[i]?.bind fun plgn =>
    (emitMatch env.pcre buf vars).map fun (e, func_ret_str) =>
      ((e.put (.lit "raw_log") (.string buf) buf).put (.lit "plugin_id")
        (.integer plgn.plugin_id.toInt64) (.ofInt plgn.plugin_id.toInt), func_ret_str)

/-- The string handed to `hash_string`. -/
def hashedText (env : RecordEnv) (i : Nat) (buf : CStr) (vars : PassVars) : Option CStr :=
  (beforeHash env i buf vars).map fun (e, _) => e.sub_strings

/-- `hashedText` is what `worker_loop` hashes. -/
theorem emitRecord_eq_bind (env : RecordEnv) (i : Nat) (buf : CStr) (vars : PassVars) :
    emitRecord env i buf vars =
      (beforeHash env i buf vars).bind fun (e, func_ret_str) =>
        let jason := e.jason.put (.lit "siemplus_hash")
          (.string (.ofInt (hashString e.sub_strings 0).toNat))
        (if env.debug then putDebug vars jason else some jason).map (·, func_ret_str) := by
  rw [emitRecord, beforeHash, Option.bind_assoc]
  congr 1
  funext plgn
  rw [Option.bind_map]
  rfl

section

variable (pcre : Pcre) (rgx : Regex) (buf : CStr) (ovector : Nat → Int) (stringcount : Nat)

/-- A field adds its piece and nothing else. -/
theorem emitField_eq_map (e : Emission) (func_ret_str : CStr) (field : Field) :
    emitField pcre rgx buf ovector stringcount (e, func_ret_str) field =
      (fieldPiece pcre rgx buf ovector stringcount func_ret_str field).map
        fun (piece, func_ret_str) => (piece.elim e (e.putField field), func_ret_str) := by
  rw [emitField, fieldPiece]
  by_cases hvalue : field.is_value
  · rw [if_pos hvalue, if_pos hvalue]
    rfl
  rw [if_neg hvalue, if_neg hvalue]
  cases capturedBy pcre rgx buf ovector stringcount field with
  | none => rfl
  | some sub =>
    cases field.func_name with
    | none => rfl
    | some func_name =>
      dsimp only
      split
      · rfl
      · rfl

theorem sub_strings_elim (e : Emission) (field : Field) (piece : Option CStr) :
    (piece.elim e (e.putField field)).sub_strings = catAll e.sub_strings piece.toList := by
  cases piece <;> rfl

/-- The loop over the fields adds the pieces of the fields. -/
theorem sub_strings_emitFields (fields : List Field) (e : Emission) (func_ret_str : CStr) :
    (fields.foldlM (emitField pcre rgx buf ovector stringcount) (e, func_ret_str)).map
        (fun result => result.1.sub_strings) =
      (fieldPieces pcre rgx buf ovector stringcount func_ret_str fields).map
        (catAll e.sub_strings) := by
  induction fields generalizing e func_ret_str with
  | nil => rfl
  | cons field fields ih =>
    rw [List.foldlM_cons, emitField_eq_map, fieldPieces]
    cases fieldPiece pcre rgx buf ovector stringcount func_ret_str field with
    | none => rfl
    | some result =>
      obtain ⟨piece, func_ret_str⟩ := result
      rw [Option.map_some, Option.bind_eq_bind, Option.bind_some, Option.bind_some, ih,
        Option.map_map, sub_strings_elim]
      congr 1
      funext pieces
      exact (catAll_append e.sub_strings piece.toList pieces).symm

end

theorem sub_strings_emitMatch (pcre : Pcre) (buf : CStr) (vars : PassVars) :
    (emitMatch pcre buf vars).map (fun result => result.1.sub_strings) =
      (matchPieces pcre buf vars).map (catAll .empty) := by
  unfold emitMatch matchPieces
  split
  · cases vars.best_rgx with
    | none => rfl
    | some rgx =>
      have hfields := sub_strings_emitFields pcre rgx buf
        (vars.rgx_sub_vectors vars.best_rgx_index) vars.best_match rgx.fields .empty
        vars.func_ret_str
      have hmap := congrArg (Option.map (catAll · [.lit "true", rgx.description])) hfields
      rw [Option.map_map, Option.map_map] at hmap
      rw [Option.bind_some, Option.bind_some, Option.map_map, Option.map_map]
      refine hmap.trans (congrArg (Option.map · _) ?_)
      funext pieces
      exact (catAll_append .empty pieces _).symm
  · rfl

/-- What is hashed is made of the pieces, in their order. -/
theorem hashedText_eq_map (env : RecordEnv) (i : Nat) (buf : CStr) (vars : PassVars) :
    hashedText env i buf vars = (recordPieces env i buf vars).map (catAll .empty) := by
  unfold hashedText beforeHash recordPieces
  cases env.plugins[i]? with
  | none => rfl
  | some plgn =>
    have hmap := congrArg (Option.map (catAll · [buf, .ofInt plgn.plugin_id.toInt]))
      (sub_strings_emitMatch env.pcre buf vars)
    rw [Option.map_map, Option.map_map] at hmap
    rw [Option.bind_some, Option.bind_some, Option.map_map, Option.map_map]
    refine hmap.trans (congrArg (Option.map · _) ?_)
    funext pieces
    exact (catAll_append .empty pieces _).symm

/-- The hash is taken of every text of the record, in order, and the array has room
for a terminator. -/
def HashCovers (env : RecordEnv) (i : Nat) (buf : CStr) (vars : PassVars) : Prop :=
  ∃ pieces sub_strings, recordPieces env i buf vars = some pieces ∧
    hashedText env i buf vars = some sub_strings ∧ sub_strings = CStr.concat pieces ∧
      sub_strings.strlen < MAX_SUB_STR_LEN

/-- THE HASH COVERS THE RECORD exactly where the texts of the record fit into the array
together. -/
theorem hash_covers_iff (env : RecordEnv) (i : Nat) (buf : CStr) (vars : PassVars) :
    HashCovers env i buf vars ↔
      ∃ pieces, recordPieces env i buf vars = some pieces ∧
        (pieces.map CStr.strlen).sum < MAX_SUB_STR_LEN := by
  constructor
  · rintro ⟨pieces, sub_strings, hpieces, -, hconcat, hlength⟩
    refine ⟨pieces, hpieces, ?_⟩
    rwa [hconcat, CStr.strlen_concat] at hlength
  · rintro ⟨pieces, hpieces, hlength⟩
    refine ⟨pieces, CStr.concat pieces, hpieces, ?_, rfl,
      (CStr.strlen_concat pieces).symm ▸ hlength⟩
    rw [hashedText_eq_map, hpieces, Option.map_some, catAll_empty_eq_concat_iff.mpr hlength]

/-! ## Five fields -/

/-- A regex with five fields of the whole log. -/
def fiveRegex : Regex :=
  ⟨1, .lit "five", .lit "", .lit "(?P<all>.*)",
    ["a", "b", "c", "d", "e"].map fun key => ⟨.lit key, .lit "all", none, false, false⟩⟩

def fiveEnv : RecordEnv where
  pcre := wholePcre
  plugins := [⟨7, false, [fiveRegex]⟩]
  debug := false

theorem match_wholePcre {buf : CStr} (h : 0 < buf.strlen) (rgx : Regex) :
    matchWithPcreJit wholePcre rgx buf =
      (2, fun i => if i % 2 = 0 then (0 : Int) else buf.strlen) := by
  have hgroup : ∀ i ∈ List.range 2,
      decide ((0 : Int) < (if (2 * i + 1) % 2 = 0 then 0 else (buf.strlen : Int)) -
        (if 2 * i % 2 = 0 then 0 else (buf.strlen : Int))) = true := by
    intro i _
    rw [if_neg (by omega), if_pos (by omega), decide_eq_true_eq]
    omega
  exact congrArg (·, _) (List.countP_eq_length.mpr hgroup)

/-- The variables when the regex was chosen. -/
def fiveVars (buf : CStr) : PassVars where
  suit_rgxs := [fiveRegex]
  best_match := 2
  best_rgx := some fiveRegex
  best_rgx_index := 0
  rgx_sub_vectors := Function.update (fun _ _ => 0) 0 fun i => if i % 2 = 0 then 0 else buf.strlen
  func_ret_str := .empty

theorem chooseRegex_fiveEnv {buf : CStr} (h : 0 < buf.strlen) :
    chooseRegex fiveEnv 0 buf emptyStack = some (fiveVars buf) := by
  have hplugin : fiveEnv.plugins[0]? = some ⟨7, false, [fiveRegex]⟩ := rfl
  have hselect : selectSuitable ⟨7, false, [fiveRegex]⟩ buf emptyStack.suit_rgxs =
      some [fiveRegex] := rfl
  have hloop : matchSuitable fiveEnv.pcre buf { emptyStack with suit_rgxs := [fiveRegex] } =
      fiveVars buf := by
    show tryRegex wholePcre buf { emptyStack with suit_rgxs := [fiveRegex] } 0 fiveRegex = _
    rw [tryRegex, match_wholePcre h]
    rfl
  rw [chooseRegex, hplugin, Option.bind_some, hselect, Option.bind_some]
  dsimp only at hloop ⊢
  rw [hloop]
  rfl

/-- The fields of a log of 1000 letters fill the array, and the log itself is left out. -/
theorem raw_log_not_hashed :
    (letters 1000).strlen ≤ MAX_MSG - 1 ∧ fiveRegex.fields.length ≤ MAX_REGEX_FIELDS ∧
      ∃ vars, chooseRegex fiveEnv 0 (letters 1000) emptyStack = some vars ∧
        vars.chosen = some fiveRegex ∧ ¬ HashCovers fiveEnv 0 (letters 1000) vars := by
  have hletters := strlen_letters 1000
  have hfields : fiveRegex.fields.length ≤ MAX_REGEX_FIELDS := by decide
  refine ⟨by rw [hletters]; decide, hfields, fiveVars (letters 1000),
    chooseRegex_fiveEnv (by rw [hletters]; decide), rfl, ?_⟩
  rintro ⟨pieces, sub_strings, hpieces, -, hconcat, hlength⟩
  have hfive : some pieces = some (List.replicate 5 (letters 1000) ++
      [.lit "true", .lit "five", letters 1000, .ofInt 7]) := hpieces.symm
  rw [hconcat, Option.some.inj hfive, CStr.strlen_concat, List.map_append, List.map_replicate,
    List.sum_append, hletters] at hlength
  exact absurd (Nat.lt_of_le_of_lt (Nat.le_add_right _ _) hlength) (by decide)

end LogCollector
