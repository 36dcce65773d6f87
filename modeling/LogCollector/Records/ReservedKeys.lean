import LogCollector.Records.HashCoverage

/-!
# Which fields a record keeps

The keys of fields are text of a plugin file, and nothing keeps a field from having the
key of a member that `worker_loop` puts itself. It puts its own members last, so they
replace what fields have put under their keys (`reserved_keys_kept`), and of the fields
with one key the last that was extracted stays.

A record is what is left when a list of members is put into an empty object. The texts of
the extracted fields are that list up to the members of `worker_loop`.
-/

namespace LogCollector

namespace Record

/-- `json_object_put` of one member after the other. -/
def putAll (r : Record) (members : List (CStr × Scalar)) : Record :=
  members.foldl (fun r m => r.put m.1 m.2) r

theorem members_putAll (r : Record) (members : List (CStr × Scalar)) :
    (r.putAll members).members =
      members.foldl (fun l m => Lib.Assoc.put l m.1 m.2) r.members := by
  induction members generalizing r with
  | nil => rfl
  | cons m members ih => exact ih (r.put m.1 m.2)

theorem get_putAll (r : Record) (members : List (CStr × Scalar)) (key : CStr) :
    (r.putAll members).get key = (members.reverse.lookup key).or (r.get key) := by
  unfold get
  rw [members_putAll, Lib.Assoc.lookup_foldl_put]

theorem putAll_append (r : Record) (before after : List (CStr × Scalar)) :
    r.putAll (before ++ after) = (r.putAll before).putAll after :=
  List.foldl_append

end Record

/-! ## Extracted fields -/

/-- The member a field is put with. -/
def Field.scalar (field : Field) (s : CStr) : Scalar :=
  if field.is_integer then .integer s.strtol else .string s

section

variable (pcre : Pcre) (rgx : Regex) (buf : CStr) (ovector : Nat → Int) (stringcount : Nat)

/-- The fields that are extracted, each with its text, in their order; `none` where a
custom function writes past the end of `func_ret_str`. -/
def extractedFields (func_ret_str : CStr) : List Field → Option (List (Field × CStr))
  | [] => some []
  | field :: fields =>
    (fieldPiece pcre rgx buf ovector stringcount func_ret_str field).bind
      fun (piece, func_ret_str) =>
        (extractedFields func_ret_str fields).map (piece.toList.map (field, ·) ++ ·)

end

/-- The fields that are extracted for a record. -/
def extracted (pcre : Pcre) (buf : CStr) (vars : PassVars) : Option (List (Field × CStr)) :=
  if 0 < vars.best_match then
    vars.best_rgx.bind fun rgx =>
      extractedFields pcre rgx buf (vars.rgx_sub_vectors vars.best_rgx_index) vars.best_match
        vars.func_ret_str rgx.fields
  else some []

/-- The members of extracted fields. -/
def fieldMembers (texts : List (Field × CStr)) : List (CStr × Scalar) :=
  texts.map fun (field, s) => (field.key, field.scalar s)

/-- The members that say which regex was chosen, and those of every record. -/
def choiceMembers : Option Regex → List (CStr × Scalar)
  | some rgx => [(.lit "regex_matched", .boolean true),
      (.lit "matched_regex_name", .string rgx.description)]
  | none => [(.lit "regex_matched", .boolean false)]

def ownMembers (plgn : Plugin) (buf sub_strings : CStr) : List (CStr × Scalar) :=
  [(.lit "raw_log", .string buf), (.lit "plugin_id", .integer plgn.plugin_id.toInt64),
    (.lit "siemplus_hash", .string (.ofInt (hashString sub_strings 0).toNat))]

/-- The keys of the members that `worker_loop` puts itself. -/
def reservedKeys : List CStr :=
  [.lit "regex_matched", .lit "matched_regex_name", .lit "raw_log", .lit "plugin_id",
    .lit "siemplus_hash"]

/-- The members of a record are what they are said to be: those of `worker_loop` are its
own, and under every other key is the last field with this key that was extracted. -/
structure KeysKept (plgn : Plugin) (chosen : Option Regex) (texts : List (Field × CStr))
    (buf sub_strings : CStr) (record : Record) : Prop where
  raw_log : record.get (.lit "raw_log") = some (.string buf)
  plugin_id : record.get (.lit "plugin_id") = some (.integer plgn.plugin_id.toInt64)
  siemplus_hash : record.get (.lit "siemplus_hash") =
    some (.string (.ofInt (hashString sub_strings 0).toNat))
  regex_matched : record.get (.lit "regex_matched") = some (.boolean chosen.isSome)
  matched_regex_name : record.get (.lit "matched_regex_name") =
    chosen.map fun rgx => .string rgx.description
  others : ∀ key ∉ reservedKeys, record.get key =
    (texts.reverse.find? fun (field, _) => field.key = key).map fun (field, s) => field.scalar s

/-! ## A record as a list of members -/

section

variable (pcre : Pcre) (rgx : Regex) (buf : CStr) (ovector : Nat → Int) (stringcount : Nat)

theorem jason_elim (e : Emission) (field : Field) (piece : Option CStr) :
    (piece.elim e (e.putField field)).jason =
      e.jason.putAll (fieldMembers (piece.toList.map (field, ·))) := by
  cases piece with
  | none => rfl
  | some s => rfl

/-- The loop over the fields puts the members of the extracted ones. -/
theorem jason_emitFields (fields : List Field) (e : Emission) (func_ret_str : CStr) :
    (fields.foldlM (emitField pcre rgx buf ovector stringcount) (e, func_ret_str)).map
        (fun result => result.1.jason) =
      (extractedFields pcre rgx buf ovector stringcount func_ret_str fields).map
        fun texts => e.jason.putAll (fieldMembers texts) := by
  induction fields generalizing e func_ret_str with
  | nil => rfl
  | cons field fields ih =>
    rw [List.foldlM_cons, emitField_eq_map, extractedFields]
    cases fieldPiece pcre rgx buf ovector stringcount func_ret_str field with
    | none => rfl
    | some result =>
      obtain ⟨piece, func_ret_str⟩ := result
      rw [Option.map_some, Option.bind_eq_bind, Option.bind_some, Option.bind_some, ih,
        Option.map_map, jason_elim]
      congr 1
      funext texts
      show _ = e.jason.putAll (fieldMembers (piece.toList.map (field, ·) ++ texts))
      unfold fieldMembers
      rw [List.map_append, Record.putAll_append]

end

/-- The members up to the choice are put into an empty object. -/
theorem jason_emitMatch (pcre : Pcre) (buf : CStr) (vars : PassVars) :
    (emitMatch pcre buf vars).map (fun result => result.1.jason) =
      (extracted pcre buf vars).map fun texts =>
        Record.empty.putAll (fieldMembers texts ++ choiceMembers vars.chosen) := by
  unfold emitMatch extracted PassVars.chosen
  split
  · cases vars.best_rgx with
    | none => rfl
    | some rgx =>
      have hfields := jason_emitFields pcre rgx buf (vars.rgx_sub_vectors vars.best_rgx_index)
        vars.best_match rgx.fields .empty vars.func_ret_str
      have hmap := congrArg (Option.map fun r : Record => r.putAll (choiceMembers (some rgx)))
        hfields
      rw [Option.map_map, Option.map_map] at hmap
      rw [Option.bind_some, Option.bind_some, Option.map_map]
      refine hmap.trans (congrArg (Option.map · _) ?_)
      funext texts
      exact (Record.putAll_append _ _ _).symm
  · rfl

section

variable {env : RecordEnv} {i : Nat} {buf : CStr} {vars : PassVars} {plgn : Plugin}

/-- Without debug output the hash is the last member. -/
theorem emitRecord_eq_map (hdebug : env.debug = false) :
    emitRecord env i buf vars = (beforeHash env i buf vars).map fun (e, func_ret_str) =>
      (e.jason.put (.lit "siemplus_hash") (.string (.ofInt (hashString e.sub_strings 0).toNat)),
        func_ret_str) := by
  rw [emitRecord_eq_bind, hdebug, Option.map_eq_bind]
  rfl

/-- A record is finished where the fields are extracted within `func_ret_str`. -/
theorem emitRecord_isSome (hdebug : env.debug = false) (hplgn : env.plugins[i]? = some plgn) :
    (emitRecord env i buf vars).isSome ↔ (extracted env.pcre buf vars).isSome := by
  have hmatch := congrArg Option.isSome (jason_emitMatch env.pcre buf vars)
  rw [Option.isSome_map, Option.isSome_map] at hmatch
  rw [emitRecord_eq_map hdebug, Option.isSome_map, beforeHash, hplgn, Option.bind_some,
    Option.isSome_map, hmatch]

/-- A FINISHED RECORD is what its members make of an empty object. -/
theorem emitRecord_members (hdebug : env.debug = false) (hplgn : env.plugins[i]? = some plgn)
    {record : Record} {func_ret_str : CStr}
    (h : emitRecord env i buf vars = some (record, func_ret_str)) :
    ∃ texts sub_strings, extracted env.pcre buf vars = some texts ∧
      hashedText env i buf vars = some sub_strings ∧
        record = Record.empty.putAll
          (fieldMembers texts ++ choiceMembers vars.chosen ++ ownMembers plgn buf sub_strings) := by
  have hmatch := jason_emitMatch env.pcre buf vars
  rw [emitRecord_eq_map hdebug] at h
  unfold hashedText
  rw [beforeHash, hplgn, Option.bind_some] at h ⊢
  obtain ⟨before, hbefore, hput⟩ := Option.map_eq_some_iff.mp h
  obtain ⟨result, hresult, hown⟩ := Option.map_eq_some_iff.mp hbefore
  cases hown
  cases hput
  rw [hresult, Option.map_some] at hmatch
  obtain ⟨texts, htexts, hjason⟩ := Option.map_eq_some_iff.mp hmatch.symm
  rw [hresult]
  refine ⟨texts, _, htexts, rfl, ?_⟩
  rw [Record.putAll_append, hjason]
  rfl

end

/-! ## What is under a key -/

section

variable {plgn : Plugin} {chosen : Option Regex} {texts : List (Field × CStr)}
  {buf sub_strings key : CStr}

theorem lookup_fieldMembers (texts : List (Field × CStr)) (key : CStr) :
    (fieldMembers texts).lookup key =
      (texts.find? fun (field, _) => field.key = key).map fun (field, s) => field.scalar s := by
  induction texts with
  | nil => rfl
  | cons text texts ih =>
    obtain ⟨field, s⟩ := text
    have hcons : fieldMembers ((field, s) :: texts) =
        (field.key, field.scalar s) :: fieldMembers texts := rfl
    rw [hcons, Lib.Assoc.lookup_cons, ih, List.find?_cons]
    by_cases h : field.key = key
    · simp [h]
    · simp [h]

/-- The members of `worker_loop` are looked at before those of fields. -/
theorem get_members (key : CStr) :
    (Record.empty.putAll
        (fieldMembers texts ++ choiceMembers chosen ++ ownMembers plgn buf sub_strings)).get key =
      ((ownMembers plgn buf sub_strings).reverse.lookup key).or
        (((choiceMembers chosen).reverse.lookup key).or
          ((fieldMembers texts).reverse.lookup key)) := by
  have hempty : Record.empty.get key = none := rfl
  rw [Record.get_putAll, hempty, Option.or_none, List.reverse_append, List.reverse_append,
    List.lookup_append, List.lookup_append]

/-- A key that is not reserved is no key of `worker_loop`. -/
theorem lookup_eq_none_of_reserved {members : List (CStr × Scalar)}
    (hmembers : ∀ m ∈ members, m.1 ∈ reservedKeys) (hkey : key ∉ reservedKeys) :
    members.lookup key = none := by
  apply List.lookup_eq_none_iff.mpr
  intro m hm
  have hne : key ≠ m.1 := fun h => hkey (h ▸ hmembers m hm)
  exact bne_iff_ne.mpr hne

theorem ownMembers_reserved : ∀ m ∈ ownMembers plgn buf sub_strings, m.1 ∈ reservedKeys := by
  intro m hm
  simp only [ownMembers, List.mem_cons, List.not_mem_nil, or_false] at hm
  rcases hm with rfl | rfl | rfl
  all_goals simp [reservedKeys]

theorem choiceMembers_reserved : ∀ m ∈ choiceMembers chosen, m.1 ∈ reservedKeys := by
  intro m hm
  cases chosen with
  | none =>
    cases List.mem_singleton.mp hm
    exact List.mem_cons_self
  | some rgx =>
    simp only [choiceMembers, List.mem_cons, List.not_mem_nil, or_false] at hm
    rcases hm with rfl | rfl
    all_goals simp [reservedKeys]

/-- The members of `worker_loop` come last; without a regex there are no others. -/
theorem keysKept_putAll (hnone : chosen = none → texts = []) :
    KeysKept plgn chosen texts buf sub_strings
      (Record.empty.putAll
        (fieldMembers texts ++ choiceMembers chosen ++ ownMembers plgn buf sub_strings)) where
  raw_log := by
    rw [get_members]
    rfl
  plugin_id := by
    rw [get_members]
    rfl
  siemplus_hash := by
    rw [get_members]
    rfl
  regex_matched := by
    rw [get_members]
    cases chosen with
    | none => rfl
    | some rgx => rfl
  matched_regex_name := by
    rw [get_members]
    cases chosen with
    | none =>
      rw [hnone rfl]
      rfl
    | some rgx => rfl
  others := by
    intro key hkey
    have hown : (ownMembers plgn buf sub_strings).reverse.lookup key = none := by
      apply lookup_eq_none_of_reserved _ hkey
      intro m hm
      exact ownMembers_reserved m (List.mem_reverse.mp hm)
    have hchoice : (choiceMembers chosen).reverse.lookup key = none := by
      apply lookup_eq_none_of_reserved _ hkey
      intro m hm
      exact choiceMembers_reserved m (List.mem_reverse.mp hm)
    rw [get_members, hown, hchoice, Option.none_or, Option.none_or, ← lookup_fieldMembers]
    unfold fieldMembers
    rw [List.map_reverse]

end

/-- Fields are extracted for a chosen regex only. -/
theorem extracted_of_not_chosen {pcre : Pcre} {buf : CStr} {vars : PassVars}
    {texts : List (Field × CStr)} (hchosen : vars.chosen = none)
    (htexts : extracted pcre buf vars = some texts) : texts = [] := by
  unfold PassVars.chosen at hchosen
  unfold extracted at htexts
  split at htexts
  · next hpos =>
    rw [if_pos hpos] at hchosen
    rw [hchosen] at htexts
    cases htexts
  · cases htexts
    rfl

/-- RESERVED KEYS ARE KEPT: without debug output a record is finished wherever its fields
are extracted, and whatever their keys are, its own members are those of `worker_loop` and
every other key has the last field with this key that was extracted. -/
theorem reserved_keys_kept {env : RecordEnv} {i : Nat} (buf : CStr) (vars : PassVars)
    {plgn : Plugin} (hdebug : env.debug = false) (hplgn : env.plugins[i]? = some plgn) :
    ((emitRecord env i buf vars).isSome ↔ (extracted env.pcre buf vars).isSome) ∧
      ∀ record func_ret_str, emitRecord env i buf vars = some (record, func_ret_str) →
        ∃ texts sub_strings, extracted env.pcre buf vars = some texts ∧
          hashedText env i buf vars = some sub_strings ∧
            KeysKept plgn vars.chosen texts buf sub_strings record := by
  refine ⟨emitRecord_isSome hdebug hplgn, ?_⟩
  intro record func_ret_str h
  obtain ⟨texts, sub_strings, htexts, hhash, rfl⟩ := emitRecord_members hdebug hplgn h
  refine ⟨texts, sub_strings, htexts, hhash, keysKept_putAll ?_⟩
  intro hnone
  exact extracted_of_not_chosen hnone htexts

/-! ## Fields with the keys of others -/

/-- Literals under two reserved keys, and two under one key. -/
def forgingRegex : Regex where
  id := 1
  description := .lit "forging"
  precheck := .lit "x"
  regexp := .lit "x"
  fields := [⟨.lit "raw_log", .lit "y", none, true, false⟩,
    ⟨.lit "plugin_id", .lit "2", none, true, true⟩, ⟨.lit "user", .lit "a", none, true, false⟩,
    ⟨.lit "user", .lit "b", none, true, false⟩]

def forgingEnv : RecordEnv where
  pcre := literalPcre
  plugins := [⟨1, true, [forgingRegex]⟩]
  debug := false

/-- The variables when the regex was chosen. -/
def forgingVars : PassVars :=
  { emptyStack with best_match := 1, best_rgx := some forgingRegex }

/-- The record has the log and the plugin of the packet, and the later text of the user. -/
theorem reserved_keys_kept_forging :
    ∃ record func_ret_str,
      emitRecord forgingEnv 0 (.lit "x") forgingVars = some (record, func_ret_str) ∧
        record.get (.lit "raw_log") = some (.string (.lit "x")) ∧
          record.get (.lit "plugin_id") = some (.integer 1) ∧
            record.get (.lit "user") = some (.string (.lit "b")) := by
  obtain ⟨hfinished, hkept⟩ := reserved_keys_kept (.lit "x") forgingVars
    (show forgingEnv.debug = false from rfl)
    (show forgingEnv.plugins[0]? = some ⟨1, true, [forgingRegex]⟩ from rfl)
  obtain ⟨⟨record, func_ret_str⟩, hrecord⟩ := Option.isSome_iff_exists.mp (hfinished.mpr rfl)
  obtain ⟨texts, sub_strings, htexts, -, hkeys⟩ := hkept record func_ret_str hrecord
  refine ⟨record, func_ret_str, hrecord, hkeys.raw_log, hkeys.plugin_id, ?_⟩
  rw [hkeys.others (.lit "user") (by decide), ← Option.some.inj htexts]
  decide

end LogCollector
