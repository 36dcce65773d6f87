import LogCollector.Json.Layout

/-!
# Values and their texts

Whatever the flags are, `json_from_string` reads a value back from its text. With `JSSF_SORT` values
have the same text exactly where `json_equal` finds them equal, so that the text can stand for the
value. A `double` is written with `DBL_DIG` digits, which may be those of another one: values here
have none.
-/

namespace LogCollector

variable {ρ : Type}

/-! ## Names -/

mutual

/-- No object has a name twice, as in a hash table. -/
def Json.NamesOnce : Json ρ → Prop
  | .object members => (Lib.Assoc.keys members).Nodup ∧ membersNamesOnce members
  | .array elems => elemsNamesOnce elems
  | .null | .boolean _ | .integer _ | .real _ | .string _ => True

def membersNamesOnce : List (CStr × Json ρ) → Prop
  | [] => True
  | (_, value) :: members => value.NamesOnce ∧ membersNamesOnce members

def elemsNamesOnce : List (Json ρ) → Prop
  | [] => True
  | value :: elems => value.NamesOnce ∧ elemsNamesOnce elems

end

theorem membersNamesOnce_iff {members : List (CStr × Json ρ)} :
    membersNamesOnce members ↔ ∀ m ∈ members, m.2.NamesOnce := by
  induction members with
  | nil => exact iff_of_true trivial (List.forall_mem_nil _)
  | cons m members ih => rw [membersNamesOnce, ih, List.forall_mem_cons]

theorem elemsNamesOnce_iff {elems : List (Json ρ)} :
    elemsNamesOnce elems ↔ ∀ e ∈ elems, e.NamesOnce := by
  induction elems with
  | nil => exact iff_of_true trivial (List.forall_mem_nil _)
  | cons value elems ih => rw [elemsNamesOnce, ih, List.forall_mem_cons]

/-- Members with names of their own mean themselves. -/
theorem resolveMembers_of_nodup : ∀ {members before : List (CStr × Json ρ)},
    (Lib.Assoc.keys (before ++ members)).Nodup → (∀ m ∈ members, m.2.resolve = m.2) →
      resolveMembers before members = before ++ members
  | [], before, _, _ => by rw [resolveMembers, List.append_nil]
  | (name, value) :: members, before, hkeys, hvalues => by
    obtain ⟨hvalue, hmembers⟩ := List.forall_mem_cons.mp hvalues
    have hname : name ∉ Lib.Assoc.keys before := by
      intro hmem
      rw [Lib.Assoc.keys, List.map_append, List.nodup_append] at hkeys
      exact hkeys.2.2 name hmem name List.mem_cons_self rfl
    have hsplit : before ++ (name, value) :: members = before ++ [(name, value)] ++ members := by
      rw [List.append_assoc, List.singleton_append]
    rw [resolveMembers, hvalue, Lib.Assoc.put_of_notMem value hname, hsplit]
    exact resolveMembers_of_nodup (hsplit ▸ hkeys) hmembers

/-- A VALUE FROM HASH TABLES means itself. -/
theorem resolve_eq_self (json : Json ρ) : json.NamesOnce → json.resolve = json := by
  induction json using Json.induct with
  | object members ih =>
    rintro ⟨hkeys, hmembers⟩
    have hresolve : resolveMembers [] members = members :=
      resolveMembers_of_nodup hkeys fun m hm => ih m hm (membersNamesOnce_iff.mp hmembers m hm)
    rw [Json.resolve, hresolve]
  | array elems ih =>
    intro helems
    have hresolve : ∀ elems : List (Json ρ), (∀ e ∈ elems, e.resolve = e) →
        resolveElems elems = elems := by
      intro elems
      induction elems with
      | nil => exact fun _ => rfl
      | cons value elems ih =>
        intro h
        obtain ⟨hvalue, helems⟩ := List.forall_mem_cons.mp h
        rw [resolveElems, hvalue, ih helems]
    rw [Json.resolve, hresolve elems fun e he => ih e he (elemsNamesOnce_iff.mp helems e he)]
  | scalar json hscalar =>
    intro _
    cases json with
    | object => cases hscalar
    | array => cases hscalar
    | null | boolean | integer | real | string => rfl

/-! ## Arranged values -/

theorem membersHeight_le_iff {members : List (CStr × Json ρ)} {n : Nat} :
    membersHeight members ≤ n ↔ ∀ m ∈ members, m.2.height ≤ n := by
  induction members with
  | nil => exact iff_of_true n.zero_le (List.forall_mem_nil _)
  | cons m members ih => rw [membersHeight, max_le_iff, ih, List.forall_mem_cons]

theorem elemsHeight_le_iff {elems : List (Json ρ)} {n : Nat} :
    elemsHeight elems ≤ n ↔ ∀ e ∈ elems, e.height ≤ n := by
  induction elems with
  | nil => exact iff_of_true n.zero_le (List.forall_mem_nil _)
  | cons value elems ih => rw [elemsHeight, max_le_iff, ih, List.forall_mem_cons]

section

variable (flags : SerializeFlags)

/-- A property of the arranged members. -/
theorem forall_mem_arranged {P : CStr × Json ρ → Prop} {members : List (CStr × Json ρ)} :
    (∀ m ∈ (membersToWrite flags members).map fun m => (m.1, m.2.arranged flags), P m) ↔
      ∀ m ∈ members, P (m.1, m.2.arranged flags) := by
  rw [List.forall_mem_map]
  exact forall_congr' fun m => by rw [(membersToWrite_perm flags members).mem_iff]

theorem nodup_arranged {members : List (CStr × Json ρ)} (h : (Lib.Assoc.keys members).Nodup) :
    (Lib.Assoc.keys ((membersToWrite flags members).map fun m =>
      (m.1, m.2.arranged flags))).Nodup := by
  rw [Lib.Assoc.keys, List.map_map]
  exact ((membersToWrite_perm flags members).map Prod.fst).nodup_iff.mpr h

theorem isContainer_arranged (json : Json ρ) :
    (json.arranged flags).isContainer = json.isContainer := by
  cases json <;> rfl

theorem height_arranged (json : Json ρ) : (json.arranged flags).height = json.height := by
  induction json using Json.induct with
  | object members ih =>
    rw [arranged_object, Json.height, Json.height, Nat.add_right_cancel_iff]
    refine eq_of_forall_ge_iff fun n => ?_
    rw [membersHeight_le_iff, membersHeight_le_iff, forall_mem_arranged flags]
    exact forall₂_congr fun m hm => by rw [ih m hm]
  | array elems ih =>
    rw [Json.arranged, arrangedElems_eq_map, Json.height, Json.height, Nat.add_right_cancel_iff]
    refine eq_of_forall_ge_iff fun n => ?_
    rw [elemsHeight_le_iff, elemsHeight_le_iff, List.forall_mem_map]
    exact forall₂_congr fun e he => by rw [ih e he]
  | scalar json hscalar => rw [arranged_of_scalar flags hscalar]

theorem exact_arranged (json : Json ρ) : (json.arranged flags).exact = json.exact := by
  induction json using Json.induct with
  | object members ih =>
    rw [arranged_object, Json.exact, Json.exact, Bool.eq_iff_iff, exactMembers_iff,
      exactMembers_iff, forall_mem_arranged flags]
    exact forall₂_congr fun m hm => by rw [ih m hm]
  | array elems ih =>
    rw [Json.arranged, arrangedElems_eq_map, Json.exact, Json.exact, Bool.eq_iff_iff,
      exactElems_iff, exactElems_iff, List.forall_mem_map]
    exact forall₂_congr fun e he => by rw [ih e he]
  | scalar json hscalar => rw [arranged_of_scalar flags hscalar]

theorem namesOnce_arranged (json : Json ρ) : json.NamesOnce → (json.arranged flags).NamesOnce := by
  induction json using Json.induct with
  | object members ih =>
    rintro ⟨hkeys, hmembers⟩
    rw [arranged_object]
    refine ⟨nodup_arranged flags hkeys, membersNamesOnce_iff.mpr ?_⟩
    rw [forall_mem_arranged flags]
    exact fun m hm => ih m hm (membersNamesOnce_iff.mp hmembers m hm)
  | array elems ih =>
    intro helems
    rw [Json.arranged, arrangedElems_eq_map]
    refine elemsNamesOnce_iff.mpr ?_
    rw [List.forall_mem_map]
    exact fun e he => ih e he (elemsNamesOnce_iff.mp helems e he)
  | scalar json hscalar => rw [arranged_of_scalar flags hscalar]; exact id

end

/-! ## Equality -/

section

variable {reals : Reals ρ}

/-- `json_equal_object`: each member of the one is in the other. -/
theorem jsonEqualMembers_iff {a b : List (CStr × Json ρ)} : jsonEqualMembers reals a b ↔
    ∀ m ∈ a, ∃ value, b.lookup m.1 = some value ∧ jsonEqual reals m.2 value := by
  induction a with
  | nil => exact iff_of_true rfl (List.forall_mem_nil _)
  | cons m a ih =>
    rw [jsonEqualMembers, Bool.and_eq_true, ih, List.forall_mem_cons]
    refine and_congr_left' ?_
    cases b.lookup m.1 with
    | none =>
      refine iff_of_false Bool.false_ne_true ?_
      rintro ⟨value, hfound, -⟩
      cases hfound
    | some value =>
      constructor
      · intro hequal
        exact ⟨value, rfl, hequal⟩
      · rintro ⟨value', hfound, hequal⟩
        cases hfound
        exact hequal

theorem jsonEqualElems_iff {a b : List (Json ρ)} :
    jsonEqualElems reals a b ↔ List.Forall₂ (fun x y => jsonEqual reals x y) a b := by
  induction a generalizing b with
  | nil =>
    cases b with
    | nil => exact iff_of_true rfl .nil
    | cons y b => exact iff_of_false Bool.false_ne_true fun h => by cases h
  | cons x a ih =>
    cases b with
    | nil => exact iff_of_false Bool.false_ne_true fun h => by cases h
    | cons y b => rw [jsonEqualElems, Bool.and_eq_true, ih, List.forall₂_cons]

theorem jsonEqual_object {a b : List (CStr × Json ρ)} :
    jsonEqual reals (.object a) (.object b) ↔ a.length = b.length ∧
      ∀ m ∈ a, ∃ value, b.lookup m.1 = some value ∧ jsonEqual reals m.2 value := by
  rw [jsonEqual, Bool.and_eq_true, beq_iff_eq, jsonEqualMembers_iff]

theorem jsonEqual_array {a b : List (Json ρ)} : jsonEqual reals (.array a) (.array b) ↔
    List.Forall₂ (fun x y => jsonEqual reals x y) a b := by
  rw [jsonEqual, jsonEqualElems_iff]

/-- Scalars that are no `double` are equal where they are the same. -/
theorem jsonEqual_scalar {a b : Json ρ} (ha : a.isContainer = false) (hexact : a.exact) :
    jsonEqual reals a b ↔ a = b := by
  cases a with
  | object => cases ha
  | array => cases ha
  | real => cases hexact
  | null | boolean | integer | string => cases b <;> simp [jsonEqual]

/-- A value equals itself with its members in another order. -/
theorem jsonEqual_arranged (flags : SerializeFlags) (json : Json ρ) : json.exact → json.NamesOnce →
    jsonEqual reals (json.arranged flags) json := by
  induction json using Json.induct with
  | object members ih =>
    rintro hexact ⟨hkeys, hmembers⟩
    rw [arranged_object, jsonEqual_object, List.length_map]
    refine ⟨(membersToWrite_perm flags members).length_eq, (forall_mem_arranged flags).mpr ?_⟩
    intro m hm
    exact ⟨m.2, Lib.Assoc.lookup_eq_some_of_mem hkeys hm,
      ih m hm (exactMembers_iff.mp hexact m hm) (membersNamesOnce_iff.mp hmembers m hm)⟩
  | array elems ih =>
    intro hexact helems
    rw [Json.arranged, arrangedElems_eq_map, jsonEqual_array, List.forall₂_map_left_iff,
      List.forall₂_same]
    intro e he
    exact ih e he (exactElems_iff.mp hexact e he) (elemsNamesOnce_iff.mp helems e he)
  | scalar json hscalar =>
    intro hexact _
    rw [arranged_of_scalar flags hscalar]
    exact (jsonEqual_scalar hscalar hexact).mpr rfl

section

variable {flags : SerializeFlags}

/-- Sorted members are the same where they are members of the same object. -/
theorem membersToWrite_eq_of_perm {ν : Type} (hsort : flags.sort) {a b : List (CStr × ν)}
    (hkeys : (Lib.Assoc.keys a).Nodup) (h : a.Perm b) :
    membersToWrite flags a = membersToWrite flags b := by
  rw [membersToWrite, membersToWrite, if_pos hsort, if_pos hsort]
  exact Lib.Assoc.sorted_eq_of_perm hkeys h

/-- Equal values are the same when they are sorted. -/
theorem arranged_eq_of_jsonEqual (hsort : flags.sort) (a : Json ρ) : ∀ b : Json ρ,
    a.exact → a.NamesOnce → jsonEqual reals a b → a.arranged flags = b.arranged flags := by
  induction a using Json.induct with
  | object members ih =>
    rintro b hexact ⟨hkeys, hmembers⟩ hequal
    cases b with
    | object members' =>
      obtain ⟨hlength, hfound⟩ := jsonEqual_object.mp hequal
      let arrange (members : List (CStr × Json ρ)) := members.map fun m => (m.1, m.2.arranged flags)
      have hkeys' : (Lib.Assoc.keys (arrange members)).Nodup := by
        rw [Lib.Assoc.keys, List.map_map]
        exact hkeys
      have hperm : (arrange members).Perm (arrange members') := by
        refine Lib.Assoc.perm_of_mem hkeys' ?_ ?_
        · rw [List.length_map, List.length_map, hlength]
        · rw [List.forall_mem_map]
          intro m hm
          obtain ⟨value, hlookup, hvalue⟩ := hfound m hm
          rw [ih m hm value (exactMembers_iff.mp hexact m hm)
            (membersNamesOnce_iff.mp hmembers m hm) hvalue]
          exact List.mem_map_of_mem (f := fun m => (m.1, m.2.arranged flags))
            (Lib.Assoc.mem_of_lookup hlookup)
      rw [Json.arranged, Json.arranged, arrangedMembers_eq_map, arrangedMembers_eq_map]
      exact congrArg Json.object (membersToWrite_eq_of_perm hsort hkeys' hperm)
    | array | null | boolean | integer | real | string => cases hequal
  | array elems ih =>
    intro b hexact helems hequal
    cases b with
    | array elems' =>
      have hrel : List.Forall₂ (fun x y => jsonEqual reals x y) elems elems' :=
        jsonEqual_array.mp hequal
      rw [Json.arranged, Json.arranged, arrangedElems_eq_map, arrangedElems_eq_map]
      have hsame : List.Forall₂ (fun x y => x.arranged flags = y.arranged flags) elems elems' := by
        refine ((List.forall₂_and_left elems elems').mpr ⟨fun _ he => he, hrel⟩).imp ?_
        rintro x y ⟨hx, hxy⟩
        exact ih x hx y (exactElems_iff.mp hexact x hx) (elemsNamesOnce_iff.mp helems x hx) hxy
      have heq : elems.map (Json.arranged flags) = elems'.map (Json.arranged flags) := by
        rw [← List.forall₂_eq_eq_eq, List.forall₂_map_left_iff, List.forall₂_map_right_iff]
        exact hsame
      rw [heq]
    | object | null | boolean | integer | real | string => cases hequal
  | scalar a hscalar =>
    intro b hexact _ hequal
    rw [(jsonEqual_scalar hscalar hexact).mp hequal]

/-- Values that are the same when they are sorted are equal. -/
theorem jsonEqual_of_arranged_eq (a : Json ρ) : ∀ b : Json ρ, a.exact → b.NamesOnce →
    a.arranged flags = b.arranged flags → jsonEqual reals a b := by
  induction a using Json.induct with
  | object members ih =>
    intro b hexact hnames heq
    cases b with
    | object members' =>
      obtain ⟨hkeys, hmembers⟩ := hnames
      rw [arranged_object, arranged_object] at heq
      have hwritten := Json.object.inj heq
      have hlength := congrArg List.length hwritten
      rw [List.length_map, List.length_map, (membersToWrite_perm flags members).length_eq,
        (membersToWrite_perm flags members').length_eq] at hlength
      refine jsonEqual_object.mpr ⟨hlength, ?_⟩
      intro m hm
      have hmem : (m.1, m.2.arranged flags) ∈
          (membersToWrite flags members').map fun m => (m.1, m.2.arranged flags) := by
        rw [← hwritten]
        exact List.mem_map_of_mem (f := fun m => (m.1, m.2.arranged flags))
          ((membersToWrite_perm flags members).mem_iff.mpr hm)
      obtain ⟨m', hm', hsame⟩ := List.mem_map.mp hmem
      have hm' := (membersToWrite_perm flags members').mem_iff.mp hm'
      obtain ⟨hname, hvalue⟩ := Prod.mk.inj hsame
      refine ⟨m'.2, ?_, ih m hm m'.2 (exactMembers_iff.mp hexact m hm)
        (membersNamesOnce_iff.mp hmembers m' hm') hvalue.symm⟩
      rw [← hname]
      exact Lib.Assoc.lookup_eq_some_of_mem hkeys hm'
    | array | null | boolean | integer | real | string => cases heq
  | array elems ih =>
    intro b hexact helems heq
    cases b with
    | array elems' =>
      rw [Json.arranged, Json.arranged, arrangedElems_eq_map, arrangedElems_eq_map] at heq
      have hsame := Json.array.inj heq
      rw [← List.forall₂_eq_eq_eq, List.forall₂_map_left_iff, List.forall₂_map_right_iff] at hsame
      obtain ⟨hlength, hpairs⟩ := List.forall₂_iff_zip.mp hsame
      refine jsonEqual_array.mpr (List.forall₂_iff_zip.mpr ⟨hlength, ?_⟩)
      intro x y hxy
      obtain ⟨hx, hy⟩ := List.of_mem_zip hxy
      exact ih x hx y (exactElems_iff.mp hexact x hx) (elemsNamesOnce_iff.mp helems y hy)
        (hpairs hxy)
    | object | null | boolean | integer | real | string => cases heq
  | scalar a hscalar =>
    intro b hexact _ heq
    have hscalar' : b.isContainer = false := by
      rw [← isContainer_arranged flags, ← heq, isContainer_arranged, hscalar]
    rw [arranged_of_scalar flags hscalar, arranged_of_scalar flags hscalar'] at heq
    exact (jsonEqual_scalar hscalar hexact).mpr heq

end

end

/-! ## Texts -/

open JsonParser

section

variable (reals : Reals ρ) (flags : SerializeFlags)

/-- The text of a value is that of the arranged value. -/
theorem spelled_jsonToStringWith {json : Json ρ} (hexact : json.exact) :
    Spelled reals (jsonToStringWith reals flags json).bytes (json.arranged flags).tokens := by
  have hwrites : Writes reals (serializeWith reals flags.unsorted 0 (json.arranged flags))
      (json.arranged flags).tokens :=
    writes_serializeWith rfl _ ((exact_arranged flags json).trans hexact) 0
  have hspelled := hwrites [] [] (by rintro _ ⟨⟩) .nil
  rw [serializeWith_arranged, List.append_nil, List.append_nil] at hspelled
  exact hspelled

/-- `json_from_string` READS BACK EVERY LAYOUT: what it answers to the text of an object or an array
is `json_equal` to it. -/
theorem jsonFromString_jsonToStringWith {json : Json ρ} (hcontainer : json.isContainer)
    (hheight : json.height ≤ JSON_MAX_HEIGHT) (hexact : json.exact) (hnames : json.NamesOnce) :
    ∃ answer, jsonFromString reals (jsonToStringWith reals flags json) = some answer ∧
      jsonEqual reals answer json := by
  have htext : IsText reals (jsonToStringWith reals flags json).bytes (json.arranged flags) :=
    ⟨(isContainer_arranged flags json).trans hcontainer,
      (height_arranged flags json).trans_le hheight, spelled_jsonToStringWith reals flags hexact⟩
  have hread : jsonFromString reals (jsonToStringWith reals flags json) =
      some (json.arranged flags).resolve := htext.finish
  rw [resolve_eq_self _ (namesOnce_arranged flags json hnames)] at hread
  exact ⟨_, hread, jsonEqual_arranged flags json hexact hnames⟩

/-- THE SORTED TEXT stands for the value: two values have the same one exactly where `json_equal`
finds them equal. -/
theorem jsonToStringWith_eq_iff (hsort : flags.sort) {a b : Json ρ} (ha : a.exact)
    (hb : b.exact) (hanames : a.NamesOnce) (hbnames : b.NamesOnce) :
    jsonToStringWith reals flags a = jsonToStringWith reals flags b ↔ jsonEqual reals a b := by
  constructor
  · intro htext
    have hspelled := spelled_jsonToStringWith reals flags ha
    rw [htext] at hspelled
    have htokens := hspelled.unique (spelled_jsonToStringWith reals flags hb)
    have harranged := (tokens_append_inj (congrArg (· ++ []) htokens)).1
    exact jsonEqual_of_arranged_eq a b ha hbnames harranged
  · intro hequal
    have harranged := arranged_eq_of_jsonEqual hsort a b ha hanames hequal
    rw [jsonToStringWith, jsonToStringWith, ← serializeWith_arranged reals flags a,
      ← serializeWith_arranged reals flags b, harranged]

end

/-- An object in two orders. -/
def nestedObject : Json Unit :=
  .object [(.lit "b", .array [.integer 1, .object []]), (.lit "a", .boolean true)]

def nestedObject' : Json Unit :=
  .object [(.lit "a", .boolean true), (.lit "b", .array [.integer 1, .object []])]

/-- Sorted and on several lines. -/
theorem jsonFromString_jsonToStringWith_nested : ∃ answer,
    jsonFromString noReals (jsonToStringWith noReals ⟨true, true⟩ nestedObject) = some answer ∧
      jsonEqual noReals answer nestedObject :=
  jsonFromString_jsonToStringWith noReals ⟨true, true⟩
    (show nestedObject.isContainer from rfl) (by decide) rfl
    ⟨by decide, ⟨⟨trivial, ⟨List.nodup_nil, trivial⟩, trivial⟩, trivial, trivial⟩⟩

theorem jsonToStringWith_eq_iff_nested :
    jsonToStringWith noReals ⟨false, true⟩ nestedObject =
      jsonToStringWith noReals ⟨false, true⟩ nestedObject' :=
  (jsonToStringWith_eq_iff noReals ⟨false, true⟩ (a := nestedObject) (b := nestedObject') rfl rfl
    rfl ⟨by decide, ⟨⟨trivial, ⟨List.nodup_nil, trivial⟩, trivial⟩, trivial, trivial⟩⟩
    ⟨by decide, ⟨trivial, ⟨trivial, ⟨List.nodup_nil, trivial⟩, trivial⟩, trivial⟩⟩).mpr rfl

end LogCollector
