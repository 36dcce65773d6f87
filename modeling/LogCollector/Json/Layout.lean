import LogCollector.Json.Reading
import LogCollector.Lib.Sorted

/-!
# The layouts of a text

`json_to_string` can be asked to write each member and element on a line of its own (`JSSF_PRETTY`)
and the members of an object in the order of their names (`JSSF_SORT`). The first is white space to
the parser; the second makes the text one of the value, whatever the order of the hash table is.
-/

namespace LogCollector

/-- The flags of `json_to_string`. -/
structure SerializeFlags where
  /-- `JSSF_PRETTY` -/
  pretty : Bool
  /-- `JSSF_SORT` -/
  sort : Bool

def SPACES_PER_LEVEL : Nat := 2

/-- The order of `strcmp`, which compares bytes as `unsigned char`. -/
instance : LinearOrder CStr :=
  LinearOrder.lift' (fun s => s.bytes.map UInt8.toNat) fun _ _ h =>
    CStr.ext (List.map_injective_iff.mpr (fun _ _ => UInt8.toNat_inj.mp) h)

/-- `ds_put_char_multiple(ds, ' ', n)`. -/
def spaces (n : Nat) : CStr :=
  ⟨List.replicate n 0x20, fun h => absurd (List.eq_of_mem_replicate h) (by decide)⟩

/-- `indent_line`. -/
def indentLine (flags : SerializeFlags) (depth : Nat) : CStr :=
  if flags.pretty then .lit "\n" ++ spaces (SPACES_PER_LEVEL * depth) else .empty

/-- The members in the order in which they are written: that of `shash_sort`, or that of the hash
table. -/
def membersToWrite {ν : Type} (flags : SerializeFlags) (members : List (CStr × ν)) :
    List (CStr × ν) :=
  if flags.sort then Lib.Assoc.sorted members else members

/-- `json_serialize_object_member` for each member, with the text of its value. -/
def putMembers (flags : SerializeFlags) (depth : Nat) : Bool → List (CStr × CStr) → CStr
  | _, [] => .empty
  | first, (name, text) :: members =>
    (if first then .empty else .lit "," ++ indentLine flags depth) ++ serializeString name ++
      .lit ":" ++ (if flags.pretty then .lit " " else .empty) ++ text ++
        putMembers flags depth false members

variable {ρ : Type}

mutual

/-- `json_serialize` at a depth. -/
def serializeWith (reals : Reals ρ) (flags : SerializeFlags) : Nat → Json ρ → CStr
  | depth, .object members =>
    .lit "\x7b" ++ indentLine flags (depth + 1) ++
      putMembers flags (depth + 1) true
        (membersToWrite flags (memberTexts reals flags (depth + 1) members)) ++
      .lit "\x7d"
  | depth, .array elems =>
    .lit "[" ++ (if elems.length > 0 then indentLine flags (depth + 1) else .empty) ++
      putElems reals flags (depth + 1) true elems ++ .lit "]"
  | _, .null => .lit "null"
  | _, .boolean false => .lit "false"
  | _, .boolean true => .lit "true"
  | _, .integer i => .ofInt i.toInt
  | _, .real x => reals.format x
  | _, .string s => serializeString s

/-- The texts of the values. They do not depend on the order in which the members are written. -/
def memberTexts (reals : Reals ρ) (flags : SerializeFlags) :
    Nat → List (CStr × Json ρ) → List (CStr × CStr)
  | _, [] => []
  | depth, (name, value) :: members =>
    (name, serializeWith reals flags depth value) :: memberTexts reals flags depth members

/-- The loop of `json_serialize_array`. -/
def putElems (reals : Reals ρ) (flags : SerializeFlags) : Nat → Bool → List (Json ρ) → CStr
  | _, _, [] => .empty
  | depth, first, value :: elems =>
    (if first then .empty else .lit "," ++ indentLine flags depth) ++
      serializeWith reals flags depth value ++ putElems reals flags depth false elems

end

/-- `json_to_string`. -/
def jsonToStringWith (reals : Reals ρ) (flags : SerializeFlags) (json : Json ρ) : CStr :=
  serializeWith reals flags 0 json

/-! ## Induction over values -/

section

variable {P : Json ρ → Prop}

mutual

/-- A property of values that follows for a container from its values. -/
theorem Json.induct (object : ∀ members, (∀ m ∈ members, P m.2) → P (.object members))
    (array : ∀ elems, (∀ e ∈ elems, P e) → P (.array elems))
    (scalar : ∀ json, json.isContainer = false → P json) : ∀ json, P json
  | .object members => object members (induct_members object array scalar members)
  | .array elems => array elems (induct_elems object array scalar elems)
  | .null => scalar _ rfl
  | .boolean _ => scalar _ rfl
  | .integer _ => scalar _ rfl
  | .real _ => scalar _ rfl
  | .string _ => scalar _ rfl

theorem induct_members (object : ∀ members, (∀ m ∈ members, P m.2) → P (.object members))
    (array : ∀ elems, (∀ e ∈ elems, P e) → P (.array elems))
    (scalar : ∀ json, json.isContainer = false → P json) :
    ∀ members : List (CStr × Json ρ), ∀ m ∈ members, P m.2
  | [] => List.forall_mem_nil _
  | (_, value) :: members =>
    List.forall_mem_cons.mpr
      ⟨Json.induct object array scalar value, induct_members object array scalar members⟩

theorem induct_elems (object : ∀ members, (∀ m ∈ members, P m.2) → P (.object members))
    (array : ∀ elems, (∀ e ∈ elems, P e) → P (.array elems))
    (scalar : ∀ json, json.isContainer = false → P json) :
    ∀ elems : List (Json ρ), ∀ e ∈ elems, P e
  | [] => List.forall_mem_nil _
  | value :: elems =>
    List.forall_mem_cons.mpr
      ⟨Json.induct object array scalar value, induct_elems object array scalar elems⟩

end

end

/-! ## The order of members -/

mutual

/-- The value with the members of its objects in the order in which they are written. -/
def Json.arranged (flags : SerializeFlags) : Json ρ → Json ρ
  | .object members => .object (membersToWrite flags (arrangedMembers flags members))
  | .array elems => .array (arrangedElems flags elems)
  | .null => .null
  | .boolean b => .boolean b
  | .integer i => .integer i
  | .real x => .real x
  | .string s => .string s

def arrangedMembers (flags : SerializeFlags) : List (CStr × Json ρ) → List (CStr × Json ρ)
  | [] => []
  | (name, value) :: members => (name, value.arranged flags) :: arrangedMembers flags members

def arrangedElems (flags : SerializeFlags) : List (Json ρ) → List (Json ρ)
  | [] => []
  | value :: elems => value.arranged flags :: arrangedElems flags elems

end

/-- `JSSF_SORT` taken off. -/
def SerializeFlags.unsorted (flags : SerializeFlags) : SerializeFlags :=
  { flags with sort := false }

section

variable (reals : Reals ρ) (flags : SerializeFlags)

theorem memberTexts_eq_map (depth : Nat) (members : List (CStr × Json ρ)) :
    memberTexts reals flags depth members =
      members.map fun m => (m.1, serializeWith reals flags depth m.2) := by
  induction members with
  | nil => rw [memberTexts, List.map_nil]
  | cons m members ih => rw [memberTexts, ih, List.map_cons]

theorem arrangedMembers_eq_map (members : List (CStr × Json ρ)) :
    arrangedMembers flags members = members.map fun m => (m.1, m.2.arranged flags) := by
  induction members with
  | nil => rw [arrangedMembers, List.map_nil]
  | cons m members ih => rw [arrangedMembers, ih, List.map_cons]

theorem arrangedElems_eq_map (elems : List (Json ρ)) :
    arrangedElems flags elems = elems.map (Json.arranged flags) := by
  induction elems with
  | nil => rw [arrangedElems, List.map_nil]
  | cons value elems ih => rw [arrangedElems, ih, List.map_cons]

theorem arranged_of_scalar {json : Json ρ} (h : json.isContainer = false) :
    json.arranged flags = json := by
  cases json with
  | object => cases h
  | array => cases h
  | null | boolean | integer | real | string => rfl

theorem membersToWrite_map {ν μ : Type} (f : ν → μ) (members : List (CStr × ν)) :
    membersToWrite flags (members.map fun m => (m.1, f m.2)) =
      (membersToWrite flags members).map fun m => (m.1, f m.2) := by
  rw [membersToWrite, membersToWrite]
  split
  · exact Lib.Assoc.sorted_map f members
  · rfl

theorem membersToWrite_perm {ν : Type} (members : List (CStr × ν)) :
    (membersToWrite flags members).Perm members := by
  rw [membersToWrite]
  split
  · exact Lib.Assoc.sorted_perm members
  · exact List.Perm.refl members

/-- An arranged object has the arranged values of the members, in the order of the members. -/
theorem arranged_object (members : List (CStr × Json ρ)) :
    (Json.object members).arranged flags =
      .object ((membersToWrite flags members).map fun m => (m.1, m.2.arranged flags)) := by
  rw [Json.arranged, arrangedMembers_eq_map, membersToWrite_map]

theorem putMembers_unsorted (depth : Nat) (texts : List (CStr × CStr)) :
    ∀ first, putMembers flags.unsorted depth first texts = putMembers flags depth first texts := by
  induction texts with
  | nil => exact fun _ => rfl
  | cons m texts ih =>
    intro first
    rw [putMembers, putMembers, ih]
    rfl

/-- SORTING WHILE WRITING is writing the sorted value. -/
theorem serializeWith_arranged (json : Json ρ) : ∀ depth,
    serializeWith reals flags.unsorted depth (json.arranged flags) =
      serializeWith reals flags depth json := by
  induction json using Json.induct with
  | object members ih =>
    intro depth
    have htexts : memberTexts reals flags.unsorted (depth + 1)
        ((membersToWrite flags members).map fun m => (m.1, m.2.arranged flags)) =
          membersToWrite flags (memberTexts reals flags (depth + 1) members) := by
      rw [memberTexts_eq_map, memberTexts_eq_map, membersToWrite_map, List.map_map]
      apply List.map_congr_left
      intro m hm
      exact Prod.ext rfl (ih m ((membersToWrite_perm flags members).mem_iff.mp hm) (depth + 1))
    rw [arranged_object, serializeWith, serializeWith, htexts, putMembers_unsorted]
    rfl
  | array elems ih =>
    intro depth
    have helems : ∀ (elems : List (Json ρ)), (∀ e ∈ elems, ∀ depth,
        serializeWith reals flags.unsorted depth (e.arranged flags) =
          serializeWith reals flags depth e) → ∀ first,
        putElems reals flags.unsorted (depth + 1) first (arrangedElems flags elems) =
          putElems reals flags (depth + 1) first elems := by
      intro elems
      induction elems with
      | nil => exact fun _ _ => rfl
      | cons value elems ih =>
        intro h first
        obtain ⟨hvalue, helems⟩ := List.forall_mem_cons.mp h
        rw [arrangedElems, putElems, putElems, hvalue, ih helems]
        rfl
    have hlength : (arrangedElems flags elems).length = elems.length := by
      rw [arrangedElems_eq_map, List.length_map]
    rw [Json.arranged, serializeWith, serializeWith, helems elems ih, hlength]
    rfl
  | scalar json hscalar =>
    intro depth
    rw [arranged_of_scalar flags hscalar]
    cases json with
    | object => cases hscalar
    | array => cases hscalar
    | boolean b => cases b <;> rfl
    | null | integer | real | string => rfl

end

@[simp] theorem indentLine_flat (depth : Nat) : indentLine ⟨false, false⟩ depth = .empty := rfl

/-- Without flags the text is that of `serialize`. -/
theorem serializeWith_flat (reals : Reals ρ) (json : Json ρ) : ∀ depth,
    serializeWith reals ⟨false, false⟩ depth json = serialize reals json := by
  induction json using Json.induct with
  | object members ih =>
    intro depth
    have hmembers : ∀ members : List (CStr × Json ρ), (∀ m ∈ members, ∀ depth,
        serializeWith reals ⟨false, false⟩ depth m.2 = serialize reals m.2) → ∀ first,
        putMembers ⟨false, false⟩ (depth + 1) first
          (memberTexts reals ⟨false, false⟩ (depth + 1) members) =
            serializeMembers reals first members := by
      intro members
      induction members with
      | nil => exact fun _ _ => rfl
      | cons m members ih =>
        intro h first
        obtain ⟨hm, hmembers⟩ := List.forall_mem_cons.mp h
        rw [memberTexts, putMembers, hm, ih hmembers, serializeMembers]
        simp only [indentLine_flat, CStr.append_empty, Bool.false_eq_true, if_false]
    rw [serializeWith, serialize, membersToWrite, if_neg Bool.false_ne_true, hmembers members ih,
      indentLine_flat, CStr.append_empty]
  | array elems ih =>
    intro depth
    have helems : ∀ elems : List (Json ρ), (∀ e ∈ elems, ∀ depth,
        serializeWith reals ⟨false, false⟩ depth e = serialize reals e) → ∀ first,
        putElems reals ⟨false, false⟩ (depth + 1) first elems =
          serializeElems reals first elems := by
      intro elems
      induction elems with
      | nil => exact fun _ _ => rfl
      | cons value elems ih =>
        intro h first
        obtain ⟨hvalue, helems⟩ := List.forall_mem_cons.mp h
        rw [putElems, hvalue, ih helems, serializeElems, indentLine_flat, CStr.append_empty]
    rw [serializeWith, serialize, helems elems ih, indentLine_flat, ite_self, CStr.append_empty]
  | scalar json hscalar =>
    intro depth
    cases json with
    | object => cases hscalar
    | array => cases hscalar
    | boolean b => cases b <;> rfl
    | null | integer | real | string => rfl

/-! ## What the text spells -/

mutual

/-- No number of the value is a `double`. -/
def Json.exact : Json ρ → Bool
  | .object members => exactMembers members
  | .array elems => exactElems elems
  | .real _ => false
  | .null | .boolean _ | .integer _ | .string _ => true

def exactMembers : List (CStr × Json ρ) → Bool
  | [] => true
  | (_, value) :: members => value.exact && exactMembers members

def exactElems : List (Json ρ) → Bool
  | [] => true
  | value :: elems => value.exact && exactElems elems

end

theorem exactMembers_iff {members : List (CStr × Json ρ)} :
    exactMembers members ↔ ∀ m ∈ members, m.2.exact := by
  induction members with
  | nil => exact iff_of_true rfl (List.forall_mem_nil _)
  | cons m members ih => rw [exactMembers, Bool.and_eq_true, ih, List.forall_mem_cons]

theorem exactElems_iff {elems : List (Json ρ)} : exactElems elems ↔ ∀ e ∈ elems, e.exact := by
  induction elems with
  | nil => exact iff_of_true rfl (List.forall_mem_nil _)
  | cons value elems ih => rw [exactElems, Bool.and_eq_true, ih, List.forall_mem_cons]

namespace JsonParser

variable {reals : Reals ρ} {flags : SerializeFlags} {rest : List UInt8} {more : List (Token ρ)}

/-- No keyword and no number goes on with these bytes. -/
def EndsWord (rest : List UInt8) : Prop :=
  ∀ c, rest.head? = some c → staysIn .number c = false ∧ staysIn .keyword c = false

/-- The text is written for the tokens, wherever a word can end behind it. -/
def Writes (reals : Reals ρ) (text : CStr) (tokens : List (Token ρ)) : Prop :=
  ∀ rest more, EndsWord rest → Spelled reals rest more →
    Spelled reals (text.bytes ++ rest) (tokens ++ more)

theorem endsWord_cons {c : UInt8} (h : c = 0x2c ∨ c = 0x5d ∨ c = 0x7d) (rest : List UInt8) :
    EndsWord (c :: rest) := by
  rintro _ ⟨⟩
  rcases h with rfl | rfl | rfl <;> exact ⟨rfl, rfl⟩

theorem Spelled.punctuation {c : UInt8} {token : Token ρ} (hc : punctuation c = some token)
    (h : Spelled reals rest more) : Spelled reals (c :: rest) (token :: more) :=
  Spelled.token (.punctuation hc) (fun _ _ => rfl) h

/-- White space is nothing to the lexer. -/
theorem Spelled.indent (h : Spelled reals rest more) (flags : SerializeFlags) (depth : Nat) :
    Spelled reals ((indentLine flags depth).bytes ++ rest) more := by
  have hspaces : ∀ n, Spelled reals (List.replicate n 0x20 ++ rest) more := by
    intro n
    induction n with
    | zero => exact h
    | succ n ih => exact .space rfl ih
  rw [indentLine]
  split
  · exact .space rfl (hspaces _)
  · exact h

theorem quoted_flatMap (s : List UInt8) : Quoted (s.flatMap charsEscaping) := by
  induction s with
  | nil => exact .nil
  | cons c s ih =>
    rw [List.flatMap_cons]
    have hentry := escaped c
    generalize charsEscaping c = entry at hentry
    cases hentry with
    | letter e => exact .escape e _ ih
    | code hlt =>
      have hlow : c.toNat < 32 := UInt8.lt_iff_toNat_lt.mp hlt
      exact .escape 0x75 _ (.plain 0x30 _ rfl (.plain 0x30 _ rfl
        (.plain _ _ (staysIn_hexit (by omega)) (.plain _ _ (staysIn_hexit (by omega)) ih))))
    | plain hge hquote hbackslash =>
      refine .plain c _ ?_ ih
      simp only [staysIn, Bool.and_eq_true, bne_iff_ne, Bool.not_eq_true', decide_eq_false_iff_not]
      exact ⟨⟨hbackslash, hquote⟩, UInt8.not_lt.mpr hge⟩

theorem Spelled.string (s : CStr) (h : Spelled reals rest more) :
    Spelled reals ((serializeString s).bytes ++ rest) (.string s :: more) := by
  rw [bytes_serializeString]
  exact Spelled.token (.string (quoted_flatMap s.bytes) (lexString_flatMap s)) (fun _ _ => rfl) h

theorem writes_keyword {first : UInt8} {word : List UInt8} {text : CStr} {token : Token ρ}
    (htext : text.bytes = first :: word) (hfirst : 0x61 ≤ first ∧ first ≤ 0x7a)
    (hword : ∀ c ∈ word, staysIn .keyword c) (h : lexKeyword text = .ok token) :
    Writes reals text [token] := by
  intro rest more hends hrest
  have hlex : lexKeyword (.ofBytes (first :: word)) = .ok token := by
    rw [← htext, CStr.ofBytes_bytes, h]
  rw [htext]
  exact Spelled.token (.word (hlex ▸ .keyword first word hfirst hword)) (fun c hc => (hends c hc).2)
    hrest

/-- The digits of an integer, after its sign. -/
theorem bytes_ofInt_eq_cons (i : Int) : ∃ first digits, (CStr.ofInt i).bytes = first :: digits ∧
    (first = 0x2d ∨ isdigit first) ∧ ∀ c ∈ digits, staysIn .number c := by
  change ∃ first digits, Lib.Decimal.ofInt i = first :: digits ∧ _
  have hall := all_isdigit_ofNat i.natAbs
  rw [Lib.Decimal.ofInt]
  split
  · exact ⟨0x2d, _, rfl, .inl rfl, fun c hc => staysIn_isdigit (hall c hc)⟩
  · obtain ⟨first, digits, hbytes⟩ := List.exists_cons_of_ne_nil (Lib.Decimal.ofNat_ne_nil i.natAbs)
    rw [hbytes] at hall ⊢
    obtain ⟨hfirst, hdigits⟩ := List.forall_mem_cons.mp hall
    exact ⟨first, digits, rfl, .inr hfirst, fun c hc => staysIn_isdigit (hdigits c hc)⟩

theorem writes_integer (i : Int64) : Writes reals (.ofInt i.toInt) [.integer i] := by
  intro rest more hends hrest
  obtain ⟨first, digits, hbytes, hfirst, hdigits⟩ := bytes_ofInt_eq_cons i.toInt
  have hlex : lexNumber reals (.ofBytes (first :: digits)) = .ok (.integer i) := by
    rw [← hbytes, CStr.ofBytes_bytes, lexNumber_ofInt]
  rw [hbytes]
  exact Spelled.token (.word (hlex ▸ .number first digits hfirst hdigits))
    (fun c hc => (hends c hc).1) hrest

/-- What stands before a member or an element. -/
theorem Spelled.separator (h : Spelled reals rest more) (flags : SerializeFlags) (first : Bool)
    (depth : Nat) :
    Spelled reals
      ((if first then CStr.empty else .lit "," ++ indentLine flags depth).bytes ++ rest)
      ((if first then [] else [.valueSeparator]) ++ more) := by
  cases first with
  | true => exact h
  | false => exact .punctuation (c := 0x2c) rfl (h.indent flags depth)

/-- What stands between a name and its value. -/
theorem Spelled.colon (h : Spelled reals rest more) (flags : SerializeFlags) :
    Spelled reals
      ((CStr.lit ":").bytes ++ ((if flags.pretty then CStr.lit " " else .empty).bytes ++ rest))
      (.nameSeparator :: more) := by
  refine .punctuation (c := 0x3a) rfl ?_
  split
  · exact .space rfl h
  · exact h

theorem spelled_putMembers {depth : Nat} (h : Spelled reals rest more) :
    ∀ {members : List (CStr × Json ρ)},
      (∀ m ∈ members, Writes reals (serializeWith reals flags depth m.2) m.2.tokens) →
      ∀ first, EndsWord ((putMembers flags depth false
          (memberTexts reals flags depth members)).bytes ++ 0x7d :: rest) ∧
        Spelled reals ((putMembers flags depth first
            (memberTexts reals flags depth members)).bytes ++ 0x7d :: rest)
          (membersTokens first members ++ .endObject :: more)
  | [], _, _ => ⟨endsWord_cons (.inr (.inr rfl)) rest, .punctuation rfl h⟩
  | (name, value) :: members, hvalues, first => by
    obtain ⟨hvalue, hmembers⟩ := List.forall_mem_cons.mp hvalues
    obtain ⟨hends, hrest⟩ := spelled_putMembers h hmembers false
    have hmember : Spelled reals _ _ :=
      (((hvalue _ _ hends hrest).colon flags).string name).separator flags first depth
    refine ⟨?_, ?_⟩
    · rw [memberTexts, putMembers]
      simp only [CStr.bytes_append, List.append_assoc]
      exact endsWord_cons (.inl rfl) _
    · rw [memberTexts, putMembers, membersTokens]
      simpa only [CStr.bytes_append, List.append_assoc, List.cons_append] using hmember

theorem spelled_putElems {depth : Nat} (h : Spelled reals rest more) :
    ∀ {elems : List (Json ρ)},
      (∀ e ∈ elems, Writes reals (serializeWith reals flags depth e) e.tokens) →
      ∀ first, EndsWord ((putElems reals flags depth false elems).bytes ++ 0x5d :: rest) ∧
        Spelled reals ((putElems reals flags depth first elems).bytes ++ 0x5d :: rest)
          (elemsTokens first elems ++ .endArray :: more)
  | [], _, _ => ⟨endsWord_cons (.inr (.inl rfl)) rest, .punctuation rfl h⟩
  | value :: elems, hvalues, first => by
    obtain ⟨hvalue, helems⟩ := List.forall_mem_cons.mp hvalues
    obtain ⟨hends, hrest⟩ := spelled_putElems h helems false
    have helem : Spelled reals _ _ := (hvalue _ _ hends hrest).separator flags first depth
    refine ⟨?_, ?_⟩
    · rw [putElems]
      simp only [CStr.bytes_append, List.append_assoc]
      exact endsWord_cons (.inl rfl) _
    · rw [putElems, elemsTokens]
      simpa only [CStr.bytes_append, List.append_assoc] using helem

/-- THE TEXT OF A VALUE spells its tokens, whatever white space is in it. -/
theorem writes_serializeWith (hsort : flags.sort = false) (json : Json ρ) : json.exact → ∀ depth,
    Writes reals (serializeWith reals flags depth json) json.tokens := by
  induction json using Json.induct with
  | object members ih =>
    intro hexact depth rest more _ hrest
    have hvalues : ∀ m ∈ members,
        Writes reals (serializeWith reals flags (depth + 1) m.2) m.2.tokens :=
      fun m hm => ih m hm (exactMembers_iff.mp hexact m hm) (depth + 1)
    have hmembers := (spelled_putMembers hrest hvalues true).2
    have hobject : Spelled reals _ _ :=
      .punctuation (c := 0x7b) rfl (hmembers.indent flags (depth + 1))
    rw [serializeWith, membersToWrite, hsort, if_neg Bool.false_ne_true, Json.tokens]
    simp only [CStr.bytes_append, List.append_assoc, List.cons_append, List.nil_append]
    exact hobject
  | array elems ih =>
    intro hexact depth rest more _ hrest
    have hvalues : ∀ e ∈ elems, Writes reals (serializeWith reals flags (depth + 1) e) e.tokens :=
      fun e he => ih e he (exactElems_iff.mp hexact e he) (depth + 1)
    have helems := (spelled_putElems hrest hvalues true).2
    have hindent {bytes : List UInt8} {tokens : List (Token ρ)} (h : Spelled reals bytes tokens) :
        Spelled reals ((if elems.length > 0 then indentLine flags (depth + 1)
          else CStr.empty).bytes ++ bytes) tokens := by
      split
      · exact h.indent flags (depth + 1)
      · exact h
    have harray : Spelled reals _ _ := .punctuation (c := 0x5b) rfl (hindent helems)
    rw [serializeWith, Json.tokens]
    simp only [CStr.bytes_append, List.append_assoc, List.cons_append, List.nil_append]
    exact harray
  | scalar json hscalar =>
    intro hexact depth
    cases json with
    | object => cases hscalar
    | array => cases hscalar
    | real => cases hexact
    | null => exact writes_keyword rfl (by decide) (List.all_eq_true.mp rfl) rfl
    | boolean b =>
      cases b with
      | false => exact writes_keyword rfl (by decide) (List.all_eq_true.mp rfl) rfl
      | true => exact writes_keyword rfl (by decide) (List.all_eq_true.mp rfl) rfl
    | integer i => exact writes_integer i
    | string s => exact fun rest more _ hrest => hrest.string s

end JsonParser

end LogCollector
