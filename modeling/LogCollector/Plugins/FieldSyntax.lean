import LogCollector.Plugins.Fields

/-!
# The syntax of fields round-trips

What `regex_key_fields` stores for a list of specifications is that list, as long as
the parser reads no pointer it has not set. It does so at a field with a function
and no type: `strchr(temp7, '"')` is called there, and `temp7` is set by fields with a
type only (`fields_round_trip_iff`).

A rendered field is an array of pieces, and each part of a round cuts some of them.
Every part has one lemma that says what it leaves of the pieces.
-/

namespace LogCollector

/-! ## Rendering -/

/-- The characters that delimit components. -/
def fieldDelimiters : List Char := ['[', ']', ':', '"']

/-- A text without delimiters. -/
def CStr.Plain (s : CStr) : Prop := ∀ c ∈ fieldDelimiters, byteOf c ∉ s.bytes

instance (s : CStr) : Decidable s.Plain := List.decidableBAll _ fieldDelimiters

theorem bytes_quote : (CStr.lit "\"").bytes = [byteOf '"'] := rfl

theorem bytes_colon : (CStr.lit ":").bytes = [byteOf ':'] := rfl

/-- A field as it may be specified. -/
structure FieldSpec where
  field : Field
  key : field.key.Plain
  findby : field.findby.Plain
  func_name : ∀ s ∈ field.func_name, s.Plain ∧ s ≠ .empty

/-- `integer`. -/
def integerType : CStr := .lit "integer"

/-- `findby` as it is written. -/
def Field.renderFindby (field : Field) : CStr :=
  if field.is_value then .lit "\"" ++ field.findby ++ .lit "\"" else field.findby

/-- The function and the type, as they are written. -/
def Field.renderTail (field : Field) : CStr :=
  match field.func_name, field.is_integer with
  | none, false => .empty
  | some func, false => .lit ":" ++ func
  | none, true => .lit ":" ++ .lit ":" ++ integerType
  | some func, true => .lit ":" ++ func ++ .lit ":" ++ integerType

/-- `[key:findby]`, `[key:findby:func]`, `[key:findby::integer]` or
`[key:findby:func:integer]`. -/
def Field.render (field : Field) : CStr :=
  .lit "[" ++ field.key ++ .lit ":" ++ field.renderFindby ++ field.renderTail ++ .lit "]"

/-- The text of a list of fields. -/
def renderFields (fields : List Field) : CStr :=
  fields.foldr (fun field text => field.render ++ text) .empty

/-- Every field with a function and no type comes after one with a type. -/
def TypeBeforeFunction (fields : List Field) : Prop :=
  ∀ before field after, fields = before ++ field :: after → field.func_name.isSome →
    field.is_integer = false → ∃ earlier ∈ before, earlier.is_integer

/-! ## Pieces and positions -/

section

variable {mem A B C : List UInt8} {p : Nat}

/-- `strchr` finds the delimiter that follows a piece. -/
theorem strchr_of {c : Char} (hmem : mem = A ++ (B ++ byteOf c :: C)) (hp : p = A.length)
    (hc : byteOf c ≠ 0) (hB : 0 ∉ B) (hnot : byteOf c ∉ B) :
    strchr mem p c = some (p + B.length) := by
  subst hmem
  exact Lib.InPlace.find_append hp hc hB hnot

/-- It finds nothing where the string ends first. -/
theorem strchr_eq_none {c : Char} (hmem : mem = A ++ (B ++ 0 :: C)) (hp : p = A.length)
    (hB : 0 ∉ B) (hnot : byteOf c ∉ B) : strchr mem p c = none := by
  subst hmem
  exact Lib.InPlace.find_eq_none hp hB hnot

theorem terminate_of {b : UInt8} (hmem : mem = A ++ b :: C) (hp : p = A.length) :
    terminate mem p = A ++ 0 :: C := by
  subst hmem
  exact Lib.InPlace.cut_append hp

theorem stringAt_of {s : CStr} (hmem : mem = A ++ (s.bytes ++ 0 :: C)) (hp : p = A.length) :
    stringAt mem p = s := by
  subst hmem
  exact CStr.ext (Lib.InPlace.textAt_append hp s.nulFree)

end

/-! ## One round, part by part -/

/-- The key and what is in the brackets after it are cut out. -/
theorem openField_eq (before after : List UInt8) {key body : List UInt8} (hkey : 0 ∉ key)
    (hkey' : byteOf ':' ∉ key) (hbody : 0 ∉ body) (hbody' : byteOf ']' ∉ body) :
    openField (before ++ byteOf '[' :: (key ++ byteOf ':' :: (body ++ byteOf ']' :: after)))
        before.length =
      some (before ++ 0 :: (key ++ 0 :: (body ++ 0 :: after)), before.length + 1,
        before.length + 1 + key.length + 1,
        before.length + 1 + key.length + 1 + body.length + 1) := by
  unfold openField
  rw [terminate_of rfl rfl]
  dsimp only
  rw [strchr_of (A := before ++ [0]) (B := key) (C := body ++ byteOf ']' :: after) (by simp)
    (by simp) (by decide) hkey hkey', Option.bind_some]
  rw [terminate_of (b := byteOf ':') (A := before ++ 0 :: key) (C := body ++ byteOf ']' :: after)
    (by simp) (by simp; omega)]
  rw [strchr_of (A := before ++ 0 :: (key ++ [0])) (B := body) (C := after) (by simp)
    (by simp; omega) (by decide) hbody hbody', Option.map_some]
  rw [terminate_of (b := byteOf ']') (A := before ++ 0 :: (key ++ 0 :: body)) (C := after)
    (by simp) (by simp; omega)]
  simp

/-- A function is stored where its text is not empty. -/
theorem setFunction_eq {mem A C : List UInt8} {p : Nat} {func : CStr} (slot : FieldSlot)
    (hmem : mem = A ++ (func.bytes ++ 0 :: C)) (hp : p = A.length) :
    slot.setFunction mem p =
      if func ≠ .empty then { slot with func_name := some p } else slot := by
  unfold FieldSlot.setFunction
  rw [stringAt_of hmem hp]

section

variable (A C : List UInt8) (temp7 : Option Nat) (slot : FieldSlot) {findby func : CStr}
  (hfindby : byteOf ':' ∉ findby.bytes) (hfunc : byteOf ':' ∉ func.bytes)

include hfindby

/-- Neither a function nor a type. -/
theorem splitFunction_plain :
    splitFunction (A ++ (findby.bytes ++ 0 :: C)) temp7 A.length slot =
      some (A ++ (findby.bytes ++ 0 :: C), temp7, { slot with is_integer := false }) := by
  unfold splitFunction
  rw [strchr_eq_none rfl rfl findby.nulFree hfindby]

include hfunc

/-- A function and no type: `temp7` is read. -/
theorem splitFunction_untyped :
    splitFunction (A ++ (findby.bytes ++ byteOf ':' :: (func.bytes ++ 0 :: C))) temp7 A.length
        slot =
      temp7.map fun temp7 => (A ++ (findby.bytes ++ 0 :: (func.bytes ++ 0 :: C)), some temp7,
        if func ≠ .empty then { slot with func_name := some (A.length + findby.strlen + 1) }
        else slot) := by
  unfold splitFunction
  rw [strchr_of rfl rfl (by decide) findby.nulFree hfindby]
  dsimp only
  have hcut : terminate (A ++ (findby.bytes ++ byteOf ':' :: (func.bytes ++ 0 :: C)))
      (A.length + findby.bytes.length) = A ++ (findby.bytes ++ 0 :: (func.bytes ++ 0 :: C)) := by
    rw [terminate_of (b := byteOf ':') (A := A ++ findby.bytes) (C := func.bytes ++ 0 :: C)
      (by simp) (by simp)]
    simp
  have hrest : A ++ (findby.bytes ++ 0 :: (func.bytes ++ 0 :: C)) =
      (A ++ findby.bytes ++ [0]) ++ (func.bytes ++ 0 :: C) := by
    simp
  have hp : A.length + findby.bytes.length + 1 = (A ++ findby.bytes ++ [0]).length := by
    simp only [List.length_append, List.length_singleton]
  rw [hcut, strchr_eq_none hrest hp func.nulFree hfunc]
  simp only [setFunction_eq slot hrest hp]
  rfl

/-- A type, and a function where `func` is not empty: `temp7` is set. -/
theorem splitFunction_second (type : CStr) :
    splitFunction (A ++ (findby.bytes ++ byteOf ':' :: (func.bytes ++ byteOf ':' ::
        (type.bytes ++ 0 :: C)))) temp7 A.length slot =
      some (A ++ (findby.bytes ++ 0 :: (func.bytes ++ 0 :: (type.bytes ++ 0 :: C))),
        some (A.length + findby.strlen + 1 + func.strlen + 1),
        let typed := if type = integerType then { slot with is_integer := true } else slot
        if func ≠ .empty then
          { typed with func_name := some (A.length + findby.strlen + 1) }
        else typed) := by
  unfold splitFunction
  rw [strchr_of rfl rfl (by decide) findby.nulFree hfindby]
  dsimp only
  have hcut : terminate (A ++ (findby.bytes ++ byteOf ':' :: (func.bytes ++ byteOf ':' ::
      (type.bytes ++ 0 :: C)))) (A.length + findby.bytes.length) =
        (A ++ findby.bytes ++ [0]) ++
          (func.bytes ++ byteOf ':' :: (type.bytes ++ 0 :: C)) := by
    rw [terminate_of (b := byteOf ':') (A := A ++ findby.bytes)
      (C := func.bytes ++ byteOf ':' :: (type.bytes ++ 0 :: C)) (by simp) (by simp)]
    simp
  have hp : A.length + findby.bytes.length + 1 = (A ++ findby.bytes ++ [0]).length := by
    simp only [List.length_append, List.length_singleton]
  rw [hcut, strchr_of rfl hp (by decide) func.nulFree hfunc]
  dsimp only
  have hcut' : terminate ((A ++ findby.bytes ++ [0]) ++ (func.bytes ++ byteOf ':' ::
      (type.bytes ++ 0 :: C))) (A.length + findby.bytes.length + 1 + func.bytes.length) =
        (A ++ findby.bytes ++ [0] ++ func.bytes ++ [0]) ++ (type.bytes ++ 0 :: C) := by
    rw [terminate_of (b := byteOf ':') (A := A ++ findby.bytes ++ [0] ++ func.bytes)
      (C := type.bytes ++ 0 :: C) (by simp) (by simp; omega)]
    simp
  have hp' : A.length + findby.bytes.length + 1 + func.bytes.length + 1 =
      (A ++ findby.bytes ++ [0] ++ func.bytes ++ [0]).length := by
    simp only [List.length_append, List.length_singleton]
  have hrest : (A ++ findby.bytes ++ [0] ++ func.bytes ++ [0]) ++ (type.bytes ++ 0 :: C) =
      (A ++ findby.bytes ++ [0]) ++ (func.bytes ++ 0 :: (type.bytes ++ 0 :: C)) := by
    simp
  have hmem : (A ++ findby.bytes ++ [0]) ++ (func.bytes ++ 0 :: (type.bytes ++ 0 :: C)) =
      A ++ (findby.bytes ++ 0 :: (func.bytes ++ 0 :: (type.bytes ++ 0 :: C))) := by
    simp
  rw [hcut', stringAt_of rfl hp', setFunction_eq _ hrest hp, hrest, hmem]
  rfl

theorem splitFunction_typed :
    splitFunction (A ++ (findby.bytes ++ byteOf ':' :: (func.bytes ++ byteOf ':' ::
        (integerType.bytes ++ 0 :: C)))) temp7 A.length slot =
      some (A ++ (findby.bytes ++ 0 :: (func.bytes ++ 0 :: (integerType.bytes ++ 0 :: C))),
        some (A.length + findby.strlen + 1 + func.strlen + 1),
        if func ≠ .empty then
          { slot with func_name := some (A.length + findby.strlen + 1), is_integer := true }
        else { slot with is_integer := true }) := by
  rw [splitFunction_second A C temp7 slot hfindby hfunc integerType]
  dsimp only
  rw [if_pos rfl]

end

namespace Field

/-- `findby` after its quotes were cut. -/
def cutFindby (field : Field) : List UInt8 :=
  if field.is_value then 0 :: (field.findby.bytes ++ [0]) else field.findby.bytes

/-- The function and the type after their colons were cut. -/
def cutTail (field : Field) : List UInt8 :=
  match field.func_name, field.is_integer with
  | none, false => []
  | some func, false => 0 :: func.bytes
  | none, true => 0 :: 0 :: integerType.bytes
  | some func, true => 0 :: (func.bytes ++ 0 :: integerType.bytes)

/-- A field whose delimiters are all cut. -/
def cut (field : Field) : List UInt8 :=
  0 :: (field.key.bytes ++ 0 :: (field.cutFindby ++ field.cutTail ++ [0]))

/-- The slot of a field that begins at `p`. -/
def slotAt (field : Field) (p : Nat) : FieldSlot :=
  let temp2 := p + 1 + field.key.strlen + 1
  { key := p + 1
    findby := if field.is_value then temp2 + 1 else temp2
    func_name := field.func_name.map fun _ => temp2 + field.renderFindby.strlen + 1
    is_value := field.is_value
    is_integer := field.is_integer }

theorem length_cutFindby (field : Field) :
    field.cutFindby.length = field.renderFindby.strlen := by
  unfold cutFindby renderFindby
  split
  · simp only [CStr.strlen, CStr.bytes_append, List.length_cons, List.length_append,
      List.length_nil]
    have : (CStr.lit "\"").bytes.length = 1 := congrArg List.length bytes_quote
    omega
  · rfl

end Field

namespace FieldSpec

variable (spec : FieldSpec)

/-- No delimiter but the quotes is in what stands for `findby`. -/
theorem notMem_renderFindby {c : Char} (hc : c ∈ fieldDelimiters)
    (hquote : byteOf c ≠ byteOf '"') :
    byteOf c ∉ spec.field.renderFindby.bytes := by
  have hplain := spec.findby c hc
  unfold Field.renderFindby
  split
  · simp only [CStr.bytes_append, bytes_quote, List.mem_append, List.mem_singleton, not_or]
    exact ⟨⟨hquote, hplain⟩, hquote⟩
  · exact hplain

theorem func_plain {s : CStr} (hs : spec.field.func_name = some s) : s.Plain ∧ s ≠ .empty :=
  spec.func_name s hs

/-- The function and the type are split off, where `temp7` is not read before it is
set. -/
theorem splitFunction_eq {A C : List UInt8} {temp7 : Option Nat} (slot : FieldSlot)
    (hfunc : slot.func_name = none) (hinteger : slot.is_integer = false)
    (hset : spec.field.func_name.isSome → spec.field.is_integer = false → temp7.isSome) :
    ∃ temp7', temp7'.isSome = (temp7.isSome || spec.field.is_integer) ∧
      splitFunction
          (A ++ (spec.field.renderFindby.bytes ++ (spec.field.renderTail.bytes ++ 0 :: C)))
          temp7 A.length slot =
        some (A ++ (spec.field.renderFindby.bytes ++ (spec.field.cutTail ++ 0 :: C)), temp7',
          { slot with
            func_name := spec.field.func_name.map fun _ =>
              A.length + spec.field.renderFindby.strlen + 1
            is_integer := spec.field.is_integer }) := by
  have hcolon := spec.notMem_renderFindby (c := ':') (by decide) (by decide)
  generalize spec.field.renderFindby = findby at hcolon
  unfold Field.renderTail Field.cutTail
  obtain ⟨key, findbyPointer, func_name, is_value, is_integer⟩ := slot
  cases hfunc
  cases hinteger
  cases hname : spec.field.func_name with
  | none =>
    cases htype : spec.field.is_integer with
    | false =>
      refine ⟨temp7, (Bool.or_false _).symm, ?_⟩
      simp only [CStr.bytes_empty, List.nil_append]
      exact splitFunction_plain A C temp7 _ hcolon
    | true =>
      have hempty : byteOf ':' ∉ CStr.empty.bytes := List.not_mem_nil
      have htyped := splitFunction_typed A C temp7 ⟨key, findbyPointer, none, is_value, false⟩
        hcolon hempty
      refine ⟨_, ?_, Eq.trans ?_ htyped⟩
      · rw [Bool.or_true]
        rfl
      · simp only [CStr.bytes_append, bytes_colon, List.append_assoc, List.singleton_append]
        rfl
  | some func =>
    obtain ⟨hplain, hne⟩ := spec.func_plain hname
    have hcolon' := hplain ':' (by decide)
    cases htype : spec.field.is_integer with
    | false =>
      obtain ⟨pointer, hpointer⟩ := Option.isSome_iff_exists.mp
        (hset (by rw [hname]; rfl) htype)
      have huntyped := splitFunction_untyped A C (some pointer)
        ⟨key, findbyPointer, none, is_value, false⟩ hcolon hcolon'
      rw [if_pos hne] at huntyped
      refine ⟨some pointer, by rw [hpointer]; rfl, Eq.trans ?_ huntyped⟩
      simp only [CStr.bytes_append, bytes_colon, List.singleton_append, hpointer]
      rfl
    | true =>
      have htyped := splitFunction_typed A C temp7 ⟨key, findbyPointer, none, is_value, false⟩
        hcolon hcolon'
      rw [if_pos hne] at htyped
      refine ⟨some (A.length + findby.strlen + 1 + func.strlen + 1), ?_, ?_⟩
      · rw [Bool.or_true]
        rfl
      · simp only [CStr.bytes_append, bytes_colon, List.append_assoc, List.cons_append,
          List.nil_append]
        exact htyped

/-- Where `temp7` was not set, a field with a function and no type reads it. -/
theorem splitFunction_eq_none {A C : List UInt8} {slot : FieldSlot}
    (hname : spec.field.func_name.isSome) (htype : spec.field.is_integer = false) :
    splitFunction (A ++ (spec.field.renderFindby.bytes ++ (spec.field.renderTail.bytes ++ 0 :: C)))
      none A.length slot = none := by
  obtain ⟨func, hfunc⟩ := Option.isSome_iff_exists.mp hname
  have hcolon := spec.notMem_renderFindby (c := ':') (by decide) (by decide)
  have hcolon' := (spec.func_plain hfunc).1 ':' (by decide)
  unfold Field.renderTail
  rw [hfunc, htype]
  simp only [CStr.bytes_append, bytes_colon, List.cons_append, List.nil_append]
  exact splitFunction_untyped A C none slot hcolon hcolon'

/-- The quotes are cut. What follows `findby` ends the string by then. -/
theorem splitLiteral_eq {A C : List UInt8} {slot : FieldSlot} (hvalue : slot.is_value = false) :
    splitLiteral (A ++ (spec.field.renderFindby.bytes ++ 0 :: C)) A.length slot =
      some (A ++ (spec.field.cutFindby ++ 0 :: C),
        { slot with
          findby := if spec.field.is_value then A.length + 1 else slot.findby
          is_value := spec.field.is_value }) := by
  have hquotes := spec.findby '"' (by decide)
  have hnul := spec.field.findby.nulFree
  obtain ⟨key, findby, func_name, is_value, is_integer⟩ := slot
  cases hvalue
  unfold splitLiteral Field.renderFindby Field.cutFindby
  cases hliteral : spec.field.is_value with
  | false =>
    simp only [Bool.false_eq_true, if_false]
    rw [strchr_eq_none rfl rfl hnul hquotes]
  | true =>
    simp only [if_true, CStr.bytes_append, bytes_quote, List.append_assoc, List.cons_append,
      List.nil_append]
    have hfirst : strchr (A ++ byteOf '"' :: (spec.field.findby.bytes ++ byteOf '"' :: 0 :: C))
        A.length '"' = some A.length :=
      strchr_of (B := []) rfl rfl (by decide) List.not_mem_nil List.not_mem_nil
    rw [hfirst]
    dsimp only
    have hcut : terminate (A ++ byteOf '"' :: (spec.field.findby.bytes ++ byteOf '"' :: 0 :: C))
        A.length = (A ++ [0]) ++ (spec.field.findby.bytes ++ byteOf '"' :: 0 :: C) := by
      rw [terminate_of rfl rfl]
      simp
    have hp : A.length + 1 = (A ++ [(0 : UInt8)]).length := by
      simp only [List.length_append, List.length_singleton]
    rw [hcut, strchr_of rfl hp (by decide) hnul hquotes, Option.map_some,
      terminate_of (b := byteOf '"') (A := A ++ 0 :: spec.field.findby.bytes) (C := 0 :: C)
        (by simp) (by simp; omega)]
    simp

/-- Nothing is left to split. -/
theorem splitAgain_eq {A C : List UInt8} {slot : FieldSlot} :
    splitAgain (A ++ (spec.field.cutFindby ++ 0 :: C)) A.length slot =
      (A ++ (spec.field.cutFindby ++ 0 :: C), slot) := by
  have hnone : strchr (A ++ (spec.field.cutFindby ++ 0 :: C)) A.length ':' = none := by
    unfold Field.cutFindby
    split
    · exact strchr_eq_none (B := []) rfl rfl List.not_mem_nil List.not_mem_nil
    · exact strchr_eq_none rfl rfl spec.field.findby.nulFree (spec.findby ':' (by decide))
  rw [splitAgain, hnone]

/-- What is between the brackets after the key. -/
theorem notMem_body {c : Char} (hc : c ∈ [']', '[']) :
    byteOf c ∉ (spec.field.renderFindby ++ spec.field.renderTail).bytes := by
  have hdelimiter : c ∈ fieldDelimiters ∧ byteOf c ≠ byteOf '"' ∧ byteOf c ≠ byteOf ':' ∧
      byteOf c ∉ integerType.bytes := by
    rcases List.mem_cons.mp hc with rfl | hc
    · decide
    · cases List.mem_singleton.mp hc
      decide
  obtain ⟨hmem, hquote, hcolon, hinteger⟩ := hdelimiter
  have hcolons := bytes_colon
  rw [CStr.bytes_append, List.mem_append, not_or]
  refine ⟨spec.notMem_renderFindby hmem hquote, ?_⟩
  unfold Field.renderTail
  cases hname : spec.field.func_name with
  | none =>
    split <;> simp_all
  | some func =>
    have hfunc := (spec.func_plain hname).1 c hmem
    split <;> simp_all

/-- A rendered field, with its brackets and its first colon taken apart. -/
theorem bytes_render :
    spec.field.render.bytes = byteOf '[' :: (spec.field.key.bytes ++ byteOf ':' ::
      ((spec.field.renderFindby ++ spec.field.renderTail).bytes ++ [byteOf ']'])) := by
  have hopen : (CStr.lit "[").bytes = [byteOf '['] := rfl
  have hclose : (CStr.lit "]").bytes = [byteOf ']'] := rfl
  unfold Field.render
  simp only [CStr.bytes_append, hopen, bytes_colon, hclose, List.append_assoc, List.cons_append,
    List.nil_append]

/-- What is left behind `findby` begins with a terminator. -/
theorem cutTail_append (C : List UInt8) :
    ∃ C', spec.field.cutTail ++ 0 :: C = 0 :: C' := by
  unfold Field.cutTail
  split
  all_goals exact ⟨_, rfl⟩

/-- What `cut` leaves of a field is as long as the field. -/
theorem length_cut : spec.field.cut.length = spec.field.key.strlen +
    (spec.field.renderFindby ++ spec.field.renderTail).strlen + 3 := by
  have htail : spec.field.cutTail.length = spec.field.renderTail.strlen := by
    unfold Field.cutTail Field.renderTail
    split <;> simp [CStr.strlen, bytes_colon]
  have hfindby := spec.field.length_cutFindby
  simp only [Field.cut, CStr.strlen, CStr.bytes_append, List.length_cons, List.length_append,
    List.length_nil] at *
  omega

/-- The brackets of a rendered field are opened. -/
theorem openField_render (before after : List UInt8) :
    openField (before ++ (spec.field.render.bytes ++ after)) before.length =
      some ((before ++ 0 :: (spec.field.key.bytes ++ [0])) ++
          (spec.field.renderFindby.bytes ++ (spec.field.renderTail.bytes ++ 0 :: after)),
        before.length + 1, (before ++ 0 :: (spec.field.key.bytes ++ [0])).length,
        before.length + spec.field.cut.length) := by
  have hopen := openField_eq before after spec.field.key.nulFree
    (spec.key ':' (by decide)) (spec.field.renderFindby ++ spec.field.renderTail).nulFree
    (spec.notMem_body (c := ']') (by decide))
  rw [spec.bytes_render]
  rw [spec.length_cut]
  simp only [List.cons_append, List.append_assoc, List.nil_append] at hopen ⊢
  rw [hopen]
  simp only [CStr.bytes_append, CStr.strlen, List.append_assoc, List.length_append,
    List.length_cons, List.length_nil, Option.some.injEq, Prod.mk.injEq, true_and]
  omega

/-- ONE ROUND cuts one field, where `temp7` is not read before it is set. -/
theorem fieldStep_eq (before after : List UInt8) {temp7 : Option Nat}
    (hset : spec.field.func_name.isSome → spec.field.is_integer = false → temp7.isSome) :
    ∃ temp7', temp7'.isSome = (temp7.isSome || spec.field.is_integer) ∧
      fieldStep (before ++ (spec.field.render.bytes ++ after)) temp7 before.length =
        some (before ++ (spec.field.cut ++ after), temp7', spec.field.slotAt before.length,
          before.length + spec.field.cut.length) := by
  obtain ⟨temp7', hset', hsplit⟩ := spec.splitFunction_eq
    (A := before ++ 0 :: (spec.field.key.bytes ++ [0])) (C := after)
    (.start (before.length + 1) (before ++ 0 :: (spec.field.key.bytes ++ [0])).length)
    rfl rfl hset
  obtain ⟨C, hC⟩ := spec.cutTail_append after
  refine ⟨temp7', hset', ?_⟩
  unfold fieldStep
  rw [spec.openField_render, Option.bind_some]
  dsimp only
  rw [hsplit, Option.bind_some]
  dsimp only
  rw [hC, spec.splitLiteral_eq rfl, Option.map_some]
  dsimp only
  rw [spec.splitAgain_eq, ← hC]
  have hmem : before ++ 0 :: (spec.field.key.bytes ++ [0]) ++
      (spec.field.cutFindby ++ (spec.field.cutTail ++ 0 :: after)) =
        before ++ (spec.field.cut ++ after) := by
    simp [Field.cut]
  have hlength : (before ++ 0 :: (spec.field.key.bytes ++ [0])).length =
      before.length + 1 + spec.field.key.strlen + 1 := by
    simp only [CStr.strlen, List.length_append, List.length_cons, List.length_nil]
    omega
  rw [hmem, hlength]
  rfl

/-- A round ends at a field with a function and no type, where `temp7` was not set. -/
theorem fieldStep_eq_none {before after : List UInt8} (hname : spec.field.func_name.isSome)
    (htype : spec.field.is_integer = false) :
    fieldStep (before ++ (spec.field.render.bytes ++ after)) none before.length = none := by
  unfold fieldStep
  rw [spec.openField_render, Option.bind_some]
  dsimp only
  rw [spec.splitFunction_eq_none hname htype]
  rfl

/-! The three strings of a slot, in what the round leaves of the field. -/

theorem stringAt_key (before rest : List UInt8) :
    stringAt (before ++ (spec.field.cut ++ rest)) (before.length + 1) = spec.field.key := by
  refine stringAt_of (A := before ++ [0])
    (C := spec.field.cutFindby ++ (spec.field.cutTail ++ 0 :: rest)) ?_ (by simp)
  simp [Field.cut]

theorem stringAt_findby (before rest : List UInt8) :
    stringAt (before ++ (spec.field.cut ++ rest)) (spec.field.slotAt before.length).findby =
      spec.field.findby := by
  obtain ⟨C, hC⟩ := spec.cutTail_append rest
  have hmem : before ++ (spec.field.cut ++ rest) =
      before ++ 0 :: (spec.field.key.bytes ++ [0]) ++ (spec.field.cutFindby ++ 0 :: C) := by
    rw [← hC]
    simp [Field.cut]
  rw [hmem]
  unfold Field.slotAt Field.cutFindby
  cases hvalue : spec.field.is_value with
  | false =>
    apply stringAt_of (A := before ++ 0 :: (spec.field.key.bytes ++ [0])) (C := C) rfl
    simp [CStr.strlen]
    omega
  | true =>
    refine stringAt_of (A := before ++ 0 :: (spec.field.key.bytes ++ [0, 0])) (C := 0 :: C)
      (by simp) ?_
    simp [CStr.strlen]
    omega

theorem stringAt_func_name (before rest : List UInt8) :
    (spec.field.slotAt before.length).func_name.map
      (stringAt (before ++ (spec.field.cut ++ rest))) = spec.field.func_name := by
  unfold Field.slotAt
  cases hname : spec.field.func_name with
  | none => rfl
  | some func =>
    dsimp only
    rw [Option.map_some, Option.map_some, ← spec.field.length_cutFindby]
    have hread : ∃ C, before ++ (spec.field.cut ++ rest) =
        before ++ 0 :: (spec.field.key.bytes ++ 0 :: (spec.field.cutFindby ++ [0])) ++
          (func.bytes ++ 0 :: C) := by
      unfold Field.cut Field.cutTail
      rw [hname]
      cases spec.field.is_integer
      · exact ⟨rest, by simp⟩
      · exact ⟨integerType.bytes ++ 0 :: rest, by simp⟩
    obtain ⟨C, hread⟩ := hread
    refine congrArg some (stringAt_of hread ?_)
    simp [CStr.strlen]
    omega

/-- THE SLOT READS BACK as the field, whatever is cut behind it. -/
theorem read_slotAt (before rest : List UInt8) :
    (spec.field.slotAt before.length).read (before ++ (spec.field.cut ++ rest)) = spec.field := by
  unfold FieldSlot.read
  rw [spec.stringAt_findby, spec.stringAt_func_name]
  show (⟨stringAt _ (before.length + 1), _, _, _, _⟩ : Field) = _
  rw [spec.stringAt_key]
  rfl

end FieldSpec

/-! ## The loop -/

/-- `temp7` is set wherever it is read, where `set` says whether it is at first. -/
def SetWhereRead : Bool → List Field → Prop
  | _, [] => True
  | set, field :: fields =>
    (field.func_name.isSome → field.is_integer = false → set = true) ∧
      SetWhereRead (set || field.is_integer) fields

/-- The slots of fields that follow each other from `p` on. -/
def slotsAt (p : Nat) : List Field → List FieldSlot
  | [] => []
  | field :: fields => field.slotAt p :: slotsAt (p + field.cut.length) fields

/-- What the loop leaves of the text. -/
def cutFields (fields : List Field) : List UInt8 := fields.flatMap Field.cut

/-- The fields of specifications. -/
def specFields (specs : List FieldSpec) : List Field := specs.map FieldSpec.field

@[simp]
theorem bytes_renderFields_cons (field : Field) (fields : List Field) :
    (renderFields (field :: fields)).bytes = field.render.bytes ++ (renderFields fields).bytes :=
  rfl

/-- The bracket that begins the next field is found where the last field ends. -/
theorem strchr_renderFields (before : List UInt8) (spec : FieldSpec) (fields : List Field) :
    strchr (before ++ ((renderFields (spec.field :: fields)).bytes ++ [0])) before.length '[' =
      some before.length := by
  rw [bytes_renderFields_cons, spec.bytes_render]
  exact strchr_of (B := []) rfl rfl (by decide) List.not_mem_nil List.not_mem_nil

/-- Behind the last field there is none. -/
theorem strchr_renderFields_nil (before : List UInt8) :
    strchr (before ++ ((renderFields []).bytes ++ [0])) before.length '[' = none :=
  strchr_eq_none (B := []) rfl rfl List.not_mem_nil List.not_mem_nil

/-- THE LOOP cuts the fields one by one, where `temp7` is set wherever it is read. -/
theorem fieldsLoop_eq (specs : List FieldSpec) :
    ∀ (room : Nat) (before : List UInt8) (temp7 : Option Nat), specs.length ≤ room →
      SetWhereRead temp7.isSome (specFields specs) →
      fieldsLoop room (before ++ ((renderFields (specFields specs)).bytes ++ [0])) temp7
          (strchr (before ++ ((renderFields (specFields specs)).bytes ++ [0])) before.length '[') =
        some (before ++ (cutFields (specFields specs) ++ [0]),
          slotsAt before.length (specFields specs)) := by
  induction specs with
  | nil =>
    intro room before temp7 _ _
    unfold specFields
    rw [List.map_nil, strchr_renderFields_nil]
    simp only [fieldsLoop]
    rfl
  | cons spec specs ih =>
    intro room before temp7 hroom hset
    obtain ⟨hnow, hlater⟩ := hset
    obtain ⟨temp7', hset', hstep⟩ := spec.fieldStep_eq before
      ((renderFields (specFields specs)).bytes ++ [0]) hnow
    obtain ⟨room, rfl⟩ : ∃ k, room = k + 1 := Nat.exists_eq_add_one.mpr
      (Nat.lt_of_lt_of_le (Nat.succ_pos _) hroom)
    have hrest := ih room (before ++ spec.field.cut) temp7' (Nat.le_of_succ_le_succ hroom)
      (by rw [hset']; exact hlater)
    unfold specFields at *
    rw [List.map_cons, strchr_renderFields, bytes_renderFields_cons, List.append_assoc]
    simp only [fieldsLoop]
    rw [hstep, Option.bind_some]
    dsimp only
    rw [List.append_assoc, List.length_append] at hrest
    rw [hrest, Option.map_some]
    simp [cutFields, slotsAt]

/-- Where `temp7` is read before it is set, the loop does not end. -/
theorem fieldsLoop_eq_none (specs : List FieldSpec) :
    ∀ (room : Nat) (before : List UInt8) (temp7 : Option Nat),
      ¬ SetWhereRead temp7.isSome (specFields specs) →
      fieldsLoop room (before ++ ((renderFields (specFields specs)).bytes ++ [0])) temp7
          (strchr (before ++ ((renderFields (specFields specs)).bytes ++ [0])) before.length '[') =
        none := by
  induction specs with
  | nil =>
    intro room before temp7 hset
    exact absurd trivial hset
  | cons spec specs ih =>
    intro room before temp7 hset
    unfold specFields at *
    rw [List.map_cons, strchr_renderFields, bytes_renderFields_cons, List.append_assoc]
    cases room with
    | zero => rfl
    | succ room =>
      simp only [fieldsLoop]
      by_cases hnow : spec.field.func_name.isSome → spec.field.is_integer = false → temp7.isSome
      · obtain ⟨temp7', hset', hstep⟩ := spec.fieldStep_eq before
          ((renderFields (specs.map FieldSpec.field)).bytes ++ [0]) hnow
        have hrest := ih room (before ++ spec.field.cut) temp7'
          (fun hlater => hset ⟨hnow, by rw [← hset']; exact hlater⟩)
        rw [hstep, Option.bind_some]
        dsimp only
        rw [List.append_assoc, List.length_append] at hrest
        rw [hrest]
        rfl
      · simp only [Classical.not_imp] at hnow
        obtain ⟨hname, htype, hunset⟩ := hnow
        obtain rfl : temp7 = none := by simpa using hunset
        rw [spec.fieldStep_eq_none hname htype]
        rfl

/-- The slots read back as the fields. -/
theorem read_slotsAt (specs : List FieldSpec) :
    ∀ before : List UInt8,
      (slotsAt before.length (specFields specs)).map
          (·.read (before ++ (cutFields (specFields specs) ++ [0]))) = specFields specs := by
  induction specs with
  | nil => intro before; rfl
  | cons spec specs ih =>
    intro before
    have hrest := ih (before ++ spec.field.cut)
    have hread := spec.read_slotAt before (cutFields (specFields specs) ++ [0])
    unfold specFields at *
    rw [List.append_assoc, List.length_append] at hrest
    simp only [List.map_cons, slotsAt, cutFields, List.flatMap_cons, List.append_assoc,
      List.cons.injEq]
    exact ⟨hread, hrest⟩

/-! ## The condition -/

/-- Set at first, or by a field that comes earlier. -/
theorem setWhereRead_iff (fields : List Field) (set : Bool) :
    SetWhereRead set fields ↔ ∀ before field after, fields = before ++ field :: after →
      field.func_name.isSome → field.is_integer = false →
      set = true ∨ ∃ earlier ∈ before, earlier.is_integer := by
  induction fields generalizing set with
  | nil =>
    apply iff_of_true trivial
    intro before field after h
    simp at h
  | cons head fields ih =>
    unfold SetWhereRead
    rw [ih]
    constructor
    · rintro ⟨hhead, hfields⟩ before field after hsplit hname htype
      cases before with
      | nil =>
        obtain ⟨rfl, rfl⟩ := List.cons.inj hsplit
        exact .inl (hhead hname htype)
      | cons first before =>
        obtain ⟨rfl, htail⟩ := List.cons.inj (hsplit.trans (List.cons_append ..))
        rcases hfields before field after htail hname htype with hset | ⟨earlier, hmem, hinteger⟩
        · rcases Bool.or_eq_true_iff.mp hset with hset | hset
          · exact .inl hset
          · exact .inr ⟨head, List.mem_cons_self, hset⟩
        · exact .inr ⟨earlier, List.mem_cons_of_mem _ hmem, hinteger⟩
    · intro h
      constructor
      · intro hname htype
        rcases h [] head fields rfl hname htype with hset | ⟨earlier, hmem, _⟩
        · exact hset
        · exact absurd hmem List.not_mem_nil
      · intro before field after hsplit hname htype
        rcases h (head :: before) field after (by rw [hsplit]; rfl) hname htype with
          hset | ⟨earlier, hmem, hinteger⟩
        · exact .inl (by rw [hset]; rfl)
        · rcases List.mem_cons.mp hmem with rfl | hmem
          · exact .inl (by rw [hinteger, Bool.or_true])
          · exact .inr ⟨earlier, hmem, hinteger⟩

theorem typeBeforeFunction_iff (fields : List Field) :
    TypeBeforeFunction fields ↔ SetWhereRead false fields := by
  rw [setWhereRead_iff]
  simp only [Bool.false_eq_true, false_or]
  rfl

/-- Only no field at all is rendered as no text. -/
theorem renderFields_ne_empty (spec : FieldSpec) (fields : List Field) :
    renderFields (spec.field :: fields) ≠ .empty := by
  intro h
  have hbytes := congrArg CStr.bytes h
  rw [bytes_renderFields_cons, spec.bytes_render] at hbytes
  exact absurd hbytes (List.cons_ne_nil _ _)

/-- THE FIELDS ROUND-TRIP, and no pointer is read that was not set, if and only if
every field with a function and no type comes after one with a type. -/
theorem fields_round_trip_iff (specs : List FieldSpec) (hlen : specs.length ≤ MAX_REGEX_FIELDS) :
    (regexKeyFields (renderFields (specFields specs))).map Prod.snd = some (specFields specs) ↔
      TypeBeforeFunction (specFields specs) := by
  rw [typeBeforeFunction_iff]
  cases specs with
  | nil => exact iff_of_true rfl trivial
  | cons spec specs =>
    have hne : renderFields (specFields (spec :: specs)) ≠ .empty := renderFields_ne_empty spec _
    unfold regexKeyFields
    rw [if_neg hne]
    dsimp only
    constructor
    · intro hread
      by_contra hset
      have hloop := fieldsLoop_eq_none (spec :: specs) MAX_REGEX_FIELDS [] none hset
      simp only [List.nil_append, List.length_nil] at hloop
      rw [hloop] at hread
      exact absurd hread (Option.some_ne_none _).symm
    · intro hset
      have hloop := fieldsLoop_eq (spec :: specs) MAX_REGEX_FIELDS [] none hlen hset
      have hread := read_slotsAt (spec :: specs) []
      simp only [List.nil_append, List.length_nil] at hloop hread
      rw [hloop, Option.map_some, Option.map_some, hread]

/-- `[plugin_sid:msgid::integer]`. -/
def pluginSidSpec : FieldSpec where
  field :=
    { key := .lit "plugin_sid", findby := .lit "msgid", func_name := none, is_value := false
      is_integer := true }
  key := by decide
  findby := by decide
  func_name := by decide +kernel

/-- `[date:date:normalize_date_fortigate]`. -/
def dateSpec : FieldSpec where
  field :=
    { key := .lit "date", findby := .lit "date", func_name := some (.lit "normalize_date_fortigate")
      is_value := false, is_integer := false }
  key := by decide
  findby := by decide
  func_name := by decide +kernel

theorem fields_round_trip_fortigate :
    [pluginSidSpec, dateSpec].length ≤ MAX_REGEX_FIELDS ∧
      ((regexKeyFields (renderFields (specFields [pluginSidSpec, dateSpec]))).map Prod.snd =
          some (specFields [pluginSidSpec, dateSpec]) ↔
        TypeBeforeFunction (specFields [pluginSidSpec, dateSpec])) ∧
      TypeBeforeFunction (specFields [pluginSidSpec, dateSpec]) := by
  refine ⟨by decide, fields_round_trip_iff [pluginSidSpec, dateSpec] (by decide), ?_⟩
  rw [typeBeforeFunction_iff]
  refine ⟨?_, fun _ _ => rfl, trivial⟩
  intro hname
  exact absurd hname (by decide)

/-- The first field of `fortigate3.plugin` with a function has no type, and none
before it has: `temp7` is read before it is set. -/
theorem untyped_function_misread :
    [dateSpec].length ≤ MAX_REGEX_FIELDS ∧
      renderFields (specFields [dateSpec]) = .lit "[date:date:normalize_date_fortigate]" ∧
      regexKeyFields (renderFields (specFields [dateSpec])) = none := by
  decide +kernel

end LogCollector
