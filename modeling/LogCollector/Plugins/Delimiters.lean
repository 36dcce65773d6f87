import LogCollector.Plugins.FieldSyntax
import LogCollector.Plugins.Slots

/-!
# What the loops over brackets find

`plugin_key_core_id` and `regex_key_fields` walk over a value that they cut as they go.
What they find can be said of the text as it was before the first cut: `bracketed` splits
it into the texts in brackets, and `specBodies` into what follows the first `:` of each
specification. Neither loop looks whether a delimiter it searches is there. A loop ends
where the text splits, and for fields where each part can be read (`readCoreIds_eq`,
`fieldsLoop_eq_bodies`).
-/

namespace LogCollector

/-- The texts in brackets; `none` where a bracket is not closed. A bracket in brackets is
part of the text. -/
def bracketed : Option (List UInt8) → List UInt8 → Option (List (List UInt8))
  | none, [] => some []
  | some _, [] => none
  | none, c :: text => bracketed (if c = byteOf '[' then some [] else none) text
  | some inner, c :: text =>
    if c = byteOf ']' then (bracketed none text).map (inner :: ·)
    else bracketed (some (inner ++ [c])) text

/-- Where a scan of a `fields` value stands. -/
inductive SpecScan
  | outside
  | inKey
  | inBody (body : List UInt8)

/-- What follows the first `:` of each specification, up to the next `]`; `none` where one
of them is missing. -/
def specBodies : SpecScan → List UInt8 → Option (List (List UInt8))
  | .outside, [] => some []
  | .inKey, [] => none
  | .inBody _, [] => none
  | .outside, c :: text => specBodies (if c = byteOf '[' then .inKey else .outside) text
  | .inKey, c :: text => specBodies (if c = byteOf ':' then .inBody [] else .inKey) text
  | .inBody body, c :: text =>
    if c = byteOf ']' then (specBodies .outside text).map (body :: ·)
    else specBodies (.inBody (body ++ [c])) text

/-- A body can be read: with one `:` it needs `temp7` to be set, and in front of its first
`:` there is not one `"` alone. -/
def bodyReadable (set : Bool) (body : List UInt8) : Bool :=
  (body.count (byteOf ':') ≠ 1 || set) &&
    (body.takeWhile (· ≠ byteOf ':')).count (byteOf '"') ≠ 1

/-- All bodies can be read. A body with two `:` sets `temp7`. -/
def bodiesReadable : Bool → List (List UInt8) → Bool
  | _, [] => true
  | set, body :: bodies =>
    bodyReadable set body && bodiesReadable (set || 2 ≤ body.count (byteOf ':')) bodies

/-! ## Brackets -/

section

variable {before after inner text : List UInt8}

theorem bracketed_outside (h : byteOf '[' ∉ before) :
    bracketed none (before ++ after) = bracketed none after := by
  induction before with
  | nil => rfl
  | cons c before ih =>
    obtain ⟨hne, hrest⟩ := List.ne_and_not_mem_of_not_mem_cons h
    rw [List.cons_append, bracketed, if_neg (Ne.symm hne)]
    exact ih hrest

theorem bracketed_open : bracketed none (byteOf '[' :: after) = bracketed (some []) after := by
  rw [bracketed, if_pos rfl]

theorem bracketed_closed (h : byteOf ']' ∉ text) :
    bracketed (some inner) (text ++ byteOf ']' :: after) =
      (bracketed none after).map ((inner ++ text) :: ·) := by
  induction text generalizing inner with
  | nil => rw [List.nil_append, bracketed, if_pos rfl, List.append_nil]
  | cons c text ih =>
    obtain ⟨hne, hrest⟩ := List.ne_and_not_mem_of_not_mem_cons h
    rw [List.cons_append, bracketed, if_neg (Ne.symm hne), ih hrest, List.append_assoc]
    rfl

theorem bracketed_unclosed (h : byteOf ']' ∉ text) : bracketed (some inner) text = none := by
  induction text generalizing inner with
  | nil => rfl
  | cons c text ih =>
    obtain ⟨hne, hrest⟩ := List.ne_and_not_mem_of_not_mem_cons h
    rw [bracketed, if_neg (Ne.symm hne), ih hrest]

end

section

variable {inner text : List UInt8}

/-- A round cuts a text in brackets out and goes on behind it. -/
theorem coreIdsLoop_closed (room : Nat) (before after : List UInt8) (hnul : 0 ∉ inner)
    (hinner : byteOf ']' ∉ inner) :
    ∃ cut : List UInt8,
      coreIdsLoop (room + 1) (before ++ byteOf '[' :: (inner ++ byteOf ']' :: after))
          (some before.length) =
        (coreIdsLoop room (cut ++ after) (strchr (cut ++ after) cut.length '[')).map
          ((parseDecimal (.ofBytes inner)).toInt32 :: ·) := by
  refine ⟨before ++ 0 :: (inner ++ [0]), ?_⟩
  have hp : before.length + 1 = (before ++ [0]).length := by
    rw [List.length_append, List.length_singleton]
  rw [coreIdsLoop, terminate_of rfl rfl]
  dsimp only
  rw [strchr_of (A := before ++ [0]) (B := inner) (C := after) (by simp) hp (by decide) hnul
    hinner, Option.bind_some]
  rw [terminate_of (b := byteOf ']') (A := before ++ 0 :: inner) (C := after) (by simp)
    (by simp; omega)]
  have hread : stringAt (before ++ 0 :: inner ++ 0 :: after) (before.length + 1) =
      .ofBytes inner := by
    refine stringAt_of (C := after) ?_ hp
    rw [CStr.bytes_ofBytes hnul]
    simp
  have hmem : before ++ 0 :: inner ++ 0 :: after = before ++ 0 :: (inner ++ [0]) ++ after := by
    simp
  have hlength : before.length + 1 + inner.length + 1 =
      (before ++ 0 :: (inner ++ [0])).length := by
    simp only [List.length_append, List.length_cons, List.length_nil]
    omega
  rw [hread, hmem, hlength]

/-- A round needs the `]`. -/
theorem coreIdsLoop_unclosed (room : Nat) (before : List UInt8) (hnul : 0 ∉ text)
    (htext : byteOf ']' ∉ text) :
    coreIdsLoop (room + 1) (before ++ byteOf '[' :: (text ++ [0])) (some before.length) = none := by
  rw [coreIdsLoop, terminate_of rfl rfl]
  dsimp only
  rw [strchr_eq_none (A := before ++ [0]) (B := text) (C := []) (by simp) (by simp) hnul htext]
  rfl

/-- The bracket behind a text is found, and what comes before it is done with. -/
theorem strchr_open (before rest : List UInt8) (hnul : 0 ∉ text) (htext : byteOf '[' ∉ text) :
    strchr (before ++ (text ++ byteOf '[' :: rest)) before.length '[' =
      some (before ++ text).length := by
  rw [strchr_of rfl rfl (by decide) hnul htext, List.length_append]

end

/-- THE NUMBERS OF A VALUE are read off its texts in brackets. -/
theorem coreIdsLoop_eq_bracketed (room : Nat) : ∀ (text before : List UInt8),
    text.length ≤ room → 0 ∉ text →
      coreIdsLoop room (before ++ (text ++ [0]))
          (strchr (before ++ (text ++ [0])) before.length '[') =
        (bracketed none text).map
          (List.map fun inner => (parseDecimal (.ofBytes inner)).toInt32) := by
  induction room with
  | zero =>
    intro text before hroom hnul
    obtain rfl := List.eq_nil_of_length_eq_zero (Nat.le_zero.mp hroom)
    rw [strchr_eq_none rfl rfl hnul List.not_mem_nil]
    rfl
  | succ room ih =>
    intro text before hroom hnul
    rcases Lib.InPlace.split_or_absent (byteOf '[') text with habsent | ⟨pre, rest, hpre, rfl⟩
    · have hnone : bracketed none (text ++ []) = bracketed none [] := bracketed_outside habsent
      rw [List.append_nil] at hnone
      rw [strchr_eq_none rfl rfl hnul habsent, hnone]
      rfl
    · obtain ⟨hnulPre, hnulRest⟩ := Lib.InPlace.notMem_of_split hnul
      rw [bracketed_outside hpre, bracketed_open, List.append_assoc pre, List.cons_append,
        strchr_open before (rest ++ [0]) hnulPre hpre, ← List.append_assoc]
      rcases Lib.InPlace.split_or_absent (byteOf ']') rest with
        habsent | ⟨inner, after, hinner, rfl⟩
      · rw [coreIdsLoop_unclosed room _ hnulRest habsent, bracketed_unclosed habsent]
        rfl
      · obtain ⟨hnulInner, hnulAfter⟩ := Lib.InPlace.notMem_of_split hnulRest
        have hlen : after.length ≤ room := by
          simp only [List.length_append, List.length_cons] at hroom
          omega
        obtain ⟨cut, hround⟩ := coreIdsLoop_closed room (before ++ pre) (after ++ [0]) hnulInner
          hinner
        rw [List.append_assoc inner, List.cons_append, hround, ih after cut hlen hnulAfter,
          bracketed_closed hinner]
        cases bracketed none after with
        | none => rfl
        | some inners => rfl

/-! ## Specifications -/

section

variable {before after body text : List UInt8}

theorem specBodies_outside (h : byteOf '[' ∉ before) :
    specBodies .outside (before ++ after) = specBodies .outside after := by
  induction before with
  | nil => rfl
  | cons c before ih =>
    obtain ⟨hne, hrest⟩ := List.ne_and_not_mem_of_not_mem_cons h
    rw [List.cons_append, specBodies, if_neg (Ne.symm hne)]
    exact ih hrest

theorem specBodies_open : specBodies .outside (byteOf '[' :: after) = specBodies .inKey after := by
  rw [specBodies, if_pos rfl]

theorem specBodies_key (h : byteOf ':' ∉ before) :
    specBodies .inKey (before ++ byteOf ':' :: after) = specBodies (.inBody []) after := by
  induction before with
  | nil => rw [List.nil_append, specBodies, if_pos rfl]
  | cons c before ih =>
    obtain ⟨hne, hrest⟩ := List.ne_and_not_mem_of_not_mem_cons h
    rw [List.cons_append, specBodies, if_neg (Ne.symm hne)]
    exact ih hrest

theorem specBodies_no_colon (h : byteOf ':' ∉ text) : specBodies .inKey text = none := by
  induction text with
  | nil => rfl
  | cons c text ih =>
    obtain ⟨hne, hrest⟩ := List.ne_and_not_mem_of_not_mem_cons h
    rw [specBodies, if_neg (Ne.symm hne)]
    exact ih hrest

theorem specBodies_closed (h : byteOf ']' ∉ text) :
    specBodies (.inBody body) (text ++ byteOf ']' :: after) =
      (specBodies .outside after).map ((body ++ text) :: ·) := by
  induction text generalizing body with
  | nil => rw [List.nil_append, specBodies, if_pos rfl, List.append_nil]
  | cons c text ih =>
    obtain ⟨hne, hrest⟩ := List.ne_and_not_mem_of_not_mem_cons h
    rw [List.cons_append, specBodies, if_neg (Ne.symm hne), ih hrest, List.append_assoc]
    rfl

theorem specBodies_unclosed (h : byteOf ']' ∉ text) : specBodies (.inBody body) text = none := by
  induction text generalizing body with
  | nil => rfl
  | cons c text ih =>
    obtain ⟨hne, hrest⟩ := List.ne_and_not_mem_of_not_mem_cons h
    rw [specBodies, if_neg (Ne.symm hne), ih hrest]

end

/-! ## One specification -/

section

variable {mem A C findby body : List UInt8} {temp7 : Option Nat} {slot : FieldSlot}

/-- A body with its parts cut apart: the text in front of its first `:`, then what fills
the body. -/
def CutTo (A : List UInt8) (findby : List UInt8) (length : Nat) (C mem : List UInt8) : Prop :=
  ∃ D : List UInt8, mem = A ++ (findby ++ 0 :: (D ++ C)) ∧ findby.length + D.length = length

/-- The parts behind the first `:` are split off, unless `temp7` is read before it is
set. -/
theorem splitFunction_body (A C : List UInt8) (temp7 : Option Nat) (slot : FieldSlot)
    (hbody : 0 ∉ body) :
    if body.count (byteOf ':') ≠ 1 ∨ temp7.isSome then
      ∃ mem temp7' slot', splitFunction (A ++ (body ++ 0 :: C)) temp7 A.length slot =
          some (mem, temp7', slot') ∧
        temp7'.isSome = (temp7.isSome || decide (2 ≤ body.count (byteOf ':'))) ∧
          CutTo A (body.takeWhile (· ≠ byteOf ':')) body.length C mem
    else splitFunction (A ++ (body ++ 0 :: C)) temp7 A.length slot = none := by
  rcases Lib.InPlace.split_or_absent (byteOf ':') body with habsent | ⟨findby, rest, hfindby, rfl⟩
  · have hcount : body.count (byteOf ':') = 0 := List.count_eq_zero.mpr habsent
    rw [if_pos (.inl (by omega)), Lib.InPlace.takeWhile_absent habsent]
    have hplain : byteOf ':' ∉ (CStr.mk body hbody).bytes := habsent
    refine ⟨_, temp7, _, splitFunction_plain A C temp7 slot hplain, ?_, [], rfl, Nat.add_zero _⟩
    rw [hcount]
    exact (Bool.or_false _).symm
  · obtain ⟨hnulFindby, hnulRest⟩ := Lib.InPlace.notMem_of_split hbody
    have hplain : byteOf ':' ∉ (CStr.mk findby hnulFindby).bytes := hfindby
    rw [Lib.InPlace.takeWhile_split hfindby]
    rcases Lib.InPlace.split_or_absent (byteOf ':') rest with habsent | ⟨func, type, hfunc, rfl⟩
    · have hcount : (findby ++ byteOf ':' :: rest).count (byteOf ':') = 1 := by
        rw [List.count_append, List.count_cons_self, List.count_eq_zero.mpr hfindby,
          List.count_eq_zero.mpr habsent]
      have hfunc : byteOf ':' ∉ (CStr.mk rest hnulRest).bytes := habsent
      have huntyped := splitFunction_untyped A C temp7 slot hplain hfunc
      have hmem : A ++ (findby ++ byteOf ':' :: rest ++ 0 :: C) =
          A ++ (findby ++ byteOf ':' :: (rest ++ 0 :: C)) := by
        simp
      rw [hcount, hmem]
      cases temp7 with
      | none =>
        rw [if_neg (by simp)]
        exact huntyped
      | some pointer =>
        rw [if_pos (.inr rfl)]
        refine ⟨_, _, _, huntyped, rfl, rest ++ [0], ?_, ?_⟩
        · simp
        · simp
    · obtain ⟨hnulFunc, hnulType⟩ := Lib.InPlace.notMem_of_split hnulRest
      have hcount : 2 ≤ (findby ++ byteOf ':' :: (func ++ byteOf ':' :: type)).count
          (byteOf ':') := by
        rw [List.count_append, List.count_cons_self, List.count_append, List.count_cons_self]
        omega
      have hmem : A ++ (findby ++ byteOf ':' :: (func ++ byteOf ':' :: type) ++ 0 :: C) =
          A ++ (findby ++ byteOf ':' :: (func ++ byteOf ':' :: (type ++ 0 :: C))) := by
        simp
      rw [if_pos (.inl (by omega)), hmem]
      have hfunc' : byteOf ':' ∉ (CStr.mk func hnulFunc).bytes := hfunc
      refine ⟨_, _, _, splitFunction_second A C temp7 slot hplain hfunc' ⟨type, hnulType⟩, ?_,
        func ++ 0 :: (type ++ [0]), ?_, ?_⟩
      · rw [decide_eq_true hcount]
        exact (Bool.or_true _).symm
      · simp
      · simp only [List.length_append, List.length_cons, List.length_nil]
        omega

/-- The quotes are cut, unless there is one alone. -/
theorem splitLiteral_findby (A C : List UInt8) (slot : FieldSlot) (hfindby : 0 ∉ findby) :
    if findby.count (byteOf '"') ≠ 1 then
      ∃ mem slot', splitLiteral (A ++ (findby ++ 0 :: C)) A.length slot = some (mem, slot') ∧
        ∃ text, text <+: findby ∧ CutTo A text findby.length C mem
    else splitLiteral (A ++ (findby ++ 0 :: C)) A.length slot = none := by
  unfold splitLiteral
  rcases Lib.InPlace.split_or_absent (byteOf '"') findby with habsent | ⟨text, rest, htext, rfl⟩
  · rw [if_pos (by rw [List.count_eq_zero.mpr habsent]; omega),
      strchr_eq_none rfl rfl hfindby habsent]
    exact ⟨_, _, rfl, findby, List.prefix_refl _, [], rfl, Nat.add_zero _⟩
  · obtain ⟨hnulText, hnulRest⟩ := Lib.InPlace.notMem_of_split hfindby
    have hmem : A ++ (text ++ byteOf '"' :: rest ++ 0 :: C) =
        A ++ (text ++ byteOf '"' :: (rest ++ 0 :: C)) := by
      simp
    rw [hmem, strchr_of rfl rfl (by decide) hnulText htext]
    have hcut : terminate (A ++ (text ++ byteOf '"' :: (rest ++ 0 :: C)))
        (A.length + text.length) = (A ++ text ++ [0]) ++ (rest ++ 0 :: C) := by
      rw [terminate_of (b := byteOf '"') (A := A ++ text) (C := rest ++ 0 :: C) (by simp)
        (by simp)]
      simp
    have hp : A.length + text.length + 1 = (A ++ text ++ [0]).length := by
      simp only [List.length_append, List.length_singleton]
    simp only [hcut]
    rcases Lib.InPlace.split_or_absent (byteOf '"') rest
      with habsent | ⟨literal, after, hliteral, rfl⟩
    · have hcount : (text ++ byteOf '"' :: rest).count (byteOf '"') = 1 := by
        rw [List.count_append, List.count_cons_self, List.count_eq_zero.mpr htext,
          List.count_eq_zero.mpr habsent]
      rw [if_neg (by omega), strchr_eq_none rfl hp hnulRest habsent]
      rfl
    · have hnulLiteral := (Lib.InPlace.notMem_of_split hnulRest).1
      have hcount : (text ++ byteOf '"' :: (literal ++ byteOf '"' :: after)).count
          (byteOf '"') ≠ 1 := by
        rw [List.count_append, List.count_cons_self, List.count_append, List.count_cons_self]
        omega
      have hmem' : A ++ text ++ [0] ++ (literal ++ byteOf '"' :: after ++ 0 :: C) =
          A ++ text ++ [0] ++ (literal ++ byteOf '"' :: (after ++ 0 :: C)) := by
        simp
      rw [if_pos hcount, hmem', strchr_of rfl hp (by decide) hnulLiteral hliteral,
        Option.map_some]
      refine ⟨_, _, rfl, text, List.prefix_append _ _, literal ++ 0 :: (after ++ [0]), ?_, ?_⟩
      · rw [terminate_of (b := byteOf '"') (A := A ++ text ++ [0] ++ literal)
          (C := after ++ 0 :: C) (by simp) (by simp; omega)]
        simp
      · simp only [List.length_append, List.length_cons, List.length_nil]
        omega

theorem bodyReadable_iff {set : Bool} : bodyReadable set body ↔
    (body.count (byteOf ':') ≠ 1 ∨ set) ∧
      (body.takeWhile (· ≠ byteOf ':')).count (byteOf '"') ≠ 1 := by
  simp only [bodyReadable, Bool.and_eq_true, Bool.or_eq_true, decide_eq_true_eq]

/-- THE ROUND of a specification ends exactly where its body can be read, and leaves what
follows the specification as it was. -/
theorem fieldStep_body (temp7 : Option Nat) (before after : List UInt8) {key : List UInt8}
    (hkey : 0 ∉ key)
    (hkey' : byteOf ':' ∉ key) (hbody : 0 ∉ body) (hbody' : byteOf ']' ∉ body) :
    if bodyReadable temp7.isSome body then
      ∃ (cut : List UInt8) (temp7' : Option Nat) (slot' : FieldSlot),
        fieldStep (before ++ byteOf '[' :: (key ++ byteOf ':' :: (body ++ byteOf ']' :: after)))
            temp7 before.length =
          some (cut ++ after, temp7', slot', cut.length) ∧
        temp7'.isSome = (temp7.isSome || decide (2 ≤ body.count (byteOf ':')))
    else fieldStep (before ++ byteOf '[' :: (key ++ byteOf ':' :: (body ++ byteOf ']' :: after)))
        temp7 before.length = none := by
  unfold fieldStep
  rw [openField_eq before after hkey hkey' hbody hbody', Option.bind_some]
  dsimp only
  have hmem : before ++ 0 :: (key ++ 0 :: (body ++ 0 :: after)) =
      (before ++ 0 :: (key ++ [0])) ++ (body ++ 0 :: after) := by
    simp
  have hlength : (before ++ 0 :: (key ++ [0])).length = before.length + 1 + key.length + 1 := by
    simp only [List.length_append, List.length_cons, List.length_nil]
    omega
  rw [hmem, ← hlength]
  generalize hA : before ++ 0 :: (key ++ [0]) = A
  generalize FieldSlot.start (before.length + 1) A.length = slot
  have hfunction := splitFunction_body A after temp7 slot hbody
  by_cases hset : body.count (byteOf ':') ≠ 1 ∨ temp7.isSome
  · rw [if_pos hset] at hfunction
    obtain ⟨mem, temp7', slot', hsplit, htemp7, D, rfl, hD⟩ := hfunction
    rw [hsplit, Option.bind_some]
    dsimp only
    have hfindby : 0 ∉ body.takeWhile (· ≠ byteOf ':') :=
      fun h => hbody ((List.takeWhile_prefix _).subset h)
    have hcolon : byteOf ':' ∉ body.takeWhile (· ≠ byteOf ':') := by
      intro h
      simpa using List.mem_takeWhile_imp h
    have hliteral := splitLiteral_findby A (D ++ after) slot' hfindby
    by_cases hquotes : (body.takeWhile (· ≠ byteOf ':')).count (byteOf '"') ≠ 1
    · rw [if_pos hquotes] at hliteral
      obtain ⟨mem, slot'', hsplit, text, htext, E, rfl, hE⟩ := hliteral
      rw [if_pos (bodyReadable_iff.mpr ⟨hset, hquotes⟩), hsplit, Option.map_some]
      have hagain : strchr (A ++ (text ++ 0 :: (E ++ (D ++ after)))) A.length ':' = none :=
        strchr_eq_none rfl rfl (fun h => hfindby (htext.subset h)) fun h => hcolon (htext.subset h)
      refine ⟨A ++ (text ++ 0 :: (E ++ D)), temp7', slot'', ?_, htemp7⟩
      unfold splitAgain
      rw [hagain]
      have hlen : A.length + body.length + 1 = (A ++ (text ++ 0 :: (E ++ D))).length := by
        simp only [List.length_append, List.length_cons]
        omega
      simp only [hlen, List.append_assoc, List.cons_append]
    · rw [if_neg hquotes] at hliteral
      rw [if_neg fun h => hquotes (bodyReadable_iff.mp h).2, hliteral]
      rfl
  · rw [if_neg hset] at hfunction
    rw [if_neg fun h => hset (bodyReadable_iff.mp h).1, hfunction]
    rfl

/-- A round needs the `:` behind the key. -/
theorem fieldStep_no_colon {before text : List UInt8} (hnul : 0 ∉ text)
    (htext : byteOf ':' ∉ text) :
    fieldStep (before ++ byteOf '[' :: (text ++ [0])) temp7 before.length = none := by
  unfold fieldStep openField
  rw [terminate_of rfl rfl]
  dsimp only
  rw [strchr_eq_none (A := before ++ [0]) (B := text) (C := []) (by simp) (by simp) hnul htext]
  rfl

/-- A round needs a `]` behind this `:`. -/
theorem fieldStep_unclosed {before key text : List UInt8} (hkey : 0 ∉ key)
    (hkey' : byteOf ':' ∉ key) (hnul : 0 ∉ text) (htext : byteOf ']' ∉ text) :
    fieldStep (before ++ byteOf '[' :: (key ++ byteOf ':' :: (text ++ [0]))) temp7
      before.length = none := by
  unfold fieldStep openField
  rw [terminate_of rfl rfl]
  dsimp only
  rw [strchr_of (A := before ++ [0]) (B := key) (C := text ++ [0]) (by simp) (by simp)
    (by decide) hkey hkey', Option.bind_some]
  rw [terminate_of (b := byteOf ':') (A := before ++ 0 :: key) (C := text ++ [0])
    (by simp) (by simp; omega)]
  rw [strchr_eq_none (A := before ++ 0 :: (key ++ [0])) (B := text) (C := []) (by simp)
    (by simp; omega) hnul htext]
  rfl

end

/-- A body that can be read is one more. -/
theorem filter_bodies_cons {set : Bool} {body : List UInt8} (hread : bodyReadable set body)
    (bodies : Option (List (List UInt8))) :
    ((bodies.map (body :: ·)).filter (bodiesReadable set)).map List.length =
      ((bodies.filter (bodiesReadable (set || 2 ≤ body.count (byteOf ':')))).map
        List.length).map (· + 1) := by
  cases bodies with
  | none => rfl
  | some bodies =>
    rw [Option.map_some, Option.filter_some, Option.filter_some, bodiesReadable, hread,
      Bool.true_and]
    split
    · rfl
    · rfl

/-- With a body that cannot be read nothing is. -/
theorem filter_bodies_unreadable {set : Bool} {body : List UInt8} (hread : ¬bodyReadable set body)
    (bodies : Option (List (List UInt8))) :
    (bodies.map (body :: ·)).filter (bodiesReadable set) = none := by
  cases bodies with
  | none => rfl
  | some bodies =>
    rw [Option.map_some, Option.filter_some, bodiesReadable, eq_false_of_ne_true hread,
      Bool.false_and]
    rfl

/-- THE FIELDS OF A VALUE are as many as its bodies, where all of these can be read. -/
theorem fieldsLoop_eq_bodies (room : Nat) : ∀ (text before : List UInt8) (temp7 : Option Nat),
    text.length ≤ room → 0 ∉ text →
      (fieldsLoop room (before ++ (text ++ [0])) temp7
          (strchr (before ++ (text ++ [0])) before.length '[')).map
            (fun result => result.2.length) =
        ((specBodies .outside text).filter (bodiesReadable temp7.isSome)).map List.length := by
  induction room with
  | zero =>
    intro text before temp7 hroom hnul
    obtain rfl := List.eq_nil_of_length_eq_zero (Nat.le_zero.mp hroom)
    rw [strchr_eq_none rfl rfl hnul List.not_mem_nil]
    rfl
  | succ room ih =>
    intro text before temp7 hroom hnul
    rcases Lib.InPlace.split_or_absent (byteOf '[') text with habsent | ⟨pre, rest, hpre, rfl⟩
    · have hnone : specBodies .outside (text ++ []) = specBodies .outside [] :=
        specBodies_outside habsent
      rw [List.append_nil] at hnone
      rw [strchr_eq_none rfl rfl hnul habsent, hnone]
      rfl
    · obtain ⟨hnulPre, hnulRest⟩ := Lib.InPlace.notMem_of_split hnul
      rw [specBodies_outside hpre, specBodies_open, List.append_assoc pre, List.cons_append,
        strchr_open before (rest ++ [0]) hnulPre hpre, fieldsLoop, ← List.append_assoc]
      rcases Lib.InPlace.split_or_absent (byteOf ':') rest with habsent | ⟨key, rest, hkey, rfl⟩
      · rw [fieldStep_no_colon hnulRest habsent, specBodies_no_colon habsent]
        rfl
      · obtain ⟨hnulKey, hnulRest⟩ := Lib.InPlace.notMem_of_split hnulRest
        rw [List.append_assoc key, List.cons_append, specBodies_key hkey]
        rcases Lib.InPlace.split_or_absent (byteOf ']') rest
          with habsent | ⟨body, after, hbody, rfl⟩
        · rw [fieldStep_unclosed hnulKey hkey hnulRest habsent, specBodies_unclosed habsent]
          rfl
        · obtain ⟨hnulBody, hnulAfter⟩ := Lib.InPlace.notMem_of_split hnulRest
          rw [List.append_assoc body, List.cons_append, specBodies_closed hbody, List.nil_append]
          have hstep := fieldStep_body temp7 (before ++ pre) (after ++ [0]) hnulKey hkey
            hnulBody hbody
          by_cases hread : bodyReadable temp7.isSome body
          · rw [if_pos hread] at hstep
            obtain ⟨cut, temp7', slot, hstep, htemp7⟩ := hstep
            have hlen : after.length ≤ room := by
              simp only [List.length_append, List.length_cons] at hroom
              omega
            have hrest := ih after cut temp7' hlen hnulAfter
            rw [htemp7] at hrest
            rw [hstep, Option.bind_some, filter_bodies_cons hread, ← hrest, Option.map_map,
              Option.map_map]
            rfl
          · rw [if_neg hread] at hstep
            rw [hstep, filter_bodies_unreadable hread]
            rfl

end LogCollector
