import LogCollector.Json.Grammar

/-!
# The parser accepts the grammar

The tokens of a text bring the parser to its end with what the text means, and tokens that leave
it without an error can be gone on with to a text. So the parser reports an error at the first
token with which no text goes on, and not before.
-/

namespace LogCollector

variable {ρ : Type}

namespace JsonParser

/-- The tokens of a text given to the parser one after the other, until it is done. -/
def inputs (p : JsonParser ρ) (tokens : List (Token ρ)) : JsonParser ρ :=
  tokens.foldl (fun p token => if p.done then p else p.dispatch token) p

theorem inputs_append (p : JsonParser ρ) (as bs : List (Token ρ)) :
    p.inputs (as ++ bs) = (p.inputs as).inputs bs :=
  List.foldl_append

theorem inputs_cons {p : JsonParser ρ} (h : p.done = false) (token : Token ρ)
    (tokens : List (Token ρ)) :
    p.inputs (token :: tokens) = (p.dispatch token).inputs tokens := by
  rw [inputs, List.foldl_cons, if_neg (by rw [h]; exact Bool.false_ne_true)]
  rfl

/-- A parser that is done stays as it is. -/
theorem inputs_done {p : JsonParser ρ} (h : p.done) (tokens : List (Token ρ)) :
    p.inputs tokens = p := by
  induction tokens with
  | nil => rfl
  | cons token tokens ih =>
    rw [inputs, List.foldl_cons, if_pos h]
    exact ih

/-! ## Texts are accepted -/

section

variable {position : Position} {state : ParseState} {frame : Frame ρ} {outer : List (ParserNode ρ)}
  {name nm : Option CStr}

/-- The states in which a value is expected, for a container and a name. -/
inductive Expects : ParseState → Frame ρ → Option CStr → Prop
  | member (members : List (CStr × Json ρ)) (name : CStr) :
    Expects .objectValue (.object members) (some name)
  | first (elems : List (Json ρ)) : Expects .arrayInit (.array elems) none
  | next (elems : List (Json ρ)) : Expects .arrayValue (.array elems) none

theorem Expects.dispatch (h : Expects state frame name) (nm : Option CStr)
    (outer : List (ParserNode ρ))
    {token : Token ρ} (htoken : token ≠ .endArray) :
    (reading position state (⟨frame, nm⟩ :: outer) name).dispatch token =
      (reading position state (⟨frame, nm⟩ :: outer) name).parseValue token frame.next := by
  cases h with
  | member => rfl
  | first =>
    cases token with
    | endArray => exact absurd rfl htoken
    | _ => rfl
  | next => rfl

/-- A value that is one token is put into its container. -/
theorem Expects.scalar (h : Expects state frame name) (nm : Option CStr)
    (outer : List (ParserNode ρ))
    (token : Token ρ) {value : Json ρ} (hvalue : scalarOf token = some value) :
    (reading position state (⟨frame, nm⟩ :: outer) name).inputs value.tokens =
      reading position frame.next (⟨frame.add name value, nm⟩ :: outer) none := by
  obtain ⟨htokens, hresolve, -⟩ := tokens_of_scalarOf hvalue
  have hput := putValue_reading position state frame nm outer name value
  rw [hresolve] at hput
  rw [htokens, inputs_cons rfl, ← hput]
  change (reading position state (⟨frame, nm⟩ :: outer) name).dispatch token = _
  rw [h.dispatch nm outer (by rintro rfl; cases hvalue)]
  cases token <;> cases hvalue <;> rfl

/-- A container is opened where a value is expected. -/
theorem Expects.push (h : Expects state frame name) (nm : Option CStr) (outer : List (ParserNode ρ))
    (hlt : outer.length + 1 < JSON_MAX_HEIGHT) :
    (reading position state (⟨frame, nm⟩ :: outer) name).dispatch .beginObject =
        reading position .objectInit (⟨.object [], name⟩ :: ⟨frame, nm⟩ :: outer) none ∧
      (reading position state (⟨frame, nm⟩ :: outer) name).dispatch .beginArray =
        reading position .arrayInit (⟨.array [], name⟩ :: ⟨frame, nm⟩ :: outer) none := by
  constructor
  · rw [h.dispatch nm outer (by rintro ⟨⟩)]
    exact push_reading (⟨frame, nm⟩ :: outer) hlt rfl .objectInit
  · rw [h.dispatch nm outer (by rintro ⟨⟩)]
    exact push_reading (⟨frame, nm⟩ :: outer) hlt rfl .arrayInit

/-- The innermost container is closed and put into the one around it. -/
theorem close_reading (inner : Frame ρ) (hclose : (state = .objectInit ∨ state = .objectNext) ∧
      inner.closing = .endObject ∨
    (state = .arrayInit ∨ state = .arrayNext) ∧ inner.closing = .endArray) :
    (reading position state (⟨inner, name⟩ :: ⟨frame, nm⟩ :: outer) none).dispatch inner.closing =
      reading position frame.next (⟨frame.add name inner.toJson, nm⟩ :: outer) none := by
  have hpop : (reading position state (⟨inner, name⟩ :: ⟨frame, nm⟩ :: outer) none).pop =
      reading position frame.next (⟨frame.add name inner.toJson, nm⟩ :: outer) none := by
    simp only [reading, pop, List.map_cons, resolveNode, resolve_add, resolve_next, resolve_toJson]
  rw [← hpop]
  rcases hclose with ⟨rfl | rfl, heq⟩ | ⟨rfl | rfl, heq⟩ <;> rw [heq] <;> rfl

end

mutual

/-- A VALUE IS READ where one is expected, as long as it is not nested too deeply. -/
theorem inputs_value (position : Position) : ∀ (value : Json ρ) {state : ParseState}
    {frame : Frame ρ} {name : Option CStr} (nm : Option CStr) (outer : List (ParserNode ρ)),
    Expects state frame name →
    outer.length + 1 + value.height ≤ JSON_MAX_HEIGHT →
    (reading position state (⟨frame, nm⟩ :: outer) name).inputs value.tokens =
      reading position frame.next (⟨frame.add name value, nm⟩ :: outer) none
  | .null, _, _, _, nm, outer, h, _ => h.scalar nm outer .null rfl
  | .boolean true, _, _, _, nm, outer, h, _ => h.scalar nm outer .true rfl
  | .boolean false, _, _, _, nm, outer, h, _ => h.scalar nm outer .false rfl
  | .integer i, _, _, _, nm, outer, h, _ => h.scalar nm outer (.integer i) rfl
  | .real x, _, _, _, nm, outer, h, _ => h.scalar nm outer (.real x) rfl
  | .string s, _, _, _, nm, outer, h, _ => h.scalar nm outer (.string s) rfl
  | .object members, _, frame, name, nm, outer, h, hheight => by
    rw [Json.height] at hheight
    have hmembers := inputs_members position members true [] name (⟨frame, nm⟩ :: outer)
      (by rw [List.length_cons]; omega) fun _ => rfl
    rw [Json.tokens, List.cons_append, inputs_cons rfl, (h.push nm outer (by omega)).1,
      inputs_append,
      show (reading position .objectInit _ none).inputs (membersTokens true members) = _
        from hmembers,
      inputs_cons rfl]
    refine close_reading (.object members) (.inl ⟨?_, rfl⟩)
    cases members with
    | nil => exact .inl rfl
    | cons => exact .inr rfl
  | .array elems, _, frame, name, nm, outer, h, hheight => by
    rw [Json.height] at hheight
    have helems := inputs_elems position elems true [] name (⟨frame, nm⟩ :: outer)
      (by rw [List.length_cons]; omega) fun _ => rfl
    rw [Json.tokens, List.cons_append, inputs_cons rfl, (h.push nm outer (by omega)).2,
      inputs_append,
      show (reading position .arrayInit _ none).inputs (elemsTokens true elems) = _ from helems,
      inputs_cons rfl]
    refine close_reading (.array elems) (.inr ⟨?_, rfl⟩)
    cases elems with
    | nil => exact .inl rfl
    | cons => exact .inr rfl

theorem inputs_members (position : Position) : ∀ (members : List (CStr × Json ρ)) (first : Bool)
    (before : List (CStr × Json ρ)) (nm : Option CStr) (outer : List (ParserNode ρ)),
    outer.length + 1 + membersHeight members ≤ JSON_MAX_HEIGHT → (first = true → before = []) →
    (reading position (if first then .objectInit else .objectNext) (⟨.object before, nm⟩ :: outer)
      none).inputs (membersTokens first members) =
    reading position (if first && members.isEmpty then .objectInit else .objectNext)
      (⟨.object (before ++ members), nm⟩ :: outer) none
  | [], first, before, nm, outer, _, _ => by
    rw [membersTokens, List.append_nil, List.isEmpty_nil, Bool.and_true]
    rfl
  | (name, value) :: members, first, before, nm, outer, hheight, hbefore => by
    rw [membersHeight] at hheight
    have hvalue := inputs_value position value nm outer (.member before name) (by omega)
    have hmembers := inputs_members position members false (before ++ [(name, value)]) nm outer
      (by omega) (fun hfirst => by cases hfirst)
    rw [List.append_assoc, List.singleton_append, Bool.false_and] at hmembers
    have hname (state : ParseState) (hstate : state = .objectInit ∨ state = .objectName) :
        (reading position state (⟨.object before, nm⟩ :: outer) none).inputs
            (.string name :: .nameSeparator :: value.tokens ++ membersTokens false members) =
          reading position .objectNext (⟨.object (before ++ (name, value) :: members), nm⟩ :: outer)
            none := by
      rw [inputs_append, inputs_cons rfl, inputs_cons (by rcases hstate with rfl | rfl <;> rfl)]
      have hcolon : ((reading position state (⟨.object before, nm⟩ :: outer) none).dispatch
          (.string name)).dispatch .nameSeparator =
          reading position .objectValue (⟨.object before, nm⟩ :: outer) (some name) := by
        rcases hstate with rfl | rfl <;> rfl
      rw [hcolon, hvalue]
      exact hmembers
    rw [List.isEmpty_cons, Bool.and_false, membersTokens, List.append_assoc]
    cases first with
    | true => exact hname .objectInit (.inl rfl)
    | false =>
      simp only [Bool.false_eq_true, if_false, List.singleton_append]
      rw [inputs_cons rfl]
      exact hname .objectName (.inr rfl)

theorem inputs_elems (position : Position) : ∀ (elems : List (Json ρ)) (first : Bool)
    (before : List (Json ρ)) (nm : Option CStr) (outer : List (ParserNode ρ)),
    outer.length + 1 + elemsHeight elems ≤ JSON_MAX_HEIGHT → (first = true → before = []) →
    (reading position (if first then .arrayInit else .arrayNext) (⟨.array before, nm⟩ :: outer)
      none).inputs (elemsTokens first elems) =
    reading position (if first && elems.isEmpty then .arrayInit else .arrayNext)
      (⟨.array (before ++ elems), nm⟩ :: outer) none
  | [], first, before, nm, outer, _, _ => by
    rw [elemsTokens, List.append_nil, List.isEmpty_nil, Bool.and_true]
    rfl
  | value :: elems, first, before, nm, outer, hheight, hbefore => by
    rw [elemsHeight] at hheight
    have helems := inputs_elems position elems false (before ++ [value]) nm outer (by omega)
      (fun hfirst => by cases hfirst)
    rw [List.append_assoc, List.singleton_append, Bool.false_and] at helems
    rw [List.isEmpty_cons, Bool.and_false, elemsTokens, List.append_assoc]
    cases first with
    | true =>
      have hvalue := inputs_value position value nm outer (.first before) (by omega)
      simp only [if_true, List.nil_append]
      rw [inputs_append, hvalue]
      exact helems
    | false =>
      have hvalue := inputs_value position value nm outer (.next before) (by omega)
      simp only [Bool.false_eq_true, if_false, List.singleton_append]
      rw [inputs_cons rfl, inputs_append]
      exact (congrArg (inputs · _) hvalue).trans helems

end

/-- The container that a text is. -/
def frameOf : Json ρ → Frame ρ
  | .object members => .object members
  | .array elems => .array elems
  | .null | .boolean _ | .integer _ | .real _ | .string _ => .array []

theorem toJson_frameOf {value : Json ρ} (h : value.isContainer) :
    (frameOf value).toJson = value := by
  cases value with
  | object => rfl
  | array => rfl
  | _ => cases h

/-- THE TOKENS OF A TEXT bring the parser to its end. -/
theorem inputs_text (position : Position) {value : Json ρ} (hcontainer : value.isContainer)
    (hheight : value.height ≤ JSON_MAX_HEIGHT) :
    (reading position .start [] none).inputs value.tokens =
      reading position .end [⟨frameOf value, none⟩] none := by
  have hopen : ([] : List (ParserNode ρ)).length < JSON_MAX_HEIGHT := Nat.succ_pos 999
  cases value with
  | object members =>
    rw [Json.height] at hheight
    have hmembers := inputs_members position members true [] none []
      (by rw [List.length_nil]; omega) fun _ => rfl
    have hpush : (reading position .start [] none : JsonParser ρ).dispatch .beginObject =
        reading position .objectInit [⟨.object [], none⟩] none :=
          push_reading [] hopen rfl .objectInit
    rw [Json.tokens, List.cons_append, inputs_cons rfl, hpush, inputs_append]
    rw [show (reading position .objectInit _ none).inputs (membersTokens true members) = _
      from hmembers,
      inputs_cons rfl]
    cases members <;> rfl
  | array elems =>
    rw [Json.height] at hheight
    have helems := inputs_elems position elems true [] none []
      (by rw [List.length_nil]; omega) fun _ => rfl
    have hpush : (reading position .start [] none : JsonParser ρ).dispatch .beginArray =
        reading position .arrayInit [⟨.array [], none⟩] none := push_reading [] hopen rfl .arrayInit
    rw [Json.tokens, List.cons_append, inputs_cons rfl, hpush, inputs_append]
    rw [show (reading position .arrayInit _ none).inputs (elemsTokens true elems) = _ from helems,
      inputs_cons rfl]
    cases elems <;> rfl
  | null => cases hcontainer
  | boolean => cases hcontainer
  | integer => cases hcontainer
  | real => cases hcontainer
  | string => cases hcontainer

/-! ## What is read is part of a text -/

/-- A parser that is given tokens from its start. -/
def given (tokens : List (Token ρ)) (position : Position) : JsonParser ρ :=
  (reading position .start [] none).inputs tokens

theorem given_append (as bs : List (Token ρ)) (position : Position) :
    given (as ++ bs) position = (given as position).inputs bs :=
  inputs_append _ as bs

/-- One more token. -/
theorem HasRead.step {tokens : List (Token ρ)} (h : HasRead tokens (given tokens))
    (token : Token ρ) :
    (∀ position, given (tokens ++ [token]) position = (given tokens position).dispatch token) ∧
      ReadsOrFails (given tokens) tokens token (given (tokens ++ [token])) := by
  obtain ⟨state, stack, name, hfits, hheight, hp, hread⟩ := h
  have hgiven (position : Position) : given (tokens ++ [token]) position =
      (reading position state stack name).dispatch token := by
    rw [given_append, hp, inputs_cons rfl]
    rfl
  refine ⟨fun position => by rw [hgiven, hp], ?_⟩
  rcases hfits.dispatch hheight token with ⟨message, hfail⟩ | hstep
  · exact .inl ⟨message, fun position => by rw [hp]; exact (hgiven position).trans (hfail position)⟩
  · obtain ⟨state', stack', name', hfits', hheight', hp', hread'⟩ := hstep
    rw [hread] at hread'
    exact .inr ⟨state', stack', name', hfits', hheight', fun position =>
      (hgiven position).trans (hp' position), hread'⟩

/-- THE RUN: the tokens have been read, or an error has been reported. -/
theorem given_reads (tokens : List (Token ρ)) :
    HasRead tokens (given tokens) ∨
      ∀ position, (given tokens position).error.isSome ∧ (given tokens position).done := by
  induction tokens using List.reverseRecOn with
  | nil => exact .inl ⟨.start, [], none, .start, Nat.zero_le _, fun _ => rfl, rfl⟩
  | append_singleton tokens token ih =>
    rcases ih with hread | hfailed
    · rcases (hread.step token).2 with ⟨message, hfail⟩ | hnext
      · obtain ⟨state, stack, name, -, -, hp, -⟩ := hread
        refine .inr fun position => ?_
        rw [hfail, hp]
        exact ⟨rfl, rfl⟩
      · exact .inl hnext
    · refine .inr fun position => ?_
      obtain ⟨herror, hdone⟩ := hfailed position
      rw [given_append, inputs_done hdone]
      exact ⟨herror, hdone⟩

/-- Open containers can be closed. -/
theorem Nested.completes : ∀ {outer : List (ParserNode ρ)} {frame : Frame ρ} {nm : Option CStr},
    Nested (⟨frame, nm⟩ :: outer) →
    ∃ (rest : List (Token ρ)) (value : Json ρ),
      openTokens (⟨frame, nm⟩ :: outer) ++ rest = value.tokens ∧ value.isContainer ∧
      value.height = closedHeight 0 (⟨frame, nm⟩ :: outer)
  | [], frame, nm, h => by
    obtain rfl : nm = none := h.nameFits
    refine ⟨[frame.closing], frame.toJson, ?_, by cases frame <;> rfl, ?_⟩
    · rw [openTokens_close]
      rfl
    · rw [height_toJson, closedHeight, closedHeight, Nat.max_zero]
  | ⟨top, nm'⟩ :: outer, frame, nm, h => by
    have hnested := h.tail.resolve_left (List.cons_ne_nil _ _)
    obtain ⟨rest, value, htokens, hcontainer, hheight⟩ :=
      (hnested.append (top.add nm frame.toJson)).completes
    refine ⟨frame.closing :: rest, value, ?_, hcontainer, ?_⟩
    · rw [← htokens, openTokens_add h.nameFits, ← openTokens_close, List.append_assoc,
        List.singleton_append]
    · rw [hheight, closedHeight_add h.nameFits, height_toJson]
      simp only [closedHeight, Nat.max_zero]

/-- What has been read is the beginning of a text. -/
theorem Fits.completes {state : ParseState} {stack : List (ParserNode ρ)} {name : Option CStr}
    (h : Fits state stack name) (hheight : closedHeight 0 stack ≤ JSON_MAX_HEIGHT) :
    ∃ value : Json ρ, value.isContainer ∧ value.height ≤ JSON_MAX_HEIGHT ∧
      readTokens stack name state <+: value.tokens := by
  -- the containers that are open, closed as they are
  have hclose {frame : Frame ρ} {nm : Option CStr} {outer : List (ParserNode ρ)}
      (hnested : Nested (⟨frame, nm⟩ :: outer))
      (hle : closedHeight 0 (⟨frame, nm⟩ :: outer) ≤ JSON_MAX_HEIGHT) :
      ∃ value : Json ρ, value.isContainer ∧ value.height ≤ JSON_MAX_HEIGHT ∧
        openTokens (⟨frame, nm⟩ :: outer) <+: value.tokens := by
    obtain ⟨rest, value, htokens, hcontainer, hvalue⟩ := hnested.completes
    exact ⟨value, hcontainer, hvalue ▸ hle, rest, htokens⟩
  -- one more value, which is `null`
  have hnull {frame : Frame ρ} {nm : Option CStr} {outer : List (ParserNode ρ)} (name : Option CStr)
      {tokens : List (Token ρ)} (hnested : Nested (⟨frame, nm⟩ :: outer))
      (hname : NameFits (⟨frame, nm⟩ :: outer) name)
      (hle : closedHeight 0 (⟨frame, nm⟩ :: outer) ≤ JSON_MAX_HEIGHT)
      (htokens : tokens <+: openTokens (⟨frame, nm⟩ :: outer) ++
        separatorOf (⟨frame, nm⟩ :: outer) ++ named name) :
      ∃ value : Json ρ, value.isContainer ∧ value.height ≤ JSON_MAX_HEIGHT ∧
        tokens <+: value.tokens := by
    have hadd := openTokens_add hname (.null : Json ρ)
    obtain ⟨value, hcontainer, hvalue, hbegins⟩ := hclose (hnested.append (frame.add name .null))
      (by rw [closedHeight_add hname]; exact hle)
    rw [hadd] at hbegins
    exact ⟨value, hcontainer, hvalue, htokens.trans ((List.prefix_append _ _).trans hbegins)⟩
  cases h with
  | start =>
    exact ⟨.array [], rfl, by simp [Json.height, elemsHeight, JSON_MAX_HEIGHT],
      List.nil_prefix⟩
  | «end» frame =>
    refine ⟨frame.toJson, by cases frame <;> rfl, ?_, ?_⟩
    · rwa [height_toJson, ← Nat.max_zero frame.height]
    · change openTokens [⟨frame, none⟩] ++ [frame.closing] <+: _
      rw [openTokens_close]
      exact List.prefix_rfl
  | objectInit hnested => exact hclose hnested hheight
  | objectNext hne hnested => exact hclose hnested hheight
  | arrayInit hnested => exact hclose hnested hheight
  | arrayNext hne hnested => exact hclose hnested hheight
  | objectName hne hnested =>
    refine hnull (some .empty) hnested rfl hheight ?_
    simp [readTokens, separatorOf, Frame.separator, hne]
  | objectColon name hnested =>
    refine hnull (some name) hnested rfl hheight ?_
    simp [readTokens, named]
  | objectValue name hnested => exact hnull (some name) hnested rfl hheight List.prefix_rfl
  | arrayValue hne hnested =>
    refine hnull none hnested rfl hheight ?_
    simp [readTokens, separatorOf, Frame.separator, hne, named]

/-- ERRORS ARE REPORTED AT ONCE, and only then: the parser has met no error exactly as long as a
text begins with the tokens. -/
theorem error_eq_none_iff (position : Position) (tokens : List (Token ρ)) :
    (given tokens position).error = none ↔
      ∃ value : Json ρ, value.isContainer ∧ value.height ≤ JSON_MAX_HEIGHT ∧
        tokens <+: value.tokens := by
  constructor
  · intro hnone
    rcases given_reads tokens with ⟨state, stack, name, hfits, hheight, -, hread⟩ | hfailed
    · rw [← hread]
      exact hfits.completes hheight
    · have herror := (hfailed position).1
      rw [hnone] at herror
      cases herror
  · rintro ⟨value, hcontainer, hheight, rest, htokens⟩
    rcases given_reads tokens with ⟨state, stack, name, -, -, hp, -⟩ | hfailed
    · rw [hp]
      rfl
    · obtain ⟨herror, hdone⟩ := hfailed position
      have htext := inputs_text position hcontainer hheight
      rw [← htokens, inputs_append] at htext
      rw [show (reading position .start [] none).inputs tokens = given tokens position from rfl,
        inputs_done hdone] at htext
      rw [htext] at herror
      cases herror

end JsonParser

end LogCollector
