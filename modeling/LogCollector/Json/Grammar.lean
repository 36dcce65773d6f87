import LogCollector.Json.RoundTrip

/-!
# The grammar of JSON texts

What `json_parser_input` accepts, against a grammar that knows nothing of stacks and states. A
`Json` value whose objects list their members as they are written, a name more than once where
the text has it more than once, is what a text spells (`tokens`); what it means is the value
with each name once (`resolve`).

Between two tokens the parser has read the openings of some containers, each with the values
before the one it is in. `Reading` is that, in the words of the grammar; the stack of the parser
is its resolution. One lemma says what a token does to it, and from it follow both directions:
what the parser accepts is a text, and as long as it reports no error what it has read can be
gone on with to one.
-/

namespace LogCollector

variable {ρ : Type}

/-! ## Texts and what they mean -/

mutual

/-- The tokens that spell a value. -/
def Json.tokens : Json ρ → List (Token ρ)
  | .null => [.null]
  | .boolean b => [JsonParser.tokenOfBool b]
  | .object members => .beginObject :: membersTokens true members ++ [.endObject]
  | .array elems => .beginArray :: elemsTokens true elems ++ [.endArray]
  | .integer i => [.integer i]
  | .real x => [.real x]
  | .string s => [.string s]

/-- The tokens of members, a comma before each but the first. -/
def membersTokens : Bool → List (CStr × Json ρ) → List (Token ρ)
  | _, [] => []
  | first, (name, value) :: members =>
    (if first then [] else [.valueSeparator]) ++ .string name :: .nameSeparator :: value.tokens ++
      membersTokens false members

/-- The tokens of elements, a comma before each but the first. -/
def elemsTokens : Bool → List (Json ρ) → List (Token ρ)
  | _, [] => []
  | first, value :: elems =>
    (if first then [] else [.valueSeparator]) ++ value.tokens ++ elemsTokens false elems

end

mutual

/-- What a text means: a name that is written again takes the later value, in its first place. -/
def Json.resolve : Json ρ → Json ρ
  | .object members => .object (resolveMembers [] members)
  | .array elems => .array (resolveElems elems)
  | .null => .null
  | .boolean b => .boolean b
  | .integer i => .integer i
  | .real x => .real x
  | .string s => .string s

def resolveMembers : List (CStr × Json ρ) → List (CStr × Json ρ) → List (CStr × Json ρ)
  | before, [] => before
  | before, (name, value) :: members =>
    resolveMembers (Lib.Assoc.put before name value.resolve) members

def resolveElems : List (Json ρ) → List (Json ρ)
  | [] => []
  | value :: elems => value.resolve :: resolveElems elems

end

mutual

/-- How many containers are nested in one another. -/
def Json.height : Json ρ → Nat
  | .object members => membersHeight members + 1
  | .array elems => elemsHeight elems + 1
  | .null | .boolean _ | .integer _ | .real _ | .string _ => 0

def membersHeight : List (CStr × Json ρ) → Nat
  | [] => 0
  | (_, value) :: members => max value.height (membersHeight members)

def elemsHeight : List (Json ρ) → Nat
  | [] => 0
  | value :: elems => max value.height (elemsHeight elems)

end

/-- An object or an array, which is what a text has to be. -/
def Json.isContainer : Json ρ → Bool
  | .object _ | .array _ => true
  | .null | .boolean _ | .integer _ | .real _ | .string _ => false

theorem membersTokens_append (ms : List (CStr × Json ρ)) (name : CStr) (value : Json ρ) :
    ∀ first, membersTokens first (ms ++ [(name, value)]) = membersTokens first ms ++
      ((if first && ms.isEmpty then [] else [.valueSeparator]) ++
        .string name :: .nameSeparator :: value.tokens) := by
  induction ms with
  | nil =>
    intro first
    cases first <;> simp [membersTokens]
  | cons m ms ih =>
    intro first
    obtain ⟨n, v⟩ := m
    rw [List.cons_append, membersTokens, ih, membersTokens]
    simp

theorem membersHeight_append (ms : List (CStr × Json ρ)) (name : CStr) (value : Json ρ) :
    membersHeight (ms ++ [(name, value)]) = max (membersHeight ms) value.height := by
  induction ms with
  | nil => simp [membersHeight]
  | cons m ms ih =>
    obtain ⟨n, v⟩ := m
    rw [List.cons_append, membersHeight, ih, membersHeight, max_assoc]

theorem elemsHeight_append (es : List (Json ρ)) (value : Json ρ) :
    elemsHeight (es ++ [value]) = max (elemsHeight es) value.height := by
  induction es with
  | nil => simp [elemsHeight]
  | cons v es ih => rw [List.cons_append, elemsHeight, ih, elemsHeight, max_assoc]

theorem elemsTokens_append (es : List (Json ρ)) (value : Json ρ) :
    ∀ first, elemsTokens first (es ++ [value]) = elemsTokens first es ++
      ((if first && es.isEmpty then [] else [.valueSeparator]) ++ value.tokens) := by
  induction es with
  | nil =>
    intro first
    cases first <;> simp [elemsTokens]
  | cons v es ih =>
    intro first
    rw [List.cons_append, elemsTokens, ih, elemsTokens]
    simp

theorem resolveMembers_append (ms : List (CStr × Json ρ)) (name : CStr) (value : Json ρ) :
    ∀ before, resolveMembers before (ms ++ [(name, value)]) =
      Lib.Assoc.put (resolveMembers before ms) name value.resolve := by
  induction ms with
  | nil =>
    intro before
    simp [resolveMembers]
  | cons m ms ih =>
    intro before
    obtain ⟨n, v⟩ := m
    rw [List.cons_append, resolveMembers, ih, resolveMembers]

theorem resolveElems_append (es : List (Json ρ)) (value : Json ρ) :
    resolveElems (es ++ [value]) = resolveElems es ++ [value.resolve] := by
  induction es with
  | nil => simp [resolveElems]
  | cons v es ih => rw [List.cons_append, resolveElems, ih, resolveElems, List.cons_append]

/-! ## What has been read between two tokens -/

def Frame.resolve : Frame ρ → Frame ρ
  | .object members => .object (resolveMembers [] members)
  | .array elems => .array (resolveElems elems)

/-- The opening of a container and the values read in it. -/
def Frame.opened : Frame ρ → List (Token ρ)
  | .object members => .beginObject :: membersTokens true members
  | .array elems => .beginArray :: elemsTokens true elems

/-- How many containers are nested in this one. -/
def Frame.height : Frame ρ → Nat
  | .object members => membersHeight members
  | .array elems => elemsHeight elems

/-- The token that closes a container. -/
def Frame.closing : Frame ρ → Token ρ
  | .object _ => .endObject
  | .array _ => .endArray

/-- What stands before the next value. -/
def Frame.separator : Frame ρ → List (Token ρ)
  | .object members => if members.isEmpty then [] else [.valueSeparator]
  | .array elems => if elems.isEmpty then [] else [.valueSeparator]

/-- A value read in a container. -/
def Frame.add (frame : Frame ρ) (name : Option CStr) (value : Json ρ) : Frame ρ :=
  match frame, name with
  | .object members, some name => .object (members ++ [(name, value)])
  | .object members, none => .object members
  | .array elems, _ => .array (elems ++ [value])

namespace JsonParser

/-- The name of a member. -/
def named : Option CStr → List (Token ρ)
  | none => []
  | some name => [.string name, .nameSeparator]

/-- What stands before the next value in the innermost container. -/
def separatorOf : List (ParserNode ρ) → List (Token ρ)
  | [] => []
  | node :: _ => node.frame.separator

/-- What has been read where containers are open, the innermost first. -/
def openTokens : List (ParserNode ρ) → List (Token ρ)
  | [] => []
  | node :: outer => openTokens outer ++ separatorOf outer ++ named node.name ++ node.frame.opened

/-- The container that is open first is not in another one, and each container in an object has
a name. -/
inductive Nested : List (ParserNode ρ) → Prop
  | outermost (frame : Frame ρ) : Nested [⟨frame, none⟩]
  | inObject {members : List (CStr × Json ρ)} {nm : Option CStr} {outer : List (ParserNode ρ)}
    (frame : Frame ρ) (name : CStr) (h : Nested (⟨.object members, nm⟩ :: outer)) :
    Nested (⟨frame, some name⟩ :: ⟨.object members, nm⟩ :: outer)
  | inArray {elems : List (Json ρ)} {nm : Option CStr} {outer : List (ParserNode ρ)}
    (frame : Frame ρ) (h : Nested (⟨.array elems, nm⟩ :: outer)) :
    Nested (⟨frame, none⟩ :: ⟨.array elems, nm⟩ :: outer)

/-- The containers, the name and the state in which a parser can be. -/
inductive Fits : ParseState → List (ParserNode ρ) → Option CStr → Prop
  | start : Fits .start [] none
  | end (frame : Frame ρ) : Fits .end [⟨frame, none⟩] none
  | objectInit {nm outer} (h : Nested (⟨.object [], nm⟩ :: outer)) :
    Fits .objectInit (⟨.object [], nm⟩ :: outer) none
  | objectName {members nm outer} (hne : members ≠ [])
      (h : Nested (⟨.object members, nm⟩ :: outer)) :
    Fits .objectName (⟨.object members, nm⟩ :: outer) none
  | objectColon {members nm outer} (name : CStr) (h : Nested (⟨.object members, nm⟩ :: outer)) :
    Fits .objectColon (⟨.object members, nm⟩ :: outer) (some name)
  | objectValue {members nm outer} (name : CStr) (h : Nested (⟨.object members, nm⟩ :: outer)) :
    Fits .objectValue (⟨.object members, nm⟩ :: outer) (some name)
  | objectNext {members nm outer} (hne : members ≠ [])
      (h : Nested (⟨.object members, nm⟩ :: outer)) :
    Fits .objectNext (⟨.object members, nm⟩ :: outer) none
  | arrayInit {nm outer} (h : Nested (⟨.array [], nm⟩ :: outer)) :
    Fits .arrayInit (⟨.array [], nm⟩ :: outer) none
  | arrayValue {elems nm outer} (hne : elems ≠ []) (h : Nested (⟨.array elems, nm⟩ :: outer)) :
    Fits .arrayValue (⟨.array elems, nm⟩ :: outer) none
  | arrayNext {elems nm outer} (hne : elems ≠ []) (h : Nested (⟨.array elems, nm⟩ :: outer)) :
    Fits .arrayNext (⟨.array elems, nm⟩ :: outer) none

/-- What has been read in a state. -/
def readTokens (stack : List (ParserNode ρ)) (name : Option CStr) : ParseState → List (Token ρ)
  | .start => []
  | .end => openTokens stack ++ (stack.head?.map (·.frame.closing)).toList
  | .objectInit | .objectNext | .arrayInit | .arrayNext => openTokens stack
  | .objectName | .arrayValue => openTokens stack ++ [.valueSeparator]
  | .objectColon => openTokens stack ++ separatorOf stack ++ (name.map .string).toList
  | .objectValue => openTokens stack ++ separatorOf stack ++ named name

/-- The height of what is written when a value of height `h` is the last one in each of these
containers. -/
def closedHeight : Nat → List (ParserNode ρ) → Nat
  | h, [] => h
  | h, node :: outer => closedHeight (max node.frame.height h + 1) outer

def resolveNode (node : ParserNode ρ) : ParserNode ρ := ⟨node.frame.resolve, node.name⟩

/-- A parser between tokens that has met no error. -/
def reading (position : Position) (state : ParseState) (stack : List (ParserNode ρ))
    (name : Option CStr) : JsonParser ρ :=
  { (create true : JsonParser ρ) with
    position, parseState := state, stack := stack.map resolveNode, memberName := name }

section

variable {frame : Frame ρ} {name nm : Option CStr} {value : Json ρ}
  {outer stack : List (ParserNode ρ)}

theorem tokens_toJson (frame : Frame ρ) :
    frame.toJson.tokens = frame.opened ++ [frame.closing] := by
  cases frame <;> simp [Frame.toJson, Json.tokens, Frame.opened, Frame.closing]

theorem resolve_toJson (frame : Frame ρ) : frame.toJson.resolve = frame.resolve.toJson := by
  cases frame <;> simp [Frame.toJson, Json.resolve, Frame.resolve]

theorem resolve_add (frame : Frame ρ) (name : Option CStr) (value : Json ρ) :
    (frame.add name value).resolve = putInto frame.resolve name value.resolve := by
  cases frame with
  | object members =>
    cases name with
    | none => rfl
    | some name => simp [Frame.add, Frame.resolve, putInto, resolveMembers_append]
  | array elems => simp [Frame.add, Frame.resolve, putInto, resolveElems_append]

theorem resolve_next (frame : Frame ρ) : frame.resolve.next = frame.next := by
  cases frame <;> rfl

/-- Is a value in the innermost container named as it has to be? -/
def NameFits : List (ParserNode ρ) → Option CStr → Prop
  | [], name => name = none
  | ⟨.object _, _⟩ :: _, name => name.isSome
  | ⟨.array _, _⟩ :: _, name => name = none

theorem Nested.nameFits (h : Nested (⟨frame, name⟩ :: outer)) : NameFits outer name := by
  cases h with
  | outermost => rfl
  | inObject => rfl
  | inArray => rfl

theorem Nested.push (h : stack = [] ∨ Nested stack) (hname : NameFits stack name)
    (frame : Frame ρ) :
    Nested (⟨frame, name⟩ :: stack) := by
  rcases h with rfl | h
  · cases hname
    exact .outermost frame
  · cases stack with
    | nil => cases h
    | cons node outer =>
      obtain ⟨top, nm⟩ := node
      cases top with
      | object members =>
        obtain ⟨name, rfl⟩ := Option.isSome_iff_exists.mp hname
        exact .inObject frame name h
      | array elems =>
        cases hname
        exact .inArray frame h

/-- The containers around the innermost one. -/
theorem Nested.tail (h : Nested (⟨frame, nm⟩ :: outer)) : outer = [] ∨ Nested outer := by
  cases h with
  | outermost => exact .inl rfl
  | inObject _ _ h => exact .inr h
  | inArray _ h => exact .inr h

/-- What is in a container does not matter to where it is. -/
theorem Nested.append (h : Nested (⟨frame, nm⟩ :: outer)) (frame' : Frame ρ) :
    Nested (⟨frame', nm⟩ :: outer) :=
  .push h.tail h.nameFits frame'

/-- A value behind what has been read in a container. -/
theorem opened_add (hname : NameFits (⟨frame, nm⟩ :: outer) name) (value : Json ρ) :
    (frame.add name value).opened =
      frame.opened ++ frame.separator ++ named name ++ value.tokens := by
  cases frame with
  | object members =>
    obtain ⟨name, rfl⟩ := Option.isSome_iff_exists.mp hname
    rw [Frame.add, Frame.opened, membersTokens_append]
    cases members <;> simp [Frame.opened, Frame.separator, named]
  | array elems =>
    cases hname
    rw [Frame.add, Frame.opened, elemsTokens_append]
    cases elems <;> simp [Frame.opened, Frame.separator, named]

theorem openTokens_add (hname : NameFits (⟨frame, nm⟩ :: outer) name) (value : Json ρ) :
    openTokens (⟨frame.add name value, nm⟩ :: outer) =
      openTokens (⟨frame, nm⟩ :: outer) ++ separatorOf (⟨frame, nm⟩ :: outer) ++ named name ++
        value.tokens := by
  simp only [openTokens, separatorOf, opened_add hname, List.append_assoc]

/-- After a value the parser goes on in the container it is in. -/
theorem fits_add (h : Nested (⟨frame, nm⟩ :: outer)) (hname : NameFits (⟨frame, nm⟩ :: outer) name)
    (value : Json ρ) : Fits frame.next (⟨frame.add name value, nm⟩ :: outer) none := by
  cases frame with
  | object members =>
    obtain ⟨name, rfl⟩ := Option.isSome_iff_exists.mp hname
    exact .objectNext (List.append_ne_nil_of_right_ne_nil _ (List.cons_ne_nil _ _)) (h.append _)
  | array elems =>
    cases hname
    exact .arrayNext (List.append_ne_nil_of_right_ne_nil _ (List.cons_ne_nil _ _)) (h.append _)

theorem height_add (hname : NameFits (⟨frame, nm⟩ :: outer) name) (value : Json ρ) :
    (frame.add name value).height = max frame.height value.height := by
  cases frame with
  | object members =>
    obtain ⟨name, rfl⟩ := Option.isSome_iff_exists.mp hname
    exact membersHeight_append members name value
  | array elems => exact elemsHeight_append elems value

theorem height_toJson (frame : Frame ρ) : frame.toJson.height = frame.height + 1 := by
  cases frame <;> simp [Frame.toJson, Json.height, Frame.height]

/-- A value that is written in a container counts as one that is the last in it. -/
theorem closedHeight_add (hname : NameFits (⟨frame, nm⟩ :: outer) name) (value : Json ρ) :
    closedHeight 0 (⟨frame.add name value, nm⟩ :: outer) =
      closedHeight value.height (⟨frame, nm⟩ :: outer) := by
  simp only [closedHeight, height_add hname, Nat.max_zero]

/-- What is nested deepest is either among what has been written or in the innermost
container. -/
theorem closedHeight_eq (stack : List (ParserNode ρ)) :
    ∀ h, closedHeight h stack = max (closedHeight 0 stack) (stack.length + h) := by
  induction stack with
  | nil =>
    intro h
    simp [closedHeight]
  | cons node outer ih =>
    intro h
    rw [closedHeight, closedHeight, ih, ih (max node.frame.height 0 + 1), List.length_cons]
    omega

theorem readTokens_next (frame : Frame ρ) (stack : List (ParserNode ρ)) (name : Option CStr) :
    readTokens stack name frame.next = openTokens stack := by
  cases frame <;> rfl

/-- A container that is complete is a value of the one around it. -/
theorem openTokens_close (frame : Frame ρ) (name : Option CStr) (stack : List (ParserNode ρ)) :
    openTokens (⟨frame, name⟩ :: stack) ++ [frame.closing] =
      openTokens stack ++ separatorOf stack ++ named name ++ frame.toJson.tokens := by
  simp only [openTokens, tokens_toJson, List.append_assoc]

end

/-! ## What a token does -/

/-- A parser that has read these tokens and met no error, wherever it is in its input. -/
def HasRead (tokens : List (Token ρ)) (p : Position → JsonParser ρ) : Prop :=
  ∃ state stack name, Fits state stack name ∧ closedHeight 0 stack ≤ JSON_MAX_HEIGHT ∧
    (∀ position, p position = reading position state stack name) ∧
    readTokens stack name state = tokens

/-- Either an error is reported, or the token has been read. -/
def ReadsOrFails (p : Position → JsonParser ρ) (tokens : List (Token ρ)) (token : Token ρ)
    (p' : Position → JsonParser ρ) : Prop :=
  (∃ message, ∀ position, p' position = (p position).fail message) ∨ HasRead (tokens ++ [token]) p'

section

variable {position : Position} {state : ParseState} {stack outer : List (ParserNode ρ)}
  {name nm : Option CStr} {frame : Frame ρ} {token : Token ρ} {value : Json ρ}

/-- A value that is one token. -/
theorem tokens_of_scalarOf (h : scalarOf token = some value) :
    value.tokens = [token] ∧ value.resolve = value ∧ value.height = 0 := by
  cases token <;> cases h <;> simp [Json.tokens, Json.resolve, Json.height, tokenOfBool]

theorem putValue_reading (position : Position) (state : ParseState) (frame : Frame ρ)
    (nm : Option CStr) (outer : List (ParserNode ρ)) (name : Option CStr) (value : Json ρ) :
    { (reading position state (⟨frame, nm⟩ :: outer) name).putValue value.resolve with
      parseState := frame.next } =
      reading position frame.next (⟨frame.add name value, nm⟩ :: outer) none := by
  simp only [reading, List.map_cons, resolveNode, putValue, resolve_add]

theorem push_reading (stack : List (ParserNode ρ)) (hlt : stack.length < JSON_MAX_HEIGHT)
    (hempty : frame.resolve = frame) (newState : ParseState) :
    (reading position state stack name).push frame newState =
      reading position newState (⟨frame, name⟩ :: stack) none := by
  simp only [reading, push, List.length_map, if_pos hlt, List.map_cons, resolveNode, hempty]

theorem push_reading_fail (hge : ¬stack.length < JSON_MAX_HEIGHT) (frame : Frame ρ)
    (newState : ParseState) :
    (reading position state stack name).push frame newState =
      (reading position state stack name).fail
        (.lit "input exceeds maximum nesting depth 1000") := by
  simp only [reading, push, List.length_map, if_neg hge]

theorem pop_reading (h : Nested (⟨frame, nm⟩ :: outer)) (state : ParseState) :
    (outer = [] ∧ nm = none ∧
      ∀ position, (reading position state (⟨frame, nm⟩ :: outer) none).pop =
        reading position .end [⟨frame, none⟩] none) ∨
    ∃ top nm' outer', outer = ⟨top, nm'⟩ :: outer' ∧ Nested outer ∧
      ∀ position, (reading position state (⟨frame, nm⟩ :: outer) none).pop =
        reading position top.next (⟨top.add nm frame.toJson, nm'⟩ :: outer') none := by
  cases outer with
  | nil =>
    obtain rfl : nm = none := h.nameFits
    exact .inl ⟨rfl, rfl, fun _ => rfl⟩
  | cons node outer =>
    obtain ⟨top, nm'⟩ := node
    refine .inr ⟨top, nm', outer, rfl, h.tail.resolve_left (List.cons_ne_nil _ _), ?_⟩
    intro position
    simp only [reading, pop, List.map_cons, resolveNode, resolve_add, resolve_next, resolve_toJson]

/-- The innermost container is closed. -/
theorem Nested.close (h : Nested (⟨frame, nm⟩ :: outer))
    (hheight : closedHeight 0 (⟨frame, nm⟩ :: outer) ≤ JSON_MAX_HEIGHT)
    (state : ParseState) :
    HasRead (openTokens (⟨frame, nm⟩ :: outer) ++ [frame.closing])
      fun position => (reading position state (⟨frame, nm⟩ :: outer) none).pop := by
  rcases pop_reading h state with ⟨rfl, rfl, hpop⟩ | ⟨top, nm', outer', rfl, hnested, hpop⟩
  · exact ⟨.end, _, none, .end frame, hheight, hpop, rfl⟩
  · refine ⟨top.next, _, none, fits_add hnested h.nameFits frame.toJson, ?_, hpop, ?_⟩
    · rw [closedHeight_add h.nameFits, height_toJson, ← Nat.max_zero frame.height]
      exact hheight
    · rw [readTokens_next, openTokens_add h.nameFits, openTokens_close]

/-- A container is opened where a value is expected. -/
theorem push_reads
    (hheight : closedHeight 0 stack ≤ JSON_MAX_HEIGHT) (hempty : frame.resolve = frame)
    (hzero : frame.height = 0) (hopened : frame.opened = [token]) {newState : ParseState}
    (hnew : Fits newState (⟨frame, name⟩ :: stack) none)
    (hread : readTokens (⟨frame, name⟩ :: stack) none newState =
      openTokens (⟨frame, name⟩ :: stack))
    (state : ParseState) :
    ReadsOrFails (reading · state stack name)
      (openTokens stack ++ separatorOf stack ++ named name) token
      fun position => (reading position state stack name).push frame newState := by
  by_cases hlt : stack.length < JSON_MAX_HEIGHT
  · refine .inr ⟨newState, _, none, hnew, ?_, fun _ => push_reading stack hlt hempty newState, ?_⟩
    · rw [closedHeight, hzero, closedHeight_eq]
      exact Nat.max_le.mpr ⟨hheight, hlt⟩
    · rw [hread, openTokens, hopened]
  · exact .inl ⟨_, fun _ => push_reading_fail hlt frame newState⟩

/-- What a token does where a value is expected. -/
theorem Nested.parseValue (h : Nested (⟨frame, nm⟩ :: outer)) (name : Option CStr)
    (hname : NameFits (⟨frame, nm⟩ :: outer) name)
    (hheight : closedHeight 0 (⟨frame, nm⟩ :: outer) ≤ JSON_MAX_HEIGHT)
    (state : ParseState) (token : Token ρ) :
    ReadsOrFails (reading · state (⟨frame, nm⟩ :: outer) name)
      (openTokens (⟨frame, nm⟩ :: outer) ++ separatorOf (⟨frame, nm⟩ :: outer) ++ named name) token
      fun position =>
        (reading position state (⟨frame, nm⟩ :: outer) name).parseValue token frame.next := by
  have hscalar (value : Json ρ) (hvalue : scalarOf token = some value) :
      HasRead
        (openTokens (⟨frame, nm⟩ :: outer) ++ separatorOf (⟨frame, nm⟩ :: outer) ++ named name ++
          [token])
        fun position =>
          { (reading position state (⟨frame, nm⟩ :: outer) name).putValue value with
            parseState := frame.next } := by
    obtain ⟨htokens, hresolve, hzero⟩ := tokens_of_scalarOf hvalue
    refine ⟨frame.next, _, none, fits_add h hname value, ?_, ?_, ?_⟩
    · rw [closedHeight_add hname, hzero]
      exact hheight
    · intro position
      rw [← putValue_reading, hresolve]
    · rw [readTokens_next, openTokens_add hname, htokens]
  cases token with
  | beginObject =>
    exact push_reads hheight rfl rfl rfl (.objectInit (.push (.inr h) hname _)) rfl state
  | beginArray =>
    exact push_reads hheight rfl rfl rfl (.arrayInit (.push (.inr h) hname _)) rfl state
  | endObject => exact .inl ⟨_, fun _ => rfl⟩
  | endArray => exact .inl ⟨_, fun _ => rfl⟩
  | nameSeparator => exact .inl ⟨_, fun _ => rfl⟩
  | valueSeparator => exact .inl ⟨_, fun _ => rfl⟩
  | false => exact .inr (hscalar _ rfl)
  | null => exact .inr (hscalar _ rfl)
  | true => exact .inr (hscalar _ rfl)
  | integer i => exact .inr (hscalar _ rfl)
  | real x => exact .inr (hscalar _ rfl)
  | string s => exact .inr (hscalar _ rfl)

/-- THE STEP: in every state, a token is read or an error is reported. -/
theorem Fits.dispatch (h : Fits state stack name)
    (hheight : closedHeight 0 stack ≤ JSON_MAX_HEIGHT) (token : Token ρ) :
    ReadsOrFails (reading · state stack name) (readTokens stack name state) token
      fun position => (reading position state stack name).dispatch token := by
  cases h with
  | start =>
    cases token with
    | beginObject => exact push_reads hheight rfl rfl rfl (.objectInit (.outermost _)) rfl .start
    | beginArray => exact push_reads hheight rfl rfl rfl (.arrayInit (.outermost _)) rfl .start
    | _ => exact .inl ⟨_, fun _ => rfl⟩
  | «end» frame => exact .inl ⟨_, fun _ => rfl⟩
  | objectInit h =>
    cases token with
    | endObject => exact .inr (h.close hheight .objectInit)
    | string s =>
      refine .inr ⟨.objectColon, _, some s, .objectColon s h, hheight, fun _ => rfl, ?_⟩
      simp [readTokens, separatorOf, Frame.separator]
    | _ => exact .inl ⟨_, fun _ => rfl⟩
  | objectName hne h =>
    cases token with
    | string s =>
      refine .inr ⟨.objectColon, _, some s, .objectColon s h, hheight, fun _ => rfl, ?_⟩
      simp [readTokens, separatorOf, Frame.separator, hne]
    | _ => exact .inl ⟨_, fun _ => rfl⟩
  | objectColon name h =>
    cases token with
    | nameSeparator =>
      refine .inr ⟨.objectValue, _, some name, .objectValue name h, hheight, fun _ => rfl, ?_⟩
      simp [readTokens, named]
    | _ => exact .inl ⟨_, fun _ => rfl⟩
  | objectValue name h =>
    exact h.parseValue (some name) rfl hheight .objectValue token
  | objectNext hne h =>
    cases token with
    | valueSeparator =>
      exact .inr ⟨.objectName, _, none, .objectName hne h, hheight, fun _ => rfl, rfl⟩
    | endObject => exact .inr (h.close hheight .objectNext)
    | _ => exact .inl ⟨_, fun _ => rfl⟩
  | arrayInit h =>
    have hvalue := h.parseValue none rfl hheight .arrayInit token
    simp only [separatorOf, Frame.separator, List.isEmpty_nil, if_true, named, List.append_nil]
      at hvalue
    cases token with
    | endArray => exact .inr (h.close hheight .arrayInit)
    | _ => exact hvalue
  | arrayValue hne h =>
    have hvalue := h.parseValue none rfl hheight .arrayValue token
    simp only [separatorOf, Frame.separator, List.isEmpty_iff, hne, if_false, named,
      List.append_nil] at hvalue
    exact hvalue
  | arrayNext hne h =>
    cases token with
    | valueSeparator =>
      exact .inr ⟨.arrayValue, _, none, .arrayValue hne h, hheight, fun _ => rfl, rfl⟩
    | endArray => exact .inr (h.close hheight .arrayNext)
    | _ => exact .inl ⟨_, fun _ => rfl⟩

end

end JsonParser

end LogCollector
