import LogCollector.Json.Lexer

/-!
# The JSON parser

`json_from_string` feeds its text to a parser one byte at a time. The lexer is
a state machine that accumulates a token, and each finished token drives a
second machine over a stack of containers under construction. A byte that ends
a number or a keyword belongs to the next token: `json_lex_input` answers
`false` and the feeding loop offers the byte again.

A container is attached to the one around it when it is complete. The source
attaches it, empty, when it is opened and completes it in place; nothing reads
the outer container in between.
-/

namespace LogCollector

/-- `enum json_lex_state`. -/
inductive LexState
  | start
  | number
  | keyword
  | string
  | escape
deriving DecidableEq

/-- `enum json_parse_state`. -/
inductive ParseState
  | start
  | end
  | objectInit
  | objectName
  | objectColon
  | objectValue
  | objectNext
  | arrayInit
  | arrayValue
  | arrayNext
deriving DecidableEq

/-- A container under construction. -/
inductive Frame (ρ : Type)
  | object (members : List (CStr × Json ρ))
  | array (elems : List (Json ρ))

variable {ρ : Type}

def Frame.toJson : Frame ρ → Json ρ
  | .object members => .object members
  | .array elems => .array elems

/-- The state in which the parser goes on after a value in this container. -/
def Frame.next : Frame ρ → ParseState
  | .object _ => .objectNext
  | .array _ => .arrayNext

/-- `struct json_parser_node`, with the member name its container has in the
object around it. -/
structure ParserNode (ρ : Type) where
  frame : Frame ρ
  name : Option CStr

/-- Where the parser is in its input, for messages. The counters are of type `int`: a string of
fewer than `2 ^ 31` bytes overflows none of them. -/
structure Position where
  lineNumber : Nat
  columnNumber : Nat
  byteNumber : Nat

/-- `struct json_parser`. -/
structure JsonParser (ρ : Type) where
  /-- `flags & JSPF_TRAILER`. -/
  trailer : Bool
  lexState : LexState
  buffer : List UInt8
  position : Position
  parseState : ParseState
  stack : List (ParserNode ρ)
  memberName : Option CStr
  done : Bool
  error : Option CStr

/-- `JSON_MAX_HEIGHT`. -/
def JSON_MAX_HEIGHT : Nat := 1000

namespace JsonParser

/-- `json_parser_create`. -/
def create (trailer : Bool) : JsonParser ρ where
  trailer
  lexState := .start
  buffer := []
  position := ⟨0, 0, 0⟩
  parseState := .start
  stack := []
  memberName := none
  done := false
  error := none

/-- `json_error`: the first error counts. -/
def fail (p : JsonParser ρ) (message : CStr) : JsonParser ρ :=
  if p.error.isNone then
    { p with
      error := some (.lit "line " ++ .ofInt p.position.lineNumber ++ .lit ", column " ++
        .ofInt p.position.columnNumber ++ .lit ", byte " ++ .ofInt p.position.byteNumber ++
        .lit ": " ++ message)
      done := true }
  else p

/-- A value put into a container, under `name` if it is an object: replacing the value of that
name, or behind the members that are there. -/
def putInto (frame : Frame ρ) (name : Option CStr) (value : Json ρ) : Frame ρ :=
  match frame with
  | .object members =>
    match name with
    | some name => .object (Lib.Assoc.put members name value)
    -- never: a value is read in an object only after a name
    | none => .object members
  | .array elems => .array (elems ++ [value])

/-- `json_parser_put_value`. -/
def putValue (p : JsonParser ρ) (value : Json ρ) : JsonParser ρ :=
  match p.stack with
  | [] => p
  | node :: stack =>
    { p with
      stack := { node with frame := putInto node.frame p.memberName value } :: stack
      memberName := none }

/-- `json_parser_push`. -/
def push (p : JsonParser ρ) (frame : Frame ρ) (newState : ParseState) : JsonParser ρ :=
  if p.stack.length < JSON_MAX_HEIGHT then
    { p with stack := ⟨frame, p.memberName⟩ :: p.stack, memberName := none, parseState := newState }
  else p.fail (.lit "input exceeds maximum nesting depth 1000")

/-- `json_parser_push_object`. -/
def pushObject (p : JsonParser ρ) : JsonParser ρ := p.push (.object []) .objectInit

/-- `json_parser_push_array`. -/
def pushArray (p : JsonParser ρ) : JsonParser ρ := p.push (.array []) .arrayInit

/-- `json_parser_pop`. -/
def pop (p : JsonParser ρ) : JsonParser ρ :=
  match p.stack with
  | [] => p
  | [_] => { p with parseState := .end, done := p.done || !p.trailer }
  | node :: parent :: stack =>
    { p with
      stack := { parent with frame := putInto parent.frame node.name node.frame.toJson } :: stack
      parseState := parent.frame.next }

/-- The value of a token that is one. -/
def scalarOf : Token ρ → Option (Json ρ)
  | .false => some (.boolean false)
  | .null => some .null
  | .true => some (.boolean true)
  | .integer i => some (.integer i)
  | .real x => some (.real x)
  | .string s => some (.string s)
  | .beginObject | .endObject | .beginArray | .endArray | .nameSeparator | .valueSeparator => none

/-- `json_parse_value`. -/
def parseValue (p : JsonParser ρ) (token : Token ρ) (nextState : ParseState) : JsonParser ρ :=
  match token with
  | .beginObject => p.pushObject
  | .beginArray => p.pushArray
  | token =>
    match scalarOf token with
    | some value => { p.putValue value with parseState := nextState }
    | none => p.fail (.lit "syntax error expecting value")

/-- The case analysis of `json_parser_input` on the parse state. -/
def dispatch (p : JsonParser ρ) (token : Token ρ) : JsonParser ρ :=
  match p.parseState, token with
  | .start, .beginObject => p.pushObject
  | .start, .beginArray => p.pushArray
  | .start, _ => p.fail (.lit "syntax error at beginning of input")
  | .end, _ => p.fail (.lit "trailing garbage at end of input")
  | .objectInit, .endObject => p.pop
  | .objectInit, .string s | .objectName, .string s =>
    { p with memberName := some s, parseState := .objectColon }
  | .objectInit, _ | .objectName, _ =>
    p.fail (.lit "syntax error parsing object expecting string")
  | .objectColon, .nameSeparator => { p with parseState := .objectValue }
  | .objectColon, _ => p.fail (.lit "syntax error parsing object expecting ':'")
  | .objectValue, token => p.parseValue token .objectNext
  | .objectNext, .valueSeparator => { p with parseState := .objectName }
  | .objectNext, .endObject => p.pop
  | .objectNext, _ => p.fail (.lit "syntax error expecting '\x7d' or ','")
  | .arrayInit, .endArray => p.pop
  | .arrayInit, token | .arrayValue, token => p.parseValue token .arrayNext
  | .arrayNext, .valueSeparator => { p with parseState := .arrayValue }
  | .arrayNext, .endArray => p.pop
  | .arrayNext, _ => p.fail (.lit "syntax error expecting ']' or ','")

/-- `json_parser_input`. -/
def input (p : JsonParser ρ) (token : Token ρ) : JsonParser ρ :=
  { p.dispatch token with lexState := .start, buffer := [] }

/-- A finished token, or the error its text has. -/
def inputResult (p : JsonParser ρ) : Except CStr (Token ρ) → JsonParser ρ
  | .ok token => p.input token
  | .error message => p.fail message

/-- `isalpha`. -/
def isalpha (c : UInt8) : Bool := (0x41 ≤ c && c ≤ 0x5a) || (0x61 ≤ c && c ≤ 0x7a)

/-- `isprint`. -/
def isprint (c : UInt8) : Bool := 0x20 ≤ c && c ≤ 0x7e

/-- `strchr(".0123456789eE-+", c) != NULL`. -/
def inNumber (c : UInt8) : Bool :=
  c = 0 ∨
    c ∈ [0x2e, 0x30, 0x31, 0x32, 0x33, 0x34, 0x35, 0x36, 0x37, 0x38, 0x39, 0x65, 0x45, 0x2d, 0x2b]

/-- `ds_put_char`, in a lexer state. -/
def accumulate (p : JsonParser ρ) (c : UInt8) (lexState : LexState) : JsonParser ρ :=
  { p with lexState, buffer := p.buffer ++ [c] }

/-- The token a punctuation byte is. -/
def punctuation (c : UInt8) : Option (Token ρ) :=
  if c = 0x5b then some .beginArray
  else if c = 0x7b then some .beginObject
  else if c = 0x5d then some .endArray
  else if c = 0x7d then some .endObject
  else if c = 0x3a then some .nameSeparator
  else if c = 0x2c then some .valueSeparator
  else none

/-- `%04x` and `%04X` of a byte, whose digits differ from `0xa` on. -/
def hex4 (upper : Bool) (c : UInt8) : List UInt8 :=
  let digit (n : Nat) : UInt8 := if upper && n ≥ 10 then 0x37 + UInt8.ofNat n else hexit n
  [0x30, 0x30, digit (c.toNat / 16), digit (c.toNat % 16)]

/-- `json_lex_input`; `false` where the byte is left for the next token. -/
def lexInput (reals : Reals ρ) (p : JsonParser ρ) (c : UInt8) : JsonParser ρ × Bool :=
  match p.lexState with
  | .start =>
    if c = 0x20 ∨ c = 0x09 ∨ c = 0x0a ∨ c = 0x0d then (p, true)
    else if 0x61 ≤ c ∧ c ≤ 0x7a then (p.accumulate c .keyword, true)
    else match punctuation c with
      | some token => (p.input token, true)
      | none =>
        if c = 0x2d ∨ isdigit c then (p.accumulate c .number, true)
        else if c = 0x22 then ({ p with lexState := .string }, true)
        else if isprint c then
          (p.fail (.lit "invalid character '" ++ .ofBytes [c] ++ .lit "'"), true)
        else (p.fail (.lit "invalid character U+" ++ .ofBytes (hex4 false c)), true)
  | .keyword =>
    if isalpha c then (p.accumulate c .keyword, true)
    else (p.inputResult (lexKeyword (.ofBytes p.buffer)), false)
  | .number =>
    if inNumber c then (p.accumulate c .number, true)
    else (p.inputResult (lexNumber reals (.ofBytes p.buffer)), false)
  | .string =>
    if c = 0x5c then (p.accumulate c .escape, true)
    else if c = 0x22 then (p.inputResult (lexString (.ofBytes p.buffer)), true)
    else if c < 0x20 then
      (p.fail (.lit "U+" ++ .ofBytes (hex4 true c) ++ .lit " must be escaped in quoted string"),
        true)
    else (p.accumulate c .string, true)
  | .escape => (p.accumulate c .string, true)

/-- The counters after a consumed byte. -/
def advance (p : JsonParser ρ) (c : UInt8) : JsonParser ρ :=
  { p with
    position :=
      if c = 0x0a then ⟨p.position.lineNumber + 1, 0, p.position.byteNumber + 1⟩
      else ⟨p.position.lineNumber, p.position.columnNumber + 1, p.position.byteNumber + 1⟩ }

/-- The loop of `json_parser_feed` on one byte, for at most `fuel` rounds. -/
def offer (reals : Reals ρ) : Nat → JsonParser ρ → UInt8 → JsonParser ρ
  | 0, p, _ => p
  | fuel + 1, p, c =>
    if p.done then p
    else match p.lexInput reals c with
      | (p, true) => p.advance c
      | (p, false) => offer reals fuel p c

/-- `json_parser_feed`. Two rounds a byte are enough (`Settled.feed_eq`). -/
def feed (reals : Reals ρ) (p : JsonParser ρ) (input : List UInt8) : JsonParser ρ :=
  input.foldl (offer reals 2) p

/-- The last step of the lexer at the end of the input. -/
def finishLexing (reals : Reals ρ) (p : JsonParser ρ) : JsonParser ρ :=
  match p.lexState with
  | .start => p
  | .string | .escape => p.fail (.lit "unexpected end of input in quoted string")
  | .number | .keyword => (p.lexInput reals 0x20).1

/-- `json_parser_finish`; `none` where an assertion fails. -/
def finish (reals : Reals ρ) (p : JsonParser ρ) : Option (Json ρ) :=
  let p := p.finishLexing reals
  let p :=
    match p.parseState with
    | .start => p.fail (.lit "empty input stream")
    | .end => p
    | _ => p.fail (.lit "unexpected end of input")
  match p.error with
  | some message => some (.string message)
  | none =>
    match p.stack with
    | [node] => some node.frame.toJson
    | _ => none

end JsonParser

/-- `json_from_string`. -/
def jsonFromString (reals : Reals ρ) (string : CStr) : Option (Json ρ) :=
  ((JsonParser.create true).feed reals string.bytes).finish reals

namespace JsonParser

/-! ## Two rounds a byte

A byte that is left for the next token is offered again to a parser that is
between tokens, and such a parser takes every byte. The only other way to go
around the loop would be an error that does not stop the parser. -/

/-- An error stops the parser. -/
def Settled (p : JsonParser ρ) : Prop := p.error.isSome → p.done

/-- Between tokens, every byte is taken. -/
theorem lexInput_start {reals : Reals ρ} {p : JsonParser ρ} (h : p.lexState = .start) (c : UInt8) :
    (p.lexInput reals c).2 = true := by
  simp only [lexInput, h]
  split
  · rfl
  split
  · rfl
  split
  · rfl
  split_ifs <;> rfl

theorem offer_done {reals : Reals ρ} {p : JsonParser ρ} (h : p.done) (fuel : Nat) (c : UInt8) :
    p.offer reals fuel c = p := by
  cases fuel with
  | zero => rfl
  | succ fuel => rw [offer, if_pos h]

theorem offer_start {reals : Reals ρ} {p : JsonParser ρ} (h : p.lexState = .start) (fuel : Nat)
    (c : UInt8) : p.offer reals (fuel + 1) c = p.offer reals 1 c := by
  have htaken : (p.lexInput reals c).2 = true := lexInput_start h c
  simp only [offer]
  generalize p.lexInput reals c = result at htaken ⊢
  obtain ⟨p', taken⟩ := result
  cases taken with
  | false => cases htaken
  | true => rfl

section

variable {p : JsonParser ρ}

theorem Settled.fail (h : p.Settled) (message : CStr) : (p.fail message).Settled := by
  unfold JsonParser.fail
  split
  · exact fun _ => rfl
  · exact h

/-- A parser that is not done has met no error, so that the next one stops it. -/
theorem Settled.done_fail (h : p.Settled) (message : CStr) : (p.fail message).done := by
  unfold JsonParser.fail
  split
  · rfl
  · next herror => exact h (Option.isSome_iff_ne_none.mpr (by simpa using herror))

theorem Settled.push (h : p.Settled) (frame : Frame ρ) (newState : ParseState) :
    (p.push frame newState).Settled := by
  unfold JsonParser.push
  split
  · exact h
  · exact h.fail _

theorem Settled.pop (h : p.Settled) : p.pop.Settled := by
  unfold JsonParser.pop
  split
  · exact h
  · exact fun herror => by simp only [h herror, Bool.true_or]
  · exact h

theorem Settled.putValue (h : p.Settled) (value : Json ρ) : (p.putValue value).Settled := by
  unfold JsonParser.putValue
  split
  · exact h
  · exact h

theorem Settled.parseValue (h : p.Settled) (token : Token ρ) (nextState : ParseState) :
    (p.parseValue token nextState).Settled := by
  unfold JsonParser.parseValue
  split
  · exact h.push _ _
  · exact h.push _ _
  · split
    · exact h.putValue _
    · exact h.fail _

theorem Settled.dispatch (h : p.Settled) (token : Token ρ) : (p.dispatch token).Settled := by
  unfold JsonParser.dispatch
  split <;> first
    | exact h
    | exact h.fail _
    | exact h.push _ _
    | exact h.pop
    | exact h.parseValue _ _

theorem Settled.inputResult (h : p.Settled) (r : Except CStr (Token ρ)) :
    (p.inputResult r).Settled := by
  cases r with
  | ok token => exact h.dispatch token
  | error message => exact h.fail message

theorem Settled.lexInput (h : p.Settled) (reals : Reals ρ) (c : UInt8) :
    (p.lexInput reals c).1.Settled := by
  cases hstate : p.lexState with
  | start =>
    simp only [JsonParser.lexInput, hstate]
    split
    · exact h
    split
    · exact h
    split
    · next token _ => exact h.dispatch token
    split
    · exact h
    split
    · exact h
    split
    · exact h.fail _
    · exact h.fail _
  | keyword =>
    simp only [JsonParser.lexInput, hstate]
    split
    · exact h
    · exact h.inputResult _
  | number =>
    simp only [JsonParser.lexInput, hstate]
    split
    · exact h
    · exact h.inputResult _
  | string =>
    simp only [JsonParser.lexInput, hstate]
    split
    · exact h
    split
    · exact h.inputResult _
    split
    · exact h.fail _
    · exact h
  | escape =>
    simp only [JsonParser.lexInput, hstate]
    exact h

theorem Settled.offer (reals : Reals ρ) (c : UInt8) :
    ∀ (fuel : Nat) {p : JsonParser ρ}, p.Settled → (p.offer reals fuel c).Settled
  | 0, _, h => h
  | fuel + 1, p, h => by
    have hlex := h.lexInput reals c
    rw [JsonParser.offer]
    split
    · exact h
    · generalize p.lexInput reals c = result at hlex ⊢
      obtain ⟨p', taken⟩ := result
      cases taken with
      | false => exact Settled.offer reals c fuel hlex
      | true => exact hlex

/-- A byte that is not taken leaves the parser between tokens, or stops it. -/
theorem Settled.lexInput_false {reals : Reals ρ} {p' : JsonParser ρ} {c : UInt8} (h : p.Settled)
    (hlex : p.lexInput reals c = (p', false)) : p'.lexState = .start ∨ p'.done := by
  have result (r : Except CStr (Token ρ)) :
      (p.inputResult r).lexState = .start ∨ (p.inputResult r).done := by
    cases r with
    | ok token => exact .inl rfl
    | error message => exact .inr (h.done_fail message)
  have ended {b : Bool} {q : JsonParser ρ} {r : Except CStr (Token ρ)}
      (hlex : (if b then (q, true) else (p.inputResult r, false)) = (p', false)) :
      p'.lexState = .start ∨ p'.done := by
    cases b with
    | false =>
      cases hlex
      exact result r
    | true => cases hlex
  cases hstate : p.lexState with
  | start =>
    have : (p.lexInput reals c).2 = true := lexInput_start hstate c
    rw [hlex] at this
    cases this
  | keyword =>
    simp only [JsonParser.lexInput, hstate] at hlex
    exact ended hlex
  | number =>
    simp only [JsonParser.lexInput, hstate] at hlex
    exact ended hlex
  | string =>
    simp only [JsonParser.lexInput, hstate] at hlex
    split_ifs at hlex <;> cases hlex
  | escape =>
    simp only [JsonParser.lexInput, hstate] at hlex
    cases hlex

/-- More than two rounds a byte change nothing. -/
theorem Settled.offer_add_two (h : p.Settled) (reals : Reals ρ) (fuel : Nat) (c : UInt8) :
    p.offer reals (fuel + 2) c = p.offer reals 2 c := by
  have hfalse (p' : JsonParser ρ) (hlex : p.lexInput reals c = (p', false)) :
      p'.lexState = .start ∨ p'.done := h.lexInput_false hlex
  rw [JsonParser.offer, JsonParser.offer]
  generalize p.lexInput reals c = result at hfalse ⊢
  obtain ⟨p', taken⟩ := result
  cases taken with
  | true => rfl
  | false =>
    congr 1
    rcases hfalse p' rfl with hstart | hdone
    · exact offer_start hstart fuel c
    · simp only [offer_done hdone]

end

/-- `json_parser_feed` loops until the byte is taken: any number of rounds from
two on is the same function. -/
theorem Settled.feed_eq (reals : Reals ρ) (fuel : Nat) :
    ∀ (input : List UInt8) {p : JsonParser ρ}, p.Settled →
      p.feed reals input = input.foldl (JsonParser.offer reals (fuel + 2)) p
  | [], _, _ => rfl
  | c :: input, p, h => by
    have htail := Settled.feed_eq reals fuel input (h.offer reals c (fuel + 2))
    rw [feed, List.foldl_cons, ← h.offer_add_two reals fuel c]
    exact htail

end JsonParser

end LogCollector
