import LogCollector.Json.Acceptance
import LogCollector.Json.Spelling

/-!
# From bytes to tokens

`json_parser_feed` gives its input to the lexer one byte at a time. Either the bytes are spelled by
tokens, and the parser is where these lead it, or it has reported an error. Wherever it is, its
counters are those of the bytes before it.
-/

namespace LogCollector

variable {ρ : Type}

/-! ## Where the parser is -/

/-- The counters after a byte. -/
def Position.step (position : Position) (c : UInt8) : Position :=
  if c = 0x0a then ⟨position.lineNumber + 1, 0, position.byteNumber + 1⟩
  else ⟨position.lineNumber, position.columnNumber + 1, position.byteNumber + 1⟩

/-- The counters after some bytes. -/
def Position.after (position : Position) (bytes : List UInt8) : Position :=
  bytes.foldl Position.step position

theorem Position.after_append (position : Position) (as bs : List UInt8) :
    position.after (as ++ bs) = (position.after as).after bs :=
  List.foldl_append

/-- The line is the number of newlines, the column what stands after the last of them, and the
byte the number of all of them. -/
theorem Position.after_start (bytes : List UInt8) :
    (⟨0, 0, 0⟩ : Position).after bytes =
      ⟨bytes.count 0x0a, (bytes.reverse.takeWhile (· != 0x0a)).length, bytes.length⟩ := by
  induction bytes using List.reverseRecOn with
  | nil => rfl
  | append_singleton bytes c ih =>
    rw [after_append, ih, List.reverse_append, List.reverse_singleton, List.singleton_append,
      List.length_append, List.length_singleton, List.count_append]
    change Position.step _ c = _
    by_cases hc : c = 0x0a
    · subst hc
      rfl
    · have hne : (c != 0x0a) = true := bne_iff_ne.mpr hc
      rw [Position.step, if_neg hc, List.takeWhile_cons, if_pos hne, List.length_cons,
        List.count_singleton, if_neg (by simpa using hc)]
      rfl

/-- What `json_error` writes before its message. -/
def located (position : Position) (message : CStr) : CStr :=
  .lit "line " ++ .ofInt position.lineNumber ++ .lit ", column " ++ .ofInt position.columnNumber ++
    .lit ", byte " ++ .ofInt position.byteNumber ++ .lit ": " ++ message

namespace JsonParser
/-! ## One token -/

section

variable {reals : Reals ρ} {p : JsonParser ρ} {tokens : List (Token ρ)} {c : UInt8}
  {word raw after : List UInt8} {state : LexState}

theorem feed_append (reals : Reals ρ) (p : JsonParser ρ) (as bs : List UInt8) :
    p.feed reals (as ++ bs) = (p.feed reals as).feed reals bs :=
  List.foldl_append

/-- A parser that is done stays as it is. -/
theorem feed_done (reals : Reals ρ) (h : p.done) (bytes : List UInt8) : p.feed reals bytes = p := by
  induction bytes with
  | nil => rfl
  | cons c bytes ih =>
    rw [feed, List.foldl_cons, offer_done h]
    exact ih

/-- A byte that is taken. -/
theorem feed_taken {q : JsonParser ρ} (hdone : p.done = false) (h : p.lexInput reals c = (q, true))
    (bytes : List UInt8) :
    p.feed reals (c :: bytes) = (q.moved (q.position.step c)).feed reals bytes := by
  rw [feed, List.foldl_cons, offer, if_neg (by rw [hdone]; exact Bool.false_ne_true), h]
  rfl

/-- Bytes inside a token. -/
theorem feed_inside (reals : Reals ρ) {bytes : List UInt8} (hbytes : ∀ c ∈ bytes, staysIn state c) :
    ∀ (p : JsonParser ρ) (buffer : List UInt8), p.done = false →
      (p.inside state buffer).feed reals bytes =
        (p.inside state (buffer ++ bytes)).moved (p.position.after bytes) := by
  induction bytes with
  | nil =>
    intro p buffer _
    rw [List.append_nil]
    rfl
  | cons c bytes ih =>
    intro p buffer hdone
    have htail := ih (fun c hc => hbytes c (List.mem_cons_of_mem _ hc))
      (p.moved (p.position.step c))
      (buffer ++ [c]) hdone
    rw [List.append_assoc] at htail
    exact (feed_taken (p := p.inside state buffer) hdone
      (lexInput_inside reals p (hbytes c List.mem_cons_self) buffer) bytes).trans htail

/-- Bytes between quotes. -/
theorem feed_quoted (reals : Reals ρ) (h : Quoted raw) :
    ∀ (p : JsonParser ρ) (buffer : List UInt8), p.done = false →
      (p.inside .string buffer).feed reals raw =
        (p.inside .string (buffer ++ raw)).moved (p.position.after raw) := by
  induction h with
  | nil =>
    intro p buffer _
    rw [List.append_nil]
    rfl
  | plain c raw hc _ ih =>
    intro p buffer hdone
    have htail := ih (p.moved (p.position.step c)) (buffer ++ [c]) hdone
    rw [List.append_assoc] at htail
    exact (feed_taken (p := p.inside .string buffer) hdone (lexInput_inside reals p hc buffer)
      raw).trans htail
  | escape c raw _ ih =>
    intro p buffer hdone
    have htail := ih (p.moved ((p.position.step 0x5c).step c)) (buffer ++ [0x5c, c]) hdone
    rw [List.append_assoc] at htail
    have hbackslash : (p.inside .string buffer).lexInput reals 0x5c =
        (p.inside .escape (buffer ++ [0x5c]), true) := rfl
    have hescaped (p : JsonParser ρ) : (p.inside .escape (buffer ++ [0x5c])).lexInput reals c =
        (p.inside .string (buffer ++ [0x5c, c]), true) := by
      rw [show buffer ++ [0x5c, c] = buffer ++ [0x5c] ++ [c] from by simp]
      rfl
    refine (feed_taken (p := p.inside .string buffer) hdone hbackslash (c :: raw)).trans ?_
    exact (feed_taken (p := (p.moved (p.position.step 0x5c)).inside .escape (buffer ++ [0x5c]))
      hdone (hescaped _) raw).trans htail

theorem fail_position (p : JsonParser ρ) (message : CStr) :
    (p.fail message).position = p.position := by
  rw [fail]
  split <;> rfl

theorem fail_lexState (p : JsonParser ρ) (message : CStr) :
    (p.fail message).lexState = p.lexState := by
  rw [fail]
  split <;> rfl

theorem fail_buffer (p : JsonParser ρ) (message : CStr) : (p.fail message).buffer = p.buffer := by
  rw [fail]
  split <;> rfl

theorem fail_fail (p : JsonParser ρ) (message : CStr) :
    (p.fail message).fail message = p.fail message := by
  have herror : (p.fail message).error.isSome := by
    by_cases hnone : p.error.isNone
    · rw [fail, if_pos hnone]
      rfl
    · rw [fail, if_neg hnone]
      simpa [Option.isSome_iff_ne_none] using hnone
  generalize p.fail message = q at herror
  rw [fail, if_neg (by simpa using Option.isSome_iff_ne_none.mp herror)]

/-- A parser between tokens that has met no error. -/
structure Between (p : JsonParser ρ) : Prop extends Ready p where
  error : p.error = none

theorem HasRead.between (h : HasRead tokens (given tokens)) (position : Position) :
    Between (given tokens position) := by
  obtain ⟨state, stack, name, -, -, hp, -⟩ := h
  rw [hp]
  exact ⟨⟨rfl, rfl, rfl⟩, rfl⟩

theorem HasRead.moved (h : HasRead tokens (given tokens)) (position position' : Position) :
    (given tokens position).moved position' = given tokens position' := by
  obtain ⟨state, stack, name, -, -, hp, -⟩ := h
  rw [hp, hp]
  rfl

/-- Tokens do not move the parser. -/
theorem position_given (tokens : List (Token ρ)) (position : Position) :
    (given tokens position).position = position := by
  induction tokens using List.reverseRecOn with
  | nil => rfl
  | append_singleton tokens token ih =>
    rcases given_reads tokens with hread | hfailed
    · rcases (hread.step token).2 with ⟨message, hfail⟩ | ⟨state, stack, name, -, -, hp, -⟩
      · rw [hfail, fail_position, ih]
      · rw [hp]
        rfl
    · rw [given_append, inputs_done (hfailed position).2, ih]

/-- What a keyword or a number is read as, at the byte that ends it. -/
theorem Word.lexInput {result : Except CStr (Token ρ)} (h : Word reals state word result)
    (hstate : p.lexState = state) (hbuffer : p.buffer = word) (hends : staysIn state c = false) :
    p.lexInput reals c = (p.inputResult result, false) := by
  cases h with
  | keyword first rest hfirst hrest =>
    rw [staysIn] at hends
    simp only [JsonParser.lexInput, hstate, hends, hbuffer, Bool.false_eq_true, if_false]
  | number first rest hfirst hrest =>
    rw [staysIn] at hends
    simp only [JsonParser.lexInput, hstate, hends, hbuffer, Bool.false_eq_true, if_false]

theorem Word.finishLexing {result : Except CStr (Token ρ)} (h : Word reals state word result)
    (hstate : p.lexState = state) (hbuffer : p.buffer = word) :
    p.finishLexing reals = p.inputResult result := by
  have hspace (hends : staysIn state 0x20 = false) := h.lexInput hstate hbuffer hends
  cases h with
  | keyword =>
    rw [JsonParser.finishLexing, hstate]
    exact congrArg Prod.fst (hspace rfl)
  | number =>
    rw [JsonParser.finishLexing, hstate]
    exact congrArg Prod.fst (hspace rfl)

theorem Word.opens {result : Except CStr (Token ρ)} (h : Word reals state word result) :
    ∃ first rest, word = first :: rest ∧ (∀ c ∈ rest, staysIn state c) ∧
      ∀ p : JsonParser ρ, p.lexState = .start →
        p.lexInput reals first = (p.accumulate first state, true) := by
  cases h with
  | keyword first rest hfirst hrest =>
    refine ⟨first, rest, rfl, hrest, ?_⟩
    intro p hstart
    have hspace : ¬(first = 0x20 ∨ first = 0x09 ∨ first = 0x0a ∨ first = 0x0d) := by
      rintro (rfl | rfl | rfl | rfl) <;> exact absurd hfirst.1 (by decide)
    simp only [JsonParser.lexInput, hstart, if_neg hspace, if_pos hfirst]
  | number first rest hfirst hrest =>
    exact ⟨first, rest, rfl, hrest, fun p => lexInput_number hfirst⟩

/-- An error at a place in these bytes. -/
def Failed (position : Position) (bytes : List UInt8) (p : JsonParser ρ) : Prop :=
  ∃ (consumed : List UInt8) (message : CStr), consumed <+: bytes ∧
    p.error = some (located (position.after consumed) message)

theorem error_fail (h : p.error = none) (message : CStr) :
    (p.fail message).error = some (located p.position message) ∧ (p.fail message).done := by
  rw [fail, if_pos (by rw [h]; rfl)]
  exact ⟨rfl, rfl⟩

/-- The end of the input does not undo an error. -/
theorem finishLexing_error (h : p.error.isSome)
    (hstate : p.lexState ≠ .number ∧ p.lexState ≠ .keyword) :
    (p.finishLexing reals).error = p.error := by
  have hfail (message : CStr) : (p.fail message).error = p.error := by
    rw [fail, if_neg (by simpa using Option.isSome_iff_ne_none.mp h)]
  cases hp : p.lexState with
  | start => simp only [finishLexing, hp]
  | string => simp only [finishLexing, hp, hfail]
  | escape => simp only [finishLexing, hp, hfail]
  | number => exact absurd hp hstate.1
  | keyword => exact absurd hp hstate.2

/-- A keyword or a number with what comes after it, or at the end of the input. -/
theorem Between.feed_word {result : Except CStr (Token ρ)} (hp : Between p)
    (hword : Word reals state word result)
    (hends : ∀ c, after.head? = some c → staysIn state c = false) :
    (p.feed reals (word ++ after)).finishLexing reals =
      (((((p.inside state word).moved (p.position.after word)).inputResult result).feed reals
        after).finishLexing reals) := by
  obtain ⟨first, rest, rfl, hrest, hfirst⟩ := hword.opens
  have hopen : p.lexInput reals first = (p.inside state [first], true) := by
    rw [hfirst p hp.lexState, accumulate, hp.buffer]
    rfl
  have hbody : p.feed reals (first :: rest) =
      (p.inside state (first :: rest)).moved (p.position.after (first :: rest)) :=
    (feed_taken hp.done hopen rest).trans
      (feed_inside reals hrest (p.moved (p.position.step first)) [first] hp.done)
  rw [feed_append, hbody]
  generalize hq : (p.inside state (first :: rest)).moved (p.position.after (first :: rest)) = q
  have hstate : q.lexState = state := by
    rw [← hq]
    rfl
  have hbuffer : q.buffer = first :: rest := by
    rw [← hq]
    rfl
  have hdone : q.done = false := by
    rw [← hq]
    exact hp.done
  have herror : q.error = none := by
    rw [← hq]
    exact hp.error
  cases after with
  | nil =>
    change q.finishLexing reals = (q.inputResult result).finishLexing reals
    rw [hword.finishLexing hstate hbuffer]
    cases result with
    | ok token => rfl
    | error message =>
      -- the word is read again, and the first error counts
      change q.fail message = (q.fail message).finishLexing reals
      rw [hword.finishLexing (by rw [fail_lexState, hstate]) (by rw [fail_buffer, hbuffer])]
      exact (fail_fail q message).symm
  | cons c after =>
    have hlex := hword.lexInput hstate hbuffer (hends c rfl)
    have hsettled : Settled q := by
      intro h
      rw [herror] at h
      cases h
    have hoffer : q.offer reals 2 c = (q.inputResult result).offer reals 2 c := by
      rw [offer, if_neg (by rw [hdone]; exact Bool.false_ne_true), hlex]
      rcases hsettled.lexInput_false hlex with hstart | hdone'
      · exact (offer_start hstart 1 c).symm
      · exact (offer_done hdone' 1 c).trans (offer_done hdone' 2 c).symm
    rw [feed, List.foldl_cons, hoffer]
    rfl

theorem fail_inside (p : JsonParser ρ) (message : CStr) (state : LexState) (buffer : List UInt8) :
    (p.inside state buffer).fail message = (p.fail message).inside state buffer := by
  by_cases hnone : p.error.isNone
  · rw [fail, fail, if_pos (show (p.inside state buffer).error.isNone from hnone), if_pos hnone]
    rfl
  · rw [fail, fail, if_neg (show ¬(p.inside state buffer).error.isNone from hnone), if_neg hnone]

theorem push_inside (p : JsonParser ρ) (frame : Frame ρ) (newState : ParseState) (state : LexState)
    (buffer : List UInt8) :
    (p.inside state buffer).push frame newState = (p.push frame newState).inside state buffer := by
  by_cases hlt : p.stack.length < JSON_MAX_HEIGHT
  · rw [push, push, if_pos (show (p.inside state buffer).stack.length < _ from hlt), if_pos hlt]
    rfl
  · rw [push, push, if_neg (show ¬(p.inside state buffer).stack.length < _ from hlt), if_neg hlt,
      fail_inside]

theorem pop_inside (p : JsonParser ρ) (state : LexState) (buffer : List UInt8) :
    (p.inside state buffer).pop = p.pop.inside state buffer := by
  rcases hstack : p.stack with - | ⟨node, - | ⟨parent, stack⟩⟩ <;> simp only [pop, inside, hstack]

theorem parseValue_inside (p : JsonParser ρ) (token : Token ρ) (nextState : ParseState)
    (state : LexState) (buffer : List UInt8) :
    (p.inside state buffer).parseValue token nextState =
      (p.parseValue token nextState).inside state buffer := by
  have hput (value : Json ρ) :
      { (p.inside state buffer).putValue value with parseState := nextState } =
      ({ p.putValue value with parseState := nextState }).inside state buffer := by
    cases hstack : p.stack <;> simp only [putValue, inside, hstack]
  cases token with
  | beginObject => exact push_inside p _ _ state buffer
  | beginArray => exact push_inside p _ _ state buffer
  | endObject => exact fail_inside p _ state buffer
  | endArray => exact fail_inside p _ state buffer
  | nameSeparator => exact fail_inside p _ state buffer
  | valueSeparator => exact fail_inside p _ state buffer
  | _ => exact hput _

/-- The parser does not look at what was accumulated for a token. -/
theorem dispatch_inside (p : JsonParser ρ) (token : Token ρ) (state : LexState)
    (buffer : List UInt8) :
    (p.inside state buffer).dispatch token = (p.dispatch token).inside state buffer := by
  obtain ⟨trailer, lexState, buf, position, parseState, stack, memberName, done, error⟩ := p
  have hfail (message : CStr) := fail_inside ⟨trailer, lexState, buf, position, parseState, stack,
    memberName, done, error⟩ message state buffer
  have hvalue (token : Token ρ) (nextState : ParseState) := parseValue_inside ⟨trailer, lexState,
    buf, position, parseState, stack, memberName, done, error⟩ token nextState state buffer
  cases parseState with
  | start =>
    cases token with
    | beginObject => exact push_inside _ _ _ state buffer
    | beginArray => exact push_inside _ _ _ state buffer
    | _ => exact hfail _
  | «end» => exact hfail _
  | objectInit =>
    cases token with
    | endObject => exact pop_inside _ state buffer
    | string s => rfl
    | _ => exact hfail _
  | objectName =>
    cases token with
    | string s => rfl
    | _ => exact hfail _
  | objectColon =>
    cases token with
    | nameSeparator => rfl
    | _ => exact hfail _
  | objectValue => exact hvalue token .objectNext
  | objectNext =>
    cases token with
    | valueSeparator => rfl
    | endObject => exact pop_inside _ state buffer
    | _ => exact hfail _
  | arrayInit =>
    have hfirst := hvalue token .arrayNext
    cases token with
    | endArray => exact pop_inside _ state buffer
    | _ => exact hfirst
  | arrayValue => exact hvalue token .arrayNext
  | arrayNext =>
    cases token with
    | valueSeparator => rfl
    | endArray => exact pop_inside _ state buffer
    | _ => exact hfail _

/-- A token that the lexer has accumulated. -/
theorem HasRead.input (h : HasRead tokens (given tokens)) (token : Token ρ)
    (position position' : Position)
    (lexState : LexState) (buffer : List UInt8) :
    (((given tokens position).inside lexState buffer).moved position').input token =
      given (tokens ++ [token]) position' := by
  have hat : ((given tokens position).inside lexState buffer).moved position' =
      (given tokens position').inside lexState buffer := by
    rw [← h.moved position position']
    rfl
  have hsame : (given (tokens ++ [token]) position').inside .start [] =
      given (tokens ++ [token]) position' := by
    rcases (h.step token).2 with ⟨message, hfail⟩ | hread
    · have hbetween := (h.between position').toReady.inside
      rw [hfail, ← fail_inside, hbetween]
    · exact (hread.between position').toReady.inside
  rw [hat, JsonParser.input, dispatch_inside, ← (h.step token).1, ← hsame]
  rfl

/-- An error that a token causes is reported where the parser is. -/
theorem HasRead.fails {token : Token ρ} (h : HasRead tokens (given tokens))
    (hfail : ¬HasRead (tokens ++ [token]) (given (tokens ++ [token]))) (position : Position) :
    (∃ message, (given (tokens ++ [token]) position).error = some (located position message)) ∧
      (given (tokens ++ [token]) position).done ∧
      (given (tokens ++ [token]) position).lexState = .start := by
  obtain ⟨message, hmessage⟩ := (h.step token).2.resolve_right hfail
  have hbetween := h.between position
  have herror := error_fail hbetween.error message
  rw [position_given] at herror
  rw [hmessage]
  refine ⟨⟨message, herror.1⟩, herror.2, ?_⟩
  rw [fail, if_pos (by rw [hbetween.error]; rfl)]
  exact hbetween.lexState

/-- The quote that ends a string. -/
theorem lexInput_quote (hstate : p.lexState = .string) :
    p.lexInput reals 0x22 = (p.inputResult (lexString (.ofBytes p.buffer)), true) := by
  simp only [lexInput, hstate]
  rfl

/-- A punctuation byte is a token. -/
theorem lexInput_punctuation {token : Token ρ} (hstart : p.lexState = .start)
    (hc : punctuation c = some token) : p.lexInput reals c = (p.input token, true) := by
  have hspace : ¬(c = 0x20 ∨ c = 0x09 ∨ c = 0x0a ∨ c = 0x0d) := by
    rintro (rfl | rfl | rfl | rfl) <;> cases hc
  have hletter : ¬(0x61 ≤ c ∧ c ≤ 0x7a) := by
    rintro ⟨hge, hle⟩
    unfold punctuation at hc
    split_ifs at hc with h h h h h h <;> subst h
    all_goals revert hge hle; decide
  simp only [lexInput, hstart, if_neg hspace, if_neg hletter, hc]

/-- A parser that an error has stopped. -/
theorem finishLexing_feed_done (reals : Reals ρ) (hdone : p.done) (hstate : p.lexState = .start)
    (bytes : List UInt8) :
    (p.feed reals bytes).finishLexing reals = p := by
  rw [feed_done reals hdone]
  simp only [finishLexing, hstate]

/-- A quote and what comes after it. -/
theorem HasRead.feed_open (h : HasRead tokens (given tokens)) (hraw : Quoted raw)
    (position : Position) :
    (given tokens position).feed reals (0x22 :: raw) =
      ((given tokens position).inside .string raw).moved (position.after (0x22 :: raw)) := by
  have hbetween := h.between position
  have hquote : (given tokens position).lexInput reals 0x22 =
      ((given tokens position).inside .string [], true) := by
    rw [← hbetween.buffer]
    simp only [lexInput, hbetween.lexState]
    rfl
  have hbody := feed_quoted reals hraw ((given tokens position).moved (position.step 0x22)) []
    hbetween.done
  rw [feed_taken hbetween.done hquote, show ((given tokens position).inside .string []).position =
    (given tokens position).position from rfl, position_given]
  exact hbody

/-- The bytes of a token lead to where the parser is given it. -/
theorem HasRead.feed_spells {token : Token ρ} (h : HasRead tokens (given tokens))
    (hspells : Spells reals state token word)
    (hends : ∀ c, after.head? = some c → staysIn state c = false) (position : Position) :
    ∃ consumed, consumed <+: word ∧
      (((given tokens position).feed reals (word ++ after)).finishLexing reals) =
        ((((given (tokens ++ [token]) (position.after consumed)).moved
          (position.after word)).feed reals after).finishLexing reals) := by
  have hbetween := h.between position
  cases hspells with
  | @punctuation c _ hc =>
    have hinput : (given tokens position).input token = given (tokens ++ [token]) position := by
      rw [← h.input token position position .start [], hbetween.toReady.inside, h.moved]
    have hlex : (given tokens position).lexInput reals c =
        (given (tokens ++ [token]) position, true) := by
      rw [lexInput_punctuation hbetween.lexState hc, hinput]
    refine ⟨[], List.nil_prefix, ?_⟩
    rw [List.singleton_append, feed_taken hbetween.done hlex, position_given]
    rfl
  | @string raw _ hraw hlex =>
    have hclose : (((given tokens position).inside .string raw).moved
        (position.after (0x22 :: raw))).lexInput reals 0x22 =
          (given (tokens ++ [token]) (position.after (0x22 :: raw)), true) := by
      rw [lexInput_quote rfl, ← h.input token position (position.after (0x22 :: raw)) .string raw]
      change (inputResult _ (lexString (.ofBytes raw)), true) = _
      rw [hlex]
      rfl
    refine ⟨0x22 :: raw, List.prefix_append _ _, ?_⟩
    have htaken := feed_taken (p := ((given tokens position).inside .string raw).moved
      (position.after (0x22 :: raw))) hbetween.done hclose after
    rw [position_given, show (position.after (0x22 :: raw)).step 0x22 =
      position.after (0x22 :: raw ++ [0x22]) from (Position.after_append position _ [0x22]).symm]
        at htaken
    rw [List.append_assoc, List.singleton_append, feed_append, h.feed_open hraw, htaken]
  | word hword =>
    refine ⟨word, List.prefix_rfl, ?_⟩
    have hmoved : (given (tokens ++ [token]) (position.after word)).moved (position.after word) =
        given (tokens ++ [token]) (position.after word) := by
      have hposition := position_given (tokens ++ [token]) (position.after word)
      generalize given (tokens ++ [token]) (position.after word) = p at hposition
      rw [JsonParser.moved, ← hposition]
    rw [hbetween.feed_word hword hends, position_given, inputResult, h.input, hmoved]

/-- ONE TOKEN of the input, with what comes after it. -/
theorem HasRead.feed_token {token : Token ρ} (h : HasRead tokens (given tokens))
    (hspells : Spells reals state token word)
    (hends : ∀ c, after.head? = some c → staysIn state c = false) (position : Position) :
    (HasRead (tokens ++ [token]) (given (tokens ++ [token])) ∧
      (((given tokens position).feed reals (word ++ after)).finishLexing reals) =
        ((given (tokens ++ [token]) (position.after word)).feed reals after).finishLexing reals) ∨
    (¬HasRead (tokens ++ [token]) (given (tokens ++ [token])) ∧
      Failed position (word ++ after)
        (((given tokens position).feed reals (word ++ after)).finishLexing reals)) := by
  obtain ⟨consumed, hconsumed, hfeed⟩ := h.feed_spells hspells hends position
  rw [hfeed]
  by_cases hread : HasRead (tokens ++ [token]) (given (tokens ++ [token]))
  · rw [hread.moved]
    exact .inl ⟨hread, rfl⟩
  · obtain ⟨⟨message, herror⟩, hdone, hstate⟩ := h.fails hread (position.after consumed)
    refine .inr ⟨hread, consumed, message, hconsumed.trans (List.prefix_append _ _), ?_⟩
    have hstopped := finishLexing_feed_done
      (p := (given (tokens ++ [token]) (position.after consumed)).moved (position.after word))
        reals hdone
      hstate after
    rw [hstopped]
    exact herror

/-- White space is skipped. -/
theorem HasRead.feed_space (h : HasRead tokens (given tokens)) (hc : isSpace c)
    (position : Position) :
    (given tokens position).feed reals (c :: after) =
      (given tokens (position.step c)).feed reals after := by
  have hbetween := h.between position
  have hspace : c = 0x20 ∨ c = 0x09 ∨ c = 0x0a ∨ c = 0x0d := by
    simpa [isSpace, or_assoc] using hc
  have hlex : (given tokens position).lexInput reals c = (given tokens position, true) := by
    simp only [lexInput, hbetween.lexState, if_pos hspace]
  rw [feed_taken hbetween.done hlex, position_given, h.moved]

/-! ## Bytes that spell nothing -/

/-- A byte that begins no token. -/
theorem lexInput_invalid (reals : Reals ρ) (hstart : p.lexState = .start)
    (hspace : isSpace c = false)
    (hletter : ¬(0x61 ≤ c ∧ c ≤ 0x7a)) (hpunctuation : (punctuation c : Option (Token ρ)) = none)
    (hnumber : ¬(c = 0x2d ∨ isdigit c)) (hquote : c ≠ 0x22) :
    ∃ message, p.lexInput reals c = (p.fail message, true) := by
  have hspace : ¬(c = 0x20 ∨ c = 0x09 ∨ c = 0x0a ∨ c = 0x0d) := by
    simpa [isSpace, not_or, and_assoc] using hspace
  simp only [lexInput, hstart, if_neg hspace, if_neg hletter, hpunctuation, if_neg hnumber,
    if_neg hquote]
  split
  · exact ⟨_, rfl⟩
  · exact ⟨_, rfl⟩

/-- A byte that causes an error outside a keyword and a number. -/
theorem failed_byte {position : Position} (consumed : List UInt8) {message : CStr}
    (hdone : p.done = false) (herror : p.error = none)
    (hstate : p.lexState ≠ .number ∧ p.lexState ≠ .keyword)
    (hposition : p.position = position.after consumed)
    (hlex : p.lexInput reals c = (p.fail message, true)) (after : List UInt8) :
    Failed position (consumed ++ c :: after) ((p.feed reals (c :: after)).finishLexing reals) := by
  obtain ⟨hmessage, hstopped⟩ := error_fail herror message
  rw [hposition] at hmessage
  refine ⟨consumed, message, List.prefix_append _ _, ?_⟩
  rw [feed_taken hdone hlex]
  generalize (p.fail message).position.step c = position'
  have hstate' : ((p.fail message).moved position').lexState = p.lexState := fail_lexState p message
  have hmessage' : ((p.fail message).moved position').error =
      some (located (position.after consumed) message) := hmessage
  have hstopped' : ((p.fail message).moved position').done := hstopped
  rw [feed_done reals hstopped', finishLexing_error (by rw [hmessage']; rfl) (by rwa [hstate']),
    hmessage']

/-- A keyword that there is not, or a number that is not one. -/
theorem HasRead.word_fails {message : CStr} (h : HasRead tokens (given tokens))
    (hword : Word reals state word (.error message))
    (hends : ∀ c, after.head? = some c → staysIn state c = false) (position : Position) :
    Failed position (word ++ after)
      (((given tokens position).feed reals (word ++ after)).finishLexing reals) := by
  have hbetween := h.between position
  refine ⟨word, message, List.prefix_append _ _, ?_⟩
  rw [hbetween.feed_word hword hends, position_given]
  generalize hq : ((given tokens position).inside state word).moved (position.after word) = q
  have herror : q.error = none := by
    rw [← hq]
    exact hbetween.error
  have hstopped := error_fail herror message
  rw [inputResult, feed_done reals hstopped.2, hword.finishLexing
    (by rw [fail_lexState, ← hq]; rfl) (by rw [fail_buffer, ← hq]; rfl), inputResult, fail_fail,
    hstopped.1, ← hq]
  rfl

/-- A string that is not one. -/
theorem HasRead.string_fails (h : HasRead tokens (given tokens)) (hraw : Quoted raw)
    {rest : List UInt8} (hrest : rest = [] ∨ rest = [0x5c] ∨
      (∃ c after, rest = c :: after ∧ c < 0x20) ∨
      (∃ after message, rest = 0x22 :: after ∧
        (lexString (.ofBytes raw) : Except CStr (Token ρ)) = .error message))
    (position : Position) :
    Failed position (0x22 :: raw ++ rest)
      (((given tokens position).feed reals (0x22 :: raw ++ rest)).finishLexing reals) := by
  have hbetween := h.between position
  rw [feed_append, h.feed_open hraw]
  generalize hq :
      ((given tokens position).inside .string raw).moved (position.after (0x22 :: raw)) = q
  have hdone : q.done = false := by
    rw [← hq]
    exact hbetween.done
  have herror : q.error = none := by
    rw [← hq]
    exact hbetween.error
  have hstate : q.lexState = .string := by
    rw [← hq]
    rfl
  have hposition : q.position = position.after (0x22 :: raw) := by
    rw [← hq]
    rfl
  have hbuffer : q.buffer = raw := by
    rw [← hq]
    rfl
  -- an error that the byte after the string causes
  have hbyte {c : UInt8} {after : List UInt8} (message : CStr)
      (hlex : q.lexInput reals c = (q.fail message, true)) :
      Failed position (0x22 :: raw ++ c :: after)
        ((q.feed reals (c :: after)).finishLexing reals) :=
    failed_byte (0x22 :: raw) hdone herror (by rw [hstate]; exact ⟨nofun, nofun⟩) hposition
      hlex after
  rcases hrest with rfl | rfl | ⟨c, after, rfl, hlow⟩ | ⟨after, message, rfl, hlex⟩
  · refine ⟨0x22 :: raw, .lit "unexpected end of input in quoted string",
      List.prefix_append _ _, ?_⟩
    change (q.finishLexing reals).error = _
    rw [finishLexing, hstate, ← hposition]
    exact (error_fail herror _).1
  · have hescape : q.lexInput reals 0x5c = (q.accumulate 0x5c .escape, true) := by
      simp only [lexInput, hstate]
      rfl
    refine ⟨0x22 :: raw ++ [0x5c], .lit "unexpected end of input in quoted string",
      List.prefix_rfl, ?_⟩
    rw [feed_taken hdone hescape, Position.after_append, ← hposition]
    exact (error_fail (p := (q.accumulate 0x5c .escape).moved (q.position.step 0x5c)) herror _).1
  · refine hbyte
      (.lit "U+" ++ .ofBytes (hex4 true c) ++ .lit " must be escaped in quoted string") ?_
    have hbackslash : c ≠ 0x5c := by
      rintro rfl
      exact absurd hlow (by decide)
    have hquote : c ≠ 0x22 := by
      rintro rfl
      exact absurd hlow (by decide)
    simp only [lexInput, hstate, if_neg hbackslash, if_neg hquote, if_pos hlow]
  · refine hbyte message ?_
    rw [lexInput_quote hstate, hbuffer, hlex]
    rfl

/-- The bytes are spelled by tokens that have been read, or an error has been reported. -/
def ReadsBytes (reals : Reals ρ) (tokens : List (Token ρ)) (position : Position)
    (bytes : List UInt8) :
    Prop :=
  (∃ more, Spelled reals bytes more ∧ HasRead (tokens ++ more) (given (tokens ++ more)) ∧
    ((given tokens position).feed reals bytes).finishLexing reals =
      given (tokens ++ more) (position.after bytes)) ∨
  Failed position bytes (((given tokens position).feed reals bytes).finishLexing reals)

theorem failed_after (word : List UInt8) {position : Position}
    (h : Failed (position.after word) after p) :
    Failed position (word ++ after) p := by
  obtain ⟨consumed, message, hconsumed, herror⟩ := h
  refine ⟨word ++ consumed, message, (List.prefix_append_right_inj word).mpr hconsumed, ?_⟩
  rw [Position.after_append]
  exact herror

/-- A token, and what comes after it. -/
theorem readsBytes_token {token : Token ρ} {position : Position} (h : HasRead tokens (given tokens))
    (hspells : Spells reals state token word)
    (hends : ∀ c, after.head? = some c → staysIn state c = false)
    (hafter : HasRead (tokens ++ [token]) (given (tokens ++ [token])) →
      ReadsBytes reals (tokens ++ [token]) (position.after word) after) :
    ReadsBytes reals tokens position (word ++ after) := by
  rcases h.feed_token hspells hends position with ⟨hread, hfeed⟩ | ⟨-, hfailed⟩
  · rw [ReadsBytes, hfeed]
    rcases hafter hread with ⟨more, hspelled, hmore, hend⟩ | hfailed
    · refine .inl ⟨token :: more, .token hspells hends hspelled, ?_⟩
      rw [List.append_assoc, List.singleton_append] at hmore hend
      exact ⟨hmore, by rw [hend, Position.after_append]⟩
    · exact .inr (failed_after word hfailed)
  · exact .inr hfailed

/-- A keyword or a number is as long as it can be. -/
theorem head?_dropWhile_staysIn (state : LexState) (bytes : List UInt8) :
    ∀ c, (bytes.dropWhile (staysIn state)).head? = some c → staysIn state c = false := by
  intro c hc
  have h := List.head?_dropWhile_not (staysIn state) bytes
  rw [hc] at h
  exact h

/-- A keyword or a number, and what comes after it. -/
theorem readsBytes_word {bytes : List UInt8} {result : Except CStr (Token ρ)} {position : Position}
    (h : HasRead tokens (given tokens))
    (hword : Word reals state (c :: bytes.takeWhile (staysIn state)) result)
    (hafter : ∀ token, HasRead (tokens ++ [token]) (given (tokens ++ [token])) →
      ReadsBytes reals (tokens ++ [token]) (position.after (c :: bytes.takeWhile (staysIn state)))
        (bytes.dropWhile (staysIn state))) :
    ReadsBytes reals tokens position (c :: bytes) := by
  have hends := head?_dropWhile_staysIn state bytes
  have hsplit :
      c :: bytes = c :: bytes.takeWhile (staysIn state) ++ bytes.dropWhile (staysIn state) := by
    rw [List.cons_append, List.takeWhile_append_dropWhile]
  rw [hsplit]
  cases result with
  | error message => exact .inr (h.word_fails hword hends position)
  | ok token => exact readsBytes_token h (.word hword) hends (hafter token)

/-- THE LEXER: the bytes are spelled by tokens that have been read, or an error has been
reported. -/
theorem readsBytes (reals : Reals ρ) : ∀ (n : Nat) {bytes : List UInt8} {tokens : List (Token ρ)},
    bytes.length ≤ n → HasRead tokens (given tokens) → ∀ position : Position,
    ReadsBytes reals tokens position bytes
  | _, [], tokens, _, h, position => by
    refine .inl ⟨[], .nil, ?_⟩
    rw [List.append_nil]
    refine ⟨h, ?_⟩
    change (given tokens position).finishLexing reals = _
    rw [finishLexing, (h.between position).lexState]
    rfl
  | 0, c :: bytes, _, hlength, _, _ => by cases hlength
  | n + 1, c :: bytes, tokens, hlength, h, position => by
    have hbetween := h.between position
    have hless : bytes.length ≤ n := Nat.le_of_succ_le_succ hlength
    -- a keyword or a number, as long as it can be
    have hword {state : LexState} {result : Except CStr (Token ρ)}
        (hword : Word reals state (c :: bytes.takeWhile (staysIn state)) result) :
        ReadsBytes reals tokens position (c :: bytes) :=
      readsBytes_word h hword fun token hread => readsBytes reals n
        ((List.length_dropWhile_le _ bytes).trans hless) hread _
    by_cases hspace : isSpace c
    · rw [ReadsBytes, h.feed_space hspace]
      rcases readsBytes reals n hless h (position.step c) with ⟨more, hspelled, hend⟩ | hfailed
      · exact .inl ⟨more, .space hspace hspelled, hend⟩
      · exact .inr (failed_after [c] hfailed)
    by_cases hletter : 0x61 ≤ c ∧ c ≤ 0x7a
    · exact hword (.keyword c _ hletter fun b hb => List.mem_takeWhile_imp hb)
    cases hpunctuation : (punctuation c : Option (Token ρ)) with
    | some token =>
      exact readsBytes_token h (.punctuation hpunctuation) (fun _ _ => rfl) fun hread =>
        readsBytes reals n hless hread _
    | none =>
      by_cases hnumber : c = 0x2d ∨ isdigit c
      · exact hword (.number c _ hnumber fun b hb => List.mem_takeWhile_imp hb)
      by_cases hquote : c = 0x22
      · subst hquote
        obtain ⟨raw, rest, rfl, hraw, hrest⟩ := Quoted.split bytes
        rcases hrest with hrest | hrest | ⟨after, rfl⟩ | hrest
        · exact .inr (h.string_fails hraw (.inl hrest) position)
        · exact .inr (h.string_fails hraw (.inr (.inl hrest)) position)
        · cases hlex : (lexString (.ofBytes raw) : Except CStr (Token ρ)) with
          | error message =>
            exact .inr (h.string_fails hraw
              (.inr (.inr (.inr ⟨after, message, rfl, hlex⟩))) position)
          | ok token =>
            have hsplit : 0x22 :: (raw ++ 0x22 :: after) = (0x22 :: raw ++ [0x22]) ++ after := by
              rw [List.append_assoc]
              rfl
            rw [hsplit]
            refine readsBytes_token h (.string hraw hlex) (fun _ _ => rfl) fun hread =>
              readsBytes reals n ?_ hread _
            rw [List.length_append, List.length_cons] at hless
            omega
        · exact .inr (h.string_fails hraw (.inr (.inr (.inl hrest))) position)
      · obtain ⟨message, hlex⟩ := lexInput_invalid reals hbetween.lexState
          (Bool.not_eq_true _ ▸ hspace) hletter hpunctuation hnumber hquote
        exact .inr (failed_byte [] hbetween.done hbetween.error
          (by rw [hbetween.lexState]; exact ⟨nofun, nofun⟩)
          (position_given tokens position) hlex bytes)

/-- What has been read has been read from its beginning. -/
theorem HasRead.of_append {as bs : List (Token ρ)} (h : HasRead (as ++ bs) (given (as ++ bs))) :
    HasRead as (given as) := by
  refine (given_reads as).resolve_right fun hfailed => ?_
  obtain ⟨herror, hdone⟩ := hfailed ⟨0, 0, 0⟩
  have hnone := (h.between ⟨0, 0, 0⟩).error
  rw [given_append, inputs_done hdone] at hnone
  rw [hnone] at herror
  cases herror

/-- THE TOKENS of a text lead to where the parser is given them. -/
theorem Spelled.feed_eq {bytes : List UInt8} {more : List (Token ρ)}
    (hspelled : Spelled reals bytes more) :
    ∀ {tokens : List (Token ρ)}, HasRead tokens (given tokens) →
      HasRead (tokens ++ more) (given (tokens ++ more)) → ∀ position : Position,
      ((given tokens position).feed reals bytes).finishLexing reals =
        given (tokens ++ more) (position.after bytes) := by
  induction hspelled with
  | nil =>
    intro tokens h _ position
    rw [List.append_nil]
    change (given tokens position).finishLexing reals = _
    rw [finishLexing, (h.between position).lexState]
    rfl
  | space hc _ ih =>
    intro tokens h hmore position
    rw [h.feed_space hc]
    exact ih h hmore _
  | @token state token word bytes more hword hends hspelled ih =>
    intro tokens h hmore position
    rw [show tokens ++ token :: more = tokens ++ [token] ++ more from by simp] at hmore ⊢
    rcases h.feed_token hword hends position with ⟨hread, hfeed⟩ | ⟨hfail, -⟩
    · rw [hfeed, Position.after_append]
      exact ih hread hmore _
    · exact absurd hmore.of_append hfail
end

end JsonParser

end LogCollector
