import LogCollector.Json.Lexing

/-!
# What `json_from_string` answers

A string that is a text is read as what the text means. To any other string the answer is an error,
which names the line, the column and the byte that were reached: they are counted in the bytes
before them.
-/

namespace LogCollector

variable {ρ : Type}

namespace JsonParser

section

variable {reals : Reals ρ} {p : JsonParser ρ} {tokens : List (Token ρ)}

theorem finish_error {message : CStr} (h : (p.finishLexing reals).error = some message) :
    p.finish reals = some (.string message) := by
  have hkeeps (message' : CStr) : ((p.finishLexing reals).fail message').error = some message := by
    rw [fail, if_neg (by rw [h]; exact Bool.false_ne_true), h]
  rw [finish]
  generalize p.finishLexing reals = q at h hkeeps
  cases hstate : q.parseState <;> simp only [hkeeps, h]

/-- A parser that has read tokens answers what they mean, or that they are not all of a text. -/
theorem HasRead.finish (h : HasRead tokens (given tokens)) {position : Position}
    (hp : p.finishLexing reals = given tokens position) :
    (∃ text : Json ρ, text.isContainer ∧ text.height ≤ JSON_MAX_HEIGHT ∧ tokens = text.tokens ∧
      p.finish reals = some text.resolve) ∨
    ∃ message, p.finish reals = some (.string (located position message)) := by
  obtain ⟨state, stack, name, hfits, hheight, hgiven, hread⟩ := h
  rw [hgiven] at hp
  rw [JsonParser.finish, hp]
  cases hfits with
  | «end» frame =>
    refine .inl ⟨frame.toJson, by cases frame <;> rfl, ?_, ?_, ?_⟩
    · rwa [height_toJson, ← Nat.max_zero frame.height]
    · rw [← hread]
      exact openTokens_close frame none []
    · rw [resolve_toJson]
      rfl
  | start => exact .inr ⟨_, rfl⟩
  | objectInit => exact .inr ⟨_, rfl⟩
  | objectName => exact .inr ⟨_, rfl⟩
  | objectColon => exact .inr ⟨_, rfl⟩
  | objectValue => exact .inr ⟨_, rfl⟩
  | objectNext => exact .inr ⟨_, rfl⟩
  | arrayInit => exact .inr ⟨_, rfl⟩
  | arrayValue => exact .inr ⟨_, rfl⟩
  | arrayNext => exact .inr ⟨_, rfl⟩

theorem hasRead_nil : HasRead ([] : List (Token ρ)) (given []) :=
  ⟨.start, [], none, .start, Nat.zero_le _, fun _ => rfl, rfl⟩

/-- A text is read as what it means. -/
theorem IsText.finish {bytes : List UInt8} {text : Json ρ} (h : IsText reals bytes text) :
    ((create true : JsonParser ρ).feed reals bytes).finish reals = some text.resolve := by
  have hend (position : Position) : given text.tokens position =
      reading position .end [⟨frameOf text, none⟩] none := inputs_text position h.container h.height
  have hread : HasRead text.tokens (given text.tokens) := by
    refine (given_reads text.tokens).resolve_right fun hfailed => ?_
    have herror := (hfailed ⟨0, 0, 0⟩).1
    rw [hend] at herror
    cases herror
  have hfeed := h.spelled.feed_eq hasRead_nil hread ⟨0, 0, 0⟩
  rw [List.nil_append, hend] at hfeed
  change ((given [] ⟨0, 0, 0⟩).feed reals bytes).finish reals = _
  rw [JsonParser.finish, hfeed, ← toJson_frameOf h.container, resolve_toJson,
    toJson_frameOf h.container]
  rfl

end

end JsonParser

open JsonParser

/-- What a text means is an object or an array. -/
theorem isContainer_resolve {text : Json ρ} (h : text.isContainer) : text.resolve.isContainer := by
  cases text with
  | object => rfl
  | array => rfl
  | _ => cases h

/-- A string that is no text is answered with an error, where the bytes that were read end. -/
theorem error_of_not_isText (reals : Reals ρ) (string : CStr)
    (htext : ¬∃ text : Json ρ, IsText reals string.bytes text) :
    ∃ (consumed : List UInt8) (message : CStr), consumed <+: string.bytes ∧
      jsonFromString reals string = some (.string (located
        ⟨consumed.count 0x0a, (consumed.reverse.takeWhile (· != 0x0a)).length, consumed.length⟩
        message)) := by
  rcases readsBytes reals _ le_rfl hasRead_nil ⟨0, 0, 0⟩ with
    ⟨tokens, hspelled, hread, hfeed⟩ | ⟨consumed, message, hconsumed, herror⟩
  · rcases hread.finish hfeed with ⟨text, hcontainer, hheight, rfl, -⟩ | ⟨message, hfinish⟩
    · exact absurd ⟨text, hcontainer, hheight, hspelled⟩ htext
    · refine ⟨string.bytes, message, List.prefix_rfl, ?_⟩
      rw [Position.after_start] at hfinish
      exact hfinish
  · refine ⟨consumed, message, hconsumed, ?_⟩
    rw [Position.after_start] at herror
    exact finish_error herror

/-- WHAT IS ACCEPTED: `json_from_string` answers an object or an array exactly where the string is
a text that means it. -/
theorem jsonFromString_eq_some_iff (reals : Reals ρ) (string : CStr) (value : Json ρ) :
    (value.isContainer ∧ jsonFromString reals string = some value) ↔
      ∃! text : Json ρ, IsText reals string.bytes text ∧ text.resolve = value := by
  constructor
  · rintro ⟨hcontainer, hvalue⟩
    by_cases htext : ∃ text : Json ρ, IsText reals string.bytes text
    · obtain ⟨text, htext⟩ := htext
      have hmeans : text.resolve = value := Option.some.inj (htext.finish.symm.trans hvalue)
      exact ⟨text, ⟨htext, hmeans⟩, fun text' h => h.1.unique htext⟩
    · obtain ⟨consumed, message, -, herror⟩ := error_of_not_isText reals string htext
      rw [Option.some.inj (hvalue.symm.trans herror)] at hcontainer
      cases hcontainer
  · rintro ⟨text, ⟨htext, rfl⟩, -⟩
    exact ⟨isContainer_resolve htext.container, htext.finish⟩

end LogCollector
