import LogCollector.Json.Grammar

/-!
# What bytes spell

`Spelled` says into which tokens `json_parser_feed` cuts its input, with no lexer states: white
space between the tokens, and each keyword and each number as long as it can be. Bytes are
spelled by no more than one list of tokens, and no two texts have the same tokens.
-/

namespace LogCollector

variable {ρ : Type}

namespace JsonParser

/-- White space between tokens. -/
def isSpace (c : UInt8) : Bool := c = 0x20 || c = 0x09 || c = 0x0a || c = 0x0d

/-- What can stand between quotes. -/
inductive Quoted : List UInt8 → Prop
  | nil : Quoted []
  | plain (c : UInt8) (raw : List UInt8) (hc : staysIn .string c) (h : Quoted raw) :
      Quoted (c :: raw)
  | escape (c : UInt8) (raw : List UInt8) (h : Quoted raw) : Quoted (0x5c :: c :: raw)

/-- A keyword or a number, and what it is read as. -/
inductive Word (reals : Reals ρ) : LexState → List UInt8 → Except CStr (Token ρ) → Prop
  | keyword (first : UInt8) (rest : List UInt8) (hfirst : 0x61 ≤ first ∧ first ≤ 0x7a)
    (hrest : ∀ c ∈ rest, staysIn .keyword c) :
    Word reals .keyword (first :: rest) (lexKeyword (.ofBytes (first :: rest)))
  | number (first : UInt8) (rest : List UInt8) (hfirst : first = 0x2d ∨ isdigit first)
    (hrest : ∀ c ∈ rest, staysIn .number c) :
    Word reals .number (first :: rest) (lexNumber reals (.ofBytes (first :: rest)))

/-- The bytes of a token, and the state that the lexer is in before the token ends: a token in the
state `.start` ends by itself, one in another state at the first byte that does not stay in it. -/
inductive Spells (reals : Reals ρ) : LexState → Token ρ → List UInt8 → Prop
  | punctuation {c : UInt8} {token : Token ρ} (h : punctuation c = some token) :
    Spells reals .start token [c]
  | string {raw : List UInt8} {token : Token ρ} (hraw : Quoted raw)
    (h : lexString (.ofBytes raw) = .ok token) : Spells reals .start token (0x22 :: raw ++ [0x22])
  | word {state : LexState} {bytes : List UInt8} {token : Token ρ}
      (h : Word reals state bytes (.ok token)) :
    Spells reals state token bytes

/-- The bytes of tokens, with white space between them. -/
inductive Spelled (reals : Reals ρ) : List UInt8 → List (Token ρ) → Prop
  | nil : Spelled reals [] []
  | space {c : UInt8} {bytes : List UInt8} {tokens : List (Token ρ)} (hc : isSpace c)
    (h : Spelled reals bytes tokens) : Spelled reals (c :: bytes) tokens
  | token {state : LexState} {token : Token ρ} {word bytes : List UInt8} {tokens : List (Token ρ)}
    (hword : Spells reals state token word)
    (hends : ∀ c, bytes.head? = some c → staysIn state c = false)
    (h : Spelled reals bytes tokens) : Spelled reals (word ++ bytes) (token :: tokens)

variable {reals : Reals ρ}

/-- The first byte that a string cannot have in it. -/
theorem Quoted.split : ∀ bytes : List UInt8, ∃ raw rest, bytes = raw ++ rest ∧ Quoted raw ∧
    (rest = [] ∨ rest = [0x5c] ∨ (∃ after, rest = 0x22 :: after) ∨
      ∃ c after, rest = c :: after ∧ c < 0x20)
  | [] => ⟨[], [], rfl, .nil, .inl rfl⟩
  | [c] => by
    by_cases hbackslash : c = 0x5c
    · exact ⟨[], [c], rfl, .nil, .inr (.inl (by rw [hbackslash]))⟩
    by_cases hquote : c = 0x22
    · exact ⟨[], [c], rfl, .nil, .inr (.inr (.inl ⟨[], by rw [hquote]⟩))⟩
    by_cases hlow : c < 0x20
    · exact ⟨[], [c], rfl, .nil, .inr (.inr (.inr ⟨c, [], rfl, hlow⟩))⟩
    · exact ⟨[c], [], rfl, .plain c [] (by simp [staysIn, hbackslash, hquote, hlow]) .nil, .inl rfl⟩
  | c :: e :: bytes => by
    by_cases hbackslash : c = 0x5c
    · obtain ⟨raw, rest, rfl, hraw, hrest⟩ := Quoted.split bytes
      exact ⟨0x5c :: e :: raw, rest, by rw [hbackslash]; rfl, .escape e raw hraw, hrest⟩
    by_cases hquote : c = 0x22
    · exact ⟨[], _, rfl, .nil, .inr (.inr (.inl ⟨e :: bytes, by rw [hquote]⟩))⟩
    by_cases hlow : c < 0x20
    · exact ⟨[], _, rfl, .nil, .inr (.inr (.inr ⟨c, e :: bytes, rfl, hlow⟩))⟩
    · obtain ⟨raw, rest, hsplit, hraw, hrest⟩ := Quoted.split (e :: bytes)
      exact ⟨c :: raw, rest, by rw [hsplit]; rfl,
        .plain c raw (by simp [staysIn, hbackslash, hquote, hlow]) hraw, hrest⟩


/-! ## In one way -/

theorem not_punctuation {c : UInt8}
    (h : 0x61 ≤ c ∧ c ≤ 0x7a ∨ (c = 0x2d ∨ isdigit c) ∨ c = 0x22 ∨ isSpace c) :
    (punctuation c : Option (Token ρ)) = none := by
  have hall : ∀ c : UInt8, (0x61 ≤ c ∧ c ≤ 0x7a ∨ (c = 0x2d ∨ isdigit c) ∨ c = 0x22 ∨ isSpace c) →
      c ∉ [0x5b, 0x7b, 0x5d, 0x7d, 0x3a, 0x2c] := by
    intro c h hmem
    simp only [List.mem_cons, List.not_mem_nil, or_false] at hmem
    rcases hmem with rfl | rfl | rfl | rfl | rfl | rfl <;> revert h <;> decide
  have hne := hall c h
  simp only [List.mem_cons, List.not_mem_nil, or_false, not_or] at hne
  obtain ⟨h1, h2, h3, h4, h5, h6⟩ := hne
  simp only [punctuation, if_neg h1, if_neg h2, if_neg h3, if_neg h4, if_neg h5, if_neg h6]

/-- A quoted text ends at the first quote that is not escaped. -/
theorem Quoted.append_inj {raw : List UInt8} (h : Quoted raw) :
    ∀ {raw' after after' : List UInt8}, Quoted raw' →
      raw ++ 0x22 :: after = raw' ++ 0x22 :: after' → raw = raw' ∧ after = after' := by
  induction h with
  | nil =>
    intro raw' after after' h' heq
    cases h' with
    | nil => exact ⟨rfl, (List.cons.inj heq).2⟩
    | plain c raw hc =>
      obtain ⟨rfl, -⟩ := List.cons.inj heq
      cases hc
    | escape c raw => exact absurd (List.cons.inj heq).1 (by decide)
  | plain c raw hc _ ih =>
    intro raw' after after' h' heq
    cases h' with
    | nil =>
      obtain ⟨rfl, -⟩ := List.cons.inj heq
      cases hc
    | plain c' raw' hc' h' =>
      obtain ⟨rfl, htail⟩ := List.cons.inj heq
      obtain ⟨rfl, rfl⟩ := ih h' htail
      exact ⟨rfl, rfl⟩
    | escape c' raw' h' =>
      obtain ⟨rfl, -⟩ := List.cons.inj heq
      cases hc
  | escape c raw _ ih =>
    intro raw' after after' h' heq
    cases h' with
    | nil => exact absurd (List.cons.inj heq).1 (by decide)
    | plain c' raw' hc' h' =>
      obtain ⟨rfl, -⟩ := List.cons.inj heq
      cases hc'
    | escape c' raw' h' =>
      obtain ⟨rfl, htail⟩ := List.cons.inj (List.cons.inj heq).2
      obtain ⟨rfl, rfl⟩ := ih h' htail
      exact ⟨rfl, rfl⟩

/-- Bytes that stay in a state, up to the first one that does not. -/
theorem staysIn_append_inj {state : LexState} : ∀ {rest rest' after after' : List UInt8},
    (∀ c ∈ rest, staysIn state c) → (∀ c ∈ rest', staysIn state c) →
    (∀ c, after.head? = some c → staysIn state c = false) →
    (∀ c, after'.head? = some c → staysIn state c = false) →
    rest ++ after = rest' ++ after' → rest = rest' ∧ after = after'
  | [], [], _, _, _, _, _, _, heq => ⟨rfl, heq⟩
  | [], c :: rest', after, after', _, hrest', hafter, _, heq => by
    have hfalse := hafter c (by rw [show after = c :: rest' ++ after' from heq]; rfl)
    rw [hrest' c List.mem_cons_self] at hfalse
    cases hfalse
  | c :: rest, [], after, after', hrest, _, _, hafter', heq => by
    have hfalse := hafter' c (by rw [show after' = c :: rest ++ after from heq.symm]; rfl)
    rw [hrest c List.mem_cons_self] at hfalse
    cases hfalse
  | c :: rest, c' :: rest', after, after', hrest, hrest', hafter, hafter', heq => by
    obtain ⟨rfl, htail⟩ := List.cons.inj heq
    obtain ⟨rfl, rfl⟩ := staysIn_append_inj (fun c hc => hrest c (List.mem_cons_of_mem _ hc))
      (fun c hc => hrest' c (List.mem_cons_of_mem _ hc)) hafter hafter' htail
    exact ⟨rfl, rfl⟩

/-- What a keyword or a number begins with. -/
theorem Word.first {state : LexState} {word : List UInt8} {result : Except CStr (Token ρ)}
    (h : Word reals state word result) :
    ∃ first rest, word = first :: rest ∧ (∀ c ∈ rest, staysIn state c) ∧
      ((state = .keyword ∧ (0x61 ≤ first ∧ first ≤ 0x7a) ∧ result = lexKeyword (.ofBytes word)) ∨
        (state = .number ∧ (first = 0x2d ∨ isdigit first) ∧
          result = lexNumber reals (.ofBytes word))) := by
  cases h with
  | keyword first rest hfirst hrest => exact ⟨first, rest, rfl, hrest, .inl ⟨rfl, hfirst, rfl⟩⟩
  | number first rest hfirst hrest => exact ⟨first, rest, rfl, hrest, .inr ⟨rfl, hfirst, rfl⟩⟩

theorem not_letter_and_number {c : UInt8} (hletter : 0x61 ≤ c ∧ c ≤ 0x7a)
    (hnumber : c = 0x2d ∨ isdigit c) :
    False := by
  rcases hnumber with rfl | hdigit
  · exact absurd hletter.1 (by decide)
  · obtain ⟨d, hd, rfl⟩ := Lib.Decimal.exists_digit hdigit
    revert hletter
    interval_cases d <;> decide

/-- Two tokens that begin the same bytes are the same. -/
theorem Spells.append_inj {state state' : LexState} {token token' : Token ρ}
    {word word' after after' : List UInt8} (h : Spells reals state token word)
    (h' : Spells reals state' token' word')
    (hends : ∀ c, after.head? = some c → staysIn state c = false)
    (hends' : ∀ c, after'.head? = some c → staysIn state' c = false)
    (heq : word ++ after = word' ++ after') : token = token' ∧ after = after' := by
  -- a keyword or a number begins as nothing else does
  have hword {state : LexState} {word : List UInt8} {token : Token ρ}
      (h : Word reals state word (.ok token)) : ∃ first rest, word = first :: rest ∧
        (JsonParser.punctuation first : Option (Token ρ)) = none ∧ first ≠ 0x22 := by
    obtain ⟨first, rest, rfl, -, hkind⟩ := h.first
    refine ⟨first, rest, rfl, ?_, ?_⟩
    · rcases hkind with ⟨-, hfirst, -⟩ | ⟨-, hfirst, -⟩
      · exact not_punctuation (.inl hfirst)
      · exact not_punctuation (.inr (.inl hfirst))
    · rintro rfl
      rcases hkind with ⟨-, hfirst, -⟩ | ⟨-, hfirst, -⟩
      · exact absurd hfirst.1 (by decide)
      · exact absurd hfirst (by decide)
  cases h with
  | @punctuation c _ hc =>
    cases h' with
    | @punctuation c' _ hc' =>
      obtain ⟨rfl, htail⟩ := List.cons.inj heq
      exact ⟨Option.some.inj (hc.symm.trans hc'), htail⟩
    | string hraw hlex =>
      obtain ⟨rfl, -⟩ := List.cons.inj heq
      cases hc
    | word h' =>
      obtain ⟨first, rest, rfl, hnone, -⟩ := hword h'
      obtain ⟨rfl, -⟩ := List.cons.inj heq
      rw [hnone] at hc
      cases hc
  | @string raw _ hraw hlex =>
    cases h' with
    | @punctuation c' _ hc' =>
      obtain ⟨rfl, -⟩ := List.cons.inj heq
      cases hc'
    | @string raw' _ hraw' hlex' =>
      simp only [List.cons_append, List.append_assoc, List.nil_append, List.cons.injEq,
        true_and] at heq
      obtain ⟨rfl, rfl⟩ := hraw.append_inj hraw' heq
      exact ⟨Except.ok.inj (hlex.symm.trans hlex'), rfl⟩
    | word h' =>
      obtain ⟨first, rest, rfl, -, hquote⟩ := hword h'
      exact absurd (List.cons.inj heq).1.symm hquote
  | word h =>
    cases h' with
    | @punctuation c' _ hc' =>
      obtain ⟨first, rest, rfl, hnone, -⟩ := hword h
      obtain ⟨rfl, -⟩ := List.cons.inj heq
      rw [hnone] at hc'
      cases hc'
    | string hraw hlex =>
      obtain ⟨first, rest, rfl, -, hquote⟩ := hword h
      exact absurd (List.cons.inj heq).1 hquote
    | word h' =>
      obtain ⟨first, rest, rfl, hrest, hkind⟩ := h.first
      obtain ⟨first', rest', rfl, hrest', hkind'⟩ := h'.first
      obtain ⟨rfl, htail⟩ := List.cons.inj heq
      rcases hkind with ⟨rfl, hfirst, hresult⟩ | ⟨rfl, hfirst, hresult⟩ <;>
        rcases hkind' with ⟨rfl, hfirst', hresult'⟩ | ⟨rfl, hfirst', hresult'⟩
      · obtain ⟨rfl, rfl⟩ := staysIn_append_inj hrest hrest' hends hends' htail
        exact ⟨Except.ok.inj (hresult.trans hresult'.symm), rfl⟩
      · exact (not_letter_and_number hfirst hfirst').elim
      · exact (not_letter_and_number hfirst' hfirst).elim
      · obtain ⟨rfl, rfl⟩ := staysIn_append_inj hrest hrest' hends hends' htail
        exact ⟨Except.ok.inj (hresult.trans hresult'.symm), rfl⟩

/-- No token begins with white space. -/
theorem Spells.not_isSpace {state : LexState} {token : Token ρ} {word : List UInt8}
    (h : Spells reals state token word) :
    ∃ first rest, word = first :: rest ∧ isSpace first = false := by
  cases h with
  | @punctuation c _ hc =>
    refine ⟨c, [], rfl, Bool.eq_false_iff.mpr fun hspace => ?_⟩
    rw [not_punctuation (.inr (.inr (.inr hspace)))] at hc
    cases hc
  | @string raw _ hraw hlex => exact ⟨0x22, raw ++ [0x22], rfl, rfl⟩
  | word h =>
    obtain ⟨first, rest, rfl, -, hkind⟩ := h.first
    refine ⟨first, rest, rfl, Bool.eq_false_iff.mpr fun hspace => ?_⟩
    have hcases : first = 0x20 ∨ first = 0x09 ∨ first = 0x0a ∨ first = 0x0d := by
      simpa [isSpace, or_assoc] using hspace
    rcases hkind with ⟨-, hfirst, -⟩ | ⟨-, hfirst, -⟩
    · rcases hcases with rfl | rfl | rfl | rfl <;> exact absurd hfirst.1 (by decide)
    · rcases hcases with rfl | rfl | rfl | rfl <;> exact absurd hfirst (by decide)

/-- What bytes that are spelled begin with. -/
theorem Spelled.inv {bytes : List UInt8} {tokens : List (Token ρ)}
    (h : Spelled reals bytes tokens) :
    (bytes = [] ∧ tokens = []) ∨
    (∃ c rest, bytes = c :: rest ∧ isSpace c ∧ Spelled reals rest tokens) ∨
    ∃ state token word rest more, bytes = word ++ rest ∧ tokens = token :: more ∧
      Spells reals state token word ∧ (∀ c, rest.head? = some c → staysIn state c = false) ∧
      Spelled reals rest more := by
  cases h with
  | nil => exact .inl ⟨rfl, rfl⟩
  | space hc h => exact .inr (.inl ⟨_, _, rfl, hc, h⟩)
  | token hword hends h => exact .inr (.inr ⟨_, _, _, _, _, rfl, rfl, hword, hends, h⟩)

/-- BYTES ARE SPELLED in one way. -/
theorem Spelled.unique {bytes : List UInt8} {tokens : List (Token ρ)}
    (h : Spelled reals bytes tokens) :
    ∀ {tokens' : List (Token ρ)}, Spelled reals bytes tokens' → tokens = tokens' := by
  induction h with
  | nil =>
    intro tokens' h'
    rcases h'.inv with ⟨-, rfl⟩ | ⟨c, rest, hbytes, -⟩ |
      ⟨state, token, word, rest, more, hbytes, -, hword, -⟩
    · rfl
    · cases hbytes
    · obtain ⟨first, tail, rfl, -⟩ := hword.not_isSpace
      cases hbytes
  | space hc _ ih =>
    intro tokens' h'
    rcases h'.inv with ⟨hbytes, -⟩ | ⟨c, rest, hbytes, -, hrest⟩ |
      ⟨state, token, word, rest, more, hbytes, -, hword, -⟩
    · cases hbytes
    · obtain ⟨rfl, rfl⟩ := List.cons.inj hbytes
      exact ih hrest
    · obtain ⟨first, tail, rfl, hfirst⟩ := hword.not_isSpace
      obtain ⟨rfl, -⟩ := List.cons.inj hbytes
      rw [hc] at hfirst
      cases hfirst
  | token hword hends _ ih =>
    intro tokens' h'
    rcases h'.inv with ⟨hbytes, -⟩ | ⟨c, rest, hbytes, hc, -⟩ |
      ⟨state, token, word, rest, more, hbytes, rfl, hword', hends', hrest⟩
    · obtain ⟨first, tail, rfl, -⟩ := hword.not_isSpace
      cases hbytes
    · obtain ⟨first, tail, rfl, hfirst⟩ := hword.not_isSpace
      obtain ⟨rfl, -⟩ := List.cons.inj hbytes
      rw [hc] at hfirst
      cases hfirst
    · obtain ⟨rfl, rfl⟩ := hword.append_inj hword' hends hends' hbytes
      rw [ih hrest]

/-! ## Texts -/

/-- No value begins as an array ends. -/
theorem tokens_ne_endArray (value : Json ρ) (rest after : List (Token ρ)) :
    value.tokens ++ rest ≠ .endArray :: after := by
  cases value with
  | boolean b => cases b <;> simp [Json.tokens, tokenOfBool]
  | _ => simp [Json.tokens]

mutual

/-- No value's tokens begin those of another one. -/
theorem tokens_append_inj : ∀ {v v' : Json ρ} {r r' : List (Token ρ)},
    v.tokens ++ r = v'.tokens ++ r' → v = v' ∧ r = r'
  | .object members, v', r, r', h => by
    cases v' with
    | object members' =>
      simp only [Json.tokens, List.cons_append, List.append_assoc, List.nil_append, List.cons.injEq,
        true_and] at h
      obtain ⟨rfl, rfl⟩ := membersTokens_append_inj h
      exact ⟨rfl, rfl⟩
    | boolean b => cases b <;> simp [Json.tokens, tokenOfBool] at h
    | _ => simp [Json.tokens] at h
  | .array elems, v', r, r', h => by
    cases v' with
    | array elems' =>
      simp only [Json.tokens, List.cons_append, List.append_assoc, List.nil_append, List.cons.injEq,
        true_and] at h
      obtain ⟨rfl, rfl⟩ := elemsTokens_append_inj h
      exact ⟨rfl, rfl⟩
    | boolean b => cases b <;> simp [Json.tokens, tokenOfBool] at h
    | _ => simp [Json.tokens] at h
  | .boolean b, v', r, r', h => by
    cases v' with
    | boolean b' => cases b <;> cases b' <;> simp_all [Json.tokens, tokenOfBool]
    | _ => cases b <;> simp [Json.tokens, tokenOfBool] at h
  | .null, v', r, r', h => by
    cases v' with
    | boolean b' => cases b' <;> simp [Json.tokens, tokenOfBool] at h
    | _ => simp_all [Json.tokens]
  | .integer i, v', r, r', h => by
    cases v' with
    | boolean b' => cases b' <;> simp [Json.tokens, tokenOfBool] at h
    | _ => simp_all [Json.tokens]
  | .real x, v', r, r', h => by
    cases v' with
    | boolean b' => cases b' <;> simp [Json.tokens, tokenOfBool] at h
    | _ => simp_all [Json.tokens]
  | .string s, v', r, r', h => by
    cases v' with
    | boolean b' => cases b' <;> simp [Json.tokens, tokenOfBool] at h
    | _ => simp_all [Json.tokens]

theorem membersTokens_append_inj : ∀ {first : Bool} {ms ms' : List (CStr × Json ρ)}
    {r r' : List (Token ρ)},
    membersTokens first ms ++ .endObject :: r = membersTokens first ms' ++ .endObject :: r' →
      ms = ms' ∧ r = r'
  | first, [], ms', r, r', h => by
    cases ms' with
    | nil => exact ⟨rfl, by simpa [membersTokens] using h⟩
    | cons m' ms' => cases first <;> simp [membersTokens] at h
  | first, (name, value) :: ms, ms', r, r', h => by
    cases ms' with
    | nil => cases first <;> simp [membersTokens] at h
    | cons m' ms' =>
      obtain ⟨name', value'⟩ := m'
      have htail : name = name' ∧
          value.tokens ++ (membersTokens false ms ++ .endObject :: r) =
            value'.tokens ++ (membersTokens false ms' ++ .endObject :: r') := by
        cases first <;> simpa [membersTokens] using h
      obtain ⟨rfl, hvalue⟩ := htail
      obtain ⟨rfl, hrest⟩ := tokens_append_inj hvalue
      obtain ⟨rfl, rfl⟩ := membersTokens_append_inj hrest
      exact ⟨rfl, rfl⟩

theorem elemsTokens_append_inj : ∀ {first : Bool} {es es' : List (Json ρ)} {r r' : List (Token ρ)},
    elemsTokens first es ++ .endArray :: r = elemsTokens first es' ++ .endArray :: r' →
      es = es' ∧ r = r'
  | first, [], es', r, r', h => by
    cases es' with
    | nil => exact ⟨rfl, by simpa [elemsTokens] using h⟩
    | cons value' es' =>
      cases first with
      | true =>
        simp only [elemsTokens, List.nil_append, if_true, List.append_assoc] at h
        exact absurd h.symm (tokens_ne_endArray value' _ _)
      | false => simp [elemsTokens] at h
  | first, value :: es, es', r, r', h => by
    cases es' with
    | nil =>
      cases first with
      | true =>
        simp only [elemsTokens, List.nil_append, if_true, List.append_assoc] at h
        exact absurd h (tokens_ne_endArray value _ _)
      | false => simp [elemsTokens] at h
    | cons value' es' =>
      have htail : value.tokens ++ (elemsTokens false es ++ .endArray :: r) =
          value'.tokens ++ (elemsTokens false es' ++ .endArray :: r') := by
        cases first <;> simpa [elemsTokens] using h
      obtain ⟨rfl, hrest⟩ := tokens_append_inj htail
      obtain ⟨rfl, rfl⟩ := elemsTokens_append_inj hrest
      exact ⟨rfl, rfl⟩

end

/-- The bytes are those of a text that is not nested too deeply. -/
structure IsText (reals : Reals ρ) (bytes : List UInt8) (text : Json ρ) : Prop where
  container : text.isContainer
  height : text.height ≤ JSON_MAX_HEIGHT
  spelled : Spelled reals bytes text.tokens

/-- BYTES ARE A TEXT in one way. -/
theorem IsText.unique {bytes : List UInt8} {text text' : Json ρ} (h : IsText reals bytes text)
    (h' : IsText reals bytes text') : text = text' :=
  (tokens_append_inj (congrArg (· ++ []) (h.spelled.unique h'.spelled))).1

end JsonParser

end LogCollector
