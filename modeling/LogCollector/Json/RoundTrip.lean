import LogCollector.Json.Parser

/-!
# Parsing what was serialised

The parser reads a serialised record back. `Consumes p bytes q` says that a
parser in state `p`, wherever it is in its input, is in state `q` after
`bytes`; the lemmas below follow the text of a record token by token. A token
that ends by itself (a string, a punctuation byte) is one lemma; an integer or
a keyword ends at the byte that follows it, so its lemma is stated together
with that byte.
-/

namespace LogCollector

variable {ρ : Type}

/-! ## Strings -/

theorem hexitValue_hexit {n : Nat} (h : n < 16) : hexitValue (hexit n) = some n := by
  interval_cases n <;> rfl

theorem simpleEscape_of_mem {c e : UInt8} (h : (c, e) ∈ escapeLetters) :
    simpleEscape e = some c := by
  simp only [escapeLetters, List.mem_cons, Prod.mk.injEq, List.not_mem_nil, or_false] at h
  rcases h with ⟨rfl, rfl⟩ | ⟨rfl, rfl⟩ | ⟨rfl, rfl⟩ | ⟨rfl, rfl⟩ | ⟨rfl, rfl⟩ | ⟨rfl, rfl⟩ |
    ⟨rfl, rfl⟩ <;> rfl

/-- The escape of a control byte is read as its code. -/
theorem lexUnicode_hexit {c : UInt8} (hc : c ≠ 0) (hlt : c < 0x20) (rest : List UInt8) :
    lexUnicode (0x30 :: 0x30 :: hexit (c.toNat / 16) :: hexit (c.toNat % 16) :: rest) =
      .ok ([c], rest) := by
  have hlow : c.toNat < 32 := UInt8.lt_iff_toNat_lt.mp hlt
  have hpos : c.toNat ≠ 0 := fun h => hc (UInt8.toNat.inj h)
  have hvalue : hexitsValue [0x30, 0x30, hexit (c.toNat / 16), hexit (c.toNat % 16)] =
      some c.toNat := by
    have h0 : hexitValue 0x30 = some 0 := rfl
    simp only [hexitsValue, List.foldl_cons, List.foldl_nil, h0,
      hexitValue_hexit (show c.toNat / 16 < 16 by omega),
      hexitValue_hexit (show c.toNat % 16 < 16 by omega), Option.bind_some, Option.map_some]
    congr 1
    omega
  have hlead : isLeadingSurrogate c.toNat = false := by
    simp only [isLeadingSurrogate, Bool.and_eq_false_imp, decide_eq_true_eq,
      decide_eq_false_iff_not]
    omega
  have hutf8 : putUtf8 c.toNat = [c] := by
    rw [putUtf8, if_pos (by omega), UInt8.ofNat_toNat]
  obtain ⟨v, hv⟩ := Nat.exists_eq_succ_of_ne_zero hpos
  rw [hv] at hlead hutf8
  simp only [lexUnicode, lex4hex, hvalue.trans (congrArg some hv), hlead, hutf8,
    Bool.false_eq_true, if_false]

/-- Reading the escape of a byte puts the byte back. -/
theorem stringUnescape_escape {c : UInt8} (hc : c ≠ 0) (rest : List UInt8) :
    stringUnescape (charsEscaping c ++ rest) = (stringUnescape rest).map (c :: ·) := by
  have hentry := escaped c
  generalize charsEscaping c = entry at hentry
  cases hentry with
  | letter e he =>
    rw [List.cons_append, List.cons_append, List.nil_append, stringUnescape,
      if_neg (by decide), if_pos rfl, simpleEscape_of_mem he]
  | code hlt =>
    have hnone : simpleEscape 0x75 = none := rfl
    simp only [List.cons_append, List.nil_append]
    rw [stringUnescape, if_neg (by decide), if_pos rfl, hnone]
    simp only [if_true]
    rw [lexUnicode_hexit hc hlt]
    rfl
  | plain hge hquote hbackslash =>
    rw [List.cons_append, List.nil_append, stringUnescape.eq_def]
    simp only [hquote, hbackslash, if_false]

/-- Unescaping the serialised text of a string gives the string back. -/
theorem stringUnescape_flatMap : ∀ {s : List UInt8}, (0 : UInt8) ∉ s →
    stringUnescape (s.flatMap charsEscaping) = .ok s
  | [], _ => by rw [List.flatMap_nil, stringUnescape]
  | c :: s, h => by
    obtain ⟨hc, hs⟩ := List.ne_and_not_mem_of_not_mem_cons h
    rw [List.flatMap_cons, stringUnescape_escape (Ne.symm hc), stringUnescape_flatMap hs]
    rfl

/-- Text without a backslash was serialised without escapes. -/
theorem flatMap_charsEscaping_eq : ∀ {s : List UInt8},
    (0x5c : UInt8) ∉ s.flatMap charsEscaping → s.flatMap charsEscaping = s
  | [], _ => rfl
  | c :: s, h => by
    rw [List.flatMap_cons, List.mem_append, not_or] at h
    have hc : charsEscaping c = [c] := by
      have hentry := escaped c
      generalize charsEscaping c = entry at h hentry
      cases hentry with
      | letter e he => exact absurd List.mem_cons_self h.1
      | code hlt => exact absurd List.mem_cons_self h.1
      | plain => rfl
    rw [List.flatMap_cons, flatMap_charsEscaping_eq h.2, hc, List.cons_append, List.nil_append]

/-- `json_lex_string` reads the text between the quotes of a serialised string. -/
theorem lexString_flatMap (s : CStr) :
    lexString (.ofBytes (s.bytes.flatMap charsEscaping)) = .ok (.string s : Token ρ) := by
  have hbytes : (CStr.ofBytes (s.bytes.flatMap charsEscaping)).bytes =
      s.bytes.flatMap charsEscaping := by
    apply CStr.bytes_ofBytes
    intro h
    obtain ⟨c, -, h⟩ := List.mem_flatMap.mp h
    exact absurd (le_of_mem_charsEscaping h) (by decide)
  rw [lexString, hbytes]
  split
  · rw [stringUnescape_flatMap s.nulFree]
    simp only [Except.map, CStr.ofBytes_bytes]
  · next h =>
    rw [flatMap_charsEscaping_eq h, CStr.ofBytes_bytes]

/-! ## Numbers -/

theorem le_fold : ∀ (ds : List UInt8) (acc : Nat), acc ≤ Lib.Decimal.fold ds acc
  | [], acc => le_of_eq (Lib.Decimal.fold_nil acc).symm
  | c :: ds, acc => by
    rw [Lib.Decimal.fold_cons]
    have := le_fold ds (acc * 10 + Lib.Decimal.value c)
    omega

/-- As long as the number fits in 64 bits, no digit overflows the significand
and none is dropped. -/
theorem foldl_integerDigit : ∀ (ds : List UInt8) {m : Nat}, Lib.Decimal.fold ds m < 2 ^ 64 →
    ds.foldl Significand.integerDigit ⟨m, 0, false⟩ = ⟨Lib.Decimal.fold ds m, 0, false⟩
  | [], _, _ => by rw [List.foldl_nil, Lib.Decimal.fold_nil]
  | c :: ds, m, h => by
    rw [Lib.Decimal.fold_cons] at h
    have hle := le_fold ds (m * 10 + Lib.Decimal.value c)
    have hfits : m ≤ ULLONG_MAX / 10 := by
      rw [ULLONG_MAX]
      omega
    have hstep : Significand.integerDigit ⟨m, 0, false⟩ c =
        ⟨m * 10 + Lib.Decimal.value c, 0, false⟩ := by
      have hmod := Nat.mod_eq_of_lt (show m * 10 + Lib.Decimal.value c < 2 ^ 64 by omega)
      simp only [Significand.integerDigit, if_pos hfits, hmod]
    rw [List.foldl_cons, hstep, foldl_integerDigit ds h, Lib.Decimal.fold_cons]

theorem all_isdigit_ofNat (n : Nat) : ∀ c ∈ Lib.Decimal.ofNat n, isdigit c = true :=
  fun _ => Lib.Decimal.isDigit_of_mem_ofNat

/-- The integer part of a numeral is the whole numeral. -/
theorem lexIntegerPart_ofNat {m : Nat} (h : m < 2 ^ 64) :
    lexIntegerPart (Lib.Decimal.ofNat m) = .ok (⟨m, 0, false⟩, []) := by
  have hall := all_isdigit_ofNat m
  have hfold := foldl_integerDigit (Lib.Decimal.ofNat m) (m := 0)
    (by rwa [Lib.Decimal.fold_ofNat])
  rw [Lib.Decimal.fold_ofNat] at hfold
  generalize hds : Lib.Decimal.ofNat m = ds at hall hfold
  have hne : ds ≠ [] := hds ▸ Lib.Decimal.ofNat_ne_nil m
  unfold lexIntegerPart
  split
  · next cp =>
    obtain ⟨rfl, rfl⟩ := Lib.Decimal.ofNat_eq_zero_cons hds
    rfl
  · next hzero =>
    obtain ⟨c, ds, rfl⟩ := List.exists_cons_of_ne_nil hne
    have hhead : (c :: ds).head?.any isdigit = true := by
      simpa using hall c List.mem_cons_self
    rw [if_pos hhead, List.takeWhile_eq_self_iff.mpr hall, hfold,
      List.dropWhile_eq_nil_iff.mpr hall]

/-- A significand that is an integer in range is the integer. -/
theorem figureOutNumber_integer (reals : Reals ρ) (s : CStr) (i : Int64) :
    figureOutNumber reals s (decide (i.toInt < 0)) ⟨i.toInt.natAbs, 0, false⟩ =
      .ok (.integer i) := by
  have hlt := i.toInt_lt
  have hge := i.le_toInt
  have hscale : (⟨i.toInt.natAbs, 0, false⟩ : Significand).scale = ⟨i.toInt.natAbs, 0, false⟩ := rfl
  rw [figureOutNumber]
  by_cases hzero : i.toInt.natAbs = 0
  · have : i = 0 := Int64.toInt_inj.mp (Int.natAbs_eq_zero.mp hzero)
    rw [if_pos hzero, this]
  · rw [if_neg hzero, if_neg (by simp)]
    simp only [hscale, decide_eq_true_eq]
    have hrange : i.toInt.natAbs ≤ if i.toInt < 0 then LLONG_MAX + 1 else LLONG_MAX := by
      rw [LLONG_MAX]
      split <;> omega
    have hvalue : (if i.toInt < 0 then -(i.toInt.natAbs : Int) else i.toInt.natAbs) = i.toInt := by
      split <;> omega
    rw [if_pos ⟨trivial, hrange⟩, hvalue, Int64.ofInt_toInt]

/-- `json_lex_number` reads every 64-bit integer back. -/
theorem lexNumber_ofInt (reals : Reals ρ) (i : Int64) :
    lexNumber reals (.ofInt i.toInt) = .ok (.integer i) := by
  have hlt := i.toInt_lt
  have hge := i.le_toInt
  have hpart := lexIntegerPart_ofNat (m := i.toInt.natAbs) (by omega)
  have hsign : lexSign (CStr.ofInt i.toInt).bytes =
      (decide (i.toInt < 0), Lib.Decimal.ofNat i.toInt.natAbs) := by
    change lexSign (Lib.Decimal.ofInt i.toInt) = _
    rw [Lib.Decimal.ofInt]
    by_cases h : i.toInt < 0
    · rw [if_pos h, decide_eq_true h, lexSign]
    · rw [if_neg h, decide_eq_false h]
      have hall := all_isdigit_ofNat i.toInt.natAbs
      generalize Lib.Decimal.ofNat i.toInt.natAbs = ds at hall
      unfold lexSign
      split
      · exact absurd (hall 0x2d List.mem_cons_self) (by decide)
      · rfl
  rw [lexNumber, hsign]
  simp only [hpart, bind, Except.bind, lexFraction, lexExponent, List.isEmpty_nil, if_true]
  exact figureOutNumber_integer reals _ i

/-! ## The parser on a text -/

namespace JsonParser

/-- The parser at another place of its input. -/
def moved (p : JsonParser ρ) (position : Position) : JsonParser ρ := { p with position }

/-- From `p`, wherever that is in the input, `bytes` lead to `q`. -/
def Consumes (reals : Reals ρ) (p : JsonParser ρ) (bytes : List UInt8) (q : JsonParser ρ) : Prop :=
  ∀ position, ∃ position', (p.moved position).feed reals bytes = q.moved position'

variable {reals : Reals ρ} {p q r : JsonParser ρ}

theorem Consumes.nil (p : JsonParser ρ) : Consumes reals p [] p := fun position => ⟨position, rfl⟩

theorem Consumes.append {as bs : List UInt8} (h : Consumes reals p as q)
    (h' : Consumes reals q bs r) : Consumes reals p (as ++ bs) r := by
  intro position
  obtain ⟨position₁, h₁⟩ := h position
  obtain ⟨position₂, h₂⟩ := h' position₁
  refine ⟨position₂, ?_⟩
  rw [feed, List.foldl_append]
  change feed reals (feed reals (p.moved position) as) bs = _
  rw [h₁, h₂]

/-- A byte the lexer takes. -/
theorem Consumes.byte {c : UInt8} (hdone : p.done = false)
    (h : ∀ position, (p.moved position).lexInput reals c = (q.moved position, true)) :
    Consumes reals p [c] q := by
  intro position
  refine ⟨((q.moved position).advance c).position, ?_⟩
  change offer reals 2 (p.moved position) c = _
  rw [offer, if_neg (by rw [moved, hdone]; exact Bool.false_ne_true), h]
  rfl

/-- A byte that ends a token and is offered again. -/
theorem Consumes.reoffer {c : UInt8} {rest : List UInt8} (hdone : p.done = false)
    (h : ∀ position, (p.moved position).lexInput reals c = (q.moved position, false))
    (hstart : q.lexState = .start) (hq : Consumes reals q (c :: rest) r) :
    Consumes reals p (c :: rest) r := by
  intro position
  obtain ⟨position', hq⟩ := hq position
  refine ⟨position', ?_⟩
  have hoffer : offer reals 2 (p.moved position) c = offer reals 2 (q.moved position) c := by
    rw [offer, if_neg (by rw [moved, hdone]; exact Bool.false_ne_true), h]
    exact (offer_start (p := q.moved position) hstart 1 c).symm
  rw [feed, List.foldl_cons, hoffer]
  exact hq

/-! ### Accumulating a token -/

/-- Does the lexer, in this state, take the byte and stay there? -/
def staysIn : LexState → UInt8 → Bool
  | .keyword, c => isalpha c
  | .number, c => inNumber c
  | .string, c => c != 0x5c && c != 0x22 && !(c < 0x20)
  | .start, _ | .escape, _ => false

/-- The parser inside a token, with `buffer` accumulated. -/
def inside (p : JsonParser ρ) (lexState : LexState) (buffer : List UInt8) : JsonParser ρ :=
  { p with lexState, buffer }

theorem lexInput_inside (reals : Reals ρ) (p : JsonParser ρ) {state : LexState} {c : UInt8}
    (h : staysIn state c) (buffer : List UInt8) :
    (p.inside state buffer).lexInput reals c = (p.inside state (buffer ++ [c]), true) := by
  cases state with
  | start => cases h
  | escape => cases h
  | keyword =>
    rw [staysIn] at h
    simp only [lexInput, inside, if_pos h, accumulate]
  | number =>
    rw [staysIn] at h
    simp only [lexInput, inside, if_pos h, accumulate]
  | string =>
    simp only [staysIn, Bool.and_eq_true, bne_iff_ne, Bool.not_eq_true',
      decide_eq_false_iff_not] at h
    simp only [lexInput, inside, if_neg h.1.1, if_neg h.1.2, if_neg h.2, accumulate]

/-- A run of bytes inside a token. -/
theorem consumes_inside (hdone : p.done = false) {state : LexState} :
    ∀ {bytes : List UInt8}, (∀ c ∈ bytes, staysIn state c) → ∀ buffer : List UInt8,
      Consumes reals (p.inside state buffer) bytes (p.inside state (buffer ++ bytes))
  | [], _, buffer => by
    rw [List.append_nil]
    exact .nil _
  | c :: bytes, h, buffer => by
    have hc : Consumes reals (p.inside state buffer) [c] (p.inside state (buffer ++ [c])) :=
      .byte hdone fun position =>
        lexInput_inside reals (p.moved position) (h c List.mem_cons_self) buffer
    have htail : Consumes reals (p.inside state (buffer ++ [c])) bytes
        (p.inside state (buffer ++ [c] ++ bytes)) :=
      consumes_inside hdone (fun c' hc' => h c' (List.mem_cons_of_mem c hc')) _
    rw [List.append_assoc] at htail
    exact hc.append htail

/-! ### Between tokens -/

/-- A parser between tokens that still reads. -/
structure Ready (p : JsonParser ρ) : Prop where
  lexState : p.lexState = .start
  buffer : p.buffer = []
  done : p.done = false

theorem Ready.inside (h : p.Ready) : p.inside .start [] = p := by
  obtain ⟨hstate, hbuffer, -⟩ := h
  rw [JsonParser.inside, ← hstate, ← hbuffer]

/-- The token drives the parser from `p` to `q`, wherever that is in the input
and whatever was accumulated for the token. -/
def Drives (p : JsonParser ρ) (token : Token ρ) (q : JsonParser ρ) : Prop :=
  ∀ position state buffer, ((p.inside state buffer).moved position).input token = q.moved position

theorem Drives.lexState {token : Token ρ} (h : p.Drives token q) : q.lexState = .start :=
  (congrArg JsonParser.lexState (h ⟨0, 0, 0⟩ .start [])).symm

/-- A punctuation byte is a token. -/
theorem consumes_punctuation {c : UInt8} {token : Token ρ} (hp : p.Ready)
    (hc : punctuation c = some token) (hq : p.Drives token q) : Consumes reals p [c] q := by
  refine .byte hp.done ?_
  intro position
  have hspace : ¬(c = 0x20 ∨ c = 0x09 ∨ c = 0x0a ∨ c = 0x0d) := by
    rintro (rfl | rfl | rfl | rfl) <;> cases hc
  have hletter : ¬(0x61 ≤ c ∧ c ≤ 0x7a) := by
    rintro ⟨hge, hle⟩
    unfold punctuation at hc
    split_ifs at hc with h h h h h h <;> subst h
    all_goals revert hge hle; decide
  have hstate : (p.moved position).lexState = .start := hp.lexState
  have hinput : (p.moved position).input token = q.moved position := by
    rw [← hq position .start [], hp.inside]
  simp only [lexInput, hstate, if_neg hspace, if_neg hletter, hc, hinput]

/-! ### Strings -/

theorem staysIn_hexit {n : Nat} (h : n < 16) : staysIn .string (hexit n) := by
  interval_cases n <;> rfl

/-- The escape of a byte is accumulated as it stands. -/
theorem consumes_charsEscaping (hdone : p.done = false) (c : UInt8) (buffer : List UInt8) :
    Consumes reals (p.inside .string buffer) (charsEscaping c)
      (p.inside .string (buffer ++ charsEscaping c)) := by
  have escape (e : UInt8) : Consumes reals (p.inside .string buffer) [0x5c, e]
      (p.inside .string (buffer ++ [0x5c, e])) := by
    have hbackslash : Consumes reals (p.inside .string buffer) [0x5c]
        (p.inside .escape (buffer ++ [0x5c])) := .byte hdone fun _ => rfl
    have hletter : Consumes reals (p.inside .escape (buffer ++ [0x5c])) [e]
        (p.inside .string (buffer ++ [0x5c] ++ [e])) := .byte hdone fun _ => rfl
    rw [List.append_assoc] at hletter
    exact hbackslash.append hletter
  have hentry := escaped c
  generalize charsEscaping c = entry at hentry
  cases hentry with
  | letter e => exact escape e
  | code hlt =>
    have hlow : c.toNat < 32 := UInt8.lt_iff_toNat_lt.mp hlt
    have hdigits : ∀ b ∈ [0x30, 0x30, hexit (c.toNat / 16), hexit (c.toNat % 16)],
        staysIn .string b := by
      simp only [List.mem_cons, List.not_mem_nil, or_false]
      rintro b (rfl | rfl | rfl | rfl)
      · rfl
      · rfl
      · exact staysIn_hexit (by omega)
      · exact staysIn_hexit (by omega)
    have htail : Consumes reals _ _ _ := consumes_inside hdone hdigits (buffer ++ [0x5c, 0x75])
    rw [List.append_assoc] at htail
    exact (escape 0x75).append htail
  | plain hge hquote hbackslash =>
    refine consumes_inside hdone ?_ buffer
    simp only [List.mem_singleton, forall_eq, staysIn, Bool.and_eq_true, bne_iff_ne,
      Bool.not_eq_true', decide_eq_false_iff_not]
    exact ⟨⟨hbackslash, hquote⟩, UInt8.not_lt.mpr hge⟩

theorem consumes_flatMap (hdone : p.done = false) : ∀ (s buffer : List UInt8),
    Consumes reals (p.inside .string buffer) (s.flatMap charsEscaping)
      (p.inside .string (buffer ++ s.flatMap charsEscaping))
  | [], buffer => by
    rw [List.flatMap_nil, List.append_nil]
    exact .nil _
  | c :: s, buffer => by
    have htail : Consumes reals (p.inside .string (buffer ++ charsEscaping c))
        (s.flatMap charsEscaping)
        (p.inside .string (buffer ++ charsEscaping c ++ s.flatMap charsEscaping)) :=
      consumes_flatMap hdone s _
    rw [List.append_assoc] at htail
    rw [List.flatMap_cons]
    exact (consumes_charsEscaping hdone c buffer).append htail

/-- A serialised string is read as one token. -/
theorem consumes_string (hp : p.Ready) {s : CStr} (hq : p.Drives (.string s) q) :
    Consumes reals p (serializeString s).bytes q := by
  have hopen : Consumes reals p [0x22] (p.inside .string []) := by
    refine .byte hp.done ?_
    intro position
    have hstate : (p.moved position).lexState = .start := hp.lexState
    have hbuffer : (p.moved position).buffer = [] := hp.buffer
    have hinside :
        (p.inside .string []).moved position = { p.moved position with lexState := .string } := by
      rw [← hbuffer]
      rfl
    rw [hinside]
    simp only [lexInput, hstate]
    rfl
  have hclose : Consumes reals (p.inside .string (s.bytes.flatMap charsEscaping)) [0x22] q := by
    refine .byte hp.done ?_
    intro position
    have hlex :
        lexInput reals ((p.inside .string (s.bytes.flatMap charsEscaping)).moved position) 0x22 =
        (((p.inside .string (s.bytes.flatMap charsEscaping)).moved position).inputResult
          (lexString (.ofBytes (s.bytes.flatMap charsEscaping))), true) := rfl
    rw [hlex, lexString_flatMap]
    exact congrArg (·, true) (hq position .string _)
  rw [bytes_serializeString]
  exact (hopen.append (consumes_flatMap hp.done s.bytes [])).append hclose

/-! ### Tokens that end at the next byte -/

/-- A token whose first byte opens it, whose other bytes the lexer stays in and
which the byte after it ends. -/
theorem consumes_delimited (hp : p.Ready) {state : LexState} {token : Token ρ} {first : UInt8}
    {rest after : List UInt8} {c : UInt8}
    (hfirst : ∀ p : JsonParser ρ, p.lexState = .start →
      p.lexInput reals first = (p.accumulate first state, true))
    (hrest : ∀ b ∈ rest, staysIn state b)
    (hlast : ∀ p : JsonParser ρ, p.lexState = state → p.buffer = first :: rest →
      p.lexInput reals c = (p.input token, false))
    (hq : p.Drives token q) (hr : Consumes reals q (c :: after) r) :
    Consumes reals p (first :: rest ++ c :: after) r := by
  have hopen : Consumes reals p [first] (p.inside state [first]) := by
    refine .byte hp.done ?_
    intro position
    rw [hfirst (p.moved position) hp.lexState, accumulate]
    have hbuffer : (p.moved position).buffer = [] := hp.buffer
    rw [hbuffer]
    rfl
  have hbody : Consumes reals (p.inside state [first]) rest (p.inside state (first :: rest)) :=
    consumes_inside hp.done hrest [first]
  have hend : Consumes reals (p.inside state (first :: rest)) (c :: after) r := by
    refine .reoffer hp.done ?_ hq.lexState hr
    intro position
    rw [hlast _ rfl rfl, hq position state]
  exact (hopen.append hbody).append hend

/-- The bytes that follow a value in a record. -/
def EndsValue (c : UInt8) : Prop := c = 0x2c ∨ c = 0x7d

theorem staysIn_isdigit {c : UInt8} (h : isdigit c) : staysIn .number c := by
  obtain ⟨d, hd, rfl⟩ := Lib.Decimal.exists_digit h
  interval_cases d <;> rfl

/-- A minus sign or a digit opens a number. -/
theorem lexInput_number {first : UInt8} (h : first = 0x2d ∨ isdigit first)
    (hstate : p.lexState = .start) :
    p.lexInput reals first = (p.accumulate first .number, true) := by
  simp only [lexInput, hstate]
  rcases h with rfl | h
  · rfl
  · obtain ⟨d, hd, rfl⟩ := Lib.Decimal.exists_digit h
    interval_cases d <;> rfl

/-- An integer is read as one token. -/
theorem consumes_integer (hp : p.Ready) {i : Int64} {c : UInt8} {after : List UInt8}
    (hc : EndsValue c) (hq : p.Drives (.integer i) q) (hr : Consumes reals q (c :: after) r) :
    Consumes reals p ((CStr.ofInt i.toInt).bytes ++ c :: after) r := by
  have hlast (p : JsonParser ρ) (hstate : p.lexState = .number)
      (hbuffer : p.buffer = (CStr.ofInt i.toInt).bytes) :
      p.lexInput reals c = (p.input (.integer i), false) := by
    have hends : inNumber c = false := by
      rcases hc with rfl | rfl <;> rfl
    simp only [lexInput, hstate, hends, hbuffer, CStr.ofBytes_bytes, lexNumber_ofInt, inputResult,
      Bool.false_eq_true, if_false]
  obtain ⟨first, rest, hbytes, hfirst, hrest⟩ : ∃ first rest,
      (CStr.ofInt i.toInt).bytes = first :: rest ∧ (first = 0x2d ∨ isdigit first) ∧
        ∀ b ∈ rest, isdigit b := by
    change ∃ first rest, Lib.Decimal.ofInt i.toInt = first :: rest ∧ _
    have hall := all_isdigit_ofNat i.toInt.natAbs
    rw [Lib.Decimal.ofInt]
    split
    · exact ⟨0x2d, _, rfl, .inl rfl, hall⟩
    · obtain ⟨first, rest, hbytes⟩ := List.exists_cons_of_ne_nil
        (Lib.Decimal.ofNat_ne_nil i.toInt.natAbs)
      rw [hbytes] at hall ⊢
      exact ⟨first, rest, rfl, .inr (hall first List.mem_cons_self),
        fun b hb => hall b (List.mem_cons_of_mem first hb)⟩
  rw [hbytes] at hlast ⊢
  exact consumes_delimited hp (fun _ => lexInput_number hfirst)
    (fun b hb => staysIn_isdigit (hrest b hb)) hlast hq hr

/-- The token of a boolean. -/
def tokenOfBool : Bool → Token ρ
  | false => .false
  | true => .true

theorem bytes_serialize_boolean (reals : Reals ρ) : ∀ b, (serialize reals (.boolean b)).bytes =
    if b then [0x74, 0x72, 0x75, 0x65] else [0x66, 0x61, 0x6c, 0x73, 0x65]
  | false => rfl
  | true => rfl

/-- A boolean is read as one token. -/
theorem consumes_boolean (hp : p.Ready) {b : Bool} {c : UInt8} {after : List UInt8}
    (hc : EndsValue c) (hq : p.Drives (tokenOfBool b) q) (hr : Consumes reals q (c :: after) r) :
    Consumes reals p ((serialize reals (.boolean b)).bytes ++ c :: after) r := by
  have hends : isalpha c = false := by
    rcases hc with rfl | rfl <;> rfl
  have hlast (hword : lexKeyword (serialize reals (.boolean b)) = .ok (tokenOfBool b : Token ρ))
      (p : JsonParser ρ) (hstate : p.lexState = .keyword)
      (hbuffer : p.buffer = (serialize reals (.boolean b)).bytes) :
      p.lexInput reals c = (p.input (tokenOfBool b), false) := by
    simp only [lexInput, hstate, hends, hbuffer, CStr.ofBytes_bytes, hword, inputResult,
      Bool.false_eq_true, if_false]
  cases b with
  | false =>
    rw [bytes_serialize_boolean, if_neg Bool.false_ne_true] at hlast ⊢
    exact consumes_delimited hp (fun p h => by simp only [lexInput, h]; rfl)
      (List.all_eq_true.mp rfl) (hlast rfl) hq hr
  | true =>
    rw [bytes_serialize_boolean, if_pos rfl] at hlast ⊢
    exact consumes_delimited hp (fun p h => by simp only [lexInput, h]; rfl)
      (List.all_eq_true.mp rfl) (hlast rfl) hq hr

/-- The token a scalar is serialised as. -/
def tokenOf : Scalar → Token ρ
  | .string s => .string s
  | .integer i => .integer i
  | .boolean b => tokenOfBool b

/-- A SCALAR IS READ BACK: the text of a value, and the byte after it. -/
theorem consumes_scalar (hp : p.Ready) {x : Scalar} {c : UInt8} {after : List UInt8}
    (hc : EndsValue c) (hq : p.Drives (tokenOf x) q) (hr : Consumes reals q (c :: after) r) :
    Consumes reals p ((serialize reals x.toJson).bytes ++ c :: after) r := by
  cases x with
  | string s => exact (consumes_string hp hq).append hr
  | integer i => exact consumes_integer hp hc hq hr
  | boolean b => exact consumes_boolean hp hc hq hr

/-! ### Flat objects -/

/-- The parser inside an object that is not nested. -/
def inObject (members : List (CStr × Json ρ)) (memberName : Option CStr) (parseState : ParseState) :
    JsonParser ρ :=
  { (create true : JsonParser ρ) with stack := [⟨.object members, none⟩], memberName, parseState }

theorem ready_create : (create true : JsonParser ρ).Ready := ⟨rfl, rfl, rfl⟩

section

variable {members : List (CStr × Json ρ)} {name : Option CStr} {state : ParseState}

theorem ready_inObject : (inObject members name state).Ready := ⟨rfl, rfl, rfl⟩

theorem drives_begin :
    (create true : JsonParser ρ).Drives .beginObject (inObject [] none .objectInit) :=
  fun _ _ _ => rfl

theorem drives_name (s : CStr) (hstate : state = .objectInit ∨ state = .objectName) :
    (inObject members none state).Drives (.string s) (inObject members (some s) .objectColon) := by
  rcases hstate with rfl | rfl
  · exact fun _ _ _ => rfl
  · exact fun _ _ _ => rfl

theorem drives_colon :
    (inObject members name .objectColon).Drives .nameSeparator
      (inObject members name .objectValue) :=
  fun _ _ _ => rfl

theorem drives_scalar (s : CStr) (x : Scalar) :
    (inObject members (some s) .objectValue).Drives (tokenOf x)
      (inObject (Lib.Assoc.put members s x.toJson) none .objectNext) := by
  cases x with
  | string s => exact fun _ _ _ => rfl
  | integer i => exact fun _ _ _ => rfl
  | boolean b => cases b <;> exact fun _ _ _ => rfl

theorem drives_comma :
    (inObject members name .objectNext).Drives .valueSeparator
      (inObject members name .objectName) :=
  fun _ _ _ => rfl

theorem drives_end (hstate : state = .objectInit ∨ state = .objectNext) :
    (inObject members name state).Drives .endObject (inObject members name .end) := by
  rcases hstate with rfl | rfl
  · exact fun _ _ _ => rfl
  · exact fun _ _ _ => rfl

end

/-- The text of the members of a record, a comma before each but the first. -/
def membersText (reals : Reals ρ) (first : Bool) (members : List (CStr × Scalar)) : List UInt8 :=
  (serializeMembers reals first (members.map fun m => (m.1, (m.2.toJson : Json ρ)))).bytes

theorem membersText_cons (reals : Reals ρ) (first : Bool) (m : CStr × Scalar)
    (members : List (CStr × Scalar)) :
    membersText reals first (m :: members) =
      (if first then [] else [0x2c]) ++ (serializeString m.1).bytes ++ [0x3a] ++
        (serialize reals (m.2.toJson : Json ρ)).bytes ++ membersText reals false members := by
  cases first <;> rfl

/-- What follows the value of a member ends it. -/
theorem membersText_ends (reals : Reals ρ) (members : List (CStr × Scalar)) :
    ∃ c after, membersText reals false members ++ [0x7d] = c :: after ∧ EndsValue c := by
  cases members with
  | nil => exact ⟨0x7d, [], rfl, .inr rfl⟩
  | cons m members =>
    rw [membersText_cons]
    exact ⟨0x2c, _, rfl, .inl rfl⟩

/-- One member: its name, a colon and its value. -/
theorem consumes_member {members : List (CStr × Json ρ)} {state : ParseState}
    (hstate : state = .objectInit ∨ state = .objectName) (m : CStr × Scalar) {c : UInt8}
    {after : List UInt8} (hc : EndsValue c)
    (hr : Consumes reals (inObject (Lib.Assoc.put members m.1 m.2.toJson) none .objectNext)
      (c :: after) r) :
    Consumes reals (inObject members none state)
      ((serializeString m.1).bytes ++ [0x3a] ++ ((serialize reals (m.2.toJson : Json ρ)).bytes ++
        c :: after)) r := by
  have hname : Consumes reals (inObject members none state) _ _ :=
    consumes_string ready_inObject (drives_name m.1 hstate)
  have hcolon : Consumes reals (inObject members (some m.1) .objectColon) [0x3a] _ :=
    consumes_punctuation ready_inObject rfl drives_colon
  exact (hname.append hcolon).append
    (consumes_scalar ready_inObject hc (drives_scalar m.1 m.2) hr)

/-- The members after the first, and the brace that ends the object. -/
theorem consumes_members : ∀ (ms : List (CStr × Scalar)) (members : List (CStr × Json ρ)),
    Consumes reals (inObject members none .objectNext) (membersText reals false ms ++ [0x7d])
      (inObject (ms.foldl (fun l m => Lib.Assoc.put l m.1 m.2.toJson) members) none .end)
  | [], members => consumes_punctuation ready_inObject rfl (drives_end (.inr rfl))
  | m :: ms, members => by
    obtain ⟨c, after, htext, hc⟩ := membersText_ends reals ms
    have htail := consumes_members ms (Lib.Assoc.put members m.1 m.2.toJson)
    rw [htext] at htail
    have hcomma : Consumes reals (inObject members none .objectNext) [0x2c] _ :=
      consumes_punctuation ready_inObject rfl drives_comma
    have hmember := hcomma.append (consumes_member (.inr rfl) m hc htail)
    rw [← htext] at hmember
    rw [membersText_cons]
    simpa only [List.append_assoc, Bool.false_eq_true, if_false, List.foldl_cons] using hmember

/-- The text of a record leads to the end of an object with its members. -/
theorem consumes_record (ms : List (CStr × Scalar)) :
    Consumes reals (create true : JsonParser ρ) ([0x7b] ++ (membersText reals true ms ++ [0x7d]))
      (inObject (ms.foldl (fun l m => Lib.Assoc.put l m.1 m.2.toJson) []) none .end) := by
  apply (consumes_punctuation ready_create rfl drives_begin).append
  cases ms with
  | nil => exact consumes_punctuation ready_inObject rfl (drives_end (.inl rfl))
  | cons m ms =>
    obtain ⟨c, after, htext, hc⟩ := membersText_ends reals ms
    have htail : Consumes reals _ _ _ := consumes_members ms (Lib.Assoc.put [] m.1 m.2.toJson)
    rw [htext] at htail
    have hmember := consumes_member (.inl rfl) m hc htail
    rw [← htext] at hmember
    rw [membersText_cons]
    simpa only [List.append_assoc, if_true, List.nil_append, List.foldl_cons] using hmember

theorem finish_inObject (reals : Reals ρ) (members : List (CStr × Json ρ)) (position : Position) :
    ((inObject members none .end).moved position).finish reals = some (.object members) := rfl

end JsonParser

/-- The text of a record. -/
theorem bytes_jsonToString (reals : Reals ρ) (r : Record) :
    (jsonToString reals (r.toJson : Json ρ)).bytes =
      [0x7b] ++ (JsonParser.membersText reals true r.members ++ [0x7d]) := by
  rw [jsonToString, Record.toJson, serialize, JsonParser.membersText]
  simp only [CStr.bytes_append, List.append_assoc]
  rfl

/-- `json_from_string` READS A RECORD BACK, member by member in the same
order. -/
theorem jsonFromString_jsonToString (reals : Reals ρ) (r : Record) :
    jsonFromString reals (jsonToString reals (r.toJson : Json ρ)) = some r.toJson := by
  have hconsumes : JsonParser.Consumes reals _ _ _ := JsonParser.consumes_record r.members
  obtain ⟨position, hfeed⟩ := hconsumes ⟨0, 0, 0⟩
  have hkeys : (Lib.Assoc.keys (r.members.map fun m => (m.1, (m.2.toJson : Json ρ)))).Nodup := by
    rw [Lib.Assoc.keys, List.map_map]
    exact r.nodup
  have hput := Lib.Assoc.foldl_put (l := []) hkeys
  rw [List.foldl_map, List.nil_append] at hput
  rw [hput] at hfeed
  change ((JsonParser.create true).feed reals _).finish reals = _
  rw [bytes_jsonToString]
  change ((JsonParser.create true : JsonParser ρ).feed reals _) = _ at hfeed
  rw [hfeed, JsonParser.finish_inObject, Record.toJson]

end LogCollector
