import LogCollector.Json.Serialize

/-!
# Tokens of JSON text

The parts of the lexer that look at a finished token: `json_lex_keyword`,
`json_lex_number` and `json_lex_string` with `json_string_unescape`. Each is
given the text accumulated in the parser's buffer and answers a token, or the
message `json_error` reports.

A number is read into an `unsigned long long` significand and a decimal
exponent. The test before each digit lets the last multiplication overflow, so
the arithmetic is modulo `2 ^ 64` here too.
-/

namespace LogCollector

/-- `struct json_token`. -/
inductive Token (ρ : Type)
  | beginObject
  | endObject
  | beginArray
  | endArray
  | nameSeparator
  | valueSeparator
  | false
  | null
  | true
  | integer (i : Int64)
  | real (x : ρ)
  | string (s : CStr)

variable {ρ : Type}

/-- `json_lex_keyword`. -/
def lexKeyword (s : CStr) : Except CStr (Token ρ) :=
  if s = .lit "false" then .ok .false
  else if s = .lit "true" then .ok .true
  else if s = .lit "null" then .ok .null
  else .error (.lit "invalid keyword '" ++ s ++ .lit "'")

/-! ## Numbers -/

def ULLONG_MAX : Nat := 18446744073709551615

def LLONG_MAX : Nat := 9223372036854775807

def INT_MAX : Int := 2147483647

def INT_MIN : Int := -2147483648

/-- `isdigit`. -/
def isdigit (c : UInt8) : Bool := Lib.Decimal.isDigit c

/-- The number read so far. `pow10` is an `int`: a digit moves it by one at most, and an exponent
is added only where the sum is one, so that a number of fewer than `2 ^ 31` bytes does not
overflow it. -/
structure Significand where
  significand : Nat
  pow10 : Int
  imprecise : Bool

namespace Significand

/-- One digit of the integer part. -/
def integerDigit (n : Significand) (c : UInt8) : Significand :=
  if n.significand ≤ ULLONG_MAX / 10 then
    { n with significand := (n.significand * 10 + Lib.Decimal.value c) % 2 ^ 64 }
  else { n with pow10 := n.pow10 + 1, imprecise := n.imprecise || c != 0x30 }

/-- One digit of the fraction. -/
def fractionDigit (n : Significand) (c : UInt8) : Significand :=
  if n.significand ≤ ULLONG_MAX / 10 then
    { n with
      significand := (n.significand * 10 + Lib.Decimal.value c) % 2 ^ 64
      pow10 := n.pow10 - 1 }
  else { n with imprecise := n.imprecise || c != 0x30 }

/-- `while (pow10 > 0 && significand < ULLONG_MAX / 10)`, for `pow10` as a
natural number. -/
def scaleUp : Nat → Nat → Nat × Nat
  | 0, significand => (0, significand)
  | pow10 + 1, significand =>
    if significand < ULLONG_MAX / 10 then scaleUp pow10 (significand * 10 % 2 ^ 64)
    else (pow10 + 1, significand)

/-- `while (pow10 < 0 && significand % 10 == 0)`, for `-pow10`. -/
def scaleDown : Nat → Nat → Nat × Nat
  | 0, significand => (0, significand)
  | pow10 + 1, significand =>
    if significand % 10 = 0 then scaleDown pow10 (significand / 10) else (pow10 + 1, significand)

/-- Both scaling loops; at most one of them runs. -/
def scale (n : Significand) : Significand :=
  let (up, significand) := scaleUp n.pow10.toNat n.significand
  let (down, significand) := scaleDown (-n.pow10).toNat significand
  { n with significand, pow10 := (up : Int) - down }

end Significand

/-- The integer part: at least one digit, and `0` only alone. -/
def lexIntegerPart : List UInt8 → Except CStr (Significand × List UInt8)
  | 0x30 :: cp =>
    if cp.head?.any isdigit then .error (.lit "leading zeros not allowed")
    else .ok (⟨0, 0, false⟩, cp)
  | cp =>
    if cp.head?.any isdigit then
      .ok ((cp.takeWhile isdigit).foldl Significand.integerDigit ⟨0, 0, false⟩,
        cp.dropWhile isdigit)
    else .error (.lit "'-' must be followed by digit")

/-- The optional fraction. -/
def lexFraction (n : Significand) : List UInt8 → Except CStr (Significand × List UInt8)
  | 0x2e :: cp =>
    if cp.head?.any isdigit then
      .ok ((cp.takeWhile isdigit).foldl Significand.fractionDigit n, cp.dropWhile isdigit)
    else .error (.lit "decimal point must be followed by digit")
  | cp => .ok (n, cp)

/-- The digits of the exponent; `none` is `goto bad_exponent`. -/
def exponentOf : List UInt8 → Int → Option Int
  | [], exponent => some exponent
  | c :: cp, exponent =>
    if exponent ≥ INT_MAX / 10 then none else exponentOf cp (exponent * 10 + Lib.Decimal.value c)

/-- The optional exponent. -/
def lexExponent (n : Significand) : List UInt8 → Except CStr (Significand × List UInt8)
  | c :: cp =>
    if c = 0x65 ∨ c = 0x45 then
      let (negativeExponent, cp) := match cp with
        | 0x2b :: cp => (false, cp)
        | 0x2d :: cp => (true, cp)
        | cp => (false, cp)
      let badExponent := CStr.lit "exponent outside valid range"
      if cp.head?.any isdigit then
        match exponentOf (cp.takeWhile isdigit) 0 with
        | none => .error badExponent
        | some exponent =>
          if negativeExponent then
            if n.pow10 < INT_MIN + exponent then .error badExponent
            else .ok ({ n with pow10 := n.pow10 - exponent }, cp.dropWhile isdigit)
          else if n.pow10 > INT_MAX - exponent then .error badExponent
          else .ok ({ n with pow10 := n.pow10 + exponent }, cp.dropWhile isdigit)
      else .error (.lit "exponent must contain at least one digit")
    else .ok (n, c :: cp)
  | [] => .ok (n, [])

/-- The number as a `double`. -/
def lexReal (reals : Reals ρ) (s : CStr) : Except CStr (Token ρ) :=
  match reals.strToDouble s with
  | none => .error (.lit "number outside valid range")
  | some x => .ok (.real (reals.suppressNegativeZero x))

/-- What a number that was read without an error denotes. -/
def figureOutNumber (reals : Reals ρ) (s : CStr) (negative : Bool) (n : Significand) :
    Except CStr (Token ρ) :=
  if n.significand = 0 then .ok (.integer 0)
  else if n.imprecise then lexReal reals s
  else
    let n := n.scale
    if n.pow10 = 0 ∧ n.significand ≤ (if negative then LLONG_MAX + 1 else LLONG_MAX) then
      .ok (.integer (Int64.ofInt (if negative then -(n.significand : Int) else n.significand)))
    else lexReal reals s

/-- The optional minus sign. -/
def lexSign : List UInt8 → Bool × List UInt8
  | 0x2d :: cp => (true, cp)
  | cp => (false, cp)

/-- `json_lex_number`. -/
def lexNumber (reals : Reals ρ) (s : CStr) : Except CStr (Token ρ) := do
  let (negative, cp) := lexSign s.bytes
  let (n, cp) ← lexIntegerPart cp
  let (n, cp) ← lexFraction n cp
  let (n, cp) ← lexExponent n cp
  if cp.isEmpty then figureOutNumber reals s negative n
  else .error (.lit "syntax error in number")

/-! ## Strings -/

/-- `hexit_value`; `none` is `-1`. -/
def hexitValue (c : UInt8) : Option Nat :=
  if 0x30 ≤ c ∧ c ≤ 0x39 then some (c.toNat - 0x30)
  else if 0x61 ≤ c ∧ c ≤ 0x66 then some (c.toNat - 0x61 + 0xa)
  else if 0x41 ≤ c ∧ c ≤ 0x46 then some (c.toNat - 0x41 + 0xa)
  else none

/-- `hexits_value`; `none` is `*ok = false`. -/
def hexitsValue (s : List UInt8) : Option Nat :=
  s.foldl (fun value c => value.bind fun v => (hexitValue c).map (v * 16 + ·)) (some 0)

/-- `json_lex_4hex`, with the text after the four digits. -/
def lex4hex : List UInt8 → Except CStr (Nat × List UInt8)
  | a :: b :: c :: d :: cp =>
    match hexitsValue [a, b, c, d] with
    | none => .error (.lit "malformed \\u escape")
    | some 0 => .error (.lit "null bytes not supported in quoted strings")
    | some (value + 1) => .ok (value + 1, cp)
  | _ => .error (.lit "quoted string ends within \\u escape")

/-- `ds_put_utf8`. -/
def putUtf8 (uc : Nat) : List UInt8 :=
  if uc ≤ 0x7f then [UInt8.ofNat uc]
  else if uc ≤ 0x7ff then [UInt8.ofNat (0xc0 ||| (uc >>> 6)), UInt8.ofNat (0x80 ||| (uc &&& 0x3f))]
  else if uc ≤ 0xffff then
    [UInt8.ofNat (0xe0 ||| (uc >>> 12)), UInt8.ofNat (0x80 ||| ((uc >>> 6) &&& 0x3f)),
      UInt8.ofNat (0x80 ||| (uc &&& 0x3f))]
  else if uc ≤ 0x10ffff then
    [UInt8.ofNat (0xf0 ||| (uc >>> 18)), UInt8.ofNat (0x80 ||| ((uc >>> 12) &&& 0x3f)),
      UInt8.ofNat (0x80 ||| ((uc >>> 6) &&& 0x3f)), UInt8.ofNat (0x80 ||| (uc &&& 0x3f))]
  else [0xef, 0xbf, 0xbd]

/-- `uc_is_leading_surrogate`. -/
def isLeadingSurrogate (c : Nat) : Bool := 0xd800 ≤ c && c ≤ 0xdbff

/-- `uc_is_trailing_surrogate`. -/
def isTrailingSurrogate (c : Nat) : Bool := 0xdc00 ≤ c && c ≤ 0xdfff

/-- `utf16_decode_surrogate_pair`. -/
def utf16DecodeSurrogatePair (leading trailing : Nat) : Nat :=
  let w := (leading >>> 6) &&& 0xf
  let u := w + 1
  let x0 := leading &&& 0x3f
  let x1 := trailing &&& 0x3ff
  (u <<< 16) ||| (x0 <<< 10) ||| x1

/-- `json_lex_unicode`: the bytes it puts, and the text after the escape. -/
def lexUnicode (cp : List UInt8) : Except CStr (List UInt8 × List UInt8) :=
  match lex4hex cp with
  | .error e => .error e
  | .ok (c0, cp) =>
    if isLeadingSurrogate c0 then
      match cp with
      | 0x5c :: 0x75 :: cp =>
        match lex4hex cp with
        | .error e => .error e
        | .ok (c1, cp) =>
          if isTrailingSurrogate c1 then .ok (putUtf8 (utf16DecodeSurrogatePair c0 c1), cp)
          else .error
            (.lit "second half of escaped surrogate pair is not trailing surrogate")
      | _ => .error (.lit "malformed escaped surrogate pair")
    else .ok (putUtf8 c0, cp)

theorem lex4hex_length {cp rest : List UInt8} {value : Nat} (h : lex4hex cp = .ok (value, rest)) :
    rest.length < cp.length := by
  unfold lex4hex at h
  split at h
  · split at h
    · cases h
    · cases h
    · obtain ⟨-, rfl⟩ := Prod.mk.inj (Except.ok.inj h)
      simp only [List.length_cons]
      omega
  · cases h

theorem lexUnicode_length {cp rest bytes : List UInt8} (h : lexUnicode cp = .ok (bytes, rest)) :
    rest.length < cp.length := by
  unfold lexUnicode at h
  split at h
  · cases h
  · next c0 cp' h0 =>
    have hlt := lex4hex_length h0
    split at h
    · split at h
      · split at h
        · cases h
        · next h1 =>
          have hlt' := lex4hex_length h1
          split at h
          · obtain ⟨-, rfl⟩ := Prod.mk.inj (Except.ok.inj h)
            simp only [List.length_cons] at hlt
            omega
          · cases h
      · cases h
    · obtain ⟨-, rfl⟩ := Prod.mk.inj (Except.ok.inj h)
      exact hlt

/-- The byte a single-letter escape stands for. -/
def simpleEscape (c : UInt8) : Option UInt8 :=
  if c = 0x22 ∨ c = 0x5c ∨ c = 0x2f then some c
  else if c = 0x62 then some 0x08
  else if c = 0x66 then some 0x0c
  else if c = 0x6e then some 0x0a
  else if c = 0x72 then some 0x0d
  else if c = 0x74 then some 0x09
  else none

/-- `json_string_unescape`. -/
def stringUnescape : List UInt8 → Except CStr (List UInt8)
  | [] => .ok []
  | c :: cp =>
    if c = 0x22 then .error (.lit "quoted string may not include unescaped \"")
    else if c = 0x5c then
      match cp with
      | [] => .error (.lit "quoted string may not end with backslash")
      | e :: cp =>
        match simpleEscape e with
        | some b => (stringUnescape cp).map (b :: ·)
        | none =>
          if e = 0x75 then
            match _h : lexUnicode cp with
            | .error message => .error message
            | .ok (bytes, rest) => (stringUnescape rest).map (bytes ++ ·)
          else .error (.lit "bad escape \\" ++ .ofBytes [e])
    else (stringUnescape cp).map (c :: ·)
termination_by cp => cp.length
decreasing_by
  · simp only [List.length_cons]; omega
  · have := lexUnicode_length _h
    simp only [List.length_cons]; omega
  · simp only [List.length_cons]; omega

/-- `json_lex_string`. -/
def lexString (raw : CStr) : Except CStr (Token ρ) :=
  if (0x5c : UInt8) ∈ raw.bytes then
    (stringUnescape raw.bytes).map fun cooked => .string (.ofBytes cooked)
  else .ok (.string raw)

end LogCollector
