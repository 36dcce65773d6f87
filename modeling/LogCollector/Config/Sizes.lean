import LogCollector.Config.Handlers

/-!
# Size directives

`temp_file_size` and `json_file_size` take a decimal number of megabytes or gigabytes, and
fall back to 100 MB for what is neither. Over the numbers that fit the handlers do so
(`sizes_as_specified_iff`). What they fall back to is 99 MB, a token that is no number is
multiplied as -1, and a number that does not fit wraps: 100 MB comes out by accident only.
-/

namespace LogCollector

/-- A decimal number followed by a unit. -/
def NumberThen (unit value : CStr) (n : Nat) : Prop :=
  ∃ digits : List UInt8, digits ≠ [] ∧ (∀ c ∈ digits, Lib.Decimal.isDigit c) ∧
    value.bytes = digits ++ unit.bytes ∧ Lib.Decimal.fold digits 0 = n

/-- The size in bytes a value stands for. The product has to fit in 63 bits. -/
inductive SpecifiedSize (value : CStr) : Nat → Prop
  | megabytes (n : Nat) (hvalue : NumberThen (.lit "MB") value n) (hfits : n * 2 ^ 20 < 2 ^ 63) :
    SpecifiedSize value (n * 2 ^ 20)
  | gigabytes (n : Nat) (hvalue : NumberThen (.lit "GB") value n) (hfits : n * 2 ^ 30 < 2 ^ 63) :
    SpecifiedSize value (n * 2 ^ 30)
  | fallback (hmega : ∀ n, NumberThen (.lit "MB") value n → ¬n * 2 ^ 20 < 2 ^ 63)
      (hgiga : ∀ n, NumberThen (.lit "GB") value n → ¬n * 2 ^ 30 < 2 ^ 63) :
    SpecifiedSize value (100 * 2 ^ 20)

/-- The size directives. -/
inductive SizeKey
  | temp_file_size
  | json_file_size

namespace SizeKey

def handler : SizeKey → ConfigHandler
  | temp_file_size => cfgKeyTempFileSize
  | json_file_size => cfgKeyJsonFileSize

/-- The member a directive stores into. -/
def member : SizeKey → ConfigData → UInt64
  | temp_file_size, config => config.temp_file_size
  | json_file_size, config => config.json_file_size

end SizeKey

/-- The size a value stands for is stored: it is not negative as a signed number, and it is
zero only where zero is written. -/
def SizeAsSpecified (key : SizeKey) (value : CStr) (config : ConfigData) : Prop :=
  ∃ config', key.handler value config = .ok (SUCCESS, config') ∧
    SpecifiedSize value (key.member config').toNat ∧ (key.member config').toNat < 2 ^ 63 ∧
      ((key.member config').toNat = 0 →
        NumberThen (.lit "MB") value 0 ∨ NumberThen (.lit "GB") value 0)

/-- A number with its unit that fits, or a text with `MB` in it whose first token is a
number that is 100 but for multiples of 2 ^ 44. -/
def SizeAsWritten (value : CStr) : Prop :=
  (∃ n, NumberThen (.lit "MB") value n ∧ n * 2 ^ 20 < 2 ^ 63) ∨
    (∃ n, NumberThen (.lit "GB") value n ∧ n * 2 ^ 30 < 2 ^ 63) ∨
      value.strstr (.lit "MB") ∧ ∃ token, firstToken (.lit "MB") value = some token ∧
        (parseDecimal token).toInt % 2 ^ 44 = 100

/-! ## Numbers -/

section

variable {digits : List UInt8}

/-- A run of digits is read to its end. -/
theorem strtoull_digits (str : CStr) (hne : str.bytes ≠ [])
    (hdigits : ∀ c ∈ str.bytes, Lib.Decimal.isDigit c) :
    strtoull str = (if 2 ^ 64 ≤ Lib.Decimal.fold str.bytes 0 then -1
      else UInt64.ofNat (Lib.Decimal.fold str.bytes 0), []) := by
  have hspaces : str.bytes.dropWhile CStr.isspace = str.bytes := by
    cases hbytes : str.bytes with
    | nil => rfl
    | cons c text =>
      rw [List.dropWhile_cons_of_neg]
      rw [CStr.not_isspace_of_isDigit (hdigits c (by rw [hbytes]; exact List.mem_cons_self))]
      decide
  have htake : str.bytes.takeWhile Lib.Decimal.isDigit = str.bytes :=
    List.takeWhile_eq_self_iff.mpr hdigits
  unfold strtoull
  simp only [hspaces]
  split
  · next text htext =>
    exact absurd (hdigits 45 (by rw [htext]; exact List.mem_cons_self)) (by decide)
  · next text htext =>
    exact absurd (hdigits 43 (by rw [htext]; exact List.mem_cons_self)) (by decide)
  · rw [htake, if_neg hne, List.drop_length]
    split
    · rfl
    · rfl

/-- A number that is too large is no number. -/
theorem parseDecimal_digits (str : CStr) (hne : str.bytes ≠ [])
    (hdigits : ∀ c ∈ str.bytes, Lib.Decimal.isDigit c) :
    parseDecimal str = if Lib.Decimal.fold str.bytes 0 < 2 ^ 63
      then Int64.ofNat (Lib.Decimal.fold str.bytes 0) else -1 := by
  have hstr : str ≠ .empty := fun h => hne (congrArg CStr.bytes h)
  unfold parseDecimal
  rw [strtoull_digits str hne hdigits]
  generalize Lib.Decimal.fold str.bytes 0 = n
  dsimp only
  by_cases hlarge : 2 ^ 64 ≤ n
  · rw [if_pos hlarge, if_pos (.inr (.inr (by decide))), if_neg (by omega)]
  · rw [if_neg hlarge, UInt64.toNat_ofNat_of_lt' (show n < 2 ^ 64 by omega)]
    by_cases hfits : n < 2 ^ 63
    · rw [if_pos hfits, if_neg]
      · rfl
      · rintro (h | h | h)
        · exact hstr h
        · exact h rfl
        · omega
    · rw [if_neg hfits, if_pos (.inr (.inr (by omega)))]

end

/-- A signed number as an unsigned one. -/
theorem toNat_toUInt64 (x : Int64) : (x.toUInt64.toNat : Int) = x.toInt % 2 ^ 64 := by
  have hbmod : x.toInt = Int.bmod x.toUInt64.toNat (2 ^ 64) := x.toBitVec.toInt_eq_toNat_bmod
  rw [hbmod, show ((2 : Int) ^ 64) = ((2 ^ 64 : Nat) : Int) from rfl, Int.bmod_emod]
  exact (Int.emod_eq_of_lt (Int.natCast_nonneg _) (by exact_mod_cast x.toUInt64.toNat_lt)).symm

/-- What is stored for a token: the product, modulo 2 ^ 64. -/
theorem toNat_scaled (x size : Int64) :
    (x * size).toUInt64.toNat = x.toUInt64.toNat * size.toUInt64.toNat % 2 ^ 64 := by
  rw [Int64.toUInt64_mul, UInt64.toNat_mul]

/-! ## Tokens -/

section

variable {unit value : CStr} {n : Nat}

/-- No byte of a unit is a digit. -/
def IsUnit (unit : CStr) : Prop :=
  unit.bytes ≠ [] ∧ ∀ c ∈ unit.bytes, Lib.Decimal.isDigit c = false

/-- The token in front of a unit is the number. -/
theorem NumberThen.token (hunit : IsUnit unit) (h : NumberThen unit value n) :
    ∃ token, firstToken unit value = some token ∧
      parseDecimal token = if n < 2 ^ 63 then Int64.ofNat n else -1 := by
  obtain ⟨digits, hne, hdigits, hbytes, rfl⟩ := h
  have hnul : (0 : UInt8) ∉ digits := fun h0 => absurd (hdigits 0 h0) (by decide)
  have hread : (CStr.ofBytes digits).bytes = digits := CStr.bytes_ofBytes hnul
  have hnot (c : UInt8) (hc : c ∈ digits) : c ∉ unit.bytes := by
    intro hmem
    have := hunit.2 c hmem
    rw [hdigits c hc] at this
    cases this
  have htake : (digits ++ unit.bytes).takeWhile (· ∉ unit.bytes) = digits := by
    rw [List.takeWhile_append_of_pos (by simpa using hnot)]
    cases hletters : unit.bytes with
    | nil => simp
    | cons c letters => simp
  refine ⟨.ofBytes digits, ?_, ?_⟩
  · unfold firstToken
    rw [hbytes]
    cases hsplit : digits with
    | nil => exact absurd hsplit hne
    | cons c rest =>
      have hc := hnot c (by rw [hsplit]; exact List.mem_cons_self)
      rw [List.cons_append, List.dropWhile_cons_of_neg (by simpa using hc)]
      dsimp only
      rw [← List.cons_append, ← hsplit, htake]
  · have hparse := parseDecimal_digits (.ofBytes digits) (by rw [hread]; exact hne)
      (by rw [hread]; exact hdigits)
    rw [hread] at hparse
    exact hparse

/-- The unit occurs in the value. -/
theorem NumberThen.strstr (h : NumberThen unit value n) : value.strstr unit := by
  obtain ⟨digits, -, -, hbytes, -⟩ := h
  refine decide_eq_true ⟨digits, [], ?_⟩
  rw [List.append_nil, hbytes]

end

/-! ## Stored sizes -/

/-- The size that is stored for a value. -/
def storedSize (value : CStr) : Except Fault UInt64 :=
  if value = .empty then .ok HUN_MB_SIZE
  else if value.strstr (.lit "MB") then sizeInUnit (.lit "MB") MB_SIZE value
  else if value.strstr (.lit "GB") then sizeInUnit (.lit "GB") GB_SIZE value
  else .ok HUN_MB_SIZE

namespace SizeKey

/-- The configuration with a size stored. -/
def store : SizeKey → UInt64 → ConfigData → ConfigData
  | temp_file_size, size, config => { config with temp_file_size := size }
  | json_file_size, size, config => { config with json_file_size := size }

@[simp] theorem member_store (key : SizeKey) (size : UInt64) (config : ConfigData) :
    key.member (key.store size config) = size := by
  cases key
  all_goals rfl

/-- Both handlers store the same size. -/
theorem handler_eq (key : SizeKey) (value : CStr) (config : ConfigData) :
    key.handler value config =
      (storedSize value).map fun size => (SUCCESS, key.store size config) := by
  have hbody : key.handler = sizeHandler key.store := by
    cases key
    all_goals rfl
  rw [hbody]
  unfold sizeHandler storedSize
  split
  · rfl
  · split
    · rfl
    · split
      all_goals rfl

end SizeKey

section

variable {value : CStr} {n : Nat}

theorem isUnit_megabytes : IsUnit (.lit "MB") := by
  unfold IsUnit
  decide +kernel

theorem isUnit_gigabytes : IsUnit (.lit "GB") := by
  unfold IsUnit
  decide +kernel

theorem ne_empty_of_strstr {unit : CStr} (hne : unit.bytes ≠ []) (h : value.strstr unit) :
    value ≠ .empty := by
  rintro rfl
  exact hne (List.eq_nil_of_infix_nil (of_decide_eq_true h))

theorem storedSize_megabytes (h : value.strstr (.lit "MB")) :
    storedSize value = sizeInUnit (.lit "MB") MB_SIZE value := by
  unfold storedSize
  rw [if_neg (ne_empty_of_strstr isUnit_megabytes.1 h), if_pos h]

/-- A number of gigabytes has no `M`. -/
theorem NumberThen.not_megabytes (h : NumberThen (.lit "GB") value n) :
    ¬value.strstr (.lit "MB") := by
  obtain ⟨digits, -, hdigits, hbytes, -⟩ := h
  intro hstr
  have hM : byteOf 'M' ∈ value.bytes :=
    (of_decide_eq_true hstr : _ <:+: _).subset (by decide)
  rw [hbytes] at hM
  rcases List.mem_append.mp hM with hdigit | hunit
  · exact absurd (hdigits _ hdigit) (by decide)
  · exact absurd hunit (by decide)

theorem storedSize_gigabytes (h : NumberThen (.lit "GB") value n) :
    storedSize value = sizeInUnit (.lit "GB") GB_SIZE value := by
  unfold storedSize
  rw [if_neg (ne_empty_of_strstr isUnit_gigabytes.1 h.strstr), if_neg h.not_megabytes,
    if_pos h.strstr]

/-- A NUMBER THAT FITS is stored in bytes. -/
theorem sizeInUnit_of_number {unit : CStr} (size : Int64) (hunit : IsUnit unit)
    (h : NumberThen unit value n) (hn : n < 2 ^ 63)
    (hfits : n * size.toUInt64.toNat < 2 ^ 63) :
    ∃ stored, sizeInUnit unit size value = .ok stored ∧
      stored.toNat = n * size.toUInt64.toNat := by
  obtain ⟨token, htoken, hparse⟩ := h.token hunit
  rw [if_pos hn] at hparse
  refine ⟨(parseDecimal token * size).toUInt64, ?_, ?_⟩
  · unfold sizeInUnit
    rw [htoken]
  · rw [toNat_scaled, hparse, Int64.toUInt64_ofNat',
      UInt64.toNat_ofNat_of_lt' (show n < 2 ^ 64 by omega)]
    exact Nat.mod_eq_of_lt (by omega)

/-- 100 MB come out of a product where the number is 100 but for multiples of 2 ^ 44. -/
theorem toNat_megabytes_eq_iff (x : Int64) :
    (x * MB_SIZE).toUInt64.toNat = 100 * 2 ^ 20 ↔ x.toInt % 2 ^ 44 = 100 := by
  have hscaled := toNat_scaled x MB_SIZE
  have hx := toNat_toUInt64 x
  rw [show MB_SIZE.toUInt64.toNat = 2 ^ 20 from rfl] at hscaled
  omega

/-- They never come out of a number of gigabytes. -/
theorem toNat_gigabytes_ne (x : Int64) : (x * GB_SIZE).toUInt64.toNat ≠ 100 * 2 ^ 20 := by
  have hscaled := toNat_scaled x GB_SIZE
  rw [show GB_SIZE.toUInt64.toNat = 2 ^ 30 from rfl] at hscaled
  omega

/-- WHERE 100 MB ARE STORED, a token is 100 but for multiples of 2 ^ 44. -/
theorem storedSize_eq_iff : (∃ size, storedSize value = .ok size ∧ size.toNat = 100 * 2 ^ 20) ↔
    value.strstr (.lit "MB") ∧ ∃ token, firstToken (.lit "MB") value = some token ∧
      (parseDecimal token).toInt % 2 ^ 44 = 100 := by
  have hhundred : HUN_MB_SIZE.toNat ≠ 100 * 2 ^ 20 := by decide
  by_cases hmega : value.strstr (.lit "MB")
  · rw [storedSize_megabytes hmega]
    unfold sizeInUnit
    cases htoken : firstToken (.lit "MB") value with
    | none =>
      refine iff_of_false ?_ ?_
      · rintro ⟨size, h, -⟩
        cases h
      · rintro ⟨-, token, h, -⟩
        cases h
    | some token =>
      constructor
      · rintro ⟨size, h, hsize⟩
        cases h
        exact ⟨hmega, token, rfl, (toNat_megabytes_eq_iff _).mp hsize⟩
      · rintro ⟨-, token', h, hparse⟩
        cases h
        exact ⟨_, rfl, (toNat_megabytes_eq_iff _).mpr hparse⟩
  · refine iff_of_false ?_ fun h => hmega h.1
    rintro ⟨size, h, hsize⟩
    unfold storedSize at h
    rw [if_neg hmega] at h
    split at h
    · cases h
      exact hhundred hsize
    · split at h
      · unfold sizeInUnit at h
        split at h
        · cases h
        · cases h
          exact toNat_gigabytes_ne _ hsize
      · cases h
        exact hhundred hsize

end

/-! ## The directives -/

/-- A size that is stood for is below 2 ^ 63, and zero where zero is written. -/
theorem SpecifiedSize.bounded {value : CStr} {size : Nat} (h : SpecifiedSize value size) :
    size < 2 ^ 63 ∧
      (size = 0 → NumberThen (.lit "MB") value 0 ∨ NumberThen (.lit "GB") value 0) := by
  cases h with
  | megabytes n hvalue hfits =>
    refine ⟨hfits, fun hzero => .inl ?_⟩
    obtain rfl : n = 0 := by omega
    exact hvalue
  | gigabytes n hvalue hfits =>
    refine ⟨hfits, fun hzero => .inr ?_⟩
    obtain rfl : n = 0 := by omega
    exact hvalue
  | fallback hmega hgiga =>
    refine ⟨by decide, ?_⟩
    intro hzero
    exact absurd hzero (by decide)

/-- THE SIZE IS STORED THAT THE VALUE STANDS FOR exactly where the value is a number that
fits with its unit, or comes to 100 MB by accident. -/
theorem sizes_as_specified_iff (key : SizeKey) (value : CStr) (config : ConfigData) :
    SizeAsSpecified key value config ↔ SizeAsWritten value := by
  have hstored : SizeAsSpecified key value config ↔
      ∃ size, storedSize value = .ok size ∧ SpecifiedSize value size.toNat := by
    unfold SizeAsSpecified
    rw [SizeKey.handler_eq]
    constructor
    · rintro ⟨config', h, hspec, -⟩
      cases hsize : storedSize value with
      | error fault =>
        rw [hsize] at h
        cases h
      | ok size =>
        rw [hsize] at h
        cases h
        rw [SizeKey.member_store] at hspec
        exact ⟨size, rfl, hspec⟩
    · rintro ⟨size, hsize, hspec⟩
      refine ⟨key.store size config, by rw [hsize]; rfl, ?_⟩
      rw [SizeKey.member_store]
      exact ⟨hspec, hspec.bounded⟩
  rw [hstored]
  constructor
  · rintro ⟨size, hsize, hspec⟩
    generalize hnat : size.toNat = stored at hspec
    cases hspec with
    | megabytes n hvalue hfits => exact .inl ⟨n, hvalue, hfits⟩
    | gigabytes n hvalue hfits => exact .inr (.inl ⟨n, hvalue, hfits⟩)
    | fallback hmega hgiga => exact .inr (.inr (storedSize_eq_iff.mp ⟨size, hsize, hnat⟩))
  · intro h
    by_cases hmega : ∃ n, NumberThen (.lit "MB") value n ∧ n * 2 ^ 20 < 2 ^ 63
    · obtain ⟨n, hvalue, hfits⟩ := hmega
      obtain ⟨size, hsize, hnat⟩ := sizeInUnit_of_number MB_SIZE isUnit_megabytes
        hvalue (by omega) hfits
      refine ⟨size, (storedSize_megabytes hvalue.strstr).trans hsize, ?_⟩
      rw [hnat]
      exact .megabytes n hvalue hfits
    · by_cases hgiga : ∃ n, NumberThen (.lit "GB") value n ∧ n * 2 ^ 30 < 2 ^ 63
      · obtain ⟨n, hvalue, hfits⟩ := hgiga
        obtain ⟨size, hsize, hnat⟩ := sizeInUnit_of_number GB_SIZE isUnit_gigabytes
          hvalue (by omega) hfits
        refine ⟨size, (storedSize_gigabytes hvalue).trans hsize, ?_⟩
        rw [hnat]
        exact .gigabytes n hvalue hfits
      · obtain ⟨size, hsize, hnat⟩ := storedSize_eq_iff.mpr
          ((h.resolve_left hmega).resolve_left hgiga)
        refine ⟨size, hsize, ?_⟩
        rw [hnat]
        exact .fallback (fun n hvalue hfits => hmega ⟨n, hvalue, hfits⟩)
          fun n hvalue hfits => hgiga ⟨n, hvalue, hfits⟩

/-- `5 MB` is a number of megabytes to a reader; its token `5 ` is none, and -1 MB is
stored as an unsigned number. -/
theorem spaced_size_wraps :
    cfgKeyTempFileSize (.lit "5 MB") .zero =
        .ok (SUCCESS, { ConfigData.zero with temp_file_size := 0xFFFFFFFFFFF00000 }) ∧
      ¬SizeAsSpecified .temp_file_size (.lit "5 MB") .zero := by
  have hstored : cfgKeyTempFileSize (.lit "5 MB") .zero =
      .ok (SUCCESS, { ConfigData.zero with temp_file_size := 0xFFFFFFFFFFF00000 }) := by
    decide +kernel
  refine ⟨hstored, ?_⟩
  rintro ⟨config', h, -, hbound, -⟩
  cases hstored.symm.trans h
  exact absurd hbound (by decide)

end LogCollector
