import LogCollector.Lib.Decimal

/-!
# C strings

Text reaches the program as NUL-terminated byte strings: datagrams, plugin
files, captured groups, serialised records. `CStr` carries the absence of an
inner NUL as a field, so what `strlen`, `strcpy` and `strcat` see of a string
is all of it. `CStr.ofBytes` is the one door in: it reads a `char` array up to
its first NUL.
-/

namespace LogCollector

/-- A NUL-terminated string, as the bytes before its terminator. -/
@[ext]
structure CStr where
  bytes : List UInt8
  nulFree : (0 : UInt8) ∉ bytes
deriving DecidableEq

namespace CStr

/-- What string functions see of a `char` array: the bytes up to its first
NUL. -/
def ofBytes (b : List UInt8) : CStr :=
  ⟨b.takeWhile (· != 0), fun h => by simpa using List.mem_takeWhile_imp h⟩

/-- A string literal of the source. -/
def lit (s : String) : CStr := ofBytes (s.toList.map fun c => UInt8.ofNat c.toNat)

/-- `""`. -/
def empty : CStr := ⟨[], List.not_mem_nil⟩

/-- `strlen`. -/
def strlen (s : CStr) : Nat := s.bytes.length

/-- `strcat`: the string left where `t` is appended to `s`. -/
def strcat (s t : CStr) : CStr :=
  ⟨s.bytes ++ t.bytes, fun h => (List.mem_append.mp h).elim s.nulFree t.nulFree⟩

instance : Append CStr := ⟨strcat⟩

/-- `strstr(s, t) != NULL`: does `t` occur in `s`? -/
def strstr (s t : CStr) : Bool := decide (t.bytes <:+: s.bytes)

/-- `sprintf("%d", i)`, and `"%ld"`, `"%lld"` and `"%u"` on their ranges. -/
def ofInt (i : Int) : CStr :=
  ⟨Lib.Decimal.ofInt i, fun h => absurd (Lib.Decimal.le_of_mem_ofInt h) (by decide)⟩

/-- `isspace`. -/
def isspace (c : UInt8) : Bool := c = 32 || 9 ≤ c && c ≤ 13

/-- `strtol(s, NULL, 10)`, which stops at the ends of its range. -/
def strtol (s : CStr) : Int64 :=
  let value (digits : List UInt8) : Int :=
    Lib.Decimal.fold (digits.takeWhile Lib.Decimal.isDigit) 0
  match s.bytes.dropWhile isspace with
  | 45 :: digits => Int64.ofIntClamp (-value digits)
  | 43 :: digits => Int64.ofIntClamp (value digits)
  | digits => Int64.ofIntClamp (value digits)

/-- `atoi`. -/
def atoi (s : CStr) : Int32 := s.strtol.toInt32

/-- The tokens `strtok` finds between the separators. -/
def strtok (s : CStr) (separator : UInt8) : List CStr :=
  ((s.bytes.splitOn separator).filter (· ≠ [])).map ofBytes

/-- The strings one after the other. -/
def concat (pieces : List CStr) : CStr := pieces.foldr (· ++ ·) empty

@[simp] theorem bytes_append (s t : CStr) : (s ++ t).bytes = s.bytes ++ t.bytes := rfl

@[simp] theorem bytes_empty : empty.bytes = [] := rfl

@[simp] theorem strlen_append (s t : CStr) : (s ++ t).strlen = s.strlen + t.strlen :=
  List.length_append

theorem append_assoc (s t u : CStr) : s ++ t ++ u = s ++ (t ++ u) :=
  CStr.ext (List.append_assoc s.bytes t.bytes u.bytes)

@[simp] theorem append_empty (s : CStr) : s ++ empty = s := CStr.ext (List.append_nil s.bytes)

@[simp] theorem empty_append (s : CStr) : empty ++ s = s := CStr.ext (List.nil_append s.bytes)

@[simp] theorem concat_nil : concat [] = empty := rfl

@[simp] theorem concat_cons (s : CStr) (pieces : List CStr) :
    concat (s :: pieces) = s ++ concat pieces := rfl

theorem strlen_concat (pieces : List CStr) : (concat pieces).strlen = (pieces.map strlen).sum := by
  induction pieces with
  | nil => rfl
  | cons s pieces ih => rw [concat_cons, strlen_append, ih, List.map_cons, List.sum_cons]

/-- A string with no inner NUL is read back whole. -/
@[simp] theorem ofBytes_bytes (s : CStr) : ofBytes s.bytes = s := by
  ext1
  apply List.takeWhile_eq_self_iff.mpr
  intro c hc
  have : c ≠ 0 := fun h => s.nulFree (h ▸ hc)
  simpa using this

/-- Bytes without a NUL are all seen. -/
theorem bytes_ofBytes {b : List UInt8} (h : (0 : UInt8) ∉ b) : (ofBytes b).bytes = b :=
  congrArg bytes (ofBytes_bytes ⟨b, h⟩)

theorem not_isspace_of_isDigit {c : UInt8} (h : Lib.Decimal.isDigit c) : isspace c = false := by
  have hrange : 48 ≤ c.toNat ∧ c.toNat ≤ 57 := by
    simpa [Lib.Decimal.isDigit] using h
  unfold isspace
  simp only [Bool.or_eq_false_iff, decide_eq_false_iff_not, Bool.and_eq_false_iff,
    UInt8.le_iff_toNat_le]
  refine ⟨?_, .inr ?_⟩
  · rintro rfl
    exact absurd hrange.1 (by decide)
  · rw [show (13 : UInt8).toNat = 13 from rfl]
    omega

theorem fold_takeWhile_ofNat (n : Nat) :
    Lib.Decimal.fold ((Lib.Decimal.ofNat n).takeWhile Lib.Decimal.isDigit) 0 = n := by
  have hall : (Lib.Decimal.ofNat n).takeWhile Lib.Decimal.isDigit = Lib.Decimal.ofNat n := by
    apply List.takeWhile_eq_self_iff.mpr
    intro c hc
    exact Lib.Decimal.isDigit_of_mem_ofNat hc
  rw [hall, Lib.Decimal.fold_ofNat]

theorem bytes_ofInt (i : Int) : (ofInt i).bytes = Lib.Decimal.ofInt i := rfl

/-- `strtol` reads back what `sprintf` writes, as far as its range goes. -/
theorem strtol_ofInt (i : Int) : (ofInt i).strtol = Int64.ofIntClamp i := by
  by_cases hneg : i < 0
  · have hread : (ofInt i).bytes.dropWhile isspace = 45 :: Lib.Decimal.ofNat i.natAbs := by
      rw [bytes_ofInt, Lib.Decimal.ofInt, if_pos hneg]
      rfl
    rw [strtol, hread]
    simp only [fold_takeWhile_ofNat]
    rw [Int.ofNat_natAbs_of_nonpos hneg.le, Int.neg_neg]
  · obtain ⟨c, digits, hcons⟩ := List.exists_cons_of_ne_nil (Lib.Decimal.ofNat_ne_nil i.natAbs)
    have hdigit : Lib.Decimal.isDigit c :=
      Lib.Decimal.isDigit_of_mem_ofNat (hcons ▸ List.mem_cons_self)
    have hvalue := fold_takeWhile_ofNat i.natAbs
    have hread : (ofInt i).bytes.dropWhile isspace = c :: digits := by
      rw [bytes_ofInt, Lib.Decimal.ofInt, if_neg hneg, hcons]
      apply List.dropWhile_cons_of_neg
      rw [not_isspace_of_isDigit hdigit]
      exact Bool.false_ne_true
    rw [hcons] at hvalue
    rw [strtol, hread]
    -- a digit is neither of the signs
    split
    · next h =>
      cases h
      cases hdigit
    · next h =>
      cases h
      cases hdigit
    · dsimp only
      rw [hvalue, Int.natAbs_of_nonneg (Int.not_lt.mp hneg)]

/-- `atoi` keeps the low bits of a `long`. -/
theorem atoi_ofInt {i : Int} (hmin : Int64.minValue.toInt ≤ i) (hmax : i ≤ Int64.maxValue.toInt) :
    (ofInt i).atoi = Int32.ofInt i := by
  have hclamp : Int64.ofIntLE i hmin hmax = Int64.ofIntClamp i := Int64.ofIntLE_eq_ofIntClamp
  rw [atoi, strtol_ofInt, ← hclamp, Int64.toInt32_ofIntLE]

theorem ofInt_injective : Function.Injective ofInt := fun _ _ h =>
  Lib.Decimal.ofInt_injective (congrArg bytes h)

theorem append_right_injective (s : CStr) : Function.Injective (s ++ ·) := fun _ _ h =>
  CStr.ext (List.append_cancel_left (congrArg bytes h))

end CStr

end LogCollector
