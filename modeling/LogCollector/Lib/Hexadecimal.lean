import LogCollector.Lib.FixedWidth

/-!
# Hexadecimal digits as bytes

The ASCII digits of numbers below 16, in capitals or small letters, the value of a digit
in either case, and the two digits of a byte. Reading inverts writing, so a byte is known
by its digits and a list of bytes by theirs.
-/

namespace Lib.Hexadecimal

/-- Which letters stand for ten to fifteen. -/
inductive LetterCase
  | upper
  | lower

/-- The ASCII byte of the letter for ten. -/
def LetterCase.ten : LetterCase → Nat
  | upper => 65
  | lower => 97

/-- The ASCII byte of a hexadecimal digit. -/
def digit (letters : LetterCase) (d : Nat) : UInt8 :=
  if d < 10 then UInt8.ofNat (48 + d) else UInt8.ofNat (letters.ten + (d - 10))

/-- The value of an ASCII digit. -/
def value (c : UInt8) : Option Nat :=
  if 48 ≤ c ∧ c ≤ 57 then some (c.toNat - 48)
  else if 97 ≤ c ∧ c ≤ 102 then some (c.toNat - 87)
  else if 65 ≤ c ∧ c ≤ 70 then some (c.toNat - 55)
  else none

/-- The two digits of a byte. -/
def byte (letters : LetterCase) (b : UInt8) : List UInt8 :=
  [digit letters (b.toNat / 16), digit letters (b.toNat % 16)]

variable {letters : LetterCase}

theorem value_digit {d : Nat} (h : d < 16) : value (digit letters d) = some d := by
  have hall : ∀ d < 16, value (digit letters d) = some d := by
    cases letters
    all_goals decide
  exact hall d h

theorem length_byte (b : UInt8) : (byte letters b).length = 2 := rfl

theorem byte_injective : Function.Injective (byte letters) := by
  intro a b h
  have hdigits {x y : Nat} (hx : x < 16) (hy : y < 16) (h : digit letters x = digit letters y) :
      x = y := by
    have hvalue := congrArg value h
    rwa [value_digit hx, value_digit hy, Option.some.injEq] at hvalue
  have ha := a.toNat_lt
  have hb := b.toNat_lt
  obtain ⟨hhigh, hlow⟩ := List.cons.inj h
  have hhigh := hdigits (by omega) (by omega) hhigh
  have hlow := hdigits (by omega) (by omega) (List.cons.inj hlow).1
  apply UInt8.toNat.inj
  omega

/-- A byte is known by its digits, and so is a list of bytes. -/
theorem bytes_injective : Function.Injective (List.flatMap (byte letters)) :=
  FixedWidth.encode_injective length_byte (Nat.succ_pos 1) byte_injective

/-- A digit is one of the characters of a numeral. -/
theorem mem_byte {c b : UInt8} (h : c ∈ byte letters b) : ∃ d < 16, c = digit letters d := by
  have hb := b.toNat_lt
  simp only [byte, List.mem_cons, List.not_mem_nil, or_false] at h
  rcases h with rfl | rfl
  · exact ⟨_, by omega, rfl⟩
  · exact ⟨_, by omega, rfl⟩

end Lib.Hexadecimal
