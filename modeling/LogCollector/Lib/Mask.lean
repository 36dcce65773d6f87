import Mathlib

/-!
# Filling a number with ones

A number or-ed with itself shifted by one, two, four and so on places ends up with every bit
set below its highest one. `TopBits s w x` is what holds on the way: the `w` upper ones of the
`s` bits of `x` are set. Each step doubles `w`.
-/

namespace Lib.Mask

/-- A number of `s` bits whose upper `w` bits are set. -/
structure TopBits (s w x : Nat) : Prop where
  lt : x < 2 ^ s
  set : ∀ i < s, s ≤ i + w → x.testBit i = true

/-- The highest bit of a number is set. -/
theorem topBits_log2 {x : Nat} (h : x ≠ 0) : TopBits (x.log2 + 1) 1 x := by
  refine ⟨Nat.lt_log2_self, ?_⟩
  intro i hi hle
  obtain rfl : i = x.log2 := by omega
  have hdiv : x / 2 ^ x.log2 = 1 := by
    have hlt : x / 2 ^ x.log2 < 2 :=
      Nat.div_lt_of_lt_mul (by rw [← Nat.pow_succ]; exact Nat.lt_log2_self)
    have hpos : 0 < x / 2 ^ x.log2 := Nat.div_pos (Nat.log2_self_le h) (Nat.two_pow_pos _)
    omega
  rw [Nat.testBit_eq_decide_div_mod_eq, hdiv]
  rfl

/-- A shifted copy of the upper bits sets as many more. -/
theorem TopBits.smear {s w x : Nat} (h : TopBits s w x) : TopBits s (2 * w) (x ||| x >>> w) := by
  constructor
  · exact Nat.or_lt_two_pow h.lt (lt_of_le_of_lt (Nat.shiftRight_le x w) h.lt)
  · intro i hi hle
    rw [Nat.testBit_or, Nat.testBit_shiftRight, Bool.or_eq_true]
    by_cases hupper : s ≤ i + w
    · exact .inl (h.set i hi hupper)
    · exact .inr (h.set (w + i) (by omega) (by omega))

/-- All bits are set. -/
theorem TopBits.eq {s w x : Nat} (h : TopBits s w x) (hw : s ≤ w) : x = 2 ^ s - 1 := by
  apply Nat.eq_of_testBit_eq
  intro i
  rw [Nat.testBit_two_pow_sub_one]
  by_cases hi : i < s
  · rw [h.set i hi (by omega), decide_eq_true hi]
  · have hlt : x < 2 ^ i := lt_of_lt_of_le h.lt (Nat.pow_le_pow_right (by decide) (by omega))
    rw [Nat.testBit_lt_two_pow hlt, decide_eq_false hi]

/-- A number next to a power of two is no smaller than what has as many bits. -/
theorem two_pow_le_of_le {x k : Nat} (hx : x ≠ 0) (h : x ≤ 2 ^ k - 1) : x.log2 + 1 ≤ k := by
  have hpow : 0 < 2 ^ k := Nat.two_pow_pos k
  exact (Nat.log2_lt hx).mpr (by omega)

/-- The second bit of an odd mask is set, so that it has two bits at least. -/
theorem or_shiftLeft_one {s : Nat} (h : 1 ≤ s) :
    (2 ^ s - 1) ||| (((2 ^ s - 1) &&& 1) <<< 1) = 2 ^ max s 2 - 1 := by
  have hodd : (2 ^ s - 1) &&& 1 = 1 := by
    rw [Nat.and_one_is_mod]
    obtain ⟨t, rfl⟩ := Nat.exists_eq_add_of_le h
    have : 2 ^ (1 + t) = 2 * 2 ^ t := by rw [Nat.add_comm, Nat.pow_succ, Nat.mul_comm]
    have : 0 < 2 ^ t := Nat.two_pow_pos t
    omega
  rw [hodd]
  apply Nat.eq_of_testBit_eq
  intro i
  rw [Nat.testBit_or, Nat.testBit_two_pow_sub_one, Nat.testBit_two_pow_sub_one,
    show 1 <<< 1 = 2 ^ 1 from rfl, Nat.testBit_two_pow]
  rw [Bool.eq_iff_iff]
  simp only [Bool.or_eq_true, decide_eq_true_eq]
  omega

end Lib.Mask
