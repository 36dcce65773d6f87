import LogCollector.Lib.Machine

/-!
# Free-running 32-bit counters

A position of an unbounded sequence is kept in a `UInt32` that wraps. Two
counters whose true positions are less than `2 ^ 32` apart have the right
difference, and a table of `2 ^ k` slots indexed by the low `k` bits never
gives two positions of one window the same slot. Positions are natural
numbers here; `UInt32.ofNat` is what the machine holds of them.
-/

namespace Lib.Counter

theorem ofNat_add (a b : Nat) : UInt32.ofNat (a + b) = UInt32.ofNat a + UInt32.ofNat b := by
  simp

/-- The difference of two counters is the distance of their positions. -/
theorem toNat_sub {a b : Nat} (hle : b ≤ a) (hlt : a - b < 2 ^ 32) :
    (UInt32.ofNat a - UInt32.ofNat b).toNat = a - b := by
  obtain ⟨d, rfl⟩ := Nat.exists_eq_add_of_le hle
  rw [ofNat_add, add_sub_cancel_left, UInt32.toNat_ofNat', Nat.mod_eq_of_lt (by omega)]
  omega

/-- Nearby positions with the same counter are equal. -/
theorem eq_of_ofNat_eq {a b : Nat} (h : UInt32.ofNat a = UInt32.ofNat b) (hle : b ≤ a)
    (hlt : a - b < 2 ^ 32) : a = b := by
  have := toNat_sub hle hlt
  rw [h, sub_self, UInt32.toNat_zero] at this
  omega

/-- The low `k` bits of a counter are its position modulo `2 ^ k`. -/
theorem toNat_and_mask {mask : UInt32} {k : Nat} (hk : k ≤ 32) (hmask : mask.toNat = 2 ^ k - 1)
    (p : Nat) : (UInt32.ofNat p &&& mask).toNat = p % 2 ^ k := by
  rw [UInt32.toNat_and, hmask, Nat.and_two_pow_sub_one_eq_mod, UInt32.toNat_ofNat',
    Nat.mod_mod_of_dvd p (Nat.pow_dvd_pow 2 hk)]

/-- Positions a whole table apart share their slot. -/
theorem slot_add_size {mask : UInt32} {k : Nat} (hk : k ≤ 32) (hmask : mask.toNat = 2 ^ k - 1)
    (p : Nat) : UInt32.ofNat (p + 2 ^ k) &&& mask = UInt32.ofNat p &&& mask := by
  apply UInt32.toNat.inj
  rw [toNat_and_mask hk hmask, toNat_and_mask hk hmask, Nat.add_mod_right]

/-- Two positions of a window no longer than the table have different slots. -/
theorem slot_injective {mask : UInt32} {k : Nat} (hk : k ≤ 32) (hmask : mask.toNat = 2 ^ k - 1)
    {p q : Nat} (h : UInt32.ofNat p &&& mask = UInt32.ofNat q &&& mask)
    (hpq : p < q + 2 ^ k) (hqp : q < p + 2 ^ k) : p = q := by
  have hmod : p % 2 ^ k = q % 2 ^ k := by
    rw [← toNat_and_mask hk hmask p, ← toNat_and_mask hk hmask q, h]
  apply Nat.ModEq.eq_of_abs_lt (m := 2 ^ k) hmod
  rw [abs_lt]
  push_cast
  constructor <;> linarith [(by exact_mod_cast hpq : (p : Int) < q + 2 ^ k),
    (by exact_mod_cast hqp : (q : Int) < p + 2 ^ k)]

end Lib.Counter
