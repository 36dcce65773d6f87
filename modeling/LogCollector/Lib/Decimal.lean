import LogCollector.Lib.Machine

/-!
# Decimal numerals as bytes

The ASCII numeral of an integer, as a formatted print writes it, and the fold
that reads a run of digits back. Reading inverts writing on the digits of any
natural number, which is what makes the numeral injective; the digits of a
numeral are ASCII digits and the numeral never starts with a redundant zero.
-/

namespace Lib.Decimal

/-- The ASCII byte of a decimal digit. -/
def digit (d : Nat) : UInt8 := UInt8.ofNat (48 + d)

/-- Is the byte an ASCII decimal digit? -/
def isDigit (c : UInt8) : Bool := 48 ≤ c.toNat && c.toNat ≤ 57

/-- The value of an ASCII digit. -/
def value (c : UInt8) : Nat := c.toNat - 48

/-- The numeral of a natural number, most significant digit first. -/
def ofNat (n : Nat) : List UInt8 :=
  if n = 0 then [digit 0] else (Nat.digits 10 n).reverse.map digit

/-- The numeral of an integer, with a minus sign where it is negative. -/
def ofInt (i : Int) : List UInt8 :=
  if i < 0 then 45 :: ofNat i.natAbs else ofNat i.natAbs

/-- The number a run of digits denotes, continuing from `acc`. -/
def fold : List UInt8 → Nat → Nat
  | [], acc => acc
  | c :: ds, acc => fold ds (acc * 10 + value c)

theorem digit_toNat {d : Nat} (h : d < 10) : (digit d).toNat = 48 + d := by
  rw [digit, UInt8.toNat_ofNat']
  omega

theorem isDigit_digit {d : Nat} (h : d < 10) : isDigit (digit d) = true := by
  simp only [isDigit, digit_toNat h, Bool.and_eq_true, decide_eq_true_eq]
  omega

theorem exists_digit {c : UInt8} (h : isDigit c) : ∃ d < 10, c = digit d := by
  simp only [isDigit, Bool.and_eq_true, decide_eq_true_eq] at h
  refine ⟨c.toNat - 48, by omega, UInt8.toNat.inj ?_⟩
  rw [digit_toNat (by omega)]
  omega

@[simp] theorem value_digit {d : Nat} (h : d < 10) : value (digit d) = d := by
  rw [value, digit_toNat h]
  omega

/-- Every byte of a numeral of a natural number is a digit. -/
theorem isDigit_of_mem_ofNat {n : Nat} {c : UInt8} (h : c ∈ ofNat n) : isDigit c = true := by
  rw [ofNat] at h
  split at h
  · cases List.mem_singleton.mp h
    exact isDigit_digit (by omega)
  · obtain ⟨d, hd, rfl⟩ := List.mem_map.mp h
    exact isDigit_digit (Nat.digits_lt_base (by omega) (List.mem_reverse.mp hd))

theorem ofNat_ne_nil (n : Nat) : ofNat n ≠ [] := by
  rw [ofNat]
  split
  · exact List.cons_ne_nil _ _
  · next h => simpa [Nat.digits_eq_nil_iff_eq_zero] using h

@[simp] theorem fold_nil (acc : Nat) : fold [] acc = acc := by
  rw [fold]

@[simp] theorem fold_cons (acc : Nat) (c : UInt8) (ds : List UInt8) :
    fold (c :: ds) acc = fold ds (acc * 10 + value c) := by
  rw [fold]

theorem fold_append (as bs : List UInt8) (acc : Nat) :
    fold (as ++ bs) acc = fold bs (fold as acc) := by
  induction as generalizing acc with
  | nil => rw [List.nil_append, fold_nil]
  | cons c as ih => rw [List.cons_append, fold_cons, fold_cons, ih]

/-- Reading digits most significant first is evaluating them least
significant first. -/
theorem fold_reverse_digits {ds : List Nat} (h : ∀ d ∈ ds, d < 10) :
    fold (ds.reverse.map digit) 0 = Nat.ofDigits 10 ds := by
  induction ds with
  | nil => simp only [List.reverse_nil, List.map_nil, fold_nil, Nat.ofDigits_nil]
  | cons d ds ih =>
    have hd := value_digit (h d List.mem_cons_self)
    rw [List.reverse_cons, List.map_append, fold_append,
      ih fun e he => h e (List.mem_cons_of_mem _ he), Nat.ofDigits_cons]
    simp only [List.map_cons, List.map_nil, fold_cons, fold_nil, hd]
    omega

/-- READING INVERTS WRITING on natural numbers. -/
@[simp] theorem fold_ofNat (n : Nat) : fold (ofNat n) 0 = n := by
  rw [ofNat]
  split
  · next h => simp only [fold_cons, fold_nil, value_digit (show 0 < 10 by omega), h]
  · rw [fold_reverse_digits fun d hd => Nat.digits_lt_base (by omega) hd, Nat.ofDigits_digits]

theorem ofNat_injective : Function.Injective ofNat :=
  Function.LeftInverse.injective (g := fun ds => fold ds 0) fold_ofNat

/-- A numeral that starts with the digit zero is the numeral of zero. -/
theorem ofNat_eq_zero_cons {n : Nat} {ds : List UInt8} (h : ofNat n = 48 :: ds) :
    n = 0 ∧ ds = [] := by
  rw [ofNat] at h
  split at h
  · next h0 =>
    refine ⟨h0, ?_⟩
    simpa [digit] using (List.cons.inj h).2.symm
  · next h0 =>
    have hne : Nat.digits 10 n ≠ [] := by simpa [Nat.digits_eq_nil_iff_eq_zero] using h0
    have hlast := Nat.getLast_digit_ne_zero 10 h0
    have hlt : (Nat.digits 10 n).getLast hne < 10 :=
      Nat.digits_lt_base (by omega) (List.getLast_mem hne)
    have hhead : digit ((Nat.digits 10 n).getLast hne) = 48 := by
      have := congrArg List.head? h
      rw [List.head?_map, List.head?_reverse, List.getLast?_eq_some_getLast hne] at this
      simpa using this
    have := congrArg UInt8.toNat hhead
    rw [digit_toNat hlt] at this
    exact absurd (by simpa using this) hlast

/-- The numeral of an integer determines the integer. -/
theorem ofInt_injective : Function.Injective ofInt := by
  have minus (n : Nat) (ds : List UInt8) : ofNat n ≠ 45 :: ds := by
    intro h
    have := isDigit_of_mem_ofNat (n := n) (c := 45) (by rw [h]; exact List.mem_cons_self)
    exact absurd this (by decide)
  intro i j h
  simp only [ofInt] at h
  split at h <;> split at h
  · have := ofNat_injective (List.cons.inj h).2
    omega
  · exact absurd h.symm (minus _ _)
  · exact absurd h (minus _ _)
  · have := ofNat_injective h
    omega

/-- No byte of a numeral is below the minus sign: in particular none is NUL
and none is a line break. -/
theorem le_of_mem_ofInt {i : Int} {c : UInt8} (h : c ∈ ofInt i) : 45 ≤ c.toNat := by
  have digits {n : Nat} (h : c ∈ ofNat n) : 45 ≤ c.toNat := by
    have := isDigit_of_mem_ofNat h
    simp only [isDigit, Bool.and_eq_true, decide_eq_true_eq] at this
    omega
  rw [ofInt] at h
  split at h
  · rcases List.mem_cons.mp h with rfl | h
    · decide
    · exact digits h
  · exact digits h

end Lib.Decimal
