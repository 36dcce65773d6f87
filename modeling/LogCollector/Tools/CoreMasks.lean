import LogCollector.Lib.Hexadecimal
import LogCollector.Lib.Separated
import LogCollector.Startup.CoreTable

/-!
# Core masks

The launcher `tools/logc_executor.py` takes the cores of a role as a hexadecimal mask and
gives the collector a list of them: `hex_to_bits` goes through the binary digits, the last
one first, and writes the positions of the ones with a comma behind each, without the last
comma. `parse_core_mask` reads this list back.

The two agree about the set bits and their order (`hexToBits_eq`, `strtok_positions`), so
the table gets one core for every set bit (`mask_cores_stored`). A core id is an `int`: the
id of a bit from 2^31 on is another number (`mask_beyond_int`).
-/

namespace LogCollector

/-! ## Python's texts of numbers -/

namespace Python

/-- A digit or an underscore. -/
def isDigit (c : UInt8) : Bool := c = 95 || (Lib.Hexadecimal.value c).isSome

/-- The digits of an integer: single underscores may stand between them, and blanks behind
them. -/
def digits (text : List UInt8) : Option Nat :=
  let run := text.takeWhile isDigit
  if run = [] ∨ run.head? = some 95 ∨ run.getLast? = some 95 ∨ [95, 95] <:+: run ∨
      (text.dropWhile isDigit).dropWhile CStr.isspace ≠ [] then
    none
  else
    some ((run.filterMap Lib.Hexadecimal.value).foldl (fun value d => 16 * value + d) 0)

/-- `0x` may stand before the digits, with an underscore behind it. -/
def unsigned : List UInt8 → Option Nat
  | 48 :: x :: text =>
    if x = 120 ∨ x = 88 then
      match text with
      | 95 :: text => digits text
      | text => digits text
    else digits (48 :: x :: text)
  | text => digits text

/-- `int(text, 16)` of an ASCII text; `none` is a `ValueError`. -/
def int16 (text : List UInt8) : Option Int :=
  match text.dropWhile CStr.isspace with
  | 45 :: text => (unsigned text).map fun value => -(value : Int)
  | 43 :: text => (unsigned text).map (↑)
  | text => (unsigned text).map (↑)

/-- The binary digits, the most significant first. -/
def binary (n : Nat) : List UInt8 :=
  if n = 0 then [48] else (Nat.digits 2 n).reverse.map Lib.Decimal.digit

/-- `bin`. -/
def bin (i : Int) : List UInt8 :=
  if i < 0 then 45 :: 48 :: 98 :: binary i.natAbs else 48 :: 98 :: binary i.natAbs

/-- `str.zfill`: the zeros go behind a sign. -/
def zfill (width : Nat) : List UInt8 → List UInt8
  | 43 :: text => 43 :: (List.replicate (width - (text.length + 1)) 48 ++ text)
  | 45 :: text => 45 :: (List.replicate (width - (text.length + 1)) 48 ++ text)
  | text => List.replicate (width - text.length) 48 ++ text

/-- `str` of an index. -/
def str (i : Nat) : List UInt8 := Lib.Decimal.ofInt i

end Python

/-! ## `hex_to_bits` -/

/-- `index_arr` of a number. -/
def indexArr (number : Int) : List UInt8 := (Python.zfill 8 ((Python.bin number).drop 2)).reverse

/-- `hex_to_bits` of `tools/logc_executor.py`; `none` where Python raises an error. -/
def hexToBits (hex_data : List UInt8) : Option (List UInt8) :=
  (Python.int16 hex_data).map fun number =>
    let index_arr := indexArr number
    -- 49 is the digit one and 44 the comma
    let cores := (List.range index_arr.length).foldl
      (fun cores i => if index_arr[i]? = some 49 then cores ++ (Python.str i ++ [44]) else cores) []
    cores.dropLast

/-! ## The set bits -/

/-- The last binary digit comes first, with zeros up to a width of eight behind them. -/
theorem indexArr_ofNat {n : Nat} (hpos : 0 < n) :
    indexArr n = (Nat.digits 2 n).map Lib.Decimal.digit ++
      List.replicate (8 - (Nat.digits 2 n).length) 48 := by
  have hbinary : Python.binary n = ((Nat.digits 2 n).map Lib.Decimal.digit).reverse := by
    rw [Python.binary, if_neg hpos.ne', List.map_reverse]
  have hbin : (Python.bin n).drop 2 = Python.binary n := by
    rw [Python.bin, if_neg (Int.natCast_nonneg n).not_gt]
    rfl
  -- no digit is a sign
  have hdigit : ∀ c ∈ Python.binary n, c ≠ 43 ∧ c ≠ 45 := by
    intro c hc
    rw [hbinary, List.mem_reverse] at hc
    obtain ⟨d, hd, rfl⟩ := List.mem_map.mp hc
    have := Nat.digits_lt_base (by omega) hd
    interval_cases d
    all_goals decide
  have hzfill : Python.zfill 8 (Python.binary n) =
      List.replicate (8 - (Python.binary n).length) 48 ++ Python.binary n := by
    unfold Python.zfill
    split
    · next h => exact absurd rfl (hdigit 43 (h ▸ List.mem_cons_self)).1
    · next h => exact absurd rfl (hdigit 45 (h ▸ List.mem_cons_self)).2
    · rfl
  rw [indexArr, hbin, hzfill, List.reverse_append, List.reverse_replicate, hbinary,
    List.reverse_reverse, List.length_reverse, List.length_map]

theorem digit_eq_one {d : Nat} (h : d < 2) : Lib.Decimal.digit d = 49 ↔ d = 1 := by
  interval_cases d
  all_goals decide

/-- A position holds a one where the bit is set. -/
theorem indexArr_getElem? {n : Nat} (hpos : 0 < n) (i : Nat) :
    (indexArr n)[i]? = some 49 ↔ n.testBit i := by
  have hzero : some (48 : UInt8) ≠ some 49 := by decide
  have hbit : n.testBit i ↔ (Nat.digits 2 n).getD i 0 = 1 := by
    rw [Nat.getD_digits n i le_rfl, Nat.testBit_eq_decide_div_mod_eq, decide_eq_true_iff]
  rw [hbit, indexArr_ofNat hpos]
  by_cases hi : i < (Nat.digits 2 n).length
  · have hdigit := Nat.digits_lt_base Nat.one_lt_two (List.getElem_mem hi)
    rw [List.getElem?_append_left (by rwa [List.length_map]), List.getElem?_map,
      List.getElem?_eq_getElem hi, List.getD_eq_getElem _ _ hi, Option.map_some, Option.some.injEq]
    exact digit_eq_one hdigit
  · have hbehind : ((Nat.digits 2 n).map Lib.Decimal.digit).length ≤ i := by
      rw [List.length_map]
      exact Nat.not_lt.mp hi
    rw [List.getD_eq_default _ _ (Nat.not_lt.mp hi), List.getElem?_append_right hbehind,
      List.getElem?_replicate]
    split
    · exact iff_of_false hzero Nat.zero_ne_one
    · exact iff_of_false (Option.some_ne_none _).symm Nat.zero_ne_one

/-- The positions of the ones are those of the set bits. -/
theorem filter_indexArr {n : Nat} (hpos : 0 < n) :
    (List.range (indexArr n).length).filter (fun i => (indexArr n)[i]? = some 49) =
      n.bitIndices := by
  apply List.SortedLT.eq_of_mem_iff
  · exact (List.pairwise_lt_range.filter _).sortedLT
  · exact Nat.bitIndices_sorted
  · intro i
    rw [List.mem_filter, List.mem_range, decide_eq_true_iff, indexArr_getElem? hpos,
      Nat.mem_bitIndices]
    refine and_iff_right_of_imp ?_
    intro hbit
    exact (List.getElem?_eq_some_iff.mp ((indexArr_getElem? hpos i).mpr hbit)).1

/-- The list of a positive mask is the positions of its set bits, with commas between them. -/
theorem hexToBits_eq {mask : List UInt8} {n : Nat} (hmask : Python.int16 mask = some (n : Int))
    (hpos : 0 < n) :
    hexToBits mask = some ((n.bitIndices.map Python.str).flatMap (· ++ [44])).dropLast := by
  rw [hexToBits, hmask, Option.map_some, Option.some.injEq]
  refine congrArg List.dropLast ?_
  calc (List.range (indexArr n).length).foldl (fun cores i =>
        if (indexArr n)[i]? = some 49 then cores ++ (Python.str i ++ [44]) else cores) []
      = n.bitIndices.foldl (fun cores i => cores ++ (Python.str i ++ [44])) [] := by
        rw [← filter_indexArr hpos, List.foldl_filter]
        simp only [decide_eq_true_eq]
    _ = (n.bitIndices.map fun i => Python.str i ++ [44]).flatten := by
        rw [List.foldl_append_eq_append, List.nil_append]
    _ = (n.bitIndices.map Python.str).flatMap (· ++ [44]) := by
        rw [List.flatMap_map]
        rfl

/-! ## The list read back -/

theorem str_eq (i : Nat) : Python.str i = Lib.Decimal.ofNat i := by
  rw [Python.str, Lib.Decimal.ofInt, if_neg (Int.natCast_nonneg i).not_gt, Int.natAbs_natCast]

theorem comma_notMem_str (i : Nat) : 44 ∉ Python.str i := by
  intro h
  rw [str_eq] at h
  cases Lib.Decimal.isDigit_of_mem_ofNat h

/-- The list has digits and commas only. -/
theorem mem_positions {positions : List Nat} {c : UInt8}
    (h : c ∈ ((positions.map Python.str).flatMap (· ++ [44])).dropLast) :
    c = 44 ∨ Lib.Decimal.isDigit c := by
  obtain ⟨piece, hpiece, hc⟩ := List.mem_flatMap.mp (List.mem_of_mem_dropLast h)
  obtain ⟨i, -, rfl⟩ := List.mem_map.mp hpiece
  rcases List.mem_append.mp hc with hc | hc
  · rw [str_eq] at hc
    exact .inr (Lib.Decimal.isDigit_of_mem_ofNat hc)
  · exact .inl (List.mem_singleton.mp hc)

/-- `strtok` finds the positions again. -/
theorem strtok_positions {positions : List Nat} (hne : positions ≠ []) :
    (CStr.ofBytes ((positions.map Python.str).flatMap (· ++ [44])).dropLast).strtok 44 =
      positions.map fun (i : Nat) => CStr.ofInt i := by
  have hnul : 0 ∉ ((positions.map Python.str).flatMap (· ++ [44])).dropLast := by
    intro h
    rcases mem_positions h with h | h
    · cases h
    · cases h
  have hsep : ∀ piece ∈ positions.map Python.str, 44 ∉ piece := by
    intro piece hpiece
    obtain ⟨i, -, rfl⟩ := List.mem_map.mp hpiece
    exact comma_notMem_str i
  have hpieces : ∀ piece ∈ positions.map Python.str, decide (piece ≠ []) = true := by
    intro piece hpiece
    obtain ⟨i, -, rfl⟩ := List.mem_map.mp hpiece
    rw [str_eq]
    exact decide_eq_true (Lib.Decimal.ofNat_ne_nil i)
  rw [CStr.strtok, CStr.bytes_ofBytes hnul,
    Lib.Separated.splitOn_dropLast hsep (mt List.map_eq_nil_iff.mp hne),
    List.filter_eq_self.mpr hpieces, List.map_map]
  refine List.map_congr_left ?_
  intro i _
  exact CStr.ofBytes_bytes (CStr.ofInt (i : Nat))

/-! ## The table -/

/-- One core of the role is stored for every set bit of a mask, the lowest bit first, and
the numbers of the cores and of the role are increased by as many. -/
structure CoresStored (n : Nat) (role : CoreRole) (table table' : CoreTable) : Prop where
  entries : table'.entries.map (fun core => (core.role, core.core_id.toInt)) =
    n.bitIndices.map fun (position : Nat) => (role, (position : Int))
  nb_cores : table'.nb_cores = table.nb_cores + n.bitIndices.length
  counter : table'.counter role = table.counter role + n.bitIndices.length
  others : ∀ other ≠ role, table'.counter other = table.counter other

/-- The launcher makes a list of the mask, and the collector reads it as the mask. -/
def MaskStored (mask : List UInt8) (n : Nat) (role : CoreRole) (table : CoreTable) : Prop :=
  ∃ cores table', hexToBits mask = some cores ∧
    table.parseCoreMask role (CStr.ofBytes cores) = some (table', 1) ∧
      CoresStored n role table table'

section

variable {mask : List UInt8} {n : Nat} {table : CoreTable}

/-- The collector appends what `atoi` makes of the positions. -/
theorem parse_hexToBits (hmask : Python.int16 mask = some (n : Int)) (hpos : 0 < n)
    (hbits : n.bitIndices.length ≤ MAX_CORE_NUM) (role : CoreRole) (hempty : table.nb_cores = 0) :
    ∃ cores table', hexToBits mask = some cores ∧
      table.parseCoreMask role (CStr.ofBytes cores) = some (table', 1) ∧
        CoreTable.Appended role (n.bitIndices.map fun (i : Nat) => (CStr.ofInt i).atoi)
          table table' := by
  have hne : n.bitIndices ≠ [] := by
    intro h
    have hsum := Nat.sum_map_two_pow_bitIndices n
    rw [h] at hsum
    exact hpos.ne hsum
  have htokens := strtok_positions hne
  have hall : CStr.ofBytes ((n.bitIndices.map Python.str).flatMap (· ++ [44])).dropLast ≠
      .lit "all" := by
    intro h
    have hletter : 97 ∈ (CStr.lit "all").bytes := by decide
    rw [← h] at hletter
    rcases mem_positions ((List.takeWhile_prefix _).mem hletter) with hc | hc
    · cases hc
    · cases hc
  have hroom : table.nb_cores + (n.bitIndices.map fun (i : Nat) => CStr.ofInt i).length ≤
      MAX_CORE_NUM := by
    rwa [hempty, List.length_map, Nat.zero_add]
  obtain ⟨table', hrun, happended⟩ := CoreTable.foldlM_storeCore role hroom
  rw [List.map_map] at happended
  refine ⟨_, table', hexToBits_eq hmask hpos, ?_, happended⟩
  have hsome : table'.nb_cores > 0 := by
    rw [happended.nb_cores, List.length_map]
    exact Nat.add_pos_right _ (List.length_pos_iff.mpr hne)
  rw [CoreTable.parseCoreMask, if_neg hall, htokens, hrun, Option.map_some, if_pos hsome]

/-- An `int` holds the positions below 2^31. -/
theorem toInt_atoi_ofInt {i : Nat} (h : i < 2 ^ 31) : (CStr.ofInt i).atoi.toInt = i := by
  have hmin : Int64.minValue.toInt ≤ i := (by decide : Int64.minValue.toInt ≤ 0).trans (by omega)
  have hmax : (i : Int) ≤ Int64.maxValue.toInt := by
    rw [show Int64.maxValue.toInt = 2 ^ 63 - 1 from rfl]
    omega
  rw [CStr.atoi_ofInt hmin hmax, Int32.toInt_ofInt_of_le (by omega) (by omega)]

/-- EVERY SET BIT IS A CORE: the collector stores the positions of the set bits of the mask
that the launcher was given, where they are numbers an `int` can hold. -/
theorem mask_cores_stored (hmask : Python.int16 mask = some (n : Int)) (hpos : 0 < n)
    (hbits : n.bitIndices.length ≤ MAX_CORE_NUM) (hint : ∀ i, n.testBit i → i < 2 ^ 31)
    (role : CoreRole) (hempty : table.nb_cores = 0) : MaskStored mask n role table := by
  obtain ⟨cores, table', hcores, hparse, happended⟩ :=
    parse_hexToBits hmask hpos hbits role hempty
  refine ⟨cores, table', hcores, hparse, ?_, ?_, ?_, happended.others⟩
  · rw [happended.entries_of_empty hempty, List.map_map, List.map_map]
    apply List.map_congr_left
    intro i hi
    have hrange : i < 2 ^ 31 := hint i (Nat.mem_bitIndices.mp hi)
    exact congrArg (Prod.mk role) (toInt_atoi_ofInt hrange)
  · rw [happended.nb_cores, List.length_map]
  · rw [happended.counter, List.length_map]

/-- The mask `0x0d` is the cores 0, 2 and 3. -/
theorem mask_cores_stored_0x0d : MaskStored (CStr.lit "0x0d").bytes 13 .master .empty := by
  have hbits : Nat.bitIndices 13 = [0, 2, 3] := by
    have hsorted : List.SortedLT [0, 2, 3] := by decide
    exact Nat.bitIndices_sum_map_two_pow hsorted
  have hint : ∀ i, Nat.testBit 13 i → i < 2 ^ 31 := by
    intro i hi
    rw [← Nat.mem_bitIndices, hbits] at hi
    have hsmall : ∀ i ∈ [0, 2, 3], i < 2 ^ 31 := by decide
    exact hsmall i hi
  have hcount : (Nat.bitIndices 13).length ≤ MAX_CORE_NUM := by
    rw [hbits]
    decide
  exact mask_cores_stored (by decide) (by decide) hcount hint .master rfl

/-! ## A position that is no `int` -/

/-- A run of digits is read to its end. -/
theorem digits_of_isSome {text : List UInt8} (hne : text ≠ [])
    (hdigits : ∀ c ∈ text, (Lib.Hexadecimal.value c).isSome) :
    Python.digits text =
      some ((text.filterMap Lib.Hexadecimal.value).foldl (fun value d => 16 * value + d) 0) := by
  have hrun : ∀ c ∈ text, Python.isDigit c := by
    intro c hc
    rw [Python.isDigit, hdigits c hc, Bool.or_true]
  have hunderscore : 95 ∉ text := by
    intro h
    cases hdigits 95 h
  have hpairs : ¬ [95, 95] <:+: text := by
    intro h
    exact hunderscore (h.mem List.mem_cons_self)
  unfold Python.digits
  dsimp only
  rw [List.takeWhile_eq_self_iff.mpr hrun, List.dropWhile_eq_nil_iff.mpr hrun, if_neg]
  rintro (h | h | h | h | h)
  · exact hne h
  · exact hunderscore (List.mem_of_head? h)
  · exact hunderscore (List.mem_of_getLast? h)
  · exact hpairs h
  · exact h rfl

/-- A one with zeros behind it is a mask of one bit. -/
theorem int16_one_zeros (k : Nat) :
    Python.int16 (49 :: List.replicate k 48) = some ((16 ^ k : Nat) : Int) := by
  have hfold (value : Nat) : (List.replicate k 0).foldl (fun value d => 16 * value + d) value =
      16 ^ k * value := by
    induction k generalizing value with
    | zero => rw [List.replicate_zero, List.foldl_nil, Nat.pow_zero, Nat.one_mul]
    | succ k ih => rw [List.replicate_succ, List.foldl_cons, ih, Nat.add_zero, Nat.pow_succ,
        Nat.mul_assoc]
  have hdigits : ∀ c ∈ 49 :: List.replicate k 48, (Lib.Hexadecimal.value c).isSome := by
    intro c hc
    rcases List.mem_cons.mp hc with rfl | hc
    · rfl
    · cases List.eq_of_mem_replicate hc
      rfl
  have hunsigned : Python.unsigned (49 :: List.replicate k 48) = some (16 ^ k) := by
    have hbegins : Python.unsigned (49 :: List.replicate k 48) =
        Python.digits (49 :: List.replicate k 48) := rfl
    have hone : (49 :: List.replicate k 48).filterMap Lib.Hexadecimal.value =
        1 :: List.replicate k 0 := by
      rw [List.filterMap_cons_some (by rfl), List.filterMap_replicate_of_some (by rfl)]
      rfl
    rw [hbegins, digits_of_isSome (List.cons_ne_nil _ _) hdigits, hone, List.foldl_cons, hfold,
      Nat.mul_zero, Nat.zero_add, Nat.mul_one]
  exact congrArg (Option.map Nat.cast) hunsigned

theorem bitIndices_sixteen_pow (k : Nat) : (16 ^ k).bitIndices = [4 * k] := by
  rw [show 16 = 2 ^ 4 from rfl, ← Nat.pow_mul, Nat.bitIndices_two_pow]

/-- THE BIT 2^31 is no core id: the `int` that is stored is another number. -/
theorem mask_beyond_int : ∃ mask n, mask = 49 :: List.replicate (2 ^ 29) 48 ∧
    Python.int16 mask = some ((n : Nat) : Int) ∧ 0 < n ∧ n.bitIndices.length ≤ MAX_CORE_NUM ∧
      ¬ MaskStored mask n .slave .empty := by
  have hmask := int16_one_zeros (2 ^ 29)
  have hbits := bitIndices_sixteen_pow (2 ^ 29)
  have hpos : 0 < 16 ^ 2 ^ 29 := Nat.pow_pos (by decide)
  generalize 16 ^ 2 ^ 29 = n at hmask hbits hpos
  refine ⟨_, n, rfl, hmask, hpos, ?_, ?_⟩
  · rw [hbits]
    decide
  · rintro ⟨cores, table', -, -, hstored⟩
    have hentries := hstored.entries
    rw [hbits] at hentries
    obtain ⟨core, -, hcore⟩ := List.map_eq_singleton_iff.mp hentries
    have hid : core.core_id.toInt = 2 ^ 31 := congrArg Prod.snd hcore
    exact absurd hid core.core_id.toInt_lt.ne

end

end LogCollector
