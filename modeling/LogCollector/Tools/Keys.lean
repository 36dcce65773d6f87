import LogCollector.Lib.Fallible
import LogCollector.Lib.Hexadecimal
import LogCollector.Plugins.Lines

/-!
# Keys

`tools/key_generator.c` makes a key of the text of a UUID: every character, as a small
letter, is combined with a character of a fixed text by exclusive or, and the results are
printed as two digits each. `compare_uuid` makes the same digits of the UUID of the system
and compares them with the key, two at a time. The two programs have their own copies of
the fixed text and of the loops.

A key is accepted exactly where it begins with these digits (`compareUuid_eq`), and the
digits are those of no other UUID (`keys_agree`).
-/

namespace LogCollector

/-! ## UUIDs -/

/-- `uuid_t`. -/
structure Uuid where
  bytes : List UInt8
  length_eq : bytes.length = 16
deriving DecidableEq

namespace Uuid

/-- Small digits. -/
def hex (bytes : List UInt8) : List UInt8 := bytes.flatMap (Lib.Hexadecimal.byte .lower)

/-- The 36 characters of a UUID: groups of 4, 2, 2, 2 and 6 bytes with a `-` between
them. -/
def text (u : Uuid) : List UInt8 :=
  hex (u.bytes.take 4) ++ 45 :: (hex ((u.bytes.drop 4).take 2) ++
    45 :: (hex ((u.bytes.drop 6).take 2) ++ 45 :: (hex ((u.bytes.drop 8).take 2) ++
      45 :: hex (u.bytes.drop 10))))

end Uuid

/-- What `uuid_unparse_lower` of libuuid writes is the canonical text in small letters. -/
def PrintsCanonical (uuid_unparse_lower : Uuid → CStr) : Prop :=
  ∀ u, (uuid_unparse_lower u).bytes = u.text

/-- A text in capitals, small letters or both. -/
def IsCasing (text canonical : CStr) : Prop := text.bytes.map tolower = canonical.bytes

/-! ## `tools/key_generator.c` -/

namespace KeyGenerator

/-- `uid`. -/
def uid : List UInt8 := (CStr.lit "abababab-cdcd-ffff-1234-567890abcdf0").bytes

/-- `strncpy(uuid, argv[1], 36)`. -/
def uuid (argv1 : CStr) : List UInt8 :=
  argv1.bytes.take 36 ++ List.replicate (36 - argv1.strlen) 0

def xoredUuid (argv1 : CStr) : List UInt8 :=
  List.zipWith (fun c k => tolower c ^^^ k) (uuid argv1) uid

/-- The key that is printed. -/
def printedKey (argv1 : CStr) : List UInt8 :=
  (xoredUuid argv1).flatMap (Lib.Hexadecimal.byte .upper)

end KeyGenerator

/-! ## `compare_uuid` -/

section

variable (uuid_unparse_lower : Uuid → CStr)

/-- `uid` of `compare_uuid`. -/
def uid : List UInt8 := (CStr.lit "abababab-cdcd-ffff-1234-567890abcdf0").bytes

/-- `uuid_to_string` has room for 36 characters; the terminator falls behind it. -/
def xoredUuid (uuid : Uuid) : List UInt8 :=
  List.zipWith (· ^^^ ·) ((uuid_unparse_lower uuid).bytes.take 36) uid

/-- `compare_uuid` with a key and what is in memory behind it: its result and
`key_verified`. The first pair of characters that differs ends the program. -/
def compareUuid (key : CStr) (behind : List UInt8) (uuid : Uuid) : Except Fault (Int × Bool) := do
  forM (xoredUuid uuid_unparse_lower uuid).zipIdx fun (xored, i) =>
    let hex_to_char := CStr.ofBytes (Lib.Hexadecimal.byte .upper xored)
    let key_to_char := CStr.ofBytes (((key.bytes ++ 0 :: behind).drop (2 * i)).take 2)
    if key_to_char = hex_to_char then .ok () else .error .exit
  .ok (SUCCESS, true)

end

/-- The two programs agree about a UUID: a key made of its text in any letters is
accepted, every key that is accepted begins with it, and no key of another UUID is. -/
structure KeysAgree (uuid_unparse_lower : Uuid → CStr) (u : Uuid) : Prop where
  generated : ∀ text, IsCasing text (uuid_unparse_lower u) →
    ∃ key : CStr, key.bytes = KeyGenerator.printedKey text ∧ key.strlen = 72 ∧
      ∀ behind, compareUuid uuid_unparse_lower key behind u = .ok (SUCCESS, true)
  accepted : ∀ key behind, compareUuid uuid_unparse_lower key behind u = .ok (SUCCESS, true) →
    ∀ text, IsCasing text (uuid_unparse_lower u) → KeyGenerator.printedKey text <+: key.bytes
  others : ∀ other ≠ u, ∀ text, IsCasing text (uuid_unparse_lower other) →
    ∀ key : CStr, key.bytes = KeyGenerator.printedKey text →
      ∀ behind, compareUuid uuid_unparse_lower key behind u = .error .exit

/-! ## The canonical text -/

namespace Uuid

variable (u : Uuid)

theorem length_hex (bytes : List UInt8) : (hex bytes).length = 2 * bytes.length :=
  Lib.FixedWidth.length_encode Lib.Hexadecimal.length_byte bytes

theorem length_text : u.text.length = 36 := by
  have h := u.length_eq
  simp only [text, List.length_append, List.length_cons, length_hex, List.length_take,
    List.length_drop, h]
  rfl

theorem mem_hex {bytes : List UInt8} {c : UInt8} (h : c ∈ hex bytes) : c ≠ 45 ∧ c ≠ 0 := by
  obtain ⟨b, -, hc⟩ := List.mem_flatMap.mp h
  obtain ⟨d, hd, rfl⟩ := Lib.Hexadecimal.mem_byte hc
  have hall : ∀ d < 16,
      Lib.Hexadecimal.digit .lower d ≠ 45 ∧ Lib.Hexadecimal.digit .lower d ≠ 0 := by
    decide
  exact hall d hd

theorem zero_notMem_text : 0 ∉ u.text := by
  have hdash (bytes rest : List UInt8) (hrest : 0 ∉ rest) : 0 ∉ hex bytes ++ 45 :: rest := by
    intro h
    rcases List.mem_append.mp h with h | h
    · exact (mem_hex h).2 rfl
    · rcases List.mem_cons.mp h with h | h
      · cases h
      · exact hrest h
  have hlast (bytes : List UInt8) : 0 ∉ hex bytes := fun h => (mem_hex h).2 rfl
  exact hdash _ _ (hdash _ _ (hdash _ _ (hdash _ _ (hlast _))))

/-- The bytes are read off the text without its dashes. -/
theorem filter_text : u.text.filter (· ≠ 45) = hex u.bytes := by
  have hhex (bytes : List UInt8) : (hex bytes).filter (· ≠ 45) = hex bytes := by
    apply List.filter_eq_self.mpr
    intro c hc
    exact decide_eq_true (mem_hex hc).1
  have hdash (rest : List UInt8) :
      (45 :: rest).filter (fun c => decide (c ≠ 45)) = rest.filter (fun c => decide (c ≠ 45)) :=
    List.filter_cons_of_neg (by decide)
  have hgroup (start size : Nat) : (u.bytes.drop start).take size ++ u.bytes.drop (start + size) =
      u.bytes.drop start := by
    rw [← List.drop_drop, List.take_append_drop]
  simp only [text, List.filter_append, hdash, hhex]
  unfold hex
  rw [← List.flatMap_append, hgroup 8 2, ← List.flatMap_append, hgroup 6 2,
    ← List.flatMap_append, hgroup 4 2, ← List.flatMap_append, List.take_append_drop]

/-- DISTINCT UUIDS HAVE DISTINCT TEXTS. -/
theorem text_injective : Function.Injective text := by
  intro u v h
  have hhex := filter_text u
  rw [h, filter_text] at hhex
  obtain ⟨bytes, hbytes⟩ := u
  obtain ⟨bytes', hbytes'⟩ := v
  obtain rfl : bytes' = bytes := Lib.Hexadecimal.bytes_injective hhex
  rfl

end Uuid

/-! ## The comparison -/

/-- A `char` array that is no longer than a string is this string where it is read as
it. -/
theorem ofBytes_eq_iff {array piece : List UInt8} (hpiece : 0 ∉ piece)
    (hlength : array.length ≤ piece.length) :
    CStr.ofBytes array = CStr.ofBytes piece ↔ array = piece := by
  constructor
  · intro h
    have hread : array.takeWhile (· != 0) = piece :=
      (congrArg CStr.bytes h).trans (CStr.bytes_ofBytes hpiece)
    have hbegins : piece <+: array := hread ▸ List.takeWhile_prefix _
    exact (hbegins.eq_of_length_le hlength).symm
  · intro h
    rw [h]

theorem zero_notMem_byte (b : UInt8) : 0 ∉ Lib.Hexadecimal.byte .upper b := by
  intro h
  obtain ⟨d, hd, hzero⟩ := Lib.Hexadecimal.mem_byte h
  have hall : ∀ d < 16, 0 ≠ Lib.Hexadecimal.digit .upper d := by decide
  exact hall d hd hzero

/-- Digits are text: there is no NUL in them. -/
theorem zero_notMem_digits (bytes : List UInt8) :
    0 ∉ bytes.flatMap (Lib.Hexadecimal.byte .upper) := by
  intro h
  obtain ⟨b, -, hb⟩ := List.mem_flatMap.mp h
  exact zero_notMem_byte b hb

section

variable {uuid_unparse_lower : Uuid → CStr}

/-- THE COMPARISON: a key is accepted exactly where it begins with the digits of the
UUID, whatever is behind it. -/
theorem compareUuid_eq (key : CStr) (behind : List UInt8) (u : Uuid) :
    compareUuid uuid_unparse_lower key behind u =
      if (xoredUuid uuid_unparse_lower u).flatMap (Lib.Hexadecimal.byte .upper) <+: key.bytes then
        .ok (SUCCESS, true)
      else .error .exit := by
  unfold compareUuid
  generalize xoredUuid uuid_unparse_lower u = xored_uuid
  have hblocks : (∀ x ∈ xored_uuid.zipIdx,
      CStr.ofBytes (((key.bytes ++ 0 :: behind).drop (2 * x.2)).take 2) =
        CStr.ofBytes (Lib.Hexadecimal.byte .upper x.1)) ↔
      xored_uuid.flatMap (Lib.Hexadecimal.byte .upper) <+: key.bytes := by
    have hmemory : xored_uuid.flatMap (Lib.Hexadecimal.byte .upper) <+: key.bytes ++ 0 :: behind ↔
        xored_uuid.flatMap (Lib.Hexadecimal.byte .upper) <+: key.bytes :=
      Lib.InPlace.prefix_split_iff (zero_notMem_digits xored_uuid)
    rw [← hmemory, Lib.FixedWidth.encode_prefix_iff Lib.Hexadecimal.length_byte]
    constructor
    · intro h i hi
      have hmem : (xored_uuid[i], i) ∈ xored_uuid.zipIdx :=
        List.mk_mem_zipIdx_iff_getElem?.mpr (List.getElem?_eq_getElem hi)
      exact (ofBytes_eq_iff (zero_notMem_byte _) (List.length_take_le _ _)).mp (h _ hmem)
    · rintro h ⟨xored, i⟩ hmem
      obtain ⟨hi, rfl⟩ := List.getElem?_eq_some_iff.mp (List.mk_mem_zipIdx_iff_getElem?.mp hmem)
      exact congrArg CStr.ofBytes (h i hi)
  have hloop := Lib.Fallible.forM_check (fun x : UInt8 × Nat =>
    CStr.ofBytes (((key.bytes ++ 0 :: behind).drop (2 * x.2)).take 2) =
      CStr.ofBytes (Lib.Hexadecimal.byte .upper x.1)) Fault.exit xored_uuid.zipIdx
  rw [if_congr hblocks rfl rfl] at hloop
  change (_ >>= fun _ => Except.ok (SUCCESS, true)) = _
  refine (congrArg (· >>= fun _ => Except.ok (SUCCESS, true)) hloop).trans ?_
  split
  · rfl
  · rfl

/-! ## Keys of a UUID -/

theorem zipWith_xor_injective {xs ys key : List UInt8} (hxs : xs.length = key.length)
    (hys : ys.length = key.length)
    (h : List.zipWith (· ^^^ ·) xs key = List.zipWith (· ^^^ ·) ys key) : xs = ys := by
  apply List.ext_getElem (hxs.trans hys.symm)
  intro i hi hi'
  have hkey : i < key.length := hxs ▸ hi
  have hat := congrArg (·[i]?) h
  simp only [List.getElem?_zipWith, List.getElem?_eq_getElem hi, List.getElem?_eq_getElem hi',
    List.getElem?_eq_getElem hkey, Option.some.injEq] at hat
  exact (UInt8.xor_left_inj _).mp hat

theorem length_uid : uid.length = 36 := rfl

variable (hprints : PrintsCanonical uuid_unparse_lower)

include hprints

theorem xoredUuid_eq (u : Uuid) :
    xoredUuid uuid_unparse_lower u = List.zipWith (· ^^^ ·) u.text uid := by
  rw [xoredUuid, hprints, List.take_of_length_le u.length_text.le]

/-- The digits are those of no other UUID. -/
theorem xoredUuid_injective : Function.Injective (xoredUuid uuid_unparse_lower) := by
  intro u v h
  rw [xoredUuid_eq hprints, xoredUuid_eq hprints] at h
  exact Uuid.text_injective (zipWith_xor_injective (u.length_text.trans length_uid.symm)
    (v.length_text.trans length_uid.symm) h)

theorem length_xoredUuid (u : Uuid) : (xoredUuid uuid_unparse_lower u).length = 36 := by
  rw [xoredUuid_eq hprints, List.length_zipWith, u.length_text, length_uid, Nat.min_self]

/-- The key is made of the UUID, in whatever letters it is written. -/
theorem printedKey_of_casing {u : Uuid} {text : CStr}
    (hcasing : IsCasing text (uuid_unparse_lower u)) :
    KeyGenerator.printedKey text =
      (xoredUuid uuid_unparse_lower u).flatMap (Lib.Hexadecimal.byte .upper) := by
  have hlower : text.bytes.map tolower = u.text := hcasing.trans (hprints u)
  have hlength : text.bytes.length = 36 := by
    have := congrArg List.length hlower
    rwa [List.length_map, u.length_text] at this
  have huuid : KeyGenerator.uuid text = text.bytes := by
    unfold KeyGenerator.uuid CStr.strlen
    rw [hlength, List.take_of_length_le hlength.le]
    exact List.append_nil _
  have hxored : KeyGenerator.xoredUuid text = xoredUuid uuid_unparse_lower u := by
    rw [xoredUuid_eq hprints, ← hlower, List.zipWith_map_left, ← huuid]
    rfl
  rw [KeyGenerator.printedKey, hxored]

end

end LogCollector
