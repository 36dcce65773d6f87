import LogCollector.FileHandle.Basic
import LogCollector.Lib.InPlace
import LogCollector.Records.Regex

/-!
# `regex_key_fields`

The value of a `fields` line is a sequence of specifications `[key:findby]`,
`[key:findby:func]`, `[key:findby::integer]` or `[key:findby:func:integer]`, with
`findby` in quotes where it is a literal. The parser cuts the value in place: it
writes a NUL over each delimiter `strchr` finds, and the fields keep pointers into
the value. A pointer is a position here.

The eight `temp` pointers are declared before the loop and have no initialiser. All
but one are set in a round before they are read in it; `temp7` is not, so it is
carried from round to round.
-/

namespace LogCollector

def MAX_REGEX_FIELDS : Nat := 32

/-- A character of the source. -/
def byteOf (c : Char) : UInt8 := UInt8.ofNat c.toNat

/-- `strchr`. -/
def strchr (mem : List UInt8) (p : Nat) (c : Char) : Option Nat :=
  Lib.InPlace.find 0 (byteOf c) mem p

/-- `*p = '\0'`. -/
def terminate (mem : List UInt8) (p : Nat) : List UInt8 := Lib.InPlace.cut 0 mem p

/-- The string at a pointer. -/
def stringAt (mem : List UInt8) (p : Nat) : CStr where
  bytes := Lib.InPlace.textAt 0 mem p
  nulFree h := by simpa using List.mem_takeWhile_imp h

/-- `struct field_t`, with pointers into the value. -/
structure FieldSlot where
  key : Nat
  findby : Nat
  func_name : Option Nat
  is_value : Bool
  is_integer : Bool

namespace FieldSlot

/-- A slot of the zeroed table after its first three assignments. -/
def start (key findby : Nat) : FieldSlot := ⟨key, findby, none, false, false⟩

/-- `if (*temp6 != 0) fields[field_num].func_name = temp6`. -/
def setFunction (slot : FieldSlot) (mem : List UInt8) (temp6 : Nat) : FieldSlot :=
  if stringAt mem temp6 ≠ .empty then { slot with func_name := some temp6 } else slot

/-- What is read of a slot later. -/
def read (mem : List UInt8) (slot : FieldSlot) : Field where
  key := stringAt mem slot.key
  findby := stringAt mem slot.findby
  func_name := slot.func_name.map (stringAt mem)
  is_value := slot.is_value
  is_integer := slot.is_integer

end FieldSlot

/-- The part of a round that cuts out `[key:…]`: the array, `temp`, `temp2` and
`temp3`. -/
def openField (mem : List UInt8) (delim : Nat) : Option (List UInt8 × Nat × Nat × Nat) :=
  let mem := terminate mem delim
  let temp := delim + 1
  -- where `strchr` finds nothing, the null pointer is written to
  (strchr mem temp ':').bind fun delim =>
    let mem := terminate mem delim
    let temp2 := delim + 1
    (strchr mem temp2 ']').map fun delim => (terminate mem delim, temp, temp2, delim + 1)

/-- The part that splits off the function and the type. -/
def splitFunction (mem : List UInt8) (temp7 : Option Nat) (temp2 : Nat) (slot : FieldSlot) :
    Option (List UInt8 × Option Nat × FieldSlot) :=
  match strchr mem temp2 ':' with
  | none => some (mem, temp7, { slot with is_integer := false })
  | some delim =>
    let mem := terminate mem delim
    let temp6 := delim + 1
    match strchr mem temp6 ':' with
    | some delim =>
      let mem := terminate mem delim
      let temp7 := delim + 1
      let slot := if stringAt mem temp7 = .lit "integer" then { slot with is_integer := true }
        else slot
      some (mem, some temp7, slot.setFunction mem temp6)
    -- `strchr(temp7, '"')`, the result of which is not used
    | none => temp7.map fun temp7 => (mem, some temp7, slot.setFunction mem temp6)

/-- The part that takes a literal out of its quotes. -/
def splitLiteral (mem : List UInt8) (temp2 : Nat) (slot : FieldSlot) :
    Option (List UInt8 × FieldSlot) :=
  match strchr mem temp2 '"' with
  | none => some (mem, slot)
  | some delim =>
    let mem := terminate mem delim
    let temp5 := delim + 1
    (strchr mem temp5 '"').map fun delim =>
      (terminate mem delim, { slot with findby := temp5, is_value := true })

/-- The last part, which splits `temp2` once more. -/
def splitAgain (mem : List UInt8) (temp2 : Nat) (slot : FieldSlot) : List UInt8 × FieldSlot :=
  match strchr mem temp2 ':' with
  | none => (mem, slot)
  | some delim =>
    (terminate mem delim,
      { slot with findby := temp2, func_name := some (delim + 1), is_value := false })

/-- One round; `none` where a pointer is used that is null or was not set. -/
def fieldStep (mem : List UInt8) (temp7 : Option Nat) (delim : Nat) :
    Option (List UInt8 × Option Nat × FieldSlot × Nat) :=
  (openField mem delim).bind fun (mem, temp, temp2, temp3) =>
    (splitFunction mem temp7 temp2 (.start temp temp2)).bind fun (mem, temp7, slot) =>
      (splitLiteral mem temp2 slot).map fun (mem, slot) =>
        let (mem, slot) := splitAgain mem temp2 slot
        (mem, temp7, slot, temp3)

/-- The loop, with room for `room` more fields. -/
def fieldsLoop : Nat → List UInt8 → Option Nat → Option Nat →
    Option (List UInt8 × List FieldSlot)
  | _, mem, _, none => some (mem, [])
  | 0, _, _, some _ => none
  | room + 1, mem, temp7, some delim =>
    (fieldStep mem temp7 delim).bind fun (mem, temp7, slot, temp3) =>
      (fieldsLoop room mem temp7 (strchr mem temp3 '[')).map fun (mem, slots) =>
        (mem, slot :: slots)

/-- `regex_key_fields`: its result, and the `field_cnt` entries of `fields`. -/
def regexKeyFields (value_ptr : CStr) : Option (Int × List Field) :=
  if value_ptr = .empty then some (ERR, [])
  else
    let mem := value_ptr.bytes ++ [0]
    (fieldsLoop MAX_REGEX_FIELDS mem none (strchr mem 0 '[')).map fun (mem, slots) =>
      (SUCCESS, slots.map (·.read mem))

end LogCollector
