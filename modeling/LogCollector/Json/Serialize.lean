import LogCollector.Json.Value

/-!
# Serialising JSON

`json_to_string` with flags `0`, which is what every call in the program
passes: no white space, members in the order in which they are visited. A
string is written one byte at a time through a table of escapes; bytes from
`0x80` on are written as they are, whether or not they are UTF-8.
-/

namespace LogCollector

/-- A lower case hexadecimal digit. -/
def hexit (n : Nat) : UInt8 := if n < 10 then 0x30 + UInt8.ofNat n else 0x57 + UInt8.ofNat n

/-- `chars_escaping`. The entry for NUL is never used, since a string ends
there. -/
def charsEscaping (c : UInt8) : List UInt8 :=
  if c = 0x08 then [0x5c, 0x62]
  else if c = 0x09 then [0x5c, 0x74]
  else if c = 0x0a then [0x5c, 0x6e]
  else if c = 0x0c then [0x5c, 0x66]
  else if c = 0x0d then [0x5c, 0x72]
  else if c < 0x20 then
    [0x5c, 0x75, 0x30, 0x30, hexit (c.toNat / 16), hexit (c.toNat % 16)]
  else if c = 0x22 then [0x5c, 0x22]
  else if c = 0x5c then [0x5c, 0x5c]
  else [c]

/-- The bytes with a single-letter escape, and the letters. -/
def escapeLetters : List (UInt8 × UInt8) :=
  [(0x08, 0x62), (0x09, 0x74), (0x0a, 0x6e), (0x0c, 0x66), (0x0d, 0x72), (0x22, 0x22), (0x5c, 0x5c)]

/-- The three kinds of entries of the table. -/
inductive Escaped (c : UInt8) : List UInt8 → Prop
  | letter (e : UInt8) (h : (c, e) ∈ escapeLetters) : Escaped c [0x5c, e]
  | code (h : c < 0x20) :
    Escaped c [0x5c, 0x75, 0x30, 0x30, hexit (c.toNat / 16), hexit (c.toNat % 16)]
  | plain (h : 0x20 ≤ c) (quote : c ≠ 0x22) (backslash : c ≠ 0x5c) : Escaped c [c]

theorem escaped (c : UInt8) : Escaped c (charsEscaping c) := by
  unfold charsEscaping
  split
  · next h =>
    subst h
    exact .letter _ (by decide)
  split
  · next h =>
    subst h
    exact .letter _ (by decide)
  split
  · next h =>
    subst h
    exact .letter _ (by decide)
  split
  · next h =>
    subst h
    exact .letter _ (by decide)
  split
  · next h =>
    subst h
    exact .letter _ (by decide)
  split
  · next h => exact .code h
  next hge =>
  split
  · next h =>
    subst h
    exact .letter _ (by decide)
  split
  · next h =>
    subst h
    exact .letter _ (by decide)
  · next hquote hbackslash => exact .plain (UInt8.not_lt.mp hge) hquote hbackslash

theorem le_hexit {n : Nat} (h : n < 16) : 0x20 ≤ hexit n := by
  interval_cases n <;> decide

/-- No entry of the table has a control byte in it. -/
theorem le_of_mem_charsEscaping {c b : UInt8} (h : b ∈ charsEscaping c) : 0x20 ≤ b := by
  have letters : ∀ p ∈ escapeLetters, (0x20 : UInt8) ≤ p.2 := by simp [escapeLetters]
  have hc := escaped c
  generalize charsEscaping c = entry at h hc
  cases hc with
  | letter e he =>
    rcases List.mem_pair.mp h with rfl | rfl
    · decide
    · exact letters _ he
  | code hlt =>
    have hlow : c.toNat < 32 := UInt8.lt_iff_toNat_lt.mp hlt
    simp only [List.mem_cons, List.not_mem_nil, or_false] at h
    rcases h with rfl | rfl | rfl | rfl | rfl | rfl
    · decide
    · decide
    · decide
    · decide
    · exact le_hexit (by omega)
    · exact le_hexit (by omega)
  | plain hge => rwa [List.mem_singleton.mp h]

/-- `json_serialize_string`. -/
def serializeString (s : CStr) : CStr :=
  .ofBytes (0x22 :: s.bytes.flatMap charsEscaping ++ [0x22])

variable {ρ : Type}

mutual

/-- `json_serialize`. -/
def serialize (reals : Reals ρ) : Json ρ → CStr
  | .null => .lit "null"
  | .boolean false => .lit "false"
  | .boolean true => .lit "true"
  | .object members => .lit "\x7b" ++ serializeMembers reals true members ++ .lit "\x7d"
  | .array elems => .lit "[" ++ serializeElems reals true elems ++ .lit "]"
  | .integer i => .ofInt i.toInt
  | .real x => reals.format x
  | .string s => serializeString s

/-- The members of an object, a comma before each but the first. -/
def serializeMembers (reals : Reals ρ) : Bool → List (CStr × Json ρ) → CStr
  | _, [] => .empty
  | first, (name, value) :: members =>
    (if first then .empty else .lit ",") ++ serializeString name ++ .lit ":" ++
      serialize reals value ++ serializeMembers reals false members

/-- The elements of an array, a comma before each but the first. -/
def serializeElems (reals : Reals ρ) : Bool → List (Json ρ) → CStr
  | _, [] => .empty
  | first, value :: elems =>
    (if first then .empty else .lit ",") ++ serialize reals value ++
      serializeElems reals false elems

end

/-- The bytes of a serialised string are those of its escapes between quotes. -/
theorem bytes_serializeString (s : CStr) :
    (serializeString s).bytes = 0x22 :: s.bytes.flatMap charsEscaping ++ [0x22] := by
  apply CStr.bytes_ofBytes
  intro h
  simp only [List.cons_append, List.mem_cons, List.mem_append, List.mem_flatMap, List.not_mem_nil,
    or_false] at h
  rcases h with h | ⟨c, -, h⟩ | h
  · cases h
  · exact absurd (le_of_mem_charsEscaping h) (by decide)
  · cases h

/-- `json_to_string` with flags `0`. -/
def jsonToString (reals : Reals ρ) (json : Json ρ) : CStr := serialize reals json

end LogCollector
