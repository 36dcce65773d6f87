import LogCollector.CString

/-!
# `hash_string`

The MurmurHash3 of `hash.h` and `hash.c`, as compiled without SSE 4.2. A string
is read four bytes at a time as little-endian words.
-/

namespace LogCollector

/-- `hash_rot`. -/
def hashRot (x k : UInt32) : UInt32 := (x <<< k) ||| (x >>> (32 - k))

/-- `mhash_add__`. -/
def mhashAddWord (hash data : UInt32) : UInt32 :=
  -- zero-valued data does not change the hash
  if data = 0 then hash else hash ^^^ (hashRot (data * 0xcc9e2d51) 15 * 0x1b873593)

/-- `mhash_add`. -/
def mhashAdd (hash data : UInt32) : UInt32 :=
  hashRot (mhashAddWord hash data) 13 * 5 + 0xe6546b64

/-- `mhash_finish`. -/
def mhashFinish (hash : UInt32) : UInt32 :=
  let hash := hash ^^^ (hash >>> 16)
  let hash := hash * 0x85ebca6b
  let hash := hash ^^^ (hash >>> 13)
  let hash := hash * 0xc2b2ae35
  hash ^^^ (hash >>> 16)

/-- The word at the head of a string, as `get_unaligned_u32` reads it and as
`memcpy` fills a word from fewer than four bytes. -/
def littleEndian : List UInt8 → UInt32
  | [] => 0
  | b :: bs => b.toUInt32 ||| (littleEndian bs <<< 8)

/-- The loop of `hash_bytes`. -/
def hashWords : List UInt8 → UInt32 → UInt32
  | b₀ :: b₁ :: b₂ :: b₃ :: bs, hash => hashWords bs (mhashAdd hash (littleEndian [b₀, b₁, b₂, b₃]))
  | [], hash => hash
  | rest, hash => mhashAdd hash (littleEndian rest)

/-- `hash_finish(hash, final)` of the `hash_add` of the words. -/
def hashBytes (p : List UInt8) (basis : UInt32) : UInt32 :=
  mhashFinish (hashWords p basis ^^^ UInt32.ofNat p.length)

/-- `hash_string`. -/
def hashString (s : CStr) (basis : UInt32) : UInt32 := hashBytes s.bytes basis

end LogCollector
