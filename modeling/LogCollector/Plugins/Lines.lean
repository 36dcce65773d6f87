import LogCollector.Plugins.Fields

/-!
# The rows of a file

`parse_plugin_file` reads a file into rows and has `sanitize_plugin` bring each of
them into the form `key:value`, as `parse_configuration_file` and `sanitize_cfg` do. A row
that is blank or a comment is left empty, and a row without a key ends the program.
-/

namespace LogCollector

def LARGEBUFLEN : Nat := 8192

/-- `sizeof localbuf`. -/
def LOCALBUF_SIZE : Nat := 10240

/-- How the program ends where it does not go on. -/
inductive Fault
  /-- `exit(1)`. -/
  | exit
  /-- `plugin[MAX_PLUGIN_CNT]` is used. -/
  | tableFull
  /-- A null pointer, a pointer that was not set, or the end of another array. -/
  | badAccess
deriving DecidableEq

/-- `fgets(localbuf, size, file)`: what is read, and what is left of the file. -/
def fgets (size : Nat) (file : List UInt8) : Option (List UInt8 × List UInt8) :=
  if file = [] then none
  else
    let text := file.take (size - 1)
    let length := match text.idxOf? (byteOf '\n') with
      | some i => i + 1
      | none => text.length
    some (file.take length, file.drop length)

/-- `malloc(strlen(localbuf) + 2)`: the bytes that are there for a row. -/
def rowAllocation (row : CStr) : Nat := row.strlen + 2

/-- The rows of a file, at most as many as there is room for. -/
def readRows : Nat → List UInt8 → List CStr
  | 0, _ => []
  | room + 1, file =>
    match fgets LOCALBUF_SIZE file with
    | none => []
    | some (localbuf, file) => .ofBytes localbuf :: readRows room file

/-- Does the first character that is not a space begin a comment? -/
def iscomment (line : CStr) : Bool :=
  match line.bytes.dropWhile CStr.isspace with
  | c :: _ => c = byteOf '!' || c = byteOf '#'
  | [] => false

def isblankline (line : CStr) : Bool := line.bytes.all CStr.isspace

/-- `trim_spaces`. -/
def trimSpaces (buf : List UInt8) : List UInt8 :=
  ((buf.dropWhile CStr.isspace).reverse.dropWhile CStr.isspace).reverse

/-- `symbol` behind a character. -/
def countBracket (symbol : Int) (c : UInt8) : Int :=
  if c = byteOf '[' then symbol + 1 else if c = byteOf ']' then symbol - 1 else symbol

/-- The row without the spaces of its key that are in no brackets, and with its value
trimmed. -/
def eraseSpaces : Int → List UInt8 → List UInt8
  | _, [] => []
  | symbol, c :: row =>
    if c = byteOf ':' then c :: trimSpaces row
    else
      let symbol := countBracket symbol c
      if symbol = 0 ∧ CStr.isspace c then eraseSpaces symbol row
      else c :: eraseSpaces symbol row

/-- What is copied into `localbuf` before the value is trimmed there. -/
def copyRow : Int → List UInt8 → List UInt8
  | _, [] => []
  | symbol, c :: row =>
    if c = byteOf ':' then c :: row
    else
      let symbol := countBracket symbol c
      if symbol = 0 ∧ CStr.isspace c then copyRow symbol row else c :: copyRow symbol row

/-- `isalpha`. -/
def isalpha (c : UInt8) : Bool := 65 ≤ c && c ≤ 90 || 97 ≤ c && c ≤ 122

def tolower (c : UInt8) : UInt8 := if 65 ≤ c && c ≤ 90 then c + 32 else c

/-- The row with the letters of its key in lower case, where they are in no brackets. -/
def lowerKey : Int → List UInt8 → List UInt8
  | _, [] => []
  | symbol, c :: row =>
    let symbol := countBracket symbol c
    if c = byteOf ':' then c :: row
    else (if symbol = 0 ∧ isalpha c then tolower c else c) :: lowerKey symbol row

/-- A round of `sanitize_plugin`. -/
def sanitizeRow (row : CStr) : Except Fault CStr :=
  let row := if iscomment row then .empty else row
  let row := if isblankline row then .empty else row
  if row = .empty then .ok row
  else if byteOf ':' ∉ row.bytes then .error .exit
  -- the terminator is copied as well, and another one is written behind it
  else if LOCALBUF_SIZE ≤ (copyRow 0 row.bytes).length + 1 then .error .badAccess
  else
    let row := CStr.ofBytes (eraseSpaces 0 row.bytes)
    if row.bytes.head? = some (byteOf ':') then .error .exit
    else .ok (.ofBytes (lowerKey 0 row.bytes))

def sanitizePlugin (rows : List CStr) : Except Fault (List CStr) := rows.mapM sanitizeRow

/-- `sanitize_cfg`, which repeats `sanitize_plugin` for the rows of a configuration
file. -/
def sanitizeCfg (rows : List CStr) : Except Fault (List CStr) := rows.mapM sanitizeRow

/-- The key and the value of a row; `none` where `strchr(row, ':')` is null. -/
def splitRow (row : CStr) : Option (CStr × CStr) :=
  if byteOf ':' ∈ row.bytes then
    some (.ofBytes (row.bytes.takeWhile (· ≠ byteOf ':')),
      .ofBytes (row.bytes.dropWhile (· ≠ byteOf ':')).tail)
  else none

end LogCollector
