import LogCollector.Plugins.Directives

/-!
# The configuration file

`parse_configuration_file` fills `struct configuration` row by row: a row is cut at its
first `:`, the name in brackets is cut off the key, and the handler of the key stores
the value. `plugin_file` and `udp_socket` each add an entry to an array and increment its
counter. The lists here are the arrays up to their counters. No handler compares a
counter with the size of its array.

`thread_num` and `reuse_port` are left out: no handler sets them. A pointer that was not
set is `none`.
-/

namespace LogCollector

def MAX_UDP_SOCKET_CNT : Nat := 32

/-- `struct configuration`, as a configuration file fills it. -/
structure ConfigData where
  /-- `listen_addr_str[0 .. listen_addr_cnt)`. -/
  listen_addr_str : List CStr
  /-- `plugin_file[0 .. plugin_file_cnt)`. -/
  plugin_file : List CStr
  log_file : Option CStr
  tmp_folder : Option CStr
  temp_file_size : UInt64
  json_folder : Option CStr
  json_file_size : UInt64
  recv_buf_size : Int32
deriving DecidableEq

/-- The zeroed structure. -/
def ConfigData.zero : ConfigData := ⟨[], [], none, none, 0, none, 0, 0⟩

/-! ## Sizes -/

/-- The macro has no parentheses. It is the right factor of a product wherever it is
used. -/
def MB_SIZE : Int64 := 1024 * 1024

def GB_SIZE : Int64 := MB_SIZE * 1024

def HUN_MB_SIZE : UInt64 := 1024 * 1024 * 99

/-- The first token `strtok(str, separators)` finds, if there is one. -/
def firstToken (separators : CStr) (str : CStr) : Option CStr :=
  match str.bytes.dropWhile (· ∈ separators.bytes) with
  | [] => none
  | text => some (.ofBytes (text.takeWhile (· ∉ separators.bytes)))

/-- `parse_decimal(strtok(value_ptr, unit)) * size`, stored as a `uint64_t`.
`parse_decimal` reads a null pointer where no token is found. The product wraps. -/
def sizeInUnit (unit : CStr) (size : Int64) (value_ptr : CStr) : Except Fault UInt64 :=
  match firstToken unit value_ptr with
  | none => .error .badAccess
  | some token => .ok (parseDecimal token * size).toUInt64

/-! ## Handlers -/

/-- What a handler makes of the value and the configuration; its result is below 0 where
the value is not valid. The file name and the name in brackets are not used by any. -/
abbrev ConfigHandler : Type := CStr → ConfigData → Except Fault (Int × ConfigData)

/-- A key whose value must not be empty. -/
def textHandler (store : CStr → ConfigData → ConfigData) : ConfigHandler := fun value_ptr config =>
  if value_ptr = .empty then .ok (ERR, config) else .ok (SUCCESS, store value_ptr config)

def cfgKeyPluginFile : ConfigHandler :=
  textHandler fun value_ptr config =>
    { config with plugin_file := config.plugin_file ++ [value_ptr] }

def cfgKeyLogFile : ConfigHandler :=
  textHandler fun value_ptr config => { config with log_file := some value_ptr }

def cfgKeyUdpSocket : ConfigHandler :=
  textHandler fun value_ptr config =>
    { config with listen_addr_str := config.listen_addr_str ++ [value_ptr] }

def cfgKeyRecvBufSize : ConfigHandler :=
  textHandler fun value_ptr config =>
    { config with recv_buf_size := (parseDecimal value_ptr).toInt32 }

/-- The folder with a `/` at its end. -/
def folderPath (value_ptr : CStr) : CStr :=
  if value_ptr.bytes.getLast? = some (byteOf '/') then value_ptr else value_ptr ++ .lit "/"

def cfgKeyTmpFolder : ConfigHandler :=
  textHandler fun value_ptr config => { config with tmp_folder := some (folderPath value_ptr) }

def cfgKeyJsonFolder : ConfigHandler :=
  textHandler fun value_ptr config => { config with json_folder := some (folderPath value_ptr) }

/-- The body `cfg_key_temp_file_size` and `cfg_key_json_file_size` share. -/
def sizeHandler (store : UInt64 → ConfigData → ConfigData) : ConfigHandler :=
  fun value_ptr config =>
    if value_ptr = .empty then .ok (SUCCESS, store HUN_MB_SIZE config)
    else if value_ptr.strstr (.lit "MB") then
      (sizeInUnit (.lit "MB") MB_SIZE value_ptr).map fun size => (SUCCESS, store size config)
    else if value_ptr.strstr (.lit "GB") then
      (sizeInUnit (.lit "GB") GB_SIZE value_ptr).map fun size => (SUCCESS, store size config)
    else .ok (SUCCESS, store HUN_MB_SIZE config)

def cfgKeyTempFileSize : ConfigHandler :=
  sizeHandler fun size config => { config with temp_file_size := size }

def cfgKeyJsonFileSize : ConfigHandler :=
  sizeHandler fun size config => { config with json_file_size := size }

/-! ## Files -/

/-- `dictionary`. -/
def configDictionary : List (CStr × ConfigHandler) :=
  [(.lit "plugin_file", cfgKeyPluginFile), (.lit "log_file", cfgKeyLogFile),
    (.lit "udp_socket", cfgKeyUdpSocket), (.lit "recv_buf_size", cfgKeyRecvBufSize),
    (.lit "tmp_folder", cfgKeyTmpFolder), (.lit "temp_file_size", cfgKeyTempFileSize),
    (.lit "json_folder", cfgKeyJsonFolder), (.lit "json_file_size", cfgKeyJsonFileSize)]

/-- The key without the name in brackets behind it; `none` where `strchr(name, ']')` is
null. -/
def cutName (key : CStr) : Option CStr :=
  if byteOf '[' ∉ key.bytes then some key
  else if byteOf ']' ∈ (key.bytes.dropWhile (· ≠ byteOf '[')).tail then
    some (.ofBytes (key.bytes.takeWhile (· ≠ byteOf '[')))
  else none

/-- A round of `evaluate_configuration`. A value that is not valid and a key that is not
known are ignored, with a warning. -/
def configureRow (config : ConfigData) (row : CStr) : Except Fault ConfigData :=
  if row = .empty then .ok config
  else
    match splitRow row with
    | none => .error .badAccess
    | some (key, value) =>
      match cutName key with
      | none => .error .badAccess
      | some key =>
        match configDictionary.lookup key with
        | some func => (func value config).map Prod.snd
        | none => .ok config

def evaluateConfiguration (config : ConfigData) (rows : List CStr) : Except Fault ConfigData :=
  rows.foldlM configureRow config

def setDefaultConfigValues (config : ConfigData) : ConfigData :=
  { config with
    json_file_size := (100 * MB_SIZE).toUInt64
    temp_file_size := (100 * MB_SIZE).toUInt64
    tmp_folder := some .empty
    json_folder := some .empty }

/-- `parse_configuration_file`, where `file` is what is in the file, if it can be
opened. -/
def parseConfigurationFile (config : ConfigData) (file : Option (List UInt8)) :
    Except Fault (Int × ConfigData) :=
  match file with
  | none => .ok (ERR, config)
  | some file => do
    let rows ← sanitizeCfg (readRows LARGEBUFLEN file)
    let config ← evaluateConfiguration (setDefaultConfigValues config) rows
    .ok (SUCCESS, config)

end LogCollector
