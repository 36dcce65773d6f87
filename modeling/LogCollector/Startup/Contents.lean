import LogCollector.Datagram
import LogCollector.Json.Lines
import LogCollector.Lib.Related
import LogCollector.Records.Noninterference
import LogCollector.Startup.Delivery

/-!
# What the files contain

Here the packets are datagrams in zeroed buffers, the workers make the records of `worker_loop` and
place their JSON text. Each line of a JSON file is then the text of an object that
`json_from_string` reads back, with the text of one received datagram as its log and the plugin that
listens to its sender; each line of a log file is this text.
-/

namespace LogCollector

/-! ## Packets -/

/-- What one call of `recvfrom` delivers. -/
structure Delivered where
  datagram : Datagram
  sender : SockaddrIn

/-- `pkt`, a `struct lbuf` from `calloc` that `recvfrom` has filled. -/
def Delivered.lbuf (received : Delivered) : Lbuf :=
  Lbuf.calloc.recvfrom received.datagram received.sender

/-- What `main_loop` reads of `pkt`; the line is `none` where its copy runs past the end. -/
def lbufReader : PacketReader (Buffer Delivered) (Option (List UInt8)) where
  s_addr pkt := pkt.datagram.lbuf.client_addr.s_addr
  line pkt := tmpLog pkt.datagram.lbuf

section

variable {ρ : Type}

/-- What `worker_loop` places in a write buffer for `pkt`: `json_str` of its record. -/
def jsonBuilder (reals : Reals ρ) (env : RecordEnv) (stack : PassVars) :
    RecordBuilder PassVars (Buffer Delivered) CStr where
  initial := (recordBuilder env stack).initial
  beginPass := (recordBuilder env stack).beginPass
  build vars i pkt :=
    (readString pkt.datagram.lbuf.log).bind fun buf =>
      ((recordBuilder env stack).build vars i buf).map fun (record, vars) =>
        (jsonToString reals (record.toJson : Json ρ), vars)

/-- The bytes a worker has written to the JSON files of a plugin, one file after the other, and
those it will write. -/
def jsonFiles (b : BufferedFile CStr) : List UInt8 :=
  drainWriteBufferJson (b.written.map Prod.snd ++ b.wb.items)

/-- The bytes of the log files of a plugin; `none` where a drain reads past the end of an entry. -/
def logFiles (b : BufferedFile (Option (List UInt8))) : Option (List UInt8) :=
  ((b.written.map Prod.snd ++ b.wb.items).mapM (Option.bind · drainedLine)).map List.flatten

/-- The line is the text of a record of the packet, for the plugin with this id. -/
def Tells (reals : Reals ρ) (plugin_id : Int32) (pkt : Delivered) (line : List UInt8) : Prop :=
  ∃ (json_str : CStr) (record : Record), json_str.bytes = line ∧
    jsonFromString reals json_str = some record.toJson ∧
    record.get (.lit "raw_log") = some (.string pkt.datagram.text) ∧
    record.get (.lit "plugin_id") = some (.integer plugin_id.toInt64)

/-! ## The text of a record -/

theorem plugin_id_of_emitRecord {env : RecordEnv} {i : Nat} {buf : CStr} {vars : PassVars}
    {record : Record} {func_ret_str : CStr} {plgn : Plugin} (hplgn : env.plugins[i]? = some plgn)
    (h : emitRecord env i buf vars = some (record, func_ret_str)) :
    record.get (.lit "plugin_id") = some (.integer plgn.plugin_id.toInt64) := by
  rw [emitRecord, hplgn, Option.bind_some] at h
  obtain ⟨⟨e, func_ret_str'⟩, -, h⟩ := Option.bind_eq_some_iff.mp h
  obtain ⟨jason, hjason, heq⟩ := Option.map_eq_some_iff.mp h
  cases heq
  have hbefore (jason : Record) (hash : Scalar) :
      ((jason.put (.lit "plugin_id") (.integer plgn.plugin_id.toInt64)).put
        (.lit "siemplus_hash") hash).get (.lit "plugin_id") =
          some (.integer plgn.plugin_id.toInt64) := by
    rw [Record.get_put_of_ne _ _ (by decide), Record.get_put_self]
  split at hjason
  · obtain ⟨rgx, -, rfl⟩ := Option.map_eq_some_iff.mp hjason
    rw [Record.get_put_of_ne _ _ (by decide)]
    exact hbefore _ _
  · cases hjason
    exact hbefore _ _

/-- What a worker builds of a packet is the text of its record. -/
theorem tells_of_builds {reals : Reals ρ} {env : RecordEnv} {stack : PassVars} {i : Nat}
    {pkt : Buffer Delivered} {json_str : CStr} {plgn : Plugin} (hplgn : env.plugins[i]? = some plgn)
    (h : (jsonBuilder reals env stack).Builds i pkt json_str) :
    Tells reals plgn.plugin_id pkt.datagram json_str.bytes := by
  obtain ⟨vars, vars', h⟩ := h
  obtain ⟨buf, hbuf, h⟩ := Option.bind_eq_some_iff.mp h
  obtain ⟨⟨record, _⟩, hrecord, heq⟩ := Option.map_eq_some_iff.mp h
  cases heq
  have htext : buf = pkt.datagram.datagram.text := by
    rw [readString] at hbuf
    split at hbuf
    · rw [← Option.some.inj hbuf]
      exact ofBytes_log pkt.datagram.datagram pkt.datagram.sender
    · cases hbuf
  have hpacket : processPacket env vars i buf = some (record, vars') := hrecord
  refine ⟨_, record, rfl, jsonFromString_jsonToString reals record, ?_, ?_⟩
  · rw [← htext]
    exact raw_log_of_processPacket hpacket
  · rw [processPacket] at hpacket
    obtain ⟨chosen, -, hpacket⟩ := Option.bind_eq_some_iff.mp hpacket
    obtain ⟨⟨record', func_ret_str⟩, hemit, heq⟩ := Option.map_eq_some_iff.mp hpacket
    cases heq
    exact plugin_id_of_emitRecord hplgn hemit

/-- It has no newline. -/
theorem no_newline_of_builds {reals : Reals ρ} {env : RecordEnv} {stack : PassVars} {i : Nat}
    {pkt : Buffer Delivered} {json_str : CStr}
    (h : (jsonBuilder reals env stack).Builds i pkt json_str) : 0x0a ∉ json_str.bytes := by
  obtain ⟨vars, vars', h⟩ := h
  obtain ⟨buf, -, h⟩ := Option.bind_eq_some_iff.mp h
  obtain ⟨⟨record, _⟩, -, heq⟩ := Option.map_eq_some_iff.mp h
  cases heq
  intro hnewline
  exact absurd (le_of_mem_lineOf hnewline) (by decide)

/-- JSON files are split at newlines into the texts. -/
theorem splitOn_jsonFiles {b : BufferedFile CStr}
    (h : ∀ json_str ∈ b.written.map Prod.snd ++ b.wb.items, 0x0a ∉ json_str.bytes) :
    (jsonFiles b).splitOn 0x0a =
      (b.written.map Prod.snd ++ b.wb.items).map CStr.bytes ++ [[]] := by
  have hflat : jsonFiles b =
      ((b.written.map Prod.snd ++ b.wb.items).map CStr.bytes).flatMap (· ++ [0x0a]) := by
    rw [List.flatMap_map]
    rfl
  rw [hflat]
  apply Lib.Separated.splitOn_flatMap
  intro line hline
  obtain ⟨json_str, hmem, rfl⟩ := List.mem_map.mp hline
  exact h json_str hmem

end

/-! ## The lines of a log file -/

/-- Where the datagrams fit, a log file has their texts. -/
theorem mapM_drainedLine {pkts : List (Buffer Delivered)}
    (h : ∀ pkt ∈ pkts, TextFits pkt.datagram.datagram) :
    (pkts.map lbufReader.line).mapM (Option.bind · drainedLine) =
      some (pkts.map fun pkt => pkt.datagram.datagram.text.bytes ++ [0x0a]) := by
  rw [Lib.Fallible.mapM_eq_some, List.map_map, List.map_map]
  apply List.map_congr_left
  intro pkt hpkt
  exact ((datagram_text_iff pkt.datagram.datagram pkt.datagram.sender).mpr (h pkt hpkt)).line

/-! ## The files of a process -/

section

variable {ρ : Type} {options : List (CoreRole × CStr)} {core_conf : List Core}
  {table : PluginTable} {s : Started}

/-- What the workers build their records with. -/
structure RecordSetting (ρ : Type) where
  reals : Reals ρ
  pcre : Pcre
  /-- What was loaded for the plugins of the table. -/
  content : Nat → Plugin
  debug : Bool
  /-- What the variables of each worker happen to hold when it starts. -/
  stack : Nat → PassVars

/-- The record builders of the workers. -/
def Started.jsonBuilders (s : Started) (setting : RecordSetting ρ) (w : Fin s.sthreads.length) :
    RecordBuilder PassVars (Buffer Delivered) CStr :=
  jsonBuilder setting.reals
    { pcre := setting.pcre
      plugins := (s.workerConfig w).plugins.map setting.content
      debug := setting.debug }
    (setting.stack w)

/-- The plugin a master finds for a sender is the first of the table that listens to it. -/
theorem StartedWith.lookup_eq (h : StartedWith core_conf table s) (t : Fin s.mthreads.length)
    (ip : UInt32) :
    pluginLookupWithIpDec (s.masterConfig t).plugin ip =
      table.entries.findIdx? (·.ip_dec = ip) := by
  rw [← h.plugin.entries, pluginLookupWithIpDec, List.findIdx?_map]
  exact List.findIdx?_map

/-- The second plugin has no regex, the first finds `deny`. -/
def mixedSetting : RecordSetting Unit where
  reals := noReals
  pcre := literalPcre
  content p :=
    if p = 0 then ⟨7, true, [⟨1, .lit "denied", .lit "deny", .lit "deny", []⟩]⟩ else ⟨8, true, []⟩
  debug := false
  stack _ := emptyStack

/-- `deny` from the sender of the first plugin. -/
def denyDelivered : Delivered where
  datagram := ⟨[0x64, 0x65, 0x6e, 0x79], by decide, by decide⟩
  sender := ⟨1⟩

/-- The worker places its record. -/
def oneDelivered : List (mixedStarted.Action mixedCores Delivered) :=
  [.receiver mixedReceiver .test,
    .receiver mixedReceiver (.recvfrom (some ⟨0, denyDelivered⟩)),
    .receiver mixedReceiver (.enqueue 0), .master mixedMaster .dequeue,
    .master mixedMaster .lookup, .master mixedMaster (.place 0),
    .master mixedMaster (.enqueue 0), .worker mixedWorker (.dequeue 0 0),
    .worker mixedWorker (.process 0 0)]

end

end LogCollector
