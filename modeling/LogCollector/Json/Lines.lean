import LogCollector.Lib.Separated
import LogCollector.Json.RoundTrip
import LogCollector.WriteBuffer

/-!
# The JSON log file

`worker_loop` serialises each record, places the text in the plugin's write
buffer and drains the buffer into the plugin's file, when it is full or when
the file timer is due. The bytes in the file are one line a record.
-/

namespace LogCollector

variable {ρ : Type}

/-- What `worker_loop` does with one plugin's write buffer. -/
inductive JsonEvent
  /-- A record was built. -/
  | record (r : Record)
  /-- The file timer is due. -/
  | timer

/-- A write buffer, and the bytes appended to its file. -/
structure JsonLog where
  wb : WriteBuffer CStr
  file : List UInt8

namespace JsonLog

def start : JsonLog := ⟨.empty, []⟩

/-- A drain, which leaves `cnt = 0`. -/
def drain (log : JsonLog) : JsonLog := ⟨.empty, log.file ++ drainWriteBufferJson log.wb.items⟩

/-- `wb[i]->buffer[wb[i]->cnt] = json_str`, after a drain where
`wb[i]->cnt >= MAX_LOG_BURST`. -/
def place (log : JsonLog) (json_str : CStr) : JsonLog :=
  let (drained, wb) := log.wb.push json_str
  ⟨wb, log.file ++ drainWriteBufferJson drained⟩

/-- One event. -/
def step (reals : Reals ρ) (log : JsonLog) : JsonEvent → JsonLog
  | .record r => log.place (jsonToString reals (r.toJson : Json ρ))
  | .timer => if log.wb.items.length > 0 then log.drain else log

/-- The file, once what waits in the buffer is drained too. -/
def bytes (log : JsonLog) : List UInt8 := log.drain.file

@[simp] theorem bytes_start : start.bytes = [] := rfl

theorem bytes_place (log : JsonLog) (json_str : CStr) :
    (log.place json_str).bytes = log.bytes ++ (json_str.bytes ++ [0x0a]) := by
  have hpush := congrArg drainWriteBufferJson (log.wb.push_append json_str)
  simp only [drainWriteBufferJson, List.flatMap_append, List.flatMap_cons, List.flatMap_nil,
    List.append_nil] at hpush
  simp only [bytes, drain, place, drainWriteBufferJson, List.append_assoc]
  rw [hpush]

theorem bytes_drain (log : JsonLog) : log.drain.bytes = log.bytes := List.append_nil _

end JsonLog

/-- The records among the events. -/
def recordsOf (events : List JsonEvent) : List Record :=
  events.filterMap fun
    | .record r => some r
    | .timer => none

/-- The line of a record, without its newline. -/
def lineOf (reals : Reals ρ) (r : Record) : List UInt8 :=
  (jsonToString reals (r.toJson : Json ρ)).bytes

/-- Whatever the sizes of the bursts and the moments of the timer, the file has
the lines of the records in order. -/
theorem bytes_foldl_step (reals : Reals ρ) (events : List JsonEvent) (log : JsonLog) :
    (events.foldl (JsonLog.step reals) log).bytes =
      log.bytes ++ (recordsOf events).flatMap fun r => lineOf reals r ++ [0x0a] := by
  induction events generalizing log with
  | nil =>
    simp only [List.foldl_nil, recordsOf, List.filterMap_nil, List.flatMap_nil, List.append_nil]
  | cons event events ih =>
    rw [List.foldl_cons, ih]
    cases event with
    | record r =>
      rw [JsonLog.step, JsonLog.bytes_place]
      simp only [recordsOf, List.filterMap_cons, List.flatMap_cons, lineOf, List.append_assoc]
    | timer =>
      have htimer : (JsonLog.step reals log .timer).bytes = log.bytes := by
        rw [JsonLog.step]
        split
        · exact log.bytes_drain
        · rfl
      rw [htimer]
      rfl

/-! ## Lines -/

theorem le_of_mem_serializeString {s : CStr} {b : UInt8} (h : b ∈ (serializeString s).bytes) :
    0x20 ≤ b := by
  rw [bytes_serializeString, List.cons_append, List.mem_cons, List.mem_append, List.mem_flatMap,
    List.mem_singleton] at h
  rcases h with rfl | ⟨c, -, h⟩ | rfl
  · decide
  · exact le_of_mem_charsEscaping h
  · decide

theorem le_of_mem_serialize_scalar {reals : Reals ρ} {x : Scalar} {b : UInt8}
    (h : b ∈ (serialize reals (x.toJson : Json ρ)).bytes) : 0x20 ≤ b := by
  cases x with
  | string s => exact le_of_mem_serializeString h
  | integer i =>
    have hdigit : 45 ≤ b.toNat := Lib.Decimal.le_of_mem_ofInt h
    refine UInt8.le_iff_toNat_le.mpr (le_trans ?_ hdigit)
    decide
  | boolean b' =>
    change b ∈ (serialize reals (.boolean b')).bytes at h
    rw [JsonParser.bytes_serialize_boolean] at h
    cases b' with
    | false => exact (show ∀ c ∈ [0x66, 0x61, 0x6c, 0x73, 0x65], (0x20 : UInt8) ≤ c by simp) b h
    | true => exact (show ∀ c ∈ [0x74, 0x72, 0x75, 0x65], (0x20 : UInt8) ≤ c by simp) b h

theorem le_of_mem_membersText {reals : Reals ρ} {b : UInt8} :
    ∀ {first : Bool} {members : List (CStr × Scalar)},
      b ∈ JsonParser.membersText reals first members → 0x20 ≤ b
  | _, [], h => by cases h
  | first, m :: members, h => by
    rw [JsonParser.membersText_cons] at h
    simp only [List.mem_append, List.mem_singleton] at h
    rcases h with (((h | h) | rfl) | h) | h
    · cases first with
      | false =>
        cases List.mem_singleton.mp h
        decide
      | true => cases h
    · exact le_of_mem_serializeString h
    · decide
    · exact le_of_mem_serialize_scalar h
    · exact le_of_mem_membersText h

/-- A line has no control byte in it, and so no newline. -/
theorem le_of_mem_lineOf {reals : Reals ρ} {r : Record} {b : UInt8} (h : b ∈ lineOf reals r) :
    0x20 ≤ b := by
  rw [lineOf, bytes_jsonToString, List.mem_append, List.mem_append, List.mem_singleton,
    List.mem_singleton] at h
  rcases h with rfl | h | rfl
  · decide
  · exact le_of_mem_membersText h
  · decide

theorem lineOf_ne_nil (reals : Reals ρ) (r : Record) : lineOf reals r ≠ [] := by
  rw [lineOf, bytes_jsonToString]
  exact List.cons_ne_nil _ _

/-- JSON LINES ARE LOSSLESS: split at newlines, the file has one line a record,
in order and not empty, and parsing the line gives an object equal to the
record. -/
theorem json_lines_lossless (reals : Reals ρ) (events : List JsonEvent) :
    ∃ lines : List (List UInt8),
      (events.foldl (JsonLog.step reals) JsonLog.start).bytes.splitOn 0x0a = lines ++ [[]] ∧
        (∀ line ∈ lines, line ≠ []) ∧
        List.Forall₂ (fun line r => ∃ string json, CStr.bytes string = line ∧
            jsonFromString reals string = some json ∧ jsonEqual reals json r.toJson = true)
          lines (recordsOf events) := by
  refine ⟨(recordsOf events).map (lineOf reals), ?_, ?_, ?_⟩
  · have hflat : (recordsOf events).flatMap (fun r => lineOf reals r ++ [0x0a]) =
        ((recordsOf events).map (lineOf reals)).flatMap (· ++ [0x0a]) := by
      rw [List.flatMap_map]
    rw [bytes_foldl_step, JsonLog.bytes_start, List.nil_append, hflat]
    apply Lib.Separated.splitOn_flatMap
    intro line hline hnewline
    obtain ⟨r, -, rfl⟩ := List.mem_map.mp hline
    exact absurd (le_of_mem_lineOf hnewline) (by decide)
  · intro line hline
    obtain ⟨r, -, rfl⟩ := List.mem_map.mp hline
    exact lineOf_ne_nil reals r
  · refine List.forall₂_map_left_iff.mpr (List.forall₂_same.mpr ?_)
    intro r _
    exact ⟨jsonToString reals r.toJson, r.toJson, rfl, jsonFromString_jsonToString reals r,
      jsonEqual_record reals r⟩

end LogCollector
