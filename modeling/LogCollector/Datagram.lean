import LogCollector.Records.Emission

/-!
# From a datagram to text

A receiver has a datagram written into the zeroed array `log` of a fresh packet.
Two loops take `log` for a string: the master copies it with two bytes more than
`strlen` counts, puts a newline over the terminator and relies on the byte behind
it being zero, and the worker puts it into the record. Both need a terminator the
program never writes. `datagram_text_iff` says for which payloads it is there.
-/

namespace LogCollector

def MAX_MSG : Nat := 1024

/-- `struct sockaddr_in`, as far as it is read. -/
structure SockaddrIn where
  s_addr : UInt32

/-- `struct lbuf`. -/
structure Lbuf where
  log : List UInt8
  client_addr : SockaddrIn
  length_log : log.length = MAX_MSG

/-- A payload as `recvfrom` delivers it. -/
structure Datagram where
  payload : List UInt8
  nonempty : 1 ≤ payload.length
  length_le : payload.length ≤ MAX_MSG

/-- The text of a datagram: its bytes up to the first NUL, or all of them. -/
def Datagram.text (datagram : Datagram) : CStr := .ofBytes datagram.payload

/-- `calloc(1, sizeof(struct lbuf))`. -/
def Lbuf.calloc : Lbuf := ⟨List.replicate MAX_MSG 0, ⟨0⟩, List.length_replicate⟩

/-- `recvfrom(main_fd, pkt->log, MAX_MSG, …)`. -/
def Lbuf.recvfrom (pkt : Lbuf) (datagram : Datagram) (sender : SockaddrIn) : Lbuf where
  log := datagram.payload ++ pkt.log.drop datagram.payload.length
  client_addr := sender
  length_log := by
    have := pkt.length_log
    have := datagram.length_le
    simp only [List.length_append, List.length_drop]
    omega

/-- What a string function reads of an array; `none` where it runs past the end. -/
def readString (array : List UInt8) : Option CStr :=
  if 0 ∈ array then some (.ofBytes array) else none

/-- `tmp_log` of `main_loop`: `log_len + 2` bytes of `log`, with a newline at
`log_len`. -/
def tmpLog (pkt : Lbuf) : Option (List UInt8) :=
  (readString pkt.log).bind fun s =>
    let log_len := s.strlen
    if log_len + 2 ≤ pkt.log.length then some ((pkt.log.take (log_len + 2)).set log_len 0x0a)
    else none

/-- What `drain_write_buffer` writes of an entry. -/
def drainedLine (entry : List UInt8) : Option (List UInt8) :=
  (readString entry).map fun s => drainWriteBuffer [s]

/-- The line is the text and a newline, the record has the text, and nothing is read
past the end of `log` or of `tmp_log`. -/
structure ReadAsText (datagram : Datagram) (pkt : Lbuf) : Prop where
  line : (tmpLog pkt).bind drainedLine = some (datagram.text.bytes ++ [0x0a])
  raw_log : ∃ buf, readString pkt.log = some buf ∧
    ∀ env vars i record vars', processPacket env vars i buf = some (record, vars') →
      record.get (.lit "raw_log") = some (.string datagram.text)

/-- The text leaves room for a newline and a terminator, and the byte behind the first
NUL is zero or was not received. -/
def TextFits (datagram : Datagram) : Prop :=
  datagram.text.strlen + 2 ≤ MAX_MSG ∧ datagram.payload.getD (datagram.text.strlen + 1) 0 = 0

/-! ## The record -/

/-- The members after `raw_log` have other keys. -/
theorem raw_log_of_emitRecord {env : RecordEnv} {i : Nat} {buf : CStr} {vars : PassVars}
    {record : Record} {func_ret_str : CStr}
    (h : emitRecord env i buf vars = some (record, func_ret_str)) :
    record.get (.lit "raw_log") = some (.string buf) := by
  rw [emitRecord] at h
  obtain ⟨plgn, -, h⟩ := Option.bind_eq_some_iff.mp h
  obtain ⟨⟨e, func_ret_str'⟩, -, h⟩ := Option.bind_eq_some_iff.mp h
  obtain ⟨jason, hjason, heq⟩ := Option.map_eq_some_iff.mp h
  cases heq
  have hbefore (hash : Scalar) : (((e.put (.lit "raw_log") (.string buf) buf).put (.lit "plugin_id")
      (.integer plgn.plugin_id.toInt64) (.ofInt plgn.plugin_id.toInt)).jason.put
        (.lit "siemplus_hash") hash).get (.lit "raw_log") = some (.string buf) := by
    rw [Record.get_put_of_ne _ _ (by decide)]
    show ((e.jason.put _ _).put _ _).get _ = _
    rw [Record.get_put_of_ne _ _ (by decide), Record.get_put_self]
  split at hjason
  · obtain ⟨rgx, -, rfl⟩ := Option.map_eq_some_iff.mp hjason
    rw [Record.get_put_of_ne _ _ (by decide)]
    exact hbefore _
  · cases hjason
    exact hbefore _

theorem raw_log_of_processPacket {env : RecordEnv} {i : Nat} {buf : CStr} {vars vars' : PassVars}
    {record : Record} (h : processPacket env vars i buf = some (record, vars')) :
    record.get (.lit "raw_log") = some (.string buf) := by
  rw [processPacket] at h
  obtain ⟨chosen, -, h⟩ := Option.bind_eq_some_iff.mp h
  obtain ⟨⟨record', func_ret_str⟩, hemit, heq⟩ := Option.map_eq_some_iff.mp h
  cases heq
  exact raw_log_of_emitRecord hemit

/-! ## The terminator -/

/-- An array with a NUL is its string, the NUL and the rest. -/
theorem exists_rest_of_nul {array : List UInt8} (h : 0 ∈ array) :
    ∃ rest, array = (CStr.ofBytes array).bytes ++ 0 :: rest := by
  induction array with
  | nil => cases h
  | cons b array ih =>
    by_cases hb : b = 0
    · subst hb
      exact ⟨array, rfl⟩
    · have hmem : 0 ∈ array := (List.mem_cons.mp h).resolve_left (Ne.symm hb)
      obtain ⟨rest, hrest⟩ := ih hmem
      have hstep : (CStr.ofBytes (b :: array)).bytes = b :: (CStr.ofBytes array).bytes := by
        show (b :: array).takeWhile (· != 0) = _
        rw [List.takeWhile_cons_of_pos (by simpa using hb)]
        rfl
      exact ⟨rest, by rw [hstep, List.cons_append, ← hrest]⟩

/-- A string followed by a NUL is read as that string. -/
theorem readString_append (s : CStr) (rest : List UInt8) :
    readString (s.bytes ++ 0 :: rest) = some s := by
  rw [readString, if_pos (by simp)]
  congr 1
  ext1
  have hall : ∀ c ∈ s.bytes, (c != 0) = true := by
    intro c hc
    have : c ≠ 0 := fun h => s.nulFree (h ▸ hc)
    simpa using this
  show (s.bytes ++ 0 :: rest).takeWhile (· != 0) = s.bytes
  rw [List.takeWhile_append_of_pos hall]
  simp

/-- `tmp_log` where the string leaves room for it: the newline, and the byte behind
the terminator in place of one. -/
theorem tmpLog_eq {pkt : Lbuf} {s : CStr} {b : UInt8} {rest : List UInt8}
    (hlog : pkt.log = s.bytes ++ 0 :: b :: rest) : tmpLog pkt = some (s.bytes ++ [0x0a, b]) := by
  have hlen : s.strlen + 2 ≤ pkt.log.length := by
    rw [hlog, List.length_append, List.length_cons, List.length_cons]
    exact Nat.add_le_add_left (by omega) _
  rw [tmpLog, hlog, readString_append, Option.bind_some, ← hlog, if_pos hlen, hlog]
  simp [CStr.strlen, List.take_append]

/-! ## Datagrams -/

/-- What is not received stays zero. -/
theorem log_recvfrom (datagram : Datagram) (sender : SockaddrIn) :
    (Lbuf.calloc.recvfrom datagram sender).log =
      datagram.payload ++ List.replicate (MAX_MSG - datagram.payload.length) 0 := by
  show datagram.payload ++ (List.replicate MAX_MSG 0).drop datagram.payload.length = _
  rw [List.drop_replicate]

/-- The string in `log` is the text of the datagram. -/
theorem ofBytes_log (datagram : Datagram) (sender : SockaddrIn) :
    CStr.ofBytes (Lbuf.calloc.recvfrom datagram sender).log = datagram.text := by
  have hzeros (n : Nat) : (List.replicate n (0 : UInt8)).takeWhile (· != 0) = [] := by
    cases n with
    | zero => rfl
    | succ n => rfl
  rw [log_recvfrom]
  ext1
  show (datagram.payload ++ _).takeWhile (· != 0) = datagram.payload.takeWhile (· != 0)
  rw [List.takeWhile_append, hzeros, List.append_nil]
  split
  · next hall => exact ((List.takeWhile_prefix _).eq_of_length hall).symm
  · rfl

/-- The byte behind the terminator is the one received there, or zero. -/
theorem getD_log (datagram : Datagram) (sender : SockaddrIn) (n : Nat) :
    (Lbuf.calloc.recvfrom datagram sender).log.getD n 0 = datagram.payload.getD n 0 := by
  rw [log_recvfrom, List.getD_eq_getElem?_getD, List.getD_eq_getElem?_getD, List.getElem?_append]
  split
  · rfl
  · next hn =>
    rw [List.getElem?_eq_none (Nat.le_of_not_lt hn), List.getElem?_replicate]
    split <;> rfl

section

variable {datagram : Datagram} {pkt : Lbuf} {b : UInt8} {rest : List UInt8}

/-- Without a terminator `strlen` leaves `log`. -/
theorem not_readAsText_of_unterminated (hnul : 0 ∉ pkt.log) : ¬ ReadAsText datagram pkt := by
  intro h
  obtain ⟨buf, hbuf, -⟩ := h.raw_log
  rw [readString, if_neg hnul] at hbuf
  cases hbuf

/-- Where the terminator is the last byte, the copy leaves `log`. -/
theorem not_readAsText_of_full {s : CStr} (hraw : readString pkt.log = some s)
    (hfull : pkt.log.length < s.strlen + 2) : ¬ ReadAsText datagram pkt := by
  intro h
  have hline := h.line
  rw [tmpLog, hraw, Option.bind_some, if_neg (Nat.not_le_of_lt hfull)] at hline
  cases hline

/-- The copy of the text is a line where the byte behind the terminator is zero. -/
theorem drainedLine_zero (s : CStr) :
    drainedLine (s.bytes ++ [0x0a, 0]) = some (s.bytes ++ [0x0a]) := by
  have hline : readString (s.bytes ++ [0x0a, 0]) = some (s ++ .lit "\n") := by
    rw [← readString_append (s ++ .lit "\n") []]
    congr 1
    rw [CStr.bytes_append, List.append_assoc]
    rfl
  rw [drainedLine, hline]
  simp only [Option.map_some, drainWriteBuffer, List.flatMap_cons, List.flatMap_nil,
    List.append_nil, CStr.bytes_append]
  rfl

/-- Any other byte there leaves the copy without a terminator. -/
theorem drainedLine_eq_none (s : CStr) (hb : b ≠ 0) :
    drainedLine (s.bytes ++ [0x0a, b]) = none := by
  have hnul : (0 : UInt8) ∉ s.bytes ++ [0x0a, b] := by
    simp only [List.mem_append, List.mem_cons, List.not_mem_nil, or_false, not_or]
    exact ⟨s.nulFree, by decide, hb.symm⟩
  rw [drainedLine, readString, if_neg hnul]
  rfl

/-- Where `log` has room for the newline, the byte behind the terminator decides. -/
theorem readAsText_iff_of_room (hlog : pkt.log = datagram.text.bytes ++ 0 :: b :: rest) :
    ReadAsText datagram pkt ↔ b = 0 := by
  have hraw : readString pkt.log = some datagram.text := hlog ▸ readString_append _ (b :: rest)
  have htmp := tmpLog_eq hlog
  constructor
  · intro h
    by_contra hb
    have hline := h.line
    rw [htmp, Option.bind_some, drainedLine_eq_none _ hb] at hline
    cases hline
  · rintro rfl
    refine ⟨?_, datagram.text, hraw, fun _ _ _ _ _ h => raw_log_of_processPacket h⟩
    rw [htmp, Option.bind_some, drainedLine_zero]

end

/-- A DATAGRAM IS READ AS TEXT exactly where its text fits and the byte behind the
first NUL is zero. -/
theorem datagram_text_iff (datagram : Datagram) (sender : SockaddrIn) :
    ReadAsText datagram (Lbuf.calloc.recvfrom datagram sender) ↔ TextFits datagram := by
  have hstring := ofBytes_log datagram sender
  have hlength := (Lbuf.calloc.recvfrom datagram sender).length_log
  have hgetD := getD_log datagram sender (datagram.text.strlen + 1)
  generalize Lbuf.calloc.recvfrom datagram sender = pkt at hstring hlength hgetD
  by_cases hnul : 0 ∈ pkt.log
  case neg =>
    have hall : datagram.text.bytes = pkt.log := by
      rw [← hstring]
      exact CStr.bytes_ofBytes hnul
    apply iff_of_false (not_readAsText_of_unterminated hnul)
    intro h
    have := h.1
    rw [CStr.strlen, hall] at this
    omega
  case pos =>
    obtain ⟨rest, hlog⟩ := exists_rest_of_nul hnul
    rw [hstring] at hlog
    cases rest with
    | nil =>
      have hfull : datagram.text.strlen + 1 = MAX_MSG := by
        rw [← hlength, hlog, List.length_append]
        rfl
      apply iff_of_false (not_readAsText_of_full (hlog ▸ readString_append _ []) (by omega))
      intro h
      have := h.1
      omega
    | cons b rest =>
      have hfits : datagram.text.strlen + 2 ≤ MAX_MSG := by
        rw [← hlength, hlog, List.length_append, List.length_cons, List.length_cons]
        exact Nat.add_le_add_left (by omega) _
      have hb : datagram.payload.getD (datagram.text.strlen + 1) 0 = b := by
        rw [← hgetD, hlog, CStr.strlen]
        simp
      rw [readAsText_iff_of_room hlog, TextFits, hb, and_iff_right hfits]

/-- The datagram `A`, NUL, `B`. -/
def embeddedNul : Datagram := ⟨[0x41, 0, 0x42], by decide, by decide⟩

/-- From 10.0.0.1. The copy of the text and the two bytes after it has no
terminator. -/
theorem embedded_nul_misread :
    ¬ ReadAsText embeddedNul (Lbuf.calloc.recvfrom embeddedNul ⟨0x0100000a⟩) := by
  intro h
  have hline := h.line
  rw [tmpLog_eq (s := .lit "A") (b := 0x42) rfl] at hline
  cases hline

end LogCollector
