import LogCollector.Loops.Memory

/-!
# `receiver_loop`

A receiver waits for a datagram in a fresh packet and puts the packet on one of
the receiver rings, or frees it where that ring is full.
-/

namespace LogCollector

/-- Where a receiver is in its loop. -/
inductive ReceiverPc (π : Type)
  /-- Before `kill_signal` is looked at. -/
  | top
  /-- Before `recvfrom`. -/
  | recvfrom
  | enqueue (pkt : π)
  /-- Before `free(pkt)`. -/
  | free (pkt : π)
  | exited

/-- One step of a receiver. `recvfrom` fills the packet, or returns an error. -/
inductive ReceiverAction (π : Type)
  | test
  | recvfrom (pkt : Option π)
  | enqueue (draw : Nat)
  | free

variable {π : Type}

/-- One step of a receiver; `draw` is what `rand` returns. -/
def receiverStep (receiver_ring_cnt : Nat) : Lib.Step (ReceiverPc π × Memory π) (ReceiverAction π)
  | (pc, mem), a =>
    match pc, a with
    | .top, .test => some (if mem.kill_signal then .exited else .recvfrom, mem)
    | .recvfrom, .recvfrom none => some (.top, mem)
    | .recvfrom, .recvfrom (some pkt) => some (.enqueue pkt, mem)
    | .enqueue pkt, .enqueue draw =>
      match mem.enqueueReceived (draw % receiver_ring_cnt) pkt with
      | some mem => some (.top, mem)
      | none => some (.free pkt, mem)
    | .free pkt, .free => some (.top, mem.free pkt)
    | _, _ => none

end LogCollector
