import LogCollector.CString
import LogCollector.Lib.Burst

/-!
# Write buffers

Lines wait in a `struct write_buffer` for their file. A line that finds
`cnt >= MAX_LOG_BURST` drains the buffer before it is placed; the one-second
file timers drain it whatever it holds.
-/

namespace LogCollector

/-- `MAX_LOG_BURST`. -/
def MAX_LOG_BURST : Nat := 64

instance : NeZero MAX_LOG_BURST := ⟨by decide⟩

/-- `struct write_buffer`: the entries `buffer[0 .. cnt)`. -/
abbrev WriteBuffer (α : Type*) := Lib.Burst α MAX_LOG_BURST

/-- The bytes `drain_write_buffer` writes. -/
def drainWriteBuffer (entries : List CStr) : List UInt8 := entries.flatMap CStr.bytes

/-- The bytes `drain_write_buffer_json` writes: each entry ends with a newline. -/
def drainWriteBufferJson (entries : List CStr) : List UInt8 :=
  entries.flatMap fun s => s.bytes ++ [0x0a]

/-- The length both return, which counts no newline of `drain_write_buffer_json`. -/
def drainedLength (entries : List CStr) : Nat := (entries.map CStr.strlen).sum

/-- A write buffer and what became of the lines placed in it: `written` has
those drained so far, each with the file the drain wrote to. -/
structure BufferedFile (α : Type*) where
  wb : WriteBuffer α
  placed : List α
  written : List (Nat × α)
  /-- Nothing is lost, reordered or written twice. -/
  conserved : written.map Prod.snd ++ wb.items = placed

namespace BufferedFile

variable {α : Type*}

def empty : BufferedFile α := ⟨.empty, [], [], rfl⟩

/-- `buffer[cnt++] = x`, after a drain into `fptr` where `cnt >= MAX_LOG_BURST`. -/
def place (b : BufferedFile α) (fptr : Nat) (x : α) : BufferedFile α where
  wb := (b.wb.push x).2
  placed := b.placed ++ [x]
  written := b.written ++ (b.wb.push x).1.map (fptr, ·)
  conserved := by
    have htag : ((b.wb.push x).1.map (fptr, ·)).map Prod.snd = (b.wb.push x).1 := by
      rw [List.map_map]
      exact List.map_id _
    rw [List.map_append, htag, List.append_assoc, b.wb.push_append, ← List.append_assoc,
      b.conserved]

/-- A drain into `fptr`. -/
def drain (b : BufferedFile α) (fptr : Nat) : BufferedFile α where
  wb := .empty
  placed := b.placed
  written := b.written ++ b.wb.items.map (fptr, ·)
  conserved := by
    have htag : (b.wb.items.map (fptr, ·)).map Prod.snd = b.wb.items := by
      rw [List.map_map]
      exact List.map_id _
    rw [List.map_append, htag, Lib.Burst.items_empty, List.append_nil, b.conserved]

theorem place_ne_nil (b : BufferedFile α) (fptr : Nat) (x : α) :
    (b.place fptr x).wb.items ≠ [] := by
  change (b.wb.push x).2.items ≠ []
  rw [Lib.Burst.push]
  split
  · exact List.append_ne_nil_of_right_ne_nil _ (List.cons_ne_nil x [])
  · exact List.cons_ne_nil x []

/-- `if (wb[i]->cnt > 0)`, a drain of `wb[i]` into `fptr`. -/
def drainPending (wb : Nat → BufferedFile α) (i fptr : Nat) : Nat → BufferedFile α :=
  if (wb i).wb.items.length > 0 then Function.update wb i ((wb i).drain fptr) else wb

theorem drainPending_self (wb : Nat → BufferedFile α) (i fptr : Nat) :
    (drainPending wb i fptr i).wb.items = [] := by
  rw [drainPending]
  split
  · rw [Function.update_self]
    rfl
  · next h => exact List.length_eq_zero_iff.mp (Nat.eq_zero_of_not_pos h)

theorem drainPending_of_ne (wb : Nat → BufferedFile α) {i p : Nat} (fptr : Nat) (h : p ≠ i) :
    drainPending wb i fptr p = wb p := by
  rw [drainPending]
  split
  · exact Function.update_of_ne h _ _
  · rfl

/-- Everything placed is in a file when nothing waits. -/
theorem written_eq_placed_iff (b : BufferedFile α) :
    b.written.map Prod.snd = b.placed ↔ b.wb.items = [] := by
  rw [← b.conserved]
  exact List.self_eq_append_right

end BufferedFile

end LogCollector
