import LogCollector.Loops.Conservation
import LogCollector.Lib.Relay

/-!
# Packets keep their order

A receiver gets a datagram, a master places its line for a plugin, a worker builds its record: these
are the events of a run. Between two of them a packet goes through a ring, and each loop holds at
most one packet, so the way of a packet is a row of relays: from a receiver to a receiver ring, from
there to a master, to the ring of a worker and to the worker. Whatever the interleaving, and
whichever packets are lost on the way, those that one receiver got and one master took reach a
worker in the order in which they came in.
-/

namespace LogCollector

variable {ι κ ω δ ℓ σ ρ : Type}

/-! ## Events -/

/-- What becomes of a datagram. -/
inductive Event (ι κ ω δ : Type)
  /-- `recvfrom` fills the packet. -/
  | received (t : ι) (pkt : Buffer δ)
  /-- The line of the packet is placed in `wb[p]` of a master. -/
  | lined (t : κ) (p : Nat) (pkt : Buffer δ)
  /-- The record of the packet is placed in `wb[i]` of a worker, which took it from master `m`. -/
  | recorded (t : ω) (i m : Nat) (pkt : Buffer δ)

/-- The events of a run, in order. -/
abbrev Trace (ι κ ω δ : Type) := List (Event ι κ ω δ)

namespace Trace

/-- The packets a receiver got. -/
def received [DecidableEq ι] (trace : Trace ι κ ω δ) (t : ι) : List (Buffer δ) :=
  trace.filterMap fun
    | .received t' pkt => if t' = t then some pkt else none
    | _ => none

/-- The packets of which a master placed the line for plugin `p`. -/
def lined [DecidableEq κ] (trace : Trace ι κ ω δ) (t : κ) (p : Nat) : List (Buffer δ) :=
  trace.filterMap fun
    | .lined t' p' pkt => if (t', p') = (t, p) then some pkt else none
    | _ => none

/-- The packets of which a worker built a record for the plugin at `i`, each with the master it
came from. -/
def recorded [DecidableEq ω] (trace : Trace ι κ ω δ) (t : ω) (i : Nat) : List (Nat × Buffer δ) :=
  trace.filterMap fun
    | .recorded t' i' m pkt => if (t', i') = (t, i) then some (m, pkt) else none
    | _ => none

/-- The numbers of the packets of which any worker built a record. -/
def recordedIds (trace : Trace ι κ ω δ) : List Nat :=
  trace.filterMap fun
    | .recorded _ _ _ pkt => some pkt.id
    | _ => none

end Trace

/-- The packet that a receiver gets in this step. -/
def ReceiverAction.receipt {π : Type} : ReceiverAction π → List π
  | .recvfrom (some pkt) => [pkt]
  | _ => []

/-- The packet of which a master places the line for plugin `p` in this step. -/
def MasterPc.lines {π : Type} (pc : MasterPc π) (a : MasterAction) (p : Nat) : List π :=
  match pc, a with
  | .place _ pkt, .place p' => if p' = p then [pkt] else []
  | _, _ => []

/-- The packet of which a worker builds the record for plugin `i` in this step, with the master it
came from. -/
def WorkerPc.records {π : Type} (pc : WorkerPc π) (a : WorkerAction) (i : Nat) : List (Nat × π) :=
  match pc, a with
  | .process _ _ pkt, .process i' m => if i' = i then [(m, pkt)] else []
  | _, _ => []

/-- The packets that came from master `m`. -/
def ofMaster {π : Type} (m : Nat) (records : List (Nat × π)) : List π :=
  (records.filter (·.1 = m)).map Prod.snd

/-- The event of an action. -/
def Pipeline.events (s : Pipeline ι κ ω δ ℓ σ ρ) : PipelineAction ι κ ω δ → Trace ι κ ω δ
  | .receiver t a => a.receipt.map (.received t)
  | .master t (.place p) => ((s.masters t).pc.lines (.place p) p).map (.lined t p)
  | .worker t (.process i m) =>
    ((s.workers t).pc.records (.process i m) i).map fun (m, pkt) => .recorded t i m pkt
  | _ => []

/-! ## What steps do to the history of the rings -/

section

variable {π : Type} {rings : Nat → Queue π} {q : Queue π} {mem mem' : Memory π}
  {ring : Nat} {pkt : π}

theorem push_history (h : (rings ring).push pkt = some q) (r : Nat) :
    (Function.update rings ring q r).entered =
        (rings r).entered ++ (if r = ring then [pkt] else []) ∧
      (Function.update rings ring q r).left = (rings r).left := by
  obtain ⟨hentered, hleft⟩ := Lib.BoundedQueue.push_history h
  by_cases hr : r = ring
  · subst hr
    rw [Function.update_self, if_pos rfl]
    exact ⟨hentered, hleft⟩
  · rw [Function.update_of_ne hr, if_neg hr, List.append_nil]
    exact ⟨rfl, rfl⟩

theorem pop_history (h : (rings ring).pop = some (pkt, q)) (r : Nat) :
    (Function.update rings ring q r).entered = (rings r).entered ∧
      (Function.update rings ring q r).left =
        (rings r).left ++ (if r = ring then [pkt] else []) := by
  obtain ⟨hentered, hleft⟩ := Lib.BoundedQueue.pop_history h
  by_cases hr : r = ring
  · subst hr
    rw [Function.update_self, if_pos rfl]
    exact ⟨hentered, hleft⟩
  · rw [Function.update_of_ne hr, if_neg hr, List.append_nil]
    exact ⟨rfl, rfl⟩

theorem Memory.enqueueReceived_history (h : mem.enqueueReceived ring pkt = some mem') :
    (∀ k, (mem'.receiver_rings k).entered =
        (mem.receiver_rings k).entered ++ (if k = ring then [pkt] else []) ∧
      (mem'.receiver_rings k).left = (mem.receiver_rings k).left) ∧ mem'.rings = mem.rings := by
  obtain ⟨q, hq, rfl⟩ := Option.map_eq_some_iff.mp h
  exact ⟨push_history hq, rfl⟩

theorem Memory.enqueue_history (h : mem.enqueue ring pkt = some mem') :
    (∀ r, (mem'.rings r).entered = (mem.rings r).entered ++ (if r = ring then [pkt] else []) ∧
      (mem'.rings r).left = (mem.rings r).left) ∧ mem'.receiver_rings = mem.receiver_rings := by
  obtain ⟨q, hq, rfl⟩ := Option.map_eq_some_iff.mp h
  exact ⟨push_history hq, rfl⟩

theorem Memory.dequeueReceived_history (h : mem.dequeueReceived ring = some (pkt, mem')) :
    (∀ k, (mem'.receiver_rings k).entered = (mem.receiver_rings k).entered ∧
      (mem'.receiver_rings k).left =
        (mem.receiver_rings k).left ++ (if k = ring then [pkt] else [])) ∧
      mem'.rings = mem.rings := by
  obtain ⟨⟨pkt', q⟩, hq, heq⟩ := Option.map_eq_some_iff.mp h
  obtain ⟨rfl, rfl⟩ := Prod.mk.inj heq
  exact ⟨pop_history hq, rfl⟩

theorem Memory.dequeue_history (h : mem.dequeue ring = some (pkt, mem')) :
    (∀ r, (mem'.rings r).entered = (mem.rings r).entered ∧
      (mem'.rings r).left = (mem.rings r).left ++ (if r = ring then [pkt] else [])) ∧
      mem'.receiver_rings = mem.receiver_rings := by
  obtain ⟨⟨pkt', q⟩, hq, heq⟩ := Option.map_eq_some_iff.mp h
  obtain ⟨rfl, rfl⟩ := Prod.mk.inj heq
  exact ⟨pop_history hq, rfl⟩

end

/-! ## The loops as relays -/

section

open Lib

variable {π : Type} {mem mem' : Memory π}

section

variable {receiver_ring_cnt : Nat} {pc pc' : ReceiverPc π} {a : ReceiverAction π} {k : Nat}

theorem ReceiverAction.receipt_eq (a : ReceiverAction π) :
    a.receipt = match a.kind with
      | .receive pkt => [pkt]
      | .forget | .inside => [] := by
  cases a with
  | recvfrom pkt => cases pkt <;> rfl
  | test | enqueue draw | free => rfl

/-- A RECEIVER RELAYS what it gets to a ring, which it shares with other receivers. -/
theorem receiver_takes (h : receiverStep receiver_ring_cnt (pc, mem) a = some (pc', mem'))
    {got : List π} (hnew : ∀ pkt ∈ a.receipt, pkt ∉ (mem.receiver_rings k).entered)
    (hrelay : SharedRelay got pc.held (mem.receiver_rings k).entered) :
    SharedRelay (got ++ a.receipt) pc'.held (mem'.receiver_rings k).entered := by
  have htransfer := receiver_transfer h
  rw [a.receipt_eq] at hnew ⊢
  generalize a.kind = kind at htransfer hnew
  cases htransfer with
  | nothing holds same =>
    subst same
    rwa [List.append_nil, holds]
  | receive pkt before after same =>
    subst same
    rw [before] at hrelay
    rw [after]
    exact hrelay.enter (hnew pkt (List.mem_singleton_self pkt))
  | putReceived ring pkt before after put =>
    rw [List.append_nil, after, ((mem.enqueueReceived_history put).1 k).1]
    rw [before] at hrelay
    apply hrelay.pass
    split
    · exact List.Sublist.refl [pkt]
    · exact List.nil_sublist [pkt]
  | free pkt before after freed =>
    subst freed
    rw [List.append_nil, after]
    exact hrelay.drop

/-- A receiver holds what it got, and puts what it holds on a ring. -/
theorem receiver_keeps (h : receiverStep receiver_ring_cnt (pc, mem) a = some (pc', mem')) :
    (∀ pkt ∈ pc'.held, pkt ∈ pc.held ∨ pkt ∈ a.receipt) ∧
      ∀ pkt ∈ (mem'.receiver_rings k).entered,
        pkt ∈ (mem.receiver_rings k).entered ∨ pkt ∈ pc.held := by
  have htransfer := receiver_transfer h
  rw [a.receipt_eq]
  generalize a.kind = kind at htransfer
  cases htransfer with
  | nothing holds same =>
    subst same
    exact ⟨fun pkt hpkt => .inl (holds ▸ hpkt), fun pkt hpkt => .inl hpkt⟩
  | receive pkt before after same =>
    subst same
    rw [after]
    exact ⟨fun pkt hpkt => .inr hpkt, fun pkt hpkt => .inl hpkt⟩
  | putReceived ring pkt before after put =>
    rw [after, before, ((mem.enqueueReceived_history put).1 k).1]
    refine ⟨fun pkt hpkt => absurd hpkt List.not_mem_nil, fun pkt' hpkt => ?_⟩
    rcases List.mem_append.mp hpkt with hpkt | hpkt
    · exact .inl hpkt
    · split at hpkt
      · exact .inr hpkt
      · cases hpkt
  | free pkt before after freed =>
    subst freed
    rw [after]
    exact ⟨fun pkt hpkt => absurd hpkt List.not_mem_nil, fun pkt hpkt => .inl hpkt⟩

/-- A ring does not mix up what another receiver put on it. -/
theorem receiver_shares (h : receiverStep receiver_ring_cnt (pc, mem) a = some (pc', mem'))
    {got held : List π} (hforeign : ∀ pkt ∈ pc.held, pkt ∉ got)
    (hrelay : SharedRelay got held (mem.receiver_rings k).entered) :
    SharedRelay got held (mem'.receiver_rings k).entered := by
  have htransfer := receiver_transfer h
  generalize a.kind = kind at htransfer
  cases htransfer with
  | nothing _ same | receive _ _ _ same | free _ _ _ same =>
    subst same
    exact hrelay
  | putReceived ring pkt before after put =>
    rw [((mem.enqueueReceived_history put).1 k).1]
    split
    · exact hrelay.foreign (hforeign pkt (by rw [before]; exact List.mem_singleton_self pkt))
    · rwa [List.append_nil]

end

/-- The packets that left the receiver ring of a master. -/
def MasterConfig.source (config : MasterConfig) (mem : Memory π) : List π :=
  match config.ring with
  | some ring => (mem.receiver_rings ring).left
  | none => []

theorem MasterConfig.source_sublist (config : MasterConfig)
    (hleft : ∀ k, (mem.receiver_rings k).left.Sublist (mem'.receiver_rings k).left) :
    (config.source mem).Sublist (config.source mem') := by
  rw [source, source]
  cases config.ring with
  | none => exact List.Sublist.refl []
  | some ring => exact hleft ring

/-- The packet of which a master has not placed the line yet. -/
def MasterPc.awaiting : MasterPc π → List π
  | .lookup pkt | .place _ pkt => [pkt]
  | .dequeue | .enqueue _ _ | .free _ | .fileTimer | .drain _ | .test _ | .exited => []

/-- The packet that a master hands on to a worker of plugin `p`. -/
def MasterPc.leaving (p : Nat) : MasterPc π → List π
  | .enqueue p' pkt => if p' = p then [pkt] else []
  | .dequeue | .lookup _ | .place _ _ | .free _ | .fileTimer | .drain _ | .test _ | .exited => []

theorem MasterConfig.awaiting_drainFrom (config : MasterConfig) (i : Nat) :
    (config.drainFrom i : MasterPc π).awaiting = [] := by
  rw [drainFrom]
  split <;> rfl

theorem MasterConfig.leaving_drainFrom (config : MasterConfig) (i p : Nat) :
    (config.drainFrom i : MasterPc π).leaving p = [] := by
  rw [drainFrom]
  split <;> rfl

section

variable {config : MasterConfig} {reader : PacketReader π ℓ} {th th' : Master π ℓ}
  {a : MasterAction}

/-- A MASTER RELAYS packets from its receiver ring to the write buffer of a plugin. -/
theorem master_takes (h : masterStep config reader (th, mem) a = some (th', mem')) (p : Nat)
    {lined : List π} (hrelay : Relay (config.source mem) th.pc.awaiting lined) :
    Relay (config.source mem') th'.pc.awaiting (lined ++ th.pc.lines a p) := by
  have keep (hsource : config.source mem' = config.source mem)
      (hawaiting : th'.pc.awaiting = th.pc.awaiting) (hlines : th.pc.lines a p = []) :
      Relay (config.source mem') th'.pc.awaiting (lined ++ th.pc.lines a p) := by
    rwa [hsource, hawaiting, hlines, List.append_nil]
  cases masterStepped h with
  | @took ring pkt _ hpc hring htaken =>
    rw [hpc] at hrelay ⊢
    have hsource : config.source mem' = config.source mem ++ [pkt] := by
      simp only [MasterConfig.source, hring, (mem.dequeueReceived_history htaken).1 ring, if_pos]
    rw [hsource]
    simpa only [MasterPc.awaiting, MasterPc.lines, List.append_nil] using hrelay.enter pkt
  | foundEmpty hpc | listened hpc | refused hpc | freed hpc | drained hpc | left hpc =>
    exact keep rfl (by rw [hpc]; rfl) (by rw [hpc]; rfl)
  | unlistened hpc =>
    rw [hpc] at hrelay ⊢
    simpa only [MasterPc.awaiting, MasterPc.lines, List.append_nil] using hrelay.drop
  | @placed p' pkt hpc =>
    rw [hpc] at hrelay ⊢
    apply hrelay.pass
    simp only [MasterPc.lines, MasterPc.awaiting]
    split
    · exact List.Sublist.refl [pkt]
    · exact List.nil_sublist [pkt]
  | handedOn hpc _ _ hput =>
    refine keep ?_ (by rw [hpc]; rfl) (by rw [hpc]; rfl)
    simp only [MasterConfig.source, (mem.enqueue_history hput).2]
  | @timed due hpc =>
    refine keep rfl ?_ (by rw [hpc]; rfl)
    rw [hpc]
    cases due with
    | false => rfl
    | true => exact config.awaiting_drainFrom 0
  | stayed hpc =>
    exact keep rfl ((config.awaiting_drainFrom _).trans (by rw [hpc]; rfl)) (by rw [hpc]; rfl)

/-- A MASTER RELAYS packets from the write buffer of a plugin to a ring that is fed for no other
plugin. -/
theorem master_hands (h : masterStep config reader (th, mem) a = some (th', mem')) {p r : Nat}
    (hfeeds : ∀ p' plgn core, config.plugin[p']? = some plgn → plgn.ring_rxs core = some r → p' = p)
    {lined : List π} (hrelay : Relay lined (th.pc.leaving p) (mem.rings r).entered) :
    Relay (lined ++ th.pc.lines a p) (th'.pc.leaving p) (mem'.rings r).entered := by
  have keep (hring : (mem'.rings r).entered = (mem.rings r).entered)
      (hleaving : th'.pc.leaving p = th.pc.leaving p) (hlines : th.pc.lines a p = []) :
      Relay (lined ++ th.pc.lines a p) (th'.pc.leaving p) (mem'.rings r).entered := by
    rwa [hring, hleaving, hlines, List.append_nil]
  cases masterStepped h with
  | took hpc _ htaken =>
    exact keep (by rw [(mem.dequeueReceived_history htaken).2]) (by rw [hpc]; rfl)
      (by rw [hpc]; rfl)
  | foundEmpty hpc | listened hpc | unlistened hpc | freed hpc | drained hpc | left hpc =>
    exact keep rfl (by rw [hpc]; rfl) (by rw [hpc]; rfl)
  | @placed p' pkt hpc =>
    rw [hpc] at hrelay ⊢
    simp only [MasterPc.lines, MasterPc.leaving]
    split
    · exact hrelay.enter pkt
    · rwa [List.append_nil]
  | @handedOn p' draw ring pkt plgn _ hpc hfound hring hput =>
    rw [hpc] at hrelay ⊢
    rw [((mem.enqueue_history hput).1 r).1]
    simp only [MasterPc.lines, MasterPc.leaving, List.append_nil] at hrelay ⊢
    split
    · next heq =>
      subst heq
      rw [if_pos (hfeeds p' plgn _ hfound hring)] at hrelay
      exact hrelay.pass (List.Sublist.refl [pkt])
    · rw [List.append_nil]
      exact hrelay.drop
  | refused hpc =>
    rw [hpc] at hrelay ⊢
    simpa only [MasterPc.leaving, MasterPc.lines, List.append_nil] using hrelay.drop
  | @timed due hpc =>
    refine keep rfl ?_ (by rw [hpc]; rfl)
    rw [hpc]
    cases due with
    | false => rfl
    | true => exact config.leaving_drainFrom 0 p
  | stayed hpc =>
    exact keep rfl ((config.leaving_drainFrom _ p).trans (by rw [hpc]; rfl)) (by rw [hpc]; rfl)

end

section

variable {config : WorkerConfig} {builder : RecordBuilder σ π ρ} {th th' : Worker σ π ρ}
  {a : WorkerAction}

/-- The packets that left the ring a worker polls for a plugin and a master. -/
def WorkerConfig.source (config : WorkerConfig) (mem : Memory π) (i m : Nat) : List π :=
  match config.ring_rxs i m with
  | some ring => (mem.rings ring).left
  | none => []

theorem WorkerConfig.source_sublist (config : WorkerConfig)
    (hleft : ∀ r, (mem.rings r).left.Sublist (mem'.rings r).left) (i m : Nat) :
    (config.source mem i m).Sublist (config.source mem' i m) := by
  rw [source, source]
  cases config.ring_rxs i m with
  | none => exact List.Sublist.refl []
  | some ring => exact hleft ring

/-- The packet from master `m` of which a worker builds a record for plugin `i`. -/
def WorkerPc.processing (i m : Nat) : WorkerPc π → List π
  | .process i' m' pkt => if (i', m') = (i, m) then [pkt] else []
  | .dequeue _ _ | .free _ _ _ | .report _ | .test _ _ | .fileTimer _ | .exited => []

theorem WorkerConfig.processing_dequeueFrom (config : WorkerConfig) (i' m' i m : Nat) :
    (config.dequeueFrom i' m' : WorkerPc π).processing i m = [] := by
  rw [dequeueFrom]
  split <;> rfl

theorem WorkerConfig.processing_testFrom (config : WorkerConfig) (i' m' i m : Nat) :
    (config.testFrom i' m' : WorkerPc π).processing i m = [] := by
  rw [testFrom]
  split <;> rfl

/-- A WORKER RELAYS packets from a ring to the write buffer of a plugin. -/
theorem worker_takes (h : workerStep config builder (th, mem) a = some (th', mem')) (i m : Nat)
    {recorded : List π} (hrelay : Relay (config.source mem i m) (th.pc.processing i m) recorded) :
    Relay (config.source mem' i m) (th'.pc.processing i m)
      (recorded ++ ofMaster m (th.pc.records a i)) := by
  have keep (hsource : config.source mem' i m = config.source mem i m)
      (hprocessing : th'.pc.processing i m = th.pc.processing i m)
      (hrecords : th.pc.records a i = []) :
      Relay (config.source mem' i m) (th'.pc.processing i m)
        (recorded ++ ofMaster m (th.pc.records a i)) := by
    rwa [hsource, hprocessing, hrecords, ofMaster, List.filter_nil, List.map_nil, List.append_nil]
  cases workerStepped h with
  | @took i' m' ring pkt _ hpc hring htaken =>
    rw [hpc] at hrelay ⊢
    simp only [WorkerPc.processing, WorkerPc.records, ofMaster, List.filter_nil, List.map_nil,
      List.append_nil] at hrelay ⊢
    split
    · next heq =>
      obtain ⟨rfl, rfl⟩ := Prod.mk.inj heq
      have hsource : config.source mem' i' m' = config.source mem i' m' ++ [pkt] := by
        simp only [WorkerConfig.source, hring, (mem.dequeue_history htaken).1 ring, if_pos]
      rw [hsource]
      exact hrelay.enter pkt
    · exact hrelay.grow (config.source_sublist (fun r => by
        rw [((mem.dequeue_history htaken).1 r).2]
        exact List.sublist_append_left _ _) i m)
  | foundEmpty hpc =>
    exact keep rfl ((config.processing_dequeueFrom _ _ i m).trans (by rw [hpc]; rfl))
      (by rw [hpc]; rfl)
  | @processed i' m' pkt _ _ hpc =>
    rw [hpc] at hrelay ⊢
    apply hrelay.pass
    rw [WorkerPc.records, WorkerPc.processing, ofMaster]
    by_cases hi : i' = i
    · by_cases hm : m' = m
      · simp [hi, hm]
      · simp [hi, hm]
    · simp [hi]
  | freed hpc =>
    exact keep rfl ((config.processing_dequeueFrom _ _ i m).trans (by rw [hpc]; rfl))
      (by rw [hpc]; rfl)
  | @reported _ due hpc =>
    refine keep rfl ?_ (by rw [hpc]; rfl)
    rw [hpc]
    cases due with
    | false => rfl
    | true => exact config.processing_testFrom _ 0 i m
  | left hpc => exact keep rfl (by rw [hpc]; rfl) (by rw [hpc]; rfl)
  | stayed hpc =>
    exact keep rfl ((config.processing_testFrom _ _ i m).trans (by rw [hpc]; rfl))
      (by rw [hpc]; rfl)
  | timed hpc =>
    exact keep rfl ((config.processing_dequeueFrom _ 0 i m).trans (by rw [hpc]; rfl))
      (by rw [hpc]; rfl)

end

/-! ## What a loop leaves alone -/

section

variable {held held' : List π} {kind : TransferKind π}

/-- Receivers fill receiver rings, and no other. -/
theorem receiver_history (h : Transfer held held' mem mem' .receiver kind) :
    mem'.rings = mem.rings ∧
      ∀ k, (mem.receiver_rings k).left.Sublist (mem'.receiver_rings k).left := by
  cases h with
  | nothing _ same | receive _ _ _ same | free _ _ _ same =>
    subst same
    exact ⟨rfl, fun k => List.Sublist.refl _⟩
  | putReceived ring pkt _ _ put =>
    obtain ⟨hrings, hsame⟩ := mem.enqueueReceived_history put
    exact ⟨hsame, fun k => by rw [(hrings k).2]⟩

/-- Masters take packets from receiver rings and fill the rings of workers. -/
theorem master_history (h : Transfer held held' mem mem' .master kind) :
    (∀ k, (mem'.receiver_rings k).entered = (mem.receiver_rings k).entered ∧
      (mem.receiver_rings k).left.Sublist (mem'.receiver_rings k).left) ∧
      ∀ r, (mem.rings r).left.Sublist (mem'.rings r).left := by
  cases h with
  | nothing _ same | forget _ _ _ same | free _ _ _ same =>
    subst same
    exact ⟨fun k => ⟨rfl, List.Sublist.refl _⟩, fun r => List.Sublist.refl _⟩
  | takeReceived ring pkt _ _ take =>
    obtain ⟨hrings, hsame⟩ := mem.dequeueReceived_history take
    refine ⟨fun k => ⟨(hrings k).1, ?_⟩, fun r => by rw [hsame]⟩
    rw [(hrings k).2]
    exact List.sublist_append_left _ _
  | put ring pkt _ _ put =>
    obtain ⟨hrings, hsame⟩ := mem.enqueue_history put
    exact ⟨fun k => by rw [hsame]; exact ⟨rfl, List.Sublist.refl _⟩, fun r => by rw [(hrings r).2]⟩

/-- Workers take packets from their rings. -/
theorem worker_history (h : Transfer held held' mem mem' .worker kind) :
    mem'.receiver_rings = mem.receiver_rings ∧
      ∀ r, (mem'.rings r).entered = (mem.rings r).entered ∧
        (mem.rings r).left.Sublist (mem'.rings r).left := by
  cases h with
  | nothing _ same | free _ _ _ same =>
    subst same
    exact ⟨rfl, fun r => ⟨rfl, List.Sublist.refl _⟩⟩
  | take ring pkt _ _ take =>
    obtain ⟨hrings, hsame⟩ := mem.dequeue_history take
    refine ⟨hsame, fun r => ⟨(hrings r).1, ?_⟩⟩
    rw [(hrings r).2]
    exact List.sublist_append_left _ _

end

section

variable {config : MasterConfig} {reader : PacketReader π ℓ} {th th' : Master π ℓ}
  {a : MasterAction} {p : Nat} {pkt : π}

/-- A master places a line for the plugin that it looked up. -/
theorem master_looked (h : masterStep config reader (th, mem) a = some (th', mem'))
    (hpc : th'.pc = .place p pkt) :
    pluginLookupWithIpDec config.plugin (reader.s_addr pkt) = some p := by
  have hidle (hawaiting : th'.pc.awaiting = []) :
      pluginLookupWithIpDec config.plugin (reader.s_addr pkt) = some p := by
    rw [hpc] at hawaiting
    cases hawaiting
  cases masterStepped h with
  | listened _ hfound =>
    cases hpc
    exact hfound
  | took | foundEmpty | unlistened | placed | handedOn | refused | freed | drained | left =>
    cases hpc
  | @timed due =>
    apply hidle
    cases due with
    | false => rfl
    | true => exact config.awaiting_drainFrom 0
  | stayed => exact hidle (config.awaiting_drainFrom _)

/-- A line is placed for the plugin that was looked up. -/
theorem master_lines (h : masterStep config reader (th, mem) a = some (th', mem'))
    (hpkt : pkt ∈ th.pc.lines a p) : th.pc = .place p pkt := by
  cases masterStepped h with
  | placed hpc =>
    rw [hpc, MasterPc.lines] at hpkt
    split at hpkt
    · next heq =>
      subst heq
      rw [hpc, List.mem_singleton.mp hpkt]
    · cases hpkt
  | took hpc | foundEmpty hpc | listened hpc | unlistened hpc | handedOn hpc | refused hpc
  | freed hpc | timed hpc | drained hpc | left hpc | stayed hpc =>
    rw [hpc] at hpkt
    cases hpkt

/-- A master hands on a packet of which it has just placed the line. -/
theorem master_entering (h : masterStep config reader (th, mem) a = some (th', mem'))
    (hpc : th'.pc = .enqueue p pkt) : th.pc = .place p pkt ∧ a = .place p := by
  have hidle (hleaving : th'.pc.leaving p = []) : th.pc = .place p pkt ∧ a = .place p := by
    rw [hpc, MasterPc.leaving, if_pos rfl] at hleaving
    cases hleaving
  cases masterStepped h with
  | placed hplace =>
    cases hpc
    exact ⟨hplace, rfl⟩
  | took | foundEmpty | listened | unlistened | handedOn | refused | freed | drained | left =>
    cases hpc
  | @timed due =>
    apply hidle
    cases due with
    | false => rfl
    | true => exact config.leaving_drainFrom 0 p
  | stayed => exact hidle (config.leaving_drainFrom _ p)

/-- A packet enters the ring of a worker from a master that hands it on for one of its plugins. -/
theorem master_feeds (h : masterStep config reader (th, mem) a = some (th', mem')) (r : Nat) :
    (mem'.rings r).entered = (mem.rings r).entered ∨
      ∃ p pkt plgn core, th.pc = .enqueue p pkt ∧ config.plugin[p]? = some plgn ∧
        plgn.ring_rxs core = some r ∧ (mem'.rings r).entered = (mem.rings r).entered ++ [pkt] := by
  cases masterStepped h with
  | took _ _ htaken =>
    left
    rw [(mem.dequeueReceived_history htaken).2]
  | foundEmpty | listened | unlistened | placed | refused | freed | timed | drained | left
  | stayed =>
    exact .inl rfl
  | @handedOn p' draw ring pkt plgn _ hpc hfound hring hput =>
    rw [((mem.enqueue_history hput).1 r).1]
    by_cases hr : r = ring
    · subst hr
      exact .inr ⟨p', pkt, plgn, _, hpc, hfound, hring, by rw [if_pos rfl]⟩
    · left
      rw [if_neg hr, List.append_nil]

end

end

end LogCollector
