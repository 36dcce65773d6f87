import LogCollector.Loops.Custody

/-!
# The pipeline

Any number of receivers, masters and workers run the three loops over one
memory, one step at a time in any order. A packet is told apart by the number
of the datagram it received, since `malloc` may hand out an address again.
-/

namespace LogCollector

/-- `struct lbuf` with a datagram in it. -/
structure Buffer (δ : Type) where
  id : Nat
  datagram : δ
deriving DecidableEq

/-- The threads of the process that handle packets. -/
inductive Thread (ι κ ω : Type)
  | receiver (t : ι)
  | master (t : κ)
  | worker (t : ω)
deriving DecidableEq

def Thread.role {ι κ ω : Type} : Thread ι κ ω → Role
  | .receiver _ => .receiver
  | .master _ => .master
  | .worker _ => .worker

/-- Where a packet can be. -/
inductive Place (ι κ ω : Type)
  | thread (t : Thread ι κ ω)
  | receiverRing (k : Nat)
  | workerRing (r : Nat)
  | freed
deriving DecidableEq

/-- What the threads are started with. -/
structure PipelineConfig (κ ω : Type) where
  receiver_ring_cnt : Nat
  master : κ → MasterConfig
  worker : ω → WorkerConfig

variable {ι κ ω δ ℓ σ ρ : Type}

/-- The threads and the memory. The rest is history: how many datagrams were
received, which packets the workers took from a ring, and which packets they
built a record of. -/
structure Pipeline (ι κ ω δ ℓ σ ρ : Type) where
  receivers : ι → ReceiverPc (Buffer δ)
  masters : κ → Master (Buffer δ) ℓ
  workers : ω → Worker σ (Buffer δ) ρ
  mem : Memory (Buffer δ)
  received : Nat
  taken : List Nat
  recorded : List Nat

/-- A step of one thread, the kill signal, or a rotation. -/
inductive PipelineAction (ι κ ω δ : Type)
  | receiver (t : ι) (a : ReceiverAction (Buffer δ))
  | master (t : κ) (a : MasterAction)
  | worker (t : ω) (a : WorkerAction)
  | kill
  | rotateJson (plugin fptr : Nat)
  | rotateTemp (plugin fptr : Nat)

namespace Pipeline

/-- Before any thread has taken a step. -/
def start (config : PipelineConfig κ ω) (builder : RecordBuilder σ (Buffer δ) ρ) :
    Pipeline ι κ ω δ ℓ σ ρ where
  receivers _ := .top
  masters t := Master.start (config.master t)
  workers t := Worker.start (config.worker t) builder
  mem := .start
  received := 0
  taken := []
  recorded := []

/-- The packets a thread holds. -/
def held (s : Pipeline ι κ ω δ ℓ σ ρ) : Thread ι κ ω → List (Buffer δ)
  | .receiver t => (s.receivers t).held
  | .master t => (s.masters t).pc.held
  | .worker t => (s.workers t).pc.held

end Pipeline

/-- The packet of which a worker builds a record next. -/
def Worker.building (th : Worker σ (Buffer δ) ρ) : List Nat :=
  match th.pc with
  | .process _ _ pkt => [pkt.id]
  | _ => []

/-- A packet that comes in has the number of its datagram. -/
def TransferKind.fresh (kind : TransferKind (Buffer δ)) (received : Nat) : Bool :=
  match kind with
  | .receive pkt => pkt.id = received
  | .forget | .inside => true

variable [DecidableEq ι] [DecidableEq κ] [DecidableEq ω]

/-- One step of the process. -/
def pipelineStep (config : PipelineConfig κ ω) (reader : PacketReader (Buffer δ) ℓ)
    (builder : RecordBuilder σ (Buffer δ) ρ) :
    Lib.Step (Pipeline ι κ ω δ ℓ σ ρ) (PipelineAction ι κ ω δ)
  | s, .receiver t a =>
    if a.kind.fresh s.received then
      (receiverStep config.receiver_ring_cnt (s.receivers t, s.mem) a).map fun (pc, mem) =>
        { s with
          receivers := Function.update s.receivers t pc
          mem
          received := s.received + a.kind.receives }
    else none
  | s, .master t a =>
    (masterStep (config.master t) reader (s.masters t, s.mem) a).map fun (th, mem) =>
      { s with masters := Function.update s.masters t th, mem }
  | s, .worker t a =>
    (workerStep (config.worker t) builder (s.workers t, s.mem) a).map fun (th, mem) =>
      { s with
        workers := Function.update s.workers t th
        mem
        taken := match a with
          | .dequeue _ _ => s.taken ++ th.building
          | _ => s.taken
        recorded := match a with
          | .process _ _ => s.recorded ++ (s.workers t).building
          | _ => s.recorded }
  | s, .kill => some { s with mem := { s.mem with kill_signal := true } }
  | s, .rotateJson plugin fptr =>
    some { s with
      mem := { s.mem with json_fptr := Function.update s.mem.json_fptr plugin fptr } }
  | s, .rotateTemp plugin fptr =>
    some { s with
      mem := { s.mem with temp_fptr := Function.update s.mem.temp_fptr plugin fptr } }

/-! ## The census of packets -/

/-- The packets at a place. -/
def contents (held : Thread ι κ ω → List (Buffer δ)) (mem : Memory (Buffer δ)) :
    Place ι κ ω → List (Buffer δ)
  | .thread t => held t
  | .receiverRing k => (mem.receiver_rings k).items
  | .workerRing r => (mem.rings r).items
  | .freed => mem.freed

/-- How often a packet is at a place. -/
def census (held : Thread ι κ ω → List (Buffer δ)) (mem : Memory (Buffer δ)) (p : Place ι κ ω)
    (id : Nat) : Nat :=
  (contents held mem p).countP (id = ·.id)

/-- A place before the workers. -/
def Place.Upstream : Place ι κ ω → Prop
  | .thread (.worker _) | .freed => False
  | .thread (.receiver _) | .thread (.master _) | .receiverRing _ | .workerRing _ => True

omit [DecidableEq ι] [DecidableEq κ] [DecidableEq ω] in
theorem upstream_of_role {T : Thread ι κ ω} (h : T.role ≠ .worker) : (Place.thread T).Upstream := by
  cases T with
  | receiver t => trivial
  | master t => trivial
  | worker t => exact absurd rfl h

theorem countP_singleton (pkt : Buffer δ) (id : Nat) :
    [pkt].countP (id = ·.id) = if id = pkt.id then 1 else 0 := by
  simp only [List.countP_singleton, decide_eq_true_eq]

/-! ## Lists that differ by one packet -/

section

variable {c c' : Place ι κ ω → List (Buffer δ)} {src dst : Place ι κ ω} (pkt : Buffer δ)

/-- A packet leaves one list for another, and no other list changes. -/
theorem moves_of_lists (apart : src ≠ dst)
    (leaves : ∀ id, (c src).countP (id = ·.id) =
      (c' src).countP (id = ·.id) + if id = pkt.id then 1 else 0)
    (arrives : ∀ id, (c' dst).countP (id = ·.id) =
      (c dst).countP (id = ·.id) + if id = pkt.id then 1 else 0)
    (others : ∀ p, p ≠ src → p ≠ dst → c' p = c p) :
    Lib.Custody.Moves (fun p id => (c p).countP (id = ·.id)) (fun p id => (c' p).countP (id = ·.id))
      pkt.id (some src) (some dst) := by
  intro p id
  simp only [Option.some.injEq]
  by_cases hsrc : src = p
  · subst hsrc
    simp only [leaves id, apart.symm, and_false, if_false, and_true, Nat.add_zero]
  · by_cases hdst : dst = p
    · subst hdst
      simp only [arrives id, hsrc, and_false, if_false, and_true, Nat.add_zero]
    · simp only [hsrc, hdst, and_false, if_false, others p (Ne.symm hsrc) (Ne.symm hdst)]

/-- A packet comes into an empty list from nowhere. -/
theorem moves_in_of_lists (before : c dst = []) (after : c' dst = [pkt])
    (others : ∀ p, p ≠ dst → c' p = c p) :
    Lib.Custody.Moves (fun p id => (c p).countP (id = ·.id)) (fun p id => (c' p).countP (id = ·.id))
      pkt.id none (some dst) := by
  intro p id
  simp only [reduceCtorEq, and_false, if_false, Nat.add_zero, Option.some.injEq]
  by_cases hdst : dst = p
  · subst hdst
    rw [before, after, countP_singleton]
    simp only [List.countP_nil, and_true, Nat.zero_add]
  · simp only [hdst, and_false, if_false, Nat.add_zero, others p (Ne.symm hdst)]

/-- The packet of a list goes nowhere. -/
theorem moves_out_of_lists (before : c src = [pkt]) (after : c' src = [])
    (others : ∀ p, p ≠ src → c' p = c p) :
    Lib.Custody.Moves (fun p id => (c p).countP (id = ·.id)) (fun p id => (c' p).countP (id = ·.id))
      pkt.id (some src) none := by
  intro p id
  simp only [reduceCtorEq, and_false, if_false, Nat.add_zero, Option.some.injEq]
  by_cases hsrc : src = p
  · subst hsrc
    rw [before, after, countP_singleton]
    simp only [List.countP_nil, and_true, Nat.zero_add]
  · simp only [hsrc, and_false, if_false, Nat.add_zero, others p (Ne.symm hsrc)]

/-- The packet a list begins with goes to an empty list. -/
theorem moves_of_take (apart : src ≠ dst) (items : c src = pkt :: c' src) (before : c dst = [])
    (after : c' dst = [pkt]) (others : ∀ p, p ≠ src → p ≠ dst → c' p = c p) :
    Lib.Custody.Moves (fun p id => (c p).countP (id = ·.id)) (fun p id => (c' p).countP (id = ·.id))
      pkt.id (some src) (some dst) := by
  refine moves_of_lists pkt apart ?_ ?_ others
  · intro id
    simp only [items, List.countP_cons, decide_eq_true_eq]
  · intro id
    rw [before, after, countP_singleton, List.countP_nil, Nat.zero_add]

/-- The packet of a list goes to the end of another. -/
theorem moves_of_put (apart : src ≠ dst) (before : c src = [pkt]) (after : c' src = [])
    (items : c' dst = c dst ++ [pkt]) (others : ∀ p, p ≠ src → p ≠ dst → c' p = c p) :
    Lib.Custody.Moves (fun p id => (c p).countP (id = ·.id)) (fun p id => (c' p).countP (id = ·.id))
      pkt.id (some src) (some dst) := by
  refine moves_of_lists pkt apart ?_ ?_ others
  · intro id
    rw [before, after, countP_singleton, List.countP_nil, Nat.zero_add]
  · intro id
    simp only [items, List.countP_append, countP_singleton]

end

/-! ## What one step changes -/

section

variable {T : Thread ι κ ω} {held : Thread ι κ ω → List (Buffer δ)} {held' : List (Buffer δ)}
  {mem mem' : Memory (Buffer δ)} {p : Place ι κ ω}

theorem contents_self :
    contents (Function.update held T held') mem' (.thread T) = held' :=
  Function.update_self _ _ _

/-- Nothing changes where neither the thread nor the memory changes. -/
theorem contents_of_ne (hp : p ≠ .thread T) :
    contents (Function.update held T held') mem p = contents held mem p := by
  cases p with
  | thread T' => exact Function.update_of_ne (fun heq => hp (congrArg Place.thread heq)) _ _
  | receiverRing k | workerRing r | freed => rfl

omit [DecidableEq ι] [DecidableEq κ] [DecidableEq ω] in
/-- Of the memory, one ring of a receiver changes. -/
theorem contents_of_ne_receiverRing {k : Nat} {q : Queue (Buffer δ)} (hp : p ≠ .receiverRing k) :
    contents held { mem with receiver_rings := Function.update mem.receiver_rings k q } p =
      contents held mem p := by
  cases p with
  | receiverRing k' =>
    have hne : k' ≠ k := fun heq => hp (congrArg Place.receiverRing heq)
    simp only [contents, Function.update_of_ne hne]
  | thread T' | workerRing r | freed => rfl

omit [DecidableEq ι] [DecidableEq κ] [DecidableEq ω] in
/-- Of the memory, one ring of a worker changes. -/
theorem contents_of_ne_workerRing {r : Nat} {q : Queue (Buffer δ)} (hp : p ≠ .workerRing r) :
    contents held { mem with rings := Function.update mem.rings r q } p = contents held mem p := by
  cases p with
  | workerRing r' =>
    have hne : r' ≠ r := fun heq => hp (congrArg Place.workerRing heq)
    simp only [contents, Function.update_of_ne hne]
  | thread T' | receiverRing k | freed => rfl

omit [DecidableEq ι] [DecidableEq κ] [DecidableEq ω] in
/-- Of the memory, the freed packets change. -/
theorem contents_of_ne_freed {freed : List (Buffer δ)} (hp : p ≠ .freed) :
    contents held { mem with freed := freed } p = contents held mem p := by
  cases p with
  | freed => exact absurd rfl hp
  | thread T' | receiverRing k | workerRing r => rfl

end

/-- What one step of `T` does to the census. -/
inductive CustodyChange (T : Thread ι κ ω) (census census' : Place ι κ ω → Nat → Nat) :
    TransferKind (Buffer δ) → Prop
  | same (h : census' = census) : CustodyChange T census census' .inside
  | moves (id : Nat) (src dst : Place ι κ ω)
    (h : Lib.Custody.Moves census census' id (some src) (some dst))
    (apart : src ≠ dst) (upstream : dst.Upstream → src.Upstream)
    (enters : dst = .thread T → src.Upstream) :
    CustodyChange T census census' .inside
  | receive (pkt : Buffer δ) (h : Lib.Custody.Moves census census' pkt.id none (some (.thread T))) :
    CustodyChange T census census' (.receive pkt)
  | forget (id : Nat) (h : Lib.Custody.Moves census census' id (some (.thread T)) none) :
    CustodyChange T census census' .forget

/-- A step that hands a packet on, between the thread and another place. -/
theorem custodyChange {T : Thread ι κ ω} {held : Thread ι κ ω → List (Buffer δ)}
    {held' : List (Buffer δ)} {mem mem' : Memory (Buffer δ)} {role : Role}
    {kind : TransferKind (Buffer δ)} (hrole : T.role = role)
    (h : Transfer (held T) held' mem mem' role kind) :
    CustodyChange T (census held mem) (census (Function.update held T held') mem') kind := by
  cases h with
  | nothing holds same =>
    subst same
    rw [holds, Function.update_eq_self]
    exact .same rfl
  | receive pkt before after same =>
    subst same
    exact .receive pkt (moves_in_of_lists pkt before (contents_self.trans after)
      fun _ hp => contents_of_ne hp)
  | forget pkt before after same =>
    subst same
    exact .forget pkt.id (moves_out_of_lists pkt before (contents_self.trans after)
      fun _ hp => contents_of_ne hp)
  | putReceived k pkt before after put =>
    obtain ⟨q, hq, rfl⟩ := mem.enqueueReceived_eq put
    have hupstream := upstream_of_role (T := T) (by rw [hrole]; exact nofun)
    refine .moves pkt.id (.thread T) (.receiverRing k)
      (moves_of_put pkt nofun before (contents_self.trans after) ?_ ?_) nofun
      (fun _ => hupstream) nofun
    · simp only [contents, Function.update_self, hq]
    · intro p hthread hring
      exact (contents_of_ne hthread).trans (contents_of_ne_receiverRing hring)
  | takeReceived k pkt before after take =>
    obtain ⟨q, hq, rfl⟩ := mem.dequeueReceived_eq take
    refine .moves pkt.id (.receiverRing k) (.thread T)
      (moves_of_take pkt nofun ?_ before (contents_self.trans after) ?_) nofun
      (fun _ => trivial) (fun _ => trivial)
    · simp only [contents, Function.update_self, hq]
    · intro p hring hthread
      exact (contents_of_ne hthread).trans (contents_of_ne_receiverRing hring)
  | put r pkt before after put =>
    obtain ⟨q, hq, rfl⟩ := mem.enqueue_eq put
    have hupstream := upstream_of_role (T := T) (by rw [hrole]; exact nofun)
    refine .moves pkt.id (.thread T) (.workerRing r)
      (moves_of_put pkt nofun before (contents_self.trans after) ?_ ?_) nofun
      (fun _ => hupstream) nofun
    · simp only [contents, Function.update_self, hq]
    · intro p hthread hring
      exact (contents_of_ne hthread).trans (contents_of_ne_workerRing hring)
  | take r pkt before after take =>
    obtain ⟨q, hq, rfl⟩ := mem.dequeue_eq take
    refine .moves pkt.id (.workerRing r) (.thread T)
      (moves_of_take pkt nofun ?_ before (contents_self.trans after) ?_) nofun
      (fun _ => trivial) (fun _ => trivial)
    · simp only [contents, Function.update_self, hq]
    · intro p hring hthread
      exact (contents_of_ne hthread).trans (contents_of_ne_workerRing hring)
  | free pkt before after freed =>
    subst freed
    refine .moves pkt.id (.thread T) .freed
      (moves_of_put pkt nofun before (contents_self.trans after) rfl ?_) nofun nofun nofun
    intro p hthread hfreed
    exact (contents_of_ne hthread).trans (contents_of_ne_freed hfreed)

end LogCollector
