import LogCollector.Loops.Pipeline

/-!
# Packets are conserved

Every packet that received a datagram is held by one thread, or is in one ring,
or was freed, once, as long as no master looks up a sender that no plugin
listens to (`conserved_iff_listened`): the packet of such a sender is dropped
without a `free` (`unlistened_packet_leaks`). Whatever happens, a thread touches
no packet but the one it holds, and a worker builds one record of each packet
that it takes.
-/

namespace LogCollector

variable {ι κ ω δ ℓ σ ρ : Type}

/-! ## Records -/

section

theorem count_concat (l : List Nat) (id id' : Nat) :
    (l ++ [id]).count id' = l.count id' + if id' = id then 1 else 0 := by
  rw [List.count_append, List.count_singleton]
  by_cases h : id' = id
  · rw [h, beq_self_eq_true, if_pos rfl, if_pos rfl]
  · rw [if_neg h, if_neg (by simpa using Ne.symm h)]

/-- One record is built of each packet that a worker takes, and no other. -/
structure RecordsOnce (s : Pipeline ι κ ω δ ℓ σ ρ) : Prop where
  once : ∀ id, s.taken.count id ≤ 1
  building : ∀ t, ∀ id ∈ (s.workers t).building, s.recorded.count id = 0 ∧ s.taken.count id = 1
  built : ∀ id, (∀ t, id ∉ (s.workers t).building) → s.recorded.count id = s.taken.count id

variable {s s' : Pipeline ι κ ω δ ℓ σ ρ}

/-- A step that changes no worker and takes no packet from a worker ring keeps
the records in order. -/
theorem RecordsOnce.of_eq (h : RecordsOnce s) (hworkers : s'.workers = s.workers)
    (htaken : s'.taken = s.taken) (hrecorded : s'.recorded = s.recorded) : RecordsOnce s' where
  once := by
    rw [htaken]
    exact h.once
  building := by
    rw [hworkers, htaken, hrecorded]
    exact h.building
  built := by
    rw [hworkers, htaken, hrecorded]
    exact h.built

variable [DecidableEq ω]

/-- A worker whose next record is of the same packet, or of none, as before. -/
theorem RecordsOnce.of_building (h : RecordsOnce s) {t : ω} {th : Worker σ (Buffer δ) ρ}
    (hworkers : s'.workers = Function.update s.workers t th)
    (hbuilding : th.building = (s.workers t).building) (htaken : s'.taken = s.taken)
    (hrecorded : s'.recorded = s.recorded) : RecordsOnce s' := by
  have hsame (u : ω) : (s'.workers u).building = (s.workers u).building := by
    rw [hworkers]
    by_cases hu : u = t
    · subst hu
      rw [Function.update_self, hbuilding]
    · rw [Function.update_of_ne hu]
  refine ⟨?_, ?_, ?_⟩
  · rw [htaken]
    exact h.once
  · intro u id hid
    rw [htaken, hrecorded]
    exact h.building u id (hsame u ▸ hid)
  · intro id hid
    rw [htaken, hrecorded]
    exact h.built id fun u hu => hid u (hsame u ▸ hu)

/-- A worker that takes a packet no worker took before. -/
theorem RecordsOnce.take (h : RecordsOnce s) {t : ω} {th : Worker σ (Buffer δ) ρ} {id : Nat}
    (hworkers : s'.workers = Function.update s.workers t th) (hold : (s.workers t).building = [])
    (hnew : th.building = [id]) (huntaken : s.taken.count id = 0)
    (hothers : ∀ u, id ∉ (s.workers u).building) (htaken : s'.taken = s.taken ++ [id])
    (hrecorded : s'.recorded = s.recorded) : RecordsOnce s' := by
  have hcount (id' : Nat) : s'.taken.count id' = s.taken.count id' + if id' = id then 1 else 0 := by
    rw [htaken, count_concat]
  refine ⟨?_, ?_, ?_⟩
  · intro id'
    rw [hcount]
    split
    · next heq => rw [heq, huntaken]
    · exact h.once id'
  · intro u id' hid
    rw [hworkers] at hid
    rw [hcount, hrecorded]
    by_cases hu : u = t
    · subst hu
      rw [Function.update_self, hnew, List.mem_singleton] at hid
      subst hid
      exact ⟨(h.built id' hothers).trans huntaken, by rw [huntaken, if_pos rfl]⟩
    · rw [Function.update_of_ne hu] at hid
      have hne : id' ≠ id := fun heq => hothers u (heq ▸ hid)
      rw [if_neg hne]
      exact h.building u id' hid
  · intro id' hid
    have hne : id' ≠ id := fun heq => hid t (by
      rw [hworkers, Function.update_self, hnew, heq]
      exact List.mem_singleton_self id)
    rw [hcount, hrecorded, if_neg hne]
    refine h.built id' fun u hu => hid u ?_
    rw [hworkers]
    by_cases hut : u = t
    · subst hut
      rw [hold] at hu
      cases hu
    · rwa [Function.update_of_ne hut]

/-- A worker that builds the record of its packet. -/
theorem RecordsOnce.build (h : RecordsOnce s) {t : ω} {th : Worker σ (Buffer δ) ρ} {id : Nat}
    (hworkers : s'.workers = Function.update s.workers t th) (hold : (s.workers t).building = [id])
    (hnew : th.building = []) (hothers : ∀ u ≠ t, id ∉ (s.workers u).building)
    (htaken : s'.taken = s.taken) (hrecorded : s'.recorded = s.recorded ++ [id]) :
    RecordsOnce s' := by
  have hcount (id' : Nat) : s'.recorded.count id' =
      s.recorded.count id' + if id' = id then 1 else 0 := by
    rw [hrecorded, count_concat]
  obtain ⟨hunrecorded, hone⟩ := h.building t id (by rw [hold]; exact List.mem_singleton_self id)
  refine ⟨?_, ?_, ?_⟩
  · rw [htaken]
    exact h.once
  · intro u id' hid
    rw [hworkers] at hid
    rw [hcount, htaken]
    by_cases hu : u = t
    · subst hu
      rw [Function.update_self, hnew] at hid
      cases hid
    · rw [Function.update_of_ne hu] at hid
      have hne : id' ≠ id := fun heq => hothers u hu (heq ▸ hid)
      rw [if_neg hne]
      exact h.building u id' hid
  · intro id' hid
    rw [hcount, htaken]
    by_cases heq : id' = id
    · rw [heq, hunrecorded, hone, if_pos rfl]
    · rw [if_neg heq]
      refine h.built id' fun u hu => hid u ?_
      rw [hworkers]
      by_cases hut : u = t
      · subst hut
        rw [hold] at hu
        exact absurd (List.mem_singleton.mp hu) heq
      · rwa [Function.update_of_ne hut]

end

/-! ## Places -/

variable [DecidableEq ι] [DecidableEq κ] [DecidableEq ω]

/-- Every packet that received a datagram is at one place, once. -/
def Conserved (s : Pipeline ι κ ω δ ℓ σ ρ) : Prop :=
  ∀ id < s.received, ∃ p, ∀ q, census s.held s.mem q id = if q = p then 1 else 0

omit [DecidableEq ι] [DecidableEq κ] [DecidableEq ω] in
/-- The packet that a step reads, writes or frees, and the thread that takes the
step. -/
inductive Touches (s : Pipeline ι κ ω δ ℓ σ ρ) :
    PipelineAction ι κ ω δ → Thread ι κ ω → Buffer δ → Prop
  | receiverFree {t : ι} {pkt : Buffer δ} (h : s.receivers t = .free pkt) :
    Touches s (.receiver t .free) (.receiver t) pkt
  | masterLookup {t : κ} {pkt : Buffer δ} (h : (s.masters t).pc = .lookup pkt) :
    Touches s (.master t .lookup) (.master t) pkt
  | masterPlace {t : κ} {p : Nat} {pkt : Buffer δ} (h : (s.masters t).pc = .place p pkt) :
    Touches s (.master t (.place p)) (.master t) pkt
  | masterFree {t : κ} {pkt : Buffer δ} (h : (s.masters t).pc = .free pkt) :
    Touches s (.master t .free) (.master t) pkt
  | workerProcess {t : ω} {i m : Nat} {pkt : Buffer δ} (h : (s.workers t).pc = .process i m pkt) :
    Touches s (.worker t (.process i m)) (.worker t) pkt
  | workerFree {t : ω} {i m : Nat} {pkt : Buffer δ} (h : (s.workers t).pc = .free i m pkt) :
    Touches s (.worker t (.free i m)) (.worker t) pkt

/-- A packet that is touched is held by the thread that touches it, and is
nowhere else. -/
def TouchesOnlyHeld (s : Pipeline ι κ ω δ ℓ σ ρ) (a : PipelineAction ι κ ω δ) : Prop :=
  ∀ T pkt, Touches s a T pkt → ∀ q, census s.held s.mem q pkt.id = if q = .thread T then 1 else 0

/-- A master about to look up a sender will find a plugin that listens to it. -/
def Listened (config : PipelineConfig κ ω) (reader : PacketReader (Buffer δ) ℓ)
    (s : Pipeline ι κ ω δ ℓ σ ρ) : PipelineAction ι κ ω δ → Prop
  | .master t _ => forgets (config.master t) reader (s.masters t).pc = false
  | _ => True

instance Listened.decidable (config : PipelineConfig κ ω) (reader : PacketReader (Buffer δ) ℓ)
    (s : Pipeline ι κ ω δ ℓ σ ρ) (a : PipelineAction ι κ ω δ) :
    Decidable (Listened config reader s a) :=
  match a with
  | .master _ _ => inferInstanceAs (Decidable (_ = false))
  | .receiver _ _ | .worker _ _ | .kill | .rotateJson _ _ | .rotateTemp _ _ => .isTrue trivial

/-! ## The invariant -/

/-- Where every packet is, and what its place says about its record. -/
structure PipelineInvariant (s : Pipeline ι κ ω δ ℓ σ ρ) (loc : Nat → Option (Place ι κ ω)) :
    Prop where
  located : Lib.Custody.Located (census s.held s.mem) loc
  fresh : ∀ id ≥ s.received, loc id = none ∧ s.taken.count id = 0
  upstream : ∀ id p, loc id = some p → p.Upstream → s.taken.count id = 0
  records : RecordsOnce s

section

variable {s : Pipeline ι κ ω δ ℓ σ ρ} {loc : Nat → Option (Place ι κ ω)}

/-- A packet that a thread holds is there. -/
theorem PipelineInvariant.loc_of_held (h : PipelineInvariant s loc) {T : Thread ι κ ω}
    {pkt : Buffer δ} (hheld : pkt ∈ s.held T) : loc pkt.id = some (.thread T) := by
  refine h.located.of_pos (List.countP_pos_iff.mpr ⟨pkt, hheld, ?_⟩)
  exact decide_eq_true rfl

theorem PipelineInvariant.loc_of_building (h : PipelineInvariant s loc) {t : ω} {id : Nat}
    (hbuilding : id ∈ (s.workers t).building) : loc id = some (.thread (.worker t)) := by
  rw [Worker.building] at hbuilding
  split at hbuilding
  · next i m pkt hpc =>
    cases List.mem_singleton.mp hbuilding
    apply h.loc_of_held (T := .worker t)
    change pkt ∈ (s.workers t).pc.held
    rw [hpc]
    exact List.mem_singleton_self pkt
  · cases hbuilding

theorem PipelineInvariant.touchesOnlyHeld (h : PipelineInvariant s loc)
    (a : PipelineAction ι κ ω δ) : TouchesOnlyHeld s a := by
  intro T pkt htouch q
  have hheld : pkt ∈ s.held T := by
    cases htouch with
    | receiverFree hpc => simp only [Pipeline.held, hpc, ReceiverPc.held, List.mem_singleton]
    | masterLookup hpc | masterPlace hpc | masterFree hpc =>
      simp only [Pipeline.held, hpc, MasterPc.held, List.mem_singleton]
    | workerProcess hpc | workerFree hpc =>
      simp only [Pipeline.held, hpc, WorkerPc.held, List.mem_singleton]
  rw [h.located q pkt.id, h.loc_of_held hheld]
  simp only [Option.some.injEq, eq_comm]

/-- Packets are conserved when none that was received is nowhere. -/
theorem PipelineInvariant.conserved_iff (h : PipelineInvariant s loc) :
    Conserved s ↔ ∀ id < s.received, loc id ≠ none := by
  constructor
  · intro hconserved id hid hnone
    obtain ⟨p, hp⟩ := hconserved id hid
    have hcensus := hp p
    rw [if_pos rfl, h.located p id, hnone, if_neg nofun] at hcensus
    cases hcensus
  · intro hplaced id hid
    obtain ⟨p, hp⟩ := Option.ne_none_iff_exists'.mp (hplaced id hid)
    refine ⟨p, ?_⟩
    intro q
    rw [h.located q id, hp]
    simp only [Option.some.injEq, eq_comm]

end

/-! ## One step -/

/-- How the places of packets change in one step of `T`. -/
structure Relocated (T : Thread ι κ ω) (received : Nat) (loc loc' : Nat → Option (Place ι κ ω))
    (kind : TransferKind (Buffer δ)) : Prop where
  /-- A packet reaches a place before the workers from another such place, or
  from the network. -/
  upstream : ∀ id p, loc' id = some p → p.Upstream →
    (∃ p', loc id = some p' ∧ p'.Upstream) ∨ id = received
  /-- A packet comes to a worker from a place before the workers. -/
  enters : T.role = .worker → ∀ id, loc' id = some (.thread T) → loc id ≠ some (.thread T) →
    ∃ p', loc id = some p' ∧ p'.Upstream
  /-- A packet that is nowhere stays nowhere, unless it is received. -/
  nowhere : ∀ id, loc id = none → loc' id = none ∨ ∃ pkt, kind = .receive pkt ∧ id = pkt.id
  /-- Only a step that forgets takes a packet away. -/
  placed : kind ≠ .forget → ∀ id, loc id ≠ none → loc' id ≠ none
  received : ∀ pkt, kind = .receive pkt → loc' pkt.id ≠ none
  forgotten : kind = .forget → ∃ id, loc id ≠ none ∧ loc' id = none

section

open Lib.Custody

variable {T : Thread ι κ ω} {received id : Nat} {loc : Nat → Option (Place ι κ ω)}

omit [DecidableEq ι] [DecidableEq κ] [DecidableEq ω] in
theorem Relocated.same :
    Relocated T received loc loc (.inside : TransferKind (Buffer δ)) where
  upstream _ p hp hup := .inl ⟨p, hp, hup⟩
  enters _ _ hp hne := absurd hp hne
  nowhere _ hnone := .inl hnone
  placed _ _ hne := hne
  received _ hkind := nomatch hkind
  forgotten hkind := nomatch hkind

omit [DecidableEq ι] [DecidableEq κ] [DecidableEq ω] in
/-- A packet that goes from one place to another, and not back from the workers. -/
theorem Relocated.moved {src dst : Place ι κ ω} (hsrc : loc id = some src)
    (upstream : dst.Upstream → src.Upstream) (enters : dst = .thread T → src.Upstream) :
    Relocated T received loc (Function.update loc id (some dst))
      (.inside : TransferKind (Buffer δ)) where
  upstream id' p hp hup := by
    rcases loc_after_move hp with ⟨rfl, hdst⟩ | hp
    · cases hdst
      exact .inl ⟨src, hsrc, upstream hup⟩
    · exact .inl ⟨p, hp, hup⟩
  enters _ id' hp hne := by
    rcases loc_after_move hp with ⟨rfl, hdst⟩ | hp
    · exact ⟨src, hsrc, enters (Option.some.inj hdst)⟩
    · exact absurd hp hne
  nowhere id' hnone := by
    rcases nowhere_after_move (k := id) hnone with h | rfl
    · exact .inl h
    · cases hnone.symm.trans hsrc
  placed _ _ hne := placed_after_move hne
  received _ hkind := nomatch hkind
  forgotten hkind := nomatch hkind

omit [DecidableEq ι] [DecidableEq κ] [DecidableEq ω] in
/-- A packet that comes from the network. -/
theorem Relocated.arrived {pkt : Buffer δ} (hid : pkt.id = received) (hrole : T.role ≠ .worker) :
    Relocated T received loc (Function.update loc pkt.id (some (.thread T))) (.receive pkt) where
  upstream id p hp hup := by
    rcases loc_after_move hp with ⟨rfl, -⟩ | hp
    · exact .inr hid
    · exact .inl ⟨p, hp, hup⟩
  enters hworker := absurd hworker hrole
  nowhere id hnone := (nowhere_after_move hnone).imp_right fun heq => ⟨pkt, rfl, heq⟩
  placed _ _ hne := placed_after_move hne
  received := by
    rintro pkt' ⟨⟩
    rw [Function.update_self]
    exact Option.some_ne_none _
  forgotten hkind := nomatch hkind

omit [DecidableEq ι] [DecidableEq κ] [DecidableEq ω] in
/-- A packet that is dropped without a `free`. -/
theorem Relocated.forgot (hsrc : loc id = some (.thread T)) :
    Relocated T received loc (Function.update loc id none)
      (.forget : TransferKind (Buffer δ)) where
  upstream id' p hp hup := by
    rcases loc_after_move hp with ⟨-, hdst⟩ | hp
    · cases hdst
    · exact .inl ⟨p, hp, hup⟩
  enters _ id' hp hne := by
    rcases loc_after_move hp with ⟨-, hdst⟩ | hp
    · cases hdst
    · exact absurd hp hne
  nowhere id' hnone := by
    rcases nowhere_after_move (k := id) hnone with h | rfl
    · exact .inl h
    · exact .inl (Function.update_self _ _ _)
  placed hforget := absurd rfl hforget
  received _ hkind := nomatch hkind
  forgotten _ := ⟨id, hsrc ▸ Option.some_ne_none _, Function.update_self _ _ _⟩

/-- Every packet can still be located after a step, and changed its place only as
the step says. -/
theorem relocate {census census' : Place ι κ ω → Nat → Nat} {kind : TransferKind (Buffer δ)}
    (h : CustodyChange T census census' kind) (hlocated : Located census loc)
    (hfresh : ∀ pkt, kind = .receive pkt → pkt.id = received ∧ loc pkt.id = none ∧
      T.role ≠ .worker) :
    ∃ loc', Located census' loc' ∧ Relocated T received loc loc' kind := by
  cases h with
  | same heq =>
    subst heq
    exact ⟨loc, hlocated, .same⟩
  | moves id src dst hmoves apart upstream enters =>
    have hsrc : loc id = some src :=
      hlocated.of_pos (hmoves.pos_of_src fun heq => apart (Option.some.inj heq).symm)
    exact ⟨_, hlocated.move hmoves hsrc, .moved hsrc upstream enters⟩
  | receive pkt hmoves =>
    obtain ⟨hid, hnone, hrole⟩ := hfresh pkt rfl
    exact ⟨_, hlocated.move hmoves hnone, .arrived hid hrole⟩
  | forget id hmoves =>
    have hsrc : loc id = some (.thread T) :=
      hlocated.of_pos (hmoves.pos_of_src (Option.some_ne_none _).symm)
    exact ⟨_, hlocated.move hmoves hsrc, .forgot hsrc⟩

end

section

variable (s : Pipeline ι κ ω δ ℓ σ ρ)

/-- What the threads hold after a step of one of them. -/
theorem held_receiver {s' : Pipeline ι κ ω δ ℓ σ ρ} {t : ι} {pc : ReceiverPc (Buffer δ)}
    (hreceivers : s'.receivers = Function.update s.receivers t pc)
    (hmasters : s'.masters = s.masters)
    (hworkers : s'.workers = s.workers) :
    s'.held = Function.update s.held (.receiver t) pc.held := by
  refine Function.eq_update_iff.mpr ⟨?_, ?_⟩
  · simp only [Pipeline.held, hreceivers, Function.update_self]
  · intro T hT
    cases T with
    | receiver u =>
      simp only [Pipeline.held, hreceivers]
      rw [Function.update_of_ne fun heq => hT (congrArg _ heq)]
    | master u => simp only [Pipeline.held, hmasters]
    | worker u => simp only [Pipeline.held, hworkers]

theorem held_master {s' : Pipeline ι κ ω δ ℓ σ ρ} {t : κ} {th : Master (Buffer δ) ℓ}
    (hreceivers : s'.receivers = s.receivers)
    (hmasters : s'.masters = Function.update s.masters t th)
    (hworkers : s'.workers = s.workers) :
    s'.held = Function.update s.held (.master t) th.pc.held := by
  refine Function.eq_update_iff.mpr ⟨?_, ?_⟩
  · simp only [Pipeline.held, hmasters, Function.update_self]
  · intro T hT
    cases T with
    | receiver u => simp only [Pipeline.held, hreceivers]
    | master u =>
      simp only [Pipeline.held, hmasters]
      rw [Function.update_of_ne fun heq => hT (congrArg _ heq)]
    | worker u => simp only [Pipeline.held, hworkers]

theorem held_worker {s' : Pipeline ι κ ω δ ℓ σ ρ} {t : ω} {th : Worker σ (Buffer δ) ρ}
    (hreceivers : s'.receivers = s.receivers) (hmasters : s'.masters = s.masters)
    (hworkers : s'.workers = Function.update s.workers t th) :
    s'.held = Function.update s.held (.worker t) th.pc.held := by
  refine Function.eq_update_iff.mpr ⟨?_, ?_⟩
  · simp only [Pipeline.held, hworkers, Function.update_self]
  · intro T hT
    cases T with
    | receiver u => simp only [Pipeline.held, hreceivers]
    | master u => simp only [Pipeline.held, hmasters]
    | worker u =>
      simp only [Pipeline.held, hworkers]
      rw [Function.update_of_ne fun heq => hT (congrArg _ heq)]

end

theorem Worker.building_cases (th : Worker σ (Buffer δ) ρ) :
    th.building = [] ∨ ∃ pkt, th.building = [pkt.id] ∧ th.pc.held = [pkt] := by
  rw [Worker.building]
  split
  · next i m pkt hpc => exact .inr ⟨pkt, rfl, by rw [hpc, WorkerPc.held]⟩
  · exact .inl rfl

/-- What a worker's step does to the packet it builds a record of. -/
theorem worker_building {config : WorkerConfig} {builder : RecordBuilder σ (Buffer δ) ρ}
    {th th' : Worker σ (Buffer δ) ρ} {mem mem' : Memory (Buffer δ)} {a : WorkerAction}
    (h : workerStep config builder (th, mem) a = some (th', mem')) :
    (∃ i m, a = .dequeue i m ∧ th.pc.held = [] ∧ th.building = []) ∨
    (∃ i m id, a = .process i m ∧ th.building = [id] ∧ th'.building = []) ∨
    ((∀ i m, a ≠ .dequeue i m) ∧ (∀ i m, a ≠ .process i m) ∧ th.building = [] ∧
      th'.building = []) := by
  have from_dequeue {pc : WorkerPc (Buffer δ)} {vars : σ} {wb : Nat → BufferedFile ρ} (i m : Nat)
      (hpc : pc = config.dequeueFrom i m) :
      (⟨pc, vars, wb⟩ : Worker σ (Buffer δ) ρ).building = [] := by
    rw [Worker.building, hpc, WorkerConfig.dequeueFrom]
    split
    · next heq => split at heq <;> cases heq
    · rfl
  have from_test {pc : WorkerPc (Buffer δ)} {vars : σ} {wb : Nat → BufferedFile ρ} (i m : Nat)
      (hpc : pc = config.testFrom i m) :
      (⟨pc, vars, wb⟩ : Worker σ (Buffer δ) ρ).building = [] := by
    rw [Worker.building, hpc, WorkerConfig.testFrom]
    split
    · next heq => split at heq <;> cases heq
    · rfl
  have other (hdequeue : ∀ i m, a ≠ .dequeue i m) (hprocess : ∀ i m, a ≠ .process i m)
      (hold : th.building = []) (hnew : th'.building = []) :
      (∃ i m, a = .dequeue i m ∧ th.pc.held = [] ∧ th.building = []) ∨
      (∃ i m id, a = .process i m ∧ th.building = [id] ∧ th'.building = []) ∨
      ((∀ i m, a ≠ .dequeue i m) ∧ (∀ i m, a ≠ .process i m) ∧ th.building = [] ∧
        th'.building = []) := .inr (.inr ⟨hdequeue, hprocess, hold, hnew⟩)
  cases workerStepped h with
  | took hpc | foundEmpty hpc =>
    exact .inl ⟨_, _, rfl, by rw [hpc]; rfl, by rw [Worker.building, hpc]⟩
  | processed hpc => exact .inr (.inl ⟨_, _, _, rfl, by rw [Worker.building, hpc], rfl⟩)
  | freed hpc =>
    exact other (fun _ _ ha => by cases ha) (fun _ _ ha => by cases ha)
      (by rw [Worker.building, hpc]) (from_dequeue _ _ rfl)
  | @reported i due hpc =>
    refine other (fun _ _ ha => by cases ha) (fun _ _ ha => by cases ha)
      (by rw [Worker.building, hpc]) ?_
    cases due with
    | false => rfl
    | true => exact from_test _ 0 rfl
  | left hpc =>
    exact other (fun _ _ ha => by cases ha) (fun _ _ ha => by cases ha)
      (by rw [Worker.building, hpc]) rfl
  | stayed hpc =>
    exact other (fun _ _ ha => by cases ha) (fun _ _ ha => by cases ha)
      (by rw [Worker.building, hpc]) (from_test _ _ rfl)
  | timed hpc =>
    exact other (fun _ _ ha => by cases ha) (fun _ _ ha => by cases ha)
      (by rw [Worker.building, hpc]) (from_dequeue _ 0 rfl)

/-- What a step does to the places of packets, and whether it forgets one. -/
structure Advances (config : PipelineConfig κ ω) (reader : PacketReader (Buffer δ) ℓ)
    (s s' : Pipeline ι κ ω δ ℓ σ ρ) (a : PipelineAction ι κ ω δ)
    (loc loc' : Nat → Option (Place ι κ ω)) : Prop where
  invariant : PipelineInvariant s' loc'
  received : s.received ≤ s'.received
  nowhere : ∀ id < s.received, loc id = none → loc' id = none
  listened : Listened config reader s a → (∀ id < s.received, loc id ≠ none) →
    ∀ id < s'.received, loc' id ≠ none
  forgotten : ¬ Listened config reader s a → ∃ id < s'.received, loc' id = none

/-- A step of a thread that is not a worker. -/
theorem advances {config : PipelineConfig κ ω} {reader : PacketReader (Buffer δ) ℓ}
    {s s' : Pipeline ι κ ω δ ℓ σ ρ} {a : PipelineAction ι κ ω δ} {loc : Nat → Option (Place ι κ ω)}
    {T : Thread ι κ ω} {held' : List (Buffer δ)} {kind : TransferKind (Buffer δ)}
    (h : PipelineInvariant s loc) (htransfer : Transfer (s.held T) held' s.mem s'.mem T.role kind)
    (hheld : s'.held = Function.update s.held T held')
    (hreceive : ∀ pkt, kind = .receive pkt → pkt.id = s.received ∧ T.role ≠ .worker)
    (hreceived : s'.received = s.received + kind.receives)
    (hforget : kind = .forget ↔ ¬ Listened config reader s a)
    (hrecords : ∀ loc', Lib.Custody.Located (census s'.held s'.mem) loc' →
      Relocated T s.received loc loc' kind → RecordsOnce s' ∧
        ∀ id, s'.taken.count id = s.taken.count id ∨
          loc' id = some (.thread T) ∧ T.role = .worker) :
    ∃ loc', Advances config reader s s' a loc loc' := by
  have hchange := custodyChange rfl htransfer
  rw [← hheld] at hchange
  obtain ⟨loc', hlocated, hrel⟩ := relocate hchange h.located fun pkt hkind =>
    ⟨(hreceive pkt hkind).1, (h.fresh pkt.id (le_of_eq (hreceive pkt hkind).1.symm)).1,
      (hreceive pkt hkind).2⟩
  obtain ⟨hrecordsOnce, htaken⟩ := hrecords loc' hlocated hrel
  have hle : s.received ≤ s'.received := hreceived ▸ Nat.le_add_right _ _
  refine ⟨loc', ⟨⟨hlocated, ?_, ?_, hrecordsOnce⟩, hle,
    ?_, ?_, ?_⟩⟩
  · intro id hid
    obtain ⟨hnone, huntaken⟩ := h.fresh id (le_trans hle hid)
    have hnone' : loc' id = none := by
      rcases hrel.nowhere id hnone with hnone' | ⟨pkt, rfl, rfl⟩
      · exact hnone'
      · have := (hreceive pkt rfl).1
        rw [TransferKind.receives] at hreceived
        omega
    refine ⟨hnone', ?_⟩
    rcases htaken id with heq | ⟨hT, -⟩
    · rw [heq, huntaken]
    · rw [hnone'] at hT
      cases hT
  · intro id p hp hup
    have huntaken : s.taken.count id = 0 := by
      rcases hrel.upstream id p hp hup with ⟨p', hp', hup'⟩ | rfl
      · exact h.upstream id p' hp' hup'
      · exact (h.fresh _ (le_refl _)).2
    rcases htaken id with heq | ⟨hT, hrole⟩
    · rw [heq, huntaken]
    · cases hp.symm.trans hT
      cases T with
      | worker t => exact hup.elim
      | receiver t | master t => cases hrole
  · intro id hid hnone
    rcases hrel.nowhere id hnone with hnone' | ⟨pkt, hkind, rfl⟩
    · exact hnone'
    · exact absurd hid ((hreceive pkt hkind).1 ▸ lt_irrefl _)
  · intro hlistened hplaced id hid
    have hkind : kind ≠ .forget := fun heq => hforget.mp heq hlistened
    rcases Nat.lt_or_ge id s.received with hlt | hge
    · exact hrel.placed hkind id (hplaced id hlt)
    · cases kind with
      | receive pkt =>
        have hpkt := (hreceive pkt rfl).1
        rw [TransferKind.receives] at hreceived
        rw [show id = pkt.id by omega]
        exact hrel.received pkt rfl
      | forget | inside =>
        rw [TransferKind.receives] at hreceived
        omega
  · intro hunlistened
    obtain ⟨id, hplaced, hnone⟩ := hrel.forgotten (hforget.mpr hunlistened)
    refine ⟨id, lt_of_lt_of_le ?_ hle, hnone⟩
    by_contra hge
    exact hplaced (h.fresh id (Nat.le_of_not_lt hge)).1

/-- A change of memory that moves no packet. -/
theorem PipelineInvariant.of_census {config : PipelineConfig κ ω}
    {reader : PacketReader (Buffer δ) ℓ} {s : Pipeline ι κ ω δ ℓ σ ρ} {a : PipelineAction ι κ ω δ}
    {loc : Nat → Option (Place ι κ ω)} {mem : Memory (Buffer δ)} (h : PipelineInvariant s loc)
    (hsame : census s.held mem = census s.held s.mem) (hlistened : Listened config reader s a) :
    Advances config reader s { s with mem } a loc loc where
  invariant :=
    { located := by
        change Lib.Custody.Located (census s.held mem) loc
        rw [hsame]
        exact h.located
      fresh := h.fresh
      upstream := h.upstream
      records := h.records.of_eq rfl rfl rfl }
  received := le_refl _
  nowhere _ _ hnone := hnone
  listened _ hplaced := hplaced
  forgotten hunlistened := absurd hlistened hunlistened

section

variable {s s' : Pipeline ι κ ω δ ℓ σ ρ} {loc loc' : Nat → Option (Place ι κ ω)} {t : ω}
  {th : Worker σ (Buffer δ) ρ}

/-- The packet that a worker takes from a ring was taken by none before. -/
theorem PipelineInvariant.takes {kind : TransferKind (Buffer δ)} (h : PipelineInvariant s loc)
    (hlocated : Lib.Custody.Located (census s'.held s'.mem) loc')
    (hrel : Relocated (.worker t) s.received loc loc' kind)
    (hworkers : s'.workers = Function.update s.workers t th) (hheld : (s.workers t).pc.held = [])
    (hold : (s.workers t).building = []) (htaken : s'.taken = s.taken ++ th.building)
    (hrecorded : s'.recorded = s.recorded) :
    RecordsOnce s' ∧
      ∀ id, s'.taken.count id = s.taken.count id ∨ loc' id = some (.thread (.worker t)) := by
  rcases th.building_cases with hnone | ⟨pkt, hnew, hholds⟩
  · rw [hnone, List.append_nil] at htaken
    exact ⟨h.records.of_building hworkers (hnone.trans hold.symm) htaken hrecorded,
      fun id => .inl (congrArg (List.count id) htaken)⟩
  · rw [hnew] at htaken
    have hloc' : loc' pkt.id = some (.thread (.worker t)) := by
      refine hlocated.of_pos (List.countP_pos_iff.mpr ⟨pkt, ?_, decide_eq_true rfl⟩)
      change pkt ∈ (s'.workers t).pc.held
      rw [hworkers, Function.update_self, hholds]
      exact List.mem_singleton_self pkt
    have hloc : loc pkt.id ≠ some (.thread (.worker t)) := by
      intro heq
      have hcensus := h.located (.thread (.worker t)) pkt.id
      rw [heq, if_pos rfl] at hcensus
      have hzero : census s.held s.mem (.thread (.worker t)) pkt.id = 0 := by
        change (s.workers t).pc.held.countP _ = 0
        rw [hheld, List.countP_nil]
      omega
    obtain ⟨p, hp, hup⟩ := hrel.enters rfl pkt.id hloc' hloc
    have hothers (u : ω) : pkt.id ∉ (s.workers u).building := by
      intro hu
      rw [h.loc_of_building hu] at hp
      cases hp
      exact hup
    refine ⟨h.records.take hworkers hold hnew (h.upstream pkt.id p hp hup) hothers htaken hrecorded,
      ?_⟩
    intro id
    by_cases hid : id = pkt.id
    · exact .inr (hid ▸ hloc')
    · left
      rw [htaken, count_concat, if_neg hid, Nat.add_zero]

/-- The packet of which a worker builds the record is with no other worker. -/
theorem PipelineInvariant.builds {id : Nat} (h : PipelineInvariant s loc)
    (hworkers : s'.workers = Function.update s.workers t th) (hold : (s.workers t).building = [id])
    (hnew : th.building = []) (htaken : s'.taken = s.taken)
    (hrecorded : s'.recorded = s.recorded ++ [id]) : RecordsOnce s' := by
  have hmem : id ∈ (s.workers t).building := by
    rw [hold]
    exact List.mem_singleton_self id
  have hothers (u : ω) (hu : u ≠ t) : id ∉ (s.workers u).building := by
    intro hid
    have heq := (h.loc_of_building hid).symm.trans (h.loc_of_building hmem)
    exact hu (Thread.worker.inj (Place.thread.inj (Option.some.inj heq)))
  exact h.records.build hworkers hold hnew hothers htaken hrecorded

end

/-- ONE STEP of the process keeps track of every packet, and loses one only where
a master looks up a sender that no plugin listens to. -/
theorem PipelineInvariant.step {config : PipelineConfig κ ω} {reader : PacketReader (Buffer δ) ℓ}
    {builder : RecordBuilder σ (Buffer δ) ρ} {s s' : Pipeline ι κ ω δ ℓ σ ρ}
    {a : PipelineAction ι κ ω δ} {loc : Nat → Option (Place ι κ ω)} (h : PipelineInvariant s loc)
    (hstep : pipelineStep config reader builder s a = some s') :
    ∃ loc', Advances config reader s s' a loc loc' := by
  cases a with
  | receiver t a =>
    rw [pipelineStep] at hstep
    split at hstep
    · next hfresh =>
      obtain ⟨⟨pc, mem⟩, hreceiver, rfl⟩ := Option.map_eq_some_iff.mp hstep
      have hreceive (pkt : Buffer δ) (hkind : a.kind = .receive pkt) : pkt.id = s.received := by
        rw [hkind] at hfresh
        exact of_decide_eq_true hfresh
      refine advances h (T := .receiver t) (receiver_transfer hreceiver)
        (held_receiver s rfl rfl rfl)
        (fun pkt hpkt => ⟨hreceive pkt hpkt, nofun⟩) rfl ?_
        fun _ _ _ => ⟨h.records.of_eq rfl rfl rfl, fun _ => .inl rfl⟩
      constructor
      · intro hforget
        cases a with
        | recvfrom pkt => cases pkt <;> cases hforget
        | test | enqueue draw | free => cases hforget
      · exact fun hunlistened => absurd trivial hunlistened
    · cases hstep
  | master t a =>
    obtain ⟨⟨th, mem⟩, hmaster, rfl⟩ := Option.map_eq_some_iff.mp hstep
    refine advances h (T := .master t) (master_transfer hmaster)
      (held_master s rfl rfl rfl) ?_ ?_ ?_
      fun _ _ _ => ⟨h.records.of_eq rfl rfl rfl, fun _ => .inl rfl⟩
    · intro pkt hpkt
      split at hpkt <;> cases hpkt
    · have hreceives : (if forgets (config.master t) reader (s.masters t).pc then
          TransferKind.forget else .inside : TransferKind (Buffer δ)).receives = 0 := by
        split <;> rfl
      rw [hreceives]
      rfl
    · rw [Listened]
      cases forgets (config.master t) reader (s.masters t).pc <;> simp
  | worker t a =>
    obtain ⟨⟨th, mem⟩, hworker, rfl⟩ := Option.map_eq_some_iff.mp hstep
    refine advances h (T := .worker t) (worker_transfer hworker)
      (held_worker s rfl rfl rfl) nofun rfl
      ⟨nofun, fun hunlistened => absurd trivial hunlistened⟩ ?_
    intro loc' hlocated hrel
    rcases worker_building hworker with ⟨i, m, rfl, hheld, hold⟩ | ⟨i, m, id, rfl, hold, hnew⟩ |
      ⟨hdequeue, hprocess, hold, hnew⟩
    · -- dequeue: the packet, if there was one, was in a ring before
      obtain ⟨hrecords, htaken⟩ := h.takes hlocated hrel rfl hheld hold rfl rfl
      exact ⟨hrecords, fun id => (htaken id).imp_right fun hloc => ⟨hloc, rfl⟩⟩
    · -- process: no other worker has the packet
      exact ⟨h.builds rfl hold hnew rfl (congrArg (s.recorded ++ ·) hold), fun _ => .inl rfl⟩
    · -- any other step
      have hsame : RecordsOnce { s with workers := Function.update s.workers t th } :=
        h.records.of_building rfl (hnew.trans hold.symm) rfl rfl
      cases a with
      | dequeue i m => exact absurd rfl (hdequeue i m)
      | process i m => exact absurd rfl (hprocess i m)
      | free i m | report i due | test i m | fileTimer i due =>
        exact ⟨⟨hsame.once, hsame.building, hsame.built⟩, fun _ => .inl rfl⟩
  | kill =>
    cases hstep
    exact ⟨loc, h.of_census (funext fun p => by cases p <;> rfl) trivial⟩
  | rotateJson plugin fptr =>
    cases hstep
    exact ⟨loc, h.of_census (funext fun p => by cases p <;> rfl) trivial⟩
  | rotateTemp plugin fptr =>
    cases hstep
    exact ⟨loc, h.of_census (funext fun p => by cases p <;> rfl) trivial⟩

/-! ## Runs -/

section

variable (config : PipelineConfig κ ω) (reader : PacketReader (Buffer δ) ℓ)
  (builder : RecordBuilder σ (Buffer δ) ρ)

theorem pipelineInvariant_start :
    PipelineInvariant (Pipeline.start config builder : Pipeline ι κ ω δ ℓ σ ρ) fun _ => none where
  located p id := by
    rw [if_neg nofun]
    have hnothing (T : Thread ι κ ω) :
        (Pipeline.start config builder : Pipeline ι κ ω δ ℓ σ ρ).held T = [] := by
      cases T with
      | receiver t => rfl
      | master t =>
        change (Master.start (config.master t) : Master (Buffer δ) ℓ).pc.held = []
        rw [Master.start]
        cases (config.master t).ring <;> rfl
      | worker t =>
        change (Worker.start (config.worker t) builder).pc.held = []
        rw [Worker.start]
        split
        · exact (config.worker t).held_dequeueFrom 0 0
        · rfl
    cases p with
    | thread T =>
      change ((Pipeline.start config builder : Pipeline ι κ ω δ ℓ σ ρ).held T).countP _ = 0
      rw [hnothing, List.countP_nil]
    | receiverRing k | workerRing r | freed => rfl
  fresh _ _ := ⟨rfl, rfl⟩
  upstream _ _ h := by cases h
  records := by
    have hnothing (t : ω) : (Worker.start (config.worker t) builder).building = [] := by
      rcases (Worker.start (config.worker t) builder).building_cases with h | ⟨pkt, -, hheld⟩
      · exact h
      · rw [Worker.start] at hheld
        split at hheld
        · cases ((config.worker t).held_dequeueFrom 0 0).symm.trans hheld
        · cases hheld
    refine ⟨fun _ => Nat.zero_le 1, ?_, fun _ _ => rfl⟩
    intro t id hid
    change id ∈ (Worker.start (config.worker t) builder).building at hid
    rw [hnothing] at hid
    cases hid

variable {config reader builder} {s t : Pipeline ι κ ω δ ℓ σ ρ}
  {acts : List (PipelineAction ι κ ω δ)}
  {loc : Nat → Option (Place ι κ ω)}

/-- A packet that is lost stays lost. -/
theorem lost_run (h : PipelineInvariant s loc) (hlost : ∃ id < s.received, loc id = none)
    (hrun : (pipelineStep config reader builder).run s acts = some t) :
    ∃ loc', PipelineInvariant t loc' ∧ ∃ id < t.received, loc' id = none := by
  refine Lib.Step.run_induct (I := fun s : Pipeline ι κ ω δ ℓ σ ρ => ∃ loc,
    PipelineInvariant s loc ∧
    ∃ id < s.received, loc id = none) ?_ ⟨loc, h, hlost⟩ hrun
  rintro s a s' ⟨loc, h, id, hid, hnone⟩ hstep
  obtain ⟨loc', hadvances⟩ := h.step hstep
  exact ⟨loc', hadvances.invariant, id, lt_of_lt_of_le hid hadvances.received,
    hadvances.nowhere id hid hnone⟩

/-- Along a run, no packet is lost exactly as long as every sender has a
listener. -/
theorem placed_run : ∀ {acts : List (PipelineAction ι κ ω δ)} {s : Pipeline ι κ ω δ ℓ σ ρ}
    {loc : Nat → Option (Place ι κ ω)}, PipelineInvariant s loc →
      (∀ id < s.received, loc id ≠ none) →
      (pipelineStep config reader builder).run s acts = some t →
      ∃ loc', PipelineInvariant t loc' ∧ ((∀ id < t.received, loc' id ≠ none) ↔
        (pipelineStep config reader builder).Along (Listened config reader) s acts)
  | [], s, loc, h, hplaced, hrun => by
    cases hrun
    exact ⟨loc, h, iff_of_true hplaced trivial⟩
  | a :: acts, s, loc, h, hplaced, hrun => by
    obtain ⟨s', hstep, hrun⟩ := Lib.Step.run_cons_eq_some.mp hrun
    obtain ⟨loc', hadvances⟩ := h.step hstep
    by_cases hlistened : Listened config reader s a
    · obtain ⟨loc'', h'', hiff⟩ :=
        placed_run hadvances.invariant (hadvances.listened hlistened hplaced) hrun
      refine ⟨loc'', h'', hiff.trans ⟨fun hrest => ⟨hlistened, ?_⟩, fun hall => hall.tail hstep⟩⟩
      rwa [hstep]
    · obtain ⟨loc'', h'', id, hid, hnone⟩ :=
        lost_run hadvances.invariant (hadvances.forgotten hlistened) hrun
      refine ⟨loc'', h'', iff_of_false (fun hall => hall id hid hnone) ?_⟩
      intro hall
      exact hlistened hall.head

/-- PACKETS ARE CONSERVED, a thread touches only the packet it holds and one
record is built of each packet a worker takes, exactly in the runs in which
every sender that a master looks up has a plugin listening to it. -/
theorem conserved_iff_listened
    (hrun : (pipelineStep config reader builder).run (Pipeline.start config builder) acts =
      some s) :
    (Conserved s ∧ RecordsOnce s ∧
      (pipelineStep config reader builder).Along TouchesOnlyHeld
        (Pipeline.start config builder) acts) ↔
      (pipelineStep config reader builder).Along (Listened config reader)
        (Pipeline.start config builder) acts := by
  have start : PipelineInvariant (Pipeline.start config builder : Pipeline ι κ ω δ ℓ σ ρ)
      fun _ => none := pipelineInvariant_start config builder
  obtain ⟨loc, h, hiff⟩ := placed_run start (fun id hid => absurd hid id.not_lt_zero) hrun
  have htouches : (pipelineStep config reader builder).Along TouchesOnlyHeld
      (Pipeline.start config builder) acts :=
    Lib.Step.along_of_invariant
      (I := fun s : Pipeline ι κ ω δ ℓ σ ρ => ∃ loc, PipelineInvariant s loc)
      (fun s a s' ⟨_, h⟩ hstep => (h.step hstep).imp fun _ hadvances => hadvances.invariant)
      (fun s a ⟨_, h⟩ => h.touchesOnlyHeld a) ⟨_, start⟩
  rw [← hiff, ← h.conserved_iff]
  exact ⟨fun hall => hall.1, fun hconserved => ⟨hconserved, h.records, htouches⟩⟩

end

/-! ## A packet that leaks -/

/-- One thread of each kind; the only plugin listens to the sender `1`. -/
def onePlugin : PipelineConfig Unit Unit where
  receiver_ring_cnt := 1
  master _ := { ring := some 0, plugin := [⟨1, [0], some⟩], nb_slaves := 1 }
  worker _ := { plugins := [0], nb_masters := 1, ring_rxs := fun _ m => some m }

/-- A datagram is its sender, and so are its line and its record. -/
def bufferReader : PacketReader (Buffer UInt32) UInt32 := ⟨Buffer.datagram, Buffer.datagram⟩

def bufferBuilder : RecordBuilder Unit (Buffer UInt32) UInt32 where
  initial := ()
  beginPass := id
  build _ _ pkt := some (pkt.datagram, ())

/-- A datagram goes through the receiver and the master, up to the lookup. -/
def upToLookup (sender : UInt32) : List (PipelineAction Unit Unit Unit UInt32) :=
  [.receiver () .test, .receiver () (.recvfrom (some ⟨0, sender⟩)), .receiver () (.enqueue 0),
    .master () .dequeue, .master () .lookup]

theorem unlistened_packet_leaks : ∃ s : Pipeline Unit Unit Unit UInt32 UInt32 Unit UInt32,
    (pipelineStep onePlugin bufferReader bufferBuilder).run (Pipeline.start onePlugin bufferBuilder)
      (upToLookup 2) = some s ∧
    ¬ Conserved s := by
  obtain ⟨s, hs⟩ : ∃ s, (pipelineStep onePlugin bufferReader bufferBuilder).run
      (Pipeline.start onePlugin bufferBuilder) (upToLookup 2) = some s :=
    Option.isSome_iff_exists.mp rfl
  obtain ⟨loc, h, hiff⟩ := placed_run (pipelineInvariant_start onePlugin bufferBuilder)
    (fun id hid => absurd hid id.not_lt_zero) hs
  have hunlistened : ¬ (pipelineStep onePlugin bufferReader bufferBuilder).Along
      (Listened onePlugin bufferReader) (Pipeline.start onePlugin bufferBuilder)
        (upToLookup 2) := by
    decide
  exact ⟨s, hs, fun hconserved => hunlistened (hiff.mp (h.conserved_iff.mp hconserved))⟩

/-- The rest of the way of a packet whose sender has a listener. -/
def fromLookup : List (PipelineAction Unit Unit Unit UInt32) :=
  [.master () (.place 0), .master () (.enqueue 0), .worker () (.dequeue 0 0),
    .worker () (.process 0 0), .worker () (.free 0 0)]

theorem listened_packet_conserved : ∃ s : Pipeline Unit Unit Unit UInt32 UInt32 Unit UInt32,
    (pipelineStep onePlugin bufferReader bufferBuilder).run (Pipeline.start onePlugin bufferBuilder)
      (upToLookup 1 ++ fromLookup) = some s ∧
    s.mem.freed = [⟨0, 1⟩] ∧ s.recorded = [0] ∧ Conserved s := by
  obtain ⟨s, hs⟩ : ∃ s, (pipelineStep onePlugin bufferReader bufferBuilder).run
      (Pipeline.start onePlugin bufferBuilder) (upToLookup 1 ++ fromLookup) = some s :=
    Option.isSome_iff_exists.mp rfl
  have hend : ((pipelineStep onePlugin bufferReader bufferBuilder).run
      (Pipeline.start onePlugin bufferBuilder) (upToLookup 1 ++ fromLookup)).map
        (fun s => (s.mem.freed, s.recorded)) = some ([⟨0, 1⟩], [0]) := rfl
  rw [hs] at hend
  obtain ⟨hfreed, hrecorded⟩ := Prod.mk.inj (Option.some.inj hend)
  exact ⟨s, hs, hfreed, hrecorded, ((conserved_iff_listened hs).mpr (by decide)).1⟩

end LogCollector
