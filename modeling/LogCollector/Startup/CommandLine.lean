import LogCollector.CString

/-!
# The cores on the command line

`-s`, `-m` and `-c` each give a list of cores for the receivers, the masters and
the workers. All lists go into one table, `core_conf`, in the order of the
options; the threads of a role take as many entries as the role was given, the
receivers from the front, then the masters, then the workers.
-/

namespace LogCollector

def MAX_CORE_NUM : Nat := 48

/-- `core_role_t`. -/
inductive CoreRole
  | receiver
  | master
  | slave
deriving DecidableEq

/-- `core_t`. -/
structure Core where
  role : CoreRole
  core_id : Int32
deriving DecidableEq

/-- `parse_core_mask`, as what it adds to `core_conf`; `none` past the end of
the table. The mask `all` is overwritten by a `sprintf` onto its own argument,
past the end of the four bytes it has. -/
def parseCoreMask (core_role : CoreRole) (core_mask : CStr) (core_conf : List Core) :
    Option (List Core) :=
  if core_mask = .lit "all" then none
  else
    (core_mask.strtok 44).foldlM
      (fun core_conf token =>
        if core_conf.length < MAX_CORE_NUM then
          some (core_conf ++ [{ role := core_role, core_id := token.atoi }])
        else none)
      core_conf

section

variable (core_conf : List Core)

/-- `nb_receiver_cores`. -/
def receiverCoreCount : Nat := core_conf.countP (·.role = .receiver)

/-- `nb_masters`. -/
def masterCoreCount : Nat := core_conf.countP (·.role = .master)

/-- `nb_slaves`. -/
def slaveCoreCount : Nat := core_conf.countP (·.role = .slave)

/-- The cores of `rthreads`. -/
def receiverThreadCores : List Int32 :=
  (core_conf.take (receiverCoreCount core_conf)).map Core.core_id

/-- The cores of `mthreads`. -/
def masterThreadCores : List Int32 :=
  ((core_conf.drop (receiverCoreCount core_conf)).take (masterCoreCount core_conf)).map
    Core.core_id

/-- The cores of `sthreads`. -/
def slaveThreadCores : List Int32 :=
  ((core_conf.drop (receiverCoreCount core_conf + masterCoreCount core_conf)).take
    (slaveCoreCount core_conf)).map Core.core_id

/-- Cores of one role are counted for this role only. -/
theorem countP_map_role (role other : CoreRole) (core_ids : List Int32) :
    (core_ids.map (Core.mk role)).countP (fun core => core.role = other) =
      if role = other then core_ids.length else 0 := by
  rw [List.countP_map]
  split
  · next h => simp [Function.comp_def, h]
  · next h => simp [Function.comp_def, h]

/-- Every core of the table has one of the three roles. -/
theorem coreCount_add : receiverCoreCount core_conf + masterCoreCount core_conf +
    slaveCoreCount core_conf = core_conf.length := by
  simp only [receiverCoreCount, masterCoreCount, slaveCoreCount]
  induction core_conf with
  | nil => rfl
  | cons core core_conf ih =>
    obtain ⟨role, core_id⟩ := core
    cases role <;> simp <;> omega

@[simp] theorem length_masterThreadCores :
    (masterThreadCores core_conf).length = masterCoreCount core_conf := by
  have := coreCount_add core_conf
  rw [masterThreadCores, List.length_map, List.length_take, List.length_drop]
  omega

@[simp] theorem length_slaveThreadCores :
    (slaveThreadCores core_conf).length = slaveCoreCount core_conf := by
  have := coreCount_add core_conf
  rw [slaveThreadCores, List.length_map, List.length_take, List.length_drop]
  omega

end

/-- The options of `main` that give cores, in their order. An option that leaves
the table empty ends the program. -/
def parseOptions (options : List (CoreRole × CStr)) : Option (List Core) :=
  options.foldlM
    (fun core_conf option =>
      (parseCoreMask option.1 option.2 core_conf).filter fun core_conf => 0 < core_conf.length)
    []

/-- `core_conf` after the checks of `main`; `none` where it exits. -/
def acceptCommandLine (options : List (CoreRole × CStr)) : Option (List Core) :=
  (parseOptions options).filter fun core_conf =>
    1 ≤ receiverCoreCount core_conf ∧ 1 ≤ masterCoreCount core_conf ∧
      1 ≤ slaveCoreCount core_conf

/-- A command line with a thread of every role. -/
theorem acceptCommandLine_counts {options : List (CoreRole × CStr)} {core_conf : List Core}
    (h : acceptCommandLine options = some core_conf) :
    1 ≤ receiverCoreCount core_conf ∧ 1 ≤ masterCoreCount core_conf ∧
      1 ≤ slaveCoreCount core_conf :=
  of_decide_eq_true (Option.filter_eq_some_iff.mp h).2

end LogCollector
