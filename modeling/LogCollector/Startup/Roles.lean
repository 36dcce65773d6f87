import LogCollector.Startup.CommandLine

/-!
# Which cores the roles get

`parse_core_mask` writes the role of a core into `core_conf`, but `main` does not
read it: it takes the cores of the receivers from the front of the table, then
those of the masters and then those of the workers. A role gets the cores it was
given where the lists of the command line, read in order, are the lists of the
receivers, the masters and the workers one after the other (`roles_kept_iff`);
with `-m` before `-s` a master's core goes to a receiver
(`receiver_on_master_core`).
-/

namespace LogCollector

/-- The cores of one option. -/
def coresOf (option : CoreRole × CStr) : List Int32 := (option.2.strtok 44).map CStr.atoi

/-- The cores given for a role, in order. -/
def coresGiven (options : List (CoreRole × CStr)) (role : CoreRole) : List Int32 :=
  (options.filter fun option => option.1 = role).flatMap coresOf

/-- Every role gets the cores it was given, each for one thread and in order. -/
structure RolesKept (options : List (CoreRole × CStr)) (core_conf : List Core) : Prop where
  receivers : receiverThreadCores core_conf = coresGiven options .receiver
  masters : masterThreadCores core_conf = coresGiven options .master
  slaves : slaveThreadCores core_conf = coresGiven options .slave

/-! ## The table -/

/-- The entries of one option. -/
def entriesOf (option : CoreRole × CStr) : List Core := (coresOf option).map (⟨option.1, ·⟩)

/-- An option appends its entries. -/
theorem parseCoreMask_eq {role : CoreRole} {mask : CStr} {core_conf core_conf' : List Core}
    (h : parseCoreMask role mask core_conf = some core_conf') :
    core_conf' = core_conf ++ entriesOf (role, mask) := by
  rw [parseCoreMask] at h
  split at h
  · cases h
  · rw [entriesOf, coresOf]
    generalize mask.strtok 44 = tokens at h
    induction tokens generalizing core_conf with
    | nil =>
      cases h
      exact (List.append_nil _).symm
    | cons token tokens ih =>
      rw [List.foldlM_cons] at h
      obtain ⟨next, hnext, h⟩ := Option.bind_eq_some_iff.mp h
      split at hnext
      · cases hnext
        rw [ih h, List.append_assoc]
        rfl
      · cases hnext

/-- The table holds the entries of all options, in their order. -/
theorem parseOptions_eq {options : List (CoreRole × CStr)} {core_conf : List Core}
    (h : parseOptions options = some core_conf) : core_conf = options.flatMap entriesOf := by
  have hfrom : ∀ (options : List (CoreRole × CStr)) (before : List Core),
      options.foldlM (fun core_conf option =>
        (parseCoreMask option.1 option.2 core_conf).filter fun core_conf =>
          0 < core_conf.length) before = some core_conf →
        core_conf = before ++ options.flatMap entriesOf := by
    intro options
    induction options with
    | nil =>
      intro before h
      cases h
      exact (List.append_nil _).symm
    | cons option options ih =>
      intro before h
      rw [List.foldlM_cons] at h
      obtain ⟨next, hnext, h⟩ := Option.bind_eq_some_iff.mp h
      have hparse := (Option.filter_eq_some_iff.mp hnext).1
      rw [ih next h, parseCoreMask_eq hparse, List.flatMap_cons, List.append_assoc]
  exact hfrom options [] h

theorem acceptCommandLine_eq {options : List (CoreRole × CStr)} {core_conf : List Core}
    (h : acceptCommandLine options = some core_conf) :
    core_conf = options.flatMap entriesOf :=
  parseOptions_eq (Option.filter_eq_some_iff.mp h).1

/-- The entries of a role are as many as the cores given for it. -/
theorem countP_entries (options : List (CoreRole × CStr)) (role : CoreRole) :
    (options.flatMap entriesOf).countP (fun core => core.role = role) =
      (coresGiven options role).length := by
  induction options with
  | nil => rfl
  | cons option options ih =>
    have hentries : (entriesOf option).countP (fun core => core.role = role) =
        if option.1 = role then (coresOf option).length else 0 :=
      countP_map_role option.1 role (coresOf option)
    rw [List.flatMap_cons, List.countP_append, hentries, ih, coresGiven, coresGiven,
      List.filter_cons]
    split
    · next h => rw [if_pos (by simpa using h), List.flatMap_cons, List.length_append]
    · next h => rw [if_neg (by simpa using h), Nat.zero_add]

/-- The table without the roles is all cores in the order of the options. -/
theorem map_entries (options : List (CoreRole × CStr)) :
    (options.flatMap entriesOf).map Core.core_id = options.flatMap coresOf := by
  rw [List.map_flatMap]
  refine congrArg (List.flatMap · options) (funext ?_)
  intro option
  rw [entriesOf, List.map_map]
  exact List.map_id _

/-- The cores of the threads, as slices of the cores in the order of the
options. -/
theorem threadCores_eq {options : List (CoreRole × CStr)} {core_conf : List Core}
    (h : acceptCommandLine options = some core_conf) :
    receiverThreadCores core_conf =
        (options.flatMap coresOf).take (coresGiven options .receiver).length ∧
      masterThreadCores core_conf =
        ((options.flatMap coresOf).drop (coresGiven options .receiver).length).take
          (coresGiven options .master).length ∧
      slaveThreadCores core_conf =
        (options.flatMap coresOf).drop
          ((coresGiven options .receiver).length + (coresGiven options .master).length) := by
  have hconf := acceptCommandLine_eq h
  have hcount (role : CoreRole) : core_conf.countP (fun core => core.role = role) =
      (coresGiven options role).length := by
    rw [hconf, countP_entries]
  have hcores : core_conf.map Core.core_id = options.flatMap coresOf := by
    rw [hconf, map_entries]
  have hlength := coreCount_add core_conf
  refine ⟨?_, ?_, ?_⟩
  · rw [receiverThreadCores, receiverCoreCount, hcount, List.map_take, hcores]
  · rw [masterThreadCores, receiverCoreCount, masterCoreCount, hcount, hcount, List.map_take,
      List.map_drop, hcores]
  · have hall : slaveCoreCount core_conf =
        (core_conf.drop (receiverCoreCount core_conf + masterCoreCount core_conf)).length := by
      rw [List.length_drop]
      omega
    rw [slaveThreadCores, hall, List.take_length, List.map_drop, hcores, receiverCoreCount,
      masterCoreCount, hcount, hcount]

/-- THE ROLES ARE KEPT exactly where the command line lists the cores of the
receivers first, then those of the masters and then those of the workers. -/
theorem roles_kept_iff {options : List (CoreRole × CStr)} {core_conf : List Core}
    (h : acceptCommandLine options = some core_conf) :
    RolesKept options core_conf ↔ options.flatMap coresOf =
      coresGiven options .receiver ++ coresGiven options .master ++ coresGiven options .slave := by
  obtain ⟨hreceivers, hmasters, hslaves⟩ := threadCores_eq h
  constructor
  · intro hkept
    have h1 := hkept.receivers
    have h2 := hkept.masters
    have h3 := hkept.slaves
    rw [hreceivers] at h1
    rw [hmasters] at h2
    rw [hslaves, ← List.drop_drop] at h3
    calc options.flatMap coresOf
        = coresGiven options .receiver ++
            (options.flatMap coresOf).drop (coresGiven options .receiver).length := by
          conv_lhs => rw [← List.take_append_drop (coresGiven options .receiver).length
            (options.flatMap coresOf), h1]
      _ = coresGiven options .receiver ++
            (coresGiven options .master ++ coresGiven options .slave) := by
          conv_lhs => rw [← List.take_append_drop (coresGiven options .master).length
            ((options.flatMap coresOf).drop (coresGiven options .receiver).length), h2, h3]
      _ = _ := (List.append_assoc _ _ _).symm
  · intro horder
    rw [horder] at hreceivers hmasters hslaves
    constructor
    case receivers => rw [hreceivers, List.append_assoc, List.take_left]
    case masters => rw [hmasters, List.append_assoc, List.drop_left, List.take_left]
    case slaves => rw [hslaves, ← List.length_append, List.drop_left]

/-- `-s 0 -m 1 -c 2,3`. -/
theorem roles_kept_in_order :
    RolesKept [(.receiver, .lit "0"), (.master, .lit "1"), (.slave, .lit "2,3")]
      [⟨.receiver, 0⟩, ⟨.master, 1⟩, ⟨.slave, 2⟩, ⟨.slave, 3⟩] :=
  (roles_kept_iff (by decide)).mpr (by decide)

/-- With `-m 1 -s 0 -c 2` the receiver runs on core 1 and the master on core 0. -/
theorem receiver_on_master_core :
    acceptCommandLine [(.master, .lit "1"), (.receiver, .lit "0"), (.slave, .lit "2")] =
        some [⟨.master, 1⟩, ⟨.receiver, 0⟩, ⟨.slave, 2⟩] ∧
      ¬ RolesKept [(.master, .lit "1"), (.receiver, .lit "0"), (.slave, .lit "2")]
        [⟨.master, 1⟩, ⟨.receiver, 0⟩, ⟨.slave, 2⟩] := by
  refine ⟨by decide, ?_⟩
  intro h
  have hreceivers : receiverThreadCores [⟨.master, 1⟩, ⟨.receiver, 0⟩, ⟨.slave, 2⟩] = [1] := rfl
  have hgiven : coresGiven [(.master, .lit "1"), (.receiver, .lit "0"), (.slave, .lit "2")]
      .receiver = [0] := by decide
  have := h.receivers
  rw [hreceivers, hgiven] at this
  exact absurd this (by decide)

end LogCollector
