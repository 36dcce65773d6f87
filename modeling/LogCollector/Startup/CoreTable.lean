import LogCollector.Lib.Related
import LogCollector.Startup.CommandLine

/-!
# The core table

`CommandLine` has `core_conf` as the list of the cores that were given. In the program it
is an array of `MAX_CORE_NUM` entries, with the number of entries in use and a number for
every role beside it. `CoreTable` is this state, and its `parseCoreMask` goes through the
tokens as the source does, one store and two increments for each.

An option appends the cores of its tokens and counts them (`foldlM_storeCore`). The list
of `CommandLine` is the part of the array in use, with as many cores of each role as its
number says (`StandsFor`), through all options of a command line
(`parseOptions_refines`).
-/

namespace LogCollector

/-- `core_conf`, `nb_cores` and the numbers of the roles. -/
structure CoreTable where
  core_conf : Vector Core MAX_CORE_NUM
  nb_cores : Nat
  nb_receiver_cores : Nat
  nb_masters : Nat
  nb_slaves : Nat

namespace CoreTable

/-- The table the program starts with. -/
def empty : CoreTable where
  core_conf := .replicate MAX_CORE_NUM { role := .receiver, core_id := 0 }
  nb_cores := 0
  nb_receiver_cores := 0
  nb_masters := 0
  nb_slaves := 0

/-- The entries in use. -/
def entries (table : CoreTable) : List Core := table.core_conf.toList.take table.nb_cores

/-- The number of a role. -/
def counter (table : CoreTable) : CoreRole → Nat
  | .receiver => table.nb_receiver_cores
  | .master => table.nb_masters
  | .slave => table.nb_slaves

def increment (table : CoreTable) : CoreRole → CoreTable
  | .receiver => { table with nb_receiver_cores := table.nb_receiver_cores + 1 }
  | .master => { table with nb_masters := table.nb_masters + 1 }
  | .slave => { table with nb_slaves := table.nb_slaves + 1 }

/-- A round of the loop of `parse_core_mask`: the branches of the roles differ in the
number they increment; `none` past the end of `core_conf`. -/
def storeCore (core_role : CoreRole) (table : CoreTable) (token : CStr) : Option CoreTable :=
  if h : table.nb_cores < MAX_CORE_NUM then
    let core := { role := core_role, core_id := token.atoi }
    let table := { table with core_conf := table.core_conf.set table.nb_cores core h }
    let table := table.increment core_role
    some { table with nb_cores := table.nb_cores + 1 }
  else none

/-- `parse_core_mask`, with the table it leaves and its result. -/
def parseCoreMask (core_role : CoreRole) (core_mask : CStr) (table : CoreTable) :
    Option (CoreTable × Int) :=
  if core_mask = .lit "all" then none
  else
    ((core_mask.strtok 44).foldlM (storeCore core_role) table).map fun table =>
      (table, if table.nb_cores > 0 then 1 else 0)

/-! ## What an option appends -/

/-- Cores of one role are appended: their entries behind those in use, and the numbers of
the entries and of the role, with no other number changed. -/
structure Appended (role : CoreRole) (core_ids : List Int32) (table table' : CoreTable) : Prop where
  entries : table'.entries = table.entries ++ core_ids.map (Core.mk role)
  nb_cores : table'.nb_cores = table.nb_cores + core_ids.length
  counter : table'.counter role = table.counter role + core_ids.length
  others : ∀ other ≠ role, table'.counter other = table.counter other

namespace Appended

variable {role : CoreRole} {table table' table'' : CoreTable} {core_ids core_ids' : List Int32}

theorem refl (role : CoreRole) (table : CoreTable) : Appended role [] table table where
  entries := (List.append_nil _).symm
  nb_cores := rfl
  counter := rfl
  others := by
    intro other _
    rfl

theorem trans (h : Appended role core_ids table table')
    (h' : Appended role core_ids' table' table'') :
    Appended role (core_ids ++ core_ids') table table'' where
  entries := by
    rw [h'.entries, h.entries, List.append_assoc, List.map_append]
  nb_cores := by
    rw [h'.nb_cores, h.nb_cores, List.length_append, Nat.add_assoc]
  counter := by
    rw [h'.counter, h.counter, List.length_append, Nat.add_assoc]
  others := by
    intro other hother
    rw [h'.others other hother, h.others other hother]

theorem entries_of_empty (h : Appended role core_ids table table') (hempty : table.nb_cores = 0) :
    table'.entries = core_ids.map (Core.mk role) := by
  have hnone : table.entries = [] := by
    rw [CoreTable.entries, hempty, List.take_zero]
  rw [h.entries, hnone, List.nil_append]

end Appended

section

variable {role : CoreRole} {table : CoreTable}

@[simp] theorem core_conf_increment : (table.increment role).core_conf = table.core_conf := by
  cases role
  all_goals rfl

@[simp] theorem nb_cores_increment : (table.increment role).nb_cores = table.nb_cores := by
  cases role
  all_goals rfl

theorem counter_increment : (table.increment role).counter role = table.counter role + 1 := by
  cases role
  all_goals rfl

theorem counter_increment_of_ne {other : CoreRole} (h : other ≠ role) :
    (table.increment role).counter other = table.counter other := by
  cases role
  all_goals
    cases other
    all_goals first
      | rfl
      | exact absurd rfl h

/-- The step: a token is one more core where the table has room. -/
theorem storeCore_of_room (role : CoreRole) (h : table.nb_cores < MAX_CORE_NUM) (token : CStr) :
    ∃ table', storeCore role table token = some table' ∧
      Appended role [token.atoi] table table' := by
  refine ⟨_, dif_pos h, ?_, ?_, ?_, ?_⟩
  · have hlength : table.nb_cores < table.core_conf.toList.length := by
      rwa [Vector.length_toList]
    simp only [entries, core_conf_increment, nb_cores_increment, Vector.toList_set]
    rw [List.take_add_one, List.take_set_of_le le_rfl, List.getElem?_set_self hlength]
    rfl
  · simp only [nb_cores_increment, List.length_singleton]
  · exact counter_increment
  · intro other hother
    exact counter_increment_of_ne hother

/-- THE RUN: the tokens of an option are appended in their order. -/
theorem foldlM_storeCore (role : CoreRole) {tokens : List CStr}
    (h : table.nb_cores + tokens.length ≤ MAX_CORE_NUM) :
    ∃ table', tokens.foldlM (storeCore role) table = some table' ∧
      Appended role (tokens.map CStr.atoi) table table' := by
  induction tokens generalizing table with
  | nil => exact ⟨table, rfl, .refl role table⟩
  | cons token tokens ih =>
    rw [List.length_cons] at h
    have hstore : table.nb_cores < MAX_CORE_NUM := by omega
    obtain ⟨next, hnext, happended⟩ := storeCore_of_room role hstore token
    have hroom : next.nb_cores + tokens.length ≤ MAX_CORE_NUM := by
      rw [happended.nb_cores, List.length_singleton]
      omega
    obtain ⟨table', hrun, happended'⟩ := ih hroom
    refine ⟨table', ?_, happended.trans happended'⟩
    rw [List.foldlM_cons, hnext]
    exact hrun

end

/-! ## The list of the command line -/

/-- The options of `main` that give cores: a result of 0 ends the program. -/
def parseOptions (options : List (CoreRole × CStr)) : Option CoreTable :=
  options.foldlM
    (fun table option =>
      (parseCoreMask option.1 option.2 table).bind fun left =>
        if left.2 = 0 then none else some left.1)
    empty

/-- A table stands for the list of its entries, which are in the array and which its
numbers count. -/
structure StandsFor (table : CoreTable) (core_conf : List Core) : Prop where
  entries : table.entries = core_conf
  room : table.nb_cores ≤ MAX_CORE_NUM
  counters : ∀ role, table.counter role = core_conf.countP (·.role = role)

namespace StandsFor

variable {table table' : CoreTable} {core_conf : List Core}

theorem length_eq (h : table.StandsFor core_conf) : core_conf.length = table.nb_cores := by
  rw [← h.entries, CoreTable.entries, List.length_take, Vector.length_toList,
    Nat.min_eq_left h.room]

theorem empty : CoreTable.empty.StandsFor [] where
  entries := rfl
  room := Nat.zero_le _
  counters := by
    intro role
    cases role
    all_goals rfl

theorem append {role : CoreRole} {core_ids : List Int32} (h : table.StandsFor core_conf)
    (happended : Appended role core_ids table table') (hroom : table'.nb_cores ≤ MAX_CORE_NUM) :
    table'.StandsFor (core_conf ++ core_ids.map (Core.mk role)) where
  entries := by
    rw [happended.entries, h.entries]
  room := hroom
  counters := by
    intro other
    rw [List.countP_append, ← h.counters, countP_map_role]
    split
    · next hrole => rw [← hrole, happended.counter]
    · next hrole => exact happended.others other (Ne.symm hrole)

/-- The step: both have room for a core, or neither. -/
theorem storeCore (h : table.StandsFor core_conf) (role : CoreRole) (token : CStr) :
    Option.Rel StandsFor (CoreTable.storeCore role table token)
      (if core_conf.length < MAX_CORE_NUM then
        some (core_conf ++ [{ role := role, core_id := token.atoi }])
      else none) := by
  rw [h.length_eq]
  by_cases hroom : table.nb_cores < MAX_CORE_NUM
  · obtain ⟨next, hnext, happended⟩ := storeCore_of_room role hroom token
    rw [hnext, if_pos hroom]
    exact .some (h.append happended (happended.nb_cores ▸ hroom))
  · rw [CoreTable.storeCore, dif_neg hroom, if_neg hroom]
    exact .none

/-- An option leaves both with the same cores, and its result says whether there are any. -/
theorem parseCoreMask (h : table.StandsFor core_conf) (role : CoreRole) (mask : CStr) :
    Option.Rel (fun left core_conf =>
        left.1.StandsFor core_conf ∧ left.2 = if core_conf.length > 0 then 1 else 0)
      (CoreTable.parseCoreMask role mask table)
      (LogCollector.parseCoreMask role mask core_conf) := by
  unfold CoreTable.parseCoreMask LogCollector.parseCoreMask
  split
  · exact .none
  · apply Lib.Related.map_left (Lib.Related.foldlM ?_ h)
    · intro left core_conf hleft
      exact ⟨hleft, by rw [hleft.length_eq]⟩
    · intro table core_conf token h
      exact h.storeCore role token

end StandsFor

/-- THE LIST OF `CommandLine` is what the table stands for, on every command line. -/
theorem parseOptions_refines (options : List (CoreRole × CStr)) :
    Option.Rel StandsFor (parseOptions options) (LogCollector.parseOptions options) := by
  refine Lib.Related.foldlM ?_ .empty
  intro table core_conf option h
  have hparse := h.parseCoreMask option.1 option.2
  generalize parseCoreMask option.1 option.2 table = left at hparse
  generalize LogCollector.parseCoreMask option.1 option.2 core_conf = given at hparse
  cases hparse with
  | none => exact .none
  | @some left core_conf hleft =>
    obtain ⟨hstands, hresult⟩ := hleft
    rw [Option.bind_some, Option.filter_some, hresult]
    by_cases hcores : core_conf.length > 0
    · rw [if_pos hcores, if_neg Int.one_ne_zero, if_pos (decide_eq_true hcores)]
      exact .some hstands
    · rw [if_neg hcores, if_pos rfl, if_neg (mt of_decide_eq_true hcores)]
      exact .none

end CoreTable

end LogCollector
