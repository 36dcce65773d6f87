import LogCollector.CString
import LogCollector.Lib.Assoc

/-!
# JSON values

`struct json`. An object is a list of members. Those of a value that is written
stand in the order in which `SHASH_FOR_EACH` visits them, which depends on the
hash table; those of a value that was read, in the order in which they were put.
So what is said of a value that is read back is said up to `json_equal`, which
does not depend on either. What the program does with a `double` is a parameter
(`Reals`): records hold no numbers but integers, so floating point never decides
anything.

A `Record` is what `worker_loop` builds for one log: a flat object, put
together by `json_object_put` and so with no key twice.
-/

namespace LogCollector

/-- `struct json`. -/
inductive Json (ρ : Type)
  | null
  | boolean (b : Bool)
  | object (members : List (CStr × Json ρ))
  | array (elems : List (Json ρ))
  | integer (i : Int64)
  | real (x : ρ)
  | string (s : CStr)

/-- What the program does with a `double`. -/
structure Reals (ρ : Type) where
  /-- `%.*g` with `DBL_DIG` digits. -/
  format : ρ → CStr
  /-- `str_to_double`; `none` where it returns false. -/
  strToDouble : CStr → Option ρ
  /-- `if (token.real == 0) token.real = 0`. -/
  suppressNegativeZero : ρ → ρ
  /-- `==`. -/
  eq : ρ → ρ → Bool

/-- For values without any. -/
def noReals : Reals Unit := ⟨fun _ => .empty, fun _ => none, id, fun _ _ => true⟩

variable {ρ : Type}

mutual

/-- `json_equal` of two values that are not the same pointer. -/
def jsonEqual (reals : Reals ρ) : Json ρ → Json ρ → Bool
  | .null, .null => true
  | .boolean a, .boolean b => a == b
  | .object a, .object b => a.length == b.length && jsonEqualMembers reals a b
  | .array a, .array b => jsonEqualElems reals a b
  | .integer a, .integer b => a == b
  | .real a, .real b => reals.eq a b
  | .string a, .string b => a == b
  | _, _ => false

/-- The loop of `json_equal_object`: every member of `a` is found in `b`. -/
def jsonEqualMembers (reals : Reals ρ) : List (CStr × Json ρ) → List (CStr × Json ρ) → Bool
  | [], _ => true
  | (name, value) :: a, b =>
    (match b.lookup name with
      | some other => jsonEqual reals value other
      | none => false) && jsonEqualMembers reals a b

/-- `json_equal_array`. -/
def jsonEqualElems (reals : Reals ρ) : List (Json ρ) → List (Json ρ) → Bool
  | [], [] => true
  | x :: a, y :: b => jsonEqual reals x y && jsonEqualElems reals a b
  | _, _ => false

end

/-! ## Records -/

/-- The values `worker_loop` puts into a record. -/
inductive Scalar
  | string (s : CStr)
  | integer (i : Int64)
  | boolean (b : Bool)
deriving DecidableEq

def Scalar.toJson : Scalar → Json ρ
  | .string s => .string s
  | .integer i => .integer i
  | .boolean b => .boolean b

/-- An object of scalars, with no key twice. -/
structure Record where
  members : List (CStr × Scalar)
  nodup : (Lib.Assoc.keys members).Nodup

namespace Record

/-- `json_object_create`. -/
def empty : Record := ⟨[], List.nodup_nil⟩

/-- `json_object_put`: insert, or replace the value of a key that is there. -/
def put (r : Record) (name : CStr) (value : Scalar) : Record :=
  ⟨Lib.Assoc.put r.members name value, Lib.Assoc.nodup_put r.nodup name value⟩

/-- The value of a key. -/
def get (r : Record) (name : CStr) : Option Scalar := r.members.lookup name

def toJson (r : Record) : Json ρ := .object (r.members.map fun m => (m.1, m.2.toJson))

theorem get_put_self (r : Record) (name : CStr) (value : Scalar) :
    (r.put name value).get name = some value :=
  Lib.Assoc.lookup_put_self r.members name value

theorem get_put_of_ne (r : Record) {name other : CStr} (value : Scalar) (h : other ≠ name) :
    (r.put name value).get other = r.get other :=
  Lib.Assoc.lookup_put_of_ne r.members value h

end Record

/-! ## Equality of flat objects -/

theorem jsonEqual_toJson (reals : Reals ρ) (x : Scalar) :
    jsonEqual reals x.toJson (x.toJson : Json ρ) = true := by
  cases x <;> simp [Scalar.toJson, jsonEqual]

/-- Members that are all found with their own values are equal to the list they
are found in. -/
theorem jsonEqualMembers_of_lookup (reals : Reals ρ) {b : List (CStr × Json ρ)} :
    ∀ {a : List (CStr × Scalar)},
      (∀ m ∈ a, b.lookup m.1 = some m.2.toJson) →
      jsonEqualMembers reals (a.map fun m => (m.1, m.2.toJson)) b = true
  | [], _ => rfl
  | m :: a, h => by
    simp only [List.map_cons, jsonEqualMembers, h m List.mem_cons_self, jsonEqual_toJson,
      Bool.true_and]
    exact jsonEqualMembers_of_lookup reals fun m' hm' => h m' (List.mem_cons_of_mem m hm')

/-- A record equals itself, however its members are listed. -/
theorem jsonEqual_record (reals : Reals ρ) (r : Record) :
    jsonEqual reals r.toJson (r.toJson : Json ρ) = true := by
  have hkeys : (Lib.Assoc.keys (r.members.map fun m => (m.1, (m.2.toJson : Json ρ)))).Nodup := by
    rw [Lib.Assoc.keys, List.map_map]
    exact r.nodup
  rw [Record.toJson, jsonEqual, beq_self_eq_true, Bool.true_and]
  apply jsonEqualMembers_of_lookup reals
  intro m hm
  exact Lib.Assoc.lookup_eq_some_of_mem hkeys (List.mem_map_of_mem hm)

end LogCollector
