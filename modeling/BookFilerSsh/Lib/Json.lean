import Mathlib.Algebra.GroupWithZero.Nat
import Mathlib.Data.List.MinMax

/-!
# JSON values

A JSON value as a parser hands it over: an object is the list of its members in the
order they stand in, and a name may occur more than once. The type of numbers is a
parameter.

A path of names leads from a value to another by taking the first member of each
name (`follow`). `leavesAt` lists the texts that stand in a value under paths of one
length, with their paths, in the order they stand in.
-/

set_option autoImplicit false

namespace Lib

universe u

/-- A JSON value. -/
inductive Json (ν : Type u) : Type u where
  | null
  | bool (value : Bool)
  | number (value : ν)
  | text (value : String)
  | array (elements : List (Json ν))
  | object (members : List (String × Json ν))

namespace Json

variable {ν : Type u}

/-- Whether the value is an object. -/
def isObject : Json ν → Bool
  | .object _ => true
  | _ => false

/-- The members of an object. -/
def members? : Json ν → Option (List (String × Json ν))
  | .object members => some members
  | _ => none

/-- The characters of a text. -/
def text? : Json ν → Option String
  | .text value => some value
  | _ => none

theorem isObject_iff {value : Json ν} :
    value.isObject = true ↔ ∃ members, value = .object members := by
  cases value <;> simp [isObject]

@[simp] theorem members?_object (members : List (String × Json ν)) :
    (object members).members? = some members := rfl

@[simp] theorem isObject_object (members : List (String × Json ν)) :
    (object members).isObject = true := rfl

/-! ## Sizes -/

/-- A value stands in the object it is a member of. -/
theorem sizeOf_member_lt {members : List (String × Json ν)} {member : String × Json ν}
    (among : member ∈ members) : sizeOf member.2 < sizeOf (object members) := by
  have inList := List.sizeOf_lt_of_mem among
  obtain ⟨name, value⟩ := member
  simp only [Prod.mk.sizeOf_spec] at inList
  simp only [object.sizeOf_spec]
  omega

/-- How many values stand in the value, under names alone. -/
def size : Json ν → ℕ
  | .object members => (members.attach.map fun member => size member.1.2).sum + 1
  | _ => 1
termination_by value => sizeOf value
decreasing_by exact sizeOf_member_lt member.2

theorem size_object (members : List (String × Json ν)) :
    (object members).size = (members.map fun member => member.2.size).sum + 1 := by
  have plain : (members.attach.map fun member => member.1.2.size) =
      members.map fun member => member.2.size :=
    List.attach_map_val (f := fun member : String × Json ν => member.2.size)
  rw [size, plain]

/-- How deep objects stand in objects: 0 for a value that is no object. -/
def depth : Json ν → ℕ
  | .object members => (members.attach.map fun member => depth member.1.2).foldr max 0 + 1
  | _ => 0
termination_by value => sizeOf value
decreasing_by exact sizeOf_member_lt member.2

theorem depth_object (members : List (String × Json ν)) :
    (object members).depth = (members.map fun member => member.2.depth).foldr max 0 + 1 := by
  have plain : (members.attach.map fun member => member.1.2.depth) =
      members.map fun member => member.2.depth :=
    List.attach_map_val (f := fun member : String × Json ν => member.2.depth)
  rw [depth, plain]

theorem depth_of_not_object {value : Json ν} (plain : value.isObject = false) :
    value.depth = 0 := by
  cases value with
  | object members => cases plain
  | _ =>
      rw [depth]
      intro members impossible
      cases impossible

/-- A member is less deep than the object. -/
theorem depth_member_lt {members : List (String × Json ν)} {member : String × Json ν}
    (among : member ∈ members) : member.2.depth < (object members).depth := by
  rw [depth_object]
  exact Nat.lt_succ_of_le (List.le_max_of_le' 0 (List.mem_map_of_mem among) le_rfl)

/-! ## Members and paths -/

/-- The value of the first member with the name. -/
def find (members : List (String × Json ν)) (name : String) : Option (Json ν) :=
  members.lookup name

/-- Follow the names from the value, to the first member of each. -/
def follow (value : Json ν) : List String → Option (Json ν)
  | [] => some value
  | name :: names => do
      let members ← value.members?
      let member ← find members name
      member.follow names

/-- The texts under paths of `n + 1` names, with their paths, in order. -/
def leavesAt : ℕ → Json ν → List (List String × String)
  | 0, value => (value.members?.getD []).filterMap fun member =>
      member.2.text?.map fun handle => ([member.1], handle)
  | n + 1, value => (value.members?.getD []).flatMap fun member =>
      (leavesAt n member.2).map fun leaf => (member.1 :: leaf.1, leaf.2)

theorem leavesAt_zero_object (members : List (String × Json ν)) :
    leavesAt 0 (object members) = members.filterMap fun member =>
      member.2.text?.map fun handle => ([member.1], handle) := rfl

theorem leavesAt_succ_object (n : ℕ) (members : List (String × Json ν)) :
    leavesAt (n + 1) (object members) = members.flatMap fun member =>
      (leavesAt n member.2).map fun leaf => (member.1 :: leaf.1, leaf.2) := rfl

/-- No texts stand under the names of a value that is no object. -/
theorem leavesAt_of_not_object {value : Json ν} (plain : value.isObject = false) (n : ℕ) :
    leavesAt n value = [] := by
  cases value with
  | object members => cases plain
  | _ => cases n <;> rfl

/-- The path to a text has a name. -/
theorem ne_nil_of_mem_leavesAt {n : ℕ} {value : Json ν} {leaf : List String × String}
    (among : leaf ∈ leavesAt n value) : leaf.1 ≠ [] := by
  cases n with
  | zero =>
      obtain ⟨member, here, found⟩ := List.mem_filterMap.mp among
      obtain ⟨handle, holds, rfl⟩ := Option.map_eq_some_iff.mp found
      exact List.cons_ne_nil _ _
  | succ n =>
      obtain ⟨member, here, below⟩ := List.mem_flatMap.mp among
      obtain ⟨inner, standing, rfl⟩ := List.mem_map.mp below
      exact List.cons_ne_nil _ _

theorem follow_object_cons (members : List (String × Json ν)) (name : String)
    (names : List String) :
    (object members).follow (name :: names) = (find members name).bind fun member =>
      member.follow names := rfl

theorem follow_object_singleton (members : List (String × Json ν)) (name : String) :
    (object members).follow [name] = find members name := by
  rw [follow_object_cons]
  exact Option.bind_fun_some _

/-- No name leads on from a value that is no object. -/
theorem follow_of_not_object {value : Json ν} (plain : value.isObject = false)
    {path : List String} (named : path ≠ []) : value.follow path = none := by
  cases path with
  | nil => exact absurd rfl named
  | cons name names =>
      cases value with
      | object members => cases plain
      | _ => rfl

end Json

end Lib
