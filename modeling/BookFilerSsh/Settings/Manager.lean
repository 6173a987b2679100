import BookFilerSsh.Lib.Json
import BookFilerSsh.Lib.WorkList
import Mathlib.Algebra.Order.BigOperators.Group.List

/-!
# The settings manager

Modules register what they want from the settings file: an object whose texts are
handles, and a map from handles to callbacks. `merge` appends the members of the
object to those of `master` and adds the callbacks whose handles are new. `deploy`
walks `master` beside the settings with a queue of pairs of values, and calls the
callback of every handle with what the settings have under the same path.

rapidjson moves members without copying what they point to, so a document whose members
were merged has to be there when `deployFile` runs, unless they point to nothing in it
(`ModuleRequest.document`).

`deploy` calls each callback once for every place its handle stands at in `master`
and the settings reach, those under shorter paths first (`deploy_eq_levels`); these are
the calls of the recursion the header describes (`deploy_perm_recursive`). The callback
called for a handle is the one of the first module that registered it
(`deployFile_mergeAll`).

`deployFile` ends by an exception for a file without a size, such as a directory. What it
does with settings that are no object depends on the build: rapidjson asserts that they
are one, and the assertions are compiled in or left out (`deployNoObject`).
-/

set_option autoImplicit false

namespace BookFilerSsh

open Lib

variable {ν κ : Type}

/-- `std::string(value.GetString())`: the text up to its first null character. -/
def getString (text : String) : String :=
  String.ofList (text.toList.takeWhile fun character => character ≠ '\x00')

/-- An unordered map from handles to callbacks, which is only asked for handles. -/
abbrev CallbackMap (κ : Type) :=
  String → Option κ

/-- A `rapidjson::Document` of a module. -/
abbrev DocumentId := ℕ

/-- What a module hands to `merge`. -/
structure ModuleRequest (ν : Type) where
  value : Json ν
  /-- The document that has the memory its members point to. Constant strings and short
  texts point to none. -/
  document : Option DocumentId

/-- `SettingsManager`: `master` is an object, given by its members. -/
structure SettingsManager (ν κ : Type) where
  master : List (String × Json ν)
  masterCallbackMap : CallbackMap κ
  /-- The documents that members of `master` point into. -/
  documents : List DocumentId

namespace SettingsManager

/-- `SettingsManager::SettingsManager`. -/
def make : SettingsManager ν κ where
  master := []
  masterCallbackMap := fun _ => none
  documents := []

/-- `SettingsManager::merge`. -/
def merge (manager : SettingsManager ν κ) (moduleRequest : ModuleRequest ν)
    (moduleCallbackMap : CallbackMap κ) : SettingsManager ν κ where
  master := manager.master ++ moduleRequest.value.members?.getD []
  -- `insert` leaves a handle that is there with the callback it has
  masterCallbackMap := fun handle =>
    (manager.masterCallbackMap handle).or (moduleCallbackMap handle)
  documents := manager.documents ++ moduleRequest.document.toList

/-! ## `deploy` -/

section Deploy

variable (callbacks : CallbackMap κ)

/-- What `deploy` does with a member of a master object: the calls it makes, and the
pairs it pushes. -/
def deployMember (settings : List (String × Json ν)) (member : String × Json ν) :
    List (κ × Json ν) × List (Json ν × Json ν) :=
  match Json.find settings member.1 with
  | none => ([], [])
  | some value =>
      if member.2.isObject && value.isObject then ([], [(value, member.2)])
      else
        match member.2.text?.bind fun text => callbacks (getString text) with
        | none => ([], [])
        | some callback => ([(callback, value)], [])

/-- One pass of the loop: the calls, and the pairs pushed. `MemberBegin` asserts that
the master value is an object, and `FindMember`, called for each of its members, that
the settings value is one. -/
def deployPair (pair : Json ν × Json ν) : List (κ × Json ν) × Option (List (Json ν × Json ν)) :=
  match pair.2.members? with
  | none => ([], none)
  | some members =>
      match pair.1.members? with
      | none => ([], if members.isEmpty then some [] else none)
      | some settings =>
          (members.flatMap fun member => (deployMember callbacks settings member).1,
            some (members.flatMap fun member => (deployMember callbacks settings member).2))

/-- At most one pair is pushed for a member, and its master value is the member's. -/
theorem deployMember_pushed (settings : List (String × Json ν)) (member : String × Json ν) :
    (deployMember callbacks settings member).2 = [] ∨
      ∃ value, Json.find settings member.1 = some value ∧ value.isObject = true ∧
        member.2.isObject = true ∧ deployMember callbacks settings member =
          ([], [(value, member.2)]) := by
  unfold deployMember
  split
  · exact Or.inl rfl
  · next value found =>
      split
      · next objects =>
          rw [Bool.and_eq_true] at objects
          exact Or.inr ⟨value, found, objects.2, objects.1, rfl⟩
      · split
        · exact Or.inl rfl
        · exact Or.inl rfl

/-- The pairs pushed for the members are smaller together than the members. -/
theorem sum_pushed_le (settings : List (String × Json ν)) (members : List (String × Json ν)) :
    ((members.flatMap fun member => (deployMember callbacks settings member).2).map
      fun pair => pair.2.size).sum ≤ (members.map fun member => member.2.size).sum := by
  induction members with
  | nil => exact Nat.le_refl _
  | cons member members ih =>
      rw [List.flatMap_cons, List.map_append, List.sum_append, List.map_cons, List.sum_cons]
      refine Nat.add_le_add ?_ ih
      obtain nothing | ⟨value, found, settingsObject, masterObject, pushed⟩ :=
        deployMember_pushed callbacks settings member
      · rw [nothing]
        exact Nat.zero_le _
      · rw [pushed]
        exact Nat.le_refl _

/-- The loop of `deploy`. -/
def deployLoop : WorkList (Json ν × Json ν) (κ × Json ν) where
  handle := deployPair callbacks
  size := fun pair => pair.2.size
  smaller := by
    intro pair next pushed
    obtain ⟨value, masterValue⟩ := pair
    cases masterValue with
    | object members =>
        rw [Json.size_object]
        simp only [deployPair, Json.members?_object] at pushed
        split at pushed
        · split at pushed
          · cases pushed
            exact Nat.succ_pos _
          · cases pushed
        · next settings settingsObject =>
            cases pushed
            exact Nat.lt_succ_of_le (sum_pushed_le callbacks settings members)
    | _ => cases pushed

end Deploy

/-- `SettingsManager::deploy`: the calls it makes, and whether every value that it takes
for an object is one, as rapidjson asserts. -/
def deploy (manager : SettingsManager ν κ) (settings masterObject : Json ν) :
    List (κ × Json ν) × Bool :=
  (deployLoop manager.masterCallbackMap).drain [(settings, masterObject)]

/-! ## What is called -/

section Called

variable (callbacks : CallbackMap κ)

/-- The call made for a handle that stands under a path: its callback, with the value
of the settings under that path. -/
def called (settings : Json ν) (leaf : List String × String) : Option (κ × Json ν) := do
  let value ← settings.follow leaf.1
  let callback ← callbacks (getString leaf.2)
  some (callback, value)

/-- A name that leads nowhere has nothing called below it. -/
theorem filterMap_called_of_absent {settings : List (String × Json ν)} {name : String}
    (absent : Json.find settings name = none) (leaves : List (List String × String)) :
    (leaves.map fun leaf => (name :: leaf.1, leaf.2)).filterMap
      (called callbacks (.object settings)) = [] := by
  rw [List.filterMap_map, List.filterMap_eq_nil_iff]
  intro leaf among
  simp only [Function.comp_apply, called, Json.follow_object_cons, absent, Option.bind_none,
    Option.bind_eq_bind]

/-- Below a name, what is called is what is called in its value. -/
theorem filterMap_called_of_found {settings : List (String × Json ν)} {name : String}
    {value : Json ν} (found : Json.find settings name = some value)
    (leaves : List (List String × String)) :
    (leaves.map fun leaf => (name :: leaf.1, leaf.2)).filterMap
      (called callbacks (.object settings)) = leaves.filterMap (called callbacks value) := by
  rw [List.filterMap_map]
  refine List.filterMap_congr ?_
  intro leaf among
  simp only [Function.comp_apply, called, Json.follow_object_cons, found, Option.bind_some]

/-- The call made for a member is the one for the handle it holds. -/
theorem deployMember_calls (settings : List (String × Json ν)) (member : String × Json ν) :
    (deployMember callbacks settings member).1 =
      ((member.2.text?.map fun handle => ([member.1], handle)).bind
        (called callbacks (.object settings))).toList := by
  obtain ⟨name, masterValue⟩ := member
  unfold deployMember
  cases found : Json.find settings name with
  | none =>
      cases holds : masterValue.text? with
      | none => rfl
      | some handle =>
          simp only [Option.map_some, Option.bind_some, called, Json.follow_object_cons, found,
            Option.bind_none, Option.bind_eq_bind, Option.toList_none]
  | some value =>
      cases masterValue with
      | object members => cases value <;> rfl
      | text handle =>
          simp only [Json.isObject, Json.text?, Bool.false_and, Bool.false_eq_true, if_false,
            Option.bind_some, Option.map_some, called, Json.follow_object_singleton, found,
            Option.bind_eq_bind]
          cases callbacks (getString handle) <;> rfl
      | _ => rfl

/-- What is called below a member is what is called in the pair it pushes. -/
theorem deployMember_below (settings : List (String × Json ν)) (member : String × Json ν)
    (n : ℕ) (below : Json ν × Json ν → List (κ × Json ν))
    (belowPair : ∀ pair : Json ν × Json ν, pair.1.isObject = true → pair.2.isObject = true →
      below pair = (pair.2.leavesAt n).filterMap (called callbacks pair.1)) :
    (deployMember callbacks settings member).2.flatMap below =
      ((member.2.leavesAt n).map fun leaf => (member.1 :: leaf.1, leaf.2)).filterMap
        (called callbacks (.object settings)) := by
  obtain ⟨name, masterValue⟩ := member
  unfold deployMember
  cases found : Json.find settings name with
  | none => exact (filterMap_called_of_absent callbacks found _).symm
  | some value =>
      rw [filterMap_called_of_found callbacks found]
      cases masterObject : masterValue.isObject with
      | false =>
          rw [Json.leavesAt_of_not_object masterObject]
          simp only [Bool.false_and, Bool.false_eq_true, if_false]
          split <;> rfl
      | true =>
          cases settingsObject : value.isObject with
          | true =>
              simp only [settingsObject, Bool.and_self, if_true]
              rw [List.flatMap_singleton]
              exact belowPair (value, masterValue) settingsObject masterObject
          | false =>
              have nothing : (masterValue.leavesAt n).filterMap (called callbacks value) = [] := by
                rw [List.filterMap_eq_nil_iff]
                intro leaf among
                rw [called, Json.follow_of_not_object settingsObject
                  (Json.ne_nil_of_mem_leavesAt among)]
                rfl
              rw [nothing]
              simp only [settingsObject, Bool.true_and, Bool.false_eq_true, if_false]
              split <;> rfl

/-! ## Level by level -/

/-- Both values are objects. -/
def Objects (pair : Json ν × Json ν) : Prop :=
  pair.1.isObject = true ∧ pair.2.isObject = true

/-- The calls made for a pair. -/
def callsAt (pair : Json ν × Json ν) : List (κ × Json ν) :=
  (deployPair callbacks pair).1

/-- The pairs pushed for a pair. -/
def pushedAt (pair : Json ν × Json ν) : List (Json ν × Json ν) :=
  (deployPair callbacks pair).2.getD []

theorem deployPair_object (settings members : List (String × Json ν)) :
    deployPair callbacks (.object settings, .object members) =
      (members.flatMap fun member => (deployMember callbacks settings member).1,
        some (members.flatMap fun member => (deployMember callbacks settings member).2)) := rfl

/-- Pairs of objects push pairs of objects: no assertion fails below them. -/
theorem deployLoop_closed :
    (deployLoop (ν := ν) callbacks).Closed Objects (callsAt callbacks) (pushedAt callbacks) where
  handle_eq := by
    intro pair objects
    obtain ⟨value, masterValue⟩ := pair
    obtain ⟨settings, rfl⟩ := Json.isObject_iff.mp objects.1
    obtain ⟨members, rfl⟩ := Json.isObject_iff.mp objects.2
    rfl
  children_closed := by
    intro pair objects child among
    obtain ⟨value, masterValue⟩ := pair
    obtain ⟨settings, rfl⟩ := Json.isObject_iff.mp objects.1
    obtain ⟨members, rfl⟩ := Json.isObject_iff.mp objects.2
    obtain ⟨member, here, pushed⟩ := List.mem_flatMap.mp among
    obtain nothing | ⟨value, found, settingsObject, masterObject, pushes⟩ :=
      deployMember_pushed callbacks settings member
    · rw [nothing] at pushed
      cases pushed
    · rw [pushes, List.mem_singleton] at pushed
      subst pushed
      exact ⟨settingsObject, masterObject⟩

/-- The calls of one level of the loop are those for the handles under paths of one
length. -/
theorem level_eq (n : ℕ) (pair : Json ν × Json ν) (objects : Objects pair) :
    WorkList.level (callsAt callbacks) (pushedAt callbacks) n pair =
      (pair.2.leavesAt n).filterMap (called callbacks pair.1) := by
  induction n generalizing pair with
  | zero =>
      obtain ⟨value, masterValue⟩ := pair
      obtain ⟨settings, rfl⟩ := Json.isObject_iff.mp objects.1
      obtain ⟨members, rfl⟩ := Json.isObject_iff.mp objects.2
      rw [WorkList.level, callsAt, deployPair_object, Json.leavesAt_zero_object,
        List.filterMap_filterMap, List.filterMap_eq_flatMap_toList]
      exact List.flatMap_congr fun member among => deployMember_calls callbacks settings member
  | succ n ih =>
      obtain ⟨value, masterValue⟩ := pair
      obtain ⟨settings, rfl⟩ := Json.isObject_iff.mp objects.1
      obtain ⟨members, rfl⟩ := Json.isObject_iff.mp objects.2
      rw [WorkList.level, pushedAt, deployPair_object, Option.getD_some, List.flatMap_assoc,
        Json.leavesAt_succ_object, List.filterMap_flatMap]
      refine List.flatMap_congr fun member among => ?_
      refine deployMember_below callbacks settings member n _ ?_
      intro child settingsObject masterObject
      exact ih child ⟨settingsObject, masterObject⟩

/-- The loop is over after as many levels as `master` has. -/
theorem endsBy_depth (n : ℕ) (pair : Json ν × Json ν) (objects : Objects pair)
    (deep : pair.2.depth ≤ n) : WorkList.EndsBy (pushedAt callbacks) n pair := by
  induction n generalizing pair with
  | zero =>
      obtain ⟨members, masterObject⟩ := Json.isObject_iff.mp objects.2
      rw [masterObject, Json.depth_object] at deep
      exact absurd deep (Nat.not_succ_le_zero _)
  | succ n ih =>
      intro child among
      have childObjects := (deployLoop_closed callbacks).children_closed pair objects child among
      refine ih child childObjects ?_
      obtain ⟨value, masterValue⟩ := pair
      obtain ⟨settings, rfl⟩ := Json.isObject_iff.mp objects.1
      obtain ⟨members, rfl⟩ := Json.isObject_iff.mp objects.2
      obtain ⟨member, here, pushed⟩ := List.mem_flatMap.mp among
      have shallower := Json.depth_member_lt here
      obtain nothing | ⟨value, found, settingsObject, masterObject, pushes⟩ :=
        deployMember_pushed callbacks settings member
      · rw [nothing] at pushed
        cases pushed
      · rw [pushes, List.mem_singleton] at pushed
        subst pushed
        exact Nat.le_of_lt_succ (Nat.lt_of_lt_of_le shallower deep)

end Called

/-- The calls for the handles of a master object, those under shorter paths first. -/
def levels (callbacks : CallbackMap κ) (settings masterObject : Json ν) : List (κ × Json ν) :=
  (List.range masterObject.depth).flatMap fun n =>
    (masterObject.leavesAt n).filterMap (called callbacks settings)

/-- **Every handle is deployed once for each place it stands at.** Beside settings
that are an object, `deploy` calls the callback of every handle in the master object
with the value the settings have under the handle's path, those under shorter paths
first and otherwise in the order of the members. On settings that are no object it calls
nothing, and takes them for one unless the object is empty. -/
theorem deploy_eq_levels (manager : SettingsManager ν κ) (settings : Json ν)
    (members : List (String × Json ν)) :
    manager.deploy settings (.object members) =
      if settings.isObject then
        (levels manager.masterCallbackMap settings (.object members), true)
      else ([], members.isEmpty) := by
  cases settingsObject : settings.isObject with
  | true =>
      have objects : Objects (settings, Json.object members) := ⟨settingsObject, rfl⟩
      have allowed : ∀ pair ∈ [(settings, Json.object members)], Objects pair := by
        intro pair among
        rw [List.mem_singleton.mp among]
        exact objects
      have ends : ∀ pair ∈ [(settings, Json.object members)],
          WorkList.EndsBy (pushedAt manager.masterCallbackMap)
            (Json.object members).depth pair := by
        intro pair among
        rw [List.mem_singleton.mp among]
        exact endsBy_depth _ _ _ objects le_rfl
      rw [deploy, (deployLoop_closed manager.masterCallbackMap).drain_eq_levels
        (Json.object members).depth allowed ends, if_pos rfl, levels]
      simp only [List.flatMap_singleton, level_eq _ _ _ objects]
  | false =>
      have handled : deployPair manager.masterCallbackMap (settings, Json.object members) =
          ([], if members.isEmpty then some [] else none) := by
        cases settings with
        | object inner => cases settingsObject
        | _ => rfl
      rw [deploy, if_neg Bool.false_ne_true]
      cases members with
      | nil =>
          have continues : ((deployLoop manager.masterCallbackMap).handle
              (settings, Json.object [])).2 = some [] := congrArg Prod.snd handled
          rw [WorkList.drain_cons_of_continues continues, List.append_nil, WorkList.drain_nil]
          exact congrArg (fun output => (output ++ [], true)) (congrArg Prod.fst handled)
      | cons member members =>
          have stops : ((deployLoop manager.masterCallbackMap).handle
              (settings, Json.object (member :: members))).2 = none := congrArg Prod.snd handled
          rw [WorkList.drain_cons_of_stops stops]
          exact congrArg (fun output => (output, false)) (congrArg Prod.fst handled)

/-! ## The recursive description -/

/-- Deploying as the header describes it: recursively, member by member. -/
def deployRecursive (callbacks : CallbackMap κ) (settings : Json ν) : Json ν → List (κ × Json ν)
  | .object members => members.attach.flatMap fun member =>
      match settings.follow [member.1.1] with
      | none => []
      | some value =>
          if member.1.2.isObject && value.isObject then
            deployRecursive callbacks value member.1.2
          else
            match member.1.2.text?.bind fun text => callbacks (getString text) with
            | none => []
            | some callback => [(callback, value)]
  | _ => []
termination_by masterValue => sizeOf masterValue
decreasing_by exact Json.sizeOf_member_lt member.2

/-- What the recursion does with one member. -/
def recurseMember (callbacks : CallbackMap κ) (settings : List (String × Json ν))
    (member : String × Json ν) : List (κ × Json ν) :=
  (deployMember callbacks settings member).1 ++
    (deployMember callbacks settings member).2.flatMap fun pair =>
      deployRecursive callbacks pair.1 pair.2

theorem deployRecursive_object (callbacks : CallbackMap κ)
    (settings members : List (String × Json ν)) :
    deployRecursive callbacks (.object settings) (.object members) =
      members.flatMap (recurseMember callbacks settings) := by
  have plain : members.flatMap (recurseMember callbacks settings) =
      members.attach.flatMap fun member => recurseMember callbacks settings member.1 := by
    rw [← List.flatMap_map Subtype.val (recurseMember callbacks settings) members.attach,
      List.attach_map_subtype_val]
  rw [deployRecursive, plain]
  refine List.flatMap_congr ?_
  intro member among
  obtain ⟨⟨name, masterValue⟩, here⟩ := member
  rw [Json.follow_object_singleton, recurseMember, deployMember]
  cases Json.find settings name with
  | none => rfl
  | some value =>
      cases objects : masterValue.isObject && value.isObject with
      | true => simp only [objects, if_true, List.nil_append, List.flatMap_singleton]
      | false =>
          simp only [objects, Bool.false_eq_true, if_false]
          split <;> rfl

/-- The recursion visits pairs of objects. -/
theorem deployRecursive_visits (callbacks : CallbackMap κ) :
    WorkList.Visits (Objects (ν := ν)) (callsAt callbacks) (pushedAt callbacks) fun pair =>
      deployRecursive callbacks pair.1 pair.2 := by
  intro pair objects
  obtain ⟨value, masterValue⟩ := pair
  obtain ⟨settings, rfl⟩ := Json.isObject_iff.mp objects.1
  obtain ⟨members, rfl⟩ := Json.isObject_iff.mp objects.2
  show (deployRecursive callbacks (.object settings) (.object members)).Perm _
  rw [deployRecursive_object, callsAt, pushedAt, deployPair_object, Option.getD_some,
    List.flatMap_assoc]
  exact (List.flatMap_append_perm members _ _).symm

/-- **The loop calls what the recursive description calls.** Beside settings that are an
object, the callbacks called, the values they are called with and how often are those of
the recursion; only the order differs. -/
theorem deploy_perm_recursive (manager : SettingsManager ν κ)
    (settings members : List (String × Json ν)) :
    (manager.deploy (.object settings) (.object members)).1.Perm
      (deployRecursive manager.masterCallbackMap (.object settings) (.object members)) :=
  (deployLoop_closed manager.masterCallbackMap).drain_perm_visit
    (deployRecursive_visits manager.masterCallbackMap) (Json.object members).depth ⟨rfl, rfl⟩
    (endsBy_depth _ _ _ ⟨rfl, rfl⟩ le_rfl)

/-! ## `deployFile` -/

/-- How `deployFile` ends when it does not return. -/
inductive DeployFault where
  /-- `std::length_error` is thrown. -/
  | lengthError
  /-- An assertion of rapidjson fails and stops the program. -/
  | assertion
  /-- Memory may be read as members that holds none. What happens then is left open. -/
  | undefined
  deriving DecidableEq, Repr

/-- An open `std::fstream`. -/
structure FileStream where
  /-- What `tellg` gives at the end, unless it is -1 or more than a string can hold. -/
  tellg : Option ℕ
  bytes : List UInt8

/-- `readFile`: a string of blanks as long as the file, into which the file is read. -/
def readFile (fileStream : FileStream) : Except DeployFault (List UInt8) :=
  match fileStream.tellg with
  | none => .error .lengthError
  | some size => .ok ((fileStream.bytes.take size).rightpad size 32)

/-- What the two openings of the settings file find: whether it is there, and then
the file to be read. -/
structure SettingsFile where
  found : Bool
  settingsFile : Option FileStream

/-- Values that rapidjson stores like an object without members. -/
def likeEmptyObject : Json ν → Bool
  | .null | .bool _ | .array [] => true
  | _ => false

/-- What comes of settings that are taken for an object and are none: the assertion fails,
or, in a build without assertions, members are looked for where there are none. -/
def deployNoObject (assertions : Bool) (settings : Json ν) : Except DeployFault Bool :=
  if assertions then .error .assertion
  else if likeEmptyObject settings then .ok true
  else .error .undefined

/-- `SettingsManager::deployFile`: the calls it makes, and what it returns. `assertions` says
how rapidjson was built, `alive` which documents are there, and `parse` is
`Document::Parse`, which stops at a null character. -/
def deployFile (assertions : Bool) (alive : DocumentId → Bool)
    (parse : List UInt8 → Option (Json ν)) (file : SettingsFile) (manager : SettingsManager ν κ) :
    List (κ × Json ν) × Except DeployFault Bool :=
  if file.found then
    match file.settingsFile with
    | none => ([], .ok true)
    | some settingsFile =>
        match readFile settingsFile with
        | .error fault => ([], .error fault)
        | .ok contentStr =>
            match parse (contentStr.takeWhile (· ≠ 0)) with
            | none => ([], .ok false)
            | some settings =>
                if manager.documents.all alive then
                  let deployed := manager.deploy settings (.object manager.master)
                  (deployed.1, if deployed.2 then .ok true else deployNoObject assertions settings)
                else ([], .error .undefined)
  else ([], .ok false)

/-- The settings in a file, if there are any that can be parsed. -/
def SettingsFile.read (parse : List UInt8 → Option (Json ν)) (file : SettingsFile) :
    Except DeployFault (Option (Json ν)) :=
  if file.found then
    match file.settingsFile with
    | none => .ok none
    | some settingsFile => (readFile settingsFile).map fun contentStr =>
        parse (contentStr.takeWhile (· ≠ 0))
  else .ok none

section DeployFile

variable (assertions : Bool) (alive : DocumentId → Bool) {parse : List UInt8 → Option (Json ν)}
  {file : SettingsFile} (manager : SettingsManager ν κ)

/-- Settings are deployed, while the documents that were merged are there. -/
theorem deployFile_of_settings {settings : Json ν} (read : file.read parse = .ok (some settings))
    (kept : manager.documents.all alive = true) :
    manager.deployFile assertions alive parse file =
      ((manager.deploy settings (.object manager.master)).1,
        if (manager.deploy settings (.object manager.master)).2 then .ok true
        else deployNoObject assertions settings) := by
  obtain ⟨found, settingsFile⟩ := file
  cases found with
  | false => cases read
  | true =>
      cases settingsFile with
      | none => cases read
      | some settingsFile =>
          simp only [SettingsFile.read, if_true] at read
          cases contents : readFile settingsFile with
          | error fault =>
              rw [contents] at read
              cases read
          | ok contentStr =>
              rw [contents] at read
              have parsed : parse (contentStr.takeWhile (· ≠ 0)) = some settings :=
                Except.ok.inj read
              simp only [deployFile, contents, parsed, kept, if_true]

/-- Without settings nothing is called. -/
theorem deployFile_of_none (unread : file.read parse = .ok none) :
    manager.deployFile assertions alive parse file =
      ([], .ok (file.found && file.settingsFile.isNone)) := by
  obtain ⟨found, settingsFile⟩ := file
  cases found with
  | false => rfl
  | true =>
      cases settingsFile with
      | none => rfl
      | some settingsFile =>
          simp only [SettingsFile.read, if_true] at unread
          cases contents : readFile settingsFile with
          | error fault =>
              rw [contents] at unread
              cases unread
          | ok contentStr =>
              rw [contents] at unread
              have parsed : parse (contentStr.takeWhile (· ≠ 0)) = none := Except.ok.inj unread
              simp only [deployFile, contents, parsed, if_true]
              rfl

/-- The exception of `readFile` leaves `deployFile`. -/
theorem deployFile_of_error {fault : DeployFault} (failed : file.read parse = .error fault) :
    manager.deployFile assertions alive parse file = ([], .error fault) := by
  obtain ⟨found, settingsFile⟩ := file
  cases found with
  | false => cases failed
  | true =>
      cases settingsFile with
      | none => cases failed
      | some settingsFile =>
          simp only [SettingsFile.read, if_true] at failed
          cases contents : readFile settingsFile with
          | error thrown =>
              rw [contents] at failed
              cases failed
              simp only [deployFile, contents, if_true]
          | ok contentStr =>
              rw [contents] at failed
              cases failed

end DeployFile

/-! ## Several modules -/

/-- The manager after the requests of several modules have been merged, in order. -/
def mergeAll (registered : List (ModuleRequest ν × CallbackMap κ)) : SettingsManager ν κ :=
  registered.foldl (fun manager request => manager.merge request.1 request.2) make

theorem mergeAll_concat (registered : List (ModuleRequest ν × CallbackMap κ))
    (request : ModuleRequest ν × CallbackMap κ) :
    mergeAll (registered ++ [request]) = (mergeAll registered).merge request.1 request.2 := by
  rw [mergeAll, List.foldl_append]
  rfl

/-- `master` holds the members of all requests. -/
theorem master_mergeAll (registered : List (ModuleRequest ν × CallbackMap κ)) :
    (mergeAll registered).master = registered.flatMap fun request =>
      request.1.value.members?.getD [] := by
  induction registered using List.reverseRecOn with
  | nil => rfl
  | append_singleton registered request ih =>
      rw [mergeAll_concat, List.flatMap_append, List.flatMap_singleton, ← ih]
      rfl

/-- The documents that have to be there are those of the requests. -/
theorem documents_mergeAll (registered : List (ModuleRequest ν × CallbackMap κ)) :
    (mergeAll registered).documents = registered.flatMap fun request =>
      request.1.document.toList := by
  induction registered using List.reverseRecOn with
  | nil => rfl
  | append_singleton registered request ih =>
      rw [mergeAll_concat, List.flatMap_append, List.flatMap_singleton, ← ih]
      rfl

/-- The callback of the first module that registered a handle. -/
def firstRegistered (registered : List (ModuleRequest ν × CallbackMap κ)) : CallbackMap κ :=
  fun handle => registered.findSome? fun request => request.2 handle

/-- A handle stands for the callback that was registered for it first. -/
theorem masterCallbackMap_mergeAll (registered : List (ModuleRequest ν × CallbackMap κ)) :
    (mergeAll registered).masterCallbackMap = firstRegistered registered := by
  funext handle
  induction registered using List.reverseRecOn with
  | nil => rfl
  | append_singleton registered request ih =>
      rw [mergeAll_concat, firstRegistered, List.findSome?_append, List.findSome?_singleton]
      exact congrArg (fun first : Option κ => first.or (request.2 handle)) ih

/-- The handles under paths of one length are those of one request after the other. -/
theorem leavesAt_mergeAll (registered : List (ModuleRequest ν × CallbackMap κ)) (n : ℕ) :
    (Json.object (mergeAll registered).master).leavesAt n =
      registered.flatMap fun request => request.1.value.leavesAt n := by
  have members : ∀ value : Json ν,
      (Json.object (value.members?.getD [])).leavesAt n = value.leavesAt n := by
    intro value
    cases value with
    | object inner => rfl
    | _ => cases n <;> rfl
  rw [master_mergeAll]
  cases n with
  | zero =>
      rw [Json.leavesAt_zero_object, List.filterMap_flatMap]
      exact List.flatMap_congr fun request among => members request.1.value
  | succ n =>
      rw [Json.leavesAt_succ_object, List.flatMap_assoc]
      exact List.flatMap_congr fun request among => members request.1.value

/-- The calls made for the requests of several modules, request by request. -/
def requested (registered : List (ModuleRequest ν × CallbackMap κ)) (settings : Json ν) :
    List (κ × Json ν) :=
  (List.range (Json.object (mergeAll registered).master).depth).flatMap fun n =>
    registered.flatMap fun request =>
      (request.1.value.leavesAt n).filterMap (called (firstRegistered registered) settings)

theorem deploy_mergeAll (registered : List (ModuleRequest ν × CallbackMap κ)) (settings : Json ν) :
    (mergeAll registered).deploy settings (.object (mergeAll registered).master) =
      if settings.isObject then (requested registered settings, true)
      else ([], (mergeAll registered).master.isEmpty) := by
  rw [deploy_eq_levels]
  simp only [levels, requested, leavesAt_mergeAll, List.filterMap_flatMap,
    masterCallbackMap_mergeAll]

/-- **What a settings file does after any modules have registered**, when the documents of
their requests are there as far as their members point into them. When the file holds an
object, every handle is deployed once for each place it stands at in the requests: to the
callback of the first module that registered it, with the value under its path, those
under shorter paths first, then module by module. When there is nothing in it that can be
parsed, nothing is called and `deployFile` returns; when the file has no size, the exception
of `readFile` leaves it. When it holds anything else, nothing is called, and unless no module
asked for anything the build decides what comes of it. -/
theorem deployFile_mergeAll (assertions : Bool) (alive : DocumentId → Bool)
    (parse : List UInt8 → Option (Json ν)) (file : SettingsFile)
    (registered : List (ModuleRequest ν × CallbackMap κ))
    (kept : ∀ request ∈ registered, ∀ document ∈ request.1.document, alive document = true) :
    (mergeAll registered).deployFile assertions alive parse file =
      match file.read parse with
      | .error fault => ([], .error fault)
      | .ok none => ([], .ok (file.found && file.settingsFile.isNone))
      | .ok (some settings) =>
          if settings.isObject then (requested registered settings, .ok true)
          else if (mergeAll registered).master = [] then ([], .ok true)
          else ([], deployNoObject assertions settings) := by
  have held : (mergeAll registered).documents.all alive = true := by
    rw [documents_mergeAll, List.all_eq_true]
    intro document among
    obtain ⟨request, here, own⟩ := List.mem_flatMap.mp among
    exact kept request here document (Option.mem_toList.mp own)
  cases read : file.read parse with
  | error fault => exact deployFile_of_error assertions alive _ read
  | ok settings =>
      cases settings with
      | none => exact deployFile_of_none assertions alive _ read
      | some settings =>
          rw [deployFile_of_settings assertions alive _ read held, deploy_mergeAll]
          cases settingsObject : settings.isObject with
          | true => simp only [settingsObject, if_true]
          | false =>
              simp only [settingsObject, Bool.false_eq_true, if_false, List.isEmpty_iff]
              split <;> rfl

/-- The text of an object with an object `a` that has a `b`, which is null. -/
def nestedText : List UInt8 :=
  [123, 34, 97, 34, 58, 123, 34, 98, 34, 58, 110, 117, 108, 108, 125, 125]

/-- What is parsed of that text. -/
def parseNested (text : List UInt8) : Option (Json ℕ) :=
  if text = nestedText then some (.object [("a", .object [("b", .null)])]) else none

/-- A file that holds the text. -/
def nestedFile : SettingsFile where
  found := true
  settingsFile := some ⟨some 16, nestedText⟩

/-- The first module asks for `b` in `a`, in an object of its document, the second for `a`. -/
def nestedRequests : List (ModuleRequest ℕ × CallbackMap ℕ) :=
  [(⟨.object [("a", .object [("b", .text "h")])], some 0⟩,
      fun handle => if handle = "h" then some 1 else none),
    (⟨.object [("a", .text "k")], none⟩,
      fun handle => if handle = "h" ∨ handle = "k" then some 2 else none)]

/-- `a` is deployed to the second module, and then `b` to the first, whose document is there. -/
theorem deployFile_mergeAll_nested :
    (mergeAll nestedRequests).deployFile false (fun document => decide (document = 0)) parseNested
        nestedFile = ([(2, .object [("b", .null)]), (1, .null)], .ok true) := by
  have deployed := deployFile_mergeAll false (fun document => decide (document = 0)) parseNested
    nestedFile nestedRequests (by decide)
  have read : nestedFile.read parseNested =
      .ok (some (.object [("a", .object [("b", .null)])])) := by rfl
  have deep : (Json.object (mergeAll nestedRequests).master).depth = 2 := by
    have master : (mergeAll nestedRequests).master =
        [("a", .object [("b", .text "h")]), ("a", .text "k")] := rfl
    have flat (handle : String) : (Json.text handle : Json ℕ).depth = 0 :=
      Json.depth_of_not_object rfl
    simp [master, Json.depth_object, flat]
  rw [deployed, read]
  simp only [Json.isObject_object, if_true, requested, deep]
  rfl

end SettingsManager

end BookFilerSsh
