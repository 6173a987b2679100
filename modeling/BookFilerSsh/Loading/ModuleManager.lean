import Mathlib.Algebra.Group.Nat.Defs
import Mathlib.Data.List.Perm.Subperm
import Mathlib.Data.List.Flatten
import Mathlib.Data.List.Nodup
import Mathlib.Data.List.Induction

/-!
# The module manager

`loadModules` walks a directory and tries to import every interface from every shared
library it finds there. An import that succeeds is signalled with the first module the
interface ever had, and counted; when the count is the number of interfaces, the load
of all modules is signalled. Importing is `boost::dll::import`, here an `Importer`: the
module a library has under a name, if it can be loaded.

The interfaces are in an unordered map, which is run through in the order it is given
here.

The modules signalled are those of the first library that has them
(`loaded_mem_iff`). The count is compared with the number of interfaces, and not the
interfaces that have a module: the signal for all modules is given after that many
imports, of whichever interfaces (`loadAll_after`), and again whenever the 32 bits of
the count come round (`count_loadAll`).
-/

set_option autoImplicit false

namespace BookFilerSsh.Loading

variable {μ : Type}

/-- A file found under the directory. -/
structure DirectoryEntry where
  path : String
  regular : Bool

/-- `text.find(pattern) != std::string::npos`. -/
def finds (text pattern : String) : Bool :=
  text.toList.tails.any fun tail => pattern.toList.isPrefixOf tail

/-- The condition under which `loadModules` loads a file. -/
def DirectoryEntry.isLibrary (entry : DirectoryEntry) : Bool :=
  entry.regular &&
    (finds entry.path ".dll" || finds entry.path ".dylib" || finds entry.path ".so")

/-- `boost::dll::import`: the module a library has under a name. -/
abbrev Importer (μ : Type) :=
  String → String → Option μ

/-- `InterfaceMethods`. -/
structure InterfaceMethods (μ : Type) where
  moduleName : String
  modulePtrs : List μ

/-- `ModuleManager`. -/
structure ModuleManager (μ : Type) where
  interfaceMap : List (InterfaceMethods μ)
  modulesLoadedNum : UInt32

/-- The signals that are given. -/
inductive LoadEvent (μ : Type) where
  | loaded (moduleName : String) (module_ : μ)
  | loadAll
  deriving DecidableEq

/-- The names given to `addModule`, in the order the map is run through. -/
structure Interfaces where
  names : List String
  distinct : names.Nodup

/-- `ModuleManager::ModuleManager`, and an `addModule` for each name. -/
def ModuleManager.make (names : List String) : ModuleManager μ where
  interfaceMap := names.map fun name => ⟨name, []⟩
  modulesLoadedNum := 0

/-- `InterfaceMethods::addPath`, when it returns 0. -/
def InterfaceMethods.addPath (importer : Importer μ) (path : String)
    (interface : InterfaceMethods μ) : Option (InterfaceMethods μ) :=
  (importer path interface.moduleName).map fun module_ =>
    { interface with modulePtrs := interface.modulePtrs ++ [module_] }

/-- `InterfaceMethods::callLoadedSignal`: the signal carries `modulePtrs.front()`. -/
def InterfaceMethods.callLoadedSignal (interface : InterfaceMethods μ) : List (LoadEvent μ) :=
  interface.modulePtrs.head?.toList.map (LoadEvent.loaded interface.moduleName)

/-- The body of the inner loop of `loadModules`, for the interface at a position. -/
def loadInterface (importer : Importer μ) (path : String)
    (state : ModuleManager μ × List (LoadEvent μ)) (position : ℕ) :
    ModuleManager μ × List (LoadEvent μ) :=
  match state.1.interfaceMap[position]?.bind (InterfaceMethods.addPath importer path) with
  | none => state
  | some interface =>
      let modulesLoadedNum := state.1.modulesLoadedNum + 1
      let all := if modulesLoadedNum.toNat = state.1.interfaceMap.length then [LoadEvent.loadAll]
        else []
      ({ interfaceMap := state.1.interfaceMap.set position interface
         modulesLoadedNum := modulesLoadedNum },
        state.2 ++ interface.callLoadedSignal ++ all)

/-- The inner loop of `loadModules`. -/
def loadPath (importer : Importer μ) (state : ModuleManager μ × List (LoadEvent μ))
    (path : String) : ModuleManager μ × List (LoadEvent μ) :=
  (List.range state.1.interfaceMap.length).foldl (loadInterface importer path) state

/-- `ModuleManager::loadModules`, with the signals it gives. -/
def ModuleManager.loadModules (importer : Importer μ) (directory : List DirectoryEntry)
    (manager : ModuleManager μ) : ModuleManager μ × List (LoadEvent μ) :=
  directory.foldl (fun state entry =>
    if entry.isLibrary then loadPath importer state entry.path else state) (manager, [])

/-- The signals given when the interfaces are loaded from a directory. -/
def signals (importer : Importer μ) (interfaces : Interfaces) (directory : List DirectoryEntry) :
    List (LoadEvent μ) :=
  ((ModuleManager.make interfaces.names).loadModules importer directory).2

/-! ## Imports -/

/-- The imports that succeed for one library, in order. -/
def importsFrom (importer : Importer μ) (names : List String) (path : String) :
    List (String × μ) :=
  names.filterMap fun name => (importer path name).map fun module_ => (name, module_)

theorem importsFrom_concat (importer : Importer μ) (names : List String) (name path : String) :
    importsFrom importer (names ++ [name]) path = importsFrom importer names path ++
      ((importer path name).map fun module_ => (name, module_)).toList := by
  rw [importsFrom, List.filterMap_append]
  rfl

/-- The libraries of a directory. -/
def libraries (directory : List DirectoryEntry) : List String :=
  (directory.filter DirectoryEntry.isLibrary).map DirectoryEntry.path

/-- The imports that succeed, in order. -/
def imports (importer : Importer μ) (names : List String) (directory : List DirectoryEntry) :
    List (String × μ) :=
  (libraries directory).flatMap (importsFrom importer names)

theorem imports_concat (importer : Importer μ) (names : List String)
    (directory : List DirectoryEntry) (entry : DirectoryEntry) :
    imports importer names (directory ++ [entry]) = imports importer names directory ++
      if entry.isLibrary then importsFrom importer names entry.path else [] := by
  rw [imports, libraries, List.filter_append, List.map_append, List.flatMap_append]
  cases library : entry.isLibrary with
  | true =>
      rw [List.filter_cons_of_pos library, List.filter_nil, List.map_singleton,
        List.flatMap_singleton]
      rfl
  | false =>
      rw [List.filter_cons_of_neg (by simp only [library, Bool.false_eq_true, not_false_eq_true])]
      rfl

theorem loadModules_concat (importer : Importer μ) (directory : List DirectoryEntry)
    (entry : DirectoryEntry) (manager : ModuleManager μ) :
    manager.loadModules importer (directory ++ [entry]) =
      if entry.isLibrary then
        loadPath importer (manager.loadModules importer directory) entry.path
      else manager.loadModules importer directory := by
  rw [ModuleManager.loadModules, List.foldl_append]
  rfl

/-- The first module imported under a name. -/
def firstModule (imported : List (String × μ)) (name : String) : Option μ :=
  (imported.find? fun success => success.1 == name).map Prod.snd

/-- The signals given for the import at a position. -/
def announce (interfaces : ℕ) (imported : List (String × μ)) (success : (String × μ) × ℕ) :
    List (LoadEvent μ) :=
  (firstModule imported success.1.1).toList.map (LoadEvent.loaded success.1.1) ++
    if (success.2 + 1) % 2 ^ 32 = interfaces then [LoadEvent.loadAll] else []

/-- The signals given for the imports. -/
def announcements (interfaces : ℕ) (imported : List (String × μ)) : List (LoadEvent μ) :=
  imported.zipIdx.flatMap (announce interfaces imported)

theorem firstModule_append_of_mem {imported : List (String × μ)} {success : String × μ}
    (among : success ∈ imported) (later : List (String × μ)) :
    firstModule (imported ++ later) success.1 = firstModule imported success.1 := by
  have found : (imported.find? fun other => other.1 == success.1).isSome = true := by
    rw [List.find?_isSome]
    exact ⟨success, among, beq_self_eq_true _⟩
  rw [firstModule, List.find?_append, Option.or_of_isSome found, firstModule]

/-- A further import leaves the signals given before as they are. -/
theorem announcements_concat (interfaces : ℕ) (imported : List (String × μ))
    (success : String × μ) :
    announcements interfaces (imported ++ [success]) =
      announcements interfaces imported ++
        announce interfaces (imported ++ [success]) (success, imported.length) := by
  rw [announcements, List.zipIdx_append, List.flatMap_append]
  congr 1
  · refine List.flatMap_congr ?_
    intro entry among
    obtain ⟨other, position⟩ := entry
    have member := (List.mem_zipIdx among).2.2
    have inList : other ∈ imported := by
      rw [member]
      exact List.getElem_mem _
    rw [announce, announce, firstModule_append_of_mem inList]
  · rw [List.zipIdx_singleton, List.flatMap_singleton, Nat.zero_add]

/-! ## The manager after some imports -/

/-- The modules imported under a name, in order. -/
def modulesOf (imported : List (String × μ)) (name : String) : List μ :=
  (imported.filter fun success => success.1 == name).map Prod.snd

theorem modulesOf_concat_self (imported : List (String × μ)) (name : String) (module_ : μ) :
    modulesOf (imported ++ [(name, module_)]) name = modulesOf imported name ++ [module_] := by
  rw [modulesOf, List.filter_append, List.map_append, List.filter_cons_of_pos (by simp)]
  rfl

theorem modulesOf_concat_other (imported : List (String × μ)) {name other : String}
    (different : name ≠ other) (module_ : μ) :
    modulesOf (imported ++ [(name, module_)]) other = modulesOf imported other := by
  rw [modulesOf, List.filter_append, List.filter_cons_of_neg (by simpa using different),
    List.filter_nil, List.append_nil, modulesOf]

theorem head?_modulesOf (imported : List (String × μ)) (name : String) :
    (modulesOf imported name).head? = firstModule imported name := by
  rw [modulesOf, List.head?_map, List.head?_filter, firstModule]

/-- What a manager with these interfaces holds, and has signalled, after some imports. -/
structure After (names : List String) (imported : List (String × μ))
    (state : ModuleManager μ × List (LoadEvent μ)) : Prop where
  interfaceMap : state.1.interfaceMap = names.map fun name => ⟨name, modulesOf imported name⟩
  modulesLoadedNum : state.1.modulesLoadedNum = UInt32.ofNat imported.length
  signalled : state.2 = announcements names.length imported

theorem After.make (names : List String) :
    After names ([] : List (String × μ)) (ModuleManager.make names, []) where
  interfaceMap := rfl
  modulesLoadedNum := rfl
  signalled := rfl

section Run

variable {names : List String} (distinct : names.Nodup) (importer : Importer μ)

theorem After.interface_at {imported : List (String × μ)}
    {state : ModuleManager μ × List (LoadEvent μ)} (held : After names imported state)
    {position : ℕ} {name : String} (named : names[position]? = some name) :
    state.1.interfaceMap[position]? = some ⟨name, modulesOf imported name⟩ := by
  rw [held.interfaceMap, List.getElem?_map, named, Option.map_some]

include distinct in
/-- One more import under the name of an interface. -/
theorem interfaces_set (imported : List (String × μ)) {position : ℕ} {name : String}
    (named : names[position]? = some name) (module_ : μ) :
    (names.map fun other => InterfaceMethods.mk other (modulesOf imported other)).set position
        ⟨name, modulesOf imported name ++ [module_]⟩ =
      names.map fun other =>
        InterfaceMethods.mk other (modulesOf (imported ++ [(name, module_)]) other) := by
  apply List.ext_getElem?
  intro i
  obtain ⟨inside, here⟩ := List.getElem?_eq_some_iff.mp named
  rw [List.getElem?_set, List.length_map]
  by_cases same : position = i
  · subst same
    rw [if_pos rfl, if_pos inside, List.getElem?_map, named, Option.map_some,
      modulesOf_concat_self]
  · rw [if_neg same, List.getElem?_map, List.getElem?_map]
    cases other : names[i]? with
    | none => rfl
    | some otherName =>
        have different : name ≠ otherName := by
          intro equal
          exact same ((List.getElem?_inj inside distinct).mp (named.trans (equal ▸ other.symm)))
        rw [Option.map_some, Option.map_some, modulesOf_concat_other imported different]

include distinct in
/-- What one attempt to import does. -/
theorem After.loadInterface {imported : List (String × μ)}
    {state : ModuleManager μ × List (LoadEvent μ)} (held : After names imported state)
    (path : String) {position : ℕ} {name : String} (named : names[position]? = some name) :
    After names (imported ++ ((importer path name).map fun module_ => (name, module_)).toList)
      (Loading.loadInterface importer path state position) := by
  have interface := held.interface_at named
  unfold Loading.loadInterface
  rw [interface, Option.bind_some, InterfaceMethods.addPath]
  cases attempt : importer path name with
  | none =>
      simp only [Option.map_none, Option.toList_none, List.append_nil]
      exact held
  | some module_ =>
      simp only [Option.map_some, Option.toList_some]
      constructor
      · simp only [held.interfaceMap]
        exact interfaces_set distinct imported named module_
      · rw [held.modulesLoadedNum, List.length_append, List.length_singleton, UInt32.ofNat_add]
        rfl
      · have counted : (state.1.modulesLoadedNum + 1).toNat = (imported.length + 1) % 2 ^ 32 := by
          rw [held.modulesLoadedNum]
          exact (congrArg UInt32.toNat (UInt32.ofNat_add imported.length 1).symm).trans
            UInt32.toNat_ofNat'
        have many : state.1.interfaceMap.length = names.length := by
          rw [held.interfaceMap, List.length_map]
        rw [announcements_concat, held.signalled, counted, many, List.append_assoc,
          InterfaceMethods.callLoadedSignal, ← modulesOf_concat_self, head?_modulesOf]
        rfl

include distinct in
/-- What the inner loop does for one library. -/
theorem After.loadPath {imported : List (String × μ)}
    {state : ModuleManager μ × List (LoadEvent μ)} (held : After names imported state)
    (path : String) :
    After names (imported ++ importsFrom importer names path)
      (Loading.loadPath importer state path) := by
  have upTo : ∀ k ≤ names.length,
      After names (imported ++ importsFrom importer (names.take k) path)
        ((List.range k).foldl (Loading.loadInterface importer path) state) := by
    intro k
    induction k with
    | zero =>
        intro bound
        rw [List.take_zero, importsFrom, List.filterMap_nil, List.append_nil]
        exact held
    | succ k ih =>
        intro bound
        have named : names[k]? = some names[k] := List.getElem?_eq_getElem bound
        have next := (ih (Nat.le_of_succ_le bound)).loadInterface distinct importer path named
        rw [List.append_assoc] at next
        rw [List.range_succ, List.foldl_append, List.take_add_one, named, Option.toList_some,
          importsFrom_concat]
        exact next
  have many : state.1.interfaceMap.length = names.length := by
    rw [held.interfaceMap, List.length_map]
  rw [Loading.loadPath, many]
  have whole := upTo names.length (Nat.le_refl _)
  rwa [List.take_length] at whole

include distinct in
/-- **What `loadModules` holds and has signalled at its end.** -/
theorem After.loadModules (directory : List DirectoryEntry) :
    After names (imports importer names directory)
      ((ModuleManager.make names).loadModules importer directory) := by
  induction directory using List.reverseRecOn with
  | nil => exact After.make names
  | append_singleton directory entry ih =>
      rw [loadModules_concat, imports_concat]
      cases library : entry.isLibrary with
      | true =>
          rw [if_pos rfl, if_pos rfl]
          exact ih.loadPath distinct importer entry.path
      | false =>
          rw [if_neg Bool.false_ne_true, if_neg Bool.false_ne_true, List.append_nil]
          exact ih

end Run

/-! ## Which modules are signalled -/

/-- A signal for an interface carries the first module imported for it. -/
theorem loaded_mem_announcements_iff (interfaces : ℕ) (imported : List (String × μ))
    (name : String) (module_ : μ) :
    LoadEvent.loaded name module_ ∈ announcements interfaces imported ↔
      firstModule imported name = some module_ := by
  constructor
  · intro among
    obtain ⟨entry, here, signalled⟩ := List.mem_flatMap.mp among
    obtain first | all := List.mem_append.mp signalled
    · obtain ⟨found, firstFound, same⟩ := List.mem_map.mp first
      cases same
      exact Option.mem_toList.mp firstFound
    · split at all
      · cases List.mem_singleton.mp all
      · cases all
  · intro first
    obtain ⟨success, found, rfl⟩ := Option.map_eq_some_iff.mp first
    have named : success.1 = name := by
      have test := List.find?_some found
      exact beq_iff_eq.mp test
    obtain ⟨position, inside, here⟩ := List.getElem_of_mem (List.mem_of_find?_eq_some found)
    refine List.mem_flatMap.mpr ⟨(success, position), ?_, ?_⟩
    · rw [List.mem_zipIdx_iff_getElem?]
      exact List.getElem?_eq_some_iff.mpr ⟨inside, here⟩
    · refine List.mem_append_left _ (List.mem_map.mpr ⟨success.2, ?_, ?_⟩)
      · rw [named]
        exact Option.mem_toList.mpr first
      · rw [named]

theorem firstModule_cons (success : String × μ) (imported : List (String × μ)) (name : String) :
    firstModule (success :: imported) name =
      if success.1 = name then some success.2 else firstModule imported name := by
  by_cases same : success.1 = name
  · rw [if_pos same, firstModule, List.find?_cons_of_pos (by simpa using same), Option.map_some]
  · rw [if_neg same, firstModule, List.find?_cons_of_neg (by simpa using same), firstModule]

theorem importsFrom_cons (importer : Importer μ) (name : String) (names : List String)
    (path : String) :
    importsFrom importer (name :: names) path =
      ((importer path name).map fun module_ => (name, module_)).toList ++
        importsFrom importer names path := by
  rw [importsFrom, List.filterMap_cons]
  cases importer path name with
  | none => rfl
  | some module_ => rfl

theorem firstModule_importsFrom (importer : Importer μ) (names : List String)
    (name path : String) :
    firstModule (importsFrom importer names path) name =
      if name ∈ names then importer path name else none := by
  induction names with
  | nil => rfl
  | cons other names ih =>
      rw [importsFrom_cons]
      by_cases same : other = name
      · subst same
        rw [if_pos List.mem_cons_self]
        cases attempt : importer path other with
        | none => exact ih.trans (by rw [attempt, ite_self])
        | some module_ => exact (firstModule_cons _ _ _).trans (if_pos rfl)
      · have members : name ∈ other :: names ↔ name ∈ names := by
          rw [List.mem_cons]
          exact or_iff_right (Ne.symm same)
        rw [if_congr members rfl rfl, ← ih]
        cases importer path other with
        | none => rfl
        | some module_ => exact (firstModule_cons _ _ _).trans (if_neg same)

/-- The first module imported for an interface is that of the first library that has
one. -/
theorem firstModule_imports (importer : Importer μ) (names : List String)
    (directory : List DirectoryEntry) (name : String) :
    firstModule (imports importer names directory) name =
      if name ∈ names then (libraries directory).findSome? fun path => importer path name
      else none := by
  rw [firstModule, imports, List.find?_flatMap, List.map_findSome?]
  have each : (Option.map Prod.snd ∘ fun path =>
      (importsFrom importer names path).find? fun success => success.1 == name) =
      fun path => if name ∈ names then importer path name else none :=
    funext (firstModule_importsFrom importer names name)
  rw [each]
  split
  · rfl
  · exact List.findSome?_eq_none_iff.mpr fun path among => rfl

/-- **Every signal for an interface carries the same module**: the one of the first
library in the directory that the interface can be imported from. -/
theorem loaded_mem_iff (importer : Importer μ) (interfaces : Interfaces)
    (directory : List DirectoryEntry) (name : String) (module_ : μ) :
    LoadEvent.loaded name module_ ∈ signals importer interfaces directory ↔
      name ∈ interfaces.names ∧
        (libraries directory).findSome? (fun path => importer path name) = some module_ := by
  rw [signals, (After.loadModules interfaces.distinct importer directory).signalled,
    loaded_mem_announcements_iff, firstModule_imports]
  by_cases named : name ∈ interfaces.names
  · rw [if_pos named, and_iff_right named]
  · rw [if_neg named]
    constructor
    · intro impossible
      cases impossible
    · intro held
      exact absurd held.1 named

/-! ## When the load of all modules is signalled -/

/-- The name of the interface that is signalled. -/
def LoadEvent.moduleName? : LoadEvent μ → Option String
  | .loaded name _ => some name
  | .loadAll => none

/-- The signal given for an import itself. -/
def loadedSignal (imported : List (String × μ)) (success : String × μ) : LoadEvent μ :=
  .loaded success.1 ((firstModule imported success.1).getD success.2)

theorem announce_of_mem (interfaces : ℕ) {imported : List (String × μ)} {success : String × μ}
    (among : success ∈ imported) (position : ℕ) :
    announce interfaces imported (success, position) =
      loadedSignal imported success ::
        if (position + 1) % 2 ^ 32 = interfaces then [LoadEvent.loadAll] else [] := by
  have found : (imported.find? fun other => other.1 == success.1).isSome = true := by
    rw [List.find?_isSome]
    exact ⟨success, among, beq_self_eq_true _⟩
  obtain ⟨first, firstFound⟩ := Option.isSome_iff_exists.mp found
  simp only [announce, loadedSignal, firstModule, firstFound, Option.map_some, Option.toList_some,
    Option.getD_some, List.map_cons, List.map_nil, List.cons_append, List.nil_append]

/-- As long as the count is not the number of interfaces, there is one signal for each
import. -/
theorem announce_silent (interfaces : ℕ) (imported part : List (String × μ)) (start : ℕ)
    (within : ∀ success ∈ part, success ∈ imported)
    (silent : ∀ k < part.length, (start + k + 1) % 2 ^ 32 ≠ interfaces) :
    (part.zipIdx start).flatMap (announce interfaces imported) =
      part.map (loadedSignal imported) := by
  induction part generalizing start with
  | nil => rfl
  | cons success part ih =>
      have here : (start + 1) % 2 ^ 32 ≠ interfaces := silent 0 (Nat.succ_pos _)
      have later := ih (start + 1) (fun other among => within other (List.mem_cons_of_mem _ among))
        (by
          intro k below
          rw [Nat.add_right_comm start 1 k]
          exact silent (k + 1) (Nat.succ_lt_succ below))
      rw [List.zipIdx_cons, List.flatMap_cons, List.map_cons, later,
        announce_of_mem interfaces (within success List.mem_cons_self), if_neg here]
      rfl

/-- The first signal for all modules comes after as many imports as there are
interfaces. -/
theorem announcements_eq_of_enough {interfaces : ℕ} (some_interface : 0 < interfaces)
    (small : interfaces < 2 ^ 32) {imported : List (String × μ)}
    (enough : interfaces ≤ imported.length) :
    ∃ rest, announcements interfaces imported =
      (imported.take interfaces).map (loadedSignal imported) ++ LoadEvent.loadAll :: rest := by
  obtain ⟨n, rfl⟩ := Nat.exists_eq_succ_of_ne_zero (Nat.pos_iff_ne_zero.mp some_interface)
  obtain ⟨last, lastHere⟩ : ∃ last, imported[n]? = some last :=
    ⟨imported[n], List.getElem?_eq_getElem enough⟩
  have lastAmong : last ∈ imported := List.mem_of_getElem? lastHere
  have split : imported = imported.take n ++ last :: imported.drop (n + 1) := by
    have pieces := List.take_append_drop (n + 1) imported
    rw [List.take_add_one, lastHere, Option.toList_some, List.append_assoc] at pieces
    exact pieces.symm
  have short : (imported.take n).length = n := List.length_take_of_le (Nat.le_of_succ_le enough)
  have quiet := announce_silent (n + 1) imported (imported.take n) 0
    (fun success among => List.mem_of_mem_take among)
    (by
      intro k below
      rw [short] at below
      rw [Nat.zero_add, Nat.mod_eq_of_lt (by omega)]
      omega)
  refine ⟨((imported.drop (n + 1)).zipIdx (n + 1)).flatMap (announce (n + 1) imported), ?_⟩
  have unfolded : announcements (n + 1) imported =
      ((imported.take n).zipIdx.flatMap (announce (n + 1) imported)) ++
        (announce (n + 1) imported (last, n) ++
          ((imported.drop (n + 1)).zipIdx (n + 1)).flatMap (announce (n + 1) imported)) := by
    have indexed : imported.zipIdx = (imported.take n).zipIdx ++
        (last, n) :: (imported.drop (n + 1)).zipIdx (n + 1) := by
      conv_lhs => rw [split, List.zipIdx_append, List.zipIdx_cons, short, Nat.zero_add]
    rw [announcements, indexed, List.flatMap_append, List.flatMap_cons]
  rw [unfolded, quiet, announce_of_mem _ lastAmong, if_pos (Nat.mod_eq_of_lt small),
    List.take_add_one, lastHere, Option.toList_some, List.map_append, List.append_assoc]
  rfl

/-- The signal for all modules is given for an import that makes the count right. -/
theorem loadAll_mem_announcements {interfaces : ℕ} {imported : List (String × μ)}
    (among : LoadEvent.loadAll ∈ announcements interfaces imported) :
    ∃ k < imported.length, (k + 1) % 2 ^ 32 = interfaces := by
  obtain ⟨⟨success, k⟩, here, signalled⟩ := List.mem_flatMap.mp among
  obtain ⟨inside, named⟩ := List.mem_zipIdx' here
  obtain loaded | all := List.mem_append.mp signalled
  · obtain ⟨module_, first, impossible⟩ := List.mem_map.mp loaded
    cases impossible
  · split at all
    · next right => exact ⟨k, inside, right⟩
    · cases all

theorem fst_mem_of_mem_imports {importer : Importer μ} {names : List String}
    {directory : List DirectoryEntry} {success : String × μ}
    (among : success ∈ imports importer names directory) : success.1 ∈ names := by
  obtain ⟨path, library, imported⟩ := List.mem_flatMap.mp among
  obtain ⟨name, named, found⟩ := List.mem_filterMap.mp imported
  obtain ⟨module_, attempt, rfl⟩ := Option.map_eq_some_iff.mp found
  exact named

theorem loadAll_notMem_map_loadedSignal (imported part : List (String × μ)) :
    LoadEvent.loadAll ∉ part.map (loadedSignal imported) := by
  intro among
  obtain ⟨success, here, impossible⟩ := List.mem_map.mp among
  cases impossible

/-- As many names as there are interfaces hold every interface exactly if none of them
occurs twice. -/
theorem covers_iff_nodup {α : Type} {names chosen : List α} (distinct : names.Nodup)
    (within : ∀ name ∈ chosen, name ∈ names) (many : chosen.length = names.length) :
    (∀ name ∈ names, name ∈ chosen) ↔ chosen.Nodup := by
  constructor
  · intro covers
    have all := (List.subperm_of_subset distinct covers).perm_of_length_le
      (Nat.le_of_eq many)
    exact all.nodup_iff.mp distinct
  · intro once name among
    have all := (List.subperm_of_subset once within).perm_of_length_le
      (Nat.le_of_eq many.symm)
    exact all.mem_iff.mpr among

/-- What stands before the first occurrence of an element is determined. -/
theorem before_first_eq {α : Type} {a : α} {before other after rest : List α}
    (first : a ∉ before) (otherFirst : a ∉ other)
    (same : before ++ a :: after = other ++ a :: rest) : before = other := by
  obtain ⟨middle, longer, tail⟩ | ⟨middle, longer, tail⟩ := List.append_eq_append_iff.mp same
  · cases middle with
    | nil => rw [longer, List.append_nil]
    | cons b middle =>
        cases tail
        exact absurd (longer ▸ List.mem_append_right before List.mem_cons_self) otherFirst
  · cases middle with
    | nil => rw [longer, List.append_nil]
    | cons b middle =>
        cases tail
        exact absurd (longer ▸ List.mem_append_right other List.mem_cons_self) first

/-- **The signal for all modules comes after as many imports as there are
interfaces.** By then every interface has a module exactly if no interface was imported
twice. -/
theorem loadAll_after (importer : Importer μ) (interfaces : Interfaces)
    (directory : List DirectoryEntry) {before after : List (LoadEvent μ)}
    (signalled : signals importer interfaces directory = before ++ LoadEvent.loadAll :: after)
    (first : LoadEvent.loadAll ∉ before) :
    before.length = interfaces.names.length ∧
      ((∀ name ∈ interfaces.names, ∃ module_, LoadEvent.loaded name module_ ∈ before) ↔
        (before.map LoadEvent.moduleName?).Nodup) := by
  obtain ⟨names, distinct⟩ := interfaces
  generalize imported_eq : imports importer names directory = imported
  have whole : announcements names.length imported = before ++ LoadEvent.loadAll :: after := by
    rw [← signalled, ← imported_eq]
    exact (After.loadModules distinct importer directory).signalled.symm
  obtain ⟨k, inside, right⟩ := loadAll_mem_announcements
    (whole ▸ List.mem_append_right before List.mem_cons_self)
  have within : ∀ success ∈ imported, success.1 ∈ names := by
    intro success among
    rw [← imported_eq] at among
    exact fst_mem_of_mem_imports among
  have some_interface : 0 < names.length :=
    List.length_pos_of_mem (within imported[k] (List.getElem_mem inside))
  have enough : names.length ≤ imported.length := by
    rw [← right]
    exact Nat.le_trans (Nat.mod_le _ _) inside
  have small : names.length < 2 ^ 32 := by
    rw [← right]
    exact Nat.mod_lt _ (by decide)
  obtain ⟨rest, explicit⟩ := announcements_eq_of_enough some_interface small enough
  rw [whole] at explicit
  obtain rfl := before_first_eq first (loadAll_notMem_map_loadedSignal imported _) explicit
  have short : (imported.take names.length).length = names.length :=
    List.length_take_of_le enough
  refine ⟨by rw [List.length_map, short], ?_⟩
  have chosen := @covers_iff_nodup _ names ((imported.take names.length).map Prod.fst) distinct
    (by
      intro name among
      obtain ⟨success, here, rfl⟩ := List.mem_map.mp among
      exact within success (List.mem_of_mem_take here))
    (by rw [List.length_map, short])
  have namesSignalled : ((imported.take names.length).map (loadedSignal imported)).map
      LoadEvent.moduleName? = ((imported.take names.length).map Prod.fst).map some := by
    rw [List.map_map, List.map_map]
    rfl
  rw [namesSignalled, List.nodup_map_iff (fun _ _ => Option.some.inj), ← chosen]
  refine forall₂_congr fun name named => ?_
  constructor
  · rintro ⟨module_, among⟩
    obtain ⟨success, here, same⟩ := List.mem_map.mp among
    cases same
    exact List.mem_map_of_mem here
  · intro among
    obtain ⟨success, here, rfl⟩ := List.mem_map.mp among
    exact ⟨_, List.mem_map_of_mem here⟩

/-! ## One interface -/

/-- The modules the libraries of a directory have under a name. -/
def modulesIn (importer : Importer μ) (directory : List DirectoryEntry) (name : String) : List μ :=
  (libraries directory).filterMap fun path => importer path name

theorem imports_singleton (importer : Importer μ) (name : String)
    (directory : List DirectoryEntry) :
    imports importer [name] directory =
      (modulesIn importer directory name).map fun module_ => (name, module_) := by
  rw [imports, modulesIn, List.map_filterMap, List.filterMap_eq_flatMap_toList]
  refine List.flatMap_congr ?_
  intro path among
  rw [importsFrom_cons, importsFrom, List.filterMap_nil, List.append_nil]

/-- With one interface, every import is signalled with the first module, and the first
import, and every 2^32nd after it, is followed by the signal for all modules. -/
theorem signals_singleton (importer : Importer μ) (name : String)
    (distinct : [name].Nodup) (directory : List DirectoryEntry) {first : μ} {rest : List μ}
    (found : modulesIn importer directory name = first :: rest) :
    signals importer ⟨[name], distinct⟩ directory =
      (List.range (rest.length + 1)).flatMap fun k =>
        LoadEvent.loaded name first ::
          if (k + 1) % 2 ^ 32 = 1 then [LoadEvent.loadAll] else [] := by
  have imported : imports importer [name] directory =
      (first :: rest).map fun module_ => (name, module_) := by
    rw [imports_singleton, found]
  have each : ∀ entry ∈ ((first :: rest).map fun module_ => (name, module_)).zipIdx,
      announce 1 ((first :: rest).map fun module_ => (name, module_)) entry =
        LoadEvent.loaded name first ::
          if (entry.2 + 1) % 2 ^ 32 = 1 then [LoadEvent.loadAll] else [] := by
    intro entry among
    obtain ⟨module_, here, same⟩ := List.mem_map.mp (List.fst_mem_of_mem_zipIdx among)
    rw [announce, ← same, List.map_cons, firstModule_cons, if_pos rfl]
    rfl
  rw [signals, (After.loadModules distinct importer directory).signalled, imported,
    announcements, List.length_singleton, List.flatMap_congr each,
    ← List.flatMap_map Prod.snd fun k => LoadEvent.loaded name first ::
      if (k + 1) % 2 ^ 32 = 1 then [LoadEvent.loadAll] else [],
    List.zipIdx_map_snd, List.length_map, List.length_cons, List.range_eq_range']

theorem signals_singleton_of_none (importer : Importer μ) (name : String)
    (distinct : [name].Nodup) (directory : List DirectoryEntry)
    (nothing : modulesIn importer directory name = []) :
    signals importer ⟨[name], distinct⟩ directory = [] := by
  rw [signals, (After.loadModules distinct importer directory).signalled, imports_singleton,
    nothing]
  rfl

theorem firstSecond_distinct : ["first", "second"].Nodup := by
  decide

/-- Two interfaces. -/
def firstSecond : Interfaces :=
  ⟨["first", "second"], firstSecond_distinct⟩

/-- Two libraries that have the first interface only. -/
def onlyFirst : Importer String :=
  fun _ name => if name = "first" then some name else none

/-- Two libraries that both have the first of two interfaces are enough for the signal,
and the second interface has no module then. -/
theorem loadAll_after_twice :
    ¬ ∀ name ∈ firstSecond.names, ∃ module_, LoadEvent.loaded name module_ ∈
      [LoadEvent.loaded "first" "first", LoadEvent.loaded "first" "first"] := by
  have counted := loadAll_after onlyFirst firstSecond [⟨"a.so", true⟩, ⟨"b.so", true⟩]
    (show _ = [.loaded "first" "first", .loaded "first" "first"] ++ LoadEvent.loadAll :: [] by
      decide) (by decide)
  rw [counted.2]
  decide

end BookFilerSsh.Loading
