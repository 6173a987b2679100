import BookFilerSsh.Settings.Manager
import BookFilerSsh.Loading.ModuleManager
import Mathlib.Logic.Function.Basic

/-!
# Loading the module

`loadModule` loads the one interface `bookfilerSshModule`. Every time the interface is
signalled, the module registers its two settings with a settings manager, and when the
load of all modules is signalled, the settings file is deployed and the callback of the
program runs.

The callback therefore runs with the module of the first library that has one, and that
module holds the first `HTTP_accounts` and `HTTP_settings` of the settings file, however
many libraries are found; no other module is given anything. A settings file without a
size ends the load by an exception before the callback. One that holds something other than
an object ends the program there or not, as the build of rapidjson has it (`loadModule_eq`).
-/

set_option autoImplicit false

namespace BookFilerSsh.Loading

open Lib

variable {ν μ : Type}

/-- The members of `ModuleExport` that hold settings. -/
structure Documents (ν : Type) where
  accountsDoc : Option (Json ν)
  settingsDoc : Option (Json ν)

/-- The callbacks a module registers. -/
inductive Setter where
  | setAccounts
  | setSettings
  deriving DecidableEq

/-- `ModuleExport::setAccounts` and `ModuleExport::setSettings`. -/
def Documents.set (documents : Documents ν) (jsonDoc : Json ν) : Setter → Documents ν
  | .setAccounts => { documents with accountsDoc := some jsonDoc }
  | .setSettings => { documents with settingsDoc := some jsonDoc }

/-- `ModuleExport::registerSettings`: the request, which is made of constant strings, and
the callbacks with the module they are bound to. -/
def registerSettings (module_ : μ) : ModuleRequest ν × CallbackMap (μ × Setter) :=
  (⟨.object [("HTTP_accounts", .text "HTTP_accountsCB"),
      ("HTTP_settings", .text "HTTP_settingsCB")], none⟩,
    fun handle =>
      if handle = "HTTP_accountsCB" then some (module_, .setAccounts)
      else if handle = "HTTP_settingsCB" then some (module_, .setSettings)
      else none)

/-- What a load has come to: the module handed out, the documents of every module, what
each run of the program's callback found, and what ended the load before it was
through. It is silent about what follows `DeployFault.undefined`. -/
@[ext]
structure Outcome (ν μ : Type) where
  sshModule : Option μ
  modules : μ → Documents ν
  callbackRuns : List (Option μ × (μ → Documents ν))
  stopped : Option SettingsManager.DeployFault

/-- What `loadModule` works on. -/
structure Loader (ν μ : Type) extends Outcome ν μ where
  settingsManager : SettingsManager ν (μ × Setter)

namespace Loader

/-- Before the first signal. -/
def start (sshModule : Option μ) (modules : μ → Documents ν) : Loader ν μ where
  settingsManager := SettingsManager.make
  sshModule := sshModule
  modules := modules
  callbackRuns := []
  stopped := none

/-- The function connected to the signal of the interface. -/
def onLoaded (loader : Loader ν μ) (module_ : μ) : Loader ν μ :=
  let registered := registerSettings module_
  { loader with
    sshModule := some module_
    settingsManager := loader.settingsManager.merge registered.1 registered.2 }

variable [DecidableEq μ]

/-- Call a callback of a module. -/
def deliver (modules : μ → Documents ν) (call : (μ × Setter) × Json ν) : μ → Documents ν :=
  Function.update modules call.1.1 ((modules call.1.1).set call.2 call.1.2)

variable (assertions : Bool) (parse : List UInt8 → Option (Json ν))
  (file : SettingsManager.SettingsFile)

/-- The function connected to the signal for all modules. The documents of the requests
are gone by then: the functions that made them have returned. -/
def onLoadAll (loader : Loader ν μ) : Loader ν μ :=
  let deployed := loader.settingsManager.deployFile assertions (fun _ => false) parse file
  let modules := deployed.1.foldl deliver loader.modules
  match deployed.2 with
  | .error fault => { loader with modules := modules, stopped := some fault }
  | .ok _ =>
      { loader with
        modules := modules
        callbackRuns := loader.callbackRuns ++ [(loader.sshModule, modules)] }

/-- A signal, unless the load has ended. -/
def handle (loader : Loader ν μ) (event : LoadEvent μ) : Loader ν μ :=
  if loader.stopped.isSome then loader
  else
    match event with
    | .loaded _ module_ => loader.onLoaded module_
    | .loadAll => loader.onLoadAll assertions parse file

end Loader

theorem bookfilerSshModule_distinct : ["bookfilerSshModule"].Nodup := by
  decide

/-- The one interface that `loadModule` adds. -/
def bookfilerSshModule : Interfaces :=
  ⟨["bookfilerSshModule"], bookfilerSshModule_distinct⟩

/-- `loadModule`. -/
def loadModule [DecidableEq μ] (importer : Importer μ) (directory : List DirectoryEntry)
    (assertions : Bool) (parse : List UInt8 → Option (Json ν))
    (file : SettingsManager.SettingsFile) (sshModule : Option μ) (modules : μ → Documents ν) :
    Loader ν μ :=
  (signals importer bookfilerSshModule directory).foldl (Loader.handle assertions parse file)
    (Loader.start sshModule modules)

/-! ## What the settings file gives a module -/

/-- The documents of a module after an object has been deployed to it. -/
def Documents.deployed (documents : Documents ν) (settings : List (String × Json ν)) :
    Documents ν where
  accountsDoc := (Json.find settings "HTTP_accounts").or documents.accountsDoc
  settingsDoc := (Json.find settings "HTTP_settings").or documents.settingsDoc

theorem Documents.deployed_deployed (documents : Documents ν)
    (settings : List (String × Json ν)) :
    (documents.deployed settings).deployed settings = documents.deployed settings := by
  simp only [deployed, ← Option.or_assoc, Option.or_self]

/-- The documents of a module after the settings of a file have been deployed to it. -/
def Documents.deployedTo (documents : Documents ν) : Option (Json ν) → Documents ν
  | some (.object members) => documents.deployed members
  | _ => documents

/-- The settings that were read from a file. -/
def settingsIn : Except SettingsManager.DeployFault (Option (Json ν)) → Option (Json ν)
  | .ok settings => settings
  | .error _ => none

/-- What comes of deploying what was read from a file, when something was requested: the
fault that ends the load, if one does. -/
def deployFault (assertions : Bool) :
    Except SettingsManager.DeployFault (Option (Json ν)) → Option SettingsManager.DeployFault
  | .error fault => some fault
  | .ok none => none
  | .ok (some settings) =>
      if settings.isObject then none
      else
        match SettingsManager.deployNoObject assertions settings with
        | .ok _ => none
        | .error fault => some fault

section Registered

variable (module_ : μ) (settings : List (String × Json ν))

/-- The calls one registration of the module leads to. -/
def registeredCalls : List ((μ × Setter) × Json ν) :=
  ((Json.find settings "HTTP_accounts").map fun value => ((module_, .setAccounts), value)).toList ++
    ((Json.find settings "HTTP_settings").map fun value => ((module_, .setSettings), value)).toList

theorem firstRegistered_replicate (n : ℕ) :
    SettingsManager.firstRegistered
        (List.replicate (n + 1) (registerSettings (ν := ν) module_)) =
      (registerSettings (ν := ν) module_).2 := by
  funext handle
  rw [SettingsManager.firstRegistered, List.findSome?_replicate_of_pos (Nat.succ_pos n)]

theorem filterMap_called_registered :
    ((registerSettings (ν := ν) module_).1.value.leavesAt 0).filterMap
        (SettingsManager.called (registerSettings (ν := ν) module_).2 (.object settings)) =
      registeredCalls module_ settings := by
  have leaves : (registerSettings (ν := ν) module_).1.value.leavesAt 0 =
      [(["HTTP_accounts"], "HTTP_accountsCB"), (["HTTP_settings"], "HTTP_settingsCB")] := rfl
  have accounts : SettingsManager.called (registerSettings (ν := ν) module_).2 (.object settings)
      (["HTTP_accounts"], "HTTP_accountsCB") =
        (Json.find settings "HTTP_accounts").map fun value => ((module_, .setAccounts), value) := by
    rw [SettingsManager.called, Json.follow_object_singleton]
    cases Json.find settings "HTTP_accounts" with
    | none => rfl
    | some value => rfl
  have others : SettingsManager.called (registerSettings (ν := ν) module_).2 (.object settings)
      (["HTTP_settings"], "HTTP_settingsCB") =
        (Json.find settings "HTTP_settings").map fun value => ((module_, .setSettings), value) := by
    rw [SettingsManager.called, Json.follow_object_singleton]
    cases Json.find settings "HTTP_settings" with
    | none => rfl
    | some value => rfl
  rw [leaves, registeredCalls, List.filterMap_cons, accounts, List.filterMap_cons, others]
  cases Json.find settings "HTTP_accounts" <;> cases Json.find settings "HTTP_settings" <;> rfl

/-- The registered handles stand side by side. -/
theorem depth_master (n : ℕ) :
    (Json.object (SettingsManager.mergeAll (List.replicate (n + 1)
      (registerSettings (ν := ν) module_))).master).depth = 1 := by
  have flat : ∀ member ∈ (SettingsManager.mergeAll (List.replicate (n + 1)
      (registerSettings (ν := ν) module_))).master, member.2.depth = 0 := by
    intro member among
    rw [SettingsManager.master_mergeAll] at among
    obtain ⟨request, here, inRequest⟩ := List.mem_flatMap.mp among
    rw [List.eq_of_mem_replicate here] at inRequest
    obtain rfl | inRest := List.mem_cons.mp inRequest
    · exact Json.depth_of_not_object rfl
    · rw [List.mem_singleton.mp inRest]
      exact Json.depth_of_not_object rfl
  rw [Json.depth_object, List.map_congr_left flat, List.map_const']
  generalize (SettingsManager.mergeAll (List.replicate (n + 1)
    (registerSettings (ν := ν) module_))).master.length = many
  induction many with
  | zero => rfl
  | succ many ih => exact ih

/-- What the module asks for points into no document. -/
theorem documents_registered (n : ℕ) :
    (SettingsManager.mergeAll (List.replicate n
      (registerSettings (ν := ν) module_))).documents = [] := by
  rw [SettingsManager.documents_mergeAll, List.flatMap_eq_nil_iff]
  intro request among
  rw [List.eq_of_mem_replicate among]
  rfl

/-- What the file does after the module has registered any number of times. -/
theorem deployFile_registered (assertions : Bool) (alive : DocumentId → Bool)
    (parse : List UInt8 → Option (Json ν)) (file : SettingsManager.SettingsFile) (n : ℕ) :
    (SettingsManager.mergeAll (List.replicate (n + 1) (registerSettings module_))).deployFile
        assertions alive parse file =
      match file.read parse with
      | .error fault => ([], .error fault)
      | .ok none => ([], .ok (file.found && file.settingsFile.isNone))
      | .ok (some (.object members)) =>
          ((List.replicate (n + 1) (registerSettings (ν := ν) module_)).flatMap fun _ =>
            registeredCalls module_ members, .ok true)
      | .ok (some settings) => ([], SettingsManager.deployNoObject assertions settings) := by
  have held : (SettingsManager.mergeAll (List.replicate (n + 1)
      (registerSettings (ν := ν) module_))).documents.all alive = true := by
    rw [documents_registered]
    rfl
  have spec := SettingsManager.deploy_mergeAll
    (List.replicate (n + 1) (registerSettings (ν := ν) module_))
  cases read : file.read parse with
  | error fault => exact SettingsManager.deployFile_of_error assertions alive _ read
  | ok settings =>
      cases settings with
      | none => exact SettingsManager.deployFile_of_none assertions alive _ read
      | some settings =>
          rw [SettingsManager.deployFile_of_settings assertions alive _ read held, spec]
          cases settings with
          | object members =>
              have calls : SettingsManager.requested
                  (List.replicate (n + 1) (registerSettings (ν := ν) module_))
                    (.object members) =
                  (List.replicate (n + 1) (registerSettings (ν := ν) module_)).flatMap fun _ =>
                    registeredCalls module_ members := by
                rw [SettingsManager.requested, depth_master, List.range_one,
                  List.flatMap_singleton, firstRegistered_replicate]
                refine List.flatMap_congr ?_
                intro request among
                rw [List.eq_of_mem_replicate among, filterMap_called_registered]
              rw [Json.isObject_object, if_pos rfl, calls]
              rfl
          | _ =>
              have asked : (SettingsManager.mergeAll (List.replicate (n + 1)
                  (registerSettings (ν := ν) module_))).master.isEmpty = false := by
                rw [List.replicate_succ', SettingsManager.mergeAll_concat,
                  List.isEmpty_eq_false_iff]
                exact List.append_ne_nil_of_right_ne_nil _ (List.cons_ne_nil _ _)
              rw [asked]
              rfl

variable [DecidableEq μ]

/-- The calls of one registration give the module its documents. -/
theorem foldl_deliver_registeredCalls (modules : μ → Documents ν) :
    (registeredCalls module_ settings).foldl Loader.deliver modules =
      Function.update modules module_ ((modules module_).deployed settings) := by
  unfold registeredCalls Documents.deployed
  cases Json.find settings "HTTP_accounts" with
  | none =>
      cases Json.find settings "HTTP_settings" with
      | none => exact (Function.update_eq_self module_ modules).symm
      | some value => rfl
  | some accounts =>
      cases Json.find settings "HTTP_settings" with
      | none => rfl
      | some value =>
          simp only [Option.map_some, Option.toList_some, List.cons_append, List.nil_append,
            List.foldl_cons, List.foldl_nil, Loader.deliver, Function.update_self,
            Function.update_idem]
          rfl

/-- So do those of several. -/
theorem foldl_deliver_replicate (n : ℕ) (modules : μ → Documents ν) :
    ((List.replicate (n + 1) (registerSettings (ν := ν) module_)).flatMap fun _ =>
        registeredCalls module_ settings).foldl Loader.deliver modules =
      Function.update modules module_ ((modules module_).deployed settings) := by
  induction n with
  | zero =>
      rw [List.replicate_one, List.flatMap_singleton]
      exact foldl_deliver_registeredCalls module_ settings modules
  | succ n ih =>
      rw [List.replicate_succ', List.flatMap_append, List.foldl_append, ih,
        List.flatMap_singleton, foldl_deliver_registeredCalls, Function.update_self,
        Function.update_idem, Documents.deployed_deployed]

end Registered

/-! ## The whole load -/

section Load

variable [DecidableEq μ] (assertions : Bool) (parse : List UInt8 → Option (Json ν))
  (file : SettingsManager.SettingsFile) (module_ : μ) (modules : μ → Documents ν)

/-- What the modules hold once the file has been deployed. -/
def given : μ → Documents ν :=
  Function.update modules module_ ((modules module_).deployedTo (settingsIn (file.read parse)))

/-- A loader that has been signalled the module, and all modules. -/
structure Ready (registrations rounds : ℕ) (loader : Loader ν μ) : Prop where
  settingsManager : loader.settingsManager =
    SettingsManager.mergeAll (List.replicate registrations (registerSettings module_))
  sshModule : loader.sshModule = some module_
  delivered : loader.modules = if rounds = 0 then modules else given parse file module_ modules
  callbackRuns : loader.callbackRuns =
    List.replicate rounds (some module_, given parse file module_ modules)
  stopped : loader.stopped = none

variable {assertions parse file module_ modules} {registrations rounds : ℕ} {loader : Loader ν μ}

/-- A signal of a load that goes on. -/
theorem Ready.handle (ready : Ready parse file module_ modules registrations rounds loader)
    (event : LoadEvent μ) :
    loader.handle assertions parse file event =
      match event with
      | .loaded _ module_ => loader.onLoaded module_
      | .loadAll => loader.onLoadAll assertions parse file := by
  have going : ¬ loader.stopped.isSome = true := by
    rw [ready.stopped]
    exact Bool.false_ne_true
  exact if_neg going

/-- The module registers for the first time. -/
theorem ready_first (assertions : Bool) (parse : List UInt8 → Option (Json ν))
    (file : SettingsManager.SettingsFile) (sshModule : Option μ) (module_ : μ)
    (modules : μ → Documents ν) (name : String) :
    Ready parse file module_ modules 1 0
      ((Loader.start sshModule modules).handle assertions parse file (.loaded name module_)) where
  settingsManager := rfl
  sshModule := rfl
  delivered := rfl
  callbackRuns := rfl
  stopped := rfl

/-- The module registers once more. -/
theorem Ready.loaded (assertions : Bool)
    (ready : Ready parse file module_ modules registrations rounds loader)
    (name : String) :
    Ready parse file module_ modules (registrations + 1) rounds
      (loader.handle assertions parse file (.loaded name module_)) := by
  rw [ready.handle]
  constructor
  · rw [List.replicate_succ', SettingsManager.mergeAll_concat, ← ready.settingsManager]
    rfl
  · rfl
  · exact ready.delivered
  · exact ready.callbackRuns
  · exact ready.stopped

/-- Without an object to deploy, nothing is given. -/
theorem given_of_not_object
    (plain : (settingsIn (file.read parse)).all (fun settings => !settings.isObject) = true) :
    given parse file module_ modules = modules := by
  have same : (modules module_).deployedTo (settingsIn (file.read parse)) = modules module_ := by
    cases settings : settingsIn (file.read parse) with
    | none => rfl
    | some settings_ =>
        rw [settings] at plain
        cases settings_ with
        | object members => cases plain
        | _ => rfl
  rw [given, same, Function.update_eq_self]

/-- The file is deployed: whether it was before makes no difference. -/
theorem Ready.deploy (ready : Ready parse file module_ modules (registrations + 1) rounds loader)
    (alive : DocumentId → Bool) (deploys : deployFault assertions (file.read parse) = none) :
    ∃ calls returned,
      loader.settingsManager.deployFile assertions alive parse file = (calls, .ok returned) ∧
        calls.foldl Loader.deliver loader.modules = given parse file module_ modules := by
  rw [ready.settingsManager, ready.delivered, deployFile_registered]
  have nothing (plain : (settingsIn (file.read parse)).all
      (fun settings => !settings.isObject) = true) :
      ([] : List ((μ × Setter) × Json ν)).foldl Loader.deliver
        (if rounds = 0 then modules else given parse file module_ modules) =
          given parse file module_ modules := by
    rw [given_of_not_object plain, ite_self]
    rfl
  cases read : file.read parse with
  | error fault =>
      rw [read] at deploys
      cases deploys
  | ok settings =>
      rw [read] at deploys nothing
      cases settings with
      | none => exact ⟨[], _, rfl, nothing rfl⟩
      | some settings =>
          cases settings with
          | object members =>
              refine ⟨_, true, rfl, ?_⟩
              have once : given parse file module_ modules =
                  Function.update modules module_ ((modules module_).deployed members) := by
                rw [given, read]
                rfl
              rw [foldl_deliver_replicate, once]
              split
              · rfl
              · rw [Function.update_self, Function.update_idem, Documents.deployed_deployed]
          | _ =>
              simp only [deployFault, Json.isObject, Bool.false_eq_true, if_false] at deploys
              split at deploys
              next returned deployed => exact ⟨[], returned, congrArg _ deployed, nothing rfl⟩
              next => cases deploys

/-- The callback of the program runs. -/
theorem Ready.loadAll (ready : Ready parse file module_ modules (registrations + 1) rounds loader)
    (deploys : deployFault assertions (file.read parse) = none) :
    Ready parse file module_ modules (registrations + 1) (rounds + 1)
      (loader.handle assertions parse file .loadAll) := by
  obtain ⟨calls, returned, deployed, delivered⟩ := ready.deploy (fun _ => false) deploys
  rw [ready.handle]
  simp only [Loader.onLoadAll, deployed, delivered]
  constructor
  · exact ready.settingsManager
  · exact ready.sshModule
  · rw [if_neg (Nat.succ_ne_zero rounds)]
  · rw [ready.callbackRuns, ready.sshModule, List.replicate_succ']
  · exact ready.stopped

/-- A fault ends the load before anything is called. -/
theorem Ready.stops (ready : Ready parse file module_ modules (registrations + 1) rounds loader)
    {fault : SettingsManager.DeployFault}
    (fails : deployFault assertions (file.read parse) = some fault) :
    loader.handle assertions parse file .loadAll = { loader with stopped := some fault } := by
  have deployed : loader.settingsManager.deployFile assertions (fun _ => false) parse file =
      ([], .error fault) := by
    rw [ready.settingsManager, deployFile_registered]
    cases read : file.read parse with
    | error thrown =>
        rw [read] at fails
        cases fails
        rfl
    | ok settings =>
        rw [read] at fails
        cases settings with
        | none => cases fails
        | some settings =>
            cases settings with
            | object members => cases fails
            | _ =>
                simp only [deployFault, Json.isObject, Bool.false_eq_true, if_false] at fails
                split at fails
                next => cases fails
                next thrown failed =>
                    cases fails
                    exact congrArg _ failed
  rw [ready.handle]
  simp only [Loader.onLoadAll, deployed]
  rfl

/-- A load that has ended does nothing. -/
theorem foldl_handle_of_stopped (stopped : loader.stopped.isSome = true)
    (events : List (LoadEvent μ)) :
    events.foldl (Loader.handle assertions parse file) loader = loader := by
  induction events with
  | nil => rfl
  | cons event events ih =>
      have nothing : loader.handle assertions parse file event = loader := if_pos stopped
      rw [List.foldl_cons, nothing]
      exact ih

/-- The signals given for the import at a position. -/
def signalsAt (first : μ) (k : ℕ) : List (LoadEvent μ) :=
  LoadEvent.loaded "bookfilerSshModule" first ::
    if (k + 1) % 2 ^ 32 = 1 then [LoadEvent.loadAll] else []

/-- The loader after so many imports, when the file can be deployed. -/
theorem ready_after (deploys : deployFault assertions (file.read parse) = none)
    (sshModule : Option μ) (module_ : μ) (modules : μ → Documents ν) (n : ℕ) :
    Ready parse file module_ modules (n + 1) (n / 2 ^ 32 + 1)
      (((List.range (n + 1)).flatMap (signalsAt module_)).foldl
        (Loader.handle assertions parse file) (Loader.start sshModule modules)) := by
  induction n with
  | zero => exact (ready_first assertions parse file sshModule module_ modules _).loadAll deploys
  | succ n ih =>
      rw [List.range_succ, List.flatMap_append, List.foldl_append, List.flatMap_singleton,
        signalsAt, List.foldl_cons]
      have registered := ih.loaded assertions "bookfilerSshModule"
      by_cases round : (n + 1 + 1) % 2 ^ 32 = 1
      · rw [if_pos round, show (n + 1) / 2 ^ 32 = n / 2 ^ 32 + 1 by omega]
        exact registered.loadAll deploys
      · rw [if_neg round, show (n + 1) / 2 ^ 32 = n / 2 ^ 32 by omega]
        exact registered

/-- A file that cannot be deployed ends the load at the first signal for all modules. -/
theorem stopped_after {fault : SettingsManager.DeployFault}
    (fails : deployFault assertions (file.read parse) = some fault)
    (sshModule : Option μ) (module_ : μ) (modules : μ → Documents ν) (n : ℕ) :
    (((List.range (n + 1)).flatMap (signalsAt module_)).foldl
      (Loader.handle assertions parse file) (Loader.start sshModule modules)).toOutcome =
        ⟨some module_, modules, [], some fault⟩ := by
  have registered :=
    ready_first assertions parse file sshModule module_ modules "bookfilerSshModule"
  rw [List.range_succ_eq_map, List.flatMap_cons, List.foldl_append, signalsAt,
    if_pos (Nat.mod_eq_of_lt (by decide)), List.foldl_cons, List.foldl_cons, List.foldl_nil,
    registered.stops fails, foldl_handle_of_stopped rfl]
  rfl

end Load

/-- **What loading comes to.** When no library has the module, nothing happens. Otherwise
the module handed out is the one of the first library that has it, however many there
are. When the settings file can be deployed, that module is given the first
`HTTP_accounts` and `HTTP_settings` of the file, if it holds an object, no other module is
given anything, and the callback runs with them: once, and once more for every 2^32 further
libraries. When it cannot (`deployFault`), that ends the load before the callback, or what
comes of it is left open. -/
theorem loadModule_eq [DecidableEq μ] (importer : Importer μ) (directory : List DirectoryEntry)
    (assertions : Bool) (parse : List UInt8 → Option (Json ν))
    (file : SettingsManager.SettingsFile) (sshModule : Option μ) (modules : μ → Documents ν) :
    (loadModule importer directory assertions parse file sshModule modules).toOutcome =
      match modulesIn importer directory "bookfilerSshModule" with
      | [] => ⟨sshModule, modules, [], none⟩
      | first :: rest =>
          match deployFault assertions (file.read parse) with
          | none =>
              ⟨some first, given parse file first modules,
                List.replicate (rest.length / 2 ^ 32 + 1)
                  (some first, given parse file first modules), none⟩
          | some fault => ⟨some first, modules, [], some fault⟩ := by
  unfold loadModule bookfilerSshModule
  cases found : modulesIn importer directory "bookfilerSshModule" with
  | nil =>
      rw [signals_singleton_of_none importer "bookfilerSshModule" bookfilerSshModule_distinct
        directory found]
      rfl
  | cons first rest =>
      rw [signals_singleton importer "bookfilerSshModule" bookfilerSshModule_distinct
        directory found]
      cases deploys : deployFault assertions (file.read parse) with
      | none =>
          have ready := ready_after deploys sshModule first modules rest.length
          refine Outcome.ext ready.sshModule ?_ ready.callbackRuns ready.stopped
          exact ready.delivered.trans (if_neg (Nat.succ_ne_zero _))
      | some fault => exact stopped_after deploys sshModule first modules rest.length

end BookFilerSsh.Loading
