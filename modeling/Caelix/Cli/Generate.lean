import Mathlib.Logic.Function.Basic
import Caelix.Lib.Effects
import Caelix.Core.Upload
import Caelix.Cli.Names

/-!
# Generated files

The commands of `caelix` that write a project: `caelix new` and `caelix generate`. They look at
the directory tree, make one directory and write some files; any of these calls may fail, and a
write that fails may leave some first part of a file behind.

* `ProjectTree`: directories and files, with a directory above everything.
* `runTextCommand`: the commands.
* `Plan`, `Command.plan`: what a command is for, the files that it should write in a tree.
-/

namespace Caelix

namespace Cli

open Interaction WordCase

/-! ## Trees -/

inductive TreeNode where
  | dir
  | file (contents : String)
  deriving DecidableEq, Repr

/-- What there is at a path. -/
abbrev Nodes := ProjectPath → Option TreeNode

structure ProjectTree where
  node : Nodes
  root : node [] = some .dir
  parent : ∀ path name, node (path.join name) ≠ none → node path = some .dir

inductive TreeCall where
  | pathExists (path : ProjectPath)
  | isFile (path : ProjectPath)
  | createDirAll (path : ProjectPath)
  | write (path : ProjectPath) (contents : String)
  deriving DecidableEq

abbrev TreeReply : TreeCall → Type
  | .pathExists _ => Bool
  | .isFile _ => Bool
  | .createDirAll _ => IoResult
  | .write _ _ => IoResult

/-- The calls that may change the tree. -/
def TreeCall.changes : TreeCall → Bool
  | pathExists _ => false
  | isFile _ => false
  | createDirAll _ => true
  | write _ _ => true

/-- The directory and those above it, wherever there is nothing. -/
def Nodes.makeDirs (node : Nodes) (dir : ProjectPath) : Nodes := fun path =>
  if node path = none ∧ path <+: dir then some .dir else node path

def Nodes.writeFile (node : Nodes) (path : ProjectPath) (contents : String) : Nodes :=
  Function.update node path (some (.file contents))

def Nodes.isFile (node : Nodes) (path : ProjectPath) : Bool :=
  match node path with
  | some (.file _) => true
  | _ => false

/-- What a call does. Nothing else changes the tree meanwhile, and every path can be looked at:
`exists` and `is_file` would also say no where reading the metadata fails. -/
def treeEffects : Effects ProjectTree TreeCall TreeReply := fun s c =>
  match c with
  | .pathExists path => fun t r => r = (s.node path).isSome ∧ t = s
  | .isFile path => fun t r => r = s.node.isFile path ∧ t = s
  | .createDirAll dir => fun t r =>
    match r with
    | .ok _ => (∀ path, path <+: dir → ∀ text, s.node path ≠ some (.file text)) ∧
        t.node = s.node.makeDirs dir
    | .error _ => ∃ made, made <+: dir ∧ t.node = s.node.makeDirs made
  | .write path contents => fun t r =>
    match r with
    | .ok _ => s.node path ≠ some .dir ∧ t.node = s.node.writeFile path contents
    | .error _ => t.node = s.node ∨
        ∃ left, s.node path ≠ some .dir ∧ t.node = s.node.writeFile path left

/-! ## Texts -/

/-- The text with these lines, each of them ended. -/
def linesText (lines : List String) : String :=
  String.ofList (['\n'].intercalate (lines.map String.toList ++ [[]]))

inductive BackendChoice where
  | actix
  | axum
  deriving DecidableEq, Repr

def renderAppCargoTomlForBackend (packageName : String) (backend : BackendChoice) : String :=
  linesText <|
    ["[package]", s!"name = \"{packageName}\"", "version = \"0.0.1\"", "edition = \"2024\"", "",
      "[dependencies]"] ++
    (match backend with
      | .actix => ["actix-web = \"4.14.0\"", "caelix = \"*\""]
      | .axum =>
        ["caelix = \x7b version = \"*\", default-features = false, features = [\"axum\"] \x7d",
          "tower-http = \x7b version = \"0.7\", features = [\"trace\", \"compression-full\"] \x7d"]) ++
    ["serde = \x7b version = \"1.0.228\", features = [\"derive\"] \x7d"]

def renderGitignore : String := linesText ["/target/", ".env"]

def renderMainRs (crateName : String) : String :=
  linesText
    ["use caelix::Application;", s!"use {crateName}::AppModule;", "", "#[caelix::main]",
      "async fn main() -> std::io::Result<()> \x7b", "    Application::new::<AppModule>()",
      "        .await", "        .map_err(|err| std::io::Error::other(err.message))?",
      "        .listen(\"127.0.0.1:8080\")", "        .await", "\x7d"]

def renderLibRs : String := linesText ["pub mod app;", "", "pub use app::AppModule;"]

def renderAppRs : String :=
  linesText
    ["use caelix::\x7bModule, ModuleMetadata\x7d;", "", "pub struct AppModule;", "",
      "impl Module for AppModule \x7b", "    fn register() -> ModuleMetadata \x7b",
      "        ModuleMetadata::new()", "    \x7d", "\x7d"]

def renderService (feature : FeatureName) : String :=
  let service := feature.serviceType
  linesText
    ["use caelix::injectable;", "", "#[injectable]", s!"pub struct {service};", "",
      s!"impl {service} \x7b", "    pub fn hello(&self) -> String \x7b",
      s!"        \"Hello from {service}\".to_string()", "    \x7d", "\x7d"]

def renderController (feature : FeatureName) (hasService : Bool) : String :=
  let controller := feature.controllerType
  let route := feature.routePath
  if hasService then
    let service := feature.serviceType
    linesText
      ["use std::sync::Arc;", "", "use caelix::\x7bcontroller, injectable, Result\x7d;", "",
        s!"use super::{service};", "", "#[injectable]", s!"pub struct {controller} \x7b",
        s!"    service: Arc<{service}>,", "\x7d", "", s!"#[controller(\"/{route}\")]",
        s!"impl {controller} \x7b", "    #[get(\"\")]",
        "    pub async fn hello(&self) -> Result<String> \x7b",
        "        Ok(self.service.hello())", "    \x7d", "\x7d"]
  else
    linesText
      ["use caelix::\x7bcontroller, injectable, Result\x7d;", "", "#[injectable]",
        s!"pub struct {controller};", "", s!"#[controller(\"/{route}\")]",
        s!"impl {controller} \x7b", "    #[get(\"\")]",
        "    pub async fn hello(&self) -> Result<String> \x7b",
        s!"        Ok(\"Hello from {controller}\".to_string())", "    \x7d", "\x7d"]

inductive FeatureModKind where
  | service
  | controller
  | controllerWithService
  deriving DecidableEq, Repr

def renderFeatureMod (feature : FeatureName) (kind : FeatureModKind) : String :=
  let service := feature.serviceType
  let controller := feature.controllerType
  match kind with
  | .service => linesText ["pub mod service;", "", s!"pub use service::{service};"]
  | .controller => linesText ["pub mod controller;", "", s!"pub use controller::{controller};"]
  | .controllerWithService =>
    linesText
      ["pub mod controller;", "pub mod service;", "", s!"pub use controller::{controller};",
        s!"pub use service::{service};"]

def renderFeatureModule (feature : FeatureName) : String :=
  let module := feature.moduleType
  let service := feature.serviceType
  let controller := feature.controllerType
  linesText
    ["pub mod controller;", "pub mod service;", "", s!"pub use controller::{controller};",
      s!"pub use service::{service};", "", "use caelix::\x7bModule, ModuleMetadata\x7d;", "",
      s!"pub struct {module};", "", s!"impl Module for {module} \x7b",
      "    fn register() -> ModuleMetadata \x7b", "        ModuleMetadata::new()",
      s!"            .provider::<{service}>()", s!"            .controller::<{controller}>()",
      "    \x7d", "\x7d"]

def serviceInstructions (feature : FeatureName) : String :=
  let name := feature.moduleName
  let service := feature.serviceType
  "\n".intercalate
    ["Manual registration:",
      s!"- Ensure `src/{name}/mod.rs` contains `pub mod service;` and `pub use service::{service};`.",
      s!"- Add `pub mod {name};` to `src/lib.rs` if it is not already declared.",
      s!"- Add `use crate::{name}::{service};` to the module that should own the service.",
      s!"- Add `.provider::<{service}>()` inside that module's `register()`."]

def controllerInstructions (feature : FeatureName) (hasService : Bool) : String :=
  let name := feature.moduleName
  let controller := feature.controllerType
  let service := feature.serviceType
  let instructions := "\n".intercalate
    ["Manual registration:",
      s!"- Ensure `src/{name}/mod.rs` contains `pub mod controller;` and " ++
        s!"`pub use controller::{controller};`.",
      s!"- Add `pub mod {name};` to `src/lib.rs` if it is not already declared.",
      s!"- Add `use crate::{name}::{controller};` to the module that should own the controller.",
      s!"- Add `.controller::<{controller}>()` inside that module's `register()`."]
  if hasService then
    instructions ++ s!"\n- Ensure `{service}` is registered as a provider in the same module."
  else instructions

def moduleInstructions (feature : FeatureName) : String :=
  let name := feature.moduleName
  let module := feature.moduleType
  "\n".intercalate
    ["Manual registration:", s!"- Add `pub mod {name};` to `src/lib.rs`.",
      s!"- Add `use crate::{name}::{module};` to `src/app.rs`.",
      s!"- Add `.import::<{module}>()` inside `AppModule::register()`."]

/-- `Path::display`, of an absolute path. -/
def display (path : ProjectPath) : String := "/" ++ "/".intercalate path

def createdFiles (paths : List ProjectPath) : String :=
  "Created files:\n" ++ String.join (paths.map fun path =>
    let name := display path
    s!"- {name}\n")

/-- The note of `generate_controller`. -/
def missingServiceNote (feature : FeatureName) : String :=
  let name := feature.moduleName
  let controller := feature.controllerType
  let service := feature.serviceType
  s!"\n\nNote: src/{name}/service.rs was not found, so {controller} was generated " ++
    s!"without a {service} dependency.\n"

def createdApplication (packageName : String) (targetDir : ProjectPath) : String :=
  let dir := display targetDir
  s!"Created Caelix application `{packageName}` in {dir}\n\nNext steps:\n- cd {dir}\n- caelix run\n"

/-! ## Commands -/

/-- The errors of `CliError` that these commands end with. -/
inductive CommandError where
  | cli (error : CliError)
  | io (path : ProjectPath) (source : IoError)
  | missingCargoManifest (path : ProjectPath)
  deriving DecidableEq

abbrev TreeRoutine := Routine TreeCall TreeReply CommandError

def lift {α : Type} (x : Except CliError α) : TreeRoutine α :=
  ExceptT.mk (pure (x.mapError .cli))

/-- A call followed by `map_err(|source| CliError::Io { path, source })?`. -/
def createDirAll (path : ProjectPath) : TreeRoutine Unit := do
  let result : IoResult ← Proc.ask (TreeCall.createDirAll path)
  match result with
  | .ok _ => return ()
  | .error source => throw (.io path source)

def ensureMissing (path : ProjectPath) : TreeRoutine Unit := do
  let found ← Proc.ask (TreeCall.pathExists path)
  lift (Caelix.ensureMissing (fun _ => found) path)

def createFile (path : ProjectPath) (contents : String) : TreeRoutine Unit := do
  ensureMissing path
  let result : IoResult ← Proc.ask (TreeCall.write path contents)
  match result with
  | .ok _ => return ()
  | .error source => throw (.io path source)

def ensureCargoManifest (cwd : ProjectPath) : TreeRoutine Unit := do
  let path := cwd.join "Cargo.toml"
  let found ← Proc.ask (TreeCall.isFile path)
  if found then return () else throw (.missingCargoManifest path)

def srcDir (cwd : ProjectPath) : ProjectPath := cwd.join "src"

structure NewArgs where
  name : String
  backend : BackendChoice

inductive GenerateKind where
  | service (name : String)
  | controller (name : String)
  | module (name : String)

/-- The commands with a text as their result, less `update`. -/
inductive Command where
  | new (args : NewArgs)
  | generate (kind : GenerateKind)
  | run (appArgs : List String)
  | doctor

def formatCargoRunCommand (appArgs : List String) : String :=
  let parts := ["cargo", "run"] ++ if appArgs = [] then [] else "--" :: appArgs
  " ".intercalate parts ++ "\n"

def formatCargoDoctorCommand : String := "cargo run -- --doctor\n"

section Heck

-- The text of `AGENTS.md` can be any.
variable (renderAgentsMd : String) {tables : CharTables} (heck : Segmentation tables)

def generateNew (args : NewArgs) (cwd : ProjectPath) : TreeRoutine String := do
  lift (validateProjectName args.name)
  let targetDir := cwd.join args.name
  ensureMissing targetDir
  let packageName ← lift (packageNameForPath heck targetDir args.name)
  let crateName := String.ofList (heck.snake packageName.toList)
  let src := targetDir.join "src"
  createDirAll src
  createFile (targetDir.join "Cargo.toml") (renderAppCargoTomlForBackend packageName args.backend)
  createFile (targetDir.join ".gitignore") renderGitignore
  createFile (targetDir.join "AGENTS.md") renderAgentsMd
  createFile (src.join "main.rs") (renderMainRs crateName)
  createFile (src.join "lib.rs") renderLibRs
  createFile (src.join "app.rs") renderAppRs
  return createdApplication packageName targetDir

def generateService (feature : FeatureName) (cwd : ProjectPath) : TreeRoutine String := do
  let featureDir := (srcDir cwd).join feature.moduleName
  let servicePath := featureDir.join "service.rs"
  let modPath := featureDir.join "mod.rs"
  ensureMissing servicePath
  createDirAll featureDir
  createFile servicePath (renderService feature)
  let found ← Proc.ask (TreeCall.pathExists modPath)
  let created ← if !found then do
      createFile modPath (renderFeatureMod feature .service)
      pure [servicePath, modPath]
    else pure [servicePath]
  return createdFiles created ++ "\n\n" ++ serviceInstructions feature

def generateController (feature : FeatureName) (cwd : ProjectPath) : TreeRoutine String := do
  let featureDir := (srcDir cwd).join feature.moduleName
  let servicePath := featureDir.join "service.rs"
  let controllerPath := featureDir.join "controller.rs"
  let modPath := featureDir.join "mod.rs"
  let hasService ← Proc.ask (TreeCall.pathExists servicePath)
  ensureMissing controllerPath
  createDirAll featureDir
  createFile controllerPath (renderController feature hasService)
  let found ← Proc.ask (TreeCall.pathExists modPath)
  let created ← if !found then do
      let kind : FeatureModKind := if hasService then .controllerWithService else .controller
      createFile modPath (renderFeatureMod feature kind)
      pure [controllerPath, modPath]
    else pure [controllerPath]
  let output := createdFiles created ++ "\n\n" ++ controllerInstructions feature hasService
  return if !hasService then output ++ missingServiceNote feature else output

def generateModule (feature : FeatureName) (cwd : ProjectPath) : TreeRoutine String := do
  let featureDir := (srcDir cwd).join feature.moduleName
  let modPath := featureDir.join "mod.rs"
  let servicePath := featureDir.join "service.rs"
  let controllerPath := featureDir.join "controller.rs"
  ensureMissing modPath
  ensureMissing servicePath
  ensureMissing controllerPath
  createDirAll featureDir
  createFile modPath (renderFeatureModule feature)
  createFile servicePath (renderService feature)
  createFile controllerPath (renderController feature true)
  return createdFiles [modPath, servicePath, controllerPath] ++ "\n\n" ++ moduleInstructions feature

def runTextCommand (command : Command) (cwd : ProjectPath) : TreeRoutine String :=
  match command with
  | .new args => generateNew renderAgentsMd heck args cwd
  | .generate kind => do
    ensureCargoManifest cwd
    match kind with
    | .service name => do generateService (← lift (FeatureName.parse heck name)) cwd
    | .controller name => do generateController (← lift (FeatureName.parse heck name)) cwd
    | .module name => do generateModule (← lift (FeatureName.parse heck name)) cwd
  | .run appArgs => return formatCargoRunCommand appArgs
  | .doctor => do
    ensureCargoManifest cwd
    return formatCargoDoctorCommand

end Heck

/-! ## What the commands are for -/

/-- A directory to make, files to write one after the other, and the answer. -/
structure Plan where
  dir : ProjectPath
  files : List (ProjectPath × String)
  output : String

namespace Plan

section Heck

variable (renderAgentsMd : String) {tables : CharTables} (heck : Segmentation tables)
  (node : Nodes) (cwd : ProjectPath)

def projectFiles (names : ProjectNames) (backend : BackendChoice) (dir : ProjectPath) :
    List (ProjectPath × String) :=
  [(dir.join "Cargo.toml", renderAppCargoTomlForBackend names.packageName backend),
    (dir.join ".gitignore", renderGitignore), (dir.join "AGENTS.md", renderAgentsMd),
    ((dir.join "src").join "main.rs", renderMainRs names.crateName),
    ((dir.join "src").join "lib.rs", renderLibRs), ((dir.join "src").join "app.rs", renderAppRs)]

def new (args : NewArgs) : Except CliError Plan := do
  let names ← generateNewNames heck (fun path => (node path).isSome) cwd args.name
  return {
    dir := (cwd.join args.name).join "src"
    files := projectFiles renderAgentsMd names args.backend (cwd.join args.name)
    output := createdApplication names.packageName (cwd.join args.name) }

/-- The files that are missing, and the answer that names those written. -/
def feature (dir : ProjectPath) (files : List (String × String)) (instructions : String) : Plan where
  dir
  files := files.map fun file => (dir.join file.1, file.2)
  output := createdFiles (files.map fun file => dir.join file.1) ++ "\n\n" ++ instructions

def service (feature : FeatureName) : Except CliError Plan :=
  let dir := (srcDir cwd).join feature.moduleName
  if node (dir.join "service.rs") ≠ none then .error (.alreadyExists (dir.join "service.rs"))
  else
    .ok (Plan.feature dir
      (("service.rs", renderService feature) ::
        if node (dir.join "mod.rs") = none then [("mod.rs", renderFeatureMod feature .service)]
        else [])
      (serviceInstructions feature))

def controller (feature : FeatureName) : Except CliError Plan :=
  let dir := (srcDir cwd).join feature.moduleName
  let hasService := (node (dir.join "service.rs")).isSome
  let kind : FeatureModKind := if hasService then .controllerWithService else .controller
  let note := if hasService then "" else missingServiceNote feature
  if node (dir.join "controller.rs") ≠ none then
    .error (.alreadyExists (dir.join "controller.rs"))
  else
    .ok (Plan.feature dir
      (("controller.rs", renderController feature hasService) ::
        if node (dir.join "mod.rs") = none then [("mod.rs", renderFeatureMod feature kind)] else [])
      (controllerInstructions feature hasService ++ note))

def moduleFiles (feature : FeatureName) : List (String × String) :=
  [("mod.rs", renderFeatureModule feature), ("service.rs", renderService feature),
    ("controller.rs", renderController feature true)]

def module (feature : FeatureName) : Except CliError Plan :=
  let dir := (srcDir cwd).join feature.moduleName
  match (moduleFiles feature).find? fun file => node (dir.join file.1) ≠ none with
  | some file => .error (.alreadyExists (dir.join file.1))
  | none => .ok (Plan.feature dir (moduleFiles feature) (moduleInstructions feature))

end Heck

end Plan

/-- The plan of a command that writes. -/
def Command.plan (renderAgentsMd : String) {tables : CharTables} (heck : Segmentation tables)
    (node : Nodes) (cwd : ProjectPath) : Command → Option (Except CommandError Plan)
  | .new args => some ((Plan.new renderAgentsMd heck node cwd args).mapError .cli)
  | .generate kind => some <|
    if node.isFile (cwd.join "Cargo.toml") then
      Except.mapError .cli <|
        match kind with
        | .service name => (FeatureName.parse heck name).bind (Plan.service node cwd)
        | .controller name => (FeatureName.parse heck name).bind (Plan.controller node cwd)
        | .module name => (FeatureName.parse heck name).bind (Plan.module node cwd)
    else .error (.missingCargoManifest (cwd.join "Cargo.toml"))
  | .run _ => none
  | .doctor => none

end Cli

end Caelix
