import SiteConfig.ConfigModule.Export
import SiteConfig.Project.Files
import SiteConfig.Project.LoadId
import SiteConfig.Settings.Processing
/-!
# Loading a project

A project is a file tree with an environment. Its configuration module is opened, read and evaluated
anew by every load; a module that cannot be opened counts as an empty configuration.
-/
namespace SiteConfig

structure Project where
  /-- The name of the root of the file tree. -/
  root : String
  files : Files
  environment : Environment
  /-- The identifier of the last load. -/
  lastLoadId : Nat

structure LoadedModule where
  path : String
  loadId : Nat
  value : Value

namespace Project

def configFileName : String := "suv.config.js"

def standardBeginning : String := "SUV_"

def configPath (cwd : String) : String := joinPath cwd configFileName

/-- The full path that a text names from the root on; an empty text names the root itself. -/
def fullPath (project : Project) (path : String) : String :=
  if path.isEmpty then project.root else joinPath project.root path

/-- Where a full path starts, and its steps from there on. -/
def route (project : Project) (path : String) : Place × List String :=
  match path.splitOn "/" with
  | [] => (.outside, [])
  | first :: steps =>
    if first = project.root then (.root, steps) else (.outside, first :: steps)

/-- The name of a directory once it is the current one: without points and empty steps. -/
def currentDirectory (project : Project) (cwd : String) : String :=
  let (start, steps) := project.route cwd
  match project.files.walk start steps with
  | .ok (.below path) => String.intercalate "/" (project.root :: path)
  | _ => cwd

def longestPath : Nat := 4095

/-- Opens what stands at a full path. The path itself is looked at before any of its steps. -/
def openFile (project : Project) (path : String) : Except FileError FileNode :=
  if '\x00' ∈ path.toList then .error .nulInPath
  else if longestPath < path.utf8ByteSize then .error .nameTooLong
  else
    let (start, steps) := project.route path
    project.files.find start steps

def writeFile (project : Project) (path : String) (bytes : List UInt8) :
    Except FileError Project := do
  let (start, steps) := project.route path
  return { project with files := ← project.files.write start steps bytes }

def makeDirectory (project : Project) (path : String) : Except FileError Project := do
  let (start, steps) := project.route path
  let (files, _) ← project.files.makeDirectories start steps
  return { project with files }

def removeAll (project : Project) (path : String) : Except FileError Project := do
  let (start, steps) := project.route path
  return { project with files := ← project.files.remove start steps }

def evaluateFile (path : String) (loadId : Nat) (node : FileNode) :
    Reported ConfigError LoadedModule :=
  match node.readText with
  | .error error => .fail (.load path error.message)
  | .ok source =>
    match ConfigModule.evaluate source with
    | .error error => .fail (.load path error.message)
    | .ok value => ⟨[.moduleEvaluated source.utf8ByteSize], .ok ⟨path, loadId, value⟩⟩

/-- Evaluates the configuration module of a directory, none if it cannot be opened. An opened module
uses up an identifier even if it cannot be read. -/
def importModule (project : Project) (now : Nat) (cwd : String) :
    Project × Reported ConfigError (Option LoadedModule) :=
  let path := configPath cwd
  match project.openFile path with
  | .error error => (project, ⟨[.fileNotAccessible error.message], .ok none⟩)
  | .ok node =>
    let loadId := LoadId.next now project.lastLoadId
    ({ project with lastLoadId := loadId },
      (evaluateFile path loadId node).andThen fun loaded => ⟨[], .ok (some loaded)⟩)

/-- The exported value of the configuration module of a directory, an empty object if the module
cannot be opened. -/
def loadRaw (project : Project) (now : Nat) (cwd : String) : Project × Reported ConfigError Value :=
  let (project, outcome) := project.importModule now cwd
  (project, outcome.andThen fun
    | some loaded => ⟨[], .ok loaded.value⟩
    | none => ⟨[], .ok (.object [])⟩)

def load (project : Project) (now : Nat) (cwd : String) (envBeginning : Option String) :
    Project × Reported ConfigError Settings :=
  let (project, raw) := project.loadRaw now cwd
  let context : Context := { cwd, envBeginning, environment := project.environment }
  (project, raw.andThen fun value =>
    (Settings.process value context).andThen fun settings =>
      ⟨[.configurationLoaded cwd settings.root settings.outDir], .ok settings⟩)

/-- Sets an environment variable; one of the same name keeps its place. -/
def setVariable (project : Project) (name value : String) : Project :=
  let environment := project.environment
  if environment.any fun (other, _) => other == name then
    { project with environment := environment.map fun (other, old) =>
        (other, if other == name then value else old) }
  else { project with environment := environment ++ [(name, value)] }

def unsetVariable (project : Project) (name : String) : Project :=
  { project with environment := project.environment.filter fun (other, _) => other != name }

end Project
end SiteConfig
