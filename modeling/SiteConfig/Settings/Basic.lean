import SiteConfig.Logging.Basic
import SiteConfig.Value
/-!
# Settings

The finished configuration of a site project: every recognized option with its type, and the
options that nothing declares. Settings are written as an object and read back from one.
-/
namespace SiteConfig

structure DevSettings where
  host : String
  port : UInt16
  opensBrowser : Bool
  deriving DecidableEq

structure BuildSettings where
  minify : Bool
  sourcemap : Bool
  chunkSizeWarningLimit : Binary64.Finite
  deriving DecidableEq

structure LoggingSettings where
  level : String
  format : String
  dir : Option String
  rotation : String
  stderr : Bool
  deriving DecidableEq

structure Settings where
  root : String
  outDir : String
  base : String
  publicDir : String
  dev : DevSettings
  build : BuildSettings
  logging : LoggingSettings
  /-- The undeclared options. -/
  extra : Object
  /-- The directory that relative paths start from; it is no option. -/
  cwd : String

/-- A path behind a directory. An absolute path stands for itself; nothing is normalized. -/
def joinPath (dir path : String) : String :=
  if path.startsWith "/" then path
  else if dir.isEmpty || dir.endsWith "/" then dir ++ path
  else dir ++ "/" ++ path

namespace Settings

def rootDir (settings : Settings) : String := joinPath settings.cwd settings.root

def outDirPath (settings : Settings) : String := joinPath settings.cwd settings.outDir

def publicDirPath (settings : Settings) : String := joinPath settings.cwd settings.publicDir

def logDirPath (settings : Settings) : Option String :=
  settings.logging.dir.map (joinPath settings.cwd)

/-- What a logger is set up with. Unknown names of formats and rotations give the standard ones. -/
def log (settings : Settings) : LogSettings where
  level := settings.logging.level
  format := (LogFormat.ofName? settings.logging.format).getD .standard
  dir := settings.logDirPath
  stderr := settings.logging.stderr
  rotation := (Rotation.ofName? settings.logging.rotation).getD .standard

end Settings

namespace DevSettings

def names : List String := ["host", "port", "open"]

def toValue (dev : DevSettings) : Value :=
  .object (Object.ofEntries [
    ("host", .string dev.host),
    ("port", .number (.integer ⟨dev.port.toNat, by
      have := dev.port.toNat_lt
      omega⟩)),
    ("open", .bool dev.opensBrowser)])

end DevSettings

namespace BuildSettings

def names : List String := ["minify", "sourcemap", "chunk_size_warning_limit"]

def toValue (build : BuildSettings) : Value :=
  .object (Object.ofEntries [
    ("minify", .bool build.minify),
    ("sourcemap", .bool build.sourcemap),
    ("chunk_size_warning_limit", .number (.float build.chunkSizeWarningLimit))])

end BuildSettings

namespace LoggingSettings

def names : List String := ["level", "format", "dir", "rotation", "stderr"]

def toValue (logging : LoggingSettings) : Value :=
  .object (Object.ofEntries [
    ("level", .string logging.level),
    ("format", .string logging.format),
    ("dir", logging.dir.elim .null .string),
    ("rotation", .string logging.rotation),
    ("stderr", .bool logging.stderr)])

end LoggingSettings

namespace Settings

def names : List String := ["root", "out_dir", "base", "public_dir", "dev", "build", "logging"]

/-- The settings as an object, the undeclared options beside the declared ones. -/
def toObject (settings : Settings) : Object :=
  Object.ofEntries ([
    ("root", .string settings.root),
    ("out_dir", .string settings.outDir),
    ("base", .string settings.base),
    ("public_dir", .string settings.publicDir),
    ("dev", settings.dev.toValue),
    ("build", settings.build.toValue),
    ("logging", settings.logging.toValue)] ++ settings.extra)

end Settings
end SiteConfig
