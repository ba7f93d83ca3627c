import SiteConfig.Validator.Schema
/-!
# Recognized options

The schema of the options of a site project, with their defaults.
-/
namespace SiteConfig.Settings

attribute [local instance (20000)] instPowNat

def wholeDefault (n : Nat) (h : n < 2 ^ (63 : Nat) := by decide) : Signed64 := ⟨n, by omega⟩

def devSchema : Schema := Schema.ofDeclarations [
  ("host", .string "localhost" false),
  ("port", .integer (wholeDefault 5173) (some (0, 65535))),
  ("open", .boolean false)]

def buildSchema : Schema := Schema.ofDeclarations [
  ("minify", .boolean true),
  ("sourcemap", .boolean false),
  ("chunk_size_warning_limit", .number (Binary64.ofRatio false 500 1))]

def loggingSchema : Schema := Schema.ofDeclarations [
  ("level", .string "info" false),
  ("format", .string "pretty" false),
  ("dir", .string none false),
  ("rotation", .string "daily" false),
  ("stderr", .boolean true)]

/-- The recognized options. -/
def schema : Schema := Schema.ofDeclarations [
  ("root", .string "src" false),
  ("out_dir", .string "dist" false),
  ("base", .string "/" true),
  ("public_dir", .string "public" true),
  ("dev", .object devSchema),
  ("build", .object buildSchema),
  ("logging", .object loggingSchema)]

def validator : Validator := .object schema

end SiteConfig.Settings
