import LintRemedy.FileSystem
import LintRemedy.Json.Decode
import LintRemedy.Json.Reader
import LintRemedy.Mender
import LintRemedy.Path
import LintRemedy.Risk

/-! The configuration, written by hand as JSON with comments. -/
namespace LintRemedy

structure Config where
  highRisk : List String := []
  mediumRisk : List String := []
  disabled : List String := []
  clean : Bool := true
  exclude : List String := []
  deriving DecidableEq, Repr

inductive ConfigFault where
  | unreadable (cause : IoFailure)
  | invalidJson (t : Text)
  | invalid (cause : DecodeError)
  | globs (cause : Glob.SetFault)
  deriving DecidableEq

def ConfigFault.message (words : Wording) : ConfigFault → String
  | unreadable cause => "Failed to read config: " ++ cause.text
  | invalidJson t => "Invalid JSON: " ++ words.jsonc t
  | invalid cause => "Invalid config: " ++ cause.message
  | globs (.pattern text cause) =>
    "Invalid glob pattern: error parsing glob '" ++ text ++ "': " ++ cause.message
  | globs (.tooDeep patterns) => "Failed to build globset: " ++ words.globs patterns

namespace Config
open Decode

def keys : List String :=
  ["high_risk_rules", "medium_risk_rules", "disabled_fixers", "sanitize", "exclude"]

def setField (c : Config) (key : String) (v : Json) : Result Config :=
  if key = "high_risk_rules" then do return { c with highRisk := ← listOf string v }
  else if key = "medium_risk_rules" then do return { c with mediumRisk := ← listOf string v }
  else if key = "disabled_fixers" then do return { c with disabled := ← listOf string v }
  else if key = "sanitize" then do return { c with clean := ← boolean v }
  else if key = "exclude" then do return { c with exclude := ← listOf string v }
  else .error (.unknownField key keys)

def setFields (c : Config) : Json.Fields → Result Config
  | [] => .ok c
  | (key, v) :: rest => do
    let c ← c.setField key v
    c.setFields rest

def ofItems (items : List Json) : Result Config := do
  let high ← withDefault [] (listOf string) items[0]?
  let medium ← withDefault [] (listOf string) items[1]?
  let disabled ← withDefault [] (listOf string) items[2]?
  let clean ← withDefault true boolean items[3]?
  let exclude ← withDefault [] (listOf string) items[4]?
  noSurplus 5 items
  .ok ⟨high, medium, disabled, clean, exclude⟩

def ofJson : Json → Result Config
  | .obj fields => setFields {} fields
  | .arr items => ofItems items
  | v => .error (.invalidType v (.record .config))

def ofText (t : Text) : Except ConfigFault Config :=
  match Json.ofLenientText? t with
  | none => .error (.invalidJson t)
  | some v => (ofJson v).mapError .invalid

def fileNames : List String := [".mendlint.jsonc", ".mendlint.json"]

variable {M : Type → Type} [Monad M]

def discoverAmong (fs : FileSystem M) : List String → M (Option String)
  | [] => return none
  | path :: paths => do
    if (← fs.kind path) = some .file then return some path
    discoverAmong fs paths

def discover (fs : FileSystem M) (dir : String) : M (Option String) :=
  discoverAmong fs (fileNames.map (Path.join dir))

def load (fs : FileSystem M) (path : String) : M (Except ConfigFault Config) := do
  match ← fs.read path with
  | .ok t => return ofText t
  | .error cause => return .error (.unreadable cause)

def loadOrDiscover (fs : FileSystem M) (path : Option String) : M (Except ConfigFault Config) := do
  match path with
  | some path => load fs path
  | none => match ← discover fs "." with
    | some path => load fs path
    | none => return .ok {}

def risk (c : Config) : RiskRules := RiskRules.withExtra c.highRisk c.mediumRisk

def table (c : Config) : RuleTable := RuleTable.builtin.without c.disabled

def options (c : Config) : Except ConfigFault Options := do
  let exclude ←
    if c.exclude.isEmpty then .ok none
    else ((Glob.Set.ofPatterns c.exclude).map some).mapError .globs
  .ok { clean := c.clean, dependencyLists := !c.disabled.contains Dependency.rule, exclude }

def mender (c : Config) : Except ConfigFault Mender := do
  let options ← c.options
  .ok ⟨c.table, options⟩

end Config
end LintRemedy
