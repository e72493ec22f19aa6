import LintRemedy.Json.Basic

/-! Findings of a linter: one at a place in a file, and the group of all that a report gives for a
file. -/
namespace LintRemedy

inductive Severity where
  | error
  | warning
  deriving DecidableEq, Repr

namespace Severity

/-- Code 2 is an error; any other code, and no code at all, is a warning. -/
def ofCode : Option Int → Severity
  | some 2 => error
  | _ => warning

def code : Severity → Int
  | error => 2
  | warning => 1

def text : Severity → String
  | error => "error"
  | warning => "warning"

end Severity

/-- Line and column count from 1; 0 stands for a place that the report left out. -/
structure Diagnostic where
  path : String
  rule : String
  severity : Severity
  line : Nat
  column : Nat
  message : String
  suggestions : List Json
  deriving DecidableEq

def Diagnostic.unknownRule : String := "unknown"

/-- What a suggestion says of itself. A `description` that is no string hides `desc`. -/
def Json.description? (suggestion : Json) : Option String :=
  ((suggestion.get? "description") <|> (suggestion.get? "desc")).bind Json.str?

structure Group where
  path : String
  diagnostics : List Diagnostic
  deriving DecidableEq

abbrev Report := List Group

def Report.diagnostics (report : Report) : List Diagnostic := report.flatMap Group.diagnostics

end LintRemedy
