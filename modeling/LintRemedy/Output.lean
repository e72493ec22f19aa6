import LintRemedy.Batch
import LintRemedy.Failure
import LintRemedy.Json.Writer
import LintRemedy.Summary

/-! What the commands print, as text and as JSON. Columns are as wide as their characters are
many; a value that is too long for its column is not cut. -/
namespace LintRemedy.Output
open scoped LintRemedy.Counts

def padEnd (width : Nat) (s : String) (fill : Char := ' ') : String :=
  s ++ String.ofList (List.replicate (width - s.length) fill)

def padStart (width : Nat) (s : String) : String :=
  String.ofList (List.replicate (width - s.length) ' ') ++ s

def lines (ls : List String) : String := String.join (ls.map (· ++ "\n"))

/-! Results of mending. -/

def label (r : FileResult) : String :=
  match r.status with
  | .written => "rewritten"
  | .wouldWrite => "would rewrite"
  | .failed cause => "failed: " ++ ioMessage r.path cause
  | .unchanged => "unchanged"

def isChange : FileStatus → Bool
  | .written | .wouldWrite => true
  | _ => false

def editsText (e : Edits) : String :=
  "  sanitized " ++ toString e.cleaned ++ ", patterns " ++ toString e.patterns ++
    ", dependencies " ++ toString e.dependencies

def skipText (s : Skip) : String :=
  "  " ++ toString s.line ++ ":" ++ toString s.column ++ " skipped [" ++ s.rule ++ "]: " ++
    s.reason.text

def resultLines (r : FileResult) : List String :=
  if r.status = .unchanged ∧ r.skipped = [] then []
  else
    ["", r.path ++ ": " ++ label r] ++
      (if r.edits.total = 0 then [] else [editsText r.edits]) ++ r.skipped.map skipText

def closingLine (results : List FileResult) (dryRun : Bool) : String :=
  let totals := FileResult.totals results
  (if dryRun then "Would rewrite " else "Rewrote ") ++
    toString (results.countP fun r => isChange r.status) ++ " of " ++ toString results.length ++
    " files (" ++ toString totals.total ++ " edits: " ++ toString totals.cleaned ++
    " sanitized, " ++ toString totals.patterns ++ " patterns, " ++ toString totals.dependencies ++
    " dependencies), " ++ toString (results.map fun r => r.skipped.length).sum ++ " skipped, " ++
    toString (results.countP FileResult.isFailed) ++ " failed"

def fixText (results : List FileResult) (dryRun : Bool) : String :=
  lines (results.flatMap resultLines ++ ["", closingLine results dryRun])

def editsJson (e : Edits) : Json :=
  .obj [("dependencies", .nat e.dependencies), ("patterns", .nat e.patterns),
    ("sanitized", .nat e.cleaned)]

def skipJson (s : Skip) : Json :=
  .obj [("column", .nat s.column), ("line", .nat s.line), ("reason", s.reason.toJson),
    ("rule_id", .str s.rule)]

def statusName : FileStatus → String
  | .written => "written"
  | .unchanged => "unchanged"
  | .wouldWrite => "would_write"
  | .failed _ => "failed"

def resultJson (r : FileResult) : Json :=
  let reason := match r.status with
    | .failed cause => [("reason", Json.str (ioMessage r.path cause))]
    | _ => []
  .obj ([("edits", editsJson r.edits), ("path", .str r.path)] ++ reason ++
    [("skipped", .arr (r.skipped.map skipJson)), ("status", .str (statusName r.status))])

def fixJson (results : List FileResult) : String :=
  lines [(Json.obj [("files", .arr (results.map resultJson)),
    ("totals", editsJson (FileResult.totals results))]).pretty]

/-! Triage. -/

def yesNo (b : Bool) : String := if b then "yes" else "no"

def ruleRow (rule tier count fixable : String) : String :=
  padEnd 50 rule ++ " | " ++ padEnd 6 tier ++ " | " ++ padStart 6 count ++ " | " ++
    padEnd 7 fixable

def ruleDivider : String :=
  padEnd 50 "" '-' ++ "-+-" ++ padEnd 6 "" '-' ++ "-+-" ++ padEnd 6 "" '-' ++ "-+-" ++
    padEnd 7 "" '-'

def ruleLines (rules : List RuleCount) (top : Nat) : List String :=
  if rules.isEmpty then []
  else
    ["", "Top rules:", ruleRow "Rule" "Tier" "Count" "Fixable", ruleDivider] ++
      (rules.take top).map fun r =>
        ruleRow r.rule r.tier.text (toString r.count) (yesNo r.fixable)

def hotspotLines (hotspots : List FileCount) (top : Nat) : List String :=
  if hotspots.isEmpty then []
  else
    ["", "Most affected files:"] ++
      (hotspots.take top).map fun f => "  " ++ padStart 5 (toString f.count) ++ "  " ++ f.path

def triageText (s : Summary) (top : Nat) : String :=
  lines ([toString s.diagnostics ++ " diagnostics in " ++ toString s.files ++ " files (" ++
      toString s.errors ++ " errors, " ++ toString s.warnings ++ " warnings)",
    "Automatically fixable: " ++ toString s.fixable, "", "By risk tier:"] ++
    (Tier.all.map fun t => "  " ++ padEnd 8 t.text ++ " " ++ toString (s.tiers.get t)) ++
    ruleLines s.rules top ++ hotspotLines s.hotspots top)

def ruleJson (r : RuleCount) : Json :=
  .obj [("rule_id", .str r.rule), ("tier", .str r.tier.text), ("count", .nat r.count),
    ("fixable", .bool r.fixable)]

def hotspotJson (f : FileCount) : Json := .obj [("path", .str f.path), ("count", .nat f.count)]

def tiersJson (t : TierCounts) : Json :=
  .obj [("high", .nat t.high), ("medium", .nat t.medium), ("low", .nat t.low)]

def triageJson (s : Summary) (top : Nat) : String :=
  lines [(Json.obj [("files", .nat s.files), ("diagnostics", .nat s.diagnostics),
    ("errors", .nat s.errors), ("warnings", .nat s.warnings), ("tiers", tiersJson s.tiers),
    ("fixable", .nat s.fixable), ("rules", .arr ((s.rules.take top).map ruleJson)),
    ("hotspots", .arr ((s.hotspots.take top).map hotspotJson))]).pretty]

end LintRemedy.Output
