import LintRemedy.Mender
import LintRemedy.Path
import LintRemedy.Risk

/-! Triage of a report: how many findings there are by severity, tier, rule and file, and how many
of them have a remedy. -/
namespace LintRemedy

structure TierCounts where
  high : Nat
  medium : Nat
  low : Nat
  deriving DecidableEq, Repr

def TierCounts.get (c : TierCounts) : Tier → Nat
  | .high => c.high
  | .medium => c.medium
  | .low => c.low

structure RuleCount where
  rule : String
  tier : Tier
  count : Nat
  fixable : Bool
  deriving DecidableEq, Repr

def RuleCount.upTo (a b : RuleCount) : Bool :=
  if a.tier ≠ b.tier then b.tier.rank < a.tier.rank
  else if a.count ≠ b.count then b.count < a.count
  else a.rule ≤ b.rule

structure FileCount where
  path : String
  count : Nat
  deriving DecidableEq, Repr

def FileCount.upTo (a b : FileCount) : Bool :=
  if a.count ≠ b.count then b.count < a.count else Path.upTo a.path b.path

structure Summary where
  files : Nat
  diagnostics : Nat
  errors : Nat
  warnings : Nat
  tiers : TierCounts
  fixable : Nat
  rules : List RuleCount
  hotspots : List FileCount
  deriving DecidableEq, Repr

namespace Summary

def tierOf (risk : RiskRules) (d : Diagnostic) : Tier := risk.classify d.rule d.severity

def countTier (risk : RiskRules) (ds : List Diagnostic) (tier : Tier) : Nat :=
  ds.countP fun d => tierOf risk d == tier

def ruleCount (risk : RiskRules) (m : Mender) (ds : List Diagnostic) (rule : String) : RuleCount :=
  let own := ds.filter (·.rule == rule)
  ⟨rule, own.foldl (fun t d => t.max (tierOf risk d)) .low, own.length, m.hasRemedy rule⟩

def rulesOf (risk : RiskRules) (m : Mender) (ds : List Diagnostic) : List RuleCount :=
  ((ds.map Diagnostic.rule).eraseDups.map (ruleCount risk m ds)).mergeSort RuleCount.upTo

/-- Files without findings are no hotspots; groups that repeat a path stay apart. -/
def hotspotsOf (report : Report) : List FileCount :=
  ((report.map fun g => ⟨g.path, g.diagnostics.length⟩).filter fun f => f.count != 0).mergeSort
    FileCount.upTo

def ofReport (risk : RiskRules) (m : Mender) (report : Report) : Summary :=
  let ds := report.diagnostics
  { files := report.length
    diagnostics := ds.length
    errors := ds.countP (·.severity == .error)
    warnings := ds.countP (·.severity == .warning)
    tiers := ⟨countTier risk ds .high, countTier risk ds .medium, countTier risk ds .low⟩
    fixable := ds.countP fun d => m.hasRemedy d.rule
    rules := rulesOf risk m ds
    hotspots := hotspotsOf report }

end Summary
end LintRemedy
