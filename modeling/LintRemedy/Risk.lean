import LintRemedy.Diagnostic

/-! Risk tiers: which findings to look at first. A rule set decides before the severity does. -/
namespace LintRemedy

inductive Tier where
  | low
  | medium
  | high
  deriving DecidableEq, Repr

namespace Tier

def rank : Tier → Nat
  | low => 0
  | medium => 1
  | high => 2

def max (a b : Tier) : Tier := if a.rank ≤ b.rank then b else a

def text : Tier → String
  | low => "low"
  | medium => "medium"
  | high => "high"

def all : List Tier := [high, medium, low]

end Tier

structure RiskRules where
  high : List String
  medium : List String
  deriving DecidableEq, Repr

namespace RiskRules

def builtinHigh : List String := [
  "@typescript-eslint/no-explicit-any",
  "@typescript-eslint/no-unused-vars",
  "no-unused-vars",
  "@typescript-eslint/no-unsafe-assignment",
  "@typescript-eslint/no-unsafe-member-access",
  "@typescript-eslint/no-unsafe-call"]

def builtinMedium : List String := [
  "@typescript-eslint/no-non-null-assertion",
  "@typescript-eslint/prefer-nullish-coalescing",
  "@typescript-eslint/prefer-optional-chain",
  "@typescript-eslint/no-empty-interface",
  "prefer-const",
  "react-hooks/exhaustive-deps",
  "react-refresh/only-export-components",
  "@typescript-eslint/no-empty-function",
  "no-console"]

def withExtra (high medium : List String) : RiskRules :=
  ⟨builtinHigh ++ high, builtinMedium ++ medium⟩

def classify (r : RiskRules) (rule : String) (severity : Severity) : Tier :=
  if r.high.contains rule then .high
  else if r.medium.contains rule then .medium
  else match severity with
    | .error => .high
    | .warning => .medium

end RiskRules
end LintRemedy
