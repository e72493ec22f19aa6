import LintRemedy.Diagnostic

/-! Findings that did not become an edit, and why. -/
namespace LintRemedy

inductive SkipReason where
  | unresolvedName
  | outOfRange (line lineCount : Nat)
  | noList
  | noPatternMatch
  | noRemedy
  deriving DecidableEq, Repr

namespace SkipReason

def kind : SkipReason → String
  | unresolvedName => "unresolved_dependency_name"
  | outOfRange _ _ => "out_of_range_line"
  | noList => "no_matching_shape"
  | noPatternMatch => "no_pattern_match"
  | noRemedy => "no_remedy"

def text : SkipReason → String
  | unresolvedName => "could not extract a dependency name from the message"
  | outOfRange line count =>
    "line " ++ toString line ++ " is out of range (file has " ++ toString count ++ " lines)"
  | noList => "no dependency list found on the target line"
  | noPatternMatch => "no rewrite pattern matched this construct"
  | noRemedy => "no automatic remedy for this rule"

def toJson : SkipReason → Json
  | outOfRange line count =>
    .obj [("kind", .str "out_of_range_line"), ("line", .nat line), ("line_count", .nat count)]
  | r => .obj [("kind", .str r.kind)]

end SkipReason

structure Skip where
  rule : String
  line : Nat
  column : Nat
  reason : SkipReason
  deriving DecidableEq, Repr

namespace Skip

def of (d : Diagnostic) (reason : SkipReason) : Skip := ⟨d.rule, d.line, d.column, reason⟩

def upTo (a b : Skip) : Bool := a.line < b.line || (a.line == b.line && a.column ≤ b.column)

end Skip
end LintRemedy
