import LintRemedy.Glob.Basic

/-!
How deep a pattern nests. A sequence of two or more parts, a group, a choice between two or more
branches, a repetition and a class are one level each; a pattern may have 250 levels.
-/
namespace LintRemedy.Glob
open scoped LintRemedy.Counts

def classParts (ranges : List (Char × Char)) : Nat :=
  (ranges.map fun (low, high) => (byteRanges low high).length).sum

mutual

def Token.parts : Token → Nat × Nat
  | .literal c => ((bytes c).length, 0)
  | .anyByte => (1, 0)
  | .star => (1, 1)
  | .byteClass _ ranges => (1, if classParts ranges < 2 then 1 else 2)
  | .leadingStars => (1, 4)
  | .trailingStars => (2, 1)
  | .innerStars => (1, 4)
  | .choice branches => match branchLevels branches with
    | (0, _) => (0, 0)
    | (1, levels) => (1, levels + 1)
    | (_, levels) => (1, levels + 2)

def sequenceParts : List Token → Nat × Nat
  | [] => (0, 0)
  | token :: tokens =>
    let (n, levels) := token.parts
    let (m, more) := sequenceParts tokens
    (n + m, max levels more)

def branchLevels : List (List Token) → Nat × Nat
  | [] => (0, 0)
  | branch :: branches =>
    let (n, levels) := branchLevels branches
    match sequenceParts branch with
    | (0, _) => (n, levels)
    | (1, own) => (n + 1, max own levels)
    | (_, own) => (n + 1, max (own + 1) levels)

end

/-- The pattern as a whole is a sequence, also when it has one part. -/
def levels (tokens : List Token) : Nat := (sequenceParts tokens).2 + 1

def maxLevels : Nat := 250

end LintRemedy.Glob
