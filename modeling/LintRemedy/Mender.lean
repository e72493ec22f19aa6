import LintRemedy.Dependency.Patch
import LintRemedy.Glob.Reader
import LintRemedy.RuleTable

/-!
Mending one text: invisible characters go first, then the substitutions of the reported rules run,
then missing dependencies are put in. Every finding ends as an edit or as a skip.
-/
namespace LintRemedy

structure Options where
  clean : Bool := true
  dependencyLists : Bool := true
  exclude : Option Glob.Set := none
  dryRun : Bool := false

def Options.excludes (o : Options) (path : String) : Bool := o.exclude.any (·.isMatch path)

structure Edits where
  cleaned : Nat := 0
  patterns : Nat := 0
  dependencies : Nat := 0
  deriving DecidableEq, Repr

namespace Edits

def total (e : Edits) : Nat := e.cleaned + e.patterns + e.dependencies

def add (a b : Edits) : Edits :=
  ⟨a.cleaned + b.cleaned, a.patterns + b.patterns, a.dependencies + b.dependencies⟩

end Edits

structure Mender where
  table : RuleTable
  options : Options

structure Mended where
  text : Text
  edits : Edits
  skipped : List Skip
  deriving DecidableEq, Repr

namespace Mender

def hasRemedy (m : Mender) (rule : String) : Bool :=
  m.table.mends rule || (m.options.dependencyLists && rule == Dependency.rule)

def cleanStage (m : Mender) (t : Text) : Text.Cleaned :=
  if m.options.clean then Text.clean t else ⟨t, 0⟩

def patternStage (m : Mender) (diagnostics : List Diagnostic) (t : Text) : PatternOutcome :=
  m.table.run (diagnostics.map Diagnostic.rule) t

def dependencyStage (m : Mender) (diagnostics : List Diagnostic) (t : Text) : Dependency.Outcome :=
  if m.options.dependencyLists then Dependency.patch t diagnostics else ⟨t, 0, []⟩

def skips (m : Mender) (diagnostics : List Diagnostic) (unmatched : List String)
    (patched : List (Diagnostic × SkipReason)) : List Skip :=
  patched.map (fun (d, r) => Skip.of d r) ++
    (diagnostics.filter fun d => unmatched.contains d.rule).map (Skip.of · .noPatternMatch) ++
    (diagnostics.filter fun d => !m.hasRemedy d.rule).map (Skip.of · .noRemedy)

/-- Skips come out by place; those at one place keep the order of the stages. -/
def mend (m : Mender) (t : Text) (diagnostics : List Diagnostic) : Mended :=
  let cleaned := m.cleanStage t
  let patterns := m.patternStage diagnostics cleaned.text
  let patched := m.dependencyStage diagnostics patterns.text
  { text := patched.text
    edits := ⟨cleaned.removed, patterns.applied, patched.inserted⟩
    skipped := (m.skips diagnostics patterns.unmatched patched.skipped).mergeSort Skip.upTo }

end Mender
end LintRemedy
