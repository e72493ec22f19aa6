import LintRemedy.Dependency.Bracketed
import LintRemedy.Dependency.Message
import LintRemedy.Skip

/-!
Putting missing dependencies into the list on the reported line. The findings are taken in order,
and each sees the lines as those before it left them. A line never moves: only its list changes.
-/
namespace LintRemedy.Dependency
open scoped LintRemedy.Counts

def rule : String := "react-hooks/exhaustive-deps"

def handles (d : Diagnostic) : Bool := d.rule == rule

inductive Status where
  | inserted (count : Nat)
  | alreadyPresent
  | skipped (reason : SkipReason)
  deriving DecidableEq, Repr

namespace Status

def count : Status → Nat
  | inserted n => n
  | _ => 0

def reason? : Status → Option SkipReason
  | skipped r => some r
  | _ => none

end Status

/-- Inserts names one after another and counts those that were not there. A name for which there
is no list ends the work; what was inserted before it stays. -/
def insertNames : List Text → Text → Text × Option Nat
  | [], line => (line, some 0)
  | name :: names, line => match insert? line name with
    | some edited =>
      let (line, count) := insertNames names edited
      (line, count.map (· + 1))
    | none => if lists line name then insertNames names line else (line, none)

def statusOf : Option Nat → Status
  | none => .skipped .noList
  | some 0 => .alreadyPresent
  | some count => .inserted count

def patchOne (lines : List Text) (d : Diagnostic) : List Text × Status :=
  match Message.missing? d.message.toList with
  | none => (lines, .skipped .unresolvedName)
  | some names => match if d.line = 0 then none else lines[d.line - 1]? with
    | none => (lines, .skipped (.outOfRange d.line lines.length))
    | some line =>
      let (edited, count) := insertNames names line
      (lines.set (d.line - 1) edited, statusOf count)

def patchLines : List Diagnostic → List Text → List Text × List (Diagnostic × Status)
  | [], lines => (lines, [])
  | d :: ds, lines =>
    let (lines, status) := patchOne lines d
    let (lines, statuses) := patchLines ds lines
    (lines, (d, status) :: statuses)

structure Outcome where
  text : Text
  inserted : Nat
  statuses : List (Diagnostic × Status)

def Outcome.skipped (o : Outcome) : List (Diagnostic × SkipReason) :=
  o.statuses.filterMap fun (d, s) => s.reason?.map (d, ·)

/-- Patches a text. It stays as it was unless some name counts as inserted. -/
def patch (t : Text) (diagnostics : List Diagnostic) : Outcome :=
  let (lines, statuses) := patchLines (diagnostics.filter handles) (Text.splitOn '\n' t)
  let inserted := (statuses.map fun (_, s) => s.count).sum
  ⟨if inserted = 0 then t else Text.joinWith '\n' lines, inserted, statuses⟩

end LintRemedy.Dependency
