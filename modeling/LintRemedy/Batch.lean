import LintRemedy.FileSystem
import LintRemedy.Mender
import LintRemedy.Path

/-!
Mending the files of a report. Groups that repeat a path are one file's work; a file that cannot
be read or written fails alone.
-/
namespace LintRemedy

def Report.addGroup (g : Group) : Report → Report
  | [] => [g]
  | h :: rest =>
    if Path.same h.path g.path then
      { h with diagnostics := h.diagnostics ++ g.diagnostics } :: rest
    else h :: addGroup g rest

def Report.merged (report : Report) : Report := report.foldl (fun acc g => acc.addGroup g) []

inductive FileStatus where
  | written
  | unchanged
  | wouldWrite
  | failed (cause : IoFailure)
  deriving DecidableEq, Repr

structure FileResult where
  path : String
  before : Text
  after : Text
  status : FileStatus
  edits : Edits
  skipped : List Skip
  deriving DecidableEq, Repr

namespace FileResult

def changed (r : FileResult) : Bool := r.before != r.after

def isFailed (r : FileResult) : Bool :=
  match r.status with
  | .failed _ => true
  | _ => false

def stored (r : FileResult) : Except IoFailure Unit → FileResult
  | .ok () => r
  | .error cause => { r with status := .failed cause }

def totals (results : List FileResult) : Edits :=
  results.foldl (fun acc r => acc.add r.edits) {}

end FileResult

namespace Mender

/-- An excluded file is not read; all its findings are skipped, in the order of the report. -/
def leave (g : Group) : FileResult :=
  ⟨g.path, [], [], .unchanged, {}, g.diagnostics.map (Skip.of · .noRemedy)⟩

def resultOf (m : Mender) (g : Group) : Except IoFailure Text → FileResult
  | .error cause => ⟨g.path, [], [], .failed cause, {}, []⟩
  | .ok t =>
    let mended := m.mend t g.diagnostics
    let status :=
      if mended.text = t then .unchanged
      else if m.options.dryRun then .wouldWrite
      else .written
    ⟨g.path, t, mended.text, status, mended.edits, mended.skipped⟩

variable {M : Type → Type} [Monad M]

def mendFile (m : Mender) (fs : FileSystem M) (g : Group) : M FileResult := do
  if m.options.excludes g.path then return leave g
  let r := m.resultOf g (← fs.read g.path)
  if r.status = .written then return r.stored (← fs.replace g.path r.after)
  return r

def mendAll (m : Mender) (fs : FileSystem M) : List Group → M (List FileResult)
  | [] => return []
  | g :: gs => do
    let r ← m.mendFile fs g
    let rs ← m.mendAll fs gs
    return r :: rs

def mendReport (m : Mender) (fs : FileSystem M) (report : Report) : M (List FileResult) :=
  m.mendAll fs report.merged

end Mender
end LintRemedy
