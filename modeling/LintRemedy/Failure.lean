import LintRemedy.Config
import LintRemedy.Report

/-! What can end a command before it does anything. -/
namespace LintRemedy

inductive Failure where
  | report (cause : ReportFault)
  | io (path : String) (cause : IoFailure)
  | config (cause : ConfigFault)
  deriving DecidableEq

def ioMessage (path : String) (cause : IoFailure) : String :=
  "I/O failure on " ++ path ++ ": " ++ cause.text

def Failure.message (words : Wording) : Failure → String
  | report cause => "Malformed report: " ++ cause.message words
  | io path cause => ioMessage path cause
  | config cause => "Configuration error: " ++ cause.message words

variable {M : Type → Type} [Monad M]

def Report.load (fs : FileSystem M) (path : String) : M (Except Failure Report) := do
  match ← fs.read path with
  | .ok t => return (Report.ofText t).mapError .report
  | .error cause => return .error (.io path cause)

end LintRemedy
