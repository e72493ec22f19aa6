import LintRemedy.CommandLine
import LintRemedy.Output

/-!
The commands. Configuration, patterns and report are read before the first file is touched, in
this order, and a fault in any of them ends the command with code 2 and no output.
-/
namespace LintRemedy.Command
open CommandLine (Format Invocation Request request?)

def usage : String :=
  "Usage: mendlint [-c|--config FILE] [-v|--verbose] <COMMAND>\n\n" ++
  "  fix REPORT [-f|--format text|json] [--dry-run] [--check]\n" ++
  "  triage REPORT [-f|--format text|json] [--top N]\n" ++
  "  init [--force]\n"

inductive Complaint where
  | usage
  | input (cause : Failure)
  | configExists
  | io (cause : IoFailure)
  deriving DecidableEq

def Complaint.message (words : Wording) : Complaint → String
  | usage => Command.usage
  | input cause => cause.message words
  | configExists => "Config file already exists. Use --force to overwrite."
  | io cause => cause.text

structure Outcome where
  exit : Nat
  output : String
  complaint : Option Complaint
  deriving DecidableEq, Inhabited

namespace Outcome

def fatal (complaint : Complaint) : Outcome := ⟨2, "", some complaint⟩

def finished (exit : Nat) (output : String) : Outcome := ⟨exit, output, none⟩

end Outcome

variable {M : Type → Type} [Monad M]

def prepare (fs : FileSystem M) (config : Option String) (report : String) :
    M (Except Failure (Config × Mender × Report)) := do
  match ← Config.loadOrDiscover fs config with
  | .error cause => return .error (.config cause)
  | .ok c => match c.mender with
    | .error cause => return .error (.config cause)
    | .ok m => match ← Report.load fs report with
      | .error e => return .error e
      | .ok groups => return .ok (c, m, groups)

def fixExit (results : List FileResult) (check : Bool) : Nat :=
  if results.any FileResult.isFailed ||
    (check && results.any fun r => r.status == .wouldWrite) then 1 else 0

def fix (fs : FileSystem M) (config : Option String) (report : String) (format : Format)
    (dryRun check : Bool) : M Outcome := do
  match ← prepare fs config report with
  | .error e => return .fatal (.input e)
  | .ok (_, m, groups) =>
    let dry := dryRun || check
    let results ← { m with options := { m.options with dryRun := dry } }.mendReport fs groups
    let output := match format with
      | .text => Output.fixText results dry
      | .json => Output.fixJson results
    return .finished (fixExit results check) output

def triage (fs : FileSystem M) (config : Option String) (report : String) (format : Format)
    (top : Nat) : M Outcome := do
  match ← prepare fs config report with
  | .error e => return .fatal (.input e)
  | .ok (c, m, groups) =>
    let summary := Summary.ofReport c.risk m groups
    let output := match format with
      | .text => Output.triageText summary top
      | .json => Output.triageJson summary top
    return .finished 0 output

def defaultConfig : String :=
  "\x7b\n" ++
  "  // Rule ids treated as high or medium risk on top of the built-in sets\n" ++
  "  \"high_risk_rules\": [],\n" ++
  "  \"medium_risk_rules\": [],\n" ++
  "\n" ++
  "  // Rule ids whose automatic fix must not run\n" ++
  "  \"disabled_fixers\": [],\n" ++
  "\n" ++
  "  // Strip zero-width and control characters before other fixes\n" ++
  "  \"sanitize\": true,\n" ++
  "\n" ++
  "  // Glob patterns of files never rewritten\n" ++
  "  \"exclude\": []\n" ++
  "\x7d\n"

def configFile : String := ".mendlint.jsonc"

/-- One attempt at making the configuration. An old one is taken away for the next attempt, which may
meet one again that another process has made. -/
def attempt (fs : FileSystem M) (force : Bool) : M (Unit ⊕ Outcome) := do
  match ← fs.create configFile with
  | .ok () => match ← fs.fill configFile defaultConfig.toList with
    | .ok () => return .inr (.finished 0 "")
    | .error cause => return .inr (.fatal (.io cause))
  | .error .alreadyExists =>
    if force then
      match ← fs.remove configFile with
      | .ok () => return .inl ()
      | .error .missing => return .inl ()
      | .error cause => return .inr (.fatal (.io cause))
    else return .inr (.fatal .configExists)
  | .error cause => return .inr (.fatal (.io cause))

def init (fs : FileSystem M) (force : Bool) : M Outcome := repeatM (fun () => attempt fs force) ()

def run (fs : FileSystem M) (i : Invocation) : M Outcome :=
  match i.command with
  | .fix report format dryRun check => fix fs i.config report format dryRun check
  | .triage report format top => triage fs i.config report format top
  | .init force => init fs force

def version : String := "mendlint 0.1.0\n"

def execute (fs : FileSystem M) (args : List String) : M Outcome :=
  match request? args with
  | none => return .fatal .usage
  | some .version => return .finished 0 version
  | some .help => return .finished 0 usage
  | some (.run i) => run fs i

end LintRemedy.Command
