import LintRemedy.Text.Basic

/-!
Reading the arguments of the command line. Options of the program may stand before or after the
command, and those after it win. Arguments are taken from left to right; asking for the version
or for help ends the reading there, so a mistake counts only if it comes first.
-/
namespace LintRemedy.CommandLine
open Text (after?)

inductive Format where
  | text
  | json
  deriving DecidableEq, Repr

inductive Command where
  | fix (report : String) (format : Format) (dryRun check : Bool)
  | triage (report : String) (format : Format) (top : Nat)
  | init (force : Bool)
  deriving DecidableEq, Repr

structure Invocation where
  command : Command
  config : Option String
  verbose : Bool
  deriving DecidableEq, Repr

inductive Request where
  | run (i : Invocation)
  | version
  | help
  deriving DecidableEq, Repr

inductive Flag where
  | config | verbose | version | help | format | dryRun | check | top | force
  deriving DecidableEq, Repr

namespace Flag

def long : Flag → Text
  | config => "config".toList
  | verbose => "verbose".toList
  | version => "version".toList
  | help => "help".toList
  | format => "format".toList
  | dryRun => "dry-run".toList
  | check => "check".toList
  | top => "top".toList
  | force => "force".toList

def short? : Flag → Option Char
  | config => some 'c'
  | verbose => some 'v'
  | version => some 'V'
  | help => some 'h'
  | format => some 'f'
  | _ => none

def takesValue : Flag → Bool
  | config | format | top => true
  | _ => false

end Flag

def formatOf? (t : Text) : Option Format :=
  if t = "text".toList then some .text
  else if t = "json".toList then some .json
  else none

def countOf? (t : Text) : Option Nat :=
  let ds := (after? ['+'] t).getD t
  let n := ds.foldl (fun n d => n * 10 + (d.toNat - '0'.toNat)) 0
  if !ds.isEmpty && ds.all Char.isDigit && n < UInt64.size then some n else none

def Flag.accepts : Flag → Text → Bool
  | config, v => !v.isEmpty
  | format, v => (formatOf? v).isSome
  | top, v => (countOf? v).isSome
  | _, _ => false

structure Given where
  flags : List (Flag × Text) := []
  operands : List Text := []
  deriving DecidableEq, Repr

namespace Given

def has (g : Given) (f : Flag) : Bool := g.flags.any (·.1 == f)

def value? (g : Given) (f : Flag) : Option Text := g.flags.lookup f

def add? (g : Given) (f : Flag) (value : Text) : Option Given :=
  if g.has f then none else some { g with flags := (f, value) :: g.flags }

end Given

inductive Reading (α : Type) where
  | done (a : α)
  | version
  | help
  | mistake

def Reading.ofOption : Option α → Reading α
  | some a => .done a
  | none => .mistake

def Reading.bind : Reading α → (α → Reading β) → Reading β
  | done a, f => f a
  | version, _ => version
  | help, _ => help
  | mistake, _ => mistake

def giveFlag (g : Given) : Flag → Reading Given
  | .version => .version
  | .help => .help
  | f => .ofOption (g.add? f [])

def giveValue (g : Given) (f : Flag) (value : Text) : Reading Given :=
  if f.accepts value then .ofOption (g.add? f value) else .mistake

abbrev Taken := Given × Option Flag

def cutAtEquals (t : Text) : Text × Option Text :=
  (t.takeWhile (· != '='), (t.dropWhile (· != '=')).tail?)

def takeLong (known : List Flag) (g : Given) (t : Text) : Reading Taken :=
  let (name, value) := cutAtEquals t
  match known.find? (·.long == name), value with
  | none, _ => .mistake
  | some f, some v =>
    if f.takesValue then (giveValue g f v).bind fun g => .done (g, none) else .mistake
  | some f, none =>
    if f.takesValue then .done (g, some f) else (giveFlag g f).bind fun g => .done (g, none)

def takeShort (known : List Flag) (g : Given) : Text → Reading Taken
  | [] => .done (g, none)
  | c :: rest => match known.find? (·.short? == some c) with
    | none => .mistake
    | some f =>
      if f.takesValue then
        match rest with
        | [] => .done (g, some f)
        | rest => (giveValue g f ((after? ['='] rest).getD rest)).bind fun g => .done (g, none)
      else (giveFlag g f).bind fun g => takeShort known g rest

def looksLikeFlag : Text → Bool
  | '-' :: _ :: _ => true
  | _ => false

def takeOperand (room : Nat) (g : Given) (t : Text) : Reading Given :=
  if t = [] ∨ room ≤ g.operands.length then .mistake
  else .done { g with operands := g.operands ++ [t] }

def takeOperands (room : Nat) (g : Given) : List Text → Reading Given
  | [] => .done g
  | t :: ts => (takeOperand room g t).bind fun g => takeOperands room g ts

/-- Reads the arguments of a command. A flag that waits for its value takes the next argument
unless that is written as a flag. After `--` all arguments are operands. -/
def read (known : List Flag) (room : Nat) : Given → Option Flag → List Text → Reading Given
  | g, none, [] => .done g
  | _, some _, [] => .mistake
  | g, some f, arg :: args =>
    if looksLikeFlag arg then .mistake
    else (giveValue g f arg).bind fun g => read known room g none args
  | g, none, arg :: args => match arg with
    | ['-', '-'] => takeOperands room g args
    | '-' :: '-' :: name =>
      (takeLong known g name).bind fun (g, waiting) => read known room g waiting args
    | '-' :: c :: letters =>
      (takeShort known g (c :: letters)).bind fun (g, waiting) => read known room g waiting args
    | operand => (takeOperand room g operand).bind fun g => read known room g none args

inductive CommandName where
  | fix
  | triage
  | init
  deriving DecidableEq, Repr

def CommandName.ofText? (t : Text) : Option CommandName :=
  if t = "fix".toList then some .fix
  else if t = "triage".toList then some .triage
  else if t = "init".toList then some .init
  else none

def CommandName.flags : CommandName → List Flag
  | fix => [.format, .dryRun, .check, .config, .verbose, .help]
  | triage => [.format, .top, .config, .verbose, .help]
  | init => [.force, .config, .verbose, .help]

def CommandName.room : CommandName → Nat
  | fix | triage => 1
  | init => 0

def isTopic : List Text → Bool
  | [] => true
  | [name] => name == "help".toList || (CommandName.ofText? name).isSome
  | _ => false

def readProgram : Given → Option Flag → List Text → Reading (Given × CommandName × List Text)
  | _, _, [] => .mistake
  | g, some f, arg :: args =>
    if looksLikeFlag arg then .mistake
    else (giveValue g f arg).bind fun g => readProgram g none args
  | g, none, arg :: args => match arg with
    | ['-', '-'] => .mistake
    | '-' :: '-' :: name =>
      (takeLong programFlags g name).bind fun (g, waiting) => readProgram g waiting args
    | '-' :: c :: letters =>
      (takeShort programFlags g (c :: letters)).bind fun (g, waiting) => readProgram g waiting args
    | name =>
      if name = "help".toList then if isTopic args then .help else .mistake
      else match CommandName.ofText? name with
        | some command => .done (g, command, args)
        | none => .mistake
where
  programFlags : List Flag := [.config, .verbose, .version, .help]

def defaultTop : Nat := 10

def reportOf? (g : Given) : Option String := g.operands.head?.map String.ofList

def formatOf (g : Given) : Format := ((g.value? .format).bind formatOf?).getD .text

def commandOf? (name : CommandName) (g : Given) : Option Command :=
  match name with
  | .fix => (reportOf? g).map fun report =>
    .fix report (formatOf g) (g.has .dryRun) (g.has .check)
  | .triage => (reportOf? g).map fun report =>
    .triage report (formatOf g) (((g.value? .top).bind countOf?).getD defaultTop)
  | .init => some (.init (g.has .force))

def request? (args : List String) : Option Request :=
  let reading : Reading Invocation :=
    (readProgram {} none (args.map String.toList)).bind fun (outer, name, rest) =>
      (read name.flags name.room {} none rest).bind fun inner =>
        .ofOption ((commandOf? name inner).map fun command =>
          { command
            config := (inner.value? .config <|> outer.value? .config).map String.ofList
            verbose := inner.has .verbose || outer.has .verbose })
  match reading with
  | .done i => some (.run i)
  | .version => some .version
  | .help => some .help
  | .mistake => none

end LintRemedy.CommandLine
