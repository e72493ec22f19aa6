import LintRemedy.Command

/-! The program on a disk. A file is replaced by way of a sibling, so that it never holds half of
a text. -/
namespace LintRemedy

/-- Codes of errors come with either sign. -/
def sameCode (a b : UInt32) : Bool := a == b || a == -b

def IoFailure.ofError (e : IO.Error) : IoFailure :=
  match e with
  | .noFileOrDirectory _ _ _ => .missing
  | .alreadyExists _ _ _ => .alreadyExists
  | .inappropriateType _ code _ => if sameCode code 21 then .isDirectory else .notDirectory
  | .invalidArgument _ code _ => if sameCode code 36 then .nameTooLong else .other (toString e)
  | e => .other (toString e)

def readText (path : String) : IO (Except IoFailure Text) := do
  if path.toList.contains '\x00' then return .error .nulInName
  try
    match String.fromUTF8? (← IO.FS.readBinFile path) with
    | some s => return .ok s.toList
    | none => return .error .notText
  catch e => return .error (.ofError e)

def kindOf (path : String) : IO (Option EntryKind) := do
  try
    let info ← ((← IO.currentDir) / path).metadata
    return some (if info.type == .dir then .directory else .file)
  catch _ => return none

def attempted (act : IO Unit) : IO (Except IoFailure Unit) := do
  try
    act
    return .ok ()
  catch e => return .error (.ofError e)

def replaceFile (path : String) (t : Text) : IO (Except IoFailure Unit) := attempted do
  let sibling := path ++ ".mendlint-new"
  IO.FS.writeFile sibling (String.ofList t)
  IO.FS.rename sibling path

def createFile (path : String) : IO (Except IoFailure Unit) := attempted do
  discard (IO.FS.Handle.mk path .writeNew)

def disk : FileSystem IO where
  read := readText
  kind := kindOf
  replace := replaceFile
  create := createFile
  fill path t := attempted (IO.FS.writeFile path (String.ofList t))
  remove path := attempted (IO.FS.removeFile path)

def plainWording : Wording :=
  ⟨fun _ => "no JSON document", fun _ => "no JSON document", fun _ => "patterns nest too deeply"⟩

end LintRemedy

open LintRemedy in
def main (args : List String) : IO UInt32 := do
  let outcome ← Command.execute disk args
  IO.print outcome.output
  if let some complaint := outcome.complaint then IO.eprintln (complaint.message plainWording)
  return outcome.exit.toUInt32
