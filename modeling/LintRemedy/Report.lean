import LintRemedy.Diagnostic
import LintRemedy.Json.Decode
import LintRemedy.Json.Reader

/-!
Loading a report: a JSON array of groups, one for each file. It is loaded whole or not at all. In
an object the fields are looked at in the order of their names and others are passed over; in an
array they stand in the order of declaration.
-/
namespace LintRemedy

inductive ReportFault where
  | invalidJson (t : Text)
  | notAnArray
  | group (index : Nat) (cause : DecodeError)
  | noPath (index : Nat)
  deriving DecidableEq

def ReportFault.message (words : Wording) : ReportFault → String
  | invalidJson t => "Invalid JSON: " ++ words.json t
  | notAnArray => "report root must be an array"
  | group index cause => "group " ++ toString index ++ ": " ++ cause.message
  | noPath index => "group " ++ toString index ++ " has no filePath"

namespace Report
open Decode

structure Message where
  rule : Option String
  severity : Option Int
  text : String
  line : Nat
  column : Nat
  suggestions : List Json

namespace Message

def ofFields (fields : Json.Fields) : Result Message := do
  let column ← withDefault 0 position (fields.get? "column")
  let line ← withDefault 0 position (fields.get? "line")
  let text ← withDefault "" string (fields.get? "message")
  let rule ← withDefault none (nullable string) (fields.get? "ruleId")
  let severity ← withDefault none (nullable code) (fields.get? "severity")
  let suggestions ← withDefault [] sequence (fields.get? "suggestions")
  .ok ⟨rule, severity, text, line, column, suggestions⟩

def ofItems (items : List Json) : Result Message := do
  let rule ← required .message 6 0 (nullable string) items[0]?
  let severity ← required .message 6 1 (nullable code) items[1]?
  let text ← withDefault "" string items[2]?
  let line ← withDefault 0 position items[3]?
  let column ← withDefault 0 position items[4]?
  let suggestions ← withDefault [] sequence items[5]?
  noSurplus 6 items
  .ok ⟨rule, severity, text, line, column, suggestions⟩

def ofJson : Json → Result Message
  | .obj fields => ofFields fields
  | .arr items => ofItems items
  | v => .error (.invalidType v (.record .message))

def diagnostic (path : String) (m : Message) : Diagnostic :=
  { path := path
    rule := m.rule.getD Diagnostic.unknownRule
    severity := Severity.ofCode m.severity
    line := m.line
    column := m.column
    message := m.text
    suggestions := m.suggestions }

end Message

def groupOfFields (fields : Json.Fields) : Result (Option String × List Message) := do
  let path ← withDefault none (nullable string) (fields.get? "filePath")
  let messages ← withDefault [] (listOf Message.ofJson) (fields.get? "messages")
  .ok (path, messages)

def groupOfItems (items : List Json) : Result (Option String × List Message) := do
  let path ← required .group 2 0 (nullable string) items[0]?
  let messages ← withDefault [] (listOf Message.ofJson) items[1]?
  noSurplus 2 items
  .ok (path, messages)

def groupOfJson : Json → Result (Option String × List Message)
  | .obj fields => groupOfFields fields
  | .arr items => groupOfItems items
  | v => .error (.invalidType v (.record .group))

def group (index : Nat) (v : Json) : Except ReportFault Group :=
  match groupOfJson v with
  | .error cause => .error (.group index cause)
  | .ok (none, _) => .error (.noPath index)
  | .ok (some path, messages) =>
    if path = "" then .error (.noPath index)
    else .ok ⟨path, messages.map (Message.diagnostic path)⟩

def groupsFrom (index : Nat) : List Json → Except ReportFault Report
  | [] => .ok []
  | v :: vs => do
    let g ← group index v
    let gs ← groupsFrom (index + 1) vs
    .ok (g :: gs)

def ofJson : Json → Except ReportFault Report
  | .arr groups => groupsFrom 0 groups
  | _ => .error .notAnArray

def ofText (t : Text) : Except ReportFault Report :=
  match Json.ofText? t with
  | some v => ofJson v
  | none => .error (.invalidJson t)

end Report
end LintRemedy
