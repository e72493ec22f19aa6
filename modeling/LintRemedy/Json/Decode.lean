import LintRemedy.Json.Basic
import LintRemedy.Number.Shortest
import LintRemedy.Text.Hidden

/-!
Taking values of a known kind out of JSON, and the causes for which that fails. A record is read
from an object, or from an array that gives its fields in order.
-/
namespace LintRemedy
open scoped LintRemedy.Powers

inductive RecordKind where
  | group
  | message
  | config
  deriving DecidableEq, Repr

def RecordKind.text : RecordKind → String
  | group => "struct RawFileReport"
  | message => "struct RawMessage"
  | config => "struct MendConfig"

inductive Expected where
  | string
  | position
  | code
  | boolean
  | sequence
  | record (kind : RecordKind)
  deriving DecidableEq, Repr

def Expected.text : Expected → String
  | string => "a string"
  | position => "usize"
  | code => "i64"
  | boolean => "a boolean"
  | sequence => "a sequence"
  | record kind => kind.text

inductive DecodeError where
  | invalidType (found : Json) (expected : Expected)
  | invalidValue (found : Int) (expected : Expected)
  | tooShort (length : Nat) (kind : RecordKind) (fields : Nat)
  | tooLong (length : Nat)
  | unknownField (name : String) (known : List String)
  deriving DecidableEq

def Json.describe : Json → String
  | .null => "null"
  | .bool b => "boolean `" ++ toString b ++ "`"
  | .num (.int n) => "integer `" ++ toString n ++ "`"
  | .num (.float x) => "floating point `" ++ Shortest.text x ++ "`"
  | .str s => "string " ++ String.ofList (Text.quoted s.toList)
  | .arr _ => "sequence"
  | .obj _ => "map"

def DecodeError.message : DecodeError → String
  | invalidType found expected =>
    "invalid type: " ++ found.describe ++ ", expected " ++ expected.text
  | invalidValue found expected =>
    "invalid value: integer `" ++ toString found ++ "`, expected " ++ expected.text
  | tooShort length kind fields =>
    "invalid length " ++ toString length ++ ", expected " ++ kind.text ++ " with " ++
      toString fields ++ " elements"
  | tooLong length => "invalid length " ++ toString length ++ ", expected fewer elements in array"
  | unknownField name known =>
    "unknown field `" ++ name ++ "`, expected one of " ++
      ", ".intercalate (known.map fun k => "`" ++ k ++ "`")

/-- What the readers of documents and of patterns say of those that they refuse. The words are their
own and not fixed here. -/
structure Wording where
  json : Text → String
  jsonc : Text → String
  globs : List String → String

namespace Decode

abbrev Result := Except DecodeError

def string : Json → Result String
  | .str s => .ok s
  | v => .error (.invalidType v .string)

def boolean : Json → Result Bool
  | .bool b => .ok b
  | v => .error (.invalidType v .boolean)

def position : Json → Result Nat
  | .num (.int n) =>
    if 0 ≤ n ∧ n < 2 ^ (64 : Nat) then .ok n.toNat else .error (.invalidValue n .position)
  | v => .error (.invalidType v .position)

def code : Json → Result Int
  | .num (.int n) =>
    if -2 ^ (63 : Nat) ≤ n ∧ n < 2 ^ (63 : Nat) then .ok n else .error (.invalidValue n .code)
  | v => .error (.invalidType v .code)

def sequence : Json → Result (List Json)
  | .arr items => .ok items
  | v => .error (.invalidType v .sequence)

def list (element : Json → Result α) : List Json → Result (List α)
  | [] => .ok []
  | v :: vs => do
    let x ← element v
    let xs ← list element vs
    .ok (x :: xs)

def listOf (element : Json → Result α) (v : Json) : Result (List α) := do
  list element (← sequence v)

def nullable (decode : Json → Result α) : Json → Result (Option α)
  | .null => .ok none
  | v => do .ok (some (← decode v))

def withDefault (default : α) (decode : Json → Result α) : Option Json → Result α
  | none => .ok default
  | some v => decode v

def required (kind : RecordKind) (fields place : Nat) (decode : Json → Result α) :
    Option Json → Result α
  | none => .error (.tooShort place kind fields)
  | some v => decode v

def noSurplus (fields : Nat) (items : List Json) : Result Unit :=
  if items.length ≤ fields then .ok () else .error (.tooLong items.length)

end Decode
end LintRemedy
