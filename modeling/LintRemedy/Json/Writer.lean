import LintRemedy.Json.Basic
import LintRemedy.Number.Shortest
import LintRemedy.Text.Basic

/-!
JSON texts: compact, or laid out with two blanks for each level. Only the quote, the backslash and
the controls below U+0020 are escaped. Fields are written in the order in which they stand.
-/
namespace LintRemedy.Json

def escapedChar (c : Char) : Text :=
  if c = '"' then ['\\', '"']
  else if c = '\\' then ['\\', '\\']
  else if c = '\x08' then ['\\', 'b']
  else if c = '\t' then ['\\', 't']
  else if c = '\n' then ['\\', 'n']
  else if c = '\x0c' then ['\\', 'f']
  else if c = '\r' then ['\\', 'r']
  else if c.toNat < 0x20 then
    ['\\', 'u', '0', '0', Nat.digitChar (c.toNat / 16), Nat.digitChar (c.toNat % 16)]
  else [c]

def stringText (s : String) : Text := '"' :: s.toList.flatMap escapedChar ++ ['"']

def numberText : Number → Text
  | .int n => (toString n).toList
  | .float x => (Shortest.text x).toList

structure Layout where
  newline : Nat → Text
  colon : Text

def Layout.compact : Layout := ⟨fun _ => [], [':']⟩

def Layout.spread : Layout := ⟨fun level => '\n' :: List.replicate (2 * level) ' ', [':', ' ']⟩

def Layout.enclose (l : Layout) (level : Nat) (first last : Char) : List Text → Text
  | [] => [first, last]
  | part :: parts =>
    first :: l.newline (level + 1) ++ part ++
      parts.flatMap (fun p => ',' :: l.newline (level + 1) ++ p) ++ l.newline level ++ [last]

mutual

def write (l : Layout) (level : Nat) : Json → Text
  | .null => "null".toList
  | .bool b => (toString b).toList
  | .num n => numberText n
  | .str s => stringText s
  | .arr items => l.enclose level '[' ']' (writeItems l (level + 1) items)
  | .obj fields => l.enclose level '{' '}' (writeFields l (level + 1) fields)

def writeItems (l : Layout) (level : Nat) : List Json → List Text
  | [] => []
  | item :: items => write l level item :: writeItems l level items

def writeFields (l : Layout) (level : Nat) : List (String × Json) → List Text
  | [] => []
  | (key, value) :: fields =>
    (stringText key ++ l.colon ++ write l level value) :: writeFields l level fields

end

def compact (v : Json) : String := String.ofList (write .compact 0 v)

def pretty (v : Json) : String := String.ofList (write .spread 0 v)

end LintRemedy.Json
