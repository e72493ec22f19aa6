import LintRemedy.Json.Token

/-!
Documents from tokens. The strict dialect wants a comma between two elements and none after the
last; in the lenient one a comma may be left out, one may follow the last element, and words and
numbers may be keys.
-/
namespace LintRemedy.Json
open Token

def key? (loose : Bool) : Token → Option String
  | .str s => some s
  | .word w => if loose then some w else none
  | .num literal _ => if loose then some literal else none
  | _ => none

def numberValue? (loose : Bool) (literal : String) : Option Number → Option Json
  | some n => some (.num n)
  | none => if loose then some (.str literal) else none

/-- Passes the comma after an element. The list must go on behind it, or end in the lenient
dialect; without a comma it must end, or may go on in the lenient dialect. -/
def afterElement? (loose : Bool) (ends : Token → Bool) : List Token → Option (List Token)
  | .comma :: next :: rest => if ends next && !loose then none else some (next :: rest)
  | next :: rest => if ends next || loose then some (next :: rest) else none
  | [] => none

def closesArray : Token → Bool
  | .closeBracket => true
  | _ => false

def closesObject : Token → Bool
  | .closeBrace => true
  | _ => false

mutual

def value? (loose : Bool) : Nat → (depth : Nat) → List Token → Option (Json × List Token)
  | 0, _, _ => none
  | n + 1, depth, .openBracket :: rest => match depth with
    | 0 => none
    | depth + 1 => do
      let (items, rest) ← items? loose n depth rest
      some (.arr items, rest)
  | n + 1, depth, .openBrace :: rest => match depth with
    | 0 => none
    | depth + 1 => do
      let (fields, rest) ← fields? loose n depth rest
      some (ofFields fields, rest)
  | _ + 1, _, .str s :: rest => some (.str s, rest)
  | _ + 1, _, .num literal value :: rest => (numberValue? loose literal value).map (·, rest)
  | _ + 1, _, .constant v :: rest => some (v, rest)
  | _ + 1, _, _ => none

def items? (loose : Bool) : Nat → (depth : Nat) → List Token → Option (List Json × List Token)
  | 0, _, _ => none
  | _ + 1, _, .closeBracket :: rest => some ([], rest)
  | n + 1, depth, tokens => do
    let (item, rest) ← value? loose n depth tokens
    let rest ← afterElement? loose closesArray rest
    let (items, rest) ← items? loose n depth rest
    some (item :: items, rest)

def fields? (loose : Bool) : Nat → (depth : Nat) → List Token → Option (Fields × List Token)
  | 0, _, _ => none
  | _ + 1, _, .closeBrace :: rest => some ([], rest)
  | n + 1, depth, name :: .colon :: tokens => do
    let key ← key? loose name
    let (value, rest) ← value? loose n depth tokens
    let rest ← afterElement? loose closesObject rest
    let (fields, rest) ← fields? loose n depth rest
    some ((key, value) :: fields, rest)
  | _ + 1, _, _ => none

end

/-- The value of a document; the inner `none` is a document without one. Each token costs two
steps at most. -/
def read? (d : Dialect) (t : Text) : Option (Option Json) := do
  let tokens ← all? d t
  match tokens with
  | [] => some none
  | _ =>
    let (value, rest) ← value? d.loose (2 * tokens.length + 2) (d.depth.getD tokens.length) tokens
    if rest.isEmpty then some (some value) else none

def ofText? (t : Text) : Option Json := (read? strict t).bind id

def ofLenientText? (t : Text) : Option Json := (read? lenient t).map (·.getD (.obj []))

end LintRemedy.Json
