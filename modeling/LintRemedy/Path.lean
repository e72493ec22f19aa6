import LintRemedy.Text.Basic

/-!
File paths as texts, compared by their components. Repeated and trailing slashes do not count, nor
does a dot, except at the start: `./a` and `a` are different paths.
-/
namespace LintRemedy.Path
open Text (splitOn)

inductive Component where
  | root
  | here
  | parent
  | name (n : Text)
  deriving DecidableEq, Repr

namespace Component

def rank : Component → Nat
  | root => 0
  | here => 1
  | parent => 2
  | name _ => 3

instance : Hashable Component where
  hash
    | name n => hash (String.ofList n)
    | c => hash c.rank

def before : Component → Component → Bool
  | name a, name b => a < b
  | a, b => a.rank < b.rank

def ofPart (part : Text) : Component := if part = ['.', '.'] then .parent else .name part

end Component

def parts (path : String) : List Text := splitOn '/' path.toList

def components (path : String) : List Component :=
  let rest := ((parts path).filter fun p => p != [] && p != ['.']).map Component.ofPart
  match path.toList, parts path with
  | '/' :: _, _ => .root :: rest
  | _, ['.'] :: _ => .here :: rest
  | _, _ => rest

def same (a b : String) : Bool := components a == components b

def listBefore : List Component → List Component → Bool
  | [], [] => false
  | [], _ :: _ => true
  | _ :: _, [] => false
  | a :: as, b :: bs => a.before b || (a == b && listBefore as bs)

def upTo (a b : String) : Bool := !listBefore (components b) (components a)

/-- Whether a path has no name at its end: two dots lead to a directory without naming it. -/
def nameless (path : String) : Bool := (parts path).getLast? == some ['.', '.']

def join (dir name : String) : String :=
  if dir = "" ∨ dir.toList.getLast? = some '/' then dir ++ name else dir ++ "/" ++ name

end LintRemedy.Path
