import LintRemedy.Text.Basic

/-!
What a hook diagnostic says is missing. The message names the dependencies in a chain of quoted
names right after an announcement; names quoted elsewhere in the message do not count.
-/
namespace LintRemedy.Dependency.Message
open Text (after?)

def announcements : List Text :=
  ["missing dependency: ".toList, "missing dependencies: ".toList]

/- `, and ` comes first: the plain comma would take its start only. -/
def separators : List Text := [", and ".toList, " and ".toList, ", ".toList]

def quoted? (t : Text) : Option (Text × Text) := do
  let t ← after? ['\''] t
  let name := t.takeWhile (· != '\'')
  let rest ← after? ['\''] (t.dropWhile (· != '\''))
  if name = [] then none else some (name, rest)

def dropSeparator (t : Text) : Text := (separators.findSome? (after? · t)).getD t

def chainWithin : Nat → Text → List Text
  | 0, _ => []
  | n + 1, t => match quoted? t with
    | none => []
    | some (name, rest) => name :: chainWithin n (dropSeparator rest)

/-- The names of the longest chain at the start of a text. A name takes three characters or
more, so the length of the text bounds their number. -/
def chain (t : Text) : List Text := chainWithin t.length t

def namesAt (t : Text) : List Text :=
  match announcements.findSome? (after? · t) with
  | some rest => chain rest
  | none => []

def missing? : Text → Option (List Text)
  | [] => none
  | c :: rest => match namesAt (c :: rest) with
    | [] => missing? rest
    | names => some names

end LintRemedy.Dependency.Message
