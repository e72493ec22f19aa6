import LintRemedy.Glob.Nesting

/-! Reading glob patterns, one character after another, with the groups that are still open. -/
namespace LintRemedy.Glob

inductive Fault where
  | unclosedClass
  | invalidRange (low high : Char)
  | unopenedGroup
  | unclosedGroup
  | danglingEscape
  deriving DecidableEq, Repr

def Fault.message : Fault → String
  | unclosedClass => "unclosed character class; missing ']'"
  | invalidRange low high =>
    "invalid range; '" ++ String.ofList [low] ++ "' > '" ++ String.ofList [high] ++ "'"
  | unopenedGroup =>
    "unopened alternate group; missing '\x7b' (maybe escape '\x7d' with '[\x7d]'?)"
  | unclosedGroup =>
    "unclosed alternate group; missing '\x7d' (maybe escape '\x7b' with '[\x7b]'?)"
  | danglingEscape => "dangling '\\'"

structure OpenClass where
  negated : Bool := false
  first : Bool := true
  /-- The last character was a hyphen that may join two ends of a range. -/
  joining : Bool := false
  ranges : List (Char × Char) := []

namespace OpenClass

def extend (k : OpenClass) (c : Char) : Except Fault OpenClass :=
  match k.ranges with
  | (low, _) :: rest =>
    if c < low then .error (.invalidRange low c)
    else .ok { k with first := false, joining := false, ranges := (low, c) :: rest }
  | [] => .ok k

def add (k : OpenClass) (c : Char) : Except Fault OpenClass :=
  if k.joining then k.extend c
  else if c = '-' ∧ !k.first then .ok { k with joining := true }
  else .ok { k with first := false, ranges := (c, c) :: k.ranges }

def token (k : OpenClass) : Token :=
  .byteClass k.negated (if k.joining then (('-', '-') :: k.ranges).reverse else k.ranges.reverse)

end OpenClass

inductive Mode where
  | plain
  | escaped
  | classStart
  | inClass (k : OpenClass)

/-- Tokens are held in reverse. An open group keeps its finished branches and the tokens before
it. -/
structure State where
  mode : Mode := .plain
  prev : Option Char := none
  tokens : List Token := []
  groups : List (List (List Token) × List Token) := []

namespace State

def push (s : State) (token : Token) : State := { s with tokens := token :: s.tokens }

def inGroup (s : State) : Bool := !s.groups.isEmpty

def openGroup (s : State) : State := { s with tokens := [], groups := ([], s.tokens) :: s.groups }

def nextBranch (s : State) : State :=
  match s.groups with
  | (done, before) :: outer =>
    { s with tokens := [], groups := (s.tokens.reverse :: done, before) :: outer }
  | [] => s.push (.literal ',')

def closeGroup (s : State) : Except Fault State :=
  match s.groups with
  | (done, before) :: outer =>
    .ok { s with
      tokens := .choice (s.tokens.reverse :: done).reverse :: before
      groups := outer }
  | [] => .error .unopenedGroup

/-- Puts stars in the place of the slash before them. Stars that already reach over slashes take
in the new ones. -/
def absorbSlash (s : State) (stars : Token) : State :=
  match s.tokens with
  | .leadingStars :: _ => s
  | .trailingStars :: _ => s
  | _ :: before => { s with tokens := stars :: before }
  | [] => s

/-- Two stars. They reach over whole components only where slashes or ends are on both sides of
them. Also gives whether the slash after them was read. -/
def twoStars (s : State) (next : Option Char) : State × Bool :=
  let pair := (s.push .star).push .star
  if s.tokens.isEmpty then
    if next = none ∨ next = some '/' then (s.push .leadingStars, true) else (pair, false)
  else if s.prev != some '/' && !(s.inGroup && (s.prev == some ',' || s.prev == some '{')) then
    (pair, false)
  else match next with
    | none => (s.absorbSlash .trailingStars, false)
    | some c =>
      if c = '/' then (s.absorbSlash .innerStars, true)
      else if s.inGroup && (c == ',' || c == '}') then (s.absorbSlash .trailingStars, false)
      else (pair, false)

def plainChar (s : State) (c : Char) : Except Fault State :=
  match c with
  | '?' => .ok (s.push .anyByte)
  | '[' => .ok { s with mode := .classStart }
  | '{' => .ok s.openGroup
  | '}' => s.closeGroup
  | ',' => .ok s.nextBranch
  | '\\' => .ok { s with mode := .escaped }
  | c => .ok (s.push (.literal c))

def classChar (s : State) (k : OpenClass) (c : Char) : Except Fault State :=
  if c = ']' ∧ !k.first then .ok { s.push k.token with mode := .plain }
  else do .ok { s with mode := .inClass (← k.add c) }

def scan (s : State) : Text → Except Fault State
  | [] => match s.mode with
    | .plain => if s.inGroup then .error .unclosedGroup else .ok s
    | .escaped => .error .danglingEscape
    | .classStart => .error .unclosedClass
    | .inClass _ => .error .unclosedClass
  | c :: rest => match s.mode with
    | .escaped => scan { s.push (.literal c) with mode := .plain, prev := some c } rest
    | .classStart =>
      if c = '!' ∨ c = '^' then
        scan { s with mode := .inClass { negated := true }, prev := some c } rest
      else do scan { (← s.classChar {} c) with prev := some c } rest
    | .inClass k => do scan { (← s.classChar k c) with prev := some c } rest
    | .plain =>
      if c = '*' then match rest with
        | '*' :: more =>
          let (s', passed) := s.twoStars more.head?
          match passed, more with
          | true, _ :: more => scan { s' with prev := some '/' } more
          | _, more => scan { s' with prev := some '*' } more
        | rest => scan { s.push .star with prev := some c } rest
      else do scan { (← s.plainChar c) with prev := some c } rest

end State

def read (pattern : String) : Except Fault (List Token) := do
  let s ← State.scan {} pattern.toList
  .ok s.tokens.reverse

structure Set where
  patterns : List (List Token)

def Set.isMatch (set : Set) (path : String) : Bool := set.patterns.any (Glob.isMatch · path)

inductive SetFault where
  | pattern (text : String) (cause : Fault)
  | tooDeep (patterns : List String)
  deriving DecidableEq, Repr

def readAll : List String → Except SetFault (List (List Token))
  | [] => .ok []
  | p :: ps => do
    let tokens ← match read p with
      | .ok tokens => .ok tokens
      | .error cause => .error (.pattern p cause)
    let rest ← readAll ps
    .ok (tokens :: rest)

def Set.ofPatterns (patterns : List String) : Except SetFault Set := do
  let ps ← readAll patterns
  if ps.any fun tokens => maxLevels < levels tokens then .error (.tooDeep patterns) else .ok ⟨ps⟩

end LintRemedy.Glob
