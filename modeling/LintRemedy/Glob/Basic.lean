import LintRemedy.Path

/-!
Glob patterns and the paths they match. A pattern is matched against the UTF-8 bytes of the whole
path as it is spelled; `*` and `?` also take slashes. Some patterns ask for the name of a file, and
those match no path that ends in two dots.
-/
namespace LintRemedy.Glob

abbrev Bytes := List UInt8

def bytes (c : Char) : Bytes := (String.ofList [c]).toUTF8.toList

inductive Token where
  | literal (c : Char)
  | anyByte
  | star
  | byteClass (negated : Bool) (ranges : List (Char × Char))
  /-- `**` in front: nothing, a slash, or anything up to a slash. -/
  | leadingStars
  /-- `/**` at the end: a slash and anything after it. -/
  | trailingStars
  /-- `/**/` in between: a slash, or two with anything between them. -/
  | innerStars
  | choice (branches : List (List Token))

def slash : UInt8 := 0x2f

/- A range between characters of several bytes joins the last byte of the one to the first byte of
the other; their other bytes stand for themselves. -/
def byteRanges (low high : Char) : List (UInt8 × UInt8) :=
  if low = high then (bytes low).map fun b => (b, b)
  else
    let last := (bytes low).getLast?.getD 0
    let first := (bytes high).headD 0
    (bytes low).dropLast.map (fun b => (b, b)) ++ (last, first) ::
      (bytes high).tail.map fun b => (b, b)

def inRanges (ranges : List (Char × Char)) (b : UInt8) : Bool :=
  ranges.any fun (low, high) => (byteRanges low high).any fun (l, h) => l ≤ b && b ≤ h

def ends : Bytes → List Bytes
  | [] => [[]]
  | b :: rest => (b :: rest) :: ends rest

def afterSlash (t : Bytes) : List Bytes :=
  (ends t).filterMap fun
    | b :: rest => if b = slash then some rest else none
    | [] => none

def afterBytes? : Bytes → Bytes → Option Bytes
  | [], t => some t
  | b :: bs, c :: rest => if b = c then afterBytes? bs rest else none
  | _ :: _, [] => none

/-- Different ends of one text differ in length, so equal lengths are the same end. -/
def distinct (rests : List Bytes) : List Bytes :=
  (rests.foldl
    (fun (seen, acc) r =>
      if seen.contains r.length then (seen, acc) else (r.length :: seen, r :: acc))
    (([], []) : List Nat × List Bytes)).2

mutual

def Token.rests : Token → Bytes → List Bytes
  | .literal c, t => (afterBytes? (bytes c) t).toList
  | .anyByte, t => match t with
    | _ :: rest => [rest]
    | [] => []
  | .star, t => ends t
  | .byteClass negated ranges, t => match t with
    | b :: rest => if inRanges ranges b != negated then [rest] else []
    | [] => []
  | .leadingStars, t => t :: afterSlash t
  | .trailingStars, t => match t with
    | b :: rest => if b = slash then ends rest else []
    | [] => []
  | .innerStars, t => match t with
    | b :: rest => if b = slash then rest :: afterSlash rest else []
    | [] => []
  | .choice branches, t => if noBranch branches then [t] else branchRests branches t

def sequenceRests : List Token → List Bytes → List Bytes
  | [], ts => ts
  | token :: tokens, ts => sequenceRests tokens (distinct (ts.flatMap token.rests))

def branchRests : List (List Token) → Bytes → List Bytes
  | [], _ => []
  | branch :: branches, t =>
    (if empty branch then [] else sequenceRests branch [t]) ++ branchRests branches t

def empty : List Token → Bool
  | [] => true
  | .choice branches :: tokens => noBranch branches && empty tokens
  | _ :: _ => false

def noBranch : List (List Token) → Bool
  | [] => true
  | branch :: branches => empty branch && noBranch branches

end

def literals? : List Token → Option Text
  | [] => some []
  | .literal c :: tokens => (literals? tokens).map (c :: ·)
  | _ :: _ => none

def endsInExtension : List Token → Bool
  | .literal c :: before => c == '.' || (c != '/' && endsInExtension before)
  | _ => false

def isExtension : Text → Bool
  | '.' :: rest => !rest.contains '.' && !rest.contains '/'
  | _ => false

/-- Whether a pattern asks for the name of a file: it gives the whole name in any directory, any
name with an extension, or an extension after more than stars. -/
def asksForName (tokens : List Token) : Bool :=
  let (anywhere, body) := match tokens with
    | .leadingStars :: body => (true, body)
    | body => (false, body)
  match literals? body with
  | some name => anywhere && name != [] && !name.contains '/'
  | none => match body with
    | .star :: rest => match literals? rest with
      | some t => isExtension t
      | none => endsInExtension tokens.reverse
    | _ => endsInExtension tokens.reverse

def isMatch (tokens : List Token) (path : String) : Bool :=
  match tokens with
  | [.leadingStars] => true
  | _ => !(asksForName tokens && Path.nameless path) &&
    (sequenceRests tokens [path.toUTF8.toList]).contains []

end LintRemedy.Glob
