import LintRemedy.FileSystem
import LintRemedy.Path

/-!
A file system in memory. Entries stand under their names from the root down, and paths that do not
start at the root start at the working directory, which is always there. A path is followed name by
name, so that a file in the place of a directory is noticed. A name has at most 255 bytes and a path
fewer than 4096. What else may be in the way of an operation, such as a permission or a full disk,
is a refusal of the system.
-/
namespace LintRemedy

inductive Content where
  | text (t : Text)
  | bytes (b : List UInt8)
  deriving DecidableEq, Repr

def Content.ofBytes (b : ByteArray) : Content :=
  match String.fromUTF8? b with
  | some s => .text s.toList
  | none => .bytes b.toList

inductive Entry where
  | file (c : Content)
  | directory
  deriving DecidableEq, Repr

abbrev Names := List Text

inductive Operation where
  | read
  | replace
  | create
  | fill
  | remove
  deriving DecidableEq, Repr

structure Refusal where
  operation : Operation
  place : Names
  cause : String
  /-- How many characters a file has got when filling it is refused. -/
  kept : Nat
  deriving DecidableEq, Repr

structure Tree where
  base : Names
  entries : List (Names × Entry)
  refusals : List Refusal
  deriving DecidableEq, Repr

namespace Tree

def empty : Tree := ⟨[], [], []⟩

instance : Inhabited Tree := ⟨empty⟩

/-- The working directory and those that it lies in are always there. -/
def entryAt? (tree : Tree) (names : Names) : Option Entry :=
  if names.isPrefixOf tree.base then some .directory else tree.entries.lookup names

def put (tree : Tree) (names : Names) (e : Entry) : Tree :=
  { tree with entries := go tree.entries }
where
  go : List (Names × Entry) → List (Names × Entry)
    | [] => [(names, e)]
    | (n, old) :: rest => if n = names then (n, e) :: rest else (n, old) :: go rest

def erase (tree : Tree) (names : Names) : Tree :=
  { tree with entries := tree.entries.filter fun (n, _) => n != names }

def refusal? (tree : Tree) (operation : Operation) (place : Names) : Option Refusal :=
  tree.refusals.find? fun r => r.operation == operation && r.place == place

def byteSize (t : Text) : Nat := (String.ofList t).utf8ByteSize

def maxName : Nat := 255

def maxPath : Nat := 4095

def stepInto (tree : Tree) (place : Names) (part : Text) : Except IoFailure Names :=
  match tree.entryAt? place with
  | some .directory =>
    if part = [] ∨ part = ['.'] then .ok place
    else if part = ['.', '.'] then .ok place.dropLast
    else if maxName < byteSize part then .error .nameTooLong
    else match tree.entryAt? (place ++ [part]) with
      | some _ => .ok (place ++ [part])
      | none => .error .missing
  | some (.file _) => .error .notDirectory
  | none => .error .missing

def follow (tree : Tree) : Names → List Text → Except IoFailure Names
  | place, [] => .ok place
  | place, part :: parts => do
    let place ← tree.stepInto place part
    tree.follow place parts

def start (base : Names) (path : String) : Names :=
  if path.toList.head? = some '/' then [] else base

/-- A path is refused as a whole before any part of it is looked at. The empty path leads
nowhere. -/
def resolve (tree : Tree) (path : String) : Except IoFailure Names :=
  if path.toList.contains '\x00' then .error .nulInName
  else if path = "" then .error .missing
  else if maxPath < path.utf8ByteSize then .error .nameTooLong
  else tree.follow (start tree.base path) (Path.parts path)

def next (place : Names) (part : Text) : Names :=
  if part = [] ∨ part = ['.'] then place
  else if part = ['.', '.'] then place.dropLast
  else place ++ [part]

def target (base : Names) (path : String) : Names := (Path.parts path).foldl next (start base path)

def fileAt (tree : Tree) (path : String) : Except IoFailure (Names × Content) := do
  let place ← tree.resolve path
  match tree.entryAt? place with
  | some (.file c) => .ok (place, c)
  | some .directory => .error .isDirectory
  | none => .error .missing

def admitted (tree : Tree) (operation : Operation) (path : String) :
    Except IoFailure (Names × Content) := do
  let (place, c) ← tree.fileAt path
  match tree.refusal? operation place with
  | some r => .error (.other r.cause)
  | none => .ok (place, c)

def content (tree : Tree) (path : String) : Except IoFailure Content :=
  (tree.admitted .read path).map Prod.snd

def read (tree : Tree) (path : String) : Except IoFailure Text := do
  match ← tree.content path with
  | .text t => .ok t
  | .bytes _ => .error .notText

def kind (tree : Tree) (path : String) : Option EntryKind :=
  match tree.resolve path with
  | .ok place => (tree.entryAt? place).map fun
    | .file _ => .file
    | .directory => .directory
  | .error _ => none

def putAt (tree : Tree) (path : String) (e : Entry) : Tree := tree.put (target tree.base path) e

def write (tree : Tree) (path : String) (t : Text) : Tree := tree.putAt path (.file (.text t))

def replace (tree : Tree) (path : String) (t : Text) : Except IoFailure Unit × Tree :=
  match tree.admitted .replace path with
  | .ok _ => (.ok (), tree.write path t)
  | .error cause => (.error cause, tree)

def create (tree : Tree) (path : String) : Except IoFailure Unit × Tree :=
  match tree.resolve path with
  | .ok _ => (.error .alreadyExists, tree)
  | .error .missing => match tree.follow (start tree.base path) (Path.parts path).dropLast with
    | .ok _ => match tree.refusal? .create (target tree.base path) with
      | some r => (.error (.other r.cause), tree)
      | none => (.ok (), tree.write path [])
    | .error cause => (.error cause, tree)
  | .error cause => (.error cause, tree)

def fill (tree : Tree) (path : String) (t : Text) : Except IoFailure Unit × Tree :=
  match tree.fileAt path with
  | .ok (place, _) => match tree.refusal? .fill place with
    | some r => (.error (.other r.cause), tree.write path (t.take r.kept))
    | none => (.ok (), tree.write path t)
  | .error cause => (.error cause, tree)

def remove (tree : Tree) (path : String) : Except IoFailure Unit × Tree :=
  match tree.admitted .remove path with
  | .ok (place, _) => (.ok (), tree.erase place)
  | .error cause => (.error cause, tree)

def makeDirectory (tree : Tree) (names : Names) : Tree :=
  if (tree.entryAt? names).isSome then tree else tree.put names .directory

def makeEach (tree : Tree) (place : Names) : List Text → Tree
  | [] => tree
  | part :: parts => (tree.makeDirectory (next place part)).makeEach (next place part) parts

/-- Makes the directories that are missing on the way to an entry, also those that two dots lead
out of again. -/
def makeParents (tree : Tree) (path : String) : Tree :=
  tree.makeEach (start tree.base path) (Path.parts path).dropLast

def fileSystem : FileSystem (StateM Tree) where
  read path := do return (← get).read path
  kind path := do return (← get).kind path
  replace path t := modifyGet (·.replace path t)
  create path := modifyGet (·.create path)
  fill path t := modifyGet (·.fill path t)
  remove path := modifyGet (·.remove path)

end Tree
end LintRemedy
