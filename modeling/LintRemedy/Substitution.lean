import LintRemedy.Text.Word

/-!
A substitution reads a shape item by item and writes each item back, kept or changed. It runs
over a text from left to right; what it has read is not read again, also where a guard refuses
the change. Every item takes as much as it can and gives nothing back. A shape is written so that
no item starts with a character that the item before it would have taken.
-/
namespace LintRemedy

inductive Item where
  | word (w : Text)
  | blanks
  | someBlanks
  | name
  | optional (c : Char)
  deriving DecidableEq, Repr

namespace Item
open Text (isBlank isNameChar after?)

def take? : Item → Text → Option (Text × Text)
  | word w, t => (after? w t).map fun rest => (w, rest)
  | blanks, t => some (t.takeWhile isBlank, t.dropWhile isBlank)
  | someBlanks, t =>
    if t.takeWhile isBlank = [] then none
    else some (t.takeWhile isBlank, t.dropWhile isBlank)
  | name, t =>
    if t.takeWhile isNameChar = [] then none
    else some (t.takeWhile isNameChar, t.dropWhile isNameChar)
  | optional c, t => match after? [c] t with
    | some rest => some ([c], rest)
    | none => some ([], t)

theorem takeKeeps {i : Item} {t taken rest : Text} (h : i.take? t = some (taken, rest)) :
    taken ++ rest = t := by
  cases i with
  | word w =>
    simp only [take?, Option.map_eq_some_iff, Prod.mk.injEq] at h
    obtain ⟨r, hr, same, rfl⟩ := h
    rw [← same, Text.afterKeeps hr]
  | blanks => simp only [take?, Option.some.injEq, Prod.mk.injEq] at h; simp [← h.1, ← h.2]
  | someBlanks =>
    simp only [take?] at h; split at h <;> try contradiction
    simp only [Option.some.injEq, Prod.mk.injEq] at h; simp [← h.1, ← h.2]
  | name =>
    simp only [take?] at h; split at h <;> try contradiction
    simp only [Option.some.injEq, Prod.mk.injEq] at h; simp [← h.1, ← h.2]
  | optional c =>
    simp only [take?] at h; split at h
    · rename_i r hr
      simp only [Option.some.injEq, Prod.mk.injEq] at h
      rw [← h.1, ← h.2, Text.afterKeeps hr]
    · simp only [Option.some.injEq, Prod.mk.injEq] at h; simp [← h.1, ← h.2]

end Item

structure Step where
  item : Item
  put : Option Text := none
  deriving DecidableEq, Repr

namespace Step

def keep (item : Item) : Step := ⟨item, none⟩

def swap (item : Item) (new : Text) : Step := ⟨item, some new⟩

def write (s : Step) (taken : Text) : Text := s.put.getD taken

end Step

structure Found where
  old : Text
  new : Text
  rest : Text
  deriving DecidableEq, Repr

def Found.read? : List Step → Text → Option Found
  | [], t => some ⟨[], [], t⟩
  | s :: steps, t => do
    let (taken, rest) ← s.item.take? t
    let f ← read? steps rest
    some ⟨taken ++ f.old, s.write taken ++ f.new, f.rest⟩

theorem Found.readKeeps {steps : List Step} {t : Text} {f : Found}
    (h : Found.read? steps t = some f) : f.old ++ f.rest = t := by
  induction steps generalizing t f with
  | nil => cases Option.some.inj h; rfl
  | cons s steps ih =>
    simp only [Found.read?, bind, Option.bind_eq_some_iff] at h
    obtain ⟨⟨taken, rest⟩, hs, g, hg, last⟩ := h
    cases Option.some.inj last
    rw [List.append_assoc, ih hg, Item.takeKeeps hs]

inductive Guard where
  | notBeforeName
  | notBeforeClose
  | notAfterCatch
  deriving DecidableEq, Repr

/-- Whether the characters before a place, nearest first, end with `catch`, blanks, `(`, blanks.
The last blanks may run over line ends; the rest has to stand on one line. -/
def opensCatch (before : Text) : Bool :=
  let line := (before.dropWhile Text.isBlank).takeWhile (· != '\n')
  match line with
  | '(' :: rest => (Text.after? ['h', 'c', 't', 'a', 'c'] (rest.dropWhile Text.isBlank)).isSome
  | _ => false

/-- Judges a place by the characters before it, nearest first, and by those after it. -/
def Guard.allows : Guard → (before after : Text) → Bool
  | notBeforeName, _, after => !(after.head?.any Text.isNameChar)
  | notBeforeClose, _, after => (after.dropWhile Text.isBlank).head? != some ')'
  | notAfterCatch, before, _ => !opensCatch before

structure Substitution where
  name : String
  steps : List Step
  atWordStart : Bool := false
  guards : List Guard := []
  deriving DecidableEq, Repr

inductive Piece where
  | kept (text : Text)
  | swapped (old new : Text)
  deriving DecidableEq, Repr

namespace Piece

def source : Piece → Text
  | kept t => t
  | swapped old _ => old

def result : Piece → Text
  | kept t => t
  | swapped _ new => new

def changes : Piece → Bool
  | kept _ => false
  | swapped old new => old != new

end Piece

namespace Substitution

/-- Finds the shape at the start of `here`; `before` holds the characters before it, nearest
first. -/
def find? (s : Substitution) (before here : Text) : Option Found :=
  if s.atWordStart && before.head?.any Text.isWord then none else Found.read? s.steps here

def piece (s : Substitution) (before : Text) (f : Found) : Piece :=
  if s.guards.all (·.allows before f.rest) then .swapped f.old f.new else .kept f.old

/-- The pieces of a text; the first `skip` characters belong to a piece already given. -/
def piecesFrom (s : Substitution) : (before : Text) → (skip : Nat) → Text → List Piece
  | _, _, [] => []
  | before, skip + 1, c :: rest => piecesFrom s (c :: before) skip rest
  | before, 0, c :: rest => match s.find? before (c :: rest) with
    | none => .kept [c] :: piecesFrom s (c :: before) 0 rest
    | some f => s.piece before f :: piecesFrom s (c :: before) (f.old.length - 1) rest

def pieces (s : Substitution) (t : Text) : List Piece := s.piecesFrom [] 0 t

def change? (s : Substitution) (t : Text) : Option Text :=
  let ps := s.pieces t
  if ps.any Piece.changes then some (ps.flatMap Piece.result) else none

end Substitution
end LintRemedy
