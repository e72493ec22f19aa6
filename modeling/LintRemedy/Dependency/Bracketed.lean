import LintRemedy.Text.Basic

/-!
The last bracketed list of a line and the insertion of an element into it. A list is an opening
and a closing bracket with no bracket in between; where lists nest, only the innermost is one.
-/
namespace LintRemedy.Dependency
open Text (splitOn trim trimEnd trailingBlanks)

/-- A line cut at a list: `before`, `[`, `inner`, `]`, `after`. -/
structure Bracketed where
  before : Text
  inner : Text
  after : Text
  deriving DecidableEq, Repr

namespace Bracketed

def isBracket (c : Char) : Bool := c == '[' || c == ']'

def line (b : Bracketed) : Text := b.before ++ '[' :: b.inner ++ ']' :: b.after

def atHead? : Text → Option Bracketed
  | '[' :: rest => match rest.dropWhile (fun c => !isBracket c) with
    | ']' :: after => some ⟨[], rest.takeWhile (fun c => !isBracket c), after⟩
    | _ => none
  | _ => none

def last? : Text → Option Bracketed
  | [] => none
  | c :: rest => match last? rest with
    | some b => some { b with before := c :: b.before }
    | none => atHead? (c :: rest)

theorem lineOfLast {t : Text} {b : Bracketed} (h : last? t = some b) : b.line = t := by
  induction t generalizing b with
  | nil => contradiction
  | cons c rest ih =>
    simp only [last?] at h
    split at h
    · rename_i d hd
      cases Option.some.inj h
      have same := ih hd
      simp only [line] at same ⊢
      simp [same]
    · unfold atHead? at h
      split at h <;> try contradiction
      split at h <;> try contradiction
      rename_i heq _ after hafter
      cases heq
      cases Option.some.inj h
      simp only [line, List.nil_append, List.cons_append, ← hafter,
        List.takeWhile_append_dropWhile]

end Bracketed

def elements (inner : Text) : List Text :=
  ((splitOn ',' inner).map trim).filter (· != [])

def dropComma (t : Text) : Text := if t.getLast? = some ',' then t.dropLast else t

/-- Appends an element. Blanks at the end stay behind it, and a trailing comma is not doubled. -/
def append (inner name : Text) : Text :=
  if trim inner = [] then name
  else trimEnd (dropComma (trimEnd inner)) ++ [',', ' '] ++ name ++ trailingBlanks inner

def lists (line name : Text) : Bool :=
  (Bracketed.last? line).any fun b => (elements b.inner).contains name

def insert? (line name : Text) : Option Text := do
  let b ← Bracketed.last? line
  if (elements b.inner).contains name then none
  else some { b with inner := append b.inner name }.line

end LintRemedy.Dependency
