import LintRemedy.Proofs.Patch

/-!
The dependency stage for names of any characters, brackets, commas and line ends among them. A name
goes between two brackets, so a line with a list goes on having one, though it may be another one.
Hence a finding that inserts nothing leaves its line as it was, and the text of the stage is that of
its lines, whether or not anything was inserted.
-/
namespace LintRemedy.Dependency
open Text (splitOn joinWith)
open Bracketed (isBracket last?)
open scoped LintRemedy.Counts

namespace Bracketed

theorem listedHead {inner after : Text} (plain : ∀ c ∈ inner, isBracket c = false) :
    last? ('[' :: (inner ++ ']' :: after)) ≠ none := by
  have head : atHead? ('[' :: (inner ++ ']' :: after)) = some ⟨[], inner, after⟩ :=
    headIff.mpr ⟨rfl, by simp [line], plain⟩
  rw [last?]
  split
  · simp
  · simp [head]

theorem listedIff {t : Text} :
    (last? t).isSome = true ↔ ∃ x y z, t = x ++ '[' :: (y ++ ']' :: z) := by
  constructor
  · intro listed
    obtain ⟨b, list⟩ := Option.isSome_iff_exists.mp listed
    refine ⟨b.before, b.inner, b.after, ?_⟩
    rw [← lineOfLast list]
    simp [line]
  · intro brackets
    obtain ⟨x, y, z, text⟩ := brackets
    -- The list starts at the last opening bracket and ends at the first closing one behind it.
    have opens : '[' ∈ ('[' :: y).reverse := by simp
    obtain ⟨v, u, split, lastOpen⟩ := List.eq_append_cons_of_mem opens
    have opening : '[' :: y = u.reverse ++ '[' :: v.reverse := by
      rw [← List.reverse_reverse ('[' :: y), split]
      simp
    have closes : ']' ∈ v.reverse ++ [']'] := by simp
    obtain ⟨inner, w, split', firstClose⟩ := List.eq_append_cons_of_mem closes
    have plain : ∀ c ∈ inner, isBracket c = false := by
      intro c mem
      have inside : c ∈ v.reverse ++ [']'] := by simp [split', mem]
      simp only [List.mem_append, List.mem_reverse, List.mem_singleton] at inside
      simp only [isBracket, Bool.or_eq_false_iff, beq_eq_false_iff_ne]
      refine ⟨?_, fun same => firstClose (same ▸ mem)⟩
      intro same
      subst same
      rcases inside with open_ | close
      · exact lastOpen open_
      · exact absurd close (by decide)
    have whole : t = (x ++ u.reverse) ++ '[' :: (inner ++ ']' :: (w ++ z)) := by
      have tail : v.reverse ++ ']' :: z = inner ++ ']' :: (w ++ z) := by
        simpa using congrArg (· ++ z) split'
      rw [text, ← List.cons_append, opening]
      simp [tail]
    rw [Option.isSome_iff_ne_none]
    intro none
    rw [whole] at none
    exact listedHead plain (lastLater none)

end Bracketed

theorem insertListed {line name edited : Text} (inserted : insert? line name = some edited) :
    (last? edited).isSome = true := by
  obtain ⟨b, -, -, rfl⟩ := insertIff.mp inserted
  exact Bracketed.listedIff.mpr ⟨b.before, append b.inner name, b.after, by simp [Bracketed.line]⟩

theorem insertNone {line name : Text} (list : (last? line).isSome = true)
    (nowhere : insert? line name = none) : lists line name = true := by
  obtain ⟨b, list⟩ := Option.isSome_iff_exists.mp list
  by_cases present : name ∈ elements b.inner
  · exact (insertPresent list present).2
  · simp [insertAbsent list present] at nowhere

theorem insertNamesOnList {line : Text} (list : (last? line).isSome = true) (names : List Text) :
    (last? (insertNames names line).1).isSome = true ∧
      ∃ n, (insertNames names line).2 = some n ∧ (n = 0 → (insertNames names line).1 = line) := by
  induction names generalizing line with
  | nil => exact ⟨list, 0, rfl, fun _ => rfl⟩
  | cons name names ih =>
    rw [insertNames]
    cases inserted : insert? line name with
    | none =>
      rw [insertNone list inserted]
      exact ih list
    | some edited =>
      obtain ⟨listed, n, count, -⟩ := ih (insertListed inserted)
      exact ⟨listed, n + 1, by simp [count], fun zero => absurd zero (by simp)⟩

theorem insertNamesSameList (names : List Text) (line : Text) :
    (last? (insertNames names line).1).isSome = (last? line).isSome := by
  cases list : last? line with
  | none => rw [(insertNamesUnlisted list names).1, list]
  | some b =>
    have listed : (last? line).isSome = true := by simp [list]
    rw [(insertNamesOnList listed names).1]
    rfl

theorem insertNamesUncounted {names : List Text} {line : Text}
    (zero : (insertNames names line).2.getD 0 = 0) : (insertNames names line).1 = line := by
  cases list : last? line with
  | none => exact (insertNamesUnlisted list names).1
  | some b =>
    have listed : (last? line).isSome = true := by simp [list]
    obtain ⟨-, n, count, idle⟩ := insertNamesOnList listed names
    rw [count] at zero
    exact idle zero

theorem patchOneUncounted {lines : List Text} {d : Diagnostic}
    (zero : (patchOne lines d).2.count = 0) : (patchOne lines d).1 = lines := by
  rcases patchOneCases lines d with ⟨k, line, -, here, edited, count⟩ | ⟨-, same, -⟩
  · rw [count] at zero
    obtain ⟨inside, rfl⟩ := List.getElem?_eq_some_iff.mp here
    rw [edited, insertNamesUncounted zero, List.set_getElem_self]
  · exact same

theorem patchLinesUncounted {ds : List Diagnostic} {lines : List Text}
    (zero : ((patchLines ds lines).2.map fun (_, s) => s.count).sum = 0) :
    (patchLines ds lines).1 = lines := by
  induction ds generalizing lines with
  | nil => rfl
  | cons d ds ih =>
    have total : ((patchLines (d :: ds) lines).2.map fun (_, s) => s.count).sum =
        (patchOne lines d).2.count +
          ((patchLines ds (patchOne lines d).1).2.map fun (_, s) => s.count).sum := rfl
    have text : (patchLines (d :: ds) lines).1 = (patchLines ds (patchOne lines d).1).1 := rfl
    rw [total] at zero
    have first : (patchOne lines d).1 = lines := patchOneUncounted (by omega)
    rw [first] at zero text
    rw [text]
    exact ih (by omega)

theorem patchWhole (t : Text) (ds : List Diagnostic) :
    (patch t ds).text = joinWith '\n'
      ((splitOn '\n' t).mapIdx fun i => insertAll (targeting (ds.filter handles) i)) := by
  rw [← patchLinesMap, patchEither]
  split
  · rename_i none
    rw [patchLinesUncounted none, Text.joinSplit]
  · rfl

end LintRemedy.Dependency
