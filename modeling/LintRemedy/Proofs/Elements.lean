import LintRemedy.Dependency.Bracketed
import LintRemedy.Proofs.Reading
import Mathlib.Data.List.TakeWhile

/-!
Cutting a text at a separator, and the elements of a dependency list. An appended name becomes the
last element, whatever blanks and trailing comma the list was written with.
-/
namespace LintRemedy
open Text (isBlank isNameChar starts splitOn joinWith trim trimStart trimEnd trailingBlanks)

namespace Text

theorem splitSingle {sep : Char} {t : Text} (absent : sep ∉ t) : splitOn sep t = [t] := by
  induction t with
  | nil => rfl
  | cons c t ih =>
    have other : c ≠ sep := fun same => absent (by simp [same])
    have later : sep ∉ t := fun mem => absent (by simp [mem])
    simp [splitOn, other, ih later]

theorem splitAppend (sep : Char) (x y : Text) :
    splitOn sep (x ++ sep :: y) = splitOn sep x ++ splitOn sep y := by
  induction x with
  | nil => simp [splitOn]
  | cons c x ih =>
    have some := splitOnNonempty sep x
    simp only [List.cons_append, splitOn, ih]
    split
    · rfl
    · cases parts : splitOn sep x with
      | nil => exact absurd parts some
      | cons part rest => simp

theorem splitParts {sep : Char} {t : Text} : ∀ part ∈ splitOn sep t, sep ∉ part := by
  induction t with
  | nil => simp [splitOn]
  | cons c t ih =>
    simp only [splitOn]
    split
    · simpa using ih
    · rename_i other
      cases parts : splitOn sep t with
      | nil => exact absurd parts (splitOnNonempty sep t)
      | cons part rest =>
        rw [parts] at ih
        simp only [List.forall_mem_cons] at ih ⊢
        refine ⟨?_, ih.2⟩
        simp only [List.mem_cons, not_or]
        exact ⟨Ne.symm other, ih.1⟩

theorem splitJoin {sep : Char} {parts : List Text} (some : parts ≠ [])
    (apart : ∀ part ∈ parts, sep ∉ part) : splitOn sep (joinWith sep parts) = parts := by
  induction parts with
  | nil => exact absurd rfl some
  | cons part parts ih =>
    cases parts with
    | nil => exact splitSingle (apart part (by simp))
    | cons next parts =>
      have later := ih (by simp) (fun p mem => apart p (by simp [mem]))
      rw [joinWith, splitAppend, later, splitSingle (apart part (by simp))]
      rfl

theorem trimEndPad {x pad : Text} (blank : ∀ c ∈ pad, isBlank c = true) :
    trimEnd (x ++ pad) = trimEnd x := by
  unfold trimEnd
  rw [List.reverse_append, List.dropWhile_append_of_pos (by simpa using blank)]

theorem trimPad {x pad : Text} (blank : ∀ c ∈ pad, isBlank c = true) :
    trim (x ++ pad) = trim x := by
  unfold trim trimStart
  rw [List.dropWhile_append]
  split
  · rename_i empty
    have gone : pad.dropWhile isBlank = [] := List.dropWhile_eq_nil_iff.mpr blank
    rw [gone, List.isEmpty_iff.mp empty]
  · exact trimEndPad blank

theorem trimBetween {pre core pad : Text} (blankPre : ∀ c ∈ pre, isBlank c = true)
    (first : starts isBlank core = false) (last : starts isBlank core.reverse = false)
    (blankPad : ∀ c ∈ pad, isBlank c = true) : trim (pre ++ core ++ pad) = core := by
  rw [trimPad blankPad, trim, trimStart, runDropped blankPre first, trimEnd]
  have kept := runDropped (x := []) (by simp) last
  rw [List.nil_append] at kept
  rw [kept, List.reverse_reverse]

theorem trimEmpty {t : Text} (empty : trim t = []) : ∀ c ∈ t, isBlank c = true := by
  have tail : ∀ c ∈ trimStart t, isBlank c = true := by
    have gone : (trimStart t).reverse.dropWhile isBlank = [] := by
      simpa [trim, trimEnd] using empty
    simpa using List.dropWhile_eq_nil_iff.mp gone
  have stop : starts isBlank (trimStart t) = false := runStops isBlank t
  have nothing : t.dropWhile isBlank = [] := by
    change trimStart t = []
    cases start : trimStart t with
    | nil => rfl
    | cons c rest =>
      have blank := tail c (by simp [start])
      simp [start, blank] at stop
  exact List.dropWhile_eq_nil_iff.mp nothing

theorem partJoined {sep : Char} {parts : List Text} {part : Text} (inside : part ∈ parts) :
    part <:+: joinWith sep parts := by
  induction parts with
  | nil => contradiction
  | cons first parts ih =>
    cases parts with
    | nil =>
      cases List.mem_singleton.mp inside
      exact ⟨[], [], by simp [joinWith]⟩
    | cons next parts =>
      rcases List.mem_cons.mp inside with rfl | later
      · exact ⟨[], _, rfl⟩
      · obtain ⟨x, y, same⟩ := ih later
        exact ⟨first ++ sep :: x, y, by simp [joinWith, ← same]⟩

theorem partWithin {sep : Char} {t part : Text} (inside : part ∈ splitOn sep t) : part <:+: t := by
  have joined : part <:+: joinWith sep (splitOn sep t) := partJoined inside
  rwa [joinSplit] at joined

theorem trimWithin (t : Text) : trim t <:+: t := by
  have front : trimEnd (trimStart t) <+: trimStart t := ⟨_, trimEndKeeps _⟩
  exact front.isInfix.trans (List.dropWhile_suffix isBlank).isInfix

theorem trailingBlank (t : Text) : ∀ c ∈ trailingBlanks t, isBlank c = true := by
  intro c mem
  rw [trailingBlanks, List.mem_reverse] at mem
  exact runAll isBlank t.reverse c mem

end Text

namespace Dependency

def isPathChar (c : Char) : Bool := isNameChar c || c == '.' || c == '?'

structure PathLike (name : Text) : Prop where
  some : name ≠ []
  chars : ∀ c ∈ name, isPathChar c = true

instance (name : Text) : Decidable (PathLike name) :=
  decidable_of_iff (name ≠ [] ∧ ∀ c ∈ name, isPathChar c = true)
    ⟨fun h => ⟨h.1, h.2⟩, fun h => ⟨h.some, h.chars⟩⟩

theorem pathNotBlank {c : Char} (path : isPathChar c = true) : isBlank c = false := by
  simp only [isPathChar, Bool.or_eq_true, beq_iff_eq] at path
  rcases path with (named | rfl) | rfl
  · exact Text.nameNotBlank named
  · rfl
  · rfl

theorem PathLike.lacks {name : Text} (path : PathLike name) {c : Char}
    (other : isPathChar c = false) : c ∉ name := by
  intro mem
  simp [path.chars c mem] at other

theorem PathLike.starts {name : Text} (path : PathLike name) (rest : Text) :
    Text.starts isBlank (name ++ rest) = false := by
  cases named : name with
  | nil => exact absurd named path.some
  | cons c tail => exact pathNotBlank (path.chars c (by simp [named]))

theorem PathLike.ends {name : Text} (path : PathLike name) :
    Text.starts isBlank name.reverse = false := by
  cases back : name.reverse with
  | nil => rfl
  | cons c tail =>
    have mem : c ∈ name := by
      rw [← List.mem_reverse, back]
      exact List.mem_cons_self
    exact pathNotBlank (path.chars c mem)

theorem elementsJoin (x y : Text) : elements (x ++ ',' :: y) = elements x ++ elements y := by
  simp [elements, Text.splitAppend]

theorem elementWithin {inner element : Text} (listed : element ∈ elements inner) :
    element <:+: inner := by
  obtain ⟨trimmed, -⟩ := List.mem_filter.mp listed
  obtain ⟨part, inside, rfl⟩ := List.mem_map.mp trimmed
  exact (Text.trimWithin part).trans (Text.partWithin inside)

theorem elementsSingle {t : Text} (absent : ',' ∉ t) :
    elements t = if trim t = [] then [] else [trim t] := by
  rw [elements, Text.splitSingle absent]
  split <;> simp_all

theorem elementsPad {x pad : Text} (blank : ∀ c ∈ pad, isBlank c = true) :
    elements (x ++ pad) = elements x := by
  have noComma : ',' ∉ pad := fun mem => absurd (blank ',' mem) (by decide)
  by_cases comma : ',' ∈ x
  · -- Only what follows the last comma meets the blanks.
    obtain ⟨b, a, split, absent⟩ := List.eq_append_cons_of_mem (List.mem_reverse.mpr comma)
    have parts : x = a.reverse ++ ',' :: b.reverse := by
      rw [← List.reverse_reverse x, split]
      simp
    have lastPart : ',' ∉ b.reverse := by simpa using absent
    have joined : ',' ∉ b.reverse ++ pad := by simp [noComma, absent]
    rw [parts, List.append_assoc, List.cons_append, elementsJoin, elementsJoin,
      elementsSingle joined, elementsSingle lastPart, Text.trimPad blank]
  · have joined : ',' ∉ x ++ pad := by simp [noComma, comma]
    rw [elementsSingle joined, elementsSingle comma, Text.trimPad blank]

theorem elementsTrimEnd (t : Text) : elements (trimEnd t) = elements t := by
  have whole := elementsPad (x := trimEnd t) (Text.trailingBlank t)
  rw [Text.trimEndKeeps] at whole
  exact whole.symm

theorem elementsDropComma (t : Text) : elements (dropComma t) = elements t := by
  unfold dropComma
  split
  · rename_i last
    have whole : t.dropLast ++ [','] = t := List.dropLast_append_getLast? ',' last
    have joined := elementsJoin t.dropLast []
    rw [whole] at joined
    simpa [elements, splitOn, trim, trimStart, trimEnd] using joined.symm
  · rfl

theorem elementsPath {name : Text} (path : PathLike name) : elements name = [name] := by
  have same : trim name = name := by
    have between : trim ([] ++ name ++ []) = name := Text.trimBetween (by simp)
      (by simpa using path.starts []) path.ends (by simp)
    simpa using between
  rw [elementsSingle (path.lacks (by decide)), same, if_neg path.some]

theorem elementsAppend (inner : Text) {name : Text} (path : PathLike name) :
    elements (append inner name) = elements inner ++ [name] := by
  unfold append
  split
  · rename_i empty
    have noComma : ',' ∉ inner := fun mem => absurd (Text.trimEmpty empty ',' mem) (by decide)
    rw [elementsPath path, elementsSingle noComma, if_pos empty]
    rfl
  · have behind : elements ([' '] ++ name ++ trailingBlanks inner) = [name] := by
      rw [elementsPad (Text.trailingBlank inner)]
      have noComma : ',' ∉ [' '] ++ name := by
        simpa using path.lacks (c := ',') (by decide)
      have trimmed : trim ([' '] ++ name ++ []) = name := Text.trimBetween (by decide)
        (by simpa using path.starts []) path.ends (by simp)
      rw [List.append_nil] at trimmed
      rw [elementsSingle noComma, trimmed, if_neg path.some]
    have front : elements (trimEnd (dropComma (trimEnd inner))) = elements inner := by
      rw [elementsTrimEnd, elementsDropComma, elementsTrimEnd]
    have joined := elementsJoin (trimEnd (dropComma (trimEnd inner)))
      ([' '] ++ name ++ trailingBlanks inner)
    rw [front, behind] at joined
    simpa using joined

theorem trimEndSubset (t : Text) : trimEnd t ⊆ t := by
  intro c mem
  rw [← Text.trimEndKeeps t]
  exact List.mem_append_left _ mem

theorem appendChars {inner name : Text} {c : Char} (mem : c ∈ append inner name) :
    c ∈ inner ∨ c ∈ name ∨ c = ',' ∨ c = ' ' := by
  unfold append at mem
  split at mem
  · exact .inr (.inl mem)
  · have drop : dropComma (trimEnd inner) ⊆ trimEnd inner := by
      unfold dropComma
      split
      · exact List.dropLast_subset _
      · exact List.Subset.refl _
    simp only [List.mem_append, List.mem_cons, List.not_mem_nil, or_false] at mem
    rcases mem with ((front | mark) | named) | pad
    · exact .inl (trimEndSubset _ (drop (trimEndSubset _ front)))
    · exact .inr (.inr mark)
    · exact .inr (.inl named)
    · refine .inl ?_
      rw [← Text.trimEndKeeps inner]
      exact List.mem_append_right _ pad

end Dependency
end LintRemedy
