import LintRemedy.Proofs.Insertion

/-!
Lists whose elements have brackets themselves. If the brackets inside of a list are balanced and none
stands behind it, a name goes into that list exactly when it holds no bracket. Otherwise the name
goes into the last list of those inside it, and the outer list gets no element.
-/
namespace LintRemedy
open Text (isBlank starts trim trimEnd trailingBlanks)

namespace Text

theorem trimBlank {t : Text} (blank : ∀ c ∈ t, isBlank c = true) : trim t = [] := by
  have empty : trim ([] ++ t) = [] := trimPad blank
  exact empty

theorem trimEndSolid {body pad : Text} (ends : starts isBlank body.reverse = false)
    (blank : ∀ c ∈ pad, isBlank c = true) : trimEnd (body ++ pad) = body := by
  have kept := runDropped (x := []) (by simp) ends
  rw [List.nil_append] at kept
  rw [trimEndPad blank, trimEnd, kept, List.reverse_reverse]

theorem trailingSolid {body pad : Text} (ends : starts isBlank body.reverse = false)
    (blank : ∀ c ∈ pad, isBlank c = true) : trailingBlanks (body ++ pad) = pad := by
  have whole := trimEndKeeps (body ++ pad)
  rw [trimEndSolid ends blank] at whole
  exact List.append_cancel_left whole

theorem trimEndEnds (t : Text) : starts isBlank (trimEnd t).reverse = false := by
  rw [trimEnd, List.reverse_reverse]
  exact runStops isBlank t.reverse

end Text

namespace Dependency
open Bracketed (isBracket last?)

inductive Balanced : Text → Prop where
  | nil : Balanced []
  | plain {c : Char} {t : Text} (other : isBracket c = false) (tail : Balanced t) :
      Balanced (c :: t)
  | nested {u t : Text} (inside : Balanced u) (tail : Balanced t) :
      Balanced ('[' :: (u ++ ']' :: t))

/-- A list with a name behind what it held: alone if it was blank, and else behind a comma. A comma
that the list ended with goes, together with the blanks before it; the blanks at the end stay. -/
inductive Extended (name : Text) : (inner longer : Text) → Prop where
  | blank {inner : Text} (blank : ∀ c ∈ inner, isBlank c = true) : Extended name inner name
  | unended {front pad : Text} {c : Char} (solid : isBlank c = false) (other : c ≠ ',')
      (blank : ∀ c ∈ pad, isBlank c = true) :
      Extended name (front ++ [c] ++ pad) (front ++ [c] ++ [',', ' '] ++ name ++ pad)
  | ended {front gap pad : Text} (solid : starts isBlank front.reverse = false)
      (between : ∀ c ∈ gap, isBlank c = true) (blank : ∀ c ∈ pad, isBlank c = true) :
      Extended name (front ++ gap ++ [','] ++ pad) (front ++ [',', ' '] ++ name ++ pad)

theorem extendedSome (name inner : Text) : ∃ longer, Extended name inner longer := by
  have whole := Text.trimEndKeeps inner
  have pad := Text.trailingBlank inner
  have ends := Text.trimEndEnds inner
  cases last : (trimEnd inner).getLast? with
  | none =>
    rw [List.getLast?_eq_none_iff.mp last, List.nil_append] at whole
    rw [whole] at pad
    exact ⟨name, .blank pad⟩
  | some c =>
    have cut := List.dropLast_append_getLast? c last
    generalize (trimEnd inner).dropLast = front at cut
    rw [← cut] at whole ends
    rw [← whole]
    by_cases comma : c = ','
    · -- The blanks before the comma go with it.
      rw [comma, ← Text.trimEndKeeps front]
      exact ⟨_, .ended (Text.trimEndEnds front) (Text.trailingBlank front) pad⟩
    · exact ⟨_, .unended (by simpa using ends) comma pad⟩

theorem Extended.appended {name inner longer : Text} (extended : Extended name inner longer) :
    longer = append inner name := by
  have held {front pad : Text} {c : Char} (solid : isBlank c = false) :
      trim (front ++ [c] ++ pad) ≠ [] := by
    intro empty
    have blank := Text.trimEmpty empty c (by simp)
    simp [solid] at blank
  cases extended with
  | blank blank => rw [append, if_pos (Text.trimBlank blank)]
  | @unended front pad c solid other blank =>
    have ends : starts isBlank (front ++ [c]).reverse = false := by simpa using solid
    have stays : trimEnd (front ++ [c] ++ []) = front ++ [c] := Text.trimEndSolid ends (by simp)
    rw [List.append_nil] at stays
    rw [append, if_neg (held solid), Text.trimEndSolid ends blank, Text.trailingSolid ends blank,
      dropComma, if_neg (by simpa using other), stays]
  | @ended front gap pad solid between blank =>
    have ends : starts isBlank (front ++ gap ++ [',']).reverse = false := by simp [isBlank]
    rw [append, if_neg (held (by decide)), Text.trimEndSolid ends blank,
      Text.trailingSolid ends blank, dropComma, if_pos (by simp), List.dropLast_concat,
      Text.trimEndSolid solid between]

theorem extendedIff {name inner longer : Text} :
    Extended name inner longer ↔ longer = append inner name := by
  constructor
  · exact Extended.appended
  · rintro rfl
    obtain ⟨longer, extended⟩ := extendedSome name inner
    rwa [← extended.appended]

theorem Extended.tail {name inner longer : Text} (extended : Extended name inner longer)
    (path : PathLike name) :
    ∃ front tail, longer = front ++ tail ∧ name <:+: tail ∧ ']' ∉ tail := by
  have marked (front : Text) {pad : Text} (blank : ∀ c ∈ pad, isBlank c = true) :
      ∃ front' tail, front ++ [',', ' '] ++ name ++ pad = front' ++ tail ∧ name <:+: tail ∧
        ']' ∉ tail := by
    have closed : ']' ∉ pad := fun mem => absurd (blank ']' mem) (by decide)
    have named : ']' ∉ name := path.lacks (by decide)
    exact ⟨front, [',', ' '] ++ name ++ pad, by simp, ⟨[',', ' '], pad, rfl⟩, by simp [named, closed]⟩
  cases extended with
  | blank blank => exact ⟨[], name, rfl, List.infix_rfl, path.lacks (by decide)⟩
  | unended solid other blank => exact marked _ blank
  | ended solid between blank => exact marked _ blank

namespace Balanced

theorem text {t u : Text} (plain : ∀ c ∈ u, isBracket c = false) (tail : Balanced t) :
    Balanced (u ++ t) := by
  induction u with
  | nil => exact tail
  | cons c u ih =>
    rw [List.forall_mem_cons] at plain
    exact .plain plain.1 (ih plain.2)

theorem innermost {t : Text} (balanced : Balanced t) (some : ∃ c ∈ t, isBracket c = true) :
    ∃ b : Bracketed, t = b.line ∧ (∀ c ∈ b.inner, isBracket c = false) ∧ '[' ∉ b.after := by
  induction balanced with
  | nil => simp at some
  | @plain c t other tail ih =>
    obtain ⟨b, text, inner, behind⟩ := ih (by simpa [other] using some)
    exact ⟨{ b with before := c :: b.before }, by simp [Bracketed.line, text], inner, behind⟩
  | @nested u t inside tail ihInside ihTail =>
    by_cases later : ∃ c ∈ t, isBracket c = true
    · obtain ⟨b, text, inner, behind⟩ := ihTail later
      exact ⟨{ b with before := '[' :: (u ++ ']' :: b.before) }, by simp [Bracketed.line, text],
        inner, behind⟩
    · have noOpen : '[' ∉ t := fun mem => later ⟨'[', mem, rfl⟩
      by_cases deeper : ∃ c ∈ u, isBracket c = true
      · obtain ⟨b, text, inner, behind⟩ := ihInside deeper
        exact ⟨⟨'[' :: b.before, b.inner, b.after ++ ']' :: t⟩, by simp [Bracketed.line, text],
          inner, by simp [behind, noOpen]⟩
      · exact ⟨⟨[], u, t⟩, by simp [Bracketed.line], by simpa using deeper, noOpen⟩

end Balanced

namespace Bracketed

def inside (b nested : Bracketed) : Bracketed :=
  ⟨b.before ++ '[' :: nested.before, nested.inner, nested.after ++ ']' :: b.after⟩

theorem insideLine (b nested : Bracketed) :
    (b.inside nested).line = { b with inner := nested.line }.line := by
  simp [inside, line]

theorem lineInner {b : Bracketed} {x y : Text}
    (same : { b with inner := x }.line = { b with inner := y }.line) : x = y := by
  have inner := List.append_cancel_left (List.append_cancel_right same)
  exact (List.cons.inj inner).2

theorem lastPlain {b : Bracketed} (plain : ∀ c ∈ b.inner, isBracket c = false)
    (behind : '[' ∉ b.after) : last? b.line = some b := by
  have unlisted : last? (b.after ++ []) = none := lastSkip behind rfl
  rw [List.append_nil] at unlisted
  exact lastIff.mpr ⟨rfl, plain, unlisted⟩

theorem insertPlain {b : Bracketed} {name : Text} (plain : ∀ c ∈ b.inner, isBracket c = false)
    (behind : '[' ∉ b.after) (absent : ¬ name <:+: b.inner) :
    insert? b.line name = some { b with inner := append b.inner name }.line :=
  insertAbsent (lastPlain plain behind) fun listed => absent (elementWithin listed)

end Bracketed

theorem tailWithin {front tail x y : Text} (unclosed : ']' ∉ tail)
    (same : front ++ tail = x ++ ']' :: y) : tail <:+: y := by
  rcases List.append_eq_append_iff.mp same with ⟨z, -, rest⟩ | ⟨z, -, rest⟩
  · have closed : ']' ∈ tail := by simp [rest]
    exact absurd closed unclosed
  · cases z with
    | nil =>
      have closed : ']' ∈ tail := by
        rw [← List.nil_append tail, ← rest]
        exact List.mem_cons_self
      exact absurd closed unclosed
    | cons c z =>
      have behind : y = z ++ tail := (List.cons.inj rest).2
      exact ⟨z, [], by simp [behind]⟩

section Inside
variable {b nested : Bracketed} {name : Text} (text : b.inner = nested.line)
  (absent : ¬ name <:+: b.inner)
include text absent

theorem insertInside (plain : ∀ c ∈ nested.inner, isBracket c = false)
    (noneInside : '[' ∉ nested.after) (noneBehind : '[' ∉ b.after) :
    insert? b.line name =
      some { b with inner := { nested with inner := append nested.inner name }.line }.line := by
  have outer : b.line = (b.inside nested).line := by rw [Bracketed.insideLine, ← text]
  have behind : '[' ∉ (b.inside nested).after := by simp [Bracketed.inside, noneInside, noneBehind]
  have elsewhere : ¬ name <:+: nested.inner := by
    intro within
    refine absent (within.trans ?_)
    exact ⟨nested.before ++ ['['], ']' :: nested.after, by simp [text, Bracketed.line]⟩
  rw [outer, Bracketed.insertPlain (b := b.inside nested) plain behind elsewhere]
  exact congrArg some (Bracketed.insideLine b { nested with inner := append nested.inner name })

theorem insideDiffers (path : PathLike name) :
    append b.inner name ≠ { nested with inner := append nested.inner name }.line := by
  intro same
  -- The name would have to stand behind the inner list too, where the outer list had it before.
  obtain ⟨front, tail, outer, within, unclosed⟩ := Extended.tail (extendedIff.mpr rfl) path
  have rest : tail <:+: nested.after := tailWithin unclosed (outer.symm.trans same)
  refine absent ((within.trans rest).trans ?_)
  exact ⟨nested.before ++ '[' :: nested.inner ++ [']'], [], by simp [text, Bracketed.line]⟩

end Inside

/-- The list that closes a line gets the name exactly if it holds no bracket. If it holds balanced
ones, the last list inside of it gets the name, and an element of the closing list is changed. -/
theorem closingListIff {b : Bracketed} {name : Text} (balanced : Balanced b.inner)
    (behind : ∀ c ∈ b.after, isBracket c = false) (path : PathLike name)
    (absent : ¬ name <:+: b.inner) :
    ((∃ longer, Extended name b.inner longer ∧
        insert? b.line name = some { b with inner := longer }.line) ↔
      ∀ c ∈ b.inner, isBracket c = false) ∧
    ((∃ c ∈ b.inner, isBracket c = true) → ∃ nested : Bracketed, b.inner = nested.line ∧
      (∀ c ∈ nested.inner, isBracket c = false) ∧ '[' ∉ nested.after ∧
      ∃ longer, Extended name nested.inner longer ∧
        insert? b.line name =
          some { b with inner := { nested with inner := longer }.line }.line) := by
  have noneBehind := (Bracketed.plainIff.mp behind).1
  simp only [extendedIff, exists_eq_left]
  refine ⟨⟨?_, ?_⟩, ?_⟩
  · intro inserted
    by_contra brackets
    obtain ⟨nested, text, plain, noneInside⟩ := balanced.innermost (by simpa using brackets)
    have actual := insertInside text absent plain noneInside noneBehind
    have same := Bracketed.lineInner (Option.some.inj (inserted.symm.trans actual))
    exact insideDiffers text absent path same
  · intro plain
    exact Bracketed.insertPlain plain noneBehind absent
  · intro brackets
    obtain ⟨nested, text, plain, noneInside⟩ := balanced.innermost brackets
    exact ⟨nested, text, plain, noneInside,
      insertInside text absent plain noneInside noneBehind⟩

def indexedHook : Bracketed :=
  ⟨"useEffect(() => load(), ".toList, "items[0], b".toList, ");".toList⟩

theorem closingListIndexed :
    (Balanced indexedHook.inner ∧ (∀ c ∈ indexedHook.after, isBracket c = false) ∧
      PathLike "load".toList ∧ ¬ "load".toList <:+: indexedHook.inner) ∧
    ¬ ∃ longer, Extended "load".toList indexedHook.inner longer ∧
      insert? indexedHook.line "load".toList = some { indexedHook with inner := longer }.line := by
  have balanced : Balanced indexedHook.inner := by
    change Balanced ("items".toList ++ '[' :: ("0".toList ++ ']' :: (", b".toList ++ [])))
    exact .text (by decide) (.nested (.plain rfl .nil) (.text (by decide) .nil))
  have behind : ∀ c ∈ indexedHook.after, isBracket c = false := by decide
  have path : PathLike "load".toList := by decide
  have absent : ¬ "load".toList <:+: indexedHook.inner := by decide
  refine ⟨⟨balanced, behind, path, absent⟩, ?_⟩
  rw [(closingListIff balanced behind path absent).1]
  decide

theorem indexGetsName :
    indexedHook.line = "useEffect(() => load(), [items[0], b]);".toList ∧
    Extended "load".toList indexedHook.inner "items[0], b, load".toList ∧
    insert? indexedHook.line "load".toList =
      some "useEffect(() => load(), [items[0, load], b]);".toList ∧
    insert? indexedHook.line "load".toList ≠
      some { indexedHook with inner := "items[0], b, load".toList }.line := by
  refine ⟨by decide +kernel, extendedIff.mpr ?_, by decide +kernel, by decide +kernel⟩
  decide +kernel

end Dependency
end LintRemedy
