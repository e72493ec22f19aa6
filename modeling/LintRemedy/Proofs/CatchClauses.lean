import LintRemedy.Proofs.ExplicitAny

/-!
The substitution for parameters at a catch clause. No match of it reaches over an end of the clause,
so the text before the clause, the clause and the text behind it are mended each by itself. The guard
looks back from the binding over one line only: it does not see the word `catch` if a line ends
between that and the parenthesis, and then the binding is mended as if it were a parameter.
-/
namespace LintRemedy
open Text (isBlank isNameChar starts)

namespace Substitution

theorem Scan.unique {s : Substitution} (regular : s.Regular) {before here : Text}
    {ps qs : List Piece} (scan : Scan s before here ps) (other : Scan s before here qs) :
    ps = qs := by
  have nothing {before : Text} {f : Found} (found : s.find? before [] = some f) : False :=
    regular.solid found (List.append_eq_nil_iff.mp (findSplit found).symm).1
  induction scan generalizing qs with
  | nil =>
    cases other with
    | nil => rfl
    | found found _ => exact (nothing found).elim
  | pass none _ ih =>
    cases other with
    | pass _ next => rw [ih next]
    | found found _ =>
      rw [none] at found
      contradiction
  | found found _ ih =>
    cases other with
    | nil => exact (nothing found).elim
    | pass none _ =>
      rw [none] at found
      contradiction
    | found found' next =>
      cases Option.some.inj (found.symm.trans found')
      rw [ih next]

theorem Scan.append {s : Substitution} {before x t : Text} {ps qs : List Piece}
    (first : Scan s before x ps) (second : Scan s (x.reverse ++ before) t qs)
    (same : ∀ {b v f}, s.find? b v = some f →
      s.find? b (v ++ t) = some { f with rest := f.rest ++ t })
    (ends : ∀ {b c v}, s.find? b (c :: v) = none → s.find? b (c :: v ++ t) = none)
    (judged : ∀ b f r, s.piece b { f with rest := r } = s.piece b f) :
    Scan s before (x ++ t) (ps ++ qs) := by
  induction first with
  | nil => exact second
  | pass none _ ih => exact .pass (ends none) (ih (by simpa using second))
  | @found before here f ps found _ ih =>
    have piece := judged before f (f.rest ++ t)
    rw [← piece]
    refine .found (same found) (ih ?_)
    rw [findSplit found] at second
    simpa using second

theorem Scan.rebase {s : Substitution} {b b' : Text}
    (finds : ∀ z here, s.find? (z ++ b) here = s.find? (z ++ b') here)
    (judged : ∀ z f, s.piece (z ++ b) f = s.piece (z ++ b') f) {z here : Text} {ps : List Piece}
    (scan : Scan s (z ++ b) here ps) : Scan s (z ++ b') here ps := by
  generalize start : z ++ b = before at scan
  induction scan generalizing z with
  | nil => exact .nil _
  | @pass before rest c ps none _ ih =>
    subst start
    exact .pass ((finds z _).symm.trans none) (ih (z := c :: z) rfl)
  | @found before here f ps found _ ih =>
    subst start
    rw [judged]
    refine .found ((finds z _).symm.trans found) ?_
    simpa using ih (z := f.old.reverse ++ z) (by simp)

theorem Scan.quiet {s : Substitution} {before x t : Text} {qs : List Piece}
    (none : ∀ b v, v <:+ x → v ≠ [] → s.find? b (v ++ t) = none)
    (rest : Scan s (x.reverse ++ before) t qs) :
    Scan s before (x ++ t) (x.map (fun c => .kept [c]) ++ qs) := by
  induction x generalizing before with
  | nil => exact rest
  | cons c x ih =>
    refine .pass (none before (c :: x) (List.suffix_refl _) (by simp)) (ih ?_ (by simpa using rest))
    intro b v suffix
    exact none b v (suffix.trans (List.suffix_cons c x))

theorem keptResult (x : Text) : (x.map fun c => Piece.kept [c]).flatMap Piece.result = x := by
  induction x with
  | nil => rfl
  | cons c x ih => simp [Piece.result, ih]

end Substitution

namespace Rule
open Substitution (Scan)

theorem parameterRest {t : Text} {f : Found}
    (read : Found.read? parameterAnnotation.steps t = some f) (r : Text) :
    Found.read? parameterAnnotation.steps (f.old ++ r) = some { f with rest := r } := by
  obtain ⟨nm, rest, g, some, names, -, rfl, tail, rfl⟩ := parameterRead.mp read
  obtain ⟨q, bl, -, opt, gap, -, rfl⟩ := tailRead.mp tail
  have tail' := tailRead.mpr ⟨q, bl, r, opt, gap, rfl, rfl⟩
  refine parameterRead.mpr ⟨nm, _, _, some, names, ?_, by simp, tail', rfl⟩
  rcases opt with rfl | rfl <;> rfl

theorem NoParameter.quiet {segments : List (Text × Text)} {before after : Text} {qs : List Piece}
    (h : NoParameter segments after)
    (rest : Scan parameterAnnotation ((segmentText segments).reverse ++ before) after qs) :
    Scan parameterAnnotation before (segmentText segments ++ after)
      ((segmentText segments).map (fun c => .kept [c]) ++ qs) := by
  refine Scan.quiet ?_ rest
  rintro b v ⟨x, split⟩ some
  exact h.unread split.symm some

theorem opensCatchBehind (z w : Text) : opensCatch (z ++ ')' :: w) = opensCatch z := by
  rw [Bool.eq_iff_iff, opensCatchIff, opensCatchIff]
  constructor
  · rintro ⟨x, y, rest, same, blankX, blankY⟩
    have closed : ')' ∉ x ++ '(' :: (y ++ catchBackwards) := by
      have noX : ')' ∉ x := fun mem => absurd (blankX ')' mem) (by decide)
      have noY : ')' ∉ y := fun mem => absurd (blankY ')' mem).1 (by decide)
      simp [noX, noY, catchBackwards]
    have whole : z ++ ')' :: w = (x ++ '(' :: (y ++ catchBackwards)) ++ rest := by
      rw [same]
      simp
    rcases List.append_eq_append_iff.mp whole with ⟨a, inside, outside⟩ | ⟨a, rfl, -⟩
    · cases a with
      | nil => exact ⟨x, y, [], by simpa using inside.symm, blankX, blankY⟩
      | cons c a =>
        have first : ')' = c := (List.cons.inj outside).1
        rw [inside, first] at closed
        exact absurd (by simp) closed
    · exact ⟨x, y, a, by simp, blankX, blankY⟩
  · rintro ⟨x, y, rest, rfl, blankX, blankY⟩
    exact ⟨x, y, rest ++ ')' :: w, by simp, blankX, blankY⟩

namespace CatchClause

def opening (k : CatchClause) : Text := catchWord ++ (k.beforeOpen ++ '(' :: k.afterOpen)

def typed (k : CatchClause) (type : Text) : Text :=
  k.binding ++ (k.beforeColon ++ ':' :: (k.afterColon ++ (type ++ (k.beforeClose ++ [')']))))

theorem textSplit (k : CatchClause) : k.text = k.opening ++ k.typed anyType := by
  simp [text, inside, opening, typed]

def annotated (k : CatchClause) : Bool := k.beforeColon == [] && k.afterColon == [' ']

/-- A line ends between `catch` and the parenthesis, and the type is written as a parameter's. -/
def broken (k : CatchClause) : Bool := k.beforeOpen.contains '\n' && k.annotated

def retyped (k : CatchClause) : Text := k.opening ++ k.typed unknownType

theorem notTail (k : CatchClause) (w : Text) : parameterTail (k.beforeOpen ++ '(' :: w) = false :=
  parameterTailGap k.blankGaps.1 (by decide)

theorem apart (k : CatchClause) {v y : Text} {f : Found}
    (read : Found.read? parameterAnnotation.steps (v ++ (k.text ++ y)) = some f) :
    ∃ r, v = f.old ++ r := by
  obtain ⟨nm, rest, g, -, names, stop, split, tail, rfl⟩ := parameterRead.mp read
  rcases List.append_eq_append_iff.mp split with ⟨a, rfl, later⟩ | ⟨a, rfl, later⟩
  · -- The name would go on as `catch`, and no annotation stands behind that.
    have word : a ++ rest = catchWord ++ (k.beforeOpen ++ '(' :: (k.inside ++ y)) := by
      rw [← later]
      simp [text]
    have ended := (Text.runUnique (fun c mem => names c (by simp [mem])) stop (by decide)
      (gapStops k.blankGaps.1 rfl) word).2
    have annotation : parameterTail rest = true := Option.isSome_iff_exists.mpr ⟨g, tail⟩
    rw [ended, k.notTail] at annotation
    contradiction
  · obtain ⟨q, bl, r, opt, gap, same, rfl⟩ := tailRead.mp tail
    have whole : q ++ (':' :: ' ' :: (anyType ++ (bl ++ [')']))) ++ r = a ++ (k.text ++ y) := by
      rw [← later, same]
      simp
    rcases List.append_eq_append_iff.mp whole with ⟨z, rfl, -⟩ | ⟨z, inside, outside⟩
    · exact ⟨z, by simp⟩
    · cases z with
      | nil => exact ⟨[], by simp [inside]⟩
      | cons c z =>
        -- The annotation would go on with the first letter of `catch`.
        have first : 'c' = c := (List.cons.inj outside).1
        have mem : 'c' ∈ q ++ (':' :: ' ' :: (anyType ++ (bl ++ [')']))) := by
          rw [inside, first]
          simp
        have noBlank : 'c' ∉ bl := fun inGap => absurd (gap 'c' inGap) (by decide)
        rcases opt with rfl | rfl <;> simp [anyType, noBlank] at mem

theorem openingSeen (k : CatchClause) (b : Text) :
    opensCatch (k.opening.reverse ++ b) = !k.beforeOpen.contains '\n' := by
  obtain ⟨beforeOpen, afterOpen, -⟩ := k.blankGaps
  have back : k.opening.reverse ++ b =
      k.afterOpen.reverse ++ '(' :: (k.beforeOpen.reverse ++ (catchBackwards ++ b)) := by
    simp [opening, catchWord, catchBackwards]
  rw [back, Bool.eq_iff_iff, opensCatchIff]
  constructor
  · rintro ⟨x, y, rest, same, blankX, blankY⟩
    have paren := (Text.runUnique (by simpa using afterOpen) (by rfl) blankX (by rfl) same).2
    have gap := (Text.runUnique (by simpa using beforeOpen) (by rfl) (fun c mem => (blankY c mem).1)
      (by rfl) (List.cons.inj paren).2).1
    have whole : '\n' ∉ k.beforeOpen := by
      intro mem
      have onLine := (blankY '\n' (by simpa [← gap] using mem)).2
      contradiction
    simpa using whole
  · intro whole
    refine ⟨_, _, b, rfl, by simpa using afterOpen, ?_⟩
    intro c mem
    have inGap : c ∈ k.beforeOpen := List.mem_reverse.mp mem
    refine ⟨beforeOpen c inGap, ?_⟩
    have other : c ≠ '\n' := by
      rintro rfl
      simp [inGap] at whole
    simpa using other

theorem openingQuiet (k : CatchClause) {segments : List (Text × Text)} {after : Text}
    (rest : NoParameter segments after) :
    NoParameter ((catchWord, k.beforeOpen ++ '(' :: k.afterOpen) :: segments) after := by
  obtain ⟨beforeOpen, afterOpen, -⟩ := k.blankGaps
  refine ⟨by decide, by simp, gapsNotName beforeOpen afterOpen rfl, fun _ => ?_, rest⟩
  simpa using k.notTail (k.afterOpen ++ (segmentText segments ++ after))

theorem typedTail (k : CatchClause) (y : Text) :
    parameterTail (k.beforeColon ++ ':' :: (k.afterColon ++ (anyType ++ (k.beforeClose ++ ')' :: y)))) =
      k.annotated := by
  obtain ⟨-, -, beforeColon, afterColon, beforeClose⟩ := k.blankGaps
  rw [Bool.eq_iff_iff, parameterTailIff]
  constructor
  · rintro ⟨q, bl, r, opt, -, same⟩
    have colon := Text.runUnique (y := []) beforeColon (by rfl) (by simp)
      (by rcases opt with rfl | rfl <;> rfl) same
    rcases opt with rfl | rfl
    · have space := Text.runUnique (y := [' ']) afterColon (by rfl) (by decide) (by rfl)
        (List.cons.inj colon.2).2
      simp [annotated, colon.1, space.1]
    · exact absurd (List.cons.inj colon.2).1 (by decide)
  · intro annotated
    simp only [CatchClause.annotated, Bool.and_eq_true, beq_iff_eq] at annotated
    exact ⟨[], k.beforeClose, y, .inl rfl, beforeClose, by simp [annotated]⟩

def segments (k : CatchClause) : List (Text × Text) :=
  [(catchWord, k.beforeOpen ++ '(' :: k.afterOpen), (k.binding, k.beforeColon ++ ':' :: k.afterColon),
    (anyType, k.beforeClose ++ [')'])]

theorem quiet (k : CatchClause) (plain : k.annotated = false) (y : Text) :
    NoParameter k.segments y := by
  obtain ⟨-, -, beforeColon, afterColon, beforeClose⟩ := k.blankGaps
  refine k.openingQuiet ⟨k.names, by simp, gapsNotName beforeColon afterColon rfl, fun _ => ?_,
    by decide, by simp, closeNotName beforeClose, fun _ => ?_, trivial⟩
  · rw [← plain, ← k.typedTail y]
    simp [segmentText]
  · simpa [segmentText] using parameterTailGap (c := ')') (v := y) beforeClose (by decide)

theorem readTyped (k : CatchClause) (annotated : k.annotated = true) (y : Text) :
    Found.read? parameterAnnotation.steps (k.typed anyType ++ y) =
      some ⟨k.typed anyType, k.typed unknownType, y⟩ := by
  obtain ⟨-, -, -, -, beforeClose⟩ := k.blankGaps
  simp only [CatchClause.annotated, Bool.and_eq_true, beq_iff_eq] at annotated
  have tail := tailRead.mpr ⟨[], k.beforeClose, y, .inl rfl, beforeClose, rfl, rfl⟩
  rw [parameterRead]
  refine ⟨k.binding, _, _, k.named, k.names, ?_, ?_, tail, ?_⟩
  · rfl
  · simp [typed, annotated]
  · simp [typed, annotated]

theorem allowedIff (k : CatchClause) (b : Text) (f : Found) :
    parameterAnnotation.allowed (k.opening.reverse ++ b) f = k.beforeOpen.contains '\n' := by
  change (!opensCatch (k.opening.reverse ++ b) && true) = _
  rw [openingSeen, Bool.not_not, Bool.and_true]

theorem scan (k : CatchClause) {b y : Text} {qs : List Piece}
    (rest : Scan parameterAnnotation (k.text.reverse ++ b) y qs) :
    ∃ ps, Scan parameterAnnotation b (k.text ++ y) (ps ++ qs) ∧
      ps.flatMap Piece.result = if k.broken then k.retyped else k.text := by
  cases annotated : k.annotated with
  | false =>
    have whole : segmentText k.segments = k.text := by
      simp [segments, segmentText, text, inside]
    rw [← whole] at rest
    have scan := (k.quiet annotated y).quiet rest
    rw [whole] at scan
    exact ⟨_, scan, by simp [Substitution.keptResult, broken, annotated]⟩
  | true =>
    have opened : segmentText [(catchWord, k.beforeOpen ++ '(' :: k.afterOpen)] = k.opening := by
      simp [segmentText, opening]
    have found : parameterAnnotation.find? (k.opening.reverse ++ b) (k.typed anyType ++ y) =
        some ⟨k.typed anyType, k.typed unknownType, y⟩ := k.readTyped annotated y
    have typed := Scan.found found (by simpa [textSplit] using rest)
    rw [← opened] at typed
    have none : NoParameter [] (k.typed anyType ++ y) := trivial
    have scan := (k.openingQuiet none).quiet typed
    rw [opened, ← List.append_assoc, ← textSplit] at scan
    refine ⟨k.opening.map (fun c => .kept [c]) ++ [_], by simpa using scan, ?_⟩
    rw [List.flatMap_append, Substitution.keptResult, List.flatMap_singleton]
    rcases Substitution.pieceCases parameterAnnotation (k.opening.reverse ++ b)
      ⟨k.typed anyType, k.typed unknownType, y⟩ with ⟨seen, piece⟩ | ⟨seen, piece⟩
    · rw [allowedIff] at seen
      rw [piece, broken, annotated, seen]
      rfl
    · rw [allowedIff] at seen
      rw [piece, broken, annotated, seen, textSplit]
      rfl

theorem retypedDiffers (k : CatchClause) : k.retyped ≠ k.text := by
  intro same
  have lengths := congrArg List.length same
  simp only [retyped, textSplit, typed, anyType, unknownType, List.length_append,
    List.length_cons] at lengths
  omega

end CatchClause

theorem pieceBehind (z w : Text) (f : Found) :
    parameterAnnotation.piece (z ++ ')' :: w) f = parameterAnnotation.piece z f := by
  have same : ( parameterAnnotation.guards.all fun g => g.allows (z ++ ')' :: w) f.rest) =
      parameterAnnotation.guards.all fun g => g.allows z f.rest := by
    simp [ parameterAnnotation, Guard.allows, opensCatchBehind]
  rw [Substitution.piece, Substitution.piece, same]

theorem scanBehind (k : CatchClause) (x y : Text) :
    Scan parameterAnnotation (k.text.reverse ++ x) y ( parameterAnnotation.pieces y) := by
  obtain ⟨w, ends⟩ := catchEnd k
  have scan : Scan parameterAnnotation ([] ++ []) y ( parameterAnnotation.pieces y) :=
    Substitution.scanned parameterRegular [] y
  rw [ends]
  change Scan parameterAnnotation ([] ++ ')' :: (w ++ x)) y _
  refine scan.rebase ?_ ?_
  · intro z here
    rfl
  · intro z f
    rw [List.append_nil]
    exact (pieceBehind z (w ++ x) f).symm

theorem applyAround (k : CatchClause) (x y : Text) :
    parameterAnnotation.apply (x ++ (k.text ++ y)) =
      parameterAnnotation.apply x ++ ((if k.broken then k.retyped else k.text) ++
        parameterAnnotation.apply y) := by
  obtain ⟨ps, clause, result⟩ := k.scan (scanBehind k x.reverse y)
  have before := Substitution.scanned parameterRegular [] x
  have whole : Scan parameterAnnotation [] (x ++ (k.text ++ y))
      ( parameterAnnotation.pieces x ++ (ps ++ parameterAnnotation.pieces y)) := by
    refine before.append (by simpa using clause) ?_ ?_ (fun b f r => rfl)
    · intro b v f found
      have read := Substitution.findRead found
      have longer := parameterRest read (f.rest ++ (k.text ++ y))
      rwa [← List.append_assoc, Found.readKeeps read] at longer
    · intro b c v none
      by_contra met
      obtain ⟨f, read⟩ := Option.ne_none_iff_exists'.mp met
      obtain ⟨r, short⟩ := k.apart (v := c :: v) read
      have found : parameterAnnotation.find? b (c :: v) = some { f with rest := r } := by
        rw [short]
        exact parameterRest read r
      rw [none] at found
      contradiction
  have pieces : parameterAnnotation.pieces (x ++ (k.text ++ y)) = _ :=
    (Substitution.scanned parameterRegular [] _).unique parameterRegular whole
  rw [Substitution.apply, pieces, List.flatMap_append, List.flatMap_append, result]
  rfl

/-- A match of the substitution for catch clauses is left as it is by the one for parameters exactly
if it is not broken; a broken one gets the type `unknown` and keeps its blanks. -/
theorem catchLeftIff {x here : Text} {f : Found}
    (found : catchBinding.find? x.reverse here = some f) :
    ∃ k : CatchClause, f.old = k.text ∧
      ( parameterAnnotation.apply (x ++ here) =
        parameterAnnotation.apply x ++ (f.old ++ parameterAnnotation.apply f.rest) ↔
          k.broken = false) ∧
      (k.broken = true → parameterAnnotation.apply (x ++ here) =
        parameterAnnotation.apply x ++ (k.retyped ++ parameterAnnotation.apply f.rest)) := by
  obtain ⟨k, text, old, -⟩ := catchRead.mp (Substitution.findRead found)
  have around := applyAround k x f.rest
  rw [← text] at around
  refine ⟨k, old, ?_, ?_⟩
  · rw [around, old, List.append_cancel_left_eq, List.append_cancel_right_eq]
    cases k.broken with
    | false => simp
    | true => simpa using k.retypedDiffers
  · intro broken
    rwa [if_pos broken] at around

-- The parenthesis stands on the next line, and parameters on both sides of the clause.
theorem catchLeftBroken :
    catchBinding.find? "run(a: any) ".toList.reverse "catch\n(error: any) show(b: any)".toList =
      some ⟨"catch\n(error: any)".toList, "catch (error: unknown)".toList, " show(b: any)".toList⟩ ∧
    ∃ k : CatchClause, "catch\n(error: any)".toList = k.text ∧ k.broken = true := by
  have found : catchBinding.find? "run(a: any) ".toList.reverse
      "catch\n(error: any) show(b: any)".toList =
      some ⟨"catch\n(error: any)".toList, "catch (error: unknown)".toList,
        " show(b: any)".toList⟩ := by decide +kernel
  obtain ⟨k, text, left, -⟩ := catchLeftIff found
  refine ⟨found, k, text, ?_⟩
  by_contra whole
  have same := left.mpr (by simpa using whole)
  revert same
  decide +kernel

theorem bindingRetyped :
    (catchBinding.find? "try \x7b run(); \x7d ".toList.reverse
      "catch\n(error: any) \x7b report(error); \x7d\n".toList).map Found.old =
        some "catch\n(error: any)".toList ∧
    parameterAnnotation.change?
        "try \x7b run(); \x7d catch\n(error: any) \x7b report(error); \x7d\n".toList =
      some "try \x7b run(); \x7d catch\n(error: unknown) \x7b report(error); \x7d\n".toList := by
  decide +kernel

end Rule
end LintRemedy
