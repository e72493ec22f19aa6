import LintRemedy.Proofs.EmptyObject

/-!
Parameters whose annotation is open. The rule against `{}` runs after the one against `any` and
writes a name; where `: any)` stands behind it, that name is a parameter for the rule that already
ran. This is the only way in which the second rule opens anything to the first, and
`writesParameter` tells where it happens.
-/
namespace LintRemedy
open Text (isBlank isNameChar isWord starts clash)

namespace Rule

def catchBefore (before : Text) : Bool := opensCatch (before.dropWhile isNameChar)

def parameterPlace (before : Text) : Bool := starts isNameChar before && !catchBefore before

def ParameterFrom (before t : Text) : Prop :=
  ∃ x y, t = x ++ y ∧ x ≠ [] ∧ parameterTail y = true ∧ parameterPlace (x.reverse ++ before) = true

theorem tailNotName {t : Text} (tail : parameterTail t = true) : starts isNameChar t = false := by
  obtain ⟨q, bl, r, opt, -, rfl⟩ := parameterTailIff.mp tail
  rcases opt with rfl | rfl <;> rfl

theorem parameterOpenIff {t : Text} : parameterAnnotation.Open t ↔ ParameterFrom [] t := by
  have guards : parameterAnnotation.guards = [.notAfterCatch] := rfl
  have first : parameterAnnotation.nameFirst = true := rfl
  simp only [Substitution.Open, Substitution.OpenFrom, List.append_nil]
  constructor
  · rintro ⟨x, y, rfl, start, f, found, allowed⟩
    obtain ⟨nm, rest, g, some, names, stop, rfl, read, rfl⟩ :=
      parameterRead.mp (Substitution.findRead found)
    have outside : starts isNameChar x.reverse = false := by
      simpa [Substitution.startsAfter, first] using start
    refine ⟨x ++ nm, rest, by simp, by simp [some], Option.isSome_iff_exists.mpr ⟨g, read⟩, ?_⟩
    have named : starts isNameChar (nm.reverse ++ x.reverse) = true := by
      obtain ⟨nm', c, rfl⟩ := (List.eq_nil_or_concat nm).resolve_left some
      simpa using names c (by simp)
    have free : catchBefore (nm.reverse ++ x.reverse) = false := by
      rw [catchBefore, Text.runDropped (by simpa using names) outside]
      simpa [Substitution.allowed, guards, Guard.allows] using allowed
    simp [parameterPlace, named, free]
  · rintro ⟨x, y, rfl, some, tail, place⟩
    simp only [parameterPlace, List.append_nil, Bool.and_eq_true, Bool.not_eq_true'] at place
    obtain ⟨g, read⟩ := Option.isSome_iff_exists.mp tail
    let run := (x.reverse.takeWhile isNameChar).reverse
    let rest := (x.reverse.dropWhile isNameChar).reverse
    have whole : x = rest ++ run := by
      rw [← List.reverse_append, List.takeWhile_append_dropWhile, List.reverse_reverse]
    have named : run ≠ [] := by
      intro empty
      have start := place.1
      cases back : x.reverse with
      | nil => simp [back] at start
      | cons c r =>
        have held : isNameChar c = true := by simpa [back] using start
        simp [run, back, held] at empty
    have names : ∀ c ∈ run, isNameChar c = true := by
      intro c mem
      exact Text.runAll isNameChar x.reverse c (List.mem_reverse.mp mem)
    have read' := parameterRead.mpr ⟨run, y, g, named, names, tailNotName tail, rfl, read, rfl⟩
    refine ⟨rest, run ++ y, by rw [whole]; simp, ?_, _,
      Substitution.findIff.mpr ⟨fun word => by contradiction, read'⟩, ?_⟩
    · have stop := Text.runStops isNameChar x.reverse
      simp [Substitution.startsAfter, rest, stop]
    · simpa [Substitution.allowed, guards, Guard.allows, rest, catchBefore] using place.2

theorem parameterLater {before x t : Text} (h : ParameterFrom (x.reverse ++ before) t) :
    ParameterFrom before (x ++ t) := by
  obtain ⟨y, z, rfl, some, tail, place⟩ := h
  exact ⟨x ++ y, z, by simp, by simp [some], tail, by simpa using place⟩

theorem parameterAppend {before x t : Text} (h : ParameterFrom before (x ++ t)) :
    (∃ y z, x = y ++ z ∧ y ≠ [] ∧ z ≠ [] ∧ parameterTail (z ++ t) = true ∧
      parameterPlace (y.reverse ++ before) = true) ∨
    (x ≠ [] ∧ parameterTail t = true ∧ parameterPlace (x.reverse ++ before) = true) ∨
    ParameterFrom (x.reverse ++ before) t := by
  obtain ⟨y, z, split, some, tail, place⟩ := h
  rcases List.append_eq_append_iff.mp split with ⟨a, rfl, rfl⟩ | ⟨a, rfl, rfl⟩
  · by_cases empty : a = []
    · subst empty
      exact .inr (.inl ⟨by simpa using some, by simpa using tail, by simpa using place⟩)
    · exact .inr (.inr ⟨a, z, rfl, empty, tail, by simpa using place⟩)
  · by_cases empty : a = []
    · subst empty
      exact .inr (.inl ⟨by simpa using some, by simpa using tail, by simpa using place⟩)
    · exact .inl ⟨y, a, rfl, some, empty, tail, place⟩

theorem parameterCons {before t : Text} {c : Char} (h : ParameterFrom before (c :: t)) :
    (parameterTail t = true ∧ parameterPlace (c :: before) = true) ∨
      ParameterFrom (c :: before) t := by
  rcases parameterAppend (x := [c]) h with ⟨y, z, split, someY, someZ, -⟩ | ⟨-, here⟩ | later
  · rcases List.cons_eq_append_iff.mp split with ⟨rfl, -⟩ | ⟨y', rfl, rest⟩
    · exact absurd rfl someY
    · exact absurd (List.append_eq_nil_iff.mp rest.symm).2 someZ
  · exact .inl here
  · exact .inr later

theorem placeEnds {x b : Text} (some : x ≠ []) (place : parameterPlace (x.reverse ++ b) = true) :
    starts isNameChar x.reverse = true := by
  simp only [parameterPlace, Bool.and_eq_true] at place
  have start := place.1
  rwa [Text.startsAppend (List.reverse_ne_nil_iff.mpr some)] at start

theorem parameterPlaceCons {c : Char} {b : Text} :
    parameterPlace (c :: b) = true ↔ isNameChar c = true ∧ catchBefore b = false := by
  unfold parameterPlace catchBefore
  cases named : isNameChar c <;> simp [named]

end Rule

open Rule (catchBefore parameterPlace parameterTail)

structure Swaps.Quiet (A : Swaps) : Prop where
  some : ∀ {b old new}, A b old new → new ≠ []
  opening : ∀ {b old new}, A b old new → starts (fun c => isBlank c || c == '(') new.reverse = false
  word : ∀ {b old new}, A b old new → ∀ v, v ≠ [] → v <:+ catchBackwards → clash v new.reverse = true
  after : ∀ {b old new}, A b old new → catchBefore (new.reverse ++ b) = false

namespace Swaps.Quiet

theorem opensCatch {A : Swaps} (quiet : A.Quiet) {t u : Text} (past : Past A t u)
    (h : LintRemedy.opensCatch u = true) : LintRemedy.opensCatch t = true := by
  obtain ⟨x, y, rest, rfl, allX, allY⟩ := opensCatchIff.mp h
  have parts : x ++ '(' :: (y ++ (catchBackwards ++ rest)) =
      ((x ++ '(' :: y) ++ catchBackwards) ++ rest := by simp
  rw [parts] at past
  obtain ⟨t', rfl, -⟩ := past.keptWord (by
    intro b old new ok v some suffix r s same
    rcases Text.suffixAppend suffix with inWord | ⟨w, someW, inGap, rfl⟩
    · exact Text.clashApart (quiet.word ok v some inWord) r s same
    · have first := congrArg (starts fun c => isBlank c || c == '(') same
      have newSome : new.reverse ≠ [] := List.reverse_ne_nil_iff.mpr (quiet.some ok)
      rw [List.append_assoc, Text.startsAppend someW, Text.startsAppend newSome,
        quiet.opening ok] at first
      cases w with
      | nil => exact someW rfl
      | cons c w =>
        have mem : c ∈ x ++ '(' :: y := inGap.subset (by simp)
        simp only [List.mem_append, List.mem_cons] at mem
        simp only [Text.startsCons, Bool.or_eq_false_iff, beq_eq_false_iff_ne] at first
        rcases mem with gap | rfl | gap
        · simp [allX c gap] at first
        · exact first.2 rfl
        · simp [(allY c gap).1] at first)
  exact opensCatchIff.mpr ⟨x, y, t', by simp, allX, allY⟩

theorem catchBefore {A : Swaps} (quiet : A.Quiet) {t u : Text} (past : Past A t u)
    (h : Rule.catchBefore u = true) : Rule.catchBefore t = true := by
  induction past with
  | nil => exact h
  | @keep t u c before ih =>
    cases named : isNameChar c with
    | true =>
      simp only [Rule.catchBefore, List.dropWhile_cons, named, ↓reduceIte] at h ⊢
      exact ih h
    | false =>
      simp only [Rule.catchBefore, List.dropWhile_cons, named, Bool.false_eq_true, ↓reduceIte] at h ⊢
      exact quiet.opensCatch (.keep c before) h
  | swap ok before ih =>
    rw [quiet.after ok] at h
    contradiction

theorem place {A : Swaps} (quiet : A.Quiet) {t u : Text} (past : Past A t u) {c : Char}
    (h : parameterPlace (c :: t) = true) : parameterPlace (c :: u) = true := by
  obtain ⟨named, free⟩ := Rule.parameterPlaceCons.mp h
  refine Rule.parameterPlaceCons.mpr ⟨named, ?_⟩
  by_contra caught
  have := quiet.catchBefore past (by simpa using caught)
  simp [free] at this

end Swaps.Quiet

namespace Rule

def tailChar (c : Char) : Bool := isBlank c || ['?', ':', 'a', 'n', 'y', ')'].contains c

theorem tailOn {A : Swaps}
    (apart : ∀ {b old new}, A b old new → ')' ∉ old ∧ ∃ c ∈ old, tailChar c = false)
    {b t u : Text} (h : Respelled A b t u) (tail : parameterTail t = true) :
    parameterTail u = true := by
  obtain ⟨q, bl, r, opt, gap, rfl⟩ := parameterTailIff.mp tail
  let head := q ++ (':' :: ' ' :: (anyType ++ bl))
  have chars : ∀ c ∈ head ++ [')'], tailChar c = true := by
    intro c mem
    simp only [head, List.mem_append, List.mem_cons, List.not_mem_nil, or_false] at mem
    rcases mem with (inQ | rfl | rfl | inAny | inGap) | rfl
    · rcases opt with rfl | rfl
      · simp at inQ
      · cases List.mem_singleton.mp inQ
        rfl
    · rfl
    · rfl
    · have all : ∀ c ∈ anyType, tailChar c = true := by decide
      exact all c inAny
    · simp [tailChar, gap c inGap]
    · rfl
  have whole : q ++ (':' :: ' ' :: (anyType ++ (bl ++ ')' :: r))) = (head ++ [')']) ++ r := by
    simp [head]
  rw [whole] at h
  obtain ⟨r', rfl, -⟩ := h.keptOn (by
    intro b old new ok v some suffix x y same
    obtain ⟨noClose, c, inOld, other⟩ := apart ok
    rcases List.append_eq_append_iff.mp same with ⟨z, rfl, -⟩ | ⟨z, rfl, -⟩
    · have close : ')' ∈ v := Text.suffixLast suffix some
      exact noClose (by simp [close])
    · have mem : c ∈ head ++ [')'] := suffix.subset (by simp [inOld])
      simp [chars c mem] at other)
  exact parameterTailIff.mpr ⟨q, bl, r', opt, gap, by simp [head]⟩

theorem typePlaceFree {b : Text} (place : typePlace b = true) :
    starts isNameChar b = false ∧ opensCatch b = false := by
  constructor
  · cases b with
    | nil => rfl
    | cons c b =>
      by_contra named
      rw [typePlaceName (by simpa using named)] at place
      contradiction
  · by_contra opens
    obtain ⟨x, y, rest, rfl, allX, -⟩ := opensCatchIff.mp (by simpa using opens)
    rw [typePlaceAfter allX (by rfl)] at place
    simp [opensType, extendsBackwards, Text.after?] at place

theorem emptyQuiet : emptySwaps.Quiet where
  some := by rintro b _ _ ⟨-, rfl, -⟩; decide
  opening := by rintro b _ _ ⟨-, rfl, -⟩; decide
  word := by
    rintro b _ _ ⟨-, rfl, -⟩ v some suffix
    have all : ∀ v ∈ catchBackwards.tails, v ≠ [] → clash v objectType.reverse = true := by decide
    exact all v ((List.mem_tails v catchBackwards).mpr suffix) some
  after := by
    rintro b _ _ ⟨-, rfl, place⟩
    obtain ⟨stop, free⟩ := typePlaceFree place
    rw [catchBefore, Text.runDropped (by decide) stop, free]

theorem catchBeforeBack {t u : Text} (past : Past emptySwaps t u) (h : catchBefore t = true) :
    catchBefore u = true := by
  induction past with
  | nil => exact h
  | @keep t u c before ih =>
    cases named : isNameChar c with
    | true =>
      simp only [catchBefore, List.dropWhile_cons, named, ↓reduceIte] at h ⊢
      exact ih h
    | false =>
      simp only [catchBefore, List.dropWhile_cons, named, Bool.false_eq_true, ↓reduceIte] at h ⊢
      exact emptyNeutral.opensCatch (.keep c before) h
  | swap ok before ih =>
    obtain ⟨rfl, -, -⟩ := ok
    contradiction

theorem placeBack {t u : Text} (past : Past emptySwaps t u) {c : Char}
    (h : parameterPlace (c :: u) = true) : parameterPlace (c :: t) = true := by
  obtain ⟨named, free⟩ := parameterPlaceCons.mp h
  refine parameterPlaceCons.mpr ⟨named, ?_⟩
  by_contra caught
  have := catchBeforeBack past (by simpa using caught)
  simp [free] at this

theorem tailBack {b t u : Text} (h : Respelled emptySwaps b t u) (tail : parameterTail u = true) :
    parameterTail t = true := by
  obtain ⟨q, bl, r, opt, gap, rfl⟩ := parameterTailIff.mp tail
  have inGap : 'o' ∉ bl := fun mem => absurd (gap 'o' mem) (by decide)
  have absent : 'o' ∉ q ++ (':' :: ' ' :: (anyType ++ (bl ++ [')']))) := by
    rcases opt with rfl | rfl <;> simp [anyType, inGap]
  obtain ⟨r', rfl, -⟩ := emptyKept (r := r) (by simpa using h) absent
  exact parameterTailIff.mpr ⟨q, bl, r', opt, gap, by simp⟩

theorem emptyTailOn {b t u : Text} (h : Respelled emptySwaps b t u)
    (tail : parameterTail t = true) : parameterTail u = true := by
  refine tailOn ?_ h tail
  rintro b _ _ ⟨rfl, -, -⟩
  exact ⟨by decide, '{', by decide, rfl⟩

def writesParameter : List Piece → Bool
  | [] => false
  | .kept _ :: ps => writesParameter ps
  | .swapped _ new :: ps =>
    (starts isNameChar new.reverse && parameterTail (ps.flatMap Piece.source)) || writesParameter ps

def Unannotated (x : Text) : Prop := ∀ y, y ≠ [] → y <:+ x → ∀ u, parameterTail (y ++ u) = false

structure WritesTypes (s : Substitution) : Prop where
  regular : s.Regular
  swaps : ∀ {before here f}, s.find? before here = some f → ∀ b, Respelled emptySwaps b f.old f.new
  oldQuiet : ∀ {before here f}, s.find? before here = some f → Unannotated f.old
  newQuiet : ∀ {before here f}, s.find? before here = some f → Unannotated f.new
  oldEnds : ∀ {before here f}, s.find? before here = some f → starts isNameChar f.old.reverse = false

namespace WritesTypes

theorem back {s : Substitution} (types : WritesTypes s) {bt here : Text} {ps : List Piece}
    (scan : s.Scan bt here ps) {bu : Text} (past : Past emptySwaps bt bu)
    (h : ParameterFrom bu (ps.flatMap Piece.result)) :
    ParameterFrom bt here ∨ writesParameter ps = true := by
  induction scan generalizing bu with
  | nil =>
    obtain ⟨x, y, split, some, -⟩ := h
    exact absurd (List.append_eq_nil_iff.mp split.symm).1 some
  | @pass before rest c ps none next ih =>
    rcases parameterCons h with ⟨tail, place⟩ | later
    · exact .inl ⟨[c], rest, rfl, by simp, tailBack (next.respelled types.swaps (c :: bu)) tail,
        placeBack past place⟩
    · exact (ih (.keep c past) later).imp_left (parameterLater (x := [c]))
  | @found before here f ps found next ih =>
    rw [Substitution.findSplit found]
    rw [List.flatMap_cons] at h
    rcases Substitution.pieceCases s before f with ⟨-, piece⟩ | ⟨-, piece⟩
    · rw [piece] at h ⊢
      rcases parameterAppend h with ⟨y, z, split, -, someZ, tail, -⟩ | ⟨some, tail, place⟩ | later
      · rw [types.newQuiet found z someZ ⟨y, split.symm⟩] at tail
        contradiction
      · have named : starts isNameChar f.new.reverse = true := placeEnds some place
        have source : parameterTail (ps.flatMap Piece.source) = true := by
          rw [next.source]
          exact tailBack (next.respelled types.swaps bu) tail
        exact .inr (by simp [writesParameter, named, source])
      · rcases ih ((types.swaps found bu).past past) later with param | writes
        · exact .inl (parameterLater param)
        · exact .inr (by simp [writesParameter, writes])
    · rw [piece] at h ⊢
      rcases parameterAppend h with ⟨y, z, split, -, someZ, tail, -⟩ | ⟨some, tail, place⟩ | later
      · rw [types.oldQuiet found z someZ ⟨y, split.symm⟩] at tail
        contradiction
      · have ends : starts isNameChar f.old.reverse = true := placeEnds some place
        rw [types.oldEnds found] at ends
        contradiction
      · rcases ih ((Respelled.refl emptySwaps bu f.old).past past) later with param | writes
        · exact .inl (parameterLater param)
        · exact .inr (by simp [writesParameter, writes])

theorem freshPlace {s : Substitution} (types : WritesTypes s) {before here : Text} {f : Found}
    (found : s.find? before here = some f) {bt bu : Text} (past : Past emptySwaps bt bu)
    (named : starts isNameChar f.new.reverse = true) :
    parameterPlace (f.new.reverse ++ bu) = true := by
  have ends := types.oldEnds found
  have newSome : f.new.reverse ≠ [] := by
    intro empty
    simp [empty] at named
  have oldSome : f.old.reverse ≠ [] := List.reverse_ne_nil_iff.mpr (types.regular.solid found)
  have both := (types.swaps found bu).past past
  rw [← Text.startsAppend newSome bu] at named
  rw [← Text.startsAppend oldSome bt] at ends
  generalize f.old.reverse ++ bt = t, f.new.reverse ++ bu = u at both named ends
  cases both with
  | nil => simp at named
  | keep c _ =>
    rw [Text.startsCons] at named ends
    rw [named] at ends
    contradiction
  | swap ok _ => simp [parameterPlace, named, emptyQuiet.after ok]

theorem on {s : Substitution} (types : WritesTypes s) {bt here : Text} {ps : List Piece}
    (scan : s.Scan bt here ps) {bu : Text} (past : Past emptySwaps bt bu)
    (h : ParameterFrom bt here ∨ writesParameter ps = true) :
    ParameterFrom bu (ps.flatMap Piece.result) := by
  induction scan generalizing bu with
  | nil =>
    rcases h with ⟨x, y, split, some, -⟩ | writes
    · exact absurd (List.append_eq_nil_iff.mp split.symm).1 some
    · contradiction
  | @pass before rest c ps none next ih =>
    have later (h : ParameterFrom (c :: before) rest ∨ writesParameter ps = true) :
        ParameterFrom bu (c :: ps.flatMap Piece.result) :=
      parameterLater (x := [c]) (ih (.keep c past) h)
    rcases h with param | writes
    · rcases parameterCons param with ⟨tail, place⟩ | param
      · exact ⟨[c], _, rfl, by simp, emptyTailOn (next.respelled types.swaps (c :: bu)) tail,
          emptyQuiet.place past place⟩
      · exact later (.inl param)
    · exact later (.inr writes)
  | @found before here f ps found next ih =>
    rw [Substitution.findSplit found] at h
    rw [List.flatMap_cons]
    have past' : Past emptySwaps (f.old.reverse ++ before)
        ((s.piece before f).result.reverse ++ bu) := by
      rcases Substitution.pieceCases s before f with ⟨-, piece⟩ | ⟨-, piece⟩
      · rw [piece]
        exact (types.swaps found bu).past past
      · rw [piece]
        exact (Respelled.refl emptySwaps bu f.old).past past
    have later (h : ParameterFrom (f.old.reverse ++ before) f.rest ∨ writesParameter ps = true) :=
      parameterLater (ih past' h)
    -- No parameter is lost: what is replaced neither holds an annotation nor ends in a name.
    rcases h with param | writes
    · rcases parameterAppend param with ⟨y, z, split, -, someZ, tail, -⟩ | ⟨some, -, place⟩ | param
      · rw [types.oldQuiet found z someZ ⟨y, split.symm⟩] at tail
        contradiction
      · have ends := placeEnds some place
        rw [types.oldEnds found] at ends
        contradiction
      · exact later (.inl param)
    · rcases Substitution.pieceCases s before f with ⟨-, piece⟩ | ⟨-, piece⟩
      · rw [piece] at writes later ⊢
        simp only [writesParameter, Bool.or_eq_true, Bool.and_eq_true] at writes
        rcases writes with ⟨named, tail⟩ | writes
        · rw [next.source] at tail
          refine ⟨f.new, _, rfl, ?_, emptyTailOn (next.respelled types.swaps bu) tail,
            types.freshPlace found past named⟩
          intro empty
          simp [empty] at named
        · exact later (.inr writes)
      · rw [piece] at writes later ⊢
        exact later (.inr (by simpa [writesParameter] using writes))

theorem iff {s : Substitution} (types : WritesTypes s) (t : Text) :
    ParameterFrom [] (s.apply t) ↔ ParameterFrom [] t ∨ writesParameter (s.pieces t) = true := by
  have scan := Substitution.scanned types.regular [] t
  exact ⟨types.back scan .nil, types.on scan .nil⟩

end WritesTypes

theorem unannotatedClear {x : Text} (colon : Text.clear [':', ' ', 'a'] x = true)
    (optional : Text.clear ['?', ':'] x = true) : Unannotated x := by
  intro y some suffix u
  by_contra tail
  obtain ⟨q, bl, r, opt, -, text⟩ := parameterTailIff.mp (by simpa using tail)
  rcases opt with rfl | rfl
  · exact Text.clashApart (Text.clearSuffix colon suffix some) _ _ text.symm
  · exact Text.clashApart (Text.clearSuffix optional suffix some) _ _ text.symm

theorem unannotatedLacks {x : Text} (colon : ':' ∉ x) (optional : '?' ∉ x) : Unannotated x := by
  intro y some suffix u
  by_contra tail
  obtain ⟨q, bl, r, opt, -, text⟩ := parameterTailIff.mp (by simpa using tail)
  cases y with
  | nil => exact some rfl
  | cons c y =>
    have mem : c ∈ x := suffix.subset (by simp)
    rcases opt with rfl | rfl
    · obtain ⟨rfl, -⟩ := List.cons.inj text
      exact colon mem
    · obtain ⟨rfl, -⟩ := List.cons.inj text
      exact optional mem

theorem fixedEmptyTypes : ∀ s ∈ fixedEmpty, WritesTypes s := by
  have each : ∀ {label left right guards},
      between label left emptySwap right guards ∈ fixedEmpty →
      (∀ type ∈ [emptyType, objectType],
        Text.clear [':', ' ', 'a'] (left.toList ++ type ++ right.flatMap String.toList) = true ∧
        Text.clear ['?', ':'] (left.toList ++ type ++ right.flatMap String.toList) = true) →
      starts isNameChar (left.toList ++ emptyType ++ right.flatMap String.toList).reverse = false →
      WritesTypes (between label left emptySwap right guards) := by
    intro label left right guards mem clear ends
    have settles := fixedEmptySettles _ mem
    refine ⟨settles.regular, settles.writes.swaps, ?_, ?_, ?_⟩
    · intro before here f found
      rw [(betweenRead.mp (Substitution.findRead found)).2.1]
      exact unannotatedClear (clear emptyType (by simp)).1 (clear emptyType (by simp)).2
    · intro before here f found
      rw [(betweenRead.mp (Substitution.findRead found)).2.2]
      exact unannotatedClear (clear objectType (by simp)).1 (clear objectType (by simp)).2
    · intro before here f found
      rw [(betweenRead.mp (Substitution.findRead found)).2.1]
      exact ends
  simp only [fixedEmpty, List.forall_mem_cons, List.not_mem_nil, IsEmpty.forall_iff, implies_true,
    and_true] at each ⊢
  exact ⟨each (by simp) (by decide) (by decide), each (by simp) (by decide) (by decide),
    each (by simp) (by decide) (by decide), each (by simp) (by decide) (by decide)⟩

theorem TypeAlias.lacks (a : TypeAlias) {type : Text} {c : Char} (notName : isNameChar c = false)
    (notBlank : isBlank c = false) (notEqual : c ≠ '=') (notType : c ∉ type) : c ∉ a.text type := by
  have gap : ∀ g ∈ [a.afterWord, a.beforeEqual, a.afterEqual], c ∉ g := by
    intro g mem inGap
    simp [a.gaps g mem c inGap] at notBlank
  have named : c ∉ a.defined := by
    intro inName
    simp [a.names c inName] at notName
  have word : c ∉ typeWord := by
    have all : ∀ d ∈ typeWord, isNameChar d = true := by decide
    intro inWord
    simp [all c inWord] at notName
  simp [TypeAlias.text, gap, named, word, notEqual, notType]

theorem aliasTypes : WritesTypes aliasOfEmpty where
  regular := aliasSettles.regular
  swaps := aliasSettles.writes.swaps
  oldQuiet found := by
    obtain ⟨a, -, old, -⟩ := aliasRead.mp (Substitution.findRead found)
    rw [old]
    exact unannotatedLacks (a.lacks (by decide) (by decide) (by decide) (by decide))
      (a.lacks (by decide) (by decide) (by decide) (by decide))
  newQuiet found := by
    obtain ⟨a, -, -, new⟩ := aliasRead.mp (Substitution.findRead found)
    rw [new]
    exact unannotatedLacks (a.lacks (by decide) (by decide) (by decide) (by decide))
      (a.lacks (by decide) (by decide) (by decide) (by decide))
  oldEnds found := by
    obtain ⟨a, -, old, -⟩ := aliasRead.mp (Substitution.findRead found)
    have last : (a.text emptyType).reverse = '}' :: '{' :: (a.text []).reverse := by
      simp [TypeAlias.text, emptyType]
    rw [old, last]
    rfl

theorem extendsTypes : WritesTypes extendsEmpty where
  regular := extendsSettles.regular
  swaps := extendsSettles.writes.swaps
  oldQuiet found := by
    obtain ⟨bl, -, gap, -, old, -⟩ := extendsRead.mp (Substitution.findRead found)
    have absent : ':' ∉ bl ∧ '?' ∉ bl :=
      ⟨fun mem => absurd (gap _ mem) (by decide), fun mem => absurd (gap _ mem) (by decide)⟩
    rw [old]
    exact unannotatedLacks (by simp [extendsBackwards, emptyType, absent])
      (by simp [extendsBackwards, emptyType, absent])
  newQuiet found := by
    obtain ⟨bl, -, gap, -, -, new⟩ := extendsRead.mp (Substitution.findRead found)
    have absent : ':' ∉ bl ∧ '?' ∉ bl :=
      ⟨fun mem => absurd (gap _ mem) (by decide), fun mem => absurd (gap _ mem) (by decide)⟩
    rw [new]
    exact unannotatedLacks (by simp [extendsBackwards, objectType, absent])
      (by simp [extendsBackwards, objectType, absent])
  oldEnds found := by
    obtain ⟨bl, -, -, -, old, -⟩ := extendsRead.mp (Substitution.findRead found)
    rw [old]
    simp [emptyType]
    rfl

theorem emptyObjectTypes : ∀ s ∈ emptyObjectType.substitutions, WritesTypes s := by
  have parts : emptyObjectType.substitutions = fixedEmpty ++ [aliasOfEmpty, extendsEmpty] := rfl
  rw [parts]
  intro s mem
  rcases List.mem_append.mp mem with fixed | last
  · exact fixedEmptyTypes s fixed
  · rcases List.mem_cons.mp last with rfl | last
    · exact aliasTypes
    · rw [List.mem_singleton.mp last]
      exact extendsTypes

def runWritesParameter : List Substitution → Text → Bool
  | [], _ => false
  | s :: rest, t => writesParameter (s.pieces t) || runWritesParameter rest (s.apply t)

theorem parameterRun {substitutions : List Substitution}
    (types : ∀ s ∈ substitutions, WritesTypes s) (t : Text) :
    ParameterFrom [] (applyAll substitutions t) ↔
      ParameterFrom [] t ∨ runWritesParameter substitutions t = true := by
  induction substitutions generalizing t with
  | nil => simp [runWritesParameter]
  | cons s rest ih =>
    rw [applyAllCons, ih (fun s mem => types s (by simp [mem])), (types s (by simp)).iff,
      runWritesParameter, Bool.or_eq_true, or_assoc]

end Rule
end LintRemedy
