import LintRemedy.Proofs.LineEnds

/-!
What the pattern rules leave alone. A text is cut into lexemes, and the rule against `any` changes
some lexemes `any` and no others, whatever it does to the blanks of a catch clause. The rule
against `{}` changes no character but those of some `{}`.
-/
namespace LintRemedy
open Text (isBlank isNameChar starts)

/-- The runs of name characters, each as long as it can be, and every other character that is no
blank on its own. -/
def Text.lexemes : Text → List Text
  | [] => []
  | c :: t =>
    if isBlank c then lexemes t
    else if isNameChar c && starts isNameChar t then
      match lexemes t with
      | [] => [[c]]
      | run :: rest => (c :: run) :: rest
    else [c] :: lexemes t

namespace Text

theorem lexemesBlanks {x : Text} (blanks : ∀ c ∈ x, isBlank c = true) (t : Text) :
    lexemes (x ++ t) = lexemes t := by
  induction x with
  | nil => rfl
  | cons c x ih =>
    have later := ih (fun d mem => blanks d (by simp [mem]))
    simp [lexemes, blanks c (by simp), later]

theorem lexemesRun {x t : Text} (some : x ≠ []) (names : ∀ c ∈ x, isNameChar c = true)
    (stop : starts isNameChar t = false) : lexemes (x ++ t) = x :: lexemes t := by
  induction x with
  | nil => exact absurd rfl some
  | cons c x ih =>
    have named := names c (by simp)
    have solid := nameNotBlank named
    by_cases last : x = []
    · subst last
      simp [lexemes, solid, stop]
    · have later := ih last (fun d mem => names d (by simp [mem]))
      have goesOn : starts isNameChar (x ++ t) = true := by
        rw [startsAppend last]
        cases x with
        | nil => exact absurd rfl last
        | cons d x => exact names d (by simp)
      simp [lexemes, solid, named, goesOn, later]

theorem lexemesBreak {p x : Text} {c : Char} (names : ∀ d ∈ p, isNameChar d = true)
    (blanks : ∀ d ∈ x, isBlank d = true) (mark : isNameChar c = false) (t : Text) :
    lexemes (p ++ (x ++ c :: t)) =
      (if p = [] then [] else [p]) ++ ((if isBlank c then [] else [[c]]) ++ lexemes t) := by
  have alone : lexemes (c :: t) = (if isBlank c then [] else [[c]]) ++ lexemes t := by
    by_cases blank : isBlank c = true <;> simp [lexemes, blank, mark]
  have stop : starts isNameChar (x ++ c :: t) = false := by
    cases x with
    | nil => exact mark
    | cons d x => exact blankNotName (blanks d (by simp))
  by_cases none : p = []
  · subst none
    rw [List.nil_append, lexemesBlanks blanks, alone]
    rfl
  · rw [lexemesRun none names stop, lexemesBlanks blanks, alone, if_neg none]
    rfl

end Text

open Text (lexemes)
open Rule (anyType unknownType emptyType objectType catchWord)

def LexemeMended (old new : Text) : Prop := new = old ∨ (old = anyType ∧ new = unknownType)

theorem LexemeMended.trans {a b c : Text} (first : LexemeMended a b) (second : LexemeMended b c) :
    LexemeMended a c := by
  rcases first with rfl | ⟨rfl, rfl⟩
  · exact second
  · rcases second with rfl | ⟨clash, -⟩
    · exact .inr ⟨rfl, rfl⟩
    · exact absurd clash (by decide)

theorem LexemeMended.same (ls : List Text) : List.Forall₂ LexemeMended ls ls :=
  List.forall₂_same.mpr fun _ _ => .inl rfl

def LexemesMended (t u : Text) : Prop := List.Forall₂ LexemeMended (lexemes t) (lexemes u)

namespace LexemesMended

theorem refl (t : Text) : LexemesMended t t := LexemeMended.same (lexemes t)

theorem trans {t u v : Text} (first : LexemesMended t u) (second : LexemesMended u v) :
    LexemesMended t v :=
  forall₂Trans (fun _ _ _ => .trans) first second

theorem gap {x y t u : Text} (blanks : ∀ c ∈ x, isBlank c = true)
    (blanks' : ∀ c ∈ y, isBlank c = true) (next : LexemesMended t u) :
    LexemesMended (x ++ t) (y ++ u) := by
  unfold LexemesMended
  rw [Text.lexemesBlanks blanks, Text.lexemesBlanks blanks']
  exact next

end LexemesMended

/-- The lexemes are mended also where both texts go on with a name that was begun before them. -/
def Joined (t u : Text) : Prop :=
  ∀ p, (∀ c ∈ p, isNameChar c = true) → LexemesMended (p ++ t) (p ++ u)

namespace Joined

theorem mended {t u : Text} (h : Joined t u) : LexemesMended t u := h [] (List.forall_mem_nil _)

theorem nil : Joined [] [] := fun _ _ => .refl _

theorem mark {x y t u : Text} {c : Char} (blanks : ∀ d ∈ x, isBlank d = true)
    (blanks' : ∀ d ∈ y, isBlank d = true) (mark : isNameChar c = false)
    (next : LexemesMended t u) : Joined (x ++ c :: t) (y ++ c :: u) := by
  intro p names
  unfold LexemesMended
  rw [Text.lexemesBreak names blanks mark, Text.lexemesBreak names blanks' mark]
  exact List.rel_append (LexemeMended.same _) (List.rel_append (LexemeMended.same _) next)

theorem keep {t u : Text} (next : Joined t u) (c : Char) : Joined (c :: t) (c :: u) := by
  by_cases named : isNameChar c = true
  · intro p names
    have longer := next (p ++ [c]) (by
      intro d mem
      rcases List.mem_append.mp mem with before | last
      · exact names d before
      · rw [List.mem_singleton.mp last]
        exact named)
    simpa using longer
  · exact mark (List.forall_mem_nil _) (List.forall_mem_nil _) (by simpa using named) next.mended

theorem stretch {t u : Text} (next : Joined t u) (x : Text) : Joined (x ++ t) (x ++ u) := by
  induction x with
  | nil => exact next
  | cons c x ih => exact ih.keep c

theorem stops {t u : Text} (h : Joined t u) (stop : starts isNameChar t = false) :
    starts isNameChar u = false := by
  have names : ∀ c ∈ unknownType, isNameChar c = true := by decide
  have both := h unknownType names
  -- The longer name would have to come from `unknown`, which is no target.
  have longer : ∀ c ∈ unknownType ++ u.takeWhile isNameChar, isNameChar c = true := by
    intro c mem
    rcases List.mem_append.mp mem with first | later
    · exact names c first
    · exact Text.runAll _ u c later
  have right : lexemes (unknownType ++ u) =
      (unknownType ++ u.takeWhile isNameChar) :: lexemes (u.dropWhile isNameChar) := by
    have whole : unknownType ++ u =
        (unknownType ++ u.takeWhile isNameChar) ++ u.dropWhile isNameChar := by simp
    rw [whole, Text.lexemesRun (by simp [unknownType]) longer (Text.runStops _ u)]
  unfold LexemesMended at both
  rw [Text.lexemesRun (by decide) names stop, right] at both
  have none : u.takeWhile isNameChar = [] := by
    rcases (List.forall₂_cons.mp both).1 with same | ⟨clash, -⟩
    · simpa using same
    · exact absurd clash (by decide)
  have start := Text.runStops isNameChar u
  rw [← List.takeWhile_append_dropWhile (p := isNameChar) (l := u), none]
  exact start

theorem any {t u : Text} (next : Joined t u) (stop : starts isNameChar t = false) :
    LexemesMended (anyType ++ t) (unknownType ++ u) := by
  unfold LexemesMended
  rw [Text.lexemesRun (by decide) (by decide) stop,
    Text.lexemesRun (by decide) (by decide) (next.stops stop)]
  exact .cons (.inr ⟨rfl, rfl⟩) next.mended

theorem typed {t u y : Text} (next : Joined t u) (x : Text) {c : Char} (mark : isNameChar c = false)
    (stop : starts isNameChar (y ++ t) = false) :
    Joined ((x ++ c :: (anyType ++ y)) ++ t) ((x ++ c :: (unknownType ++ y)) ++ u) := by
  have type : LexemesMended (anyType ++ (y ++ t)) (unknownType ++ (y ++ u)) :=
    (next.stretch y).any stop
  have marked := Joined.mark (c := c) (List.forall_mem_nil _) (List.forall_mem_nil _) mark type
  simpa using marked.stretch x

end Joined

def Substitution.KeepsLexemes (s : Substitution) : Prop :=
  ∀ {before here f}, s.find? before here = some f → s.allowed before f = true →
    ∀ {u}, Joined f.rest u → Joined (f.old ++ f.rest) (f.new ++ u)

namespace Substitution

theorem Scan.joined {s : Substitution} (keeps : s.KeepsLexemes) {before here : Text}
    {ps : List Piece} (scan : Scan s before here ps) :
    Joined here (ps.flatMap Piece.result) := by
  induction scan with
  | nil => exact .nil
  | pass none next ih => exact ih.keep _
  | @found before here f ps found next ih =>
    rw [findSplit found, List.flatMap_cons]
    rcases pieceCases s before f with ⟨allowed, piece⟩ | ⟨-, piece⟩
    · rw [piece]
      exact keeps found allowed ih
    · rw [piece]
      exact ih.stretch f.old

theorem applyLexemes {s : Substitution} (regular : s.Regular) (keeps : s.KeepsLexemes) (t : Text) :
    LexemesMended t (s.apply t) :=
  ((scanned regular [] t).joined keeps).mended

end Substitution

namespace Rule

theorem betweenLexemes {label left : String} {right : List String} {guards : List Guard}
    (some : left.toList ≠ []) (ends : starts isNameChar left.toList.reverse = false)
    (begins : starts isNameChar (right.flatMap String.toList) = false)
    (closed : right.flatMap String.toList ≠ [] ∨ .notBeforeName ∈ guards) :
    (between label left anySwap right guards).KeepsLexemes := by
  intro before here f found allowed u next
  obtain ⟨-, old, new⟩ := betweenRead.mp (Substitution.findRead found)
  obtain ⟨x, c, split⟩ := (List.eq_nil_or_concat left.toList).resolve_left some
  have mark : isNameChar c = false := by simpa [split] using ends
  have stop : starts isNameChar (right.flatMap String.toList ++ f.rest) = false := by
    by_cases bare : right.flatMap String.toList = []
    · have allows := List.all_eq_true.mp allowed _ (closed.resolve_left (not_not.mpr bare))
      rw [bare, List.nil_append]
      simpa [Guard.allows, starts] using allows
    · rw [Text.startsAppend bare]
      exact begins
  rw [old, new, split]
  simpa [anyType, unknownType] using next.typed x mark stop

theorem fixedAnyLexemes : ∀ s ∈ fixedAny, s.KeepsLexemes := by
  have each : ∀ {label left right guards}, left.toList ≠ [] ∧
      starts isNameChar left.toList.reverse = false ∧
      starts isNameChar (right.flatMap String.toList) = false ∧
      (right.flatMap String.toList ≠ [] ∨ Guard.notBeforeName ∈ guards) →
      (between label left anySwap right guards).KeepsLexemes :=
    fun ⟨solid, ends, begins, closed⟩ => betweenLexemes solid ends begins closed
  simp only [fixedAny, List.forall_mem_cons, List.not_mem_nil, IsEmpty.forall_iff, implies_true,
    and_true]
  exact ⟨each (by decide), each (by decide), each (by decide), each (by decide), each (by decide)⟩

theorem parameterLexemes : parameterAnnotation.KeepsLexemes := by
  intro before here f found allowed u next
  obtain ⟨nm, rest, g, -, -, -, -, read, rfl⟩ := parameterRead.mp (Substitution.findRead found)
  obtain ⟨q, bl, r, -, gap, -, rfl⟩ := tailRead.mp read
  have stop : starts isNameChar ((bl ++ [')']) ++ r) = false := by
    cases bl with
    | nil => rfl
    | cons c bl => exact Text.blankNotName (gap c (by simp))
  have typed := next.typed (y := bl ++ [')']) (nm ++ (q ++ [':'])) (c := ' ') (by decide) stop
  simpa using typed

theorem catchLexemes : catchBinding.KeepsLexemes := by
  intro before here f found allowed u next
  obtain ⟨k, -, old, new⟩ := catchRead.mp (Substitution.findRead found)
  have blanks : ∀ g ∈ [k.beforeOpen, k.afterOpen, k.beforeColon, k.afterColon, k.beforeClose],
      ∀ c ∈ g, isBlank c = true := k.gaps
  have none : ∀ c ∈ ([] : Text), isBlank c = true := List.forall_mem_nil _
  have one : ∀ c ∈ [' '], isBlank c = true := by decide
  -- From the end of the clause to its start: each gap stands before a mark or behind one.
  have close := Joined.mark (c := ')') (blanks k.beforeClose (by simp)) none (by decide) next.mended
  have stop : starts isNameChar (k.beforeClose ++ ')' :: f.rest) = false := by
    cases gap : k.beforeClose with
    | nil => rfl
    | cons c rest => exact Text.blankNotName (blanks k.beforeClose (by simp) c (by simp [gap]))
  have type := (close.any stop).gap (blanks k.afterColon (by simp)) one
  have colon := Joined.mark (c := ':') (blanks k.beforeColon (by simp)) none (by decide) type
  have binding := (colon.stretch k.binding).mended.gap (blanks k.afterOpen (by simp)) none
  have opening := Joined.mark (c := '(') (blanks k.beforeOpen (by simp)) one (by decide) binding
  rw [old, new]
  simpa [CatchClause.text, CatchClause.inside, CatchClause.tidy] using opening.stretch catchWord

theorem explicitAnyLexemes : ∀ s ∈ explicitAny.substitutions, s.KeepsLexemes := by
  intro s mem
  rw [explicitAnySplit] at mem
  rcases List.mem_append.mp mem with plain | last
  · rcases plainAnyCases plain with fixed | rfl
    · exact fixedAnyLexemes s fixed
    · exact parameterLexemes
  · rw [List.mem_singleton.mp last]
    exact catchLexemes

def emptyObjects : Swaps := fun _ old new => old = emptyType ∧ new = objectType

theorem emptyObjectsTrans {b t u v : Text} (first : Respelled emptyObjects b t u) {b' : Text}
    (second : Respelled emptyObjects b' u v) : Respelled emptyObjects b t v := by
  induction first generalizing b' v with
  | nil b =>
    generalize none : ([] : Text) = u at second
    cases second with
    | nil => exact .nil b
    | keep c next => contradiction
    | swap ok next =>
      obtain ⟨rfl, rfl⟩ := ok
      contradiction
  | @keep b t u c next ih =>
    generalize whole : c :: u = w at second
    cases second with
    | nil => contradiction
    | keep d next' =>
      obtain ⟨rfl, rfl⟩ := List.cons.inj whole
      exact .keep c (ih next')
    | @swap _ _ _ u' v' ok next' =>
      -- The brace behind this one was not written either, so both stood in the first text.
      obtain ⟨rfl, rfl⟩ := ok
      obtain ⟨rfl, rfl⟩ := List.cons.inj whole
      have brace : Respelled emptyObjects ('{' :: b) t (['}'] ++ v') :=
        ih (.keep '}' (next'.anywhere (fun ok => ok) ['}']))
      obtain ⟨s, rfl, rest⟩ := brace.kept (p := (· == '}'))
        (by rintro b _ _ ⟨rfl, rfl⟩; decide) (by decide)
      have swapped : Respelled emptyObjects b (emptyType ++ s) (objectType ++ v') :=
        .swap ⟨rfl, rfl⟩ (rest.anywhere (fun ok => ok) _)
      exact swapped
  | @swap b old new t u ok next ih =>
    obtain ⟨rfl, rfl⟩ := ok
    obtain ⟨s, rfl, rest⟩ := second.keptOn (x := objectType) (by
      rintro b _ _ ⟨rfl, rfl⟩ v some suffix r s same
      have head := congrArg (starts isNameChar) same
      rw [Text.startsAppend some] at head
      cases v with
      | nil => exact some rfl
      | cons c v =>
        have named : ∀ c ∈ objectType, isNameChar c = true := by decide
        have first : isNameChar c = isNameChar '{' := head
        rw [named c (suffix.subset (by simp))] at first
        contradiction)
    exact .swap ⟨rfl, rfl⟩ (ih rest)

theorem emptyObjectTypeRespelled {s : Substitution} (mem : s ∈ emptyObjectType.substitutions)
    (t : Text) : Respelled emptyObjects [] t (s.apply t) :=
  ((emptyObjectTypeSettles s mem).respelled t).mono fun ok => ⟨ok.1, ok.2.1⟩

end Rule

namespace RuleTable

theorem anyStageLexemes (on : Bool) (t : Text) :
    LexemesMended t (Rule.applyAll (if on then Rule.explicitAny.substitutions else []) t) := by
  cases on with
  | false => exact .refl t
  | true =>
    exact Rule.applyAllRelates .refl .trans (fun s mem t =>
      Substitution.applyLexemes (Rule.explicitAnyRegular s mem) (Rule.explicitAnyLexemes s mem) t) t

theorem emptyStageRespelled (on : Bool) (t : Text) : Respelled Rule.emptyObjects [] t
    (Rule.applyAll (if on then Rule.emptyObjectType.substitutions else []) t) := by
  cases on with
  | false => exact .refl Rule.emptyObjects [] t
  | true =>
    exact Rule.applyAllRelates (R := Respelled Rule.emptyObjects []) (.refl Rule.emptyObjects [])
      (fun first second => Rule.emptyObjectsTrans first second)
      (fun s mem => Rule.emptyObjectTypeRespelled mem) t

/-- Where the rule against `{}` is not reported, the lexemes stay as they are but for some `any`;
where the rule against `any` is not, the characters do but for some `{}`. -/
theorem runTouchesOnlyTypes (disabled reported : List String) (t : Text) :
    (Rule.noEmptyObjectType ∉ reported →
      List.Forall₂ LexemeMended (lexemes t)
        (lexemes ((builtin.without disabled).run reported t).text)) ∧
    (Rule.noExplicitAny ∉ reported →
      Respelled Rule.emptyObjects [] t ((builtin.without disabled).run reported t).text) := by
  rw [runStages]
  constructor
  · intro unreported
    have off : (builtin.without disabled).runs reported Rule.emptyObjectType = false := by
      simp [runs, Rule.emptyObjectType, unreported]
    rw [off, if_neg Bool.false_ne_true, Rule.applyAllNil]
    exact anyStageLexemes _ t
  · intro unreported
    have off : (builtin.without disabled).runs reported Rule.explicitAny = false := by
      simp [runs, Rule.explicitAny, unreported]
    rw [off, if_neg Bool.false_ne_true, Rule.applyAllNil]
    exact emptyStageRespelled _ t

theorem runTouchesOnlyTypesTwo :
    Rule.noEmptyObjectType ∉ [Rule.noExplicitAny] ∧
    List.Forall₂ LexemeMended (lexemes "catch (\n$e :any) f(many, x: any)".toList)
      (lexemes "catch ($e: unknown) f(many, x: unknown)".toList) ∧
    Rule.noExplicitAny ∉ [Rule.noEmptyObjectType] ∧
    Respelled Rule.emptyObjects [] "let a: \x7b\x7d | \x7b\x7d = \x7b\x7d".toList
      "let a: object | object = \x7b\x7d".toList := by
  have only : Rule.noEmptyObjectType ∉ [Rule.noExplicitAny] := by decide
  have only' : Rule.noExplicitAny ∉ [Rule.noEmptyObjectType] := by decide
  have kept := (runTouchesOnlyTypes [] [Rule.noExplicitAny]
    "catch (\n$e :any) f(many, x: any)".toList).1 only
  have kept' := (runTouchesOnlyTypes [] [Rule.noEmptyObjectType]
    "let a: \x7b\x7d | \x7b\x7d = \x7b\x7d".toList).2 only'
  have text : ((builtin.without []).run [Rule.noExplicitAny]
      "catch (\n$e :any) f(many, x: any)".toList).text =
      "catch ($e: unknown) f(many, x: unknown)".toList := by decide +kernel
  have text' : ((builtin.without []).run [Rule.noEmptyObjectType]
      "let a: \x7b\x7d | \x7b\x7d = \x7b\x7d".toList).text =
      "let a: object | object = \x7b\x7d".toList := by decide +kernel
  rw [text] at kept
  rw [text'] at kept'
  exact ⟨only, kept, only', kept'⟩

end RuleTable
end LintRemedy
