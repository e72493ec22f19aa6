import LintRemedy.Mender
import LintRemedy.Proofs.NormalForm
import LintRemedy.Proofs.Patch
import Mathlib.Data.List.Forall2
import Mathlib.Logic.Relation

/-!
Line numbers under the stages before the dependency stage. Cleaning and all substitutions but one
keep every line end. The substitution for catch clauses drops those in the blanks it tidies. Above
the first clause that it so folds, and everywhere if there is none, each line of the outcome comes
from the line with the same number.
-/
namespace LintRemedy
open Text (isBlank splitOn joinWith)
open scoped LintRemedy.Counts

def lineEnds (t : Text) : Nat := t.count '\n'

def Piece.swappedLineEnds : Piece → Nat
  | kept _ => 0
  | swapped old _ => lineEnds old

def Piece.lineEndsAhead : List Piece → Nat
  | [] => 0
  | p :: ps => if p.swappedLineEnds = 0 then lineEnds p.source + lineEndsAhead ps else 0

inductive Mends : (old new : Text) → Prop where
  | any : Mends Rule.anyType Rule.unknownType
  | empty : Mends Rule.emptyType Rule.objectType
  | clause (k : Rule.CatchClause) : Mends k.text k.tidy
  | invisible {c : Char} (hidden : Text.isInvisible c = true) : Mends [c] []

def lineSwaps : Swaps := fun _ old new => Mends old new ∧ '\n' ∉ old ∧ '\n' ∉ new

def LineMended : Text → Text → Prop := Relation.ReflTransGen (Respelled lineSwaps [])

def LinesMended (t u : Text) : Prop := List.Forall₂ LineMended (splitOn '\n' t) (splitOn '\n' u)

def LinesMendedTo (n : Nat) (t u : Text) : Prop :=
  List.Forall₂ LineMended ((splitOn '\n' t).take n) ((splitOn '\n' u).take n)

theorem Respelled.anywhere {A : Swaps} (blind : ∀ {b b' old new}, A b old new → A b' old new)
    {b t u : Text} (h : Respelled A b t u) (b' : Text) : Respelled A b' t u := by
  induction h generalizing b' with
  | nil => exact .nil b'
  | keep c next ih => exact .keep c (ih _)
  | swap ok next ih => exact .swap (blind ok) (ih _)

theorem Text.splitOver {sep : Char} {x : Text} (absent : sep ∉ x) {t part : Text}
    {parts : List Text} (rest : splitOn sep t = part :: parts) :
    splitOn sep (x ++ t) = (x ++ part) :: parts := by
  induction x with
  | nil => exact rest
  | cons c x ih =>
    have other : c ≠ sep := fun same => absent (by simp [same])
    have later := ih (fun mem => absent (by simp [mem]))
    simp [splitOn, other, later]

theorem Text.splitHead (sep : Char) (t : Text) : ∃ part parts, splitOn sep t = part :: parts :=
  List.exists_cons_of_ne_nil (Text.splitOnNonempty sep t)

theorem Text.splitLength (t : Text) : (splitOn '\n' t).length = lineEnds t + 1 := by
  induction t with
  | nil => rfl
  | cons c t ih =>
    by_cases ends : c = '\n'
    · subst ends
      simp [splitOn, ih, lineEnds]
    · obtain ⟨part, parts, split⟩ := Text.splitHead '\n' t
      rw [split] at ih
      simpa [splitOn, ends, split, lineEnds] using ih

theorem Text.splitTake (x y : Text) :
    (splitOn '\n' (x ++ y)).take (lineEnds x) = (splitOn '\n' x).take (lineEnds x) := by
  induction x with
  | nil => rfl
  | cons c x ih =>
    by_cases ends : c = '\n'
    · subst ends
      have more : lineEnds ('\n' :: x) = lineEnds x + 1 := by simp [lineEnds]
      simp [splitOn, more, ih]
    · obtain ⟨p, ps, left⟩ := Text.splitHead '\n' (x ++ y)
      obtain ⟨q, qs, right⟩ := Text.splitHead '\n' x
      have same : lineEnds (c :: x) = lineEnds x := by simp [lineEnds, ends]
      rw [left, right] at ih
      simp only [List.cons_append, splitOn, ends, ↓reduceIte, left, right, same]
      cases count : lineEnds x with
      | zero => rfl
      | succ n =>
        rw [count, List.take_succ_cons, List.take_succ_cons] at ih
        injection ih with first rest
        rw [List.take_succ_cons, List.take_succ_cons, first, rest]

theorem Respelled.lines {b t u : Text} (h : Respelled lineSwaps b t u) :
    List.Forall₂ (Respelled lineSwaps []) (splitOn '\n' t) (splitOn '\n' u) := by
  induction h with
  | nil => exact .cons (.nil []) .nil
  | @keep b t u c next ih =>
    obtain ⟨p, ps, left⟩ := Text.splitHead '\n' t
    obtain ⟨q, qs, right⟩ := Text.splitHead '\n' u
    by_cases ends : c = '\n'
    · subst ends
      exact .cons (.nil []) ih
    · rw [left, right] at ih
      obtain ⟨first, rest⟩ := List.forall₂_cons.mp ih
      simp only [splitOn, ends, ↓reduceIte, left, right]
      exact .cons (.keep c (first.anywhere id _)) rest
  | @swap b old new t u ok next ih =>
    obtain ⟨p, ps, left⟩ := Text.splitHead '\n' t
    obtain ⟨q, qs, right⟩ := Text.splitHead '\n' u
    rw [left, right] at ih
    obtain ⟨first, rest⟩ := List.forall₂_cons.mp ih
    rw [Text.splitOver ok.2.1 left, Text.splitOver ok.2.2 right]
    exact .cons (.swap ok (first.anywhere id _)) rest

theorem forall₂Trans {R : Text → Text → Prop} (trans : ∀ a b c, R a b → R b c → R a c)
    {left middle right : List Text} (first : List.Forall₂ R left middle)
    (second : List.Forall₂ R middle right) : List.Forall₂ R left right := by
  induction first generalizing right with
  | nil =>
    cases second
    exact .nil
  | cons head _ ih =>
    cases second with
    | cons head' rest => exact .cons (trans _ _ _ head head') (ih rest)

namespace LinesMended

theorem refl (t : Text) : LinesMended t t := List.forall₂_same.mpr fun _ _ => .refl

theorem one {t u : Text} (h : Respelled lineSwaps [] t u) : LinesMended t u :=
  h.lines.imp fun _ _ step => .single step

theorem trans {t u v : Text} (first : LinesMended t u) (second : LinesMended u v) :
    LinesMended t v :=
  forall₂Trans (fun _ _ _ => .trans) first second

theorem sameEnds {t u : Text} (h : LinesMended t u) : lineEnds t = lineEnds u := by
  have same := List.Forall₂.length_eq h
  rw [Text.splitLength, Text.splitLength] at same
  omega

theorem upTo {t u : Text} (h : LinesMended t u) (n : Nat) : LinesMendedTo n t u :=
  List.forall₂_take n h

end LinesMended

theorem LinesMendedTo.trans {n : Nat} {t u v : Text} (first : LinesMendedTo n t u)
    (second : LinesMendedTo n u v) : LinesMendedTo n t v :=
  forall₂Trans (fun _ _ _ => .trans) first second

theorem cleanLines (t : Text) : LinesMended t (Text.clean t).text := by
  apply LinesMended.one
  change Respelled lineSwaps [] t (t.filter fun c => !Text.isInvisible c)
  generalize ([] : Text) = b
  induction t generalizing b with
  | nil => exact .nil b
  | cons c t ih =>
    by_cases hidden : Text.isInvisible c = true
    · rw [List.filter_cons_of_neg (by simp [hidden])]
      have inLine : '\n' ∉ [c] := by
        rintro mem
        cases List.mem_singleton.mp mem
        contradiction
      have swap : lineSwaps b [c] [] := ⟨.invisible hidden, inLine, by simp⟩
      exact .swap swap (ih _)
    · rw [List.filter_cons_of_pos (by simp [hidden])]
      exact .keep c (ih _)

namespace Rule

theorem settledLines {A : Swaps} (within : ∀ {b old new}, A b old new → lineSwaps b old new)
    {substitutions : List Substitution} (settles : ∀ s ∈ substitutions, s.Settles A) (t : Text) :
    LinesMended t (applyAll substitutions t) :=
  applyAllRelates .refl .trans (fun s mem t => .one (((settles s mem).respelled t).mono within)) t

theorem plainAnyLines (t : Text) : LinesMended t (applyAll plainAny t) := by
  refine settledLines ?_ plainAnySettles t
  rintro b _ _ ⟨rfl, rfl⟩
  exact ⟨.any, by decide, by decide⟩

theorem emptyObjectLines (t : Text) :
    LinesMended t (applyAll emptyObjectType.substitutions t) := by
  refine settledLines ?_ emptyObjectTypeSettles t
  rintro b _ _ ⟨rfl, rfl, -⟩
  exact ⟨.empty, by decide, by decide⟩

theorem lineEndsAppend (x y : Text) : lineEnds (x ++ y) = lineEnds x + lineEnds y :=
  List.count_append

theorem tidyInLine (k : CatchClause) : '\n' ∉ k.tidy := by
  have inName : '\n' ∉ k.binding := fun mem => absurd (k.names '\n' mem) (by decide)
  simp [CatchClause.tidy, catchWord, unknownType, inName]

theorem catchScanned (t : Text) : catchBinding.Scan [] t (catchBinding.pieces t) :=
  Substitution.scanned catchSettles.regular [] t

theorem catchLineEnds {before here : Text} {ps : List Piece}
    (scan : catchBinding.Scan before here ps) :
    lineEnds (ps.flatMap Piece.result) + (ps.map Piece.swappedLineEnds).sum = lineEnds here := by
  induction scan with
  | nil => rfl
  | @pass before rest c ps none next ih =>
    have split : lineEnds (c :: rest) = lineEnds [c] + lineEnds rest := lineEndsAppend [c] rest
    simp only [List.flatMap_cons, List.map_cons, List.sum_cons, lineEndsAppend, Piece.result,
      Piece.swappedLineEnds, split]
    omega
  | @found before here f ps found next ih =>
    rw [Substitution.findSplit found]
    obtain ⟨k, -, -, new⟩ := catchRead.mp (Substitution.findRead found)
    have none : lineEnds f.new = 0 := by
      rw [new]
      exact List.count_eq_zero.mpr (tidyInLine k)
    simp only [List.flatMap_cons, List.map_cons, List.sum_cons, lineEndsAppend]
    -- A clause that a guard refuses is copied, and with it the line ends inside.
    rcases Substitution.pieceCases catchBinding before f with ⟨-, piece⟩ | ⟨-, piece⟩
    · rw [piece]
      simp only [Piece.result, Piece.swappedLineEnds, none]
      omega
    · rw [piece]
      simp only [Piece.result, Piece.swappedLineEnds]
      omega

theorem catchPiece {before here : Text} {f : Found} (found : catchBinding.find? before here = some f)
    (inLine : (catchBinding.piece before f).swappedLineEnds = 0) (b : Text) :
    Respelled lineSwaps b (catchBinding.piece before f).source
      (catchBinding.piece before f).result := by
  rcases Substitution.pieceCases catchBinding before f with ⟨-, piece⟩ | ⟨-, piece⟩
  · obtain ⟨k, -, old, new⟩ := catchRead.mp (Substitution.findRead found)
    rw [piece] at inLine ⊢
    have mends : lineSwaps b f.old f.new := by
      refine ⟨?_, List.count_eq_zero.mp inLine, ?_⟩
      · rw [old, new]
        exact .clause k
      · rw [new]
        exact tidyInLine k
    have one := Respelled.swap mends (.nil _)
    rw [List.append_nil, List.append_nil] at one
    exact one
  · rw [piece]
    exact .refl lineSwaps b f.old

theorem catchAhead {before here : Text} {ps : List Piece} (scan : catchBinding.Scan before here ps)
    (b : Text) :
    ∃ x y x' y', here = x ++ y ∧ ps.flatMap Piece.result = x' ++ y' ∧
      Respelled lineSwaps b x x' ∧ lineEnds x = Piece.lineEndsAhead ps ∧
      ((∀ p ∈ ps, p.swappedLineEnds = 0) → y = [] ∧ y' = []) := by
  induction scan generalizing b with
  | nil => exact ⟨[], [], [], [], rfl, rfl, .nil b, rfl, fun _ => ⟨rfl, rfl⟩⟩
  | @pass before rest c ps none next ih =>
    obtain ⟨x, y, x', y', rfl, result, swaps, ahead, whole⟩ := ih (c :: b)
    refine ⟨c :: x, y, c :: x', y', rfl, ?_, .keep c swaps, ?_,
      fun inLine => whole fun p mem => inLine p (by simp [mem])⟩
    · rw [List.flatMap_cons, result]
      rfl
    · have first : (Piece.kept [c]).swappedLineEnds = 0 := rfl
      rw [Piece.lineEndsAhead, if_pos first, ← ahead]
      exact lineEndsAppend [c] x
  | @found before here f ps found next ih =>
    by_cases first : (catchBinding.piece before f).swappedLineEnds = 0
    · have own := catchPiece found first b
      obtain ⟨x, y, x', y', rest, result, swaps, ahead, whole⟩ := ih _
      refine ⟨_, y, _, y', ?_, ?_, own.append swaps, ?_,
        fun inLine => whole fun p mem => inLine p (by simp [mem])⟩
      · rw [Substitution.pieceSource, Substitution.findSplit found, rest, List.append_assoc]
      · rw [List.flatMap_cons, result, List.append_assoc]
      · rw [Piece.lineEndsAhead, if_pos first, ← ahead]
        exact lineEndsAppend _ x
    -- A clause that is folded ends what is compared.
    · refine ⟨[], here, [], _, rfl, rfl, .nil b, ?_, fun inLine => ?_⟩
      · rw [Piece.lineEndsAhead, if_neg first]
        rfl
      · exact absurd (inLine _ (by simp)) first

theorem catchLines {t : Text} {ps : List Piece} (scan : catchBinding.Scan [] t ps)
    (inLine : ∀ p ∈ ps, p.swappedLineEnds = 0) : LinesMended t (ps.flatMap Piece.result) := by
  obtain ⟨x, y, x', y', source, result, swaps, -, whole⟩ := catchAhead scan []
  obtain ⟨rfl, rfl⟩ := whole inLine
  rw [source, result, List.append_nil, List.append_nil]
  exact .one swaps

theorem catchLinesAhead {t : Text} {ps : List Piece} (scan : catchBinding.Scan [] t ps) :
    LinesMendedTo (Piece.lineEndsAhead ps) t (ps.flatMap Piece.result) := by
  obtain ⟨x, y, x', y', source, result, swaps, ahead, -⟩ := catchAhead scan []
  have lines := LinesMended.one swaps
  rw [source, result, ← ahead]
  unfold LinesMendedTo
  rw [Text.splitTake, lines.sameEnds, Text.splitTake]
  exact lines.upTo _

end Rule

namespace RuleTable

/-- The line ends in the catch clauses that a run of the table writes anew. -/
def foldedLineEnds (table : RuleTable) (reported : List String) (t : Text) : Nat :=
  if table.runs reported Rule.explicitAny then
    ((Rule.catchBinding.pieces (Rule.applyAll Rule.plainAny t)).map Piece.swappedLineEnds).sum
  else 0

/-- The line ends before the first of these clauses that has one inside, and all if none has. -/
def lineEndsAhead (table : RuleTable) (reported : List String) (t : Text) : Nat :=
  if table.runs reported Rule.explicitAny then
    Piece.lineEndsAhead (Rule.catchBinding.pieces (Rule.applyAll Rule.plainAny t))
  else lineEnds t

theorem runStages (disabled reported : List String) (t : Text) :
    ((builtin.without disabled).run reported t).text =
      Rule.applyAll (if (builtin.without disabled).runs reported Rule.emptyObjectType
        then Rule.emptyObjectType.substitutions else [])
      (Rule.applyAll (if (builtin.without disabled).runs reported Rule.explicitAny
        then Rule.explicitAny.substitutions else []) t) := by
  rw [runText (withoutRegular disabled), reportedBuiltin, Rule.applyAllAppend]

theorem emptyStageLines (on : Bool) (t : Text) :
    LinesMended t (Rule.applyAll (if on then Rule.emptyObjectType.substitutions else []) t) := by
  cases on with
  | false => exact .refl t
  | true => exact Rule.emptyObjectLines t

theorem runLineEnds (disabled reported : List String) (t : Text) :
    lineEnds ((builtin.without disabled).run reported t).text +
      (builtin.without disabled).foldedLineEnds reported t = lineEnds t := by
  rw [runStages, ← (emptyStageLines _ _).sameEnds, foldedLineEnds]
  split
  · rw [Rule.explicitAnyApply, (Rule.plainAnyLines t).sameEnds]
    exact Rule.catchLineEnds (Rule.catchScanned _)
  · rfl

theorem runLines (disabled reported : List String) (t : Text)
    (none : (builtin.without disabled).foldedLineEnds reported t = 0) :
    LinesMended t ((builtin.without disabled).run reported t).text := by
  rw [runStages]
  refine LinesMended.trans ?_ (emptyStageLines _ _)
  rw [foldedLineEnds] at none
  split at none
  · rename_i on
    have inLine : ∀ p ∈ Rule.catchBinding.pieces (Rule.applyAll Rule.plainAny t),
        p.swappedLineEnds = 0 := by
      intro p mem
      exact List.sum_eq_zero_iff_forall_eq_nat.mp none _ (List.mem_map_of_mem mem)
    rw [if_pos on, Rule.explicitAnyApply]
    exact (Rule.plainAnyLines t).trans (Rule.catchLines (Rule.catchScanned _) inLine)
  · rename_i off
    rw [if_neg off]
    exact .refl t

theorem runLinesAhead (disabled reported : List String) (t : Text) :
    LinesMendedTo ((builtin.without disabled).lineEndsAhead reported t) t
      ((builtin.without disabled).run reported t).text := by
  rw [runStages]
  refine LinesMendedTo.trans ?_ ((emptyStageLines _ _).upTo _)
  unfold lineEndsAhead
  split
  · rw [Rule.explicitAnyApply]
    exact ((Rule.plainAnyLines t).upTo _).trans (Rule.catchLinesAhead (Rule.catchScanned _))
  · exact (LinesMended.refl t).upTo _

end RuleTable

namespace Mender

theorem cleanStageLines (m : Mender) (t : Text) : LinesMended t (m.cleanStage t).text := by
  unfold cleanStage
  split
  · exact cleanLines t
  · exact .refl t

theorem dependencyStageText (m : Mender) (ds : List Diagnostic) (t : Text) :
    (m.dependencyStage ds t).text = joinWith '\n'
      (if (m.dependencyStage ds t).inserted = 0 then splitOn '\n' t
        else (splitOn '\n' t).mapIdx fun i =>
          Dependency.insertAll (Dependency.targeting (ds.filter Dependency.handles) i)) := by
  unfold dependencyStage
  split
  · exact Dependency.patchText t ds
  · rw [if_pos rfl, Text.joinSplit]

/-- The pattern stage loses the line ends inside of the catch clauses that it writes anew, and no
others. Above the first clause with a line end inside, and everywhere if there is no such clause,
each line comes from the line with its number. A finding is mended on the line with its number. -/
theorem lineNumbersHold (m : Mender) (disabled : List String)
    (table : m.table = RuleTable.builtin.without disabled) (t : Text) (ds : List Diagnostic) :
    let reported := ds.map Diagnostic.rule
    let cleaned := (m.cleanStage t).text
    let lines := splitOn '\n' (m.patternStage ds cleaned).text
    (∀ given, lineEnds (m.patternStage ds given).text + m.table.foldedLineEnds reported given =
      lineEnds given) ∧
    (m.table.foldedLineEnds reported cleaned = 0 →
      List.Forall₂ LineMended (splitOn '\n' t) lines) ∧
    List.Forall₂ LineMended ((splitOn '\n' t).take (m.table.lineEndsAhead reported cleaned))
      (lines.take (m.table.lineEndsAhead reported cleaned)) ∧
    (m.mend t ds).text = joinWith '\n'
      (if (m.mend t ds).edits.dependencies = 0 then lines
        else lines.mapIdx fun i =>
          Dependency.insertAll (Dependency.targeting (ds.filter Dependency.handles) i)) := by
  intro reported cleaned lines
  refine ⟨?_, ?_, ?_, m.dependencyStageText ds _⟩
  · intro given
    unfold patternStage
    rw [table]
    exact RuleTable.runLineEnds disabled _ given
  · intro none
    have kept := RuleTable.runLines disabled reported cleaned (table ▸ none)
    rw [← table] at kept
    exact (m.cleanStageLines t).trans kept
  · have kept := RuleTable.runLinesAhead disabled reported cleaned
    rw [← table] at kept
    exact ((m.cleanStageLines t).upTo _).trans kept

def dependencyFinding (line : Nat) (message : String) : Diagnostic where
  path := "view.tsx"
  rule := Dependency.rule
  severity := .warning
  line := line
  column := 1
  message := message
  suggestions := []

def typeFinding (rule : String) : Diagnostic where
  path := "view.tsx"
  rule := rule
  severity := .error
  line := 1
  column := 1
  message := ""
  suggestions := []

def standard : Mender := ⟨RuleTable.builtin, {}⟩

def clauseInLine : Text := "catch ( e:any) f();\nuse(a, []);".toList

def clauseBelow : Text := "let a: any; use(a, []);\ncatch (\n e: any\n) f();".toList

theorem lineNumbersHoldOneLine :
    let typed := typeFinding Rule.noExplicitAny
    let inLine := [typed, dependencyFinding 2 "missing dependency: 'a'."]
    let above := [typed, dependencyFinding 1 "missing dependency: 'a'."]
    standard.table = RuleTable.builtin.without [] ∧
    standard.table.foldedLineEnds (inLine.map Diagnostic.rule)
      (standard.cleanStage clauseInLine).text = 0 ∧
    List.Forall₂ LineMended (splitOn '\n' clauseInLine)
      ["catch (e: unknown) f();".toList, "use(a, []);".toList] ∧
    (standard.mend clauseInLine inLine).text = "catch (e: unknown) f();\nuse(a, [a]);".toList ∧
    LineMended "let a: any; use(a, []);".toList "let a: unknown; use(a, []);".toList ∧
    (standard.mend clauseBelow above).text =
      "let a: unknown; use(a, [a]);\ncatch (e: unknown) f();".toList := by
  intro typed inLine above
  have table : standard.table = RuleTable.builtin.without [] := rfl
  have none : standard.table.foldedLineEnds (inLine.map Diagnostic.rule)
      (standard.cleanStage clauseInLine).text = 0 := by decide +kernel
  obtain ⟨-, whole, -, patched⟩ := lineNumbersHold standard [] table clauseInLine inLine
  obtain ⟨-, -, ahead, patched'⟩ := lineNumbersHold standard [] table clauseBelow above
  have lines := whole none
  have text :
      splitOn '\n' (standard.patternStage inLine (standard.cleanStage clauseInLine).text).text =
      ["catch (e: unknown) f();".toList, "use(a, []);".toList] := by decide +kernel
  have text' :
      splitOn '\n' (standard.patternStage above (standard.cleanStage clauseBelow).text).text =
      ["let a: unknown; use(a, []);".toList, "catch (e: unknown) f();".toList] := by decide +kernel
  have count : (standard.mend clauseInLine inLine).edits.dependencies ≠ 0 := by decide +kernel
  have count' : (standard.mend clauseBelow above).edits.dependencies ≠ 0 := by decide +kernel
  have one : standard.table.lineEndsAhead (above.map Diagnostic.rule)
      (standard.cleanStage clauseBelow).text = 1 := by decide +kernel
  rw [text] at lines patched
  rw [if_neg count] at patched
  rw [text'] at patched' ahead
  rw [if_neg count'] at patched'
  rw [one] at ahead
  exact ⟨table, none, lines, patched.trans (by decide +kernel), (List.forall₂_cons.mp ahead).1,
    patched'.trans (by decide +kernel)⟩

/-- A clause over three lines becomes one line, and the finding on the fourth line of the text is
mended on what was its sixth. -/
theorem foldedClauseMisleads :
    lineEnds (standard.patternStage [typeFinding Rule.noExplicitAny]
      "catch (\n e: any\n) f();\nuse(a, []);\nuse(b, []);\nuse(c, []);".toList).text <
      lineEnds "catch (\n e: any\n) f();\nuse(a, []);\nuse(b, []);\nuse(c, []);".toList ∧
    (standard.mend "catch (\n e: any\n) f();\nuse(a, []);\nuse(b, []);\nuse(c, []);".toList
      [typeFinding Rule.noExplicitAny, dependencyFinding 4 "missing dependency: 'a'."]).text =
      "catch (e: unknown) f();\nuse(a, []);\nuse(b, []);\nuse(c, [a]);".toList := by
  constructor
  · decide +kernel
  · decide +kernel

end Mender

end LintRemedy
