import LintRemedy.Proofs.LineEnds
import LintRemedy.Proofs.ListSwaps

/-!
Mending a mended text. What the stages leave is free of invisible characters, closed to the
substitutions of the rules that ran, parameters that the last rule named apart, and complete in its
lists; and each of these is kept by the stages after it.
-/
namespace LintRemedy
open Text (isBlank isNameChar starts)

def Visible (t : Text) : Prop := ∀ c ∈ t, Text.isInvisible c = false

instance (t : Text) : Decidable (Visible t) :=
  inferInstanceAs (Decidable (∀ c ∈ t, Text.isInvisible c = false))

theorem cleanVisible (t : Text) : Visible (Text.clean t).text := by
  intro c mem
  simpa using (List.mem_filter.mp mem).2

theorem cleanNothing {t : Text} (visible : Visible t) : Text.clean t = ⟨t, 0⟩ := by
  have kept : t.filter (fun c => !Text.isInvisible c) = t :=
    List.filter_eq_self.mpr fun c mem => by simp [visible c mem]
  have none : t.countP Text.isInvisible = 0 :=
    List.countP_eq_zero.mpr fun c mem => by simp [visible c mem]
  simp [Text.clean, kept, none]

theorem Respelled.visible {A : Swaps} (writes : ∀ {b old new}, A b old new → Visible old → Visible new)
    {b t u : Text} (h : Respelled A b t u) (visible : Visible t) : Visible u := by
  induction h with
  | nil => exact visible
  | keep c next ih =>
    unfold Visible at visible ih ⊢
    simp only [List.forall_mem_cons] at visible ⊢
    exact ⟨visible.1, ih visible.2⟩
  | swap ok next ih =>
    unfold Visible at visible ih ⊢
    simp only [List.forall_mem_append] at visible ⊢
    exact ⟨writes ok visible.1, ih visible.2⟩

namespace Rule

theorem settledVisible {A : Swaps} (writes : ∀ {b old new}, A b old new → Visible old → Visible new)
    {substitutions : List Substitution} (settles : ∀ s ∈ substitutions, s.Settles A) {t : Text}
    (visible : Visible t) : Visible (applyAll substitutions t) := by
  induction substitutions generalizing t with
  | nil => exact visible
  | cons s rest ih =>
    exact ih (fun s mem => settles s (by simp [mem]))
      (((settles s (by simp)).respelled t).visible writes visible)

theorem tidyVisible {k : CatchClause} (visible : Visible k.text) : Visible k.tidy := by
  have named : Visible k.binding := by
    intro c mem
    exact visible c (by simp [CatchClause.text, CatchClause.inside, mem])
  have fixed : Visible (catchWord ++ [' ', '(']) ∧ Visible (':' :: ' ' :: (unknownType ++ [')'])) := by
    unfold Visible
    decide
  intro c mem
  have parts : k.tidy = (catchWord ++ [' ', '(']) ++ (k.binding ++
      (':' :: ' ' :: (unknownType ++ [')']))) := by simp [CatchClause.tidy]
  rw [parts] at mem
  simp only [List.mem_append] at mem
  rcases mem with opening | inName | ending
  · exact fixed.1 c (List.mem_append.mpr opening)
  · exact named c inName
  · exact fixed.2 c ending

theorem explicitAnyVisible {t : Text} (visible : Visible t) :
    Visible (applyAll explicitAny.substitutions t) := by
  have plain : Visible (applyAll plainAny t) := by
    refine settledVisible ?_ plainAnySettles visible
    rintro b _ _ ⟨rfl, rfl⟩ -
    unfold Visible
    decide
  rw [explicitAnyApply]
  refine (catchSettles.respelled _).visible ?_ plain
  rintro b _ _ ⟨k, rfl, rfl⟩
  exact tidyVisible

theorem emptyObjectVisible {t : Text} (visible : Visible t) :
    Visible (applyAll emptyObjectType.substitutions t) := by
  refine settledVisible ?_ emptyObjectTypeSettles visible
  rintro b _ _ ⟨rfl, rfl, -⟩ -
  unfold Visible
  decide

theorem parameterChanges {t : Text} (opened : parameterAnnotation.Open t) :
    parameterAnnotation.change? t ≠ none := by
  have alters : ∀ {before here f}, parameterAnnotation.find? before here = some f → f.old ≠ f.new := by
    intro before here f found
    obtain ⟨nm, rest, g, -, -, -, -, read, rfl⟩ := parameterRead.mp (Substitution.findRead found)
    obtain ⟨q, bl, r, opt, -, -, rfl⟩ := tailRead.mp read
    simp [anyType, unknownType]
  have blind : ∀ {before here f x y}, parameterAnnotation.find? before here = some f →
      f.old = x ++ y → x ≠ [] → y ≠ [] →
      ¬ parameterAnnotation.OpenAt (x.reverse ++ before) (y ++ f.rest) :=
    fun found old first some => parameterWrites.blindOld (by decide) found old first some _ _
  have changes := (Substitution.scanned parameterRegular [] t).changes alters blind parameterRegular
    opened
  simp only [Substitution.change?, Substitution.pieces, changes, ↓reduceIte]
  simp

end Rule

open Rule (explicitAny emptyObjectType parameterAnnotation runWritesParameter applyAll)

namespace RuleTable

def writesParameter (table : RuleTable) (reported : List String) (t : Text) : Bool :=
  table.runs reported explicitAny && table.runs reported emptyObjectType &&
    runWritesParameter emptyObjectType.substitutions (applyAll explicitAny.substitutions t)

theorem runVisible (disabled reported : List String) {t : Text} (visible : Visible t) :
    Visible ((builtin.without disabled).run reported t).text := by
  rw [runStages]
  have first : Visible (applyAll (if (builtin.without disabled).runs reported explicitAny
      then explicitAny.substitutions else []) t) := by
    split
    · exact Rule.explicitAnyVisible visible
    · exact visible
  split
  · exact Rule.emptyObjectVisible first
  · exact first

theorem openAfterRun (disabled reported : List String) (t : Text) {s : Substitution}
    (mem : s ∈ (builtin.without disabled).reportedSubstitutions reported) :
    s.Open ((builtin.without disabled).run reported t).text ↔
      s = parameterAnnotation ∧ (builtin.without disabled).writesParameter reported t = true := by
  rw [reportedBuiltin] at mem
  rw [runStages, writesParameter]
  cases on : (builtin.without disabled).runs reported explicitAny <;>
  cases on' : (builtin.without disabled).runs reported emptyObjectType <;>
  simp only [on, on', Bool.false_eq_true, ↓reduceIte, List.append_nil, List.nil_append,
    Rule.applyAllNil, Bool.false_and, Bool.true_and, and_false, iff_false] at mem ⊢
  · exact absurd mem (List.not_mem_nil)
  · exact Rule.emptyObjectTypeClosed t s mem
  · exact Rule.explicitAnyClosed t s mem
  · exact Rule.bothRulesOpen t mem

theorem reportedBoth {disabled reported : List String} {s : Substitution}
    (mem : s ∈ (builtin.without disabled).reportedSubstitutions reported) :
    s ∈ explicitAny.substitutions ++ emptyObjectType.substitutions := by
  rw [reportedBuiltin] at mem
  rcases List.mem_append.mp mem with first | second
  · split at first
    · exact List.mem_append_left _ first
    · simp at first
  · split at second
    · exact List.mem_append_right _ second
    · simp at second

end RuleTable

namespace Dependency

theorem insertWithin {x line y name edited : Text} (path : PathLike name)
    (inserted : insert? line name = some edited) :
    Respelled listSwaps [] (x ++ (line ++ y)) (x ++ (edited ++ y)) :=
  (Respelled.refl listSwaps [] x).append
    ((insertRespelled path inserted _).append (.refl listSwaps _ y))

variable {ds : List Diagnostic}
  (paths : ∀ d ∈ ds, handles d = true → ∀ n ∈ namesOf d, PathLike n)

include paths in
theorem patchClosed {s : Substitution} (regular : s.Regular) (ok : steady s = true) {t : Text}
    (closed : ¬ s.Open t) : ¬ s.Open (patch t ds).text := by
  refine patchKeeps (P := (¬ s.Open ·)) (Q := PathLike) ?_ paths closed
  intro x line y name edited path inserted closed
  exact Substitution.closedKept regular (steadyMirrored ok) (steadyBlind ok)
    (insertWithin path inserted) closed

include paths in
theorem patchParameter {t : Text} (opened : parameterAnnotation.Open t) :
    parameterAnnotation.Open (patch t ds).text := by
  rw [Rule.parameterOpenIff] at opened ⊢
  refine patchKeeps (P := Rule.ParameterFrom []) (Q := PathLike) ?_ paths opened
  intro x line y name edited path inserted opened
  exact parameterOnLists .nil (insertWithin path inserted) opened

theorem patchVisible (good : ∀ d ∈ ds, handles d = true → ∀ n ∈ namesOf d, Visible n) {t : Text}
    (visible : Visible t) : Visible (patch t ds).text := by
  refine patchKeeps (P := Visible) (Q := Visible) ?_ good visible
  intro x line y name edited seen inserted visible
  obtain ⟨b, list, -, rfl⟩ := insertIff.mp inserted
  obtain ⟨rfl, -, -⟩ := Bracketed.lastIff.mp list
  unfold Visible at visible ⊢
  simp only [Bracketed.line, List.forall_mem_append, List.forall_mem_cons] at visible ⊢
  obtain ⟨before, ⟨⟨first, opening, inner⟩, closing, after⟩, behind⟩ := visible
  refine ⟨before, ⟨⟨first, opening, ?_⟩, closing, after⟩, behind⟩
  intro c mem
  rcases appendChars mem with old | named | rfl | rfl
  · exact inner c old
  · exact seen c named
  · rfl
  · rfl

end Dependency

namespace Mender

section
variable {m : Mender} {disabled : List String} {ds : List Diagnostic}
  (table : m.table = RuleTable.builtin.without disabled)
  (paths : ∀ d ∈ ds, Dependency.handles d = true → ∀ n ∈ Dependency.namesOf d,
    Dependency.PathLike n ∧ Visible n)

include table paths

theorem openAfterMend (t : Text) {s : Substitution}
    (mem : s ∈ m.table.reportedSubstitutions (ds.map Diagnostic.rule)) :
    s.Open (m.mend t ds).text ↔ s = parameterAnnotation ∧
      m.table.writesParameter (ds.map Diagnostic.rule) (m.cleanStage t).text = true := by
  rw [table] at mem ⊢
  have before := RuleTable.openAfterRun disabled _ (m.cleanStage t).text mem
  have both := RuleTable.reportedBoth mem
  have names : ∀ d ∈ ds, Dependency.handles d = true → ∀ n ∈ Dependency.namesOf d,
      Dependency.PathLike n := fun d inList handled n named => (paths d inList handled n named).1
  have regular := RuleTable.regularReported (RuleTable.withoutRegular disabled) _ s mem
  have text : (m.mend t ds).text = (m.dependencyStage ds
      ((RuleTable.builtin.without disabled).run (ds.map Diagnostic.rule)
        (m.cleanStage t).text).text).text := by
    rw [← table]
    rfl
  rw [text, ← before, dependencyStage]
  split
  · constructor
    · intro opened
      by_contra closed
      exact Dependency.patchClosed names regular (Dependency.builtinSteady s both) closed opened
    · intro opened
      obtain ⟨rfl, -⟩ := before.mp opened
      exact Dependency.patchParameter names opened
  · exact Iff.rfl

theorem cleanStageAgain (t : Text) : m.cleanStage (m.mend t ds).text = ⟨(m.mend t ds).text, 0⟩ := by
  unfold cleanStage
  split
  · rename_i cleans
    apply cleanNothing
    have cleaned : Visible (m.cleanStage t).text := by
      rw [cleanStage, if_pos cleans]
      exact cleanVisible t
    have patterns : Visible (m.patternStage ds (m.cleanStage t).text).text := by
      rw [patternStage, table]
      exact RuleTable.runVisible disabled _ cleaned
    change Visible (m.dependencyStage ds (m.patternStage ds (m.cleanStage t).text).text).text
    rw [dependencyStage]
    split
    · exact Dependency.patchVisible
        (fun d inList handled n named => (paths d inList handled n named).2) patterns
    · exact patterns
  · rfl

omit table in
theorem dependencyStageAgain (t : Text) :
    (m.dependencyStage ds (m.dependencyStage ds t).text).text = (m.dependencyStage ds t).text ∧
      (m.dependencyStage ds (m.dependencyStage ds t).text).inserted = 0 := by
  unfold dependencyStage
  split
  · exact (Dependency.patchAgain
      (fun d inList handled n named => (paths d inList handled n named).1) t).symm
  · exact ⟨rfl, rfl⟩

end

/-- Mending twice is mending once, and the second time counts no edit, exactly if the second rule
writes no name before the annotation of a parameter that the first rule has already passed. -/
theorem mendTwiceIff (m : Mender) (disabled : List String)
    (table : m.table = RuleTable.builtin.without disabled) (ds : List Diagnostic)
    (paths : ∀ d ∈ ds, Dependency.handles d = true → ∀ n ∈ Dependency.namesOf d,
      Dependency.PathLike n ∧ Visible n) (t : Text) :
    ((m.mend (m.mend t ds).text ds).text = (m.mend t ds).text ∧
      (m.mend (m.mend t ds).text ds).edits = ⟨0, 0, 0⟩) ↔
    m.table.writesParameter (ds.map Diagnostic.rule) (m.cleanStage t).text = false := by
  have opens {s : Substitution} := openAfterMend table paths t (s := s)
  have cleaned := cleanStageAgain table paths t
  have regular : m.table.regular := table ▸ RuleTable.withoutRegular disabled
  constructor
  · -- The name that was written is open in the result, so a run that counts nothing cannot meet it.
    rintro ⟨-, edits⟩
    by_contra writes
    have runs : m.table.runs (ds.map Diagnostic.rule) explicitAny = true := by
      simp only [RuleTable.writesParameter, Bool.not_eq_false, Bool.and_eq_true] at writes
      exact writes.1.1
    have mem : parameterAnnotation ∈ m.table.reportedSubstitutions (ds.map Diagnostic.rule) := by
      rw [table] at runs ⊢
      rw [RuleTable.reportedBuiltin, if_pos runs]
      exact List.mem_append_left _ (by simp [explicitAny])
    have zero : (m.table.run (ds.map Diagnostic.rule) (m.mend t ds).text).applied = 0 := by
      have patterns := congrArg Edits.patterns edits
      rw [mend, cleaned] at patterns
      exact patterns
    exact Rule.parameterChanges ((opens mem).mpr ⟨rfl, by simpa using writes⟩)
      (RuleTable.nothingOfRun regular zero _ mem)
  · -- No substitution is open in the result, and no list lacks a name.
    intro writes
    have none : ∀ s ∈ m.table.reportedSubstitutions (ds.map Diagnostic.rule),
        s.change? (m.mend t ds).text = none := by
      intro s mem
      have closed : ¬ s.Open (m.mend t ds).text := by
        rw [opens mem, writes]
        simp
      exact (Substitution.settledOfClosed (RuleTable.regularReported regular _ s mem) closed).none
    have patterns := RuleTable.runNothing none
    obtain ⟨text, inserted⟩ := dependencyStageAgain paths (m := m)
      (m.patternStage ds (m.cleanStage t).text).text
    rw [mend, cleaned]
    simp only [patternStage, patterns]
    exact ⟨text, by rw [show (m.dependencyStage ds (m.mend t ds).text).inserted = 0 from inserted]⟩

def threeFindings : List Diagnostic :=
  [typeFinding Rule.noExplicitAny, typeFinding Rule.noEmptyObjectType,
    dependencyFinding 2 "missing dependency: 'b'."]

theorem mendTwiceThree :
    standard.table = RuleTable.builtin.without [] ∧
    (∀ d ∈ threeFindings, Dependency.handles d = true → ∀ n ∈ Dependency.namesOf d,
      Dependency.PathLike n ∧ Visible n) ∧
    (standard.mend "f(a | \x7b\x7d, x: any)\nuse(b, []);".toList threeFindings).text =
      "f(a | object, x: unknown)\nuse(b, [b]);".toList ∧
    (standard.mend "f(a | object, x: unknown)\nuse(b, [b]);".toList threeFindings).text =
      "f(a | object, x: unknown)\nuse(b, [b]);".toList ∧
    (standard.mend "f(a | object, x: unknown)\nuse(b, [b]);".toList threeFindings).edits =
      ⟨0, 0, 0⟩ := by
  have table : standard.table = RuleTable.builtin.without [] := rfl
  have paths : ∀ d ∈ threeFindings, Dependency.handles d = true → ∀ n ∈ Dependency.namesOf d,
      Dependency.PathLike n ∧ Visible n := by decide +kernel
  have text : (standard.mend "f(a | \x7b\x7d, x: any)\nuse(b, []);".toList threeFindings).text =
      "f(a | object, x: unknown)\nuse(b, [b]);".toList := by decide +kernel
  have again := (mendTwiceIff standard [] table threeFindings paths
    "f(a | \x7b\x7d, x: any)\nuse(b, []);".toList).mpr (by decide +kernel)
  rw [text] at again
  exact ⟨table, paths, text, again⟩

/-- The name that the second rule writes is a parameter, which the first rule mends only when the
text is mended again. -/
theorem lateParameter :
    (standard.mend "f(a | \x7b\x7d: any)".toList threeFindings).text =
      "f(a | object: any)".toList ∧
    (standard.mend "f(a | object: any)".toList threeFindings).text =
      "f(a | object: unknown)".toList ∧
    (standard.mend "f(a | object: any)".toList threeFindings).edits.patterns = 1 := by
  refine ⟨?_, ?_, ?_⟩
  · decide +kernel
  · decide +kernel
  · decide +kernel

end Mender
end LintRemedy
