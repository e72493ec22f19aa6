import LintRemedy.Batch
import LintRemedy.Proofs.Accounts
import LintRemedy.Proofs.Idempotence
import LintRemedy.Tree

/-!
Counted edits and changed texts. What the stages after the cleaning write has more characters that
are no blanks than what it replaces, one at least for each edit that is counted. So no stage takes
back what another one did, and a text comes out as it went in only if nothing was counted.
-/
namespace LintRemedy
open Text (isBlank joinWith splitOn trim trimEnd trailingBlanks)
open scoped LintRemedy.Counts

def ink (t : Text) : Nat := t.countP fun c => !isBlank c

@[simp] theorem inkNil : ink [] = 0 := rfl

@[simp] theorem inkAppend (x y : Text) : ink (x ++ y) = ink x + ink y := List.countP_append

theorem inkCons (c : Char) (t : Text) : ink (c :: t) = ink [c] + ink t := inkAppend [c] t

theorem inkBlank {x : Text} (blank : ∀ c ∈ x, isBlank c = true) : ink x = 0 := by
  apply List.countP_eq_zero.mpr
  intro c mem
  simp [blank c mem]

namespace Step

def gain (s : Step) : Nat := if s = Rule.anySwap ∨ s = Rule.emptySwap then 4 else 0

def tidy (s : Step) : Bool :=
  s.put.isNone || s == Rule.anySwap || s == Rule.emptySwap ||
    (s.item == .blanks && s.put.all fun new => new.all isBlank)

theorem writeInk {s : Step} (tidy : s.tidy = true) {x rest : Text} (takes : s.item.Takes x rest) :
    ink (s.write x) = ink x + s.gain := by
  by_cases type : s = Rule.anySwap ∨ s = Rule.emptySwap
  · rw [gain, if_pos type]
    rcases type with rfl | rfl
    · cases takes
      rfl
    · cases takes
      rfl
  · rw [gain, if_neg type, Nat.add_zero]
    simp only [not_or] at type
    simp only [Step.tidy, type, beq_iff_eq, Bool.or_eq_true, or_false, Bool.and_eq_true] at tidy
    rcases tidy with kept | ⟨item, blank⟩
    · rw [write, Option.isNone_iff_eq_none.mp kept]
      rfl
    · rw [item] at takes
      cases put : s.put with
      | none =>
        rw [write, put]
        rfl
      | some new =>
        have gap : ∀ c ∈ new, isBlank c = true := by simpa [put] using blank
        rw [write, put, Option.getD_some, inkBlank gap, inkBlank takes.1]

end Step

theorem Found.readInk {steps : List Step} (tidy : ∀ s ∈ steps, s.tidy = true) {t : Text} {f : Found}
    (read : Found.read? steps t = some f) : ink f.new = ink f.old + (steps.map Step.gain).sum := by
  induction steps generalizing t f with
  | nil =>
    cases Found.readNil.mp read
    rfl
  | cons s steps ih =>
    obtain ⟨x, rest, g, -, takes, read', rfl⟩ := Found.readCons.mp read
    have first := Step.writeInk (tidy s (by simp)) takes
    have later := ih (fun s mem => tidy s (by simp [mem])) read'
    simp only [inkAppend, List.map_cons, List.sum_cons]
    omega

namespace Substitution

def gains (s : Substitution) : Bool :=
  s.steps.all Step.tidy && decide (0 < (s.steps.map Step.gain).sum)

theorem foundInk {s : Substitution} (gains : s.gains = true) {before here : Text} {f : Found}
    (found : s.find? before here = some f) : ink f.old < ink f.new := by
  simp only [Substitution.gains, Bool.and_eq_true, List.all_eq_true, decide_eq_true_eq] at gains
  have written := Found.readInk gains.1 (findRead found)
  omega

theorem Scan.ink {s : Substitution} (gains : s.gains = true) {before here : Text} {ps : List Piece}
    (scan : Scan s before here ps) :
    LintRemedy.ink here + (if ps.any Piece.changes then 1 else 0) ≤
      LintRemedy.ink (ps.flatMap Piece.result) := by
  induction scan with
  | nil => simp
  | @pass before rest c ps none next ih =>
    rw [inkCons]
    simp only [List.any_cons, Piece.changes, Bool.false_or, List.flatMap_cons, Piece.result,
      inkAppend]
    omega
  | @found before here f ps found next ih =>
    have more := foundInk gains found
    rw [findSplit found, List.flatMap_cons, inkAppend, inkAppend]
    rcases pieceCases s before f with ⟨-, piece⟩ | ⟨-, piece⟩
    · rw [piece]
      simp only [Piece.result]
      split <;> omega
    · rw [piece]
      simp only [List.any_cons, Piece.changes, Bool.false_or, Piece.result]
      omega

theorem applyInk {s : Substitution} (regular : s.Regular) (gains : s.gains = true) (t : Text) :
    ink t + (if (s.change? t).isSome then 1 else 0) ≤ ink (s.apply t) := by
  have scan := (scanned regular [] t).ink gains
  have counted : (s.change? t).isSome = (s.pieces t).any Piece.changes := by
    simp only [change?]
    cases (s.pieces t).any Piece.changes <;> rfl
  rw [counted]
  exact scan

end Substitution

theorem Rule.runInk {substitutions : List Substitution}
    (regular : ∀ s ∈ substitutions, s.Regular) (gains : ∀ s ∈ substitutions, s.gains = true)
    (t : Text) : ink t + (run substitutions t).2 ≤ ink (run substitutions t).1 := by
  induction substitutions generalizing t with
  | nil => exact Nat.le_refl _
  | cons s rest ih =>
    have first := Substitution.applyInk (regular s (by simp)) (gains s (by simp)) t
    have later := ih (fun s mem => regular s (by simp [mem])) (fun s mem => gains s (by simp [mem]))
      (s.apply t)
    rw [runCons (regular s (by simp))]
    simp only
    omega

/-- A run leaves the text as it was exactly if none of its substitutions changes it: what one has
written, no other takes back. -/
theorem Rule.runSameIff {substitutions : List Substitution}
    (regular : ∀ s ∈ substitutions, s.Regular) (gains : ∀ s ∈ substitutions, s.gains = true)
    {t : Text} :
    (run substitutions t).1 = t ↔ ∀ s ∈ substitutions, s.change? t = none := by
  constructor
  · intro same
    have grown := runInk regular gains t
    rw [same] at grown
    exact noneOfRun regular (by omega)
  · intro none
    rw [runSettled none]

namespace RuleTable

theorem untouchedIff {table : RuleTable} (regular : table.regular)
    (gains : ∀ r ∈ table, ∀ s ∈ r.substitutions, s.gains = true) {reported : List String} {t : Text}
    {id : String} :
    table.untouched reported t id = true ↔ ∃ r ∈ table, r.id = id ∧
      (Rule.run r.substitutions (table.met reported t id)).1 = table.met reported t id := by
  simp only [untouched, List.any_eq_true, Bool.and_eq_true, beq_iff_eq, List.all_eq_true,
    Option.isNone_iff_eq_none]
  refine exists_congr fun r => and_congr_right fun mem => and_congr_right fun _ => ?_
  exact (Rule.runSameIff (regular r mem) (gains r mem)).symm

theorem builtinGains : ∀ r ∈ builtin, ∀ s ∈ r.substitutions, s.gains = true := by decide

theorem runInk {table : RuleTable} (regular : table.regular)
    (gains : ∀ r ∈ table, ∀ s ∈ r.substitutions, s.gains = true) (reported : List String)
    (t : Text) :
    ink t + (table.run reported t).applied ≤ ink (table.run reported t).text := by
  rw [runFold]
  have good : ∀ r ∈ table.filter (fun r => reported.contains r.id), r ∈ table :=
    fun r mem => (List.mem_filter.mp mem).1
  generalize table.filter (fun r => reported.contains r.id) = rules at good ⊢
  suffices all : ∀ o, ink o.text + (rules.foldl afterRule o).applied ≤
      ink (rules.foldl afterRule o).text + o.applied from all ⟨t, 0, []⟩
  induction rules with
  | nil => exact fun o => Nat.le_refl _
  | cons r rules ih =>
    intro o
    have mem := good r (by simp)
    have first := Rule.runInk (regular r mem) (gains r mem) o.text
    have later := ih (fun r mem => good r (by simp [mem])) (afterRule o r)
    simp only [List.foldl_cons]
    simp only [afterRule] at later ⊢
    omega

end RuleTable

namespace Dependency

theorem trimEndInk (t : Text) : ink (trimEnd t) = ink t := by
  have whole := congrArg ink (Text.trimEndKeeps t)
  rwa [inkAppend, inkBlank (Text.trailingBlank t), Nat.add_zero] at whole

theorem dropCommaInk (t : Text) : ink t ≤ ink (dropComma t) + 1 := by
  unfold dropComma
  split
  · rename_i last
    have whole := congrArg ink (List.dropLast_append_getLast? ',' last)
    rw [inkAppend] at whole
    exact Nat.le_of_eq whole.symm
  · exact Nat.le_add_right _ _

theorem PathLike.ink {name : Text} (path : PathLike name) : 0 < LintRemedy.ink name := by
  obtain ⟨c, mem⟩ := List.exists_mem_of_ne_nil name path.some
  exact List.countP_pos_iff.mpr ⟨c, mem, by simp [pathNotBlank (path.chars c mem)]⟩

/- A comma at the end may go, but one comes with the name. -/
theorem appendInk {name : Text} (path : PathLike name) (inner : Text) :
    ink inner < ink (append inner name) := by
  have named := path.ink
  unfold append
  split
  · rename_i empty
    rw [inkBlank (Text.trimEmpty empty)]
    exact named
  · have comma := dropCommaInk (trimEnd inner)
    have mark : ink [',', ' '] = 1 := by decide
    simp only [inkAppend, trimEndInk] at comma ⊢
    omega

theorem lineInk (b : Bracketed) : ink b.line = ink b.before + ink b.inner + ink b.after + 2 := by
  have line : b.line = b.before ++ (['['] ++ (b.inner ++ ([']'] ++ b.after))) := by
    simp [Bracketed.line]
  have brackets : ink ['['] = 1 ∧ ink [']'] = 1 := by decide
  rw [line]
  simp only [inkAppend]
  omega

theorem insertInk {line name edited : Text} (path : PathLike name)
    (inserted : insert? line name = some edited) : ink line < ink edited := by
  obtain ⟨b, list, -, rfl⟩ := insertIff.mp inserted
  have more := appendInk path b.inner
  rw [(Bracketed.lastIff.mp list).1, lineInk, lineInk]
  simp only
  omega

theorem insertNamesInk {names : List Text} (paths : ∀ n ∈ names, PathLike n) (line : Text) :
    ink line + (insertNames names line).2.getD 0 ≤ ink (insertNames names line).1 := by
  induction names generalizing line with
  | nil => exact Nat.le_refl _
  | cons n names ih =>
    have rest : ∀ m ∈ names, PathLike m := fun m mem => paths m (by simp [mem])
    rw [insertNames]
    split
    · rename_i edited inserted
      have first := insertInk (paths n (by simp)) inserted
      have later := ih rest edited
      cases count : (insertNames names edited).2 with
      | none =>
        simp only [count, Option.getD_none, Option.map_none] at later ⊢
        omega
      | some k =>
        simp only [count, Option.getD_some, Option.map_some] at later ⊢
        omega
    · split
      · exact ih rest line
      · exact Nat.le_refl _

theorem patchLinesInk {ds : List Diagnostic} (paths : ∀ d ∈ ds, ∀ n ∈ namesOf d, PathLike n)
    (lines : List Text) :
    ink (joinWith '\n' lines) + ((patchLines ds lines).2.map fun (_, s) => s.count).sum ≤
      ink (joinWith '\n' (patchLines ds lines).1) := by
  induction ds generalizing lines with
  | nil => exact Nat.le_refl _
  | cons d ds ih =>
    have later := ih (fun d mem => paths d (by simp [mem])) (patchOne lines d).1
    have first : ink (joinWith '\n' lines) + (patchOne lines d).2.count ≤
        ink (joinWith '\n' (patchOne lines d).1) := by
      rcases patchOneCases lines d with ⟨k, line, -, here, edited, count⟩ | ⟨-, same, count⟩
      · obtain ⟨inside, rfl⟩ := List.getElem?_eq_some_iff.mp here
        obtain ⟨x, y, around⟩ := joinAround '\n' inside
        have before := around lines[k]
        rw [List.set_getElem_self] at before
        have more := insertNamesInk (paths d (by simp)) lines[k]
        rw [edited, count, around, before]
        simp only [inkAppend]
        omega
      · rw [same, count]
        exact Nat.le_refl _
    have total : ((patchLines (d :: ds) lines).2.map fun (_, s) => s.count).sum =
        (patchOne lines d).2.count +
          ((patchLines ds (patchOne lines d).1).2.map fun (_, s) => s.count).sum := rfl
    have text : (patchLines (d :: ds) lines).1 = (patchLines ds (patchOne lines d).1).1 := rfl
    rw [total, text]
    omega

theorem patchInk {ds : List Diagnostic}
    (paths : ∀ d ∈ ds, handles d = true → ∀ n ∈ namesOf d, PathLike n) (t : Text) :
    ink t + (patch t ds).inserted ≤ ink (patch t ds).text := by
  have lines := patchLinesInk (filterHandles paths) (splitOn '\n' t)
  rw [Text.joinSplit] at lines
  rw [patchEither]
  split
  · rename_i none
    rw [none]
    exact Nat.le_refl _
  · exact lines

end Dependency

theorem Edits.noneIff {e : Edits} : e.total = 0 ↔ e = ⟨0, 0, 0⟩ := by
  cases e
  simp only [Edits.total, Edits.mk.injEq]
  omega

namespace Mender

section
variable {m : Mender} {disabled : List String} {ds : List Diagnostic}
  (table : m.table = RuleTable.builtin.without disabled)
  (paths : ∀ d ∈ ds, Dependency.handles d = true → ∀ n ∈ Dependency.namesOf d,
    Dependency.PathLike n ∧ Visible n)

include table paths

theorem mendInk (t : Text) :
    ink (m.cleanStage t).text + (m.mend t ds).edits.patterns + (m.mend t ds).edits.dependencies ≤
      ink (m.mend t ds).text := by
  have patterns : ink (m.cleanStage t).text +
      (m.patternStage ds (m.cleanStage t).text).applied ≤
        ink (m.patternStage ds (m.cleanStage t).text).text := by
    unfold patternStage
    rw [table]
    exact RuleTable.runInk (RuleTable.withoutRegular disabled)
      (fun r mem => RuleTable.builtinGains r (List.mem_filter.mp mem).1) _ _
  have lists (u : Text) : ink u + (m.dependencyStage ds u).inserted ≤
      ink (m.dependencyStage ds u).text := by
    unfold dependencyStage
    split
    · exact Dependency.patchInk
        (fun d inList handled n named => (paths d inList handled n named).1) u
    · exact Nat.le_refl _
  have patched := lists (m.patternStage ds (m.cleanStage t).text).text
  change ink (m.cleanStage t).text + (m.patternStage ds (m.cleanStage t).text).applied +
    (m.dependencyStage ds (m.patternStage ds (m.cleanStage t).text).text).inserted ≤
      ink (m.dependencyStage ds (m.patternStage ds (m.cleanStage t).text).text).text
  omega

omit paths in
theorem sameOfNoEdit {t : Text} (none : (m.mend t ds).edits = ⟨0, 0, 0⟩) :
    (m.mend t ds).text = t := by
  have removed : (m.cleanStage t).removed = 0 := congrArg Edits.cleaned none
  have cleaned : (m.cleanStage t).text = t := by
    unfold cleanStage at removed ⊢
    split
    · rename_i cleans
      rw [if_pos cleans] at removed
      have visible : Visible t := by
        intro c mem
        simpa using List.countP_eq_zero.mp removed c mem
      rw [cleanNothing visible]
    · rfl
  have applied : (m.table.run (ds.map Diagnostic.rule) t).applied = 0 := by
    have zero := congrArg Edits.patterns none
    change (m.patternStage ds (m.cleanStage t).text).applied = 0 at zero
    rwa [cleaned] at zero
  have regular : m.table.regular := table ▸ RuleTable.withoutRegular disabled
  have patterns : (m.patternStage ds (m.cleanStage t).text).text = t := by
    rw [cleaned, patternStage, RuleTable.runNothing (RuleTable.nothingOfRun regular applied)]
  have inserted : (m.dependencyStage ds t).inserted = 0 := by
    have zero := congrArg Edits.dependencies none
    change (m.dependencyStage ds (m.patternStage ds (m.cleanStage t).text).text).inserted = 0
      at zero
    rwa [patterns] at zero
  change (m.dependencyStage ds (m.patternStage ds (m.cleanStage t).text).text).text = t
  rw [patterns, dependencyStageText, if_pos inserted, Text.joinSplit]

theorem textTells (t : Text) :
    (m.mend t ds).text = t ↔ (m.mend t ds).edits.total = 0 := by
  constructor
  · intro same
    -- A text that comes out as it went in had nothing to clean, since the outcome is clean.
    have cleaned := cleanStageAgain table paths t
    rw [same] at cleaned
    have removed : (m.mend t ds).edits.cleaned = 0 := congrArg Text.Cleaned.removed cleaned
    have written := mendInk table paths t
    rw [cleaned, same] at written
    simp only at written
    unfold Edits.total
    omega
  · intro none
    exact sameOfNoEdit table (Edits.noneIff.mp none)

end

theorem mendFileRun (m : Mender) {g : Group} (included : m.options.excludes g.path = false)
    (tree : Tree) :
    (m.mendFile Tree.fileSystem g).run tree =
      (let r := m.resultOf g (tree.read g.path)
       let (stored, after) := tree.replace g.path r.after
       if r.status = .written then (r.stored stored, after) else (r, tree)) := by
  by_cases written : (m.resultOf g (tree.read g.path)).status = .written
  · simp [mendFile, included, Tree.fileSystem, written]
    rfl
  · simp [mendFile, included, Tree.fileSystem, written]
    rfl

theorem storedChanged {r : FileResult} (written : r.status = .written)
    (stored : Except IoFailure Unit) :
    (r.stored stored).status ≠ .unchanged ∧ (r.stored stored).edits = r.edits := by
  cases stored with
  | ok done => exact ⟨by simp [FileResult.stored, written], rfl⟩
  | error cause => exact ⟨by simp [FileResult.stored], rfl⟩

/-- A text comes out of mending as it went in exactly if no edit is counted; and a file that can be
read and is not excluded is reported as unchanged exactly if no edit is counted for it. -/
theorem unchangedIffNoEdit (m : Mender) (disabled : List String)
    (table : m.table = RuleTable.builtin.without disabled) (ds : List Diagnostic)
    (paths : ∀ d ∈ ds, Dependency.handles d = true → ∀ n ∈ Dependency.namesOf d,
      Dependency.PathLike n ∧ Visible n) :
    (∀ t, (m.mend t ds).text = t ↔ (m.mend t ds).edits.total = 0) ∧
    ∀ (tree : Tree) (path : String) (t : Text), m.options.excludes path = false →
      tree.read path = .ok t →
      (((m.mendFile Tree.fileSystem ⟨path, ds⟩).run tree).1.status = .unchanged ↔
        ((m.mendFile Tree.fileSystem ⟨path, ds⟩).run tree).1.edits.total = 0) := by
  refine ⟨textTells table paths, ?_⟩
  intro tree path t included readable
  rw [mendFileRun m (g := ⟨path, ds⟩) included tree, readable]
  have tells := textTells table paths t
  by_cases same : (m.mend t ds).text = t
  · simp [resultOf, same, tells.mp same]
  · have edited : (m.mend t ds).edits.total ≠ 0 := fun none => same (tells.mpr none)
    by_cases written : (m.resultOf ⟨path, ds⟩ (.ok t)).status = .written
    · simp only [written, ↓reduceIte]
      obtain ⟨changed, edits⟩ := storedChanged written
        (tree.replace path (m.resultOf ⟨path, ds⟩ (.ok t)).after).1
      rw [edits]
      exact iff_of_false changed edited
    · simp only [written, ↓reduceIte]
      refine iff_of_false ?_ edited
      simp only [resultOf, same, ↓reduceIte]
      split <;> simp

def mendedTree : Tree :=
  ⟨[], [(["a.ts".toList], .file (.text "f(a | object, x: unknown)\nuse(b, [b]);".toList))], []⟩

theorem unchangedIffNoEditTwo :
    standard.table = RuleTable.builtin.without [] ∧
    (∀ d ∈ threeFindings, Dependency.handles d = true → ∀ n ∈ Dependency.namesOf d,
      Dependency.PathLike n ∧ Visible n) ∧
    standard.options.excludes "a.ts" = false ∧
    mendedTree.read "a.ts" = .ok "f(a | object, x: unknown)\nuse(b, [b]);".toList ∧
    (standard.mend "f(a | \x7b\x7d, x: any)\nuse(b, []);".toList threeFindings).edits = ⟨0, 2, 1⟩ ∧
    (standard.mend "f(a | \x7b\x7d, x: any)\nuse(b, []);".toList threeFindings).text ≠
      "f(a | \x7b\x7d, x: any)\nuse(b, []);".toList ∧
    ((standard.mendFile Tree.fileSystem ⟨"a.ts", threeFindings⟩).run mendedTree).1.status =
      .unchanged := by
  have table : standard.table = RuleTable.builtin.without [] := rfl
  have paths : ∀ d ∈ threeFindings, Dependency.handles d = true → ∀ n ∈ Dependency.namesOf d,
      Dependency.PathLike n ∧ Visible n := by decide +kernel
  have included : standard.options.excludes "a.ts" = false := rfl
  have readable : mendedTree.read "a.ts" =
      .ok "f(a | object, x: unknown)\nuse(b, [b]);".toList := by decide +kernel
  have edits : (standard.mend "f(a | \x7b\x7d, x: any)\nuse(b, []);".toList threeFindings).edits =
      ⟨0, 2, 1⟩ := by decide +kernel
  obtain ⟨texts, files⟩ := unchangedIffNoEdit standard [] table threeFindings paths
  refine ⟨table, paths, included, readable, edits, ?_, ?_⟩
  · rw [ne_eq, texts, edits]
    decide
  · rw [files mendedTree "a.ts" _ included readable]
    decide +kernel

end Mender
end LintRemedy
