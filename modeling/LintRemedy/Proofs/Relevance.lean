import LintRemedy.Proofs.Disabled
import LintRemedy.Proofs.EditCounts

/-!
What of the findings matters to a text. The pattern stage asks of each rule in the table whether it
is reported at all; the dependency stage takes its own findings in order, and of each of them the
line and the message. Two lists that agree on this much mend every text alike, and a list that gives
the stages nothing leaves a clean text as it is.
-/
namespace LintRemedy
open scoped LintRemedy.Counts

namespace RuleTable

theorem runReported (table : RuleTable) {reported other : List String}
    (same : ∀ id ∈ table.ids, id ∈ reported ↔ id ∈ other) (t : Text) :
    table.run reported t = table.run other t := by
  have rules : table.filter (fun r => reported.contains r.id) =
      table.filter fun r => other.contains r.id := by
    apply List.filter_congr
    intro r mem
    rw [Bool.eq_iff_iff, List.contains_iff_mem, List.contains_iff_mem]
    exact same r.id (List.mem_map_of_mem mem)
  rw [runFold, runFold, rules]

theorem runUnreported (table : RuleTable) {reported : List String}
    (none : ∀ id ∈ table.ids, id ∉ reported) (t : Text) : table.run reported t = ⟨t, 0, []⟩ := by
  have rules : table.filter (fun r => reported.contains r.id) = [] := by
    rw [List.filter_eq_nil_iff]
    intro r mem
    rw [List.contains_iff_mem]
    exact none r.id (List.mem_map_of_mem mem)
  rw [runFold, rules]
  rfl

end RuleTable

namespace Dependency

def request (d : Diagnostic) : Nat × String := (d.line, d.message)

def requests (ds : List Diagnostic) : List (Nat × String) := (ds.filter handles).map request

theorem patchOneRequest {d e : Diagnostic} (same : request d = request e) (lines : List Text) :
    patchOne lines d = patchOne lines e := by
  obtain ⟨line, message⟩ := Prod.mk.inj same
  unfold patchOne
  rw [line, message]

theorem patchLinesRequests {ds es : List Diagnostic} (same : ds.map request = es.map request)
    (lines : List Text) :
    (patchLines ds lines).1 = (patchLines es lines).1 ∧
    (patchLines ds lines).2.map Prod.snd = (patchLines es lines).2.map Prod.snd := by
  induction ds generalizing es lines with
  | nil =>
    have none : es = [] := List.map_eq_nil_iff.mp same.symm
    subst none
    exact ⟨rfl, rfl⟩
  | cons d ds ih =>
    cases es with
    | nil => contradiction
    | cons e es =>
      obtain ⟨first, rest⟩ := List.cons.inj same
      -- The statuses carry their findings, which may differ; only what became of them agrees.
      have one := patchOneRequest first lines
      obtain ⟨text, statuses⟩ := ih rest (patchOne lines d).1
      simp only [patchLines, List.map_cons, ← one]
      exact ⟨text, congrArg ((patchOne lines d).2 :: ·) statuses⟩

theorem patchRequests {ds es : List Diagnostic} (same : requests ds = requests es) (t : Text) :
    (patch t ds).text = (patch t es).text ∧ (patch t ds).inserted = (patch t es).inserted := by
  obtain ⟨lines, statuses⟩ := patchLinesRequests same (Text.splitOn '\n' t)
  have counts : (patch t ds).inserted = (patch t es).inserted := by
    have all := congrArg (fun ss => (ss.map Status.count).sum) statuses
    simpa [patch, Function.comp_def] using all
  refine ⟨?_, counts⟩
  rw [patchEither, patchEither, counts, lines]

theorem patchLinesUnresolved {ds : List Diagnostic}
    (none : ∀ d ∈ ds, Message.missing? d.message.toList = none) (lines : List Text) :
    patchLines ds lines = (lines, ds.map fun d => (d, .skipped .unresolvedName)) := by
  induction ds with
  | nil => rfl
  | cons d ds ih =>
    have first : patchOne lines d = (lines, .skipped .unresolvedName) := by
      unfold patchOne
      rw [none d (by simp)]
    simp only [patchLines, first, ih fun d mem => none d (by simp [mem]), List.map_cons]

theorem patchUnresolved {ds : List Diagnostic}
    (none : ∀ d ∈ ds, handles d = true → Message.missing? d.message.toList = none) (t : Text) :
    (patch t ds).text = t ∧ (patch t ds).inserted = 0 := by
  have unresolved : ∀ d ∈ ds.filter handles, Message.missing? d.message.toList = .none := by
    intro d mem
    exact none d (List.mem_filter.mp mem).1 (List.mem_filter.mp mem).2
  have counts : (patch t ds).inserted = 0 := by
    simp [patch, patchLinesUnresolved unresolved, Status.count, Function.comp_def]
  exact ⟨by rw [patchEither, if_pos counts], counts⟩

end Dependency

namespace Mender
variable (m : Mender)

section
variable {ds es : List Diagnostic}
  (rules : ∀ id ∈ m.table.ids, id ∈ ds.map Diagnostic.rule ↔ id ∈ es.map Diagnostic.rule)
  (requests : Dependency.requests ds = Dependency.requests es)

include requests in
theorem dependencyStageRequests (t : Text) :
    (m.dependencyStage ds t).text = (m.dependencyStage es t).text ∧
    (m.dependencyStage ds t).inserted = (m.dependencyStage es t).inserted := by
  unfold dependencyStage
  split
  · exact Dependency.patchRequests requests t
  · exact ⟨rfl, rfl⟩

include rules requests in
theorem mendAlike (t : Text) :
    (m.mend t ds).text = (m.mend t es).text ∧ (m.mend t ds).edits = (m.mend t es).edits := by
  have patterns : m.patternStage ds = m.patternStage es := by
    funext given
    exact m.table.runReported rules given
  obtain ⟨text, inserted⟩ := m.dependencyStageRequests requests
    (m.patternStage es (m.cleanStage t).text).text
  simp only [mend, patterns, text, inserted]
  exact ⟨trivial, trivial⟩

include rules requests in
theorem mendFileAlike (tree : Tree) (path : String) :
    ((m.mendFile Tree.fileSystem ⟨path, ds⟩).run tree).2 =
      ((m.mendFile Tree.fileSystem ⟨path, es⟩).run tree).2 := by
  cases excluded : m.options.excludes path with
  | true =>
    simp only [mendFile, excluded, ↓reduceIte]
    rfl
  | false =>
    rw [mendFileRun m (g := ⟨path, ds⟩) excluded, mendFileRun m (g := ⟨path, es⟩) excluded]
    cases tree.read path with
    | error cause => rfl
    | ok t =>
      have text := (m.mendAlike rules requests t).1
      have after : (m.resultOf ⟨path, ds⟩ (.ok t)).after =
          (m.resultOf ⟨path, es⟩ (.ok t)).after := text
      have status : (m.resultOf ⟨path, ds⟩ (.ok t)).status =
          (m.resultOf ⟨path, es⟩ (.ok t)).status := by simp only [resultOf, text]
      simp only [after, status]
      split
      · rfl
      · rfl

end

section
variable {ds : List Diagnostic} (unlisted : ∀ d ∈ ds, d.rule ∉ m.table.ids)
  (unnamed : ∀ d ∈ ds, m.hasRemedy d.rule = true →
    Dependency.Message.missing? d.message.toList = none)
include unlisted unnamed

theorem mendNothing {t : Text} (visible : m.options.clean = true → Visible t) :
    (m.mend t ds).text = t ∧ (m.mend t ds).edits = {} := by
  have cleaned : m.cleanStage t = ⟨t, 0⟩ := by
    unfold cleanStage
    split
    · rename_i on
      exact cleanNothing (visible on)
    · rfl
  have patterns : m.patternStage ds t = ⟨t, 0, []⟩ := by
    apply m.table.runUnreported
    intro id listed reported
    obtain ⟨d, mem, rfl⟩ := List.mem_map.mp reported
    exact unlisted d mem listed
  have lists : (m.dependencyStage ds t).text = t ∧ (m.dependencyStage ds t).inserted = 0 := by
    unfold dependencyStage
    split
    · rename_i on
      apply Dependency.patchUnresolved
      intro d mem ours
      have rule : d.rule = Dependency.rule := by simpa [Dependency.handles] using ours
      exact unnamed d mem (by simp [hasRemedy, on, rule])
    · exact ⟨rfl, rfl⟩
  simp only [mend, cleaned, patterns, lists]
  exact ⟨trivial, trivial⟩

theorem mendFileNothing {tree : Tree} {path : String} {t : Text} (held : tree.read path = .ok t)
    (visible : m.options.clean = true → Visible t) :
    ((m.mendFile Tree.fileSystem ⟨path, ds⟩).run tree).2 = tree := by
  cases excluded : m.options.excludes path with
  | true =>
    simp only [mendFile, excluded, ↓reduceIte]
    rfl
  | false =>
    rw [mendFileRun m (g := ⟨path, ds⟩) excluded, held]
    simp [resultOf, (m.mendNothing unlisted unnamed visible).1]

end

/-- Lists of findings that report the same rules of the table, and ask the same of the dependency
stage in the same order, make the same text of every text, with the same edits, and leave the same
tree behind. If no rule of the table is reported and no finding with a remedy names a dependency, a
text without invisible characters comes out as it went in, with no edit, and its file is not
written. -/
theorem mendOnlyRelevant (m : Mender) (ds : List Diagnostic) :
    (∀ es : List Diagnostic,
      (∀ id ∈ m.table.ids, id ∈ ds.map Diagnostic.rule ↔ id ∈ es.map Diagnostic.rule) →
      Dependency.requests ds = Dependency.requests es →
      (∀ t, (m.mend t ds).text = (m.mend t es).text ∧
        (m.mend t ds).edits = (m.mend t es).edits) ∧
      ∀ tree path, ((m.mendFile Tree.fileSystem ⟨path, ds⟩).run tree).2 =
        ((m.mendFile Tree.fileSystem ⟨path, es⟩).run tree).2) ∧
    ((∀ d ∈ ds, d.rule ∉ m.table.ids) →
      (∀ d ∈ ds, m.hasRemedy d.rule = true →
        Dependency.Message.missing? d.message.toList = none) →
      ∀ t, (m.options.clean = true → Visible t) →
        (m.mend t ds).text = t ∧ (m.mend t ds).edits = {} ∧
        ∀ (tree : Tree) (path : String), tree.read path = .ok t →
          ((m.mendFile Tree.fileSystem ⟨path, ds⟩).run tree).2 = tree) := by
  constructor
  · intro es rules requests
    exact ⟨m.mendAlike rules requests, m.mendFileAlike rules requests⟩
  · intro unlisted unnamed t visible
    obtain ⟨text, edits⟩ := m.mendNothing unlisted unnamed visible
    refine ⟨text, edits, ?_⟩
    intro tree path held
    exact m.mendFileNothing unlisted unnamed held visible

def plainFindings : List Diagnostic :=
  [typeFinding Rule.noExplicitAny, dependencyFinding 2 "missing dependency: 'a'."]

def scatteredFindings : List Diagnostic :=
  [typeFinding "no-var", { dependencyFinding 2 "missing dependency: 'a'." with column := 9 },
    { typeFinding Rule.noExplicitAny with line := 40, severity := .warning },
    { typeFinding Rule.noExplicitAny with path := "other.ts", message := "missing dependency: 'b'." }]

theorem mendOnlyRelevantScattered :
    (∀ id ∈ standard.table.ids, id ∈ plainFindings.map Diagnostic.rule ↔
      id ∈ scatteredFindings.map Diagnostic.rule) ∧
    Dependency.requests plainFindings = Dependency.requests scatteredFindings ∧
    (standard.mend "let a: any;\nuse(a, []);".toList scatteredFindings).text =
      "let a: unknown;\nuse(a, [a]);".toList ∧
    (standard.mend "let a: any;\nuse(a, []);".toList scatteredFindings).edits = ⟨0, 1, 1⟩ ∧
    (∀ d ∈ [typeFinding "no-var", dependencyFinding 2 "a is missing"],
      d.rule ∉ standard.table.ids) ∧
    Visible "let a: any;\nuse(a, []);".toList ∧
    (standard.mend "let a: any;\nuse(a, []);".toList
      [typeFinding "no-var", dependencyFinding 2 "a is missing"]).text =
      "let a: any;\nuse(a, []);".toList := by
  have rules : ∀ id ∈ standard.table.ids, id ∈ plainFindings.map Diagnostic.rule ↔
      id ∈ scatteredFindings.map Diagnostic.rule := by decide +kernel
  have requests : Dependency.requests plainFindings = Dependency.requests scatteredFindings := by
    decide +kernel
  obtain ⟨alike, -⟩ := mendOnlyRelevant standard plainFindings
  obtain ⟨text, edits⟩ := (alike scatteredFindings rules requests).1
    "let a: any;\nuse(a, []);".toList
  have unlisted : ∀ d ∈ [typeFinding "no-var", dependencyFinding 2 "a is missing"],
      d.rule ∉ standard.table.ids := by decide +kernel
  have visible : Visible "let a: any;\nuse(a, []);".toList := by decide +kernel
  obtain ⟨-, nothing⟩ := mendOnlyRelevant standard
    [typeFinding "no-var", dependencyFinding 2 "a is missing"]
  have kept := nothing unlisted (by decide +kernel) _ fun _ => visible
  refine ⟨rules, requests, ?_, ?_, unlisted, visible, kept.1⟩
  · rw [← text]
    decide +kernel
  · rw [← edits]
    decide +kernel

end Mender
end LintRemedy
