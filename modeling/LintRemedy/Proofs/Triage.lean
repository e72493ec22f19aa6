import LintRemedy.Proofs.Accounts
import LintRemedy.Proofs.Disabled
import LintRemedy.Proofs.DryRun
import LintRemedy.Summary

/-!
Triage and mending agree. Triage counts the findings of a report without a look at the files; mending
meets them file by file, in merged groups, and skips those without a remedy. Which these are depends
on their rules alone. So where every file can be read and none is left out, both come to the same
numbers, whatever the files hold and in whatever order their turns come.
-/
namespace LintRemedy
open LintRemedy.Path (Component components)

theorem Tree.replaceReadable {tree : Tree} {path other : String} {old u : Text}
    (held : tree.read path = .ok old) (readable : tree.read other = .ok u) (t : Text) :
    ∃ v, (tree.replace path t).2.read other = .ok v := by
  rw [replaceHeld held]
  cases tree.bar? path with
  | some cause => exact ⟨u, readable⟩
  | none =>
    by_cases same : target tree.base other = target tree.base path
    · exact ⟨t, readContent.mpr (writeRespelled held readable same t)⟩
    · exact ⟨u, (readSame (writeOther held (Ne.symm same) t)).trans readable⟩

namespace Report

def findings (report : Report) : List (List Component × Diagnostic) :=
  report.flatMap fun g => g.diagnostics.map (components g.path, ·)

theorem findingsDiagnostics (report : Report) :
    (findings report).map Prod.snd = report.diagnostics := by
  simp [findings, diagnostics, List.map_flatMap, Function.comp_def]

theorem findingsReported (report : Report) {rule : String}
    (reported : ∃ d ∈ report.diagnostics, d.rule = rule) :
    report.findings.filter (·.2.rule == rule) ≠ [] := by
  obtain ⟨d, mem, own⟩ := reported
  rw [← findingsDiagnostics] at mem
  obtain ⟨f, inside, rfl⟩ := List.mem_map.mp mem
  exact List.ne_nil_of_mem (List.mem_filter.mpr ⟨inside, by simpa using own⟩)

theorem addGroupFindings (g : Group) (report : Report) :
    (findings (report.addGroup g)).Perm (findings report ++ findings [g]) := by
  induction report with
  | nil => exact .refl _
  | cons h rest ih =>
    have own : findings [g] = g.diagnostics.map (components g.path, ·) := by simp [findings]
    rw [addGroup]
    split
    · rename_i same
      have joined : findings ({ h with diagnostics := h.diagnostics ++ g.diagnostics } :: rest) =
          h.diagnostics.map (components h.path, ·) ++ (findings [g] ++ findings rest) := by
        rw [own, ← Path.sameIff.mp same]
        simp [findings]
      rw [joined]
      exact (List.perm_append_comm.append_left _).trans (by simp [findings])
    · have later : (findings (h :: addGroup g rest)).Perm
          (h.diagnostics.map (components h.path, ·) ++ (findings rest ++ findings [g])) :=
        ih.append_left _
      exact later.trans (by simp [findings])

theorem mergedFindings (report : Report) : (findings report.merged).Perm (findings report) := by
  have fold : ∀ (report acc : Report),
      (findings (report.foldl (fun acc g => acc.addGroup g) acc)).Perm
        (findings acc ++ findings report) := by
    intro report
    induction report with
    | nil =>
      intro acc
      simp [findings]
    | cons g report ih =>
      intro acc
      rw [List.foldl_cons]
      refine (ih _).trans (((addGroupFindings g acc).append_right _).trans ?_)
      simp [findings]
  exact fold report []

def Readable (report : Report) (tree : Tree) : Prop :=
  ∀ g ∈ report, ∃ t, tree.read g.path = .ok t

theorem readableIff {report : Report} {tree : Tree} :
    (∀ g ∈ report, (tree.read g.path).isOk = true) ↔ report.Readable tree := by
  refine forall₂_congr fun g _ => ?_
  cases tree.read g.path <;> simp [Except.isOk, Except.toBool]

instance (report : Report) (tree : Tree) : Decidable (report.Readable tree) :=
  decidable_of_iff _ readableIff

theorem mergedReadable {report : Report} {tree : Tree} (readable : report.Readable tree) :
    report.merged.Readable tree := by
  intro g mem
  obtain ⟨h, inside, path⟩ := mergedFrom mem
  rw [← path]
  exact readable h inside

theorem readableReplaced {report : Report} {tree : Tree} (readable : report.Readable tree)
    {g : Group} (mem : g ∈ report) (t : Text) : report.Readable (tree.replace g.path t).2 := by
  intro h inside
  obtain ⟨old, held⟩ := readable g mem
  obtain ⟨u, other⟩ := readable h inside
  exact Tree.replaceReadable held other t

end Report

/-- The worker keeps to one file and, as long as this can be read, ends with an answer that has the
property. -/
inductive Work.Ends {α : Type} (P : α → Prop) (path : String) : Work α → Prop where
  | done {a : α} (holds : P a) : Ends P path (.done a)
  | read {next : Except IoFailure Text → Work α} (rest : ∀ t, Ends P path (next (.ok t))) :
      Ends P path (.ask (.read path) next)
  | replace {t : Text} {next : Except IoFailure Unit → Work α}
      (rest : ∀ stored, Ends P path (next stored)) : Ends P path (.ask (.replace path t) next)

namespace Work
variable {α : Type} {P : α → Prop} {w : Work α} {g : Group} {groups : Report} {tree : Tree}

theorem Ends.advances (ends : w.Ends P g.path) (mem : g ∈ groups) (readable : groups.Readable tree) :
    (w.advance tree).1.Ends P g.path ∧ groups.Readable (w.advance tree).2 := by
  cases ends with
  | done holds => exact ⟨.done holds, readable⟩
  | read rest =>
    obtain ⟨t, held⟩ := readable g mem
    simp only [advance, Query.perform, held]
    exact ⟨rest t, readable⟩
  | @replace t next rest => exact ⟨rest _, Report.readableReplaced readable mem t⟩

theorem Ends.completes (ends : w.Ends P g.path) (mem : g ∈ groups)
    (readable : groups.Readable tree) :
    P (w.complete tree).1 ∧ groups.Readable (w.complete tree).2 := by
  induction ends generalizing tree with
  | done holds => exact ⟨holds, readable⟩
  | read rest ih =>
    obtain ⟨t, held⟩ := readable g mem
    simp only [complete, Query.perform, held]
    exact ih t readable
  | @replace t next rest ih => exact ih _ (Report.readableReplaced readable mem t)

end Work

namespace Crew
variable {P : Group → FileResult → Prop} {groups : Report}

def Ending (P : Group → FileResult → Prop) (groups : Report) (workers : List (Work FileResult)) :
    Prop :=
  List.Forall₂ (fun g w => Work.Ends (P g) g.path w) groups workers

theorem turnEnding {crew : Crew} (ending : Ending P groups crew.workers)
    (readable : groups.Readable crew.tree) (i : Nat) :
    Ending P groups (crew.turn i).workers ∧ groups.Readable (crew.turn i).tree := by
  unfold turn
  split
  · exact ⟨ending, readable⟩
  · rename_i w at_
    obtain ⟨inside, rfl⟩ := List.getElem?_eq_some_iff.mp at_
    obtain ⟨aligned, each⟩ := List.forall₂_iff_get.mp ending
    have inside' : i < groups.length := by rw [aligned]; exact inside
    have own : Work.Ends (P groups[i]) groups[i].path crew.workers[i] := each i inside' inside
    obtain ⟨next, readable'⟩ := own.advances (List.getElem_mem inside') readable
    refine ⟨List.forall₂_iff_get.mpr ⟨by simp [aligned], ?_⟩, readable'⟩
    intro j inG inW
    simp only [List.get_eq_getElem, List.getElem_set]
    split
    · rename_i same
      subst same
      exact next
    · exact each j inG (by simpa using inW)

theorem runEnding {crew : Crew} (ending : Ending P groups crew.workers)
    (readable : groups.Readable crew.tree) (turns : List Nat) :
    Ending P groups (crew.run turns).workers := by
  induction turns generalizing crew with
  | nil => exact ending
  | cons i turns ih =>
    obtain ⟨ending', readable'⟩ := turnEnding ending readable i
    exact ih ending' readable'

theorem finishedEnding {workers : List (Work FileResult)} (ending : Ending P groups workers)
    (all : workers.all Work.isDone = true) :
    ∃ results, workers = results.map .done ∧ List.Forall₂ P groups results := by
  unfold Ending at ending
  induction ending with
  | nil => exact ⟨[], rfl, .nil⟩
  | @cons g w groups workers first _ ih =>
    obtain ⟨done, rest⟩ := Bool.and_eq_true_iff.mp all
    obtain ⟨results, workers, fit⟩ := ih rest
    cases first with
    | @done r holds => exact ⟨r :: results, by rw [workers, List.map_cons], .cons holds fit⟩
    | read rest => contradiction
    | replace rest => contradiction

theorem inOrderEnding {workers : List (Work FileResult)} (ending : Ending P groups workers)
    {tree : Tree} (readable : groups.Readable tree) :
    List.Forall₂ P groups (inOrder workers tree).1 := by
  unfold Ending at ending
  induction ending generalizing tree with
  | nil => exact .nil
  | @cons g w groups workers first _ ih =>
    have mem : g ∈ g :: groups := by simp
    obtain ⟨holds, readable'⟩ := first.completes mem readable
    exact .cons holds (ih fun h mem => readable' h (by simp [mem]))

end Crew

def FileResult.unremedied (results : List FileResult) : List (List Component × Skip) :=
  results.flatMap fun r =>
    (r.skipped.filter (·.reason == .noRemedy)).map (components r.path, ·)

def Report.asSkip (finding : List Component × Diagnostic) : List Component × Skip :=
  (finding.1, Skip.of finding.2 .noRemedy)

namespace Mender

def Mends (m : Mender) (g : Group) (r : FileResult) : Prop :=
  ∃ t stored, r = (m.resultOf g (.ok t)).stored stored

theorem mendFileEnds {m : Mender} (all : m.options.exclude = none) (g : Group) :
    (m.mendFile Work.fileSystem g).Ends (m.Mends g) g.path := by
  have included : m.options.excludes g.path = false := by simp [Options.excludes, all]
  rw [mendFileWork, included]
  refine .read ?_
  intro t
  split
  · exact .replace fun stored => .done ⟨t, stored, rfl⟩
  · exact .done ⟨t, .ok (), rfl⟩

theorem crewEnding {m : Mender} (all : m.options.exclude = none) (groups : Report) :
    Crew.Ending m.Mends groups (groups.map (m.mendFile Work.fileSystem)) := by
  unfold Crew.Ending
  rw [List.forall₂_map_right_iff, List.forall₂_same]
  intro g _
  exact mendFileEnds all g

section
variable {m : Mender} {disabled : List String} (table : m.table = RuleTable.builtin.without disabled)
include table

theorem mendUnremedied (t : Text) (ds : List Diagnostic) :
    ((m.mend t ds).skipped.filter (·.reason == .noRemedy)).Perm
      ((ds.filter fun d => !m.hasRemedy d.rule).map (Skip.of · .noRemedy)) := by
  have sorted : (m.mend t ds).skipped.Perm (Skip.byStage (m.accounts t ds)) := by
    rw [← skipsByStage table]
    exact List.mergeSort_perm _ _
  rw [← accountsWith (t := t) fun d _ => reasonRemedies d]
  exact (sorted.trans (Skip.byStagePerm _)).filter _

theorem resultsUnremedied {groups : Report} {results : List FileResult}
    (mended : List.Forall₂ m.Mends groups results) :
    (FileResult.unremedied results).Perm
      ((groups.findings.filter fun f => !m.hasRemedy f.2.rule).map Report.asSkip) := by
  induction mended with
  | nil => exact .refl _
  | @cons g r groups results first _ ih =>
    obtain ⟨t, stored, rfl⟩ := first
    have own := (mendUnremedied table t g.diagnostics).map (Prod.mk (components g.path))
    have first : FileResult.unremedied ((m.resultOf g (.ok t)).stored stored :: results) =
        ((m.mend t g.diagnostics).skipped.filter (·.reason == .noRemedy)).map
          (Prod.mk (components g.path)) ++ FileResult.unremedied results := by
      cases stored <;> rfl
    rw [first]
    refine (own.append ih).trans ?_
    simp [Report.findings, List.filter_map, Report.asSkip, Function.comp_def]

end
end Mender

namespace Summary
variable {risk : RiskRules} {m : Mender}

theorem rulesHold {ds : List Diagnostic} {d : Diagnostic} (mem : d ∈ ds) :
    ∃ e ∈ rulesOf risk m ds, e.rule = d.rule := by
  refine ⟨ruleCount risk m ds d.rule, ?_, rfl⟩
  unfold rulesOf
  rw [(List.mergeSort_perm _ _).mem_iff]
  exact List.mem_map_of_mem (List.mem_eraseDups.mpr (List.mem_map_of_mem mem))

theorem rulesFrom {ds : List Diagnostic} {e : RuleCount} (mem : e ∈ rulesOf risk m ds) :
    e.fixable = m.hasRemedy e.rule ∧ ∃ d ∈ ds, d.rule = e.rule := by
  unfold rulesOf at mem
  rw [(List.mergeSort_perm _ _).mem_iff] at mem
  obtain ⟨rule, named, rfl⟩ := List.mem_map.mp mem
  exact ⟨rfl, List.mem_map.mp (List.mem_eraseDups.mp named)⟩

/-- The summary tells what the results show: as many findings have no remedy as the results skip for
that reason, and a rule is fixable if none of its findings is skipped so, and not if all are. -/
structure Agrees (s : Summary) (report : Report) (results : List FileResult) : Prop where
  counted : (FileResult.unremedied results).length + s.fixable = s.diagnostics
  listed : ∀ d ∈ report.diagnostics, ∃ e ∈ s.rules, e.rule = d.rule
  unfixable : ∀ e ∈ s.rules, e.fixable = false ↔
    ((FileResult.unremedied results).filter (·.2.rule == e.rule)).Perm
      ((report.findings.filter (·.2.rule == e.rule)).map Report.asSkip)
  fixable : ∀ e ∈ s.rules, e.fixable = true ↔
    ∀ skip ∈ FileResult.unremedied results, skip.2.rule ≠ e.rule

section
variable {report : Report} {results : List FileResult}
  (skipped : (FileResult.unremedied results).Perm
    ((report.findings.filter fun f => !m.hasRemedy f.2.rule).map Report.asSkip))
include skipped

theorem skippedCount :
    (FileResult.unremedied results).length + report.diagnostics.countP (m.hasRemedy ·.rule) =
      report.diagnostics.length := by
  have split := List.length_eq_countP_add_countP (l := report.findings) fun f => m.hasRemedy f.2.rule
  simp only [Bool.not_eq_true, Bool.decide_eq_false] at split
  rw [skipped.length_eq, List.length_map, ← List.countP_eq_length_filter,
    ← report.findingsDiagnostics, List.countP_map, List.length_map, Nat.add_comm]
  exact split.symm

theorem skippedRule (rule : String) :
    ((FileResult.unremedied results).filter (·.2.rule == rule)).Perm
      (if m.hasRemedy rule then []
        else (report.findings.filter (·.2.rule == rule)).map Report.asSkip) := by
  refine (skipped.filter _).trans ?_
  rw [List.filter_map, List.filter_filter]
  cases remedy : m.hasRemedy rule with
  | true =>
    rw [if_pos rfl, List.filter_eq_nil_iff.mpr]
    · exact .refl _
    · intro f _ both
      obtain ⟨own, none⟩ := Bool.and_eq_true_iff.mp both
      rw [show f.2.rule = rule from beq_iff_eq.mp own, remedy] at none
      contradiction
  | false =>
    rw [if_neg (by simp)]
    refine .of_eq (congrArg _ (List.filter_congr ?_))
    intro f _
    by_cases own : f.2.rule = rule
    · simp [Report.asSkip, Skip.of, own, remedy]
    · simp [Report.asSkip, Skip.of, own]

theorem agreesOf : (ofReport risk m report).Agrees report results where
  counted := skippedCount skipped
  listed _ mem := rulesHold mem
  unfixable e mem := by
    obtain ⟨fixable, reported⟩ := rulesFrom mem
    have own := skippedRule skipped e.rule
    rw [fixable]
    cases remedy : m.hasRemedy e.rule with
    | false =>
      rw [if_neg (by simp [remedy])] at own
      exact iff_of_true rfl own
    | true =>
      rw [if_pos remedy] at own
      -- All and none would be the same if the rule had no finding, but it is listed for one.
      refine iff_of_false (by simp) ?_
      intro all
      exact report.findingsReported reported (List.map_eq_nil_iff.mp (all.symm.trans own).eq_nil)
  fixable e mem := by
    obtain ⟨fixable, reported⟩ := rulesFrom mem
    have own := skippedRule skipped e.rule
    have none : (∀ skip ∈ FileResult.unremedied results, skip.2.rule ≠ e.rule) ↔
        (FileResult.unremedied results).filter (·.2.rule == e.rule) = [] := by
      simp [List.filter_eq_nil_iff]
    rw [fixable, none]
    cases remedy : m.hasRemedy e.rule with
    | true =>
      rw [if_pos remedy] at own
      exact iff_of_true rfl own.eq_nil
    | false =>
      rw [if_neg (by simp [remedy])] at own
      refine iff_of_false (by simp) ?_
      intro empty
      rw [empty] at own
      exact report.findingsReported reported (List.map_eq_nil_iff.mp own.symm.eq_nil)

end
end Summary

namespace Config
open LintRemedy.Mender (dependencyFinding sharedTree typeFinding)

theorem menderPlain {c : Config} (plain : c.exclude = []) :
    c.mender = .ok ⟨c.table, ⟨c.clean, !c.disabled.contains Dependency.rule, none, false⟩⟩ := by
  simp [menderExcluded, excluded, plain, Except.map]

/-- Without patterns in the configuration and with files that can all be read, the summary of a report
agrees with the results of mending it, be it a dry run or not, one file after the other or in any
order of turns, and whichever files the system refuses to replace. -/
theorem triageAgrees (c : Config) (plain : c.exclude = []) (tree : Tree) (report : Report)
    (readable : report.Readable tree) :
    ∃ m, c.mender = .ok m ∧ ∀ dry,
      (Summary.ofReport c.risk m report).Agrees report
        (((m.withDry dry).mendReport Tree.fileSystem report).run tree).1 ∧
      ∀ turns, (((m.withDry dry).crew tree report).run turns).finished = true →
        ∃ results, (((m.withDry dry).crew tree report).run turns).workers = results.map .done ∧
          (Summary.ofReport c.risk m report).Agrees report results := by
  refine ⟨_, menderPlain plain, ?_⟩
  intro dry
  let m : Mender := ⟨c.table, ⟨c.clean, !c.disabled.contains Dependency.rule, none, dry⟩⟩
  have agrees : ∀ {results}, List.Forall₂ m.Mends report.merged results →
      (Summary.ofReport c.risk m report).Agrees report results := by
    intro results mended
    have table : m.table = RuleTable.builtin.without c.disabled := rfl
    have skipped := Mender.resultsUnremedied table mended
    exact Summary.agreesOf (skipped.trans ((report.mergedFindings.filter _).map _))
  have ending : Crew.Ending m.Mends report.merged (m.crew tree report).workers :=
    Mender.crewEnding rfl report.merged
  have readable' := Report.mergedReadable readable
  constructor
  · have mended := Crew.inOrderEnding ending readable'
    rw [Mender.crew, m.mendAllInOrder] at mended
    exact agrees mended
  · intro turns finished
    obtain ⟨results, workers, mended⟩ :=
      Crew.finishedEnding (Crew.runEnding ending readable' turns) finished
    exact ⟨results, workers, agrees mended⟩

def respelledReport : Report :=
  [⟨"a.ts", [typeFinding Rule.noExplicitAny, typeFinding "no-var"]⟩,
    ⟨"/work/a.ts", [typeFinding "no-var"]⟩,
    ⟨"b.ts", [dependencyFinding 1 "missing dependency: 'a'", typeFinding Rule.noExplicitAny]⟩,
    ⟨"a.ts", [typeFinding Rule.noExplicitAny]⟩]

def unlisted : Config := { disabled := [Dependency.rule] }

theorem triageAgreesRespelled :
    unlisted.exclude = [] ∧ respelledReport.Readable sharedTree ∧
    ∃ m, unlisted.mender = .ok m ∧
      (Summary.ofReport unlisted.risk m respelledReport).diagnostics = 6 ∧
      (Summary.ofReport unlisted.risk m respelledReport).fixable = 3 ∧
      (((m.withDry false).crew sharedTree respelledReport).run [1, 0, 2, 0, 1, 2]).finished = true ∧
      ∃ results, (((m.withDry false).crew sharedTree respelledReport).run
          [1, 0, 2, 0, 1, 2]).workers = results.map .done ∧
        (FileResult.unremedied results).length = 3 ∧
        ∀ skip ∈ FileResult.unremedied results, skip.2.rule ≠ Rule.noExplicitAny := by
  have readable : respelledReport.Readable sharedTree := by decide +kernel
  obtain ⟨m, made, agrees⟩ := triageAgrees unlisted rfl sharedTree respelledReport readable
  cases Except.ok.inj ((menderPlain rfl).symm.trans made)
  refine ⟨rfl, readable, _, made, rfl, by decide +kernel, by decide +kernel, ?_⟩
  obtain ⟨results, workers, agreed⟩ := (agrees false).2 [1, 0, 2, 0, 1, 2] (by decide +kernel)
  refine ⟨results, workers, ?_, ?_⟩
  · have counted : (FileResult.unremedied results).length + 3 = 6 := agreed.counted
    omega
  · obtain ⟨e, mem, rule⟩ := agreed.listed (typeFinding Rule.noExplicitAny)
      (by simp [respelledReport, Report.diagnostics])
    have remedy : e.fixable = true := by
      rw [(Summary.rulesFrom mem).1, rule]
      decide +kernel
    have none := (agreed.fixable e mem).mp remedy
    rw [rule] at none
    exact none

end Config
end LintRemedy
