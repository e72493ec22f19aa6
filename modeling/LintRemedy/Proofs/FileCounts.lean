import LintRemedy.Proofs.Triage

/-!
What triage and mending take for a file. Mending merges the groups of a path and has one result for
each; triage counts the groups as they come and gives each its own place among the hotspots. So the
two agree where no path comes twice, and on every report that is merged before it is summed up. What
the hotspots of one path say together is right in any case.
-/
namespace LintRemedy
open LintRemedy.Path (components)
open scoped LintRemedy.Counts

namespace Path

theorem sameSymm {a b : String} (other : same a b = false) : same b a = false := by
  rw [same, Bool.beq_comm]
  exact other

theorem addAllLength (paths more : List String) :
    (more.foldl addTo paths).length ≤ paths.length + more.length := by
  induction more generalizing paths with
  | nil => simp
  | cons path more ih =>
    have rest := ih (addTo paths path)
    have first : (addTo paths path).length ≤ paths.length + 1 := by
      unfold addTo
      split
      · omega
      · simp
    simp only [List.foldl_cons, List.length_cons]
    omega

theorem addAllIff {paths : List String} (unlike : Unlike paths) (more : List String) :
    (more.foldl addTo paths).length = paths.length + more.length ↔ Unlike (paths ++ more) := by
  induction more generalizing paths with
  | nil => simpa using unlike
  | cons path more ih =>
    have next := ih (addUnlike unlike path)
    by_cases old : paths.any (same · path) = true
    · have kept : addTo paths path = paths := if_pos old
      have short := addAllLength paths more
      refine iff_of_false ?_ ?_
      · rw [List.foldl_cons, kept, List.length_cons]
        omega
      · intro all
        obtain ⟨kept, mem, equal⟩ := List.any_eq_true.mp old
        have differs := (List.pairwise_append.mp all).2.2 kept mem path (by simp)
        simp [equal] at differs
    · have added : addTo paths path = paths ++ [path] := if_neg old
      rw [added] at next
      rw [List.foldl_cons, added]
      simpa [Nat.add_assoc, Nat.add_comm 1] using next

end Path

namespace Report

def countOf (report : Report) (path : String) : Nat :=
  report.findings.countP fun f => f.1 == components path

def affected (report : Report) : Report := report.filter fun g => g.diagnostics.length != 0

theorem mergedLength (report : Report) :
    report.merged.length ≤ report.length ∧
      (report.length = report.merged.length ↔ Path.Unlike report.paths) := by
  have merged : report.merged.length = (report.paths.foldl Path.addTo []).length := by
    rw [← mergedPaths, paths, List.length_map]
  have all : report.paths.length = report.length := List.length_map _
  have short := Path.addAllLength [] report.paths
  have exact_ := Path.addAllIff List.Pairwise.nil report.paths
  simp only [List.length_nil, Nat.zero_add, List.nil_append, all, ← merged] at short exact_
  exact ⟨short, eq_comm.trans exact_⟩

theorem findingsCons (g : Group) (report : Report) :
    findings (g :: report) = g.diagnostics.map (components g.path, ·) ++ findings report := rfl

theorem countMerged (report : Report) (path : String) :
    report.merged.countOf path = report.countOf path := report.mergedFindings.countP_eq _

theorem countGroups (report : Report) (path : String) :
    ((report.filter fun g => Path.same g.path path).map fun g => g.diagnostics.length).sum =
      report.countOf path := by
  induction report with
  | nil => rfl
  | cons g report ih =>
    have count : countOf (g :: report) path =
        (if Path.same g.path path then g.diagnostics.length else 0) + countOf report path := by
      unfold countOf
      rw [findingsCons, List.countP_append, List.countP_map]
      congr 1
      split
      · rename_i equal
        exact List.countP_eq_length.mpr fun d _ => equal
      · rename_i other
        exact List.countP_eq_zero.mpr fun d _ => other
    rw [count, ← ih, List.filter_cons]
    split
    · rw [List.map_cons, List.sum_cons]
    · rw [Nat.zero_add]

theorem findingsAffected (report : Report) : report.affected.findings = report.findings := by
  unfold affected
  induction report with
  | nil => rfl
  | cons g report ih =>
    rw [List.filter_cons]
    split
    · rw [findingsCons, findingsCons, ih]
    · rename_i none
      have empty : g.diagnostics = [] := by simpa using none
      rw [findingsCons, empty, ih]
      rfl

theorem countAffected (report : Report) (path : String) :
    report.affected.countOf path = report.countOf path := by
  rw [countOf, findingsAffected, countOf]

theorem ownGroup {report : Report} (unlike : Path.Unlike report.paths) {g : Group}
    (mem : g ∈ report) : report.filter (fun h => Path.same h.path g.path) = [g] := by
  have apart : report.Pairwise fun g h => Path.same g.path h.path = false :=
    List.pairwise_map.mp unlike
  clear unlike
  induction report with
  | nil => contradiction
  | cons h report ih =>
    obtain ⟨first, rest⟩ := List.pairwise_cons.mp apart
    rcases List.mem_cons.mp mem with rfl | later
    · have own : Path.same g.path g.path = true := Path.sameIff.mpr rfl
      have others : report.filter (fun h => Path.same h.path g.path) = [] := by
        rw [List.filter_eq_nil_iff]
        intro h inside
        simp [Path.sameSymm (first h inside)]
      rw [List.filter_cons, if_pos own, others]
    · rw [List.filter_cons_of_neg (by simp [first g later])]
      exact ih later rest

theorem countOwn {report : Report} (unlike : Path.Unlike report.paths) {g : Group}
    (mem : g ∈ report) : report.countOf g.path = g.diagnostics.length := by
  rw [← countGroups, ownGroup unlike mem]
  simp

theorem affectedUnlike {report : Report} (unlike : Path.Unlike report.paths) :
    Path.Unlike report.affected.paths :=
  List.Pairwise.sublist (List.filter_sublist.map Group.path) unlike

end Report

namespace Mender

theorem mendAllLength (m : Mender) (groups : List Group) (tree : Tree) :
    ((m.mendAll Tree.fileSystem groups).run tree).1.length = groups.length := by
  induction groups generalizing tree with
  | nil => rfl
  | cons g groups ih =>
    rw [mendAllCons, List.length_cons, ← ih (tree.revise g.path (m.newText g (tree.outlook g.path)))]
    rfl

theorem mendReportLength (m : Mender) (report : Report) (tree : Tree) :
    ((m.mendReport Tree.fileSystem report).run tree).1.length = report.merged.length :=
  m.mendAllLength report.merged tree

end Mender

namespace Summary

structure OnePerFile (hotspots : List FileCount) (report : Report) : Prop where
  unlike : hotspots.Pairwise fun a b => Path.same a.path b.path = false
  counted : ∀ h ∈ hotspots, h.count = report.countOf h.path

def fileCount (g : Group) : FileCount := ⟨g.path, g.diagnostics.length⟩

theorem hotspotsAffected (report : Report) :
    (hotspotsOf report).Perm (report.affected.map fileCount) := by
  refine (List.mergeSort_perm _ _).trans (.of_eq ?_)
  exact List.filter_map

theorem hotspotsUnlike (report : Report) :
    (hotspotsOf report).Pairwise (fun a b => Path.same a.path b.path = false) ↔
      Path.Unlike report.affected.paths := by
  rw [(hotspotsAffected report).pairwise_iff Path.sameSymm, List.pairwise_map, Path.Unlike,
    Report.paths, List.pairwise_map]
  rfl

theorem onePerFileIff (report : Report) :
    OnePerFile (hotspotsOf report) report ↔ Path.Unlike report.affected.paths := by
  constructor
  · intro one
    exact (hotspotsUnlike report).mp one.unlike
  · intro unlike
    refine ⟨(hotspotsUnlike report).mpr unlike, ?_⟩
    intro h mem
    obtain ⟨g, inside, rfl⟩ := List.mem_map.mp ((hotspotsAffected report).mem_iff.mp mem)
    exact ((report.countAffected g.path).symm.trans (Report.countOwn unlike inside)).symm

theorem hotspotsTogether (report : Report) (path : String) :
    (((hotspotsOf report).filter fun h => Path.same h.path path).map FileCount.count).sum =
      report.countOf path := by
  have all := ((hotspotsAffected report).filter fun h => Path.same h.path path).map FileCount.count
  rw [all.sum_nat, List.filter_map, List.map_map, ← Report.countAffected, ← Report.countGroups]
  rfl

/-- Triage counts as many files as mending has results exactly if no two groups have the same path,
and has one hotspot for each file exactly if no two groups with findings have. In any case it counts
no fewer files than there are results, and the hotspots of a path together count what is reported for
it. The summary of the merged report agrees with mending on every report. -/
theorem filesAgreeIff (risk : RiskRules) (m : Mender) (tree : Tree) (report : Report) :
    let results := ((m.mendReport Tree.fileSystem report).run tree).1
    let s := ofReport risk m report
    let merged := ofReport risk m report.merged
    (s.files = results.length ↔ Path.Unlike report.paths) ∧
    (OnePerFile s.hotspots report ↔ Path.Unlike report.affected.paths) ∧
    results.length ≤ s.files ∧
    (∀ path, ((s.hotspots.filter fun h => Path.same h.path path).map FileCount.count).sum =
      report.countOf path) ∧
    merged.files = results.length ∧ OnePerFile merged.hotspots report ∧
    ∀ turns, ((m.crew tree report).run turns).workers.length = results.length := by
  intro results s merged
  have count : results.length = report.merged.length := m.mendReportLength report tree
  obtain ⟨short, exact_⟩ := report.mergedLength
  rw [count]
  refine ⟨exact_, onePerFileIff report, short, hotspotsTogether report, rfl, ?_, ?_⟩
  · have unlike : Path.Unlike report.merged.paths := List.pairwise_map.mpr report.mergedUnlike
    obtain ⟨apart, counted⟩ :=
      (onePerFileIff report.merged).mpr (Report.affectedUnlike unlike)
    exact ⟨apart, fun h mem => (counted h mem).trans (report.countMerged h.path)⟩
  · intro turns
    rw [Crew.runLength, Mender.crew, List.length_map]

def repeatedReport : Report :=
  let finding := Mender.typeFinding "no-var"
  [⟨"a.ts", [finding]⟩, ⟨"b.ts", [finding, finding]⟩, ⟨"a.ts", [finding, finding]⟩]

/-- The file with the most findings is taken for two, and neither of them comes first. -/
theorem repeatedFileSplit :
    let results :=
      ((Mender.standard.mendReport Tree.fileSystem repeatedReport).run Mender.sharedTree).1
    let s := ofReport (RiskRules.withExtra [] []) Mender.standard repeatedReport
    results.map FileResult.path = ["a.ts", "b.ts"] ∧ s.files = 3 ∧
    s.hotspots = [⟨"a.ts", 2⟩, ⟨"b.ts", 2⟩, ⟨"a.ts", 1⟩] ∧ repeatedReport.countOf "a.ts" = 3 ∧
    ¬ s.files = results.length ∧ ¬ OnePerFile s.hotspots repeatedReport := by
  have paths : ¬ Path.Unlike repeatedReport.affected.paths := by
    unfold Path.Unlike
    decide +kernel
  refine ⟨?_, rfl, ?_, ?_, ?_, fun one => paths ((onePerFileIff repeatedReport).mp one)⟩
  · decide +kernel
  · have fewer : FileCount.upTo ⟨"a.ts", 1⟩ ⟨"b.ts", 2⟩ = false := by decide +kernel
    have later : FileCount.upTo ⟨"b.ts", 2⟩ ⟨"a.ts", 2⟩ = false := by decide +kernel
    change List.mergeSort [⟨"a.ts", 1⟩, ⟨"b.ts", 2⟩, ⟨"a.ts", 2⟩] FileCount.upTo = _
    simp [List.mergeSort, List.MergeSort.Internal.splitInTwo, fewer, later]
  · decide +kernel
  · rw [Mender.mendReportLength]
    decide +kernel

end Summary
end LintRemedy
