import LintRemedy.Config
import LintRemedy.Proofs.Accounts

/-!
Disabled rules. A rule of the table is disabled by leaving it out, the rule on dependencies by
switching its stage off. Either way a text is mended as if the findings of the rule were not
reported, and each of these findings is skipped as one without a remedy. Names that are no rule at
all, or that stand in the list twice, make no difference.
-/
namespace LintRemedy

namespace RuleTable

theorem runWithout (table : RuleTable) {disabled reported enabled : List String}
    (left : ∀ id, id ∈ enabled ↔ id ∈ reported ∧ id ∉ disabled) (t : Text) :
    (table.without disabled).run reported t = table.run enabled t := by
  have rules : (table.without disabled).filter (fun r => reported.contains r.id) =
      table.filter fun r => enabled.contains r.id := by
    unfold without
    rw [List.filter_filter]
    apply List.filter_congr
    intro r _
    rw [Bool.eq_iff_iff]
    simp [left]
  rw [runFold, runFold, rules]

theorem mendsWithout (table : RuleTable) (disabled : List String) (id : String) :
    (table.without disabled).mends id = (table.mends id && !disabled.contains id) := by
  rw [Bool.eq_iff_iff]
  simp only [mends, without, List.any_filter, List.any_eq_true, Bool.and_eq_true, beq_iff_eq]
  constructor
  · intro ⟨r, mem, enabled, same⟩
    subst same
    exact ⟨⟨r, mem, rfl⟩, enabled⟩
  · intro ⟨⟨r, mem, same⟩, enabled⟩
    subst same
    exact ⟨r, mem, enabled, rfl⟩

end RuleTable

namespace Dependency

theorem patchHandled {ds others : List Diagnostic} (same : ds.filter handles = others.filter handles)
    (t : Text) : patch t ds = patch t others := by
  unfold patch
  rw [same]

theorem patchUnhandled {ds : List Diagnostic} (none : ds.filter handles = []) (t : Text) :
    patch t ds = ⟨t, 0, []⟩ := by
  unfold patch
  rw [none]
  rfl

end Dependency

namespace Mender

def without (m : Mender) (disabled : List String) : Mender where
  table := m.table.without disabled
  options := { m.options with
    dependencyLists := m.options.dependencyLists && !disabled.contains Dependency.rule }

def enabled (disabled : List String) (ds : List Diagnostic) : List Diagnostic :=
  ds.filter fun d => !disabled.contains d.rule

theorem enabledRules (disabled : List String) (ds : List Diagnostic) (id : String) :
    id ∈ (enabled disabled ds).map Diagnostic.rule ↔
      id ∈ ds.map Diagnostic.rule ∧ id ∉ disabled := by
  simp only [enabled, List.mem_map, List.mem_filter, Bool.not_eq_true', List.contains_eq_mem,
    decide_eq_false_iff_not]
  constructor
  · intro ⟨d, ⟨mem, kept⟩, same⟩
    subst same
    exact ⟨⟨d, mem, rfl⟩, kept⟩
  · intro ⟨⟨d, mem, same⟩, kept⟩
    subst same
    exact ⟨d, ⟨mem, kept⟩, rfl⟩

theorem enabledHandled (disabled : List String) (ds : List Diagnostic) :
    (enabled disabled ds).filter Dependency.handles =
      if disabled.contains Dependency.rule then [] else ds.filter Dependency.handles := by
  unfold enabled
  rw [List.filter_filter]
  split
  · rename_i off
    rw [List.filter_eq_nil_iff]
    intro d _
    simp only [Dependency.handles, Bool.and_eq_true, beq_iff_eq, Bool.not_eq_true', not_and]
    intro same
    rw [same, off]
    simp
  · rename_i on
    apply List.filter_congr
    intro d _
    cases ours : Dependency.handles d with
    | false => rfl
    | true =>
      have same : d.rule = Dependency.rule := by simpa [Dependency.handles] using ours
      simpa [same] using on

section
variable (m : Mender) (disabled : List String) (ds : List Diagnostic)

theorem patternStageWithout (t : Text) :
    (m.without disabled).patternStage ds t = m.patternStage (enabled disabled ds) t :=
  RuleTable.runWithout m.table (enabledRules disabled ds) t

theorem dependencyStageWithout (t : Text) :
    (m.without disabled).dependencyStage ds t =
      m.dependencyStage (enabled disabled ds) t := by
  have handled := enabledHandled disabled ds
  unfold dependencyStage
  cases lists : m.options.dependencyLists with
  | false => simp [without, lists]
  | true =>
    cases off : disabled.contains Dependency.rule with
    | false =>
      rw [off] at handled
      simp only [without, lists, off, Bool.not_false, Bool.and_self, ↓reduceIte]
      exact Dependency.patchHandled handled.symm t
    | true =>
      rw [off] at handled
      simp only [without, lists, off, Bool.not_true, Bool.and_false, Bool.false_eq_true, ↓reduceIte]
      exact (Dependency.patchUnhandled handled t).symm

theorem remedyWithout (rule : String) :
    (m.without disabled).hasRemedy rule = (m.hasRemedy rule && !disabled.contains rule) := by
  unfold hasRemedy
  have table : (m.without disabled).table.mends rule =
      (m.table.mends rule && !disabled.contains rule) := RuleTable.mendsWithout m.table disabled rule
  have stage : ((m.without disabled).options.dependencyLists && rule == Dependency.rule) =
      (m.options.dependencyLists && rule == Dependency.rule && !disabled.contains rule) := by
    cases same : rule == Dependency.rule with
    | false => simp
    | true =>
      rw [beq_iff_eq.mp same]
      simp [without]
  rw [table, stage, Bool.and_or_distrib_right]

theorem remediesWithout :
    (ds.filter fun d => !(m.without disabled).hasRemedy d.rule).Perm
      (((enabled disabled ds).filter fun d => !m.hasRemedy d.rule) ++
        ds.filter fun d => disabled.contains d.rule) := by
  have kept : (ds.filter fun d => !(m.without disabled).hasRemedy d.rule).filter
      (fun d => !disabled.contains d.rule) =
        (enabled disabled ds).filter fun d => !m.hasRemedy d.rule := by
    unfold enabled
    rw [List.filter_filter, List.filter_filter]
    apply List.filter_congr
    intro d _
    rw [remedyWithout]
    cases disabled.contains d.rule <;> simp
  have dropped : (ds.filter fun d => !(m.without disabled).hasRemedy d.rule).filter
      (fun d => !!disabled.contains d.rule) = ds.filter fun d => disabled.contains d.rule := by
    rw [List.filter_filter]
    apply List.filter_congr
    intro d _
    rw [remedyWithout]
    cases disabled.contains d.rule <;> simp
  have parts := List.filter_append_perm (fun d => !disabled.contains d.rule)
    (ds.filter fun d => !(m.without disabled).hasRemedy d.rule)
  rw [kept, dropped] at parts
  exact parts.symm

end

theorem unmatchedEnabled {m : Mender} (table : m.table = RuleTable.builtin) (disabled : List String)
    (ds : List Diagnostic) (t : Text) :
    ∀ id ∈ (m.patternStage (enabled disabled ds) t).unmatched, id ∉ disabled := by
  intro id unmatched
  unfold patternStage at unmatched
  rw [table, RuleTable.unmatchedIff RuleTable.builtinRegular (by decide)] at unmatched
  exact ((enabledRules disabled ds id).mp unmatched.1).2

theorem enabledFindings {disabled ids : List String} (only : ∀ id ∈ ids, id ∉ disabled)
    (ds : List Diagnostic) :
    ds.filter (fun d => ids.contains d.rule) =
      (enabled disabled ds).filter fun d => ids.contains d.rule := by
  unfold enabled
  rw [List.filter_filter]
  apply List.filter_congr
  intro d _
  cases listed : ids.contains d.rule with
  | false => rfl
  | true =>
    have kept := only d.rule (by simpa using listed)
    simpa using kept

theorem mendWithout {m : Mender} (table : m.table = RuleTable.builtin) (disabled : List String)
    (t : Text) (ds : List Diagnostic) :
    ((m.without disabled).mend t ds).text = (m.mend t (enabled disabled ds)).text ∧
    ((m.without disabled).mend t ds).edits = (m.mend t (enabled disabled ds)).edits ∧
    ((m.without disabled).mend t ds).skipped.Perm
      ((m.mend t (enabled disabled ds)).skipped ++
        (ds.filter fun d => disabled.contains d.rule).map (Skip.of · .noRemedy)) := by
  have cleaned : (m.without disabled).cleanStage t = m.cleanStage t := rfl
  have patterns := patternStageWithout m disabled ds (m.cleanStage t).text
  have patched := dependencyStageWithout m disabled ds
    (m.patternStage (enabled disabled ds) (m.cleanStage t).text).text
  simp only [mend, cleaned, patterns, patched]
  refine ⟨trivial, trivial, ?_⟩
  refine (List.mergeSort_perm _ _).trans ?_
  refine List.Perm.trans ?_ ((List.mergeSort_perm _ _).symm.append_right _)
  unfold skips
  rw [enabledFindings (unmatchedEnabled table disabled ds _) ds]
  have remedies := (remediesWithout m disabled ds).map (Skip.of · .noRemedy)
  rw [List.map_append] at remedies
  simp only [List.append_assoc]
  exact (remedies.append_left _).append_left _

end Mender

namespace Config

def allEnabled (c : Config) : Config := { c with disabled := [] }

theorem tableWithout (c : Config) : c.table = c.allEnabled.table.without c.disabled := by
  have all : RuleTable.builtin.without [] = RuleTable.builtin := rfl
  unfold table allEnabled
  rw [all]

def excluded (c : Config) : Except ConfigFault (Option Glob.Set) :=
  if c.exclude.isEmpty then .ok none
  else ((Glob.Set.ofPatterns c.exclude).map some).mapError .globs

theorem menderExcluded (c : Config) :
    c.mender = c.excluded.map fun exclude =>
      ⟨c.table, ⟨c.clean, !c.disabled.contains Dependency.rule, exclude, false⟩⟩ := by
  unfold mender options excluded
  split
  · rfl
  · cases Glob.Set.ofPatterns c.exclude with
    | error fault => rfl
    | ok globs => rfl

theorem menderWithout (c : Config) :
    c.mender = c.allEnabled.mender.map (·.without c.disabled) := by
  have same : c.allEnabled.excluded = c.excluded := rfl
  rw [menderExcluded, menderExcluded, same, tableWithout]
  cases c.excluded with
  | error fault => rfl
  | ok exclude => rfl

theorem menderTable {c : Config} {m : Mender} (accepted : c.mender = .ok m) : m.table = c.table := by
  rw [menderExcluded] at accepted
  cases read : c.excluded with
  | error fault =>
    rw [read] at accepted
    contradiction
  | ok exclude =>
    rw [read] at accepted
    cases accepted
    rfl

/-- Disabling rules is not reporting them. The two configurations are refused alike, for their
patterns; and where they are accepted, the text comes out the same with the same edits, and the
findings of the disabled rules are skipped on top of what is skipped anyway. -/
theorem disabledUnreported (c : Config) (t : Text) (ds : List Diagnostic) :
    match c.mender, c.allEnabled.mender with
    | .ok m, .ok whole =>
      (m.mend t ds).text = (whole.mend t (Mender.enabled c.disabled ds)).text ∧
      (m.mend t ds).edits = (whole.mend t (Mender.enabled c.disabled ds)).edits ∧
      (m.mend t ds).skipped.Perm
        ((whole.mend t (Mender.enabled c.disabled ds)).skipped ++
          (ds.filter fun d => c.disabled.contains d.rule).map (Skip.of · .noRemedy))
    | .error fault, .error fault' => fault = fault'
    | _, _ => False := by
  rw [menderWithout]
  cases accepted : c.allEnabled.mender with
  | error fault => exact rfl
  | ok whole =>
    have table : whole.table = RuleTable.builtin := menderTable accepted
    exact Mender.mendWithout table c.disabled t ds

end Config
end LintRemedy
