import LintRemedy.Proofs.EmptyObject
import LintRemedy.Proofs.ExplicitAny

/-!
Runs of the table. Each rule leaves a text that is closed to all its substitutions, so a second
run of the same rule finds nothing to do.
-/
namespace LintRemedy

namespace RuleTable

def reportedSubstitutions (table : RuleTable) (reported : List String) : List Substitution :=
  (table.filter fun r => reported.contains r.id).flatMap Rule.substitutions

def regular (table : RuleTable) : Prop := ∀ r ∈ table, ∀ s ∈ r.substitutions, s.Regular

theorem regularReported {table : RuleTable} (regular : table.regular) (reported : List String) :
    ∀ s ∈ table.reportedSubstitutions reported, s.Regular := by
  intro s mem
  obtain ⟨r, inTable, inRule⟩ := List.mem_flatMap.mp mem
  exact regular r (List.mem_of_mem_filter inTable) s inRule

def afterRule (o : PatternOutcome) (r : Rule) : PatternOutcome :=
  let (t, n) := Rule.run r.substitutions o.text
  ⟨t, o.applied + n, if n = 0 then o.unmatched ++ [r.id] else o.unmatched⟩

theorem runFold (table : RuleTable) (reported : List String) (t : Text) :
    table.run reported t =
      (table.filter fun r => reported.contains r.id).foldl afterRule ⟨t, 0, []⟩ := rfl

theorem runText {table : RuleTable} (regular : table.regular) (reported : List String) (t : Text) :
    (table.run reported t).text = Rule.applyAll (table.reportedSubstitutions reported) t := by
  have good : ∀ r ∈ table.filter (fun r => reported.contains r.id), ∀ s ∈ r.substitutions,
      s.Regular := fun r mem => regular r (List.mem_of_mem_filter mem)
  rw [runFold, reportedSubstitutions]
  generalize table.filter (fun r => reported.contains r.id) = rules at good ⊢
  suffices all : ∀ o, (rules.foldl afterRule o).text =
      Rule.applyAll (rules.flatMap Rule.substitutions) o.text from all ⟨t, 0, []⟩
  induction rules with
  | nil => exact fun o => rfl
  | cons r rules ih =>
    intro o
    rw [List.foldl_cons, ih (fun r mem => good r (by simp [mem])), List.flatMap_cons,
      Rule.applyAllAppend, ← Rule.runText (good r (by simp))]
    rfl

theorem afterNothing {o : PatternOutcome} {r : Rule}
    (none : ∀ s ∈ r.substitutions, s.change? o.text = none) :
    afterRule o r = { o with unmatched := o.unmatched ++ [r.id] } := by
  simp [afterRule, Rule.runSettled none]

theorem runNothing {table : RuleTable} {reported : List String} {t : Text}
    (none : ∀ s ∈ table.reportedSubstitutions reported, s.change? t = none) :
    table.run reported t =
      ⟨t, 0, (table.filter fun r => reported.contains r.id).map Rule.id⟩ := by
  rw [runFold]
  unfold reportedSubstitutions at none
  generalize table.filter (fun r => reported.contains r.id) = rules at none ⊢
  suffices all : ∀ unmatched, rules.foldl afterRule ⟨t, 0, unmatched⟩ =
      ⟨t, 0, unmatched ++ rules.map Rule.id⟩ by simpa using all []
  induction rules with
  | nil => simp
  | cons r rules ih =>
    intro unmatched
    rw [List.foldl_cons, afterNothing (fun s mem => none s (by simp [mem]))]
    have later := ih (fun s mem => none s (by rw [List.flatMap_cons]; simp [mem]))
      (unmatched ++ [r.id])
    simpa using later

theorem appliedGrows (rules : List Rule) (o : PatternOutcome) :
    o.applied ≤ (rules.foldl afterRule o).applied := by
  induction rules generalizing o with
  | nil => exact Nat.le_refl _
  | cons r rules ih => exact Nat.le_trans (Nat.le_add_right _ _) (ih (afterRule o r))

theorem nothingOfRun {table : RuleTable} (regular : table.regular) {reported : List String}
    {t : Text} (zero : (table.run reported t).applied = 0) :
    ∀ s ∈ table.reportedSubstitutions reported, s.change? t = none := by
  have good : ∀ r ∈ table.filter (fun r => reported.contains r.id), ∀ s ∈ r.substitutions,
      s.Regular := fun r mem => regular r (List.mem_of_mem_filter mem)
  rw [runFold] at zero
  unfold reportedSubstitutions
  generalize table.filter (fun r => reported.contains r.id) = rules at good zero ⊢
  suffices all : ∀ unmatched, (rules.foldl afterRule ⟨t, 0, unmatched⟩).applied = 0 →
      ∀ s ∈ rules.flatMap Rule.substitutions, s.change? t = none from all [] zero
  clear zero
  induction rules with
  | nil => simp
  | cons r rules ih =>
    intro unmatched zero
    have grows := appliedGrows rules (afterRule ⟨t, 0, unmatched⟩ r)
    have count : (afterRule ⟨t, 0, unmatched⟩ r).applied = 0 + (Rule.run r.substitutions t).2 := rfl
    rw [List.foldl_cons] at zero
    have first := Rule.noneOfRun (good r (by simp)) (t := t) (by omega)
    rw [afterNothing first] at zero
    have rest := ih (fun r mem => good r (by simp [mem])) _ zero
    intro s mem
    rw [List.flatMap_cons] at mem
    rcases List.mem_append.mp mem with here | later
    · exact first s here
    · exact rest s later

theorem builtinRegular : builtin.regular := by
  intro r mem
  rcases List.mem_cons.mp mem with rfl | mem
  · exact Rule.explicitAnyRegular
  · rw [List.mem_singleton.mp mem]
    exact fun s inRule => (Rule.emptyObjectTypeSettles s inRule).regular

def runs (table : RuleTable) (reported : List String) (r : Rule) : Bool :=
  table.mends r.id && reported.contains r.id

theorem withoutRegular (disabled : List String) : (builtin.without disabled).regular :=
  fun r mem => builtinRegular r (List.mem_filter.mp mem).1

theorem reportedBuiltin (disabled reported : List String) :
    (builtin.without disabled).reportedSubstitutions reported =
      (if (builtin.without disabled).runs reported Rule.explicitAny
        then Rule.explicitAny.substitutions else []) ++
      (if (builtin.without disabled).runs reported Rule.emptyObjectType
        then Rule.emptyObjectType.substitutions else []) := by
  have apart : (Rule.explicitAny.id == Rule.emptyObjectType.id) = false := by decide
  have apart' : (Rule.emptyObjectType.id == Rule.explicitAny.id) = false := by decide
  unfold reportedSubstitutions runs mends without builtin
  -- The rules stay folded: only whether they are disabled and reported matters.
  cases off : disabled.contains Rule.explicitAny.id <;>
  cases off' : disabled.contains Rule.emptyObjectType.id <;>
  cases on : reported.contains Rule.explicitAny.id <;>
  cases on' : reported.contains Rule.emptyObjectType.id <;>
  simp only [List.filter_cons, List.filter_nil, List.any_cons, List.any_nil, off, off', on, on',
    apart, apart', Bool.not_true, Bool.not_false, Bool.false_eq_true, ↓reduceIte, beq_self_eq_true,
    Bool.or_true, Bool.or_false, Bool.and_true, Bool.and_false, List.flatMap_cons, List.flatMap_nil,
    List.append_nil, List.nil_append]

theorem builtinAlone {r : Rule} (mem : r ∈ builtin) :
    builtin.filter (fun r' => [r.id].contains r'.id) = [r] := by
  rcases List.mem_cons.mp mem with rfl | mem
  · rfl
  · rw [List.mem_singleton.mp mem]
    rfl

theorem ruleCloses {r : Rule} (mem : r ∈ builtin) (t : Text) :
    ∀ s ∈ r.substitutions, ¬ s.Open (Rule.applyAll r.substitutions t) := by
  rcases List.mem_cons.mp mem with rfl | mem
  · exact Rule.explicitAnyClosed t
  · rw [List.mem_singleton.mp mem]
    exact Rule.emptyObjectTypeClosed t

/-- After one run of a rule no match of its substitutions is allowed anywhere in the text, and a
second run reports the rule as unmatched. -/
theorem runOnceNormal (r : Rule) (mem : r ∈ builtin) (t : Text) :
    (∀ s ∈ r.substitutions, ¬ s.Open (builtin.run [r.id] t).text ∧
      s.Settled (builtin.run [r.id] t).text) ∧
    builtin.run [r.id] (builtin.run [r.id] t).text =
      ⟨(builtin.run [r.id] t).text, 0, [r.id]⟩ := by
  have reported : builtin.reportedSubstitutions [r.id] = r.substitutions := by
    rw [reportedSubstitutions, builtinAlone mem, List.flatMap_singleton]
  have text := runText builtinRegular [r.id] t
  rw [reported] at text
  rw [text]
  have closed := ruleCloses mem t
  have settled : ∀ s ∈ r.substitutions, s.Settled (Rule.applyAll r.substitutions t) :=
    fun s inRule => Substitution.settledOfClosed (builtinRegular r mem s inRule) (closed s inRule)
  refine ⟨fun s inRule => ⟨closed s inRule, settled s inRule⟩, ?_⟩
  rw [runNothing (by rw [reported]; exact fun s inRule => (settled s inRule).none),
    builtinAlone mem]
  rfl

theorem runOnceNormalCatch :
    Rule.explicitAny ∈ builtin ∧
    (builtin.run [Rule.explicitAny.id] "catch ( e:any) f(x: any)".toList).text =
      "catch (e: unknown) f(x: unknown)".toList ∧
    builtin.run [Rule.explicitAny.id] "catch (e: unknown) f(x: unknown)".toList =
      ⟨"catch (e: unknown) f(x: unknown)".toList, 0, [Rule.explicitAny.id]⟩ := by
  have mem : Rule.explicitAny ∈ builtin := List.mem_cons_self
  have text : (builtin.run [Rule.explicitAny.id] "catch ( e:any) f(x: any)".toList).text =
      "catch (e: unknown) f(x: unknown)".toList := by decide +kernel
  have again := (runOnceNormal Rule.explicitAny mem "catch ( e:any) f(x: any)".toList).2
  rw [text] at again
  exact ⟨mem, text, again⟩

end RuleTable
end LintRemedy
