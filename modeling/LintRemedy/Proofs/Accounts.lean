import LintRemedy.Proofs.LineEnds

/-!
Every finding is accounted for once. A finding has at most one reason to be skipped, read off the
table, the text and the status of the finding itself; what a mended text reports as skipped are
these reasons, those of the dependency stage first, and then sorted by place.
-/
namespace LintRemedy

namespace Skip

def samePlace (a b : Skip) : Bool := a.line == b.line && a.column == b.column

theorem upToIff {a b : Skip} :
    a.upTo b = true ↔ a.line < b.line ∨ (a.line = b.line ∧ a.column ≤ b.column) := by
  simp [upTo]

theorem upToTrans (a b c : Skip) (first : a.upTo b = true) (second : b.upTo c = true) :
    a.upTo c = true := by
  rw [upToIff] at first second ⊢
  omega

theorem upToTotal (a b : Skip) : (a.upTo b || b.upTo a) = true := by
  rw [Bool.or_eq_true, upToIff, upToIff]
  omega

end Skip

/-- The list `sorted` is in the order of places, and at each place it holds what `given` holds
there, in the same order. -/
structure ByPlace (given sorted : List Skip) : Prop where
  ordered : sorted.Pairwise fun a b => a.upTo b = true
  stable : ∀ place : Skip, sorted.filter place.samePlace = given.filter place.samePlace

theorem sortedByPlace (given : List Skip) : ByPlace given (given.mergeSort Skip.upTo) where
  ordered := List.pairwise_mergeSort Skip.upToTrans Skip.upToTotal given
  stable place := by
    have equal : (given.filter place.samePlace).Pairwise fun a b => a.upTo b = true := by
      apply List.pairwise_of_forall_mem_list
      intro a memA b memB
      have placeA := (List.mem_filter.mp memA).2
      have placeB := (List.mem_filter.mp memB).2
      simp only [Skip.samePlace, Bool.and_eq_true, beq_iff_eq] at placeA placeB
      rw [Skip.upToIff]
      omega
    have kept := List.sublist_mergeSort Skip.upToTrans Skip.upToTotal equal List.filter_sublist
    have inside := kept.filter place.samePlace
    rw [List.filter_filter] at inside
    simp only [Bool.and_self] at inside
    refine (inside.eq_of_length ?_).symm
    exact (((List.mergeSort_perm given Skip.upTo).filter place.samePlace).length_eq).symm

def SkipReason.fromLists : SkipReason → Bool
  | unresolvedName | outOfRange _ _ | noList => true
  | noPatternMatch | noRemedy => false

def Skip.byStage (skips : List Skip) : List Skip :=
  skips.filter (·.reason.fromLists) ++ skips.filter (·.reason == .noPatternMatch) ++
    skips.filter (·.reason == .noRemedy)

theorem Skip.byStagePerm (skips : List Skip) : (byStage skips).Perm skips := by
  have lists := List.filter_append_perm (·.reason.fromLists) skips
  have others := List.filter_append_perm (·.reason == .noPatternMatch)
    (skips.filter fun s => !s.reason.fromLists)
  have patterns : (skips.filter fun s => !s.reason.fromLists).filter
      (·.reason == .noPatternMatch) = skips.filter (·.reason == .noPatternMatch) := by
    rw [List.filter_filter]
    apply List.filter_congr
    intro s _
    cases s.reason <;> rfl
  have remedies : (skips.filter fun s => !s.reason.fromLists).filter
      (fun s => !(s.reason == .noPatternMatch)) = skips.filter (·.reason == .noRemedy) := by
    rw [List.filter_filter]
    apply List.filter_congr
    intro s _
    cases s.reason <;> rfl
  rw [patterns, remedies] at others
  unfold byStage
  rw [List.append_assoc]
  exact (others.append_left _).trans lists

namespace RuleTable

def met (table : RuleTable) (reported : List String) (t : Text) (id : String) : Text :=
  (RuleTable.run (table.takeWhile (·.id != id)) reported t).text

def untouched (table : RuleTable) (reported : List String) (t : Text) (id : String) : Bool :=
  table.any fun r => r.id == id &&
    r.substitutions.all fun s => (s.change? (table.met reported t id)).isNone

def resume (reported : List String) (o : PatternOutcome) (table : RuleTable) : PatternOutcome :=
  (table.filter fun r => reported.contains r.id).foldl afterRule o

theorem resumeCons (reported : List String) (o : PatternOutcome) (r : Rule) (table : RuleTable) :
    resume reported o (r :: table) =
      resume reported (if reported.contains r.id then afterRule o r else o) table := by
  unfold resume
  rw [List.filter_cons]
  split <;> rfl

theorem afterRuleUnmatched {r : Rule} (regular : ∀ s ∈ r.substitutions, s.Regular)
    (o : PatternOutcome) (id : String) :
    id ∈ (afterRule o r).unmatched ↔
      id ∈ o.unmatched ∨ (r.id = id ∧ ∀ s ∈ r.substitutions, s.change? o.text = none) := by
  by_cases idle : (Rule.run r.substitutions o.text).2 = 0
  · have none := Rule.noneOfRun regular idle
    rw [afterNothing none]
    simp only [List.mem_append, List.mem_singleton, eq_comm (a := id), and_iff_left none]
  · have some : ¬ ∀ s ∈ r.substitutions, s.change? o.text = none := by
      intro none
      rw [Rule.runSettled none] at idle
      exact idle rfl
    simp [afterRule, idle, some]

theorem resumeOthers {table : RuleTable} (regular : table.regular) {id : String}
    (others : ∀ r ∈ table, r.id ≠ id) (reported : List String) (o : PatternOutcome) :
    id ∈ (resume reported o table).unmatched ↔ id ∈ o.unmatched := by
  induction table generalizing o with
  | nil => rfl
  | cons r table ih =>
    have regular' : RuleTable.regular table := fun r mem => regular r (by simp [mem])
    rw [resumeCons, ih regular' (fun r mem => others r (by simp [mem]))]
    split
    · rw [afterRuleUnmatched (regular r (by simp))]
      simp [others r (by simp)]
    · rfl

theorem resumeFirst {r : Rule} {table : RuleTable} (regular : RuleTable.regular (r :: table))
    (others : ∀ r' ∈ table, r'.id ≠ r.id) (reported : List String) (o : PatternOutcome) :
    r.id ∈ (resume reported o (r :: table)).unmatched ↔ r.id ∈ o.unmatched ∨
      (r.id ∈ reported ∧ ∀ s ∈ r.substitutions, s.change? o.text = none) := by
  have later : RuleTable.regular table := fun r mem => regular r (by simp [mem])
  rw [resumeCons, resumeOthers later others]
  split
  · rename_i on
    rw [afterRuleUnmatched (regular r (by simp))]
    have reports : r.id ∈ reported := by simpa using on
    simp [reports]
  · rename_i off
    have absent : r.id ∉ reported := by simpa using off
    simp [absent]

theorem resumeUnmatched {table : RuleTable} (regular : table.regular) (distinct : table.ids.Nodup)
    (reported : List String) (o : PatternOutcome) (id : String) :
    id ∈ (resume reported o table).unmatched ↔ id ∈ o.unmatched ∨ (id ∈ reported ∧
      ∃ r ∈ table, r.id = id ∧ ∀ s ∈ r.substitutions,
        s.change? (resume reported o (table.takeWhile (·.id != id))).text = none) := by
  induction table generalizing o with
  | nil => simp [resume]
  | cons r table ih =>
    obtain ⟨fresh, distinct'⟩ := List.nodup_cons.mp distinct
    by_cases here : r.id = id
    · subst here
      have others : ∀ r' ∈ table, r'.id ≠ r.id :=
        fun r' mem same => fresh (List.mem_map.mpr ⟨r', mem, same⟩)
      have stop : (r :: table).takeWhile (·.id != r.id) = [] := by simp
      rw [resumeFirst regular others, stop]
      have only : (∃ r' ∈ r :: table, r'.id = r.id ∧ ∀ s ∈ r'.substitutions,
          s.change? (resume reported o []).text = none) ↔
          ∀ s ∈ r.substitutions, s.change? o.text = none := by
        constructor
        · intro ⟨r', mem, same, idle⟩
          rcases List.mem_cons.mp mem with rfl | later
          · exact idle
          · exact absurd same (others r' later)
        · exact fun idle => ⟨r, by simp, rfl, idle⟩
      rw [only]
    · have regular' : RuleTable.regular table := fun r mem => regular r (by simp [mem])
      have first : (r :: table).takeWhile (·.id != id) = r :: table.takeWhile (·.id != id) := by
        simp [here]
      have same : id ∈ (if reported.contains r.id then afterRule o r else o).unmatched ↔
          id ∈ o.unmatched := by
        split
        · rw [afterRuleUnmatched (regular r (by simp))]
          simp [here]
        · rfl
      rw [resumeCons, ih regular' distinct', first, resumeCons, same]
      simp [here]

theorem unmatchedIff {table : RuleTable} (regular : table.regular) (distinct : table.ids.Nodup)
    (reported : List String) (t : Text) (id : String) :
    id ∈ (table.run reported t).unmatched ↔
      id ∈ reported ∧ table.untouched reported t id = true := by
  have resumed := resumeUnmatched regular distinct reported ⟨t, 0, []⟩ id
  rw [runFold]
  refine resumed.trans ?_
  simp only [List.not_mem_nil, false_or, untouched, List.any_eq_true, Bool.and_eq_true, beq_iff_eq,
    List.all_eq_true, Option.isNone_iff_eq_none]
  rfl

theorem withoutDistinct (disabled : List String) : (builtin.without disabled).ids.Nodup := by
  have all : builtin.ids.Nodup := by decide
  exact all.sublist (List.filter_sublist.map Rule.id)

theorem untouchedMends {table : RuleTable} {reported : List String} {t : Text} {id : String}
    (untouched : table.untouched reported t id = true) : table.mends id = true := by
  unfold RuleTable.untouched at untouched
  unfold mends
  obtain ⟨r, mem, here⟩ := List.any_eq_true.mp untouched
  exact List.any_eq_true.mpr ⟨r, mem, (Bool.and_eq_true_iff.mp here).1⟩

theorem withoutDependencies (disabled : List String) :
    (builtin.without disabled).mends Dependency.rule = false := by
  have none : ∀ r ∈ builtin, (r.id == Dependency.rule) = false := by decide
  exact List.any_eq_false.mpr fun r mem => by simp [none r (List.mem_filter.mp mem).1]

end RuleTable

namespace Dependency

def ranked (before : Nat) : List Diagnostic → List (Diagnostic × Nat)
  | [] => []
  | d :: ds => (d, before) :: ranked (if handles d then before + 1 else before) ds

theorem rankedFindings (before : Nat) (ds : List Diagnostic) :
    (ranked before ds).map Prod.fst = ds := by
  induction ds generalizing before with
  | nil => rfl
  | cons d ds ih => simp [ranked, ih]

theorem rankedMember {d : Diagnostic} {rank before : Nat} {ds : List Diagnostic}
    (mem : (d, rank) ∈ ranked before ds) : d ∈ ds := by
  rw [← rankedFindings before ds]
  exact List.mem_map_of_mem mem

def Outcome.reasonAt (o : Outcome) (rank : Nat) : Option SkipReason :=
  o.statuses[rank]?.bind fun (_, s) => s.reason?

theorem statusReason {count : Option Nat} {r : SkipReason}
    (skipped : (statusOf count).reason? = some r) : r.fromLists = true := by
  rcases count with _ | _ | n
  · cases Option.some.inj skipped
    rfl
  · contradiction
  · contradiction

theorem patchOneReason {lines : List Text} {d : Diagnostic} {r : SkipReason}
    (skipped : (patchOne lines d).2.reason? = some r) : r.fromLists = true := by
  unfold patchOne at skipped
  split at skipped
  · cases Option.some.inj skipped
    rfl
  · split at skipped
    · cases Option.some.inj skipped
      rfl
    · exact statusReason skipped

theorem patchLinesReason {ds : List Diagnostic} {lines : List Text} :
    ∀ x ∈ (patchLines ds lines).2, ∀ r, x.2.reason? = some r → r.fromLists = true := by
  induction ds generalizing lines with
  | nil => simp [patchLines]
  | cons d ds ih =>
    intro x mem r skipped
    rcases List.mem_cons.mp mem with rfl | later
    · exact patchOneReason skipped
    · exact ih x later r skipped

theorem patchLinesFindings (ds : List Diagnostic) (lines : List Text) :
    (patchLines ds lines).2.map Prod.fst = ds := by
  induction ds generalizing lines with
  | nil => rfl
  | cons d ds ih => simp [patchLines, ih]

theorem rankedSkips {ds : List Diagnostic} (done : List (Diagnostic × Status))
    {left : List (Diagnostic × Status)} (aligned : left.map Prod.fst = ds.filter handles) :
    ((ranked done.length ds).filterMap fun (d, rank) => (if handles d then
        (done ++ left)[rank]?.bind fun (_, s) => s.reason? else none).map (Skip.of d)) =
      (left.filterMap fun (d, s) => s.reason?.map (d, ·)).map fun (d, r) => Skip.of d r := by
  induction ds generalizing done left with
  | nil =>
    have none : left = [] := by simpa using aligned
    simp [none, ranked]
  | cons d ds ih =>
    by_cases ours : handles d = true
    · rw [List.filter_cons_of_pos ours] at aligned
      cases left with
      | nil => contradiction
      | cons x left =>
        obtain ⟨same, aligned'⟩ := List.cons.inj aligned
        have rest := ih (done ++ [x]) aligned'
        simp only [List.append_assoc, List.singleton_append, List.length_append,
          List.length_singleton] at rest
        simp only [ranked, ours, ↓reduceIte, List.filterMap_cons]
        rw [rest, ← same]
        simp only [List.getElem?_append_right (Nat.le_refl _), Nat.sub_self,
          List.getElem?_cons_zero, Option.bind_some]
        cases x.2.reason? <;> simp
    · rw [List.filter_cons_of_neg ours] at aligned
      simp only [ranked, ours, Bool.false_eq_true, ↓reduceIte, List.filterMap_cons, Option.map_none]
      exact ih done aligned

end Dependency

namespace Mender

def listReason? (m : Mender) (t : Text) (ds : List Diagnostic) (d : Diagnostic) (rank : Nat) :
    Option SkipReason :=
  if Dependency.handles d then
    (m.dependencyStage ds (m.patternStage ds (m.cleanStage t).text).text).reasonAt rank
  else none

def reason? (m : Mender) (t : Text) (ds : List Diagnostic) (d : Diagnostic) (rank : Nat) :
    Option SkipReason :=
  if !m.hasRemedy d.rule then some .noRemedy
  else if m.table.untouched (ds.map Diagnostic.rule) (m.cleanStage t).text d.rule then
    some .noPatternMatch
  else m.listReason? t ds d rank

def accounts (m : Mender) (t : Text) (ds : List Diagnostic) : List Skip :=
  (Dependency.ranked 0 ds).filterMap fun (d, rank) => (m.reason? t ds d rank).map (Skip.of d)

section
variable {m : Mender} {disabled : List String} {t : Text} {ds : List Diagnostic}

theorem accountsFilter (p : SkipReason → Bool) :
    (m.accounts t ds).filter (fun s => p s.reason) = (Dependency.ranked 0 ds).filterMap
      fun (d, rank) => ((m.reason? t ds d rank).filter p).map (Skip.of d) := by
  unfold accounts
  rw [List.filter_filterMap]
  apply List.filterMap_congr
  rintro ⟨d, rank⟩ -
  simp only
  cases m.reason? t ds d rank with
  | none => rfl
  | some r =>
    simp only [Option.map_some, Option.filter_some, Skip.of]
    split <;> rfl

theorem accountsWith {p : SkipReason → Bool} {q : Diagnostic → Bool} {r : SkipReason}
    (when : ∀ d ∈ ds, ∀ rank, (m.reason? t ds d rank).filter p = if q d then some r else none) :
    (m.accounts t ds).filter (fun s => p s.reason) = (ds.filter q).map (Skip.of · r) := by
  let step (d : Diagnostic) : Option Skip := if q d then some (Skip.of d r) else none
  calc (m.accounts t ds).filter (fun s => p s.reason)
      = (Dependency.ranked 0 ds).filterMap (step ∘ Prod.fst) := by
        rw [accountsFilter]
        apply List.filterMap_congr
        rintro ⟨d, rank⟩ mem
        simp only [when d (Dependency.rankedMember mem), Function.comp_apply, step]
        split <;> rfl
    _ = ds.filterMap step := by rw [← List.filterMap_map, Dependency.rankedFindings]
    _ = (ds.filter q).map (Skip.of · r) := by
        rw [← List.filterMap_eq_map, List.filterMap_filter]
        rfl

theorem listReasonFrom {d : Diagnostic} {rank : Nat} {r : SkipReason}
    (skipped : m.listReason? t ds d rank = some r) :
    m.options.dependencyLists = true ∧ Dependency.handles d = true ∧ r.fromLists = true := by
  unfold listReason? at skipped
  split at skipped <;> try contradiction
  rename_i ours
  obtain ⟨x, at_, reason⟩ := Option.bind_eq_some_iff.mp skipped
  unfold dependencyStage at at_
  split at at_ <;> try contradiction
  rename_i on
  exact ⟨on, ours, Dependency.patchLinesReason x (List.mem_of_getElem? at_) r reason⟩

theorem listReasonOther {p : SkipReason → Bool} (other : ∀ r, r.fromLists = true → p r = false)
    (d : Diagnostic) (rank : Nat) : (m.listReason? t ds d rank).filter p = none := by
  cases skipped : m.listReason? t ds d rank with
  | none => rfl
  | some r => simp [other r (listReasonFrom skipped).2.2]

theorem remedyOfMends {id : String} (mends : m.table.mends id = true) : m.hasRemedy id = true := by
  simp [hasRemedy, mends]

variable (table : m.table = RuleTable.builtin.without disabled)
include table

theorem reasonLists (d : Diagnostic) (rank : Nat) :
    (m.reason? t ds d rank).filter SkipReason.fromLists = m.listReason? t ds d rank := by
  unfold reason?
  cases skipped : m.listReason? t ds d rank with
  | none =>
    split
    · rfl
    · split <;> rfl
  | some r =>
    obtain ⟨on, ours, fromLists⟩ := listReasonFrom skipped
    have rule : d.rule = Dependency.rule := by simpa [Dependency.handles] using ours
    have remedy : m.hasRemedy d.rule = true := by simp [hasRemedy, on, rule]
    have unmended : m.table.mends d.rule = false := by
      rw [table, rule]
      exact RuleTable.withoutDependencies disabled
    have run : m.table.untouched (ds.map Diagnostic.rule) (m.cleanStage t).text d.rule = false := by
      by_contra untouched
      have mends := RuleTable.untouchedMends (by simpa using untouched)
      simp [unmended] at mends
    simp [remedy, run, fromLists]

theorem unmatchedContains {d : Diagnostic} (mem : d ∈ ds) :
    (m.patternStage ds (m.cleanStage t).text).unmatched.contains d.rule =
      m.table.untouched (ds.map Diagnostic.rule) (m.cleanStage t).text d.rule := by
  have reported : d.rule ∈ ds.map Diagnostic.rule := List.mem_map_of_mem mem
  have regular : m.table.regular := table ▸ RuleTable.withoutRegular disabled
  have distinct : m.table.ids.Nodup := table ▸ RuleTable.withoutDistinct disabled
  have unmatched := RuleTable.unmatchedIff regular distinct (ds.map Diagnostic.rule)
    (m.cleanStage t).text d.rule
  rw [Bool.eq_iff_iff, List.contains_iff_mem]
  exact unmatched.trans (and_iff_right reported)

theorem reasonPatterns {d : Diagnostic} (mem : d ∈ ds) (rank : Nat) :
    (m.reason? t ds d rank).filter (· == .noPatternMatch) =
      if (m.patternStage ds (m.cleanStage t).text).unmatched.contains d.rule
        then some .noPatternMatch else none := by
  rw [unmatchedContains table mem]
  unfold reason?
  cases untouched : m.table.untouched (ds.map Diagnostic.rule) (m.cleanStage t).text d.rule with
  | true =>
    have remedy := remedyOfMends (RuleTable.untouchedMends untouched)
    simp [remedy]
  | false =>
    split
    · rfl
    · exact listReasonOther (fun r _ => by cases r <;> trivial) d rank

omit table in
theorem reasonRemedies (d : Diagnostic) (rank : Nat) :
    (m.reason? t ds d rank).filter (· == .noRemedy) =
      if !m.hasRemedy d.rule then some .noRemedy else none := by
  unfold reason?
  split
  · rfl
  · split
    · rfl
    · exact listReasonOther (fun r _ => by cases r <;> trivial) d rank

theorem accountsLists :
    (m.accounts t ds).filter (·.reason.fromLists) =
      (m.dependencyStage ds (m.patternStage ds (m.cleanStage t).text).text).skipped.map
        fun (d, r) => Skip.of d r := by
  rw [accountsFilter SkipReason.fromLists]
  simp only [reasonLists table]
  unfold listReason? dependencyStage
  split
  · exact Dependency.rankedSkips [] (Dependency.patchLinesFindings _ _)
  · simp [Dependency.Outcome.reasonAt, Dependency.Outcome.skipped]

theorem skipsByStage :
    m.skips ds (m.patternStage ds (m.cleanStage t).text).unmatched
      (m.dependencyStage ds (m.patternStage ds (m.cleanStage t).text).text).skipped =
      Skip.byStage (m.accounts t ds) := by
  unfold skips Skip.byStage
  rw [accountsLists table, accountsWith fun d mem => reasonPatterns table mem,
    accountsWith fun d _ => reasonRemedies d]

end

/-- What is skipped is one entry for each finding that has a reason, and they are the entries of
the dependency stage, then those of the pattern stage, then the others, sorted by place. -/
theorem skipsAccountFindings (m : Mender) (disabled : List String)
    (table : m.table = RuleTable.builtin.without disabled) (t : Text) (ds : List Diagnostic) :
    (m.mend t ds).skipped.Perm (m.accounts t ds) ∧
    ByPlace (Skip.byStage (m.accounts t ds)) (m.mend t ds).skipped := by
  have sorted : (m.mend t ds).skipped =
      (Skip.byStage (m.accounts t ds)).mergeSort Skip.upTo := by
    rw [← skipsByStage table]
    rfl
  rw [sorted]
  exact ⟨(List.mergeSort_perm _ _).trans (Skip.byStagePerm _), sortedByPlace _⟩

def sundryFindings : List Diagnostic :=
  [typeFinding Rule.noExplicitAny, dependencyFinding 9 "missing dependency: 'a'",
    typeFinding "no-var", typeFinding Rule.noEmptyObjectType, dependencyFinding 1 "",
    dependencyFinding 2 "missing dependency: 'a'"]

theorem skipsAccountSundry :
    standard.table = RuleTable.builtin.without [] ∧
    (standard.mend "let x: \x7b\x7d = 1;\nuse(a, []);".toList sundryFindings).skipped.Perm
      [⟨Rule.noExplicitAny, 1, 1, .noPatternMatch⟩, ⟨Dependency.rule, 9, 1, .outOfRange 9 2⟩,
        ⟨"no-var", 1, 1, .noRemedy⟩, ⟨Dependency.rule, 1, 1, .unresolvedName⟩] ∧
    ByPlace
      [⟨Dependency.rule, 9, 1, .outOfRange 9 2⟩, ⟨Dependency.rule, 1, 1, .unresolvedName⟩,
        ⟨Rule.noExplicitAny, 1, 1, .noPatternMatch⟩, ⟨"no-var", 1, 1, .noRemedy⟩]
      (standard.mend "let x: \x7b\x7d = 1;\nuse(a, []);".toList sundryFindings).skipped := by
  have table : standard.table = RuleTable.builtin.without [] := rfl
  have accounts : standard.accounts "let x: \x7b\x7d = 1;\nuse(a, []);".toList sundryFindings =
      [⟨Rule.noExplicitAny, 1, 1, .noPatternMatch⟩, ⟨Dependency.rule, 9, 1, .outOfRange 9 2⟩,
        ⟨"no-var", 1, 1, .noRemedy⟩, ⟨Dependency.rule, 1, 1, .unresolvedName⟩] := by
    decide +kernel
  have held := skipsAccountFindings standard [] table
    "let x: \x7b\x7d = 1;\nuse(a, []);".toList sundryFindings
  rw [accounts] at held
  exact ⟨table, held⟩

end Mender

end LintRemedy
