import LintRemedy.Proofs.FileCounts
import Mathlib.Data.List.Induction
import Mathlib.Data.List.Nodup

/-!
Triage in one pass. A tally goes through the findings of a report once, with a number for each count
and a map of entries, one for each rule met so far; the summary says of each count what it counts, and
the two come to the same (`summaryOfPass`). On the way no count gets out of step with the others: each
finding adds one to the total, one to a severity, one to a tier and one to the entry of its rule.
-/
namespace LintRemedy
open scoped LintRemedy.Counts

namespace Tier

theorem maxLow (t : Tier) : low.max t = t := if_pos (Nat.zero_le _)

theorem maxRank (a b : Tier) : (a.max b).rank = Nat.max a.rank b.rank := by
  unfold max
  split
  · rename_i le
    exact (Nat.max_eq_right le).symm
  · rename_i gt
    exact (Nat.max_eq_left (Nat.le_of_not_le gt)).symm

def Highest (tiers : List Tier) (t : Tier) : Prop := t ∈ tiers ∧ ∀ u ∈ tiers, u.rank ≤ t.rank

theorem highestSnoc {tiers : List Tier} {t : Tier} (highest : Highest tiers t) (u : Tier) :
    Highest (tiers ++ [u]) (t.max u) := by
  obtain ⟨mem, bound⟩ := highest
  constructor
  · unfold max
    split
    · simp
    · simp [mem]
  · intro v inside
    rw [maxRank]
    rcases List.mem_append.mp inside with old | new
    · exact Nat.le_trans (bound v old) (Nat.le_max_left _ _)
    · rw [List.mem_singleton.mp new]
      exact Nat.le_max_right _ _

theorem highestFold (tiers : List Tier) (some : tiers ≠ []) :
    Highest tiers (tiers.foldl max low) := by
  induction tiers using List.reverseRecOn with
  | nil => exact absurd rfl some
  | append_singleton tiers t ih =>
    rw [List.foldl_append]
    by_cases none : tiers = []
    · subst none
      exact ⟨by simp [maxLow], by simp [maxLow]⟩
    · exact highestSnoc (ih none) t

end Tier

theorem RiskRules.classifyHigher (risk : RiskRules) (rule : String) (severity : Severity) :
    risk.classify rule severity ≠ .low := by
  unfold classify
  split
  · exact nofun
  · split
    · exact nofun
    · cases severity <;> exact nofun

def TierCounts.bump (c : TierCounts) : Tier → TierCounts
  | .high => { c with high := c.high + 1 }
  | .medium => { c with medium := c.medium + 1 }
  | .low => { c with low := c.low + 1 }

theorem TierCounts.bumpEach (c : TierCounts) (t : Tier) :
    c.bump t = ⟨c.high + if t = .high then 1 else 0, c.medium + if t = .medium then 1 else 0,
      c.low + if t = .low then 1 else 0⟩ := by
  cases t <;> rfl

/-- What a pass over a report has counted so far. The entries are a map: the rule is the key, and
their order says nothing. -/
structure Tally where
  diagnostics : Nat := 0
  errors : Nat := 0
  warnings : Nat := 0
  tiers : TierCounts := ⟨0, 0, 0⟩
  fixable : Nat := 0
  entries : List RuleCount := []
  hotspots : List FileCount := []
  deriving DecidableEq, Repr

namespace Tally

def raise (tier : Tier) (e : RuleCount) : RuleCount :=
  { e with tier := e.tier.max tier, count := e.count + 1 }

def count (rule : String) (tier : Tier) (fixable : Bool) : List RuleCount → List RuleCount
  | [] => [⟨rule, tier, 1, fixable⟩]
  | e :: es => if e.rule = rule then raise tier e :: es else e :: count rule tier fixable es

section
variable (risk : RiskRules) (m : Mender)

def note (tally : Tally) (d : Diagnostic) : Tally :=
  let tier := risk.classify d.rule d.severity
  let fixable := m.hasRemedy d.rule
  { tally with
    diagnostics := tally.diagnostics + 1
    errors := if d.severity = .error then tally.errors + 1 else tally.errors
    warnings := if d.severity = .warning then tally.warnings + 1 else tally.warnings
    tiers := tally.tiers.bump tier
    fixable := if fixable then tally.fixable + 1 else tally.fixable
    entries := count d.rule tier fixable tally.entries }

def noteGroup (tally : Tally) (g : Group) : Tally :=
  let noted := g.diagnostics.foldl (note risk m) tally
  if g.diagnostics.length = 0 then noted
  else { noted with hotspots := noted.hotspots ++ [⟨g.path, g.diagnostics.length⟩] }

def ofReport (report : Report) : Tally := report.foldl (noteGroup risk m) {}

end

def summary (tally : Tally) (files : Nat) (entries : List RuleCount) : Summary :=
  { files := files
    diagnostics := tally.diagnostics
    errors := tally.errors
    warnings := tally.warnings
    tiers := tally.tiers
    fixable := tally.fixable
    rules := entries.mergeSort RuleCount.upTo
    hotspots := tally.hotspots.mergeSort FileCount.upTo }

variable {risk : RiskRules} {m : Mender} {tally : Tally}

theorem noteAllHotspots (ds : List Diagnostic) (tally : Tally) :
    (ds.foldl (note risk m) tally).hotspots = tally.hotspots := by
  induction ds generalizing tally with
  | nil => rfl
  | cons d ds ih => exact ih _

theorem passKeeps {P : Tally → List Diagnostic → Prop} (start : P {} [])
    (step : ∀ {tally ds} d, P tally ds → P (note risk m tally d) (ds ++ [d]))
    (hotspots : ∀ {tally ds} spots, P tally ds → P { tally with hotspots := spots } ds)
    (report : Report) : P (ofReport risk m report) report.diagnostics := by
  have findings : ∀ {tally ds} es, P tally ds → P (es.foldl (note risk m) tally) (ds ++ es) := by
    intro tally ds es holds
    induction es generalizing tally ds with
    | nil => simpa using holds
    | cons e es ih => simpa using ih (step e holds)
  unfold ofReport
  induction report using List.reverseRecOn with
  | nil => exact start
  | append_singleton report g ih =>
    have noted := findings g.diagnostics ih
    rw [List.foldl_append, Report.diagnostics, List.flatMap_append, List.flatMap_singleton]
    rw [Report.diagnostics] at noted
    simp only [List.foldl_cons, List.foldl_nil]
    unfold noteGroup
    split
    · exact noted
    · exact hotspots _ noted

theorem affectedCounts (report : Report) :
    (report.map Summary.fileCount).filter (fun f => f.count != 0) =
      report.affected.map Summary.fileCount := List.filter_map

theorem passHotspots (report : Report) :
    (ofReport risk m report).hotspots = report.affected.map Summary.fileCount := by
  unfold ofReport Report.affected
  induction report using List.reverseRecOn with
  | nil => rfl
  | append_singleton report g ih =>
    rw [List.foldl_append, List.filter_append, List.map_append, ← ih]
    simp only [List.foldl_cons, List.foldl_nil]
    unfold noteGroup
    split
    · rename_i none
      rw [noteAllHotspots, List.filter_cons_of_neg (by simp [none])]
      simp
    · rename_i some
      rw [List.filter_cons_of_pos (by simpa using some)]
      simp only [noteAllHotspots]
      rfl

def ids (ds : List Diagnostic) : List String := (ds.map Diagnostic.rule).eraseDups

theorem idsMember {ds : List Diagnostic} {id : String} :
    id ∈ ids ds ↔ ∃ d ∈ ds, d.rule = id := by
  rw [ids, List.mem_eraseDups, List.mem_map]

theorem idsSnoc (ds : List Diagnostic) (d : Diagnostic) :
    ids (ds ++ [d]) = if d.rule ∈ ids ds then ids ds else ids ds ++ [d.rule] := by
  have both : ids (ds ++ [d]) = ids ds ++ ([d.rule].removeAll (ds.map Diagnostic.rule)).eraseDups := by
    rw [ids, List.map_append, List.eraseDups_append]
    rfl
  rw [both]
  split
  · rename_i old
    simp [List.removeAll, idsMember.mp old]
  · rename_i new
    have fresh : ∀ e ∈ ds, e.rule ≠ d.rule := fun e mem same => new (idsMember.mpr ⟨e, mem, same⟩)
    rw [List.removeAll, List.filter_cons_of_pos (by simpa using fresh)]
    rfl

theorem idsNodup (ds : List Diagnostic) : (ids ds).Nodup := by
  induction ds using List.reverseRecOn with
  | nil => exact List.nodup_nil
  | append_singleton ds d ih =>
    rw [idsSnoc]
    split
    · exact ih
    · rename_i new
      rw [← List.concat_eq_append]
      exact List.Nodup.concat new ih

theorem ruleCountSnoc (risk : RiskRules) (m : Mender) (ds : List Diagnostic) (d : Diagnostic)
    (id : String) :
    Summary.ruleCount risk m (ds ++ [d]) id =
      if id = d.rule then raise (Summary.tierOf risk d) (Summary.ruleCount risk m ds id)
      else Summary.ruleCount risk m ds id := by
  unfold Summary.ruleCount
  split
  · rename_i own
    subst own
    simp [List.filter_append, List.foldl_append, raise]
  · rename_i other
    have apart : (d.rule == id) = false := beq_eq_false_iff_ne.mpr (Ne.symm other)
    simp [List.filter_append, apart]

theorem ruleCountFresh {ds : List Diagnostic} {id : String} (fresh : id ∉ ids ds) :
    Summary.ruleCount risk m ds id = ⟨id, .low, 0, m.hasRemedy id⟩ := by
  have none : ds.filter (·.rule == id) = [] := by
    rw [List.filter_eq_nil_iff]
    intro d mem same
    exact fresh (idsMember.mpr ⟨d, mem, beq_iff_eq.mp same⟩)
  simp [Summary.ruleCount, none]

theorem countMap {keys : List String} (nodup : keys.Nodup) {entry : String → RuleCount}
    (keyed : ∀ id, (entry id).rule = id) (rule : String) (tier : Tier) (fixable : Bool) :
    count rule tier fixable (keys.map entry) =
      if rule ∈ keys then keys.map fun id => if id = rule then raise tier (entry id) else entry id
      else keys.map entry ++ [⟨rule, tier, 1, fixable⟩] := by
  induction keys with
  | nil => rfl
  | cons id keys ih =>
    obtain ⟨once, nodup'⟩ := List.nodup_cons.mp nodup
    rw [List.map_cons, count, keyed]
    by_cases own : id = rule
    · subst own
      have others : keys.map (fun k => if k = id then raise tier (entry k) else entry k) =
          keys.map entry := by
        apply List.map_congr_left
        intro k mem
        have apart : k ≠ id := fun same => once (same ▸ mem)
        exact if_neg apart
      rw [if_pos rfl, if_pos (by simp), List.map_cons, if_pos rfl, others]
    · have later : rule ∈ id :: keys ↔ rule ∈ keys := by simp [Ne.symm own]
      rw [if_neg own, ih nodup']
      simp only [later, List.map_cons, if_neg own]
      split
      · rfl
      · rfl

theorem countNext (ds : List Diagnostic) (d : Diagnostic) :
    count d.rule (Summary.tierOf risk d) (m.hasRemedy d.rule)
        ((ids ds).map (Summary.ruleCount risk m ds)) =
      (ids (ds ++ [d])).map (Summary.ruleCount risk m (ds ++ [d])) := by
  have next := funext (ruleCountSnoc risk m ds d)
  rw [countMap (idsNodup ds) fun _ => rfl, idsSnoc]
  split
  · rw [next]
  · rename_i new
    have others : (ids ds).map (Summary.ruleCount risk m (ds ++ [d])) =
        (ids ds).map (Summary.ruleCount risk m ds) := by
      apply List.map_congr_left
      intro id mem
      have apart : id ≠ d.rule := fun same => new (same ▸ mem)
      rw [ruleCountSnoc, if_neg apart]
    rw [List.map_append, others, List.map_singleton, ruleCountSnoc, if_pos rfl, ruleCountFresh new,
      raise, Tier.maxLow]

structure Tells (risk : RiskRules) (m : Mender) (tally : Tally) (ds : List Diagnostic) : Prop where
  diagnostics : tally.diagnostics = ds.length
  errors : tally.errors = ds.countP (·.severity == .error)
  warnings : tally.warnings = ds.countP (·.severity == .warning)
  tiers : tally.tiers =
    ⟨Summary.countTier risk ds .high, Summary.countTier risk ds .medium,
      Summary.countTier risk ds .low⟩
  fixable : tally.fixable = ds.countP fun d => m.hasRemedy d.rule
  entries : tally.entries = (ids ds).map (Summary.ruleCount risk m ds)

theorem Tells.next {ds : List Diagnostic} (tells : Tells risk m tally ds) (d : Diagnostic) :
    Tells risk m (note risk m tally d) (ds ++ [d]) where
  diagnostics := by simp [note, tells.diagnostics]
  errors := by
    cases severity : d.severity <;> simp [note, severity, tells.errors, List.countP_append]
  warnings := by
    cases severity : d.severity <;> simp [note, severity, tells.warnings, List.countP_append]
  tiers := by
    have bumped : ∀ t, Summary.countTier risk (ds ++ [d]) t =
        Summary.countTier risk ds t + if Summary.tierOf risk d = t then 1 else 0 := by
      intro t
      simp [Summary.countTier, List.countP_append, List.countP_singleton]
    simp only [note, tells.tiers, bumped, TierCounts.bumpEach]
    rfl
  fixable := by
    cases remedy : m.hasRemedy d.rule <;>
      simp [note, remedy, tells.fixable, List.countP_append]
  entries := by
    rw [← countNext, ← tells.entries]
    rfl

theorem passTells (risk : RiskRules) (m : Mender) (report : Report) :
    Tells risk m (ofReport risk m report) report.diagnostics :=
  passKeeps (P := Tells risk m) ⟨rfl, rfl, rfl, rfl, rfl, rfl⟩ (fun d tells => tells.next d)
    (fun _ tells => ⟨tells.diagnostics, tells.errors, tells.warnings, tells.tiers, tells.fixable,
      tells.entries⟩) report

theorem summaryOfPass (risk : RiskRules) (m : Mender) (report : Report) :
    (ofReport risk m report).summary report.length (ofReport risk m report).entries =
      Summary.ofReport risk m report := by
  have tells := passTells risk m report
  simp only [summary, tells.diagnostics, tells.errors, tells.warnings, tells.tiers, tells.fixable,
    tells.entries, passHotspots, ← affectedCounts]
  rfl

theorem countSum (p : RuleCount → Bool) (rule : String) (tier : Tier) (fixable : Bool)
    (es : List RuleCount) (kept : ∀ e, p (raise tier e) = p e)
    (alike : ∀ e ∈ es, e.rule = rule → p e = p ⟨rule, tier, 1, fixable⟩) :
    (((count rule tier fixable es).filter p).map RuleCount.count).sum =
      ((es.filter p).map RuleCount.count).sum + if p ⟨rule, tier, 1, fixable⟩ then 1 else 0 := by
  induction es with
  | nil => cases holds : p ⟨rule, tier, 1, fixable⟩ <;> simp [count, holds]
  | cons e es ih =>
    have rest := ih fun e mem => alike e (by simp [mem])
    rw [count]
    split
    · rename_i own
      rw [← alike e (by simp) own, List.filter_cons, List.filter_cons, kept]
      split
      · simp only [List.map_cons, List.sum_cons, raise]
        omega
      · rfl
    · cases holds : p e <;> simp [holds, rest]
      omega

theorem countTotal (rule : String) (tier : Tier) (fixable : Bool) (es : List RuleCount) :
    ((count rule tier fixable es).map RuleCount.count).sum = (es.map RuleCount.count).sum + 1 := by
  have all := countSum (fun _ => true) rule tier fixable es (fun _ => rfl) (fun _ _ _ => rfl)
  simpa only [List.filter_true, ↓reduceIte] using all

structure Balanced (m : Mender) (tally : Tally) : Prop where
  severities : tally.diagnostics = tally.errors + tally.warnings
  tiers : tally.diagnostics = tally.tiers.high + tally.tiers.medium + tally.tiers.low
  low : tally.tiers.low = 0
  rules : tally.diagnostics = (tally.entries.map RuleCount.count).sum
  fixable : tally.fixable = ((tally.entries.filter RuleCount.fixable).map RuleCount.count).sum
  remedies : ∀ e ∈ tally.entries, e.fixable = m.hasRemedy e.rule

theorem countRemedies {es : List RuleCount} (remedies : ∀ e ∈ es, e.fixable = m.hasRemedy e.rule)
    (rule : String) (tier : Tier) :
    ∀ e ∈ count rule tier (m.hasRemedy rule) es, e.fixable = m.hasRemedy e.rule := by
  induction es with
  | nil => simp [count]
  | cons e es ih =>
    have first := remedies e (by simp)
    have rest := fun e mem => remedies e (List.mem_cons_of_mem _ mem)
    rw [count]
    split
    · intro x mem
      rcases List.mem_cons.mp mem with rfl | later
      · exact first
      · exact rest x later
    · intro x mem
      rcases List.mem_cons.mp mem with rfl | later
      · exact first
      · exact ih rest x later

theorem Balanced.next (balanced : Balanced m tally) (d : Diagnostic) :
    Balanced m (note risk m tally d) := by
  obtain ⟨severities, tiers, low, rules, fixable, remedies⟩ := balanced
  have higher := risk.classifyHigher d.rule d.severity
  refine ⟨?_, ?_, ?_, ?_, ?_, countRemedies remedies d.rule _⟩
  · cases severity : d.severity <;> simp [note, severity] <;> omega
  · simp only [note, TierCounts.bumpEach]
    cases tier : risk.classify d.rule d.severity <;> simp <;> omega
  · simp [note, TierCounts.bumpEach, higher, low]
  · simp only [note, countTotal, rules]
  · have own := countSum RuleCount.fixable d.rule (risk.classify d.rule d.severity)
      (m.hasRemedy d.rule) tally.entries (fun _ => rfl)
      (fun e mem same => (remedies e mem).trans (congrArg m.hasRemedy same))
    simp only [note, own, fixable]
    split <;> rfl

theorem passBalanced (risk : RiskRules) (m : Mender) (report : Report) :
    Balanced m (ofReport risk m report) :=
  passKeeps (P := fun tally _ => Balanced m tally)
    ⟨rfl, rfl, rfl, rfl, rfl, by simp⟩
    (fun d balanced => balanced.next d)
    (fun _ balanced => ⟨balanced.severities, balanced.tiers, balanced.low, balanced.rules,
      balanced.fixable, balanced.remedies⟩) report

end Tally

namespace Summary
variable (risk : RiskRules) (m : Mender)

structure Conserves (report : Report) (s : Summary) : Prop where
  total : s.diagnostics = (report.map fun g => g.diagnostics.length).sum
  severities : s.diagnostics = s.errors + s.warnings
  errors : s.errors = report.diagnostics.countP (·.severity == .error)
  tiers : s.diagnostics = s.tiers.high + s.tiers.medium + s.tiers.low
  tier : ∀ t, s.tiers.get t =
    report.diagnostics.countP fun d => risk.classify d.rule d.severity == t
  low : s.tiers.low = 0
  rules : s.diagnostics = (s.rules.map RuleCount.count).sum
  hotspots : s.diagnostics = (s.hotspots.map FileCount.count).sum
  fixable : s.fixable = ((s.rules.filter RuleCount.fixable).map RuleCount.count).sum
  once : (s.rules.map RuleCount.rule).Nodup
  listed : ∀ id, id ∈ s.rules.map RuleCount.rule ↔ ∃ d ∈ report.diagnostics, d.rule = id
  counted : ∀ e ∈ s.rules, e.count = report.diagnostics.countP (·.rule == e.rule)
  highest : ∀ e ∈ s.rules, Tier.Highest ((report.diagnostics.filter (·.rule == e.rule)).map
    fun d => risk.classify d.rule d.severity) e.tier
  remedy : ∀ e ∈ s.rules, e.fixable = m.hasRemedy e.rule

theorem rulesPerm (ds : List Diagnostic) :
    (rulesOf risk m ds).Perm ((Tally.ids ds).map (ruleCount risk m ds)) := List.mergeSort_perm _ _

theorem rulesNames (ds : List Diagnostic) :
    ((rulesOf risk m ds).map RuleCount.rule).Perm (Tally.ids ds) := by
  have keyed := (rulesPerm risk m ds).map RuleCount.rule
  rw [List.map_map] at keyed
  exact keyed.trans (.of_eq (List.map_id _))

theorem affectedTotal (report : Report) :
    ((hotspotsOf report).map FileCount.count).sum = report.diagnostics.length := by
  have all : report.affected.diagnostics = report.diagnostics := by
    rw [← Report.findingsDiagnostics, Report.findingsAffected, Report.findingsDiagnostics]
  rw [((hotspotsAffected report).map _).sum_nat, ← all, Report.diagnostics, List.length_flatMap,
    List.map_map]
  rfl

theorem ruleHighest {ds : List Diagnostic} {id : String} (mem : id ∈ Tally.ids ds) :
    Tier.Highest ((ds.filter (·.rule == id)).map fun d => risk.classify d.rule d.severity)
      (ruleCount risk m ds id).tier := by
  obtain ⟨d, inside, own⟩ := Tally.idsMember.mp mem
  have some : ds.filter (·.rule == id) ≠ [] :=
    List.ne_nil_of_mem (List.mem_filter.mpr ⟨inside, beq_iff_eq.mpr own⟩)
  have highest := Tier.highestFold ((ds.filter (·.rule == id)).map
    fun d => risk.classify d.rule d.severity) (by simpa using some)
  rw [List.foldl_map] at highest
  exact highest

theorem conservesSummary (report : Report) :
    Conserves risk m report (ofReport risk m report) := by
  have balanced := Tally.passBalanced risk m report
  have pass := Tally.summaryOfPass risk m report
  have sorted : (ofReport risk m report).rules.Perm (Tally.ofReport risk m report).entries := by
    rw [← pass]
    exact List.mergeSort_perm _ _
  have entries : ∀ e ∈ (ofReport risk m report).rules,
      ∃ id ∈ Tally.ids report.diagnostics, ruleCount risk m report.diagnostics id = e := by
    intro e mem
    exact List.mem_map.mp ((rulesPerm risk m _).mem_iff.mp mem)
  have names := rulesNames risk m report.diagnostics
  have counts := congrArg Summary.diagnostics pass
  refine ⟨List.length_flatMap, ?_, rfl, ?_, ?_, ?_, ?_, (affectedTotal report).symm, ?_,
    names.nodup_iff.mpr (Tally.idsNodup _), fun id => names.mem_iff.trans Tally.idsMember, ?_, ?_, ?_⟩
  · rw [← pass]
    exact balanced.severities
  · rw [← pass]
    exact balanced.tiers
  · intro t
    cases t <;> rfl
  · rw [← pass]
    exact balanced.low
  · rw [(sorted.map _).sum_nat, ← counts]
    exact balanced.rules
  · rw [((sorted.filter _).map _).sum_nat, ← pass]
    exact balanced.fixable
  · intro e mem
    obtain ⟨id, -, rfl⟩ := entries e mem
    exact List.countP_eq_length_filter.symm
  · intro e mem
    obtain ⟨id, inside, rfl⟩ := entries e mem
    exact ruleHighest risk m inside
  · intro e mem
    exact balanced.remedies e (sorted.mem_iff.mp mem)

variable {risk m} in
theorem Conserves.reordered {report : Report} {s : Summary} (conserves : Conserves risk m report s)
    {rules : List RuleCount} (order : rules.Perm s.rules) :
    Conserves risk m report { s with rules := rules } where
  total := conserves.total
  severities := conserves.severities
  errors := conserves.errors
  tiers := conserves.tiers
  tier := conserves.tier
  low := conserves.low
  rules := conserves.rules.trans (order.map _).sum_nat.symm
  hotspots := conserves.hotspots
  fixable := conserves.fixable.trans ((order.filter _).map _).sum_nat.symm
  once := (order.map _).nodup_iff.mpr conserves.once
  listed id := (order.map _).mem_iff.trans (conserves.listed id)
  counted e mem := conserves.counted e (order.mem_iff.mp mem)
  highest e mem := conserves.highest e (order.mem_iff.mp mem)
  remedy e mem := conserves.remedy e (order.mem_iff.mp mem)

/-- The counts of every summary are conserved: by severity, by tier, by rule and by file they add up
to the findings of the report, none of which is of the lowest tier; the fixable ones are those of the
rules that say so. Each rule of the report has one entry, with the number of its findings, the highest
of their tiers and whether it has a remedy. The pass over the report comes to such a summary in
whatever order its map hands out the entries. -/
theorem countsConserved (report : Report) :
    Conserves risk m report (ofReport risk m report) ∧
    ∀ entries : List RuleCount, entries.Perm (Tally.ofReport risk m report).entries →
      Conserves risk m report ((Tally.ofReport risk m report).summary report.length entries) := by
  have conserves := conservesSummary risk m report
  refine ⟨conserves, ?_⟩
  intro entries order
  rw [← Tally.summaryOfPass] at conserves
  have sorted : (entries.mergeSort RuleCount.upTo).Perm
      ((Tally.ofReport risk m report).entries.mergeSort RuleCount.upTo) :=
    (List.mergeSort_perm _ _).trans (order.trans (List.mergeSort_perm _ _).symm)
  exact conserves.reordered sorted

def mixedReport : Report :=
  let finding := Mender.typeFinding "no-alert"
  [⟨"a.ts", [{ finding with severity := .warning }, Mender.typeFinding Rule.noExplicitAny]⟩,
    ⟨"b.ts", []⟩, ⟨"a.ts", [finding]⟩]

theorem countsConservedReversed :
    let tally := Tally.ofReport (RiskRules.withExtra [] []) Mender.standard mixedReport
    let s := tally.summary mixedReport.length tally.entries.reverse
    tally.entries =
      [⟨"no-alert", .high, 2, false⟩, ⟨Rule.noExplicitAny, .high, 1, true⟩] ∧
    tally.entries.reverse.Perm tally.entries ∧
    s.diagnostics = 3 ∧ s.tiers.low = 0 ∧ 3 = (s.rules.map RuleCount.count).sum := by
  intro tally s
  obtain ⟨-, pass⟩ := countsConserved (RiskRules.withExtra [] []) Mender.standard mixedReport
  have order : tally.entries.reverse.Perm tally.entries := List.reverse_perm _
  have conserves := pass _ order
  exact ⟨by decide +kernel, order, rfl, conserves.low, conserves.rules⟩

end Summary
end LintRemedy
