import LintRemedy.Proofs.Tally
import Mathlib.Data.List.Lex
import Mathlib.Data.Prod.Lex
import Mathlib.Data.String.Basic

/-!
Triage does not depend on the order of a report. The entries of two rules differ in their names at
least, so there is one way to sort them, in whatever order a map gives them out; hotspots may tie, if
a path comes twice under different spellings, and then only their keys are settled. Counts, maxima and
entries of rules are the same for all orders of the groups and of the findings in a group.
-/
namespace LintRemedy
open LintRemedy.Path (Component components)

section Keys
variable {α κ : Type} [LinearOrder κ] {key : α → κ} {le : α → α → Bool}
  (keyed : ∀ a b, le a b = true ↔ key a ≤ key b)
include keyed

theorem sortedByKey (l : List α) : (l.mergeSort le).Pairwise fun a b => key a ≤ key b := by
  have sorted : (l.mergeSort le).Pairwise fun a b => le a b = true := by
    apply List.pairwise_mergeSort
    · intro a b c first second
      rw [keyed] at first second ⊢
      exact first.trans second
    · intro a b
      rw [Bool.or_eq_true, keyed, keyed]
      exact le_total _ _
  exact sorted.imp fun {a b} => (keyed a b).mp

theorem keysSettled {l other : List α} (same : l.Perm other) :
    (l.mergeSort le).map key = (other.mergeSort le).map key := by
  have sorted : ∀ l : List α, ((l.mergeSort le).map key).Pairwise (· ≤ ·) :=
    fun l => List.pairwise_map.mpr (sortedByKey keyed l)
  have moved := ((List.mergeSort_perm l le).trans same).trans (List.mergeSort_perm other le).symm
  refine List.Perm.eq_of_pairwise ?_ (sorted l) (sorted other) (moved.map key)
  intro a b _ _ first second
  exact le_antisymm first second

theorem sortSettled {l other : List α} (same : l.Perm other)
    (once : ∀ a ∈ l, ∀ b ∈ l, key a = key b → a = b) : l.mergeSort le = other.mergeSort le := by
  have moved := ((List.mergeSort_perm l le).trans same).trans (List.mergeSort_perm other le).symm
  refine List.Perm.eq_of_pairwise ?_ (sortedByKey keyed l) (sortedByKey keyed other) moved
  intro a b mem mem' first second
  rw [List.mem_mergeSort] at mem mem'
  exact once a mem b (same.mem_iff.mpr mem') (le_antisymm first second)

end Keys

namespace Path.Component

def key : Component → Nat ×ₗ Text
  | .name n => toLex (3, n)
  | c => toLex (c.rank, [])

theorem keyInjective : Function.Injective key := by
  intro a b same
  cases a <;> cases b <;> simp_all [key, rank]

end Path.Component

/- Only in this file, lists of components are ordered as words are, component by component. -/
local instance componentOrder : LinearOrder Component :=
  LinearOrder.lift' Component.key Component.keyInjective

namespace Path

theorem Component.beforeIff {a b : Component} : a.before b = true ↔ a < b := by
  change _ ↔ a.key < b.key
  cases a <;> cases b <;> simp [before, key, rank, Prod.Lex.toLex_lt_toLex]

theorem listBeforeIff {as bs : List Component} : listBefore as bs = true ↔ as < bs := by
  induction as generalizing bs with
  | nil => cases bs <;> simp [listBefore]
  | cons a as ih =>
    cases bs with
    | nil => simp [listBefore]
    | cons b bs => simp [listBefore, Component.beforeIff, List.cons_lt_cons_iff, ih]

theorem upToIff {a b : String} : upTo a b = true ↔ components a ≤ components b := by
  rw [upTo, Bool.not_eq_true', ← not_lt, ← listBeforeIff, Bool.not_eq_true]

end Path

namespace Tier

theorem rankIff {a b : Tier} : a.rank = b.rank ↔ a = b := by
  cases a <;> cases b <;> simp [rank]

theorem maxRightComm (t a b : Tier) : (t.max a).max b = (t.max b).max a := by
  rw [← rankIff, maxRank, maxRank, maxRank, maxRank]
  exact Nat.max_right_comm _ _ _

end Tier

namespace RuleCount

def Before (a b : RuleCount) : Prop :=
  b.tier.rank < a.tier.rank ∨ a.tier = b.tier ∧
    (b.count < a.count ∨ a.count = b.count ∧ a.rule < b.rule)

def key (e : RuleCount) : ℕᵒᵈ ×ₗ ℕᵒᵈ ×ₗ String :=
  toLex (OrderDual.toDual e.tier.rank, toLex (OrderDual.toDual e.count, e.rule))

theorem upToKey (a b : RuleCount) : a.upTo b = true ↔ a.key ≤ b.key := by
  unfold upTo key
  simp only [Prod.Lex.toLex_le_toLex, OrderDual.toDual_lt_toDual, OrderDual.toDual_inj, Tier.rankIff]
  by_cases tier : a.tier = b.tier
  · by_cases count : a.count = b.count
    · simp [tier, count]
    · simp [tier, count]
  · simp [tier]

theorem beforeKey {a b : RuleCount} : Before a b ↔ a.key < b.key := by
  unfold Before key
  simp only [Prod.Lex.toLex_lt_toLex, OrderDual.toDual_lt_toDual, OrderDual.toDual_inj, Tier.rankIff]

theorem keyRule {a b : RuleCount} (same : a.key = b.key) : a.rule = b.rule :=
  congrArg (fun k => (ofLex (ofLex k).2).2) same

end RuleCount

namespace FileCount

def Ordered (a b : FileCount) : Prop :=
  b.count < a.count ∨ a.count = b.count ∧ components a.path ≤ components b.path

def Tied (a b : FileCount) : Prop := a.count = b.count ∧ Path.same a.path b.path = true

def key (f : FileCount) : ℕᵒᵈ ×ₗ List Component :=
  toLex (OrderDual.toDual f.count, components f.path)

theorem upToKey (a b : FileCount) : a.upTo b = true ↔ a.key ≤ b.key := by
  unfold upTo key
  simp only [Prod.Lex.toLex_le_toLex, OrderDual.toDual_lt_toDual, OrderDual.toDual_inj]
  by_cases count : a.count = b.count
  · simp [count, Path.upToIff]
  · simp [count]

theorem orderedKey {a b : FileCount} : Ordered a b ↔ a.key ≤ b.key := by
  unfold Ordered key
  simp only [Prod.Lex.toLex_le_toLex, OrderDual.toDual_lt_toDual, OrderDual.toDual_inj]

theorem tiedKey {a b : FileCount} : Tied a b ↔ a.key = b.key := by
  unfold Tied key
  simp [Path.sameIff]

end FileCount

namespace Report

def Shuffled (report other : Report) : Prop :=
  ∃ groups : Report, report.Perm groups ∧
    List.Forall₂ (fun g h => g.path = h.path ∧ g.diagnostics.Perm h.diagnostics) groups other

variable {report other : Report}

theorem Shuffled.length (shuffled : Shuffled report other) : report.length = other.length := by
  obtain ⟨groups, moved, inside⟩ := shuffled
  exact moved.length_eq.trans inside.length_eq

theorem Shuffled.diagnostics (shuffled : Shuffled report other) :
    (Report.diagnostics report).Perm (Report.diagnostics other) := by
  obtain ⟨groups, moved, inside⟩ := shuffled
  refine (moved.flatMap_right _).trans ?_
  clear moved
  induction inside with
  | nil => exact .refl _
  | cons first _ ih => exact first.2.append ih

theorem Shuffled.fileCounts (shuffled : Shuffled report other) :
    (report.affected.map Summary.fileCount).Perm (other.affected.map Summary.fileCount) := by
  obtain ⟨groups, moved, inside⟩ := shuffled
  have counts : groups.map Summary.fileCount = other.map Summary.fileCount := by
    clear moved
    induction inside with
    | nil => rfl
    | cons first _ ih =>
      rw [List.map_cons, List.map_cons, ih, Summary.fileCount, Summary.fileCount, first.1,
        first.2.length_eq]
  rw [← Tally.affectedCounts, ← Tally.affectedCounts, ← counts]
  exact (moved.map _).filter _

end Report

namespace Summary
variable {risk : RiskRules} {m : Mender} {report other : Report}

theorem ruleCountPerm (risk : RiskRules) (m : Mender) {ds es : List Diagnostic}
    (same : ds.Perm es) (id : String) :
    ruleCount risk m ds id = ruleCount risk m es id := by
  have own := same.filter (·.rule == id)
  have tier := own.foldl_eq' (f := fun t d => t.max (tierOf risk d))
    (fun a _ b _ t => Tier.maxRightComm t _ _) .low
  simp only [ruleCount, tier, own.length_eq]

theorem entriesPerm {ds es : List Diagnostic} (same : ds.Perm es) :
    ((Tally.ids ds).map (ruleCount risk m ds)).Perm ((Tally.ids es).map (ruleCount risk m es)) := by
  have names : (Tally.ids ds).Perm (Tally.ids es) := by
    rw [List.perm_ext_iff_of_nodup (Tally.idsNodup ds) (Tally.idsNodup es)]
    intro id
    simp only [Tally.idsMember, same.mem_iff]
  rw [funext (ruleCountPerm risk m same)]
  exact names.map _

theorem entriesOnce (ds : List Diagnostic) :
    ∀ a ∈ (Tally.ids ds).map (ruleCount risk m ds), ∀ b ∈ (Tally.ids ds).map (ruleCount risk m ds),
      a.key = b.key → a = b := by
  intro a mem b mem' same
  obtain ⟨id, -, rfl⟩ := List.mem_map.mp mem
  obtain ⟨id', -, rfl⟩ := List.mem_map.mp mem'
  have names : id = id' := RuleCount.keyRule same
  rw [names]

theorem rulesEnumerated {ds es : List Diagnostic} (same : ds.Perm es) {entries : List RuleCount}
    (enumerated : entries.Perm ((Tally.ids es).map (ruleCount risk m es))) :
    entries.mergeSort RuleCount.upTo = rulesOf risk m ds :=
  (sortSettled RuleCount.upToKey ((entriesPerm same).trans enumerated.symm) (entriesOnce ds)).symm

theorem rulesStrict (ds : List Diagnostic) : (rulesOf risk m ds).Pairwise RuleCount.Before := by
  have names := (rulesNames risk m ds).nodup_iff.mpr (Tally.idsNodup ds)
  have apart : (rulesOf risk m ds).Pairwise fun a b => a.rule ≠ b.rule := List.pairwise_map.mp names
  refine ((sortedByKey RuleCount.upToKey _).and apart).imp ?_
  intro a b ⟨upTo, differ⟩
  exact RuleCount.beforeKey.mpr (lt_of_le_of_ne upTo fun same => differ (RuleCount.keyRule same))

theorem hotspotsOrdered (report : Report) : (hotspotsOf report).Pairwise FileCount.Ordered :=
  (sortedByKey FileCount.upToKey _).imp FileCount.orderedKey.mpr

theorem hotspotsTied (shuffled : Report.Shuffled report other) :
    List.Forall₂ FileCount.Tied (hotspotsOf report) (hotspotsOf other) := by
  have counts := shuffled.fileCounts
  rw [← Tally.affectedCounts, ← Tally.affectedCounts] at counts
  have keys := keysSettled FileCount.upToKey counts
  have each : List.Forall₂ (fun a b => a = b) ((hotspotsOf report).map FileCount.key)
      ((hotspotsOf other).map FileCount.key) := by
    rw [List.forall₂_eq_eq_eq]
    exact keys
  rw [List.forall₂_map_left_iff, List.forall₂_map_right_iff] at each
  exact each.imp fun _ _ => FileCount.tiedKey.mpr

/-- For every order of the groups and of the findings in them, and for every order in which the
entries of the pass are enumerated, a report has the same summary but for hotspots that tie. The rules
are in strict order; the hotspots are the groups with findings, in order. -/
theorem triageAnyOrder (risk : RiskRules) (m : Mender) (report other : Report)
    (shuffled : Report.Shuffled report other) :
    let s := ofReport risk m report
    let s' := ofReport risk m other
    let pass := Tally.ofReport risk m other
    (∀ entries, entries.Perm pass.entries → pass.summary other.length entries = s') ∧
    s' = { s with hotspots := s'.hotspots } ∧ s.rules.Pairwise RuleCount.Before ∧
    s.hotspots.Pairwise FileCount.Ordered ∧ s.hotspots.Perm (report.affected.map fileCount) ∧
    s'.hotspots.Perm s.hotspots ∧ List.Forall₂ FileCount.Tied s.hotspots s'.hotspots := by
  intro s s' pass
  have same := shuffled.diagnostics
  have tells := Tally.passTells risk m other
  refine ⟨?_, ?_, rulesStrict _, hotspotsOrdered report, hotspotsAffected report, ?_,
    hotspotsTied shuffled⟩
  · intro entries enumerated
    rw [tells.entries] at enumerated
    have rules := rulesEnumerated (List.Perm.refl other.diagnostics) enumerated
    calc pass.summary other.length entries
        = { pass.summary other.length pass.entries with rules := rulesOf risk m other.diagnostics } := by
          rw [← rules]
          rfl
      _ = { s' with rules := rulesOf risk m other.diagnostics } := by rw [Tally.summaryOfPass]
      _ = s' := rfl
  · have rules : rulesOf risk m other.diagnostics = rulesOf risk m report.diagnostics :=
      rulesEnumerated same (List.Perm.refl _)
    simp only [s, s', ofReport, countTier, rules, shuffled.length, same.length_eq,
      same.countP_eq]
  · exact (hotspotsAffected other).trans
      (shuffled.fileCounts.symm.trans (hotspotsAffected report).symm)

def tiedReport : Report :=
  [⟨"a//b.ts", [Mender.typeFinding "no-var", Mender.typeFinding "semi"]⟩, ⟨"c.ts", []⟩,
    ⟨"a/b.ts", [Mender.typeFinding Rule.noExplicitAny, Mender.typeFinding "semi"]⟩]

def tiedOther : Report :=
  [⟨"a/b.ts", [Mender.typeFinding "semi", Mender.typeFinding Rule.noExplicitAny]⟩,
    ⟨"a//b.ts", [Mender.typeFinding "semi", Mender.typeFinding "no-var"]⟩, ⟨"c.ts", []⟩]

theorem tiedShuffled : Report.Shuffled tiedReport tiedOther := by
  have moved : (tiedReport.take 2 ++ tiedReport.drop 2).Perm (tiedReport.drop 2 ++ tiedReport.take 2) :=
    List.perm_append_comm
  refine ⟨_, moved, ?_⟩
  exact .cons ⟨rfl, .swap ..⟩ (.cons ⟨rfl, .swap ..⟩ (.cons ⟨rfl, .refl _⟩ .nil))

theorem triageAnyOrderTied :
    let risk := RiskRules.withExtra [] ["semi"]
    let s := ofReport risk Mender.standard tiedReport
    let s' := ofReport risk Mender.standard tiedOther
    let pass := Tally.ofReport risk Mender.standard tiedOther
    Report.Shuffled tiedReport tiedOther ∧
    pass.entries.map RuleCount.rule = ["semi", Rule.noExplicitAny, "no-var"] ∧
    pass.summary 3 pass.entries.reverse = s' ∧ s'.rules = s.rules ∧ s.fixable = 1 ∧
    s.hotspots = [⟨"a//b.ts", 2⟩, ⟨"a/b.ts", 2⟩] ∧ s'.hotspots = [⟨"a/b.ts", 2⟩, ⟨"a//b.ts", 2⟩] ∧
    List.Forall₂ FileCount.Tied s.hotspots s'.hotspots := by
  intro risk s s' pass
  obtain ⟨enumerated, counts, -, -, -, -, tied⟩ :=
    triageAnyOrder risk Mender.standard tiedReport tiedOther tiedShuffled
  have first : FileCount.upTo ⟨"a//b.ts", 2⟩ ⟨"a/b.ts", 2⟩ = true := by decide +kernel
  have second : FileCount.upTo ⟨"a/b.ts", 2⟩ ⟨"a//b.ts", 2⟩ = true := by decide +kernel
  refine ⟨tiedShuffled, by decide +kernel, enumerated _ (List.reverse_perm _), ?_,
    by decide +kernel, ?_, ?_, tied⟩
  · have rules := congrArg Summary.rules counts
    exact rules
  · change List.mergeSort [⟨"a//b.ts", 2⟩, ⟨"a/b.ts", 2⟩] FileCount.upTo = _
    simp [List.mergeSort, List.MergeSort.Internal.splitInTwo, first]
  · change List.mergeSort [⟨"a/b.ts", 2⟩, ⟨"a//b.ts", 2⟩] FileCount.upTo = _
    simp [List.mergeSort, List.MergeSort.Internal.splitInTwo, second]

end Summary
end LintRemedy
