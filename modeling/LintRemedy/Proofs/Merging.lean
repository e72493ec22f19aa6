import LintRemedy.Batch
import LintRemedy.Proofs.Places
import Mathlib.Data.List.Pairwise

/-!
Merged groups and the files they are about. Groups are merged by the components of their paths, and
components decide where a path leads; so two groups are left for one file only where the report
spells the file with different components. Repeated slashes, slashes at the end and dots inside of
a path make none, but a dot in front does, and so does a spelling from the root beside one from the
working directory.
-/
namespace LintRemedy
open LintRemedy.Path (Component components parts trail isAbsolute)

namespace Path

theorem sameIff {a b : String} : same a b = true ↔ components a = components b := by
  simp [same]

def addTo (paths : List String) (path : String) : List String :=
  if paths.any (same · path) then paths else paths ++ [path]

def Unlike (paths : List String) : Prop := paths.Pairwise fun a b => same a b = false

theorem addUnlike {paths : List String} (unlike : Unlike paths) (path : String) :
    Unlike (addTo paths path) := by
  unfold addTo
  split
  · exact unlike
  · rename_i fresh
    refine List.pairwise_append.mpr ⟨unlike, List.pairwise_singleton _ _, ?_⟩
    intro a mem b last
    cases List.mem_singleton.mp last
    by_contra same
    exact fresh (List.any_eq_true.mpr ⟨a, mem, by simpa using same⟩)

theorem allUnlike {paths : List String} (unlike : Unlike paths) (more : List String) :
    Unlike (more.foldl addTo paths) := by
  induction more generalizing paths with
  | nil => exact unlike
  | cons path more ih => exact ih (addUnlike unlike path)

theorem addedFrom {paths more : List String} {path : String}
    (mem : path ∈ more.foldl addTo paths) : path ∈ paths ∨ path ∈ more := by
  induction more generalizing paths with
  | nil => exact .inl mem
  | cons first more ih =>
    rcases ih mem with added | later
    · unfold addTo at added
      split at added
      · exact .inl added
      · rcases List.mem_append.mp added with old | new
        · exact .inl old
        · exact .inr (by simp [List.mem_singleton.mp new])
    · exact .inr (List.mem_cons_of_mem _ later)

theorem addKeeps {paths : List String} {path : String} (mem : path ∈ paths) (more : List String) :
    path ∈ more.foldl addTo paths := by
  induction more generalizing paths with
  | nil => exact mem
  | cons first more ih =>
    apply ih
    unfold addTo
    split
    · exact mem
    · exact List.mem_append_left _ mem

theorem addedSame {more : List String} {path : String} (mem : path ∈ more) (paths : List String) :
    ∃ kept ∈ more.foldl addTo paths, same kept path = true := by
  induction more generalizing paths with
  | nil => contradiction
  | cons first more ih =>
    rcases List.mem_cons.mp mem with rfl | later
    · by_cases old : paths.any (same · path) = true
      · obtain ⟨kept, inside, equal⟩ := List.any_eq_true.mp old
        refine ⟨kept, addKeeps ?_ more, equal⟩
        rw [addTo, if_pos old]
        exact inside
      · refine ⟨path, addKeeps ?_ more, sameIff.mpr rfl⟩
        rw [addTo, if_neg old]
        simp
    · exact ih later _

end Path

namespace Report

def paths (report : Report) : List String := report.map Group.path

theorem addGroupPaths (g : Group) (report : Report) :
    paths (report.addGroup g) = Path.addTo (paths report) g.path := by
  induction report with
  | nil => rfl
  | cons h rest ih =>
    rw [addGroup]
    unfold Path.addTo at ih ⊢
    split
    · rename_i equal
      simp [paths, equal]
    · rename_i other
      have all : paths (h :: rest) = h.path :: paths rest := rfl
      have later : paths (h :: addGroup g rest) = h.path :: paths (addGroup g rest) := rfl
      rw [later, ih, all, List.any_cons, eq_false_of_ne_true other, Bool.false_or]
      split
      · rfl
      · rfl

theorem mergedPaths (report : Report) : paths report.merged = (paths report).foldl Path.addTo [] := by
  have fold : ∀ (report acc : Report), paths (report.foldl (fun acc g => acc.addGroup g) acc) =
      (paths report).foldl Path.addTo (paths acc) := by
    intro report
    induction report with
    | nil => exact fun acc => rfl
    | cons g report ih =>
      intro acc
      rw [List.foldl_cons, ih, addGroupPaths]
      rfl
  exact fold report []

end Report

namespace Path

theorem trailComponent {path : String} {c : Component} (mem : c ∈ trail path) :
    c = .parent ∨ ∃ n, c = .name n := by
  obtain ⟨part, -, rfl⟩ := List.mem_map.mp mem
  unfold Component.ofPart
  split
  · exact .inl rfl
  · exact .inr ⟨part, rfl⟩

theorem trailStart {path : String} {c : Component} (start : c = .root ∨ c = .here)
    (rest : List Component) : trail path ≠ c :: rest := by
  intro same
  have mem : c ∈ trail path := by simp [same]
  rcases trailComponent mem with rfl | ⟨n, rfl⟩
  · simp at start
  · simp at start

theorem trailNames {path : String} (plain : .parent ∉ components path) :
    ∃ names : List Text, trail path = names.map Component.name := by
  have plain' : .parent ∉ trail path := by
    rcases componentsCases path with ⟨-, all⟩ | ⟨-, all | all⟩
    · exact fun mem => plain (all ▸ List.mem_cons_of_mem _ mem)
    · exact fun mem => plain (all ▸ List.mem_cons_of_mem _ mem)
    · exact fun mem => plain (all ▸ mem)
  refine ⟨(parts path).filter fun p => p != [] && p != ['.'], ?_⟩
  unfold trail at plain' ⊢
  apply List.map_congr_left
  intro part mem
  unfold Component.ofPart
  rw [if_neg]
  intro parent
  exact plain' (List.mem_map.mpr ⟨part, mem, by simp [Component.ofPart, parent]⟩)

theorem dotted {a b : String} (front : components a = .here :: components b) :
    isAbsolute a = false ∧ isAbsolute b = false ∧ trail a = trail b := by
  rcases componentsCases a with ⟨-, all⟩ | ⟨relative, all | all⟩
  · rw [all] at front
    simp at front
  · rw [all] at front
    have rest := (List.cons.inj front).2
    rcases componentsCases b with ⟨-, all'⟩ | ⟨relative', all' | all'⟩
    · exact absurd (rest.trans all') (trailStart (.inl rfl) _)
    · exact absurd (rest.trans all') (trailStart (.inr rfl) _)
    · exact ⟨relative, relative', rest.trans all'⟩
  · rw [all] at front
    exact absurd front (trailStart (.inr rfl) _)

theorem spelled {a b : String} (kind : isAbsolute a = isAbsolute b) (one : trail a = trail b) :
    same a b = true ∨ components a = .here :: components b ∨
      components b = .here :: components a := by
  rw [sameIff]
  rcases componentsCases a with ⟨absolute, all⟩ | ⟨relative, all | all⟩
  · rcases componentsCases b with ⟨-, all'⟩ | ⟨relative', -⟩
    · exact .inl (by rw [all, all', one])
    · simp [absolute, relative'] at kind
  · rcases componentsCases b with ⟨absolute, -⟩ | ⟨-, all' | all'⟩
    · simp [relative, absolute] at kind
    · exact .inl (by rw [all, all', one])
    · exact .inr (.inl (by rw [all, all', one]))
  · rcases componentsCases b with ⟨absolute, -⟩ | ⟨-, all' | all'⟩
    · simp [relative, absolute] at kind
    · exact .inr (.inr (by rw [all, all', one]))
    · exact .inl (by rw [all, all', one])

end Path

namespace Tree

theorem enterNames (names before : Names) :
    (names.map Component.name).foldl enter before = before ++ names := by
  induction names generalizing before with
  | nil => simp
  | cons n names ih =>
    rw [List.map_cons, List.foldl_cons, enter, ih]
    simp

theorem targetPlain (base : Names) {path : String} {names : Names}
    (all : trail path = names.map Component.name) :
    target base path = if isAbsolute path then names else base ++ names := by
  rw [targetTrail, startAbsolute, all, enterNames]
  split <;> simp

def NamesInFull (base : Names) (a b : String) : Prop :=
  isAbsolute b = false ∧ components a = .root :: (base.map Component.name ++ trail b)

instance (base : Names) (a b : String) : Decidable (NamesInFull base a b) :=
  inferInstanceAs (Decidable (_ ∧ _))

theorem NamesInFull.unlike {base : Names} {a b : String} (full : NamesInFull base a b) :
    Path.same a b = false := by
  obtain ⟨relative, all⟩ := full
  rw [← Bool.not_eq_true, Path.sameIff, all]
  intro same
  rcases Path.componentsCases b with ⟨absolute, -⟩ | ⟨-, dotted | plain⟩
  · simp [relative] at absolute
  · rw [dotted] at same
    cases same
  · rw [plain] at same
    exact Path.trailStart (.inl rfl) _ same.symm

section
variable (base : Names) {a b : String} (plain : .parent ∉ components a)
  (plain' : .parent ∉ components b)
include plain plain'

theorem fullSame (absolute : isAbsolute a = true) (relative : isAbsolute b = false) :
    target base a = target base b ↔ NamesInFull base a b := by
  obtain ⟨names, all⟩ := Path.trailNames plain
  obtain ⟨names', all'⟩ := Path.trailNames plain'
  have front : components a = .root :: trail a := by
    rcases Path.componentsCases a with ⟨-, own⟩ | ⟨other, -⟩
    · exact own
    · simp [absolute] at other
  have injective : ∀ x y, Component.name x = Component.name y → x = y := fun x y => Component.name.inj
  rw [NamesInFull, targetPlain base all, targetPlain base all', front, all, all', absolute, relative,
    ← List.map_append, List.cons.injEq, List.map_inj_right injective]
  simp

theorem togetherPlain :
    ¬ Apart base a b ↔ (isAbsolute a = isAbsolute b ∧ trail a = trail b) ∨
      NamesInFull base a b ∨ NamesInFull base b a := by
  have here : ¬ Apart base a b ↔ target base a = target base b := Classical.not_not
  rw [here]
  obtain ⟨names, all⟩ := Path.trailNames plain
  obtain ⟨names', all'⟩ := Path.trailNames plain'
  have injective : ∀ x y, Component.name x = Component.name y → x = y := fun x y => Component.name.inj
  have alike : trail a = trail b ↔ names = names' := by
    rw [all, all', List.map_inj_right injective]
  -- Paths of one kind start at one place; else one of them starts at the root.
  cases absolute : isAbsolute a with
  | true =>
    cases absolute' : isAbsolute b with
    | true =>
      rw [targetPlain base all, targetPlain base all', alike]
      simp [absolute, absolute', NamesInFull]
    | false =>
      rw [fullSame base plain plain' absolute absolute']
      simp [NamesInFull, absolute]
  | false =>
    cases absolute' : isAbsolute b with
    | true =>
      rw [eq_comm, fullSame base plain' plain absolute' absolute]
      simp [NamesInFull, absolute']
    | false =>
      have relative : ∀ {x y : String}, isAbsolute x = false → ¬ NamesInFull base x y := by
        intro x y own full
        rcases Path.componentsCases x with ⟨other, -⟩ | ⟨-, dotted | bare⟩
        · simp [own] at other
        · rw [NamesInFull, dotted] at full
          simp at full
        · rw [NamesInFull, bare] at full
          exact Path.trailStart (.inl rfl) _ full.2
      rw [targetPlain base all, targetPlain base all', alike]
      simp [absolute, absolute', relative absolute, relative absolute']

end
end Tree

namespace Report

theorem mergedFrom {report : Report} {g : Group} (mem : g ∈ report.merged) :
    ∃ h ∈ report, h.path = g.path := by
  have inside : g.path ∈ paths report.merged := List.mem_map_of_mem mem
  rw [mergedPaths] at inside
  obtain none | added := Path.addedFrom inside
  · contradiction
  · exact List.mem_map.mp added

theorem mergedHolds {report : Report} {g : Group} (mem : g ∈ report) :
    ∃ h ∈ report.merged, Path.same h.path g.path = true := by
  have inside : g.path ∈ paths report := List.mem_map_of_mem mem
  obtain ⟨kept, added, equal⟩ := Path.addedSame inside []
  rw [← mergedPaths] at added
  obtain ⟨h, merged, rfl⟩ := List.mem_map.mp added
  exact ⟨h, merged, equal⟩

theorem mergedUnlike (report : Report) :
    report.merged.Pairwise fun g h => Path.same g.path h.path = false := by
  have unlike : Path.Unlike (paths report.merged) := by
    rw [mergedPaths]
    exact Path.allUnlike List.Pairwise.nil _
  exact List.pairwise_map.mp unlike

def FilesApart (base : Names) (report : Report) : Prop :=
  report.Pairwise fun g h => Tree.Apart base g.path h.path

instance (base : Names) (report : Report) : Decidable (FilesApart base report) :=
  inferInstanceAs (Decidable (report.Pairwise fun g h => Tree.Apart base g.path h.path))

theorem mergedApart (base : Names) (report : Report) :
    FilesApart base report.merged ↔ ∀ g ∈ report, ∀ h ∈ report, ¬ Tree.Apart base g.path h.path →
      Path.same g.path h.path = true := by
  constructor
  · intro apart g inG h inH together
    obtain ⟨g', inG', sameG⟩ := mergedHolds inG
    obtain ⟨h', inH', sameH⟩ := mergedHolds inH
    -- Both have been merged into groups of their file, and there is only one such group.
    have together' : ¬ Tree.Apart base g'.path h'.path := by
      unfold Tree.Apart at together ⊢
      rwa [Tree.targetSame base sameG, Tree.targetSame base sameH]
    have symmetric : Std.Symm fun g h : Group => Tree.Apart base g.path h.path :=
      ⟨fun _ _ => Tree.Apart.symm⟩
    have equal : g' = h' := by
      by_contra different
      exact together' (List.Pairwise.forall apart inG' inH' different)
    subst equal
    rw [Path.sameIff] at sameG sameH ⊢
    exact sameG.symm.trans sameH
  · intro spelled
    refine (mergedUnlike report).imp_of_mem ?_
    intro g h inG inH unlike
    obtain ⟨g', inG', pathG⟩ := mergedFrom inG
    obtain ⟨h', inH', pathH⟩ := mergedFrom inH
    by_contra together
    rw [← pathG, ← pathH] at together unlike
    simp [spelled g' inG' h' inH' together] at unlike

/-- One group is left for each file exactly if the report gives no file different paths. Where no
path goes up, this is to say that no file is spelled both with a dot in front and without, nor both
from the root and from the working directory. -/
theorem mergedFilesIff (base : Names) (report : Report) :
    (FilesApart base report.merged ↔
      ∀ g ∈ report, ∀ h ∈ report, ¬ Tree.Apart base g.path h.path →
        Path.same g.path h.path = true) ∧
    ((∀ g ∈ report, .parent ∉ components g.path) →
      (FilesApart base report.merged ↔ ∀ g ∈ report, ∀ h ∈ report,
        components g.path ≠ .here :: components h.path ∧
        ¬ Tree.NamesInFull base g.path h.path)) := by
  refine ⟨mergedApart base report, ?_⟩
  intro plain
  rw [mergedApart]
  constructor
  · intro spelled g inG h inH
    have together := Tree.togetherPlain base (plain g inG) (plain h inH)
    constructor
    · intro front
      obtain ⟨relative, relative', one⟩ := Path.dotted front
      have equal := Path.sameIff.mp
        (spelled g inG h inH (together.mpr (.inl ⟨relative.trans relative'.symm, one⟩)))
      rw [equal] at front
      simpa using congrArg List.length front
    · intro full
      have equal := spelled g inG h inH (together.mpr (.inr (.inl full)))
      simp [full.unlike] at equal
  · intro spelled g inG h inH together
    rcases (Tree.togetherPlain base (plain g inG) (plain h inH)).mp together with
      ⟨kind, one⟩ | full | full
    · rcases Path.spelled kind one with equal | front | front
      · exact equal
      · exact absurd front (spelled g inG h inH).1
      · exact absurd front (spelled h inH g inG).1
    · exact absurd full (spelled g inG h inH).2
    · exact absurd full (spelled h inH g inG).2

def undottedReport : Report :=
  [⟨"/work/src/a.ts", []⟩, ⟨"/work/src/.//a.ts", []⟩, ⟨"b.ts", []⟩, ⟨"//work/src/a.ts/", []⟩]

theorem mergedFilesUndotted :
    (∀ g ∈ undottedReport, .parent ∉ components g.path) ∧
    paths undottedReport.merged = ["/work/src/a.ts", "b.ts"] ∧
    FilesApart ["work".toList] undottedReport.merged := by
  have plain : ∀ g ∈ undottedReport, .parent ∉ components g.path := by decide +kernel
  have spelled : ∀ g ∈ undottedReport, ∀ h ∈ undottedReport,
      components g.path ≠ .here :: components h.path ∧
      ¬ Tree.NamesInFull ["work".toList] g.path h.path := by decide +kernel
  exact ⟨plain, by decide +kernel,
    ((mergedFilesIff ["work".toList] undottedReport).2 plain).mpr spelled⟩

def dottedReport : Report := [⟨"a.ts", []⟩, ⟨"./a.ts", []⟩]

theorem dottedTwice :
    paths dottedReport.merged = ["a.ts", "./a.ts"] ∧
    ∀ base, Tree.target base "a.ts" = base ++ ["a.ts".toList] ∧
      Tree.target base "./a.ts" = base ++ ["a.ts".toList] ∧
      ¬ FilesApart base dottedReport.merged := by
  have merged : dottedReport.merged = dottedReport := by decide +kernel
  refine ⟨by decide +kernel, ?_⟩
  intro base
  have plain : Tree.target base "a.ts" = base ++ ["a.ts".toList] := rfl
  have dotted : Tree.target base "./a.ts" = base ++ ["a.ts".toList] := rfl
  refine ⟨plain, dotted, ?_⟩
  rw [merged]
  simp [FilesApart, dottedReport, Tree.Apart, plain, dotted]

end Report
end LintRemedy
