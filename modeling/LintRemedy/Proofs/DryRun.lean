import LintRemedy.Proofs.Faults
import LintRemedy.Proofs.Schedules

/-!
Dry runs. A dry run mends every text as a real one does and keeps the outcome to itself, so it meets
each file as it was at first. A real run over different files meets them so too, and the results are
the same but for the word that says whether a file has been written, unless the system refuses to
replace one. Hence a dry run tells what a real one would do to every file, and a check tells how it
would end.
-/
namespace LintRemedy

def FileStatus.rehearsed : FileStatus → FileStatus
  | .written => .wouldWrite
  | s => s

namespace FileResult

def rehearsed (r : FileResult) : FileResult := { r with status := r.status.rehearsed }

theorem rehearsedFailed (r : FileResult) : r.rehearsed.isFailed = r.isFailed := by
  obtain ⟨path, before, after, status, edits, skipped⟩ := r
  cases status <;> rfl

theorem rehearsedWrites {r : FileResult} (real : r.status ≠ .wouldWrite) :
    r.rehearsed.status = .wouldWrite ↔ r.status = .written := by
  obtain ⟨path, before, after, status, edits, skipped⟩ := r
  cases status with
  | written => exact ⟨fun _ => rfl, fun _ => rfl⟩
  | unchanged => exact ⟨fun other => by contradiction, fun other => by contradiction⟩
  | wouldWrite => exact absurd rfl real
  | failed cause => exact ⟨fun other => by contradiction, fun other => by contradiction⟩

end FileResult

namespace Tree

theorem reviseElsewhere {tree : Tree} {path : String} {o : Option Text}
    (readable : ∀ {t}, o = some t → ∃ old, tree.read path = .ok old) {names : Names}
    (other : target tree.base path = names → o = none) :
    (tree.revise path o).entryAt? names = tree.entryAt? names := by
  cases o with
  | none => rfl
  | some t =>
    obtain ⟨old, held⟩ := readable rfl
    rw [revise, writeEntry held, if_neg]
    intro same
    cases other same.symm

theorem readEntry {tree : Tree} {path : String} {t : Text} (held : tree.read path = .ok t) :
    tree.entryAt? (target tree.base path) = some (.file (.text t)) :=
  (contentIff.mp (readContent.mp held)).2.1

end Tree

namespace Mender
open LintRemedy.Tree (Apart)

section
variable (m : Mender) (g : Group) (x : Outlook)

theorem dryUnwritten (y : Except IoFailure Text) :
    ((m.withDry true).resultOf g y).status ≠ .written := by
  cases y with
  | error cause => simp [resultOf]
  | ok t =>
    have dry : (m.withDry true).options.dryRun = true := rfl
    by_cases kept : ((m.withDry true).mend t g.diagnostics).text = t
    · simp [resultOf, kept]
    · simp [resultOf, kept, dry]

theorem resultDry (y : Except IoFailure Text) :
    (m.withDry true).resultOf g y = ((m.withDry false).resultOf g y).rehearsed := by
  cases y with
  | error cause => rfl
  | ok t =>
    have mended : (m.withDry true).mend t g.diagnostics = (m.withDry false).mend t g.diagnostics :=
      rfl
    simp only [resultOf, mended, FileResult.rehearsed]
    by_cases kept : ((m.withDry false).mend t g.diagnostics).text = t
    · simp only [kept, ↓reduceIte]
      rfl
    · simp only [kept, ↓reduceIte]
      rfl

variable {x} in
theorem fileResultDry (free : x.bar? = none) :
    (m.withDry true).fileResult g x = ((m.withDry false).fileResult g x).rehearsed := by
  unfold fileResult
  have same : (m.withDry true).options.excludes g.path = (m.withDry false).options.excludes g.path :=
    rfl
  have stored : ∀ r : FileResult, r.stored x.answer = r := by
    intro r
    rw [Outlook.answer, free]
    rfl
  rw [same]
  split
  · rfl
  · simp only [stored, ite_self]
    exact m.resultDry g x.read

theorem fileResultReal : ((m.withDry false).fileResult g x).status ≠ .wouldWrite := by
  unfold fileResult
  split
  · simp [leave]
  · by_cases written : ((m.withDry false).resultOf g x.read).status = .written
    · simp only [written, ↓reduceIte]
      cases x.answer with
      | ok done => simp [FileResult.stored, written]
      | error cause => simp [FileResult.stored]
    · simp only [written, ↓reduceIte]
      cases x.read with
      | error cause => simp [resultOf]
      | ok t =>
        have real : (m.withDry false).options.dryRun = false := rfl
        by_cases kept : ((m.withDry false).mend t g.diagnostics).text = t
        · simp [resultOf, kept]
        · simp [resultOf, kept, real]

theorem newTextDry : (m.withDry true).newText g x = none := by
  unfold newText fileResult
  rw [if_neg]
  split
  · simp [leave]
  · simp [m.dryUnwritten g x.read]

theorem fileResultPath : (m.fileResult g x).path = g.path := by
  unfold fileResult
  split
  · rfl
  · have own : (m.resultOf g x.read).path = g.path := by cases x.read <;> rfl
    dsimp only
    split
    · cases x.answer <;> exact own
    · exact own

variable {m g x}

theorem writtenAnew (written : (m.fileResult g x).status = .written) :
    ∃ old, x.read = .ok old ∧ old ≠ (m.fileResult g x).after := by
  unfold fileResult at written ⊢
  split at written
  · simp [leave] at written
  · rename_i included
    rw [if_neg included]
    have first : (m.resultOf g x.read).status = .written := by
      by_contra other
      rw [if_neg other] at written
      exact other written
    rw [if_pos first, storedAfter]
    obtain ⟨old, readable⟩ := writtenReadable first
    rw [readable] at first ⊢
    refine ⟨old, rfl, ?_⟩
    intro same
    have kept : (m.mend old g.diagnostics).text = old := same.symm
    simp [resultOf, kept] at first

theorem dryWrites (free : x.bar? = none) :
    ((m.withDry true).fileResult g x).status = .wouldWrite ↔
      ((m.withDry false).fileResult g x).status = .written := by
  rw [fileResultDry m g free]
  exact FileResult.rehearsedWrites (m.fileResultReal g x)

theorem newTextIff {t : Text} :
    m.newText g x = some t ↔
      (m.fileResult g x).status = .written ∧ (m.fileResult g x).after = t := by
  unfold newText
  split
  · rename_i written
    simp [written]
  · rename_i other
    simp [other]

end

theorem mendFileTree (m : Mender) (g : Group) (tree : Tree) :
    (m.mendFile Tree.fileSystem g).run tree =
      (m.fileResult g (tree.outlook g.path),
        tree.revise g.path (m.newText g (tree.outlook g.path))) := by
  rw [← mendFileComplete, (m.mendFileLocal g (tree.outlook g.path)).acts rfl]

theorem mendAllCons (m : Mender) (g : Group) (groups : List Group) (tree : Tree) :
    (m.mendAll Tree.fileSystem (g :: groups)).run tree =
      (let (rs, after) := (m.mendAll Tree.fileSystem groups).run
        (tree.revise g.path (m.newText g (tree.outlook g.path)))
       (m.fileResult g (tree.outlook g.path) :: rs, after)) := by
  have step : (m.mendAll Tree.fileSystem (g :: groups)).run tree =
      (let (r, next) := (m.mendFile Tree.fileSystem g).run tree
       let (rs, after) := (m.mendAll Tree.fileSystem groups).run next
       (r :: rs, after)) := rfl
  rw [step, mendFileTree]

theorem mendAllBase (m : Mender) (groups : List Group) (tree : Tree) :
    ((m.mendAll Tree.fileSystem groups).run tree).2.base = tree.base := by
  induction groups generalizing tree with
  | nil => rfl
  | cons g groups ih =>
    rw [mendAllCons]
    exact (ih _).trans (tree.reviseBase g.path _)

theorem mendAllDry (m : Mender) (groups : List Group) (tree : Tree) :
    ((m.withDry true).mendAll Tree.fileSystem groups).run tree =
      (groups.map fun g => (m.withDry true).fileResult g (tree.outlook g.path), tree) := by
  induction groups with
  | nil => rfl
  | cons g groups ih =>
    rw [mendAllCons, newTextDry, Tree.revise, ih]
    rfl

section
variable (m : Mender) {groups : List Group} {tree : Tree}
  (apart : groups.Pairwise fun g h => Apart tree.base g.path h.path)
include apart

theorem mendAllFiles :
    ((m.mendAll Tree.fileSystem groups).run tree).1 =
      groups.map (fun g => m.fileResult g (tree.outlook g.path)) ∧
    ∀ g ∈ groups, ((m.mendAll Tree.fileSystem groups).run tree).2.content g.path =
      Tree.heldAfter (tree.content g.path) (m.newText g (tree.outlook g.path)) := by
  rw [← mendAllInOrder]
  exact m.inOrderFiles apart

theorem mendAllElsewhere {names : Names}
    (idle : ∀ g ∈ groups, Tree.target tree.base g.path = names →
      m.newText g (tree.outlook g.path) = none) :
    ((m.mendAll Tree.fileSystem groups).run tree).2.entryAt? names = tree.entryAt? names := by
  induction groups generalizing tree with
  | nil => rfl
  | cons g groups ih =>
    obtain ⟨others, apart'⟩ := List.pairwise_cons.mp apart
    have first := m.mendFileLocal g (tree.outlook g.path)
    have base := tree.reviseBase g.path (m.newText g (tree.outlook g.path))
    rw [mendAllCons]
    -- The later files are apart from the first, so they have the outlook that they had at the start.
    refine (ih (base.symm ▸ apart') ?_).trans ?_
    · intro h mem place
      rw [first.outlook rfl (others h mem)]
      exact idle h (by simp [mem]) (base ▸ place)
    · exact Tree.reviseElsewhere first.readable (idle g (by simp))

theorem realStatus :
    ∀ r ∈ (((m.withDry false).mendAll Tree.fileSystem groups).run tree).1,
      r.status ≠ .wouldWrite := by
  intro r mem
  rw [((m.withDry false).mendAllFiles apart).1] at mem
  obtain ⟨g, -, rfl⟩ := List.mem_map.mp mem
  exact m.fileResultReal g _

variable (free : ∀ g ∈ groups, tree.bar? g.path = none)
include free

theorem dryAsReal :
    (((m.withDry true).mendAll Tree.fileSystem groups).run tree).1 =
      (((m.withDry false).mendAll Tree.fileSystem groups).run tree).1.map FileResult.rehearsed := by
  rw [mendAllDry, ((m.withDry false).mendAllFiles apart).1, List.map_map]
  apply List.map_congr_left
  intro g mem
  exact m.fileResultDry g (free g mem)

theorem dryTexts :
    ∀ r ∈ (((m.withDry true).mendAll Tree.fileSystem groups).run tree).1, r.status = .wouldWrite →
      (((m.withDry false).mendAll Tree.fileSystem groups).run tree).2.read r.path = .ok r.after ∧
      ∃ old, tree.read r.path = .ok old ∧ old ≠ r.after := by
  intro r mem writes
  rw [mendAllDry] at mem
  obtain ⟨g, inside, rfl⟩ := List.mem_map.mp mem
  have written := (dryWrites (free g inside)).mp writes
  have after : ((m.withDry true).fileResult g (tree.outlook g.path)).after =
      ((m.withDry false).fileResult g (tree.outlook g.path)).after := by
    rw [m.fileResultDry g (free g inside)]
    rfl
  have held := ((m.withDry false).mendAllFiles apart).2 g inside
  rw [newTextIff.mpr ⟨written, rfl⟩] at held
  rw [fileResultPath, after]
  exact ⟨Tree.readContent.mpr held, writtenAnew written⟩

theorem realChanges (names : Names) :
    (((m.withDry false).mendAll Tree.fileSystem groups).run tree).2.entryAt? names ≠
      tree.entryAt? names ↔
      ∃ r ∈ (((m.withDry true).mendAll Tree.fileSystem groups).run tree).1,
        r.status = .wouldWrite ∧ Tree.target tree.base r.path = names := by
  constructor
  · intro changed
    by_contra none
    -- If no file there would be written, no group has a new text for it.
    refine changed ((m.withDry false).mendAllElsewhere apart ?_)
    intro g mem place
    by_contra some
    obtain ⟨t, new⟩ := Option.ne_none_iff_exists'.mp some
    refine none ⟨(m.withDry true).fileResult g (tree.outlook g.path), ?_, ?_, ?_⟩
    · rw [mendAllDry]
      exact List.mem_map_of_mem mem
    · exact (dryWrites (free g mem)).mpr (newTextIff.mp new).1
    · rw [fileResultPath]
      exact place
  · rintro ⟨r, mem, writes, rfl⟩ same
    obtain ⟨now, old, before, anew⟩ := m.dryTexts apart free r mem writes
    have base : (((m.withDry false).mendAll Tree.fileSystem groups).run tree).2.base = tree.base :=
      mendAllBase _ groups tree
    have entry := Tree.readEntry now
    rw [base, same, Tree.readEntry before] at entry
    injection entry with file
    injection file with content
    injection content with text
    exact anew text

end

end Mender

namespace Command
open CommandLine (Format)

theorem fixExitRehearsed {real : List FileResult} (wrote : ∀ r ∈ real, r.status ≠ .wouldWrite) :
    fixExit (real.map FileResult.rehearsed) true =
      if real.any (fun r => r.isFailed || r.status == .written) then 1 else 0 := by
  have same : ((real.map FileResult.rehearsed).any FileResult.isFailed ||
      (true && (real.map FileResult.rehearsed).any fun r => r.status == .wouldWrite)) =
      real.any fun r => r.isFailed || r.status == .written := by
    induction real with
    | nil => rfl
    | cons r real ih =>
      have rest := ih fun r mem => wrote r (by simp [mem])
      have first : (r.rehearsed.status == .wouldWrite) = (r.status == .written) := by
        rw [Bool.eq_iff_iff, beq_iff_eq, beq_iff_eq]
        exact FileResult.rehearsedWrites (wrote r (by simp))
      rw [List.any_cons, ← rest, List.map_cons, List.any_cons, List.any_cons, first,
        FileResult.rehearsedFailed]
      cases r.isFailed <;> cases r.status == .written <;> simp
  unfold fixExit
  rw [same]

/-- Where the groups of a report are about different files and the system does not refuse to replace
them, a dry run or a check leaves the tree as it is and gives the results of a real run, with a file
that would be written for one that was. The entries that a real run changes are those of the files
that would be written, and these get the texts of the dry run. A check ends with code 1 if a real run
has a file that failed or was written, and with 0 if it has none. -/
theorem dryRunPredicts (tree : Tree) (config : Option String) (report : String) {c : Config}
    {m : Mender} {groups : Report}
    (loaded : (prepare Tree.fileSystem config report).run tree = (.ok (c, m, groups), tree))
    (apart : groups.merged.FilesApart tree.base)
    (free : ∀ g ∈ groups.merged, tree.bar? g.path = none) :
    let dry := (((m.withDry true).mendReport Tree.fileSystem groups).run tree).1
    let real := (((m.withDry false).mendReport Tree.fileSystem groups).run tree).1
    let after := (((m.withDry false).mendReport Tree.fileSystem groups).run tree).2
    (∀ format dryRun check, (dryRun || check) = true →
      (fix Tree.fileSystem config report format dryRun check).run tree =
        (.finished (fixExit dry check) (fixOutput format dry true), tree)) ∧
    (∀ format, (fix Tree.fileSystem config report format false false).run tree =
      (.finished (fixExit real false) (fixOutput format real false), after)) ∧
    dry = real.map FileResult.rehearsed ∧ (∀ r ∈ real, r.status ≠ .wouldWrite) ∧
    (∀ names, after.entryAt? names ≠ tree.entryAt? names ↔
      ∃ r ∈ dry, r.status = .wouldWrite ∧ Tree.target tree.base r.path = names) ∧
    (∀ r ∈ dry, r.status = .wouldWrite → after.read r.path = .ok r.after) ∧
    ∀ format dryRun, ((fix Tree.fileSystem config report format dryRun true).run tree).1.exit =
      if real.any (fun r => r.isFailed || r.status == .written) then 1 else 0 := by
  intro dry real after
  have rehearsed : dry = real.map FileResult.rehearsed := m.dryAsReal apart free
  have wrote : ∀ r ∈ real, r.status ≠ .wouldWrite := m.realStatus apart
  have still : (((m.withDry true).mendReport Tree.fileSystem groups).run tree).2 = tree :=
    congrArg Prod.snd (m.mendAllDry groups.merged tree)
  have dries : ∀ format dryRun check, (dryRun || check) = true →
      (fix Tree.fileSystem config report format dryRun check).run tree =
        (.finished (fixExit dry check) (fixOutput format dry true), tree) := by
    intro format dryRun check either
    rw [fixAccepted loaded, either]
    exact Prod.ext rfl still
  refine ⟨dries, ?_, rehearsed, wrote, m.realChanges apart free, ?_, ?_⟩
  · intro format
    rw [fixAccepted loaded]
    rfl
  · intro r mem writes
    exact (m.dryTexts apart free r mem writes).1
  · intro format dryRun
    rw [dries format dryRun true (by simp), rehearsed, fixExitRehearsed wrote]
    rfl

def pendingTree : Tree where
  base := ["tmp".toList, "work".toList]
  entries :=
    [(["tmp".toList, "work".toList, "a.ts".toList], .file (.text "let a: any;".toList)),
      (["tmp".toList, "b.ts".toList], .file (.text "let b;".toList)),
      (["tmp".toList, "work".toList, "r.json".toList],
        .file (.text ("[\x7b\"filePath\": \"/tmp/work/a.ts\", \"messages\": ".toList ++
          "[\x7b\"ruleId\": \"@typescript-eslint/".toList ++
          "no-explicit-any\"\x7d]\x7d, ".toList ++ "\x7b\"filePath\": \"gone.ts\"\x7d, ".toList ++
          "\x7b\"filePath\": \"../b.ts\"\x7d]".toList)))]
  refusals := []

theorem dryRunPredictsPending :
    ∃ c m groups, (prepare Tree.fileSystem none "/tmp/work/r.json").run pendingTree =
        (.ok (c, m, groups), pendingTree) ∧
      groups.merged.FilesApart pendingTree.base ∧
      (∀ g ∈ groups.merged, pendingTree.bar? g.path = none) ∧
      (((m.withDry true).mendReport Tree.fileSystem groups).run pendingTree).1.map
        (fun r => (r.path, r.status)) =
        [("/tmp/work/a.ts", .wouldWrite), ("gone.ts", .failed .missing), ("../b.ts", .unchanged)] ∧
      ((fix Tree.fileSystem none "/tmp/work/r.json" .text true false).run pendingTree).2 =
        pendingTree ∧
      Tree.entryAt? ((fix Tree.fileSystem none "/tmp/work/r.json" .text false false).run pendingTree).2
        ["tmp".toList, "work".toList, "a.ts".toList] ≠
          pendingTree.entryAt? ["tmp".toList, "work".toList, "a.ts".toList] ∧
      ((fix Tree.fileSystem none "/tmp/work/r.json" .json false true).run pendingTree).1.exit = 1 := by
  have sound : faults pendingTree none "/tmp/work/r.json" = [] := by decide +kernel
  obtain ⟨c, m, groups, loaded⟩ := prepareAccepted sound
  have expected : (match ((prepare Tree.fileSystem none "/tmp/work/r.json").run pendingTree).1 with
      | .ok (_, m, groups) => decide (groups.merged.FilesApart pendingTree.base ∧
        (∀ g ∈ groups.merged, pendingTree.bar? g.path = none) ∧
        (((m.withDry true).mendReport Tree.fileSystem groups).run pendingTree).1.map
          (fun r => (r.path, r.status)) =
          [("/tmp/work/a.ts", .wouldWrite), ("gone.ts", .failed .missing), ("../b.ts", .unchanged)])
      | .error _ => false) = true := by decide +kernel
  rw [loaded] at expected
  obtain ⟨apart, free, results⟩ := of_decide_eq_true expected
  obtain ⟨dries, reals, rehearsed, wrote, changes, -, exits⟩ :=
    dryRunPredicts pendingTree none "/tmp/work/r.json" loaded apart free
  have first : ("/tmp/work/a.ts", FileStatus.wouldWrite) ∈
      (((m.withDry true).mendReport Tree.fileSystem groups).run pendingTree).1.map
        (fun r => (r.path, r.status)) := by
    rw [results]
    simp
  obtain ⟨r, dry, pair⟩ := List.mem_map.mp first
  obtain ⟨path, writes⟩ := Prod.mk.inj pair
  refine ⟨c, m, groups, loaded, apart, free, results, ?_, ?_, ?_⟩
  · rw [dries .text true false rfl]
  · rw [reals .text, changes]
    exact ⟨r, dry, writes, by rw [path]; decide +kernel⟩
  · rw [exits, if_pos]
    rw [rehearsed] at dry
    obtain ⟨r', real, rfl⟩ := List.mem_map.mp dry
    have written := (FileResult.rehearsedWrites (wrote r' real)).mp writes
    exact List.any_eq_true.mpr ⟨r', real, by simp [written]⟩

end Command
end LintRemedy
