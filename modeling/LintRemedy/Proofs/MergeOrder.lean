import LintRemedy.Proofs.FileCounts

/-!
What merging makes of a report. The groups that are left are those whose path no group before them
has, as they spell it and in their order, and each has the findings of all groups of its path. A map
from paths to places finds the group that takes in another as a search does. The results of mending
follow the merged groups, in whatever order the files are worked on.
-/
namespace LintRemedy
open LintRemedy.Path (Component components parts trail isAbsolute)

namespace Path

def startsHere (path : String) : Bool := (parts path).head? == some ['.']

def steps (path : String) : List Text := (parts path).filter fun p => p != [] && p != ['.']

def startOf (absolute here : Bool) : List Component :=
  if absolute then [.root] else if here then [.here] else []

theorem componentsStart (path : String) :
    components path = startOf (isAbsolute path) (startsHere path) ++ trail path := by
  unfold components startOf
  split
  case h_1 slash => simp [isAbsolute, slash, trail]
  case h_2 dot relative =>
    have here : startsHere path = true := by simp [startsHere, dot]
    rw [relativeHead relative, here]
    simp [dot, trail]
  case h_3 relative plain =>
    have other : startsHere path = false := by
      rw [startsHere, beq_eq_false_iff_ne]
      intro dot
      obtain ⟨rest, all⟩ := List.head?_eq_some_iff.mp dot
      exact plain rest all
    rw [relativeHead relative, other]
    rfl

theorem absoluteStart {path : String} (absolute : isAbsolute path = true) :
    startsHere path = false := by
  rw [isAbsolute, beq_iff_eq] at absolute
  obtain ⟨rest, text⟩ := List.head?_eq_some_iff.mp absolute
  simp [startsHere, parts, text, Text.splitOn]

theorem rootIff {path : String} : .root ∈ components path ↔ isAbsolute path = true := by
  have later : .root ∉ trail path := fun mem => by simpa using trailComponent mem
  rw [componentsStart, List.mem_append]
  cases isAbsolute path with
  | true => simp [startOf]
  | false => cases startsHere path <;> simp [startOf, later]

theorem hereIff {path : String} : .here ∈ components path ↔ startsHere path = true := by
  have later : .here ∉ trail path := fun mem => by simpa using trailComponent mem
  rw [componentsStart, List.mem_append]
  cases absolute : isAbsolute path with
  | true => simp [startOf, later, absoluteStart absolute]
  | false => cases startsHere path <;> simp [startOf, later]

theorem ofPartInjective : Function.Injective Component.ofPart := by
  intro p q equal
  unfold Component.ofPart at equal
  split at equal
  · rename_i up
    split at equal
    · rename_i up'
      rw [up, up']
    · contradiction
  · split at equal
    · contradiction
    · exact Component.name.inj equal

theorem sameExactly (a b : String) :
    same a b = true ↔
      isAbsolute a = isAbsolute b ∧ startsHere a = startsHere b ∧ steps a = steps b := by
  rw [sameIff]
  constructor
  · intro equal
    have absolute : isAbsolute a = isAbsolute b := by
      rw [Bool.eq_iff_iff, ← rootIff, ← rootIff, equal]
    have here : startsHere a = startsHere b := by
      rw [Bool.eq_iff_iff, ← hereIff, ← hereIff, equal]
    rw [componentsStart, componentsStart, absolute, here] at equal
    have trails : trail a = trail b := List.append_cancel_left equal
    exact ⟨absolute, here, List.map_injective_iff.mpr ofPartInjective trails⟩
  · intro ⟨absolute, here, one⟩
    have trails : trail a = trail b := congrArg (List.map Component.ofPart) one
    rw [componentsStart, componentsStart, absolute, here, trails]

theorem slashText (a x : String) : (a ++ "/" ++ x).toList = a.toList ++ '/' :: x.toList := by simp

theorem partsUnder (a x : String) : parts (a ++ "/" ++ x) = parts a ++ parts x := by
  rw [parts, slashText, Text.splitAppend, parts, parts]

theorem stepsUnder (a x : String) : steps (a ++ "/" ++ x) = steps a ++ steps x := by
  rw [steps, partsUnder, List.filter_append, steps, steps]

theorem sameUnder (a : String) {x y : String} (one : steps x = steps y) :
    same (a ++ "/" ++ x) (a ++ "/" ++ y) = true := by
  have some : parts a ≠ [] := Text.splitOnNonempty '/' a.toList
  rw [sameExactly]
  refine ⟨?_, ?_, ?_⟩
  · rw [isAbsolute, isAbsolute, slashText, slashText, List.head?_append, List.head?_append]
    rfl
  · rw [startsHere, startsHere, partsUnder, partsUnder, List.head?_append_of_ne_nil _ some,
      List.head?_append_of_ne_nil _ some]
  · rw [stepsUnder, stepsUnder, one]

theorem sameSpellings (a b : String) :
    same (a ++ "//" ++ b) (a ++ "/" ++ b) = true ∧ same (a ++ "/./" ++ b) (a ++ "/" ++ b) = true ∧
    same (a ++ "/" ++ b ++ "/") (a ++ "/" ++ b) = true := by
  have none : steps "" = [] := by decide +kernel
  have here : steps "." = [] := by decide +kernel
  refine ⟨?_, ?_, ?_⟩
  · have split : a ++ "//" ++ b = a ++ "/" ++ ("" ++ "/" ++ b) := by
      apply String.toList_inj.mp
      simp
    rw [split]
    exact sameUnder a (by rw [stepsUnder, none, List.nil_append])
  · have split : a ++ "/./" ++ b = a ++ "/" ++ ("." ++ "/" ++ b) := by
      apply String.toList_inj.mp
      simp
    rw [split]
    exact sameUnder a (by rw [stepsUnder, here, List.nil_append])
  · have split : a ++ "/" ++ b ++ "/" = a ++ "/" ++ (b ++ "/" ++ "") := by
      apply String.toList_inj.mp
      simp
    rw [split]
    exact sameUnder a (by rw [stepsUnder, none, List.append_nil])

end Path

namespace Report

def takeIn (g h : Group) : Group := { h with diagnostics := h.diagnostics ++ g.diagnostics }

theorem addGroupAt (g : Group) (report : Report) :
    report.addGroup g = match report.findIdx? fun h => Path.same h.path g.path with
      | some i => report.modify i (takeIn g)
      | none => report ++ [g] := by
  induction report with
  | nil => rfl
  | cons h report ih =>
    rw [addGroup, List.findIdx?_cons]
    split
    · rfl
    · rw [ih]
      cases report.findIdx? fun h => Path.same h.path g.path with
      | none => rfl
      | some i => rfl

/-- Groups, with a map that tells for the components of a path where its group stands. -/
structure Indexed where
  groups : Report := []
  places : Std.HashMap (List Component) Nat := ∅

namespace Indexed

def add (x : Indexed) (g : Group) : Indexed :=
  match x.places[components g.path]? with
  | some i => { x with groups := x.groups.modify i (takeIn g) }
  | none => ⟨x.groups ++ [g], x.places.insert (components g.path) x.groups.length⟩

def Finds (x : Indexed) : Prop :=
  ∀ path, x.places[components path]? = x.groups.findIdx? fun h => Path.same h.path path

theorem addGroups {x : Indexed} (finds : x.Finds) (g : Group) :
    (x.add g).groups = x.groups.addGroup g := by
  rw [addGroupAt, ← finds, add]
  split <;> rfl

theorem findPaths (groups : Report) (path : String) :
    groups.findIdx? (fun h => Path.same h.path path) =
      groups.paths.findIdx? fun p => Path.same p path := by
  rw [paths, List.findIdx?_map]
  rfl

theorem addFinds {x : Indexed} (finds : x.Finds) (g : Group) : (x.add g).Finds := by
  intro path
  have found := finds path
  rw [findPaths, addGroups finds, addGroupPaths, Path.addTo]
  rw [findPaths] at found
  have any : x.groups.paths.any (fun p => Path.same p g.path) =
      (x.places[components g.path]?).isSome := by
    rw [finds g.path, findPaths, List.findIdx?_isSome]
  unfold add
  cases at_ : x.places[components g.path]? with
  | some i => simp [any, at_, found]
  | none =>
    have fresh : x.groups.paths.any (fun p => Path.same p g.path) = false := by rw [any, at_]; rfl
    rw [fresh, if_neg Bool.false_ne_true, List.findIdx?_append, ← found,
      Std.HashMap.getElem?_insert]
    cases own : Path.same g.path path with
    | true =>
      have equal : components g.path = components path := Path.sameIff.mp own
      simp [← equal, at_, own, List.findIdx?_cons, paths]
    | false =>
      have other : (components g.path == components path) = false := own
      simp [other, own, List.findIdx?_cons]

theorem addAll (report : Report) {x : Indexed} (finds : x.Finds) :
    (report.foldl add x).groups = report.foldl (fun acc g => acc.addGroup g) x.groups := by
  induction report generalizing x with
  | nil => rfl
  | cons g report ih => rw [List.foldl_cons, ih (addFinds finds g), addGroups finds, List.foldl_cons]

end Indexed

theorem mergedIndexed (report : Report) : (report.foldl Indexed.add {}).groups = report.merged :=
  Indexed.addAll report fun _ => Std.HashMap.getElem?_empty

def firsts (report : Report) : Report :=
  (report.zipIdx.filter fun (g, i) =>
    !(report.take i).any fun h => Path.same h.path g.path).map Prod.fst

def gathered (report : Report) (path : String) : List Diagnostic :=
  (report.filter fun g => Path.same g.path path).flatMap Group.diagnostics

theorem mergedSnoc (report : Report) (g : Group) :
    merged (report ++ [g]) = addGroup g report.merged := by
  rw [merged, List.foldl_append]
  rfl

def joined (g h : Group) : Group :=
  ⟨h.path, h.diagnostics ++ if Path.same h.path g.path then g.diagnostics else []⟩

theorem joinedOther {g h : Group} (other : Path.same h.path g.path = false) : joined g h = h := by
  simp [joined, other]

theorem addGroupJoins {report : Report}
    (unlike : report.Pairwise fun g h => Path.same g.path h.path = false) (g : Group) :
    report.addGroup g =
      report.map (joined g) ++
        if report.any (fun h => Path.same h.path g.path) then [] else [g] := by
  induction report with
  | nil => rfl
  | cons h report ih =>
    obtain ⟨others, unlike'⟩ := List.pairwise_cons.mp unlike
    rw [addGroup, List.map_cons, List.any_cons]
    cases here : Path.same h.path g.path with
    | true =>
      have rest : report.map (joined g) = report := by
        refine (List.map_congr_left ?_).trans (List.map_id report)
        intro k mem
        apply joinedOther
        -- The path of `g` is that of `h`, which no later group has.
        rw [← Path.sameSymm (others k mem), Path.same, Path.same, Path.sameIff.mp here]
      rw [rest, Bool.true_or, if_pos rfl, if_pos rfl, List.append_nil, joined, here, if_pos rfl]
    | false =>
      rw [joinedOther here, Bool.false_or, if_neg Bool.false_ne_true, ih unlike', List.cons_append]

theorem firstsSnoc (report : Report) (g : Group) :
    firsts (report ++ [g]) =
      firsts report ++ if report.any (fun h => Path.same h.path g.path) then [] else [g] := by
  have early : ∀ p ∈ report.zipIdx, (report ++ [g]).take p.2 = report.take p.2 := by
    intro p mem
    have inside : p.2 < report.length := by simpa using List.snd_lt_of_mem_zipIdx mem
    exact List.take_append_of_le_length (Nat.le_of_lt inside)
  unfold firsts
  rw [List.zipIdx_append, List.filter_append, List.map_append]
  congr 1
  · refine congrArg (List.map Prod.fst) (List.filter_congr ?_)
    intro p mem
    simp only [early p mem]
  · have last : (report ++ [g]).take report.length = report := by simp
    simp only [List.zipIdx_singleton, Nat.zero_add, List.filter_singleton, last]
    cases report.any fun h => Path.same h.path g.path with
    | true => rfl
    | false => rfl

theorem gatheredSnoc (report : Report) (g : Group) (path : String) :
    gathered (report ++ [g]) path =
      gathered report path ++ if Path.same g.path path then g.diagnostics else [] := by
  rw [gathered, List.filter_append, List.flatMap_append, List.filter_singleton]
  cases Path.same g.path path with
  | true => simp [gathered]
  | false => simp [gathered]

theorem mergedAny (report : Report) (path : String) :
    report.merged.any (fun h => Path.same h.path path) =
      report.any fun h => Path.same h.path path := by
  rw [Bool.eq_iff_iff, List.any_eq_true, List.any_eq_true]
  constructor
  · rintro ⟨h, mem, equal⟩
    obtain ⟨k, inside, spelled⟩ := mergedFrom mem
    exact ⟨k, inside, spelled ▸ equal⟩
  · rintro ⟨h, mem, equal⟩
    obtain ⟨k, inside, equal'⟩ := mergedHolds mem
    rw [Path.sameIff] at equal equal'
    exact ⟨k, inside, Path.sameIff.mpr (equal'.trans equal)⟩

theorem mergedGathers (report : Report) :
    merged report = (firsts report).map fun g => ⟨g.path, gathered report g.path⟩ := by
  induction report using List.reverseRecOn with
  | nil => rfl
  | append_singleton report g ih =>
    have joins : ∀ f : Group, joined g ⟨f.path, gathered report f.path⟩ =
        ⟨f.path, gathered (report ++ [g]) f.path⟩ := by
      intro f
      have flip : Path.same f.path g.path = Path.same g.path f.path := Bool.beq_comm
      rw [gatheredSnoc, joined, flip]
    rw [mergedSnoc, addGroupJoins (mergedUnlike report), mergedAny, firstsSnoc, List.map_append, ih,
      List.map_map]
    congr 1
    · exact List.map_congr_left fun f _ => joins f
    · split
      · rfl
      · rename_i fresh
        have none : gathered report g.path = [] := by
          have others : report.filter (fun h => Path.same h.path g.path) = [] := by
            simpa using fresh
          rw [gathered, others, List.flatMap_nil]
        have own : Path.same g.path g.path = true := Path.sameIff.mpr rfl
        rw [List.map_singleton, gatheredSnoc, none, if_pos own, List.nil_append]

theorem mergedPathsFirst (report : Report) : paths report.merged = paths report.firsts := by
  rw [mergedGathers, paths, List.map_map]
  rfl

theorem mergedAgain (report : Report) : report.merged.merged = report.merged := by
  have whole : ∀ groups : Report, (groups.Pairwise fun g h => Path.same g.path h.path = false) →
      groups.merged = groups := by
    intro groups
    induction groups using List.reverseRecOn with
    | nil => exact fun _ => rfl
    | append_singleton groups g ih =>
      intro unlike
      obtain ⟨before, -, last⟩ := List.pairwise_append.mp unlike
      have others : ∀ h ∈ groups, Path.same h.path g.path = false :=
        fun h mem => last h mem g (by simp)
      have fresh : groups.any (fun h => Path.same h.path g.path) = false := by
        simpa using others
      have kept : groups.map (joined g) = groups :=
        (List.map_congr_left fun h mem => joinedOther (others h mem)).trans (List.map_id groups)
      rw [mergedSnoc, ih before, addGroupJoins before, kept, fresh, if_neg Bool.false_ne_true]
  exact whole report.merged report.mergedUnlike

end Report

def Work.Answers {α : Type} (P : α → Prop) : Work α → Prop
  | done a => P a
  | ask _ next => ∀ x, (next x).Answers P

theorem Work.Answers.advances {α : Type} {P : α → Prop} {w : Work α} (answers : w.Answers P)
    (tree : Tree) : (w.advance tree).1.Answers P := by
  cases w with
  | done a => exact answers
  | ask q next => exact answers _

theorem Work.Answers.completes {α : Type} {P : α → Prop} {w : Work α} (answers : w.Answers P)
    (tree : Tree) : P (w.complete tree).1 := by
  induction w generalizing tree with
  | done a => exact answers
  | ask q next ih => exact ih _ (answers _) _

namespace Crew
variable {P : Group → FileResult → Prop} {groups : Report}

def Answering (P : Group → FileResult → Prop) (groups : Report) (workers : List (Work FileResult)) :
    Prop :=
  List.Forall₂ (fun g w => w.Answers (P g)) groups workers

theorem turnAnswering {tree : Tree} {workers : List (Work FileResult)}
    (answering : Answering P groups workers) (i : Nat) :
    Answering P groups (turn ⟨tree, workers⟩ i).workers := by
  unfold Answering at answering ⊢
  induction answering generalizing i with
  | nil => exact .nil
  | cons first rest ih =>
    cases i with
    | zero =>
      rw [turnFirst]
      exact .cons (first.advances tree) rest
    | succ i =>
      rw [turnLater]
      exact .cons first (ih i)

theorem runAnswering {crew : Crew} (answering : Answering P groups crew.workers)
    (turns : List Nat) : Answering P groups (crew.run turns).workers := by
  induction turns generalizing crew with
  | nil => exact answering
  | cons i turns ih => exact ih (turnAnswering answering i)

theorem inOrderAnswering {workers : List (Work FileResult)} (answering : Answering P groups workers)
    (tree : Tree) : List.Forall₂ P groups (inOrder workers tree).1 := by
  unfold Answering at answering
  induction answering generalizing tree with
  | nil => exact .nil
  | cons first rest ih => exact .cons (first.completes tree) (ih _)

end Crew

namespace Mender

def Labels (g : Group) (r : FileResult) : Prop := r.path = g.path

theorem crewAnswering (m : Mender) (groups : Report) :
    Crew.Answering Labels groups (groups.map (m.mendFile Work.fileSystem)) := by
  unfold Crew.Answering
  rw [List.forall₂_map_right_iff, List.forall₂_same]
  intro g _
  rw [mendFileWork]
  split
  · exact rfl
  · intro x
    have labelled : Labels g (m.resultOf g x) := by cases x <;> rfl
    simp only
    split
    · intro stored
      cases stored with
      | ok done => exact labelled
      | error cause => exact labelled
    · exact labelled

theorem labelledPaths {groups : Report} {results : List FileResult}
    (labelled : List.Forall₂ Labels groups results) :
    results.map FileResult.path = groups.paths := by
  induction labelled with
  | nil => rfl
  | cons first rest ih => exact congrArg₂ List.cons first ih

theorem mendReportPaths (m : Mender) (tree : Tree) (report : Report) :
    ((m.mendReport Tree.fileSystem report).run tree).1.map FileResult.path =
      report.merged.paths := by
  have inOrder := m.mendAllInOrder report.merged tree
  rw [mendReport, ← inOrder]
  exact labelledPaths (Crew.inOrderAnswering (m.crewAnswering report.merged) tree)

theorem crewPaths (m : Mender) (tree : Tree) (report : Report) {turns : List Nat}
    (finished : ((m.crew tree report).run turns).finished = true) :
    ∃ results : List FileResult, ((m.crew tree report).run turns).workers = results.map .done ∧
      results.map FileResult.path = report.merged.paths := by
  have answering : Crew.Answering Labels report.merged ((m.crew tree report).run turns).workers :=
    Crew.runAnswering (m.crewAnswering report.merged) turns
  obtain ⟨workers, -⟩ := Crew.finishedInOrder finished tree
  exact ⟨_, workers, labelledPaths (Crew.inOrderAnswering answering tree)⟩

end Mender

namespace Report

/-- Merging keeps one group of each path, spelled and placed as the path first appears, with the
findings of all its groups in the order of the report; a second time it changes nothing. Mending has
one result for each of these groups in their order, one file after the other or under any schedule.
Paths are the same that start alike and take the same steps, whatever repeated slashes, inner dots
and slashes at the end they are spelled with. -/
theorem mergedExactly (report : Report) :
    Path.Unlike report.merged.paths ∧ report.merged.paths = report.firsts.paths ∧
    (∀ g ∈ report.merged, g.diagnostics = report.gathered g.path) ∧
    report.merged.merged = report.merged ∧
    (∀ (m : Mender) (tree : Tree),
      ((m.mendReport Tree.fileSystem report).run tree).1.map FileResult.path =
        report.firsts.paths) ∧
    (∀ (m : Mender) (tree : Tree) (turns : List Nat),
      ((m.crew tree report).run turns).finished = true →
      ∃ results : List FileResult, ((m.crew tree report).run turns).workers = results.map .done ∧
        results.map FileResult.path = report.firsts.paths) ∧
    (∀ a b : String, Path.same a b = true ↔ Path.isAbsolute a = Path.isAbsolute b ∧
      Path.startsHere a = Path.startsHere b ∧ Path.steps a = Path.steps b) ∧
    ∀ a b : String, Path.same (a ++ "//" ++ b) (a ++ "/" ++ b) = true ∧
      Path.same (a ++ "/./" ++ b) (a ++ "/" ++ b) = true ∧
      Path.same (a ++ "/" ++ b ++ "/") (a ++ "/" ++ b) = true := by
  have first := report.mergedPathsFirst
  refine ⟨?_, first, ?_, report.mergedAgain, ?_, ?_, Path.sameExactly, Path.sameSpellings⟩
  · exact List.pairwise_map.mpr report.mergedUnlike
  · intro g mem
    rw [mergedGathers] at mem
    obtain ⟨f, -, rfl⟩ := List.mem_map.mp mem
    rfl
  · intro m tree
    rw [m.mendReportPaths tree report, first]
  · intro m tree turns finished
    obtain ⟨results, workers, labelled⟩ := m.crewPaths tree report finished
    exact ⟨results, workers, labelled.trans first⟩

def interleavedReport : Report :=
  let finding := Mender.typeFinding Rule.noExplicitAny
  [⟨"src/../a.ts", [finding]⟩, ⟨"b.ts", []⟩, ⟨"src/..//a.ts/", [finding]⟩, ⟨"b.ts", [finding]⟩,
    ⟨"src/./../a.ts", []⟩]

theorem mergedExactlyInterleaved :
    let crew := (Mender.standard.crew Mender.sharedTree interleavedReport).run [1, 0, 1, 0]
    crew.finished = true ∧ interleavedReport.merged.paths = ["src/../a.ts", "b.ts"] ∧
    interleavedReport.merged.map (·.diagnostics.length) = [2, 1] ∧
    ∃ results : List FileResult, crew.workers = results.map .done ∧
      results.map FileResult.path = ["src/../a.ts", "b.ts"] := by
  intro crew
  have finished : crew.finished = true := by decide +kernel
  have first : interleavedReport.firsts.paths = ["src/../a.ts", "b.ts"] := by decide +kernel
  obtain ⟨-, merged, -, -, -, schedules, -⟩ := mergedExactly interleavedReport
  rw [first] at merged schedules
  refine ⟨finished, merged, ?_, schedules _ _ _ finished⟩
  decide +kernel

end Report
end LintRemedy
