import LintRemedy.Proofs.Disabled
import LintRemedy.Proofs.NewConfig

/-!
Fatal ends of the commands. A command reads all its inputs before it touches a file, and reading
leaves a tree as it is. So the faults of the inputs can be looked for one by one on the tree that the
command starts with: with one, the command ends with code 2, complains of the first, and has changed
nothing. Only a new configuration that the system refuses to make or to fill can be lost on the way.
-/
namespace LintRemedy

namespace Tree
variable {α β : Type}

def LooksOnly (act : StateM Tree α) : Prop := ∀ tree, (act.run tree).2 = tree

theorem LooksOnly.pure (a : α) : LooksOnly (pure a) := fun _ => rfl

theorem LooksOnly.runBind {act : StateM Tree α} (looks : LooksOnly act) (next : α → StateM Tree β)
    (tree : Tree) : (act >>= next).run tree = (next (act.run tree).1).run tree := by
  have step : (act >>= next).run tree = (next (act.run tree).1).run (act.run tree).2 := rfl
  rw [step, looks tree]

theorem LooksOnly.bind {act : StateM Tree α} {next : α → StateM Tree β} (first : LooksOnly act)
    (rest : ∀ a, LooksOnly (next a)) : LooksOnly (act >>= next) := by
  intro tree
  rw [first.runBind]
  exact rest _ tree

theorem readLooks (path : String) : LooksOnly (fileSystem.read path) := fun _ => rfl

theorem kindLooks (path : String) : LooksOnly (fileSystem.kind path) := fun _ => rfl

end Tree

open LintRemedy.Tree (LooksOnly)

def errorOf? {ε α : Type} : Except ε α → Option ε
  | .error e => some e
  | .ok _ => none

theorem errorOfIff {ε α : Type} {x : Except ε α} : (errorOf? x).isSome = true ↔ ∃ e, x = .error e := by
  cases x with
  | error e => exact ⟨fun _ => ⟨e, rfl⟩, fun _ => rfl⟩
  | ok a => exact ⟨fun none => by contradiction, fun ⟨_, other⟩ => by contradiction⟩

def Mender.withDry (m : Mender) (dry : Bool) : Mender :=
  { m with options := { m.options with dryRun := dry } }

namespace Config

theorem loadLooks (path : String) : LooksOnly (load Tree.fileSystem path) := by
  refine (Tree.readLooks path).bind ?_
  intro x
  cases x with
  | ok t => exact .pure _
  | error cause => exact .pure _

theorem discoverAmongLooks (paths : List String) :
    LooksOnly (discoverAmong Tree.fileSystem paths) := by
  induction paths with
  | nil => exact .pure _
  | cons path paths ih =>
    refine (Tree.kindLooks path).bind ?_
    intro kind
    split
    · exact .pure _
    · exact ih

theorem loadOrDiscoverLooks (config : Option String) :
    LooksOnly (loadOrDiscover Tree.fileSystem config) := by
  cases config with
  | some path => exact loadLooks path
  | none =>
    refine (discoverAmongLooks _).bind ?_
    intro found
    cases found with
    | some path => exact loadLooks path
    | none => exact .pure _

end Config

namespace Report

theorem loadLooks (path : String) : LooksOnly (load Tree.fileSystem path) := by
  refine (Tree.readLooks path).bind ?_
  intro x
  cases x with
  | ok t => exact .pure _
  | error cause => exact .pure _

theorem loadText {tree : Tree} {path : String} {t : Text} (held : tree.read path = .ok t) :
    ((load Tree.fileSystem path).run tree).1 = (ofText t).mapError .report := by
  have asked : ((Tree.fileSystem.read path).run tree).1 = tree.read path := rfl
  unfold load
  rw [(Tree.readLooks path).runBind, asked, held]
  rfl

def hasMalformed (t : Text) : Bool :=
  match Json.ofText? t with
  | some (.arr groups) => groups.zipIdx.any fun (v, index) => (errorOf? (group index v)).isSome
  | _ => false

theorem groupsMalformed (index : Nat) {k : Nat} {vs : List Json} {v : Json} {cause : ReportFault}
    (at_ : vs[k]? = some v) (malformed : group (index + k) v = .error cause) :
    ∃ first, groupsFrom index vs = .error first := by
  induction vs generalizing index k with
  | nil => simp at at_
  | cons w vs ih =>
    -- A group before the malformed one may fail as well, so its fault need not be the one shown.
    cases here : group index w with
    | error fault => exact ⟨fault, by simp [groupsFrom, bind, Except.bind, here]⟩
    | ok g =>
      cases k with
      | zero =>
        have same : w = v := by simpa using at_
        subst same
        rw [Nat.add_zero, here] at malformed
        contradiction
      | succ k =>
        have number : index + 1 + k = index + (k + 1) := by omega
        obtain ⟨first, rest⟩ := ih (index + 1) (by simpa using at_) (number ▸ malformed)
        exact ⟨first, by simp [groupsFrom, bind, Except.bind, here, rest]⟩

theorem malformedSpoils {t : Text} (malformed : hasMalformed t = true) :
    ∃ fault, ofText t = .error fault := by
  unfold hasMalformed at malformed
  split at malformed <;> try contradiction
  rename_i groups text
  obtain ⟨⟨v, index⟩, mem, failed⟩ := List.any_eq_true.mp malformed
  obtain ⟨cause, alone⟩ := errorOfIff.mp failed
  have at_ : groups[index]? = some v := List.mem_zipIdx_iff_getElem?.mp mem
  obtain ⟨fault, spoiled⟩ := groupsMalformed 0 at_ (by simpa using alone)
  exact ⟨fault, by rw [ofText, text]; exact spoiled⟩

end Report

namespace Command
open CommandLine (Format Invocation)

def configFault? (tree : Tree) (config : Option String) : Option ConfigFault :=
  errorOf? ((Config.loadOrDiscover Tree.fileSystem config).run tree).1

def patternFault? (tree : Tree) (config : Option String) : Option ConfigFault :=
  match ((Config.loadOrDiscover Tree.fileSystem config).run tree).1 with
  | .ok c => errorOf? c.excluded
  | .error _ => none

def reportFault? (tree : Tree) (report : String) : Option Failure :=
  errorOf? ((Report.load Tree.fileSystem report).run tree).1

def faults (tree : Tree) (config : Option String) (report : String) : List Failure :=
  ((configFault? tree config).map .config).toList ++
    ((patternFault? tree config).map .config).toList ++ (reportFault? tree report).toList

theorem prepareRun (tree : Tree) (config : Option String) (report : String) :
    (prepare Tree.fileSystem config report).run tree =
      (match ((Config.loadOrDiscover Tree.fileSystem config).run tree).1 with
        | .error cause => .error (.config cause)
        | .ok c => match c.mender with
          | .error cause => .error (.config cause)
          | .ok m => match ((Report.load Tree.fileSystem report).run tree).1 with
            | .error e => .error e
            | .ok groups => .ok (c, m, groups), tree) := by
  unfold prepare
  rw [(Config.loadOrDiscoverLooks config).runBind]
  cases ((Config.loadOrDiscover Tree.fileSystem config).run tree).1 with
  | error cause => rfl
  | ok c =>
    simp only
    cases c.mender with
    | error cause => rfl
    | ok m =>
      simp only
      rw [(Report.loadLooks report).runBind]
      cases ((Report.load Tree.fileSystem report).run tree).1 with
      | error e => rfl
      | ok groups => rfl

theorem prepareCases (tree : Tree) (config : Option String) (report : String) :
    (∃ e rest, faults tree config report = e :: rest ∧
      (prepare Tree.fileSystem config report).run tree = (.error e, tree)) ∨
    (faults tree config report = [] ∧ ∃ c m groups,
      (prepare Tree.fileSystem config report).run tree = (.ok (c, m, groups), tree)) := by
  rw [prepareRun]
  unfold faults configFault? patternFault? reportFault?
  cases ((Config.loadOrDiscover Tree.fileSystem config).run tree).1 with
  | error cause => exact .inl ⟨_, _, rfl, rfl⟩
  | ok c =>
    -- Only the patterns can keep a sound configuration from giving a mender.
    simp only [Config.menderExcluded]
    cases c.excluded with
    | error cause => exact .inl ⟨_, _, rfl, rfl⟩
    | ok globs =>
      cases ((Report.load Tree.fileSystem report).run tree).1 with
      | error e => exact .inl ⟨_, _, rfl, rfl⟩
      | ok groups => exact .inr ⟨rfl, c, _, groups, rfl⟩

section
variable {tree : Tree} {config : Option String} {report : String}

theorem prepareRefused {e : Failure} {rest : List Failure}
    (found : faults tree config report = e :: rest) :
    (prepare Tree.fileSystem config report).run tree = (.error e, tree) := by
  rcases prepareCases tree config report with ⟨e', rest', found', refused⟩ | ⟨none, -⟩
  · rw [found] at found'
    cases found'
    exact refused
  · rw [found] at none
    contradiction

theorem prepareAccepted (none : faults tree config report = []) :
    ∃ c m groups, (prepare Tree.fileSystem config report).run tree = (.ok (c, m, groups), tree) := by
  rcases prepareCases tree config report with ⟨e, rest, found, -⟩ | ⟨-, accepted⟩
  · rw [none] at found
    contradiction
  · exact accepted

end

def fixOutput (format : Format) (results : List FileResult) (dry : Bool) : String :=
  match format with
  | .text => Output.fixText results dry
  | .json => Output.fixJson results

section
variable {tree : Tree} {config : Option String} {report : String}

theorem fixRefused {e : Failure}
    (refused : (prepare Tree.fileSystem config report).run tree = (.error e, tree))
    (format : Format) (dryRun check : Bool) :
    (fix Tree.fileSystem config report format dryRun check).run tree =
      (.fatal (.input e), tree) := by
  unfold fix
  rw [StateT.run_bind, refused]
  rfl

theorem fixAccepted {c : Config} {m : Mender} {groups : Report}
    (loaded : (prepare Tree.fileSystem config report).run tree = (.ok (c, m, groups), tree))
    (format : Format) (dryRun check : Bool) :
    (fix Tree.fileSystem config report format dryRun check).run tree =
      (let (results, after) :=
        ((m.withDry (dryRun || check)).mendReport Tree.fileSystem groups).run tree
       (.finished (fixExit results check) (fixOutput format results (dryRun || check)), after)) := by
  unfold fix
  rw [StateT.run_bind, loaded]
  rfl

theorem triageRefused {e : Failure}
    (refused : (prepare Tree.fileSystem config report).run tree = (.error e, tree))
    (format : Format) (top : Nat) :
    (triage Tree.fileSystem config report format top).run tree = (.fatal (.input e), tree) := by
  unfold triage
  rw [StateT.run_bind, refused]
  rfl

theorem triageAccepted {c : Config} {m : Mender} {groups : Report}
    (loaded : (prepare Tree.fileSystem config report).run tree = (.ok (c, m, groups), tree))
    (format : Format) (top : Nat) :
    ∃ output, (triage Tree.fileSystem config report format top).run tree =
      (.finished 0 output, tree) := by
  unfold triage
  rw [StateT.run_bind, loaded]
  exact ⟨_, rfl⟩

theorem triageLooks (config : Option String) (report : String) (format : Format) (top : Nat) :
    LooksOnly (triage Tree.fileSystem config report format top) := by
  intro tree
  cases found : faults tree config report with
  | cons e rest => rw [triageRefused (prepareRefused found)]
  | nil =>
    obtain ⟨c, m, groups, loaded⟩ := prepareAccepted found
    obtain ⟨output, ran⟩ := triageAccepted loaded format top
    rw [ran]

theorem fixExitSmall (results : List FileResult) (check : Bool) : fixExit results check ≠ 2 := by
  unfold fixExit
  split
  · decide
  · decide

end

/-- What a run complains of if it is refused before it touches anything: the first fault of its
inputs, or what is in the way of a new configuration. -/
def complaint? (tree : Tree) (i : Invocation) : Option Complaint :=
  match i.command with
  | .fix report _ _ _ => (faults tree i.config report).head?.map .input
  | .triage report _ _ => (faults tree i.config report).head?.map .input
  | .init force => occupied? tree force

def Thwarted (tree : Tree) (i : Invocation) (cause : IoFailure) : Prop :=
  (∃ force, i.command = .init force) ∧ thwarted? tree = some cause

theorem runRefused {tree : Tree} {i : Invocation} {complaint : Complaint}
    (refused : complaint? tree i = some complaint) :
    (run Tree.fileSystem i).run tree = (.fatal complaint, tree) := by
  obtain ⟨command, config, verbose⟩ := i
  cases command with
  | fix report format dryRun check =>
    obtain ⟨e, first, rfl⟩ := Option.map_eq_some_iff.mp refused
    obtain ⟨rest, found⟩ := List.head?_eq_some_iff.mp first
    exact fixRefused (prepareRefused found) format dryRun check
  | triage report format top =>
    obtain ⟨e, first, rfl⟩ := Option.map_eq_some_iff.mp refused
    obtain ⟨rest, found⟩ := List.head?_eq_some_iff.mp first
    exact triageRefused (prepareRefused found) format top
  | init force =>
    change occupied? tree force = some complaint at refused
    change (init Tree.fileSystem force).run tree = _
    rw [initRun, refused]

theorem runThwarted {tree : Tree} {i : Invocation} {cause : IoFailure}
    (accepted : complaint? tree i = none) (thwarted : Thwarted tree i cause) :
    ∃ after, (run Tree.fileSystem i).run tree = (.fatal (.io cause), after) ∧
      LostConfig tree after := by
  obtain ⟨command, config, verbose⟩ := i
  obtain ⟨⟨force, rfl⟩, refused⟩ := thwarted
  exact initThwarted accepted refused

theorem runAccepted {tree : Tree} {i : Invocation} (accepted : complaint? tree i = none)
    (free : ∀ cause, ¬ Thwarted tree i cause) : ((run Tree.fileSystem i).run tree).1.exit ≠ 2 := by
  obtain ⟨command, config, verbose⟩ := i
  cases command with
  | fix report format dryRun check =>
    have none : faults tree config report = [] :=
      List.head?_eq_none_iff.mp (Option.map_eq_none_iff.mp accepted)
    obtain ⟨c, m, groups, loaded⟩ := prepareAccepted none
    change ((fix Tree.fileSystem config report format dryRun check).run tree).1.exit ≠ 2
    rw [fixAccepted loaded]
    exact fixExitSmall _ check
  | triage report format top =>
    have none : faults tree config report = [] :=
      List.head?_eq_none_iff.mp (Option.map_eq_none_iff.mp accepted)
    obtain ⟨c, m, groups, loaded⟩ := prepareAccepted none
    obtain ⟨output, ran⟩ := triageAccepted loaded format top
    change ((triage Tree.fileSystem config report format top).run tree).1.exit ≠ 2
    rw [ran]
    exact Nat.zero_ne_add_one 1
  | init force =>
    have none : thwarted? tree = .none := by
      by_contra some
      obtain ⟨cause, refused⟩ := Option.ne_none_iff_exists'.mp some
      exact free cause ⟨⟨force, rfl⟩, refused⟩
    change ((init Tree.fileSystem force).run tree).1.exit ≠ 2
    rw [initDone accepted none]
    exact Nat.zero_ne_add_one 1

theorem fatalIff (tree : Tree) (i : Invocation) :
    ((run Tree.fileSystem i).run tree).1.exit = 2 ↔
      (∃ complaint, complaint? tree i = some complaint) ∨ ∃ cause, Thwarted tree i cause := by
  cases complained : complaint? tree i with
  | some complaint =>
    rw [runRefused complained]
    exact ⟨fun _ => .inl ⟨complaint, rfl⟩, fun _ => rfl⟩
  | none =>
    by_cases thwarted : ∃ cause, Thwarted tree i cause
    · obtain ⟨cause, refused⟩ := thwarted
      obtain ⟨after, ran, -⟩ := runThwarted complained refused
      rw [ran]
      exact ⟨fun _ => .inr ⟨cause, refused⟩, fun _ => rfl⟩
    · have ends := runAccepted complained (not_exists.mp thwarted)
      refine ⟨fun fatal => absurd fatal ends, ?_⟩
      rintro (⟨_, other⟩ | other)
      · contradiction
      · exact absurd other thwarted

theorem fatalKeeps {tree : Tree} {i : Invocation}
    (fatal : ((run Tree.fileSystem i).run tree).1.exit = 2) :
    ((run Tree.fileSystem i).run tree).2 = tree ∨
      complaint? tree i = none ∧ ∃ cause, Thwarted tree i cause := by
  cases complained : complaint? tree i with
  | some complaint =>
    rw [runRefused complained]
    exact .inl rfl
  | none =>
    rcases (fatalIff tree i).mp fatal with ⟨complaint, other⟩ | thwarted
    · simp [complained] at other
    · exact .inr ⟨rfl, thwarted⟩

theorem executeKeeps {tree : Tree} {args : List String}
    (fatal : ((execute Tree.fileSystem args).run tree).1.exit = 2) :
    ((execute Tree.fileSystem args).run tree).2 = tree ∨
      ∃ i, CommandLine.request? args = some (.run i) ∧ complaint? tree i = none ∧
        ∃ cause, Thwarted tree i cause := by
  unfold execute at fatal ⊢
  split at fatal
  · exact .inl rfl
  · exact .inl rfl
  · exact .inl rfl
  · rename_i i asked
    rcases fatalKeeps fatal with kept | ⟨accepted, thwarted⟩
    · exact .inl kept
    · exact .inr ⟨i, asked, accepted, thwarted⟩

def reportOf? (i : Invocation) : Option String :=
  match i.command with
  | .fix report _ _ _ => some report
  | .triage report _ _ => some report
  | .init _ => none

theorem reportRefused {tree : Tree} {i : Invocation} {report : String} {fault : Failure}
    (reads : reportOf? i = some report) (faulty : reportFault? tree report = some fault) :
    ∃ complaint, complaint? tree i = some complaint := by
  have inside : fault ∈ faults tree i.config report := by simp [faults, faulty]
  obtain ⟨e, first⟩ : ∃ e, (faults tree i.config report).head? = some e :=
    Option.isSome_iff_exists.mp (List.isSome_head?.mpr (List.ne_nil_of_mem inside))
  obtain ⟨command, config, verbose⟩ := i
  cases command with
  | fix report' format dryRun check =>
    cases Option.some.inj reads
    exact ⟨.input e, Option.map_eq_some_iff.mpr ⟨e, first, rfl⟩⟩
  | triage report' format top =>
    cases Option.some.inj reads
    exact ⟨.input e, Option.map_eq_some_iff.mpr ⟨e, first, rfl⟩⟩
  | init force => contradiction

theorem malformedFault {tree : Tree} {report : String} {t : Text} (held : tree.read report = .ok t)
    (malformed : Report.hasMalformed t = true) : ∃ fault, reportFault? tree report = some fault := by
  obtain ⟨first, spoiled⟩ := Report.malformedSpoils malformed
  refine ⟨.report first, ?_⟩
  rw [reportFault?, Report.loadText held, spoiled]
  rfl

def spoiledReport : Text :=
  "[\x7b\"filePath\": \"a.ts\", \"messages\": ".toList ++
    "[\x7b\"ruleId\": \"@typescript-eslint/".toList ++
    "no-explicit-any\"\x7d]\x7d, \x7b\x7d]".toList

def faultyTree : Tree where
  base := ["work".toList]
  entries :=
    [(["work".toList, "a.ts".toList], .file (.text "let a: any;".toList)),
      (["work".toList, "r.json".toList], .file (.text spoiledReport)),
      (["work".toList, ".mendlint.jsonc".toList],
        .file (.text "\x7b\"exclude\": [\"[\"]\x7d".toList)),
      (["plain.json".toList], .file (.text "\x7b\x7d".toList))]
  refusals :=
    [⟨.create, ["work".toList, ".mendlint.jsonc".toList], "No space left on device (os error 28)", 0⟩]

def brokenPattern : Failure := .config (.globs (.pattern "[" .unclosedClass))

end Command
end LintRemedy
