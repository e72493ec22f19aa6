import LintRemedy.Command
import LintRemedy.Proofs.Places

/-!
Making a new configuration. The loop of `init` ends on every tree, after two attempts at most: one
finds an old file and takes it away, the next finds none. What it can leave undone is told by the
entry at the place of the configuration and by what the system refuses there.
-/
namespace LintRemedy

namespace Tree

theorem eraseLookup (names other : Names) (entries : List (Names × Entry)) :
    (entries.filter fun (n, _) => n != names).lookup other =
      if other = names then none else entries.lookup other := by
  induction entries with
  | nil => simp
  | cons entry entries ih =>
    obtain ⟨n, e⟩ := entry
    rw [List.filter_cons]
    by_cases first : n = names
    · subst first
      simp only [bne_self_eq_false, Bool.false_eq_true, ↓reduceIte, ih, List.lookup_cons]
      by_cases same : other = n
      · simp [same]
      · simp [same, beq_eq_false_iff_ne.mpr same]
    · simp only [bne_iff_ne.mpr first, ↓reduceIte, List.lookup_cons, ih]
      by_cases same : other = n
      · subst same
        simp [first]
      · simp [beq_eq_false_iff_ne.mpr same]

theorem eraseEntry (tree : Tree) {names : Names} (inner : names.isPrefixOf tree.base = false)
    (other : Names) :
    (tree.erase names).entryAt? other = if other = names then none else tree.entryAt? other := by
  unfold entryAt? erase
  simp only [eraseLookup]
  by_cases same : other = names
  · subst same
    simp [inner]
  · simp [same]

theorem eraseAbsent {tree : Tree} {names : Names} (absent : tree.entryAt? names = none) :
    tree.erase names = tree := by
  have missing : tree.entries.lookup names = none := by
    rw [entryAt?] at absent
    split at absent
    · contradiction
    · exact absent
  have kept : tree.entries.filter (fun (n, _) => n != names) = tree.entries := by
    rw [List.filter_eq_self]
    rintro ⟨n, e⟩ mem
    have other := List.lookup_eq_none_iff.mp missing (n, e) mem
    exact bne_iff_ne.mpr (Ne.symm (by simpa using other))
  rw [erase, kept]

theorem putTwice (tree : Tree) (names : Names) (e e' : Entry) :
    (tree.put names e).put names e' = tree.put names e' := by
  have twice : ∀ entries : List (Names × Entry),
      put.go names e' (put.go names e entries) = put.go names e' entries := by
    intro entries
    induction entries with
    | nil => simp [put.go]
    | cons entry entries ih =>
      obtain ⟨n, old⟩ := entry
      by_cases same : n = names
      · simp [put.go, same]
      · simp [put.go, same, ih]
  simp only [put, twice]

end Tree

namespace Command

def configPlace (base : Names) : Names := Tree.target base configFile

theorem configInner (tree : Tree) : (configPlace tree.base).isPrefixOf tree.base = false := by
  rw [← Bool.not_eq_true, List.isPrefixOf_iff_prefix]
  intro above
  have longer := above.length_le
  have place : configPlace tree.base = tree.base ++ [configFile.toList] := rfl
  rw [place, List.length_append, List.length_singleton] at longer
  omega

theorem resolveConfig (tree : Tree) :
    tree.resolve configFile = match tree.entryAt? (configPlace tree.base) with
      | some _ => .ok (configPlace tree.base)
      | none => .error .missing := by
  have nul : configFile.toList.contains '\x00' = false := by decide +kernel
  have nonempty : configFile ≠ "" := by decide +kernel
  have short : ¬ Tree.maxPath < configFile.utf8ByteSize := by decide +kernel
  have parts : Path.parts configFile = [configFile.toList] := by decide +kernel
  have start : Tree.start tree.base configFile = tree.base := by
    rw [Tree.start, if_neg (by decide +kernel)]
  have plain : ¬ (configFile.toList = [] ∨ configFile.toList = ['.']) := by decide +kernel
  have down : configFile.toList ≠ ['.', '.'] := by decide +kernel
  have shortName : ¬ Tree.maxName < Tree.byteSize configFile.toList := by decide +kernel
  have here : tree.entryAt? tree.base = some .directory := by simp [Tree.entryAt?]
  rw [Tree.resolve, nul, if_neg Bool.false_ne_true, if_neg nonempty, if_neg short, parts, start]
  simp only [Tree.follow, Tree.stepInto, here, if_neg plain, if_neg down, if_neg shortName]
  have place : tree.base ++ [configFile.toList] = configPlace tree.base := rfl
  rw [place]
  cases tree.entryAt? (configPlace tree.base) with
  | none => rfl
  | some e => rfl

section
variable {tree : Tree}

theorem createTaken {e : Entry} (there : tree.entryAt? (configPlace tree.base) = some e) :
    tree.create configFile = (.error .alreadyExists, tree) := by
  simp only [Tree.create, resolveConfig, there]

theorem createFresh (absent : tree.entryAt? (configPlace tree.base) = none) :
    tree.create configFile = match tree.refusal? .create (configPlace tree.base) with
      | some r => (.error (.other r.cause), tree)
      | none => (.ok (), tree.write configFile []) := by
  have parent : (Path.parts configFile).dropLast = [] := by decide +kernel
  simp only [Tree.create, resolveConfig, absent, parent, Tree.follow]
  rfl

theorem fileAtConfig {c : Content} (there : tree.entryAt? (configPlace tree.base) = some (.file c)) :
    tree.fileAt configFile = .ok (configPlace tree.base, c) := by
  refine Tree.fileAtIff.mpr ⟨?_, there⟩
  simp only [resolveConfig, there]

theorem removeFile {c : Content} (there : tree.entryAt? (configPlace tree.base) = some (.file c)) :
    tree.remove configFile = match tree.refusal? .remove (configPlace tree.base) with
      | some r => (.error (.other r.cause), tree)
      | none => (.ok (), tree.erase (configPlace tree.base)) := by
  simp only [Tree.remove, Tree.admitted, fileAtConfig there, bind, Except.bind]
  cases tree.refusal? .remove (configPlace tree.base) with
  | none => rfl
  | some r => rfl

theorem removeDirectory (there : tree.entryAt? (configPlace tree.base) = some .directory) :
    tree.remove configFile = (.error .isDirectory, tree) := by
  simp only [Tree.remove, Tree.admitted, Tree.fileAt, resolveConfig, there, bind, Except.bind]

end

def founded (tree : Tree) : Outcome × Tree :=
  match tree.refusal? .create (configPlace tree.base) with
  | some r => (.fatal (.io (.other r.cause)), tree)
  | none => match tree.refusal? .fill (configPlace tree.base) with
    | some r =>
      (.fatal (.io (.other r.cause)), tree.write configFile (defaultConfig.toList.take r.kept))
    | none => (.finished 0 "", tree.write configFile defaultConfig.toList)

section
variable {α : Type} (next : Except IoFailure Unit → StateM Tree α) (tree : Tree)

theorem createRun (path : String) : (Tree.fileSystem.create path >>= next).run tree =
    (next (tree.create path).1).run (tree.create path).2 := rfl

theorem fillRun (path : String) (t : Text) : (Tree.fileSystem.fill path t >>= next).run tree =
    (next (tree.fill path t).1).run (tree.fill path t).2 := rfl

theorem removeRun (path : String) : (Tree.fileSystem.remove path >>= next).run tree =
    (next (tree.remove path).1).run (tree.remove path).2 := rfl

end

theorem attemptRun (tree : Tree) (force : Bool) :
    (attempt Tree.fileSystem force).run tree = match tree.create configFile with
      | (.ok (), made) => match made.fill configFile defaultConfig.toList with
        | (.ok (), after) => (.inr (.finished 0 ""), after)
        | (.error cause, after) => (.inr (.fatal (.io cause)), after)
      | (.error .alreadyExists, same) =>
        if force then match same.remove configFile with
          | (.ok (), after) => (.inl (), after)
          | (.error .missing, after) => (.inl (), after)
          | (.error cause, after) => (.inr (.fatal (.io cause)), after)
        else (.inr (.fatal .configExists), same)
      | (.error cause, same) => (.inr (.fatal (.io cause)), same) := by
  rw [attempt, createRun]
  obtain ⟨x, made⟩ := tree.create configFile
  cases x with
  | ok done =>
    change (Tree.fileSystem.fill configFile defaultConfig.toList >>= _).run made = _
    rw [fillRun]
    simp only
    obtain ⟨y, after⟩ := made.fill configFile defaultConfig.toList
    cases y <;> rfl
  | error cause =>
    cases cause with
    | alreadyExists =>
      cases force with
      | false => rfl
      | true =>
        change (Tree.fileSystem.remove configFile >>= _).run made = _
        rw [removeRun]
        simp only [↓reduceIte]
        obtain ⟨y, after⟩ := made.remove configFile
        cases y with
        | ok done => rfl
        | error cause => cases cause <;> rfl
    | _ => rfl

theorem attemptFresh {tree : Tree} (absent : tree.entryAt? (configPlace tree.base) = none)
    (force : Bool) :
    (attempt Tree.fileSystem force).run tree = (.inr (founded tree).1, (founded tree).2) := by
  rw [attemptRun, createFresh absent, founded]
  cases tree.refusal? .create (configPlace tree.base) with
  | some r => rfl
  | none =>
    have inner := configInner tree
    let made := tree.write configFile []
    have empty : made.entryAt? (configPlace made.base) = some (.file (.text [])) :=
      (tree.putEntry inner _ _).trans (if_pos rfl)
    have again : ∀ t, made.write configFile t = tree.write configFile t :=
      fun t => tree.putTwice (configPlace tree.base) _ _
    have refusal : made.refusal? .fill (configPlace made.base) =
      tree.refusal? .fill (configPlace tree.base) := rfl
    have filled : made.fill configFile defaultConfig.toList =
        match tree.refusal? .fill (configPlace tree.base) with
        | some r => (.error (.other r.cause),
          tree.write configFile (defaultConfig.toList.take r.kept))
        | none => (.ok (), tree.write configFile defaultConfig.toList) := by
      unfold Tree.fill
      rw [fileAtConfig empty]
      dsimp only
      rw [refusal]
      cases tree.refusal? .fill (configPlace tree.base) with
      | none => exact congrArg (Prod.mk _) (again _)
      | some r => exact congrArg (Prod.mk _) (again _)
    simp only
    rw [filled]
    cases tree.refusal? .fill (configPlace tree.base) with
    | none => rfl
    | some r => rfl

theorem initRepeats (tree : Tree) (force : Bool) :
    (init Tree.fileSystem force).run tree = match (attempt Tree.fileSystem force).run tree with
      | (.inl (), after) => (init Tree.fileSystem force).run after
      | (.inr outcome, after) => (outcome, after) := by
  have once : init Tree.fileSystem force =
      repeatM.body (fun () => attempt Tree.fileSystem force)
        (fun () => init Tree.fileSystem force) () := repeatM_eq_of_monadTail ()
  refine (congrArg (fun act => act.run tree) once).trans ?_
  simp only [repeatM.body, StateT.run_bind]
  obtain ⟨x, after⟩ := (attempt Tree.fileSystem force).run tree
  cases x with
  | inl again => rfl
  | inr outcome => rfl

theorem initFresh {tree : Tree} (absent : tree.entryAt? (configPlace tree.base) = none)
    (force : Bool) : (init Tree.fileSystem force).run tree = founded tree := by
  rw [initRepeats, attemptFresh absent]

/-- Why `init` ends without having touched anything: something is in the place of the configuration
and may not be taken away, or nothing may be made there. -/
def occupied? (tree : Tree) (force : Bool) : Option Complaint :=
  match tree.entryAt? (configPlace tree.base), force with
  | some _, false => some .configExists
  | some .directory, true => some (.io .isDirectory)
  | some (.file _), true =>
    (tree.refusal? .remove (configPlace tree.base)).map fun r => .io (.other r.cause)
  | none, _ => (tree.refusal? .create (configPlace tree.base)).map fun r => .io (.other r.cause)

theorem initRun (tree : Tree) (force : Bool) :
    (init Tree.fileSystem force).run tree = match occupied? tree force with
      | some complaint => (.fatal complaint, tree)
      | none => founded (tree.erase (configPlace tree.base)) := by
  cases there : tree.entryAt? (configPlace tree.base) with
  | none =>
    rw [initFresh there, Tree.eraseAbsent there]
    unfold occupied? founded
    rw [there]
    cases tree.refusal? .create (configPlace tree.base) with
    | none => cases force <;> rfl
    | some r => cases force <;> rfl
  | some e =>
    rw [initRepeats, attemptRun, createTaken there]
    unfold occupied?
    rw [there]
    cases force with
    | false => rfl
    | true =>
      cases e with
      | directory =>
        simp only [removeDirectory there, ↓reduceIte]
      | file c =>
        simp only [removeFile there, ↓reduceIte]
        cases tree.refusal? .remove (configPlace tree.base) with
        | some r => rfl
        | none =>
          have absent : (tree.erase (configPlace tree.base)).entryAt? (configPlace tree.base) = none :=
            (tree.eraseEntry (configInner tree) _).trans (if_pos rfl)
          exact initFresh absent true

def thwarted? (tree : Tree) : Option IoFailure :=
  ((tree.refusal? .create (configPlace tree.base)) <|>
    (tree.refusal? .fill (configPlace tree.base))).map fun r => .other r.cause

/-- The trees differ at most in the configuration, of which the second has a part or nothing. -/
structure LostConfig (before after : Tree) : Prop where
  others : ∀ names, names ≠ configPlace before.base → after.entryAt? names = before.entryAt? names
  own : after.entryAt? (configPlace before.base) = none ∨
    ∃ n, after.entryAt? (configPlace before.base) =
      some (.file (.text (defaultConfig.toList.take n)))

/-- To take a file away changes nothing in what the system refuses. -/
theorem foundedBare (tree : Tree) :
    let bare := tree.erase (configPlace tree.base)
    founded bare = match tree.refusal? .create (configPlace tree.base) with
      | some r => (.fatal (.io (.other r.cause)), bare)
      | none => match tree.refusal? .fill (configPlace tree.base) with
        | some r =>
          (.fatal (.io (.other r.cause)), bare.write configFile (defaultConfig.toList.take r.kept))
        | none => (.finished 0 "", bare.write configFile defaultConfig.toList) := rfl

section
variable {tree : Tree} {force : Bool} (free : occupied? tree force = none)
include free

theorem initThwarted {cause : IoFailure} (thwarted : thwarted? tree = some cause) :
    ∃ after, (init Tree.fileSystem force).run tree = (.fatal (.io cause), after) ∧
      LostConfig tree after := by
  let bare := tree.erase (configPlace tree.base)
  have gone : ∀ names, bare.entryAt? names =
      if names = configPlace tree.base then none else tree.entryAt? names :=
    tree.eraseEntry (configInner tree)
  rw [initRun, free]
  simp only [foundedBare]
  unfold thwarted? at thwarted
  cases made : tree.refusal? .create (configPlace tree.base) with
  | some r =>
    rw [made] at thwarted
    cases Option.some.inj thwarted
    refine ⟨bare, rfl, ?_, .inl ?_⟩
    · intro names other
      rw [gone, if_neg other]
    · rw [gone, if_pos rfl]
  | none =>
    cases filled : tree.refusal? .fill (configPlace tree.base) with
    | none =>
      rw [made, filled] at thwarted
      contradiction
    | some r =>
      rw [made, filled] at thwarted
      cases Option.some.inj thwarted
      have begun := bare.putEntry (configInner bare)
        (.file (.text (defaultConfig.toList.take r.kept)))
      refine ⟨bare.write configFile (defaultConfig.toList.take r.kept), rfl, ?_, .inr ⟨r.kept, ?_⟩⟩
      · intro names other
        exact (begun names).trans ((if_neg other).trans ((gone names).trans (if_neg other)))
      · exact (begun _).trans (if_pos rfl)

theorem initDone (none : thwarted? tree = none) :
    (init Tree.fileSystem force).run tree =
      (.finished 0 "",
        (tree.erase (configPlace tree.base)).write configFile defaultConfig.toList) := by
  obtain ⟨create, fill⟩ :
      tree.refusal? .create (configPlace tree.base) = .none ∧
      tree.refusal? .fill (configPlace tree.base) = .none := by
    simpa [thwarted?] using none
  rw [initRun, free]
  simp only [foundedBare, create, fill]

end
end Command
end LintRemedy
