import LintRemedy.Proofs.Reading

/-!
The run of a substitution over a text, and the places that are open to it: those where its shape
stands and its guards allow the change. A text that is closed to a substitution comes out as it
went in.
-/
namespace LintRemedy
open Text (isBlank isNameChar isWord starts)

namespace Substitution

def apply (s : Substitution) (t : Text) : Text := (s.pieces t).flatMap Piece.result

def allowed (s : Substitution) (before : Text) (f : Found) : Bool :=
  s.guards.all (·.allows before f.rest)

def nameFirst (s : Substitution) : Bool :=
  match s.steps with
  | ⟨.name, _⟩ :: _ => true
  | _ => false

def startsAfter (s : Substitution) (before : Text) : Bool :=
  !(s.nameFirst && starts isNameChar before)

def OpenAt (s : Substitution) (before here : Text) : Prop :=
  s.startsAfter before = true ∧ ∃ f, s.find? before here = some f ∧ s.allowed before f = true

def OpenFrom (s : Substitution) (before t : Text) : Prop :=
  ∃ x y, t = x ++ y ∧ s.OpenAt (x.reverse ++ before) y

def Open (s : Substitution) (t : Text) : Prop := s.OpenFrom [] t

theorem openCons {s : Substitution} {before t : Text} {c : Char} :
    s.OpenFrom before (c :: t) ↔ s.OpenAt before (c :: t) ∨ s.OpenFrom (c :: before) t := by
  constructor
  · rintro ⟨x, y, split, at_⟩
    cases x with
    | nil =>
      subst split
      exact .inl at_
    | cons d x =>
      obtain ⟨rfl, rfl⟩ := List.cons.inj split
      exact .inr ⟨x, y, rfl, by simpa using at_⟩
  · rintro (at_ | ⟨x, y, rfl, at_⟩)
    · exact ⟨[], c :: t, rfl, at_⟩
    · exact ⟨c :: x, y, rfl, by simpa using at_⟩

theorem openAppend {s : Substitution} {before x t : Text} (h : s.OpenFrom before (x ++ t)) :
    (∃ x₁ x₂, x = x₁ ++ x₂ ∧ x₂ ≠ [] ∧ s.OpenAt (x₁.reverse ++ before) (x₂ ++ t)) ∨
      s.OpenFrom (x.reverse ++ before) t := by
  induction x generalizing before with
  | nil => exact .inr h
  | cons c x ih =>
    rcases openCons.mp h with at_ | later
    · exact .inl ⟨[], c :: x, rfl, by simp, at_⟩
    · rcases ih later with ⟨x₁, x₂, rfl, some, at_⟩ | rest
      · exact .inl ⟨c :: x₁, x₂, rfl, some, by simpa using at_⟩
      · exact .inr (by simpa using rest)

theorem openLater {s : Substitution} {before x t : Text} (h : s.OpenFrom (x.reverse ++ before) t) :
    s.OpenFrom before (x ++ t) := by
  obtain ⟨y, z, rfl, at_⟩ := h
  exact ⟨x ++ y, z, by simp, by simpa using at_⟩

/-- The course of a substitution: what is found is read whole, also where it is refused. -/
inductive Scan (s : Substitution) : (before here : Text) → List Piece → Prop where
  | nil (before : Text) : Scan s before [] []
  | pass {before rest : Text} {c : Char} {ps : List Piece}
      (none : s.find? before (c :: rest) = none) (next : Scan s (c :: before) rest ps) :
      Scan s before (c :: rest) (.kept [c] :: ps)
  | found {before here : Text} {f : Found} {ps : List Piece}
      (found : s.find? before here = some f) (next : Scan s (f.old.reverse ++ before) f.rest ps) :
      Scan s before here (s.piece before f :: ps)

/-- What the runs below rely on. A match is never empty; a place inside a name is open only if
the start of the name is; and no match ends where a name could go on. -/
structure Regular (s : Substitution) : Prop where
  solid : ∀ {before here f}, s.find? before here = some f → f.old ≠ []
  inside : ∀ {before rest c}, s.find? before (c :: rest) = none →
    s.startsAfter (c :: before) = true ∨ s.find? (c :: before) rest = none
  ends : ∀ {before here f}, s.find? before here = some f →
    s.startsAfter (f.old.reverse ++ before) = true

theorem findRead {s : Substitution} {before here : Text} {f : Found}
    (found : s.find? before here = some f) : Found.read? s.steps here = some f := by
  unfold find? at found
  split at found
  · contradiction
  · exact found

theorem findSplit {s : Substitution} {before here : Text} {f : Found}
    (found : s.find? before here = some f) : here = f.old ++ f.rest :=
  (Found.readKeeps (findRead found)).symm

theorem regularOfWord {s : Substitution} {c : Char} {w : Text} {put : Option Text}
    {more : List Step} (shape : s.steps = ⟨.word (c :: w), put⟩ :: more) : s.Regular where
  solid found := by
    have read := findRead found
    rw [shape] at read
    obtain ⟨x, rest, g, -, takes, -, rfl⟩ := Found.readCons.mp read
    cases takes
    simp
  inside _ := .inl (by simp [startsAfter, nameFirst, shape])
  ends _ := by simp [startsAfter, nameFirst, shape]

theorem skipped (s : Substitution) (before x rest : Text) :
    s.piecesFrom before x.length (x ++ rest) = s.piecesFrom (x.reverse ++ before) 0 rest := by
  induction x generalizing before with
  | nil => rfl
  | cons c x ih => simp [piecesFrom, ih]

theorem scanned {s : Substitution} (regular : s.Regular) (before here : Text) :
    Scan s before here (s.piecesFrom before 0 here) := by
  match here with
  | [] => exact .nil before
  | c :: rest =>
    rw [piecesFrom]
    split
    · rename_i none
      exact .pass none (scanned regular (c :: before) rest)
    · rename_i f found
      have split := findSplit found
      have shorter : f.rest.length < rest.length + 1 := by
        have lengths := congrArg List.length split
        have some := List.length_pos_iff.mpr (regular.solid found)
        simp only [List.length_cons, List.length_append] at lengths
        omega
      have next := scanned regular (f.old.reverse ++ before) f.rest
      cases old : f.old with
      | nil => exact absurd old (regular.solid found)
      | cons d x =>
        rw [old, List.cons_append] at split
        obtain ⟨rfl, rfl⟩ := List.cons.inj split
        have later : s.piecesFrom (c :: before) x.length (x ++ f.rest) =
            s.piecesFrom (f.old.reverse ++ before) 0 f.rest := by
          rw [skipped, old]
          simp
        simp only [List.length_cons, Nat.add_one_sub_one]
        rw [later]
        exact .found found next
  termination_by here.length
  decreasing_by
    · simp
    · simpa using shorter

theorem pieceSource (s : Substitution) (before : Text) (f : Found) :
    (s.piece before f).source = f.old := by
  unfold piece
  split <;> rfl

theorem Scan.source {s : Substitution} {before here : Text} {ps : List Piece}
    (scan : Scan s before here ps) : ps.flatMap Piece.source = here := by
  induction scan with
  | nil => rfl
  | pass none next ih => simp [Piece.source, ih]
  | @found before here f ps found next ih => simp [pieceSource, ih, ← findSplit found]

theorem startsAfterNil (s : Substitution) : s.startsAfter [] = true := by
  simp [startsAfter]

def Settled (s : Substitution) (t : Text) : Prop := ∀ p ∈ s.pieces t, ∃ x, p = .kept x

theorem Scan.settled {s : Substitution} (regular : s.Regular) {before here : Text}
    {ps : List Piece} (scan : Scan s before here ps)
    (begins : s.startsAfter before = true ∨ s.find? before here = none)
    (closed : ¬ s.OpenFrom before here) : ∀ p ∈ ps, ∃ x, p = .kept x := by
  induction scan with
  | nil => simp
  | @pass before rest c ps none next ih =>
    have later := ih (regular.inside none) (fun h => closed (openCons.mpr (.inr h)))
    intro p mem
    rcases List.mem_cons.mp mem with rfl | mem
    · exact ⟨[c], rfl⟩
    · exact later p mem
  | @found before here f ps found next ih =>
    have start : s.startsAfter before = true := by simpa [found] using begins
    have refused : s.allowed before f = false := by
      by_contra allowed
      exact closed ⟨[], here, rfl, start, f, found, by simpa using allowed⟩
    have later := ih (.inl (regular.ends found)) (by
      intro h
      apply closed
      rw [findSplit found]
      exact openLater h)
    intro p mem
    rcases List.mem_cons.mp mem with rfl | mem
    · refine ⟨f.old, ?_⟩
      unfold allowed at refused
      simp [piece, refused]
    · exact later p mem

theorem settledOfClosed {s : Substitution} (regular : s.Regular) {t : Text} (closed : ¬ s.Open t) :
    s.Settled t :=
  (scanned regular [] t).settled regular (.inl s.startsAfterNil) closed

theorem Scan.changes {s : Substitution} {before here : Text} {ps : List Piece}
    (scan : Scan s before here ps)
    (alters : ∀ {before here f}, s.find? before here = some f → f.old ≠ f.new)
    (blind : ∀ {before here f x y}, s.find? before here = some f → f.old = x ++ y → x ≠ [] →
      y ≠ [] → ¬ s.OpenAt (x.reverse ++ before) (y ++ f.rest))
    (regular : s.Regular) (opened : s.OpenFrom before here) : ps.any Piece.changes = true := by
  induction scan with
  | nil =>
    obtain ⟨x, y, split, -, f, found, -⟩ := opened
    have empty : y = [] := by simp_all
    subst empty
    have split := findSplit found
    exact absurd (List.append_eq_nil_iff.mp split.symm).1 (regular.solid found)
  | pass none next ih =>
    rcases openCons.mp opened with ⟨-, f, found, -⟩ | later
    · rw [none] at found
      contradiction
    · simp [ih later]
  | @found before here f ps found next ih =>
    rw [findSplit found] at opened
    rcases openAppend opened with ⟨x, y, old, someY, at_⟩ | later
    · cases x with
      | nil =>
        rw [List.reverse_nil, List.nil_append] at at_
        obtain ⟨-, g, found', allowed⟩ := at_
        have same : s.find? before here = some g := by
          rw [findSplit found, old]
          exact found'
        cases Option.some.inj (found.symm.trans same)
        have differs := alters found
        have all : s.guards.all (·.allows before f.rest) = true := allowed
        simp [piece, all, Piece.changes, differs]
      | cons c x => exact absurd at_ (blind found old (by simp) someY)  -- passed over with the match
    · simp [ih later]

theorem sources {s : Substitution} (regular : s.Regular) (t : Text) :
    (s.pieces t).flatMap Piece.source = t := (scanned regular [] t).source

theorem sameResult {ps : List Piece} (same : ps.any Piece.changes = false) :
    ps.flatMap Piece.result = ps.flatMap Piece.source := by
  induction ps with
  | nil => rfl
  | cons p ps ih =>
    simp only [List.any_cons, Bool.or_eq_false_iff] at same
    have first : p.result = p.source := by
      cases p with
      | kept x => rfl
      | swapped old new =>
        have equal : old = new := by simpa [Piece.changes] using same.1
        exact equal.symm
    simp [first, ih same.2]

theorem applyOfNone {s : Substitution} (regular : s.Regular) {t : Text} (none : s.change? t = none) :
    s.apply t = t := by
  have same : (s.pieces t).any Piece.changes = false := by simpa [change?] using none
  rw [apply, sameResult same, sources regular]

theorem applyOfSome {s : Substitution} {t u : Text} (changed : s.change? t = some u) :
    s.apply t = u := by
  simp only [change?] at changed
  split at changed <;> try contradiction
  exact Option.some.inj changed

theorem Settled.none {s : Substitution} {t : Text} (settled : s.Settled t) :
    s.change? t = none := by
  have same : (s.pieces t).any Piece.changes = false := by
    rw [List.any_eq_false]
    intro p mem
    obtain ⟨x, rfl⟩ := settled p mem
    simp [Piece.changes]
  simp [change?, same]

end Substitution

namespace Rule
open Substitution (apply)

def applyAll (substitutions : List Substitution) (t : Text) : Text :=
  substitutions.foldl (fun t s => s.apply t) t

@[simp] theorem applyAllNil (t : Text) : applyAll [] t = t := rfl

@[simp] theorem applyAllCons (s : Substitution) (rest : List Substitution) (t : Text) :
    applyAll (s :: rest) t = applyAll rest (s.apply t) := rfl

theorem applyAllAppend (first second : List Substitution) (t : Text) :
    applyAll (first ++ second) t = applyAll second (applyAll first t) := List.foldl_append

theorem applyAllRelates {R : Text → Text → Prop} (refl : ∀ t, R t t)
    (trans : ∀ {t u v}, R t u → R u v → R t v) {substitutions : List Substitution}
    (each : ∀ s ∈ substitutions, ∀ t, R t (s.apply t)) (t : Text) :
    R t (applyAll substitutions t) := by
  induction substitutions generalizing t with
  | nil => exact refl t
  | cons s rest ih =>
    exact trans (each s (by simp) t) (ih (fun s mem => each s (by simp [mem])) (s.apply t))

theorem countShifts {F : Text × Nat → Substitution → Text × Nat}
    (shift : ∀ t n s, F (t, n) s = ((F (t, 0) s).1, n + (F (t, 0) s).2))
    (ss : List Substitution) (t : Text) (n : Nat) :
    ss.foldl F (t, n) = ((ss.foldl F (t, 0)).1, n + (ss.foldl F (t, 0)).2) := by
  induction ss generalizing t n with
  | nil => rfl
  | cons s ss ih =>
    simp only [List.foldl_cons]
    rw [shift t n s, ih, ih (F (t, 0) s).1 (F (t, 0) s).2]
    simp [Nat.add_assoc]

theorem runCons {s : Substitution} (regular : s.Regular) (rest : List Substitution) (t : Text) :
    run (s :: rest) t =
      (let r := run rest (s.apply t)
       (r.1, (if (s.change? t).isSome then 1 else 0) + r.2)) := by
  unfold run
  rw [List.foldl_cons]
  cases change : s.change? t with
  | none =>
    rw [Substitution.applyOfNone regular change]
    simp [change]
  | some u =>
    rw [Substitution.applyOfSome change]
    simp only [change, Option.isSome_some, ↓reduceIte]
    apply countShifts
    intro t n s
    cases s.change? t <;> simp

theorem runText {substitutions : List Substitution}
    (regular : ∀ s ∈ substitutions, s.Regular) (t : Text) :
    (run substitutions t).1 = applyAll substitutions t := by
  induction substitutions generalizing t with
  | nil => rfl
  | cons s rest ih =>
    rw [runCons (regular s (by simp))]
    exact ih (fun s mem => regular s (by simp [mem])) (s.apply t)

theorem runSettled {substitutions : List Substitution} {t : Text}
    (none : ∀ s ∈ substitutions, s.change? t = none) : run substitutions t = (t, 0) := by
  induction substitutions with
  | nil => rfl
  | cons s rest ih =>
    have later := ih (fun s mem => none s (by simp [mem]))
    unfold run at later ⊢
    rw [List.foldl_cons]
    simpa only [none s (by simp)] using later

theorem noneOfRun {substitutions : List Substitution}
    (regular : ∀ s ∈ substitutions, s.Regular) {t : Text} (zero : (run substitutions t).2 = 0) :
    ∀ s ∈ substitutions, s.change? t = none := by
  induction substitutions generalizing t with
  | nil => simp
  | cons s rest ih =>
    rw [runCons (regular s (by simp))] at zero
    simp only [Nat.add_eq_zero_iff] at zero
    have first : s.change? t = none := by
      cases change : s.change? t with
      | none => rfl
      | some u => simp [change] at zero
    rw [Substitution.applyOfNone (regular s (by simp)) first] at zero
    have later := ih (fun s mem => regular s (by simp [mem])) zero.2
    intro s' mem
    rcases List.mem_cons.mp mem with rfl | mem
    · exact first
    · exact later s' mem

end Rule
end LintRemedy
