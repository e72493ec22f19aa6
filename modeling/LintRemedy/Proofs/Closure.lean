import LintRemedy.Proofs.Respelling

/-!
How texts become closed to a substitution and stay so. A run closes the text to its own
substitution if nothing it writes can be read as the shape again (`Scan.closes`); a run of another
substitution, or any other respelling, keeps it closed if every open place of the new text mirrors
one of the old text (`openBack`).
-/
namespace LintRemedy
open Text (isBlank isNameChar isWord starts)

namespace Substitution

/-- A place that is open in the new text was open in the old one. -/
def Mirrored (A : Swaps) (s : Substitution) : Prop :=
  ∀ {bt bu t u}, Past A bt bu → Respelled A bu t u → s.OpenAt bu u → s.OpenAt bt t

/-- No place inside the text that a swap writes is open. -/
def Blind (A : Swaps) (s : Substitution) : Prop :=
  ∀ {b old new x y u}, A b old new → new = x ++ y → x ≠ [] → y ≠ [] →
    ¬ s.OpenAt (x.reverse ++ b) (y ++ u)

theorem startsBack {A : Swaps} (neutral : A.Neutral) (s : Substitution) {bt bu : Text}
    (past : Past A bt bu) (h : s.startsAfter bu = true) : s.startsAfter bt = true := by
  simp only [startsAfter, Bool.not_eq_true', Bool.and_eq_false_iff] at h ⊢
  refine h.imp_right ?_
  exact past.startsBack
    (fun ok => ⟨(neutral.some ok).1, (neutral.some ok).2, neutral.nameEnd ok⟩)

theorem findIff {s : Substitution} {before here : Text} {f : Found} :
    s.find? before here = some f ↔
      (s.atWordStart = true → starts isWord before = false) ∧ Found.read? s.steps here = some f := by
  have same : before.head?.any isWord = starts isWord before := rfl
  unfold find?
  rw [same]
  cases s.atWordStart <;> cases starts isWord before <;> simp

theorem wordStartBack {A : Swaps} (neutral : A.Neutral) {s : Substitution} {bt bu : Text}
    (past : Past A bt bu) (h : s.atWordStart = true → starts isWord bu = false) :
    s.atWordStart = true → starts isWord bt = false := by
  intro word
  exact past.startsBack
    (fun ok => ⟨(neutral.some ok).1, (neutral.some ok).2, neutral.wordEnd ok⟩) (h word)

theorem mirroredBy {A : Swaps} (neutral : A.Neutral)
    (closing : ∀ {b t u}, Respelled A b t u → starts (· == ')') (t.dropWhile isBlank) = true →
      starts (· == ')') (u.dropWhile isBlank) = true) {s : Substitution}
    (readBack : ∀ {bt bu t u f}, Past A bt bu → Respelled A bu t u →
      Found.read? s.steps u = some f →
      ∃ g b, Found.read? s.steps t = some g ∧ Respelled A b g.rest f.rest) : s.Mirrored A := by
  rintro bt bu t u past h ⟨start, f, found, allowed⟩
  obtain ⟨word, read⟩ := findIff.mp found
  obtain ⟨g, b, read', rest⟩ := readBack past h read
  refine ⟨startsBack neutral s past start, g,
    findIff.mpr ⟨wordStartBack neutral past word, read'⟩, ?_⟩
  unfold Substitution.allowed at allowed ⊢
  rw [List.all_eq_true] at allowed ⊢
  intro guard mem
  exact neutral.guard closing guard past rest (allowed guard mem)

theorem mirroredOf {A : Swaps} (neutral : A.Neutral) (blanks : Item.Reads A .blanks)
    {s : Substitution}
    (readBack : ∀ {bt bu t u f}, Past A bt bu → Respelled A bu t u →
      Found.read? s.steps u = some f →
      ∃ g b, Found.read? s.steps t = some g ∧ Respelled A b g.rest f.rest) : s.Mirrored A :=
  mirroredBy neutral (neutral.closing blanks) readBack

theorem mirrored {A : Swaps} (neutral : A.Neutral) (blanks : Item.Reads A .blanks)
    {s : Substitution} (reads : ∀ step ∈ s.steps, step.item.Reads A) : s.Mirrored A := by
  apply mirroredOf neutral blanks
  intro bt bu t u f past h read
  obtain ⟨g, read', rest⟩ := Found.readBack reads h read
  exact ⟨g, _, read', rest⟩

theorem closedNil {s : Substitution} (regular : s.Regular) (before : Text) :
    ¬ s.OpenFrom before [] := by
  rintro ⟨x, y, split, -, f, found, -⟩
  obtain ⟨rfl, rfl⟩ := List.append_eq_nil_iff.mp split.symm
  exact regular.solid found (List.append_eq_nil_iff.mp (findSplit found).symm).1

theorem openBack {A : Swaps} {s : Substitution} (regular : s.Regular) (mirrored : s.Mirrored A)
    (blind : s.Blind A) {bt bu t u : Text} (past : Past A bt bu) (h : Respelled A bu t u)
    (opened : s.OpenFrom bu u) : s.OpenFrom bt t := by
  induction h generalizing bt with
  | nil bu => exact absurd opened (closedNil regular bu)
  | @keep bu t u c next ih =>
    rcases openCons.mp opened with at_ | later
    · exact openCons.mpr (.inl (mirrored past (.keep c next) at_))
    · exact openCons.mpr (.inr (ih (.keep c past) later))
  | @swap bu old new t u ok next ih =>
    rcases openAppend opened with ⟨x, y, split, some, at_⟩ | later
    · cases x with
      | nil =>
        rw [List.nil_append] at split
        subst split
        exact ⟨[], old ++ t, rfl, mirrored past (.swap ok next) at_⟩
      | cons c x => exact absurd at_ (blind ok split (by simp) some)
    · exact openLater (ih (.swap ok past) later)

theorem closedKept {A : Swaps} {s : Substitution} (regular : s.Regular) (mirrored : s.Mirrored A)
    (blind : s.Blind A) {t u : Text} (h : Respelled A [] t u) (closed : ¬ s.Open t) :
    ¬ s.Open u :=
  fun opened => closed (openBack regular mirrored blind .nil h opened)

structure Writes (A : Swaps) (s : Substitution) : Prop where
  swaps : ∀ {before here f}, s.find? before here = some f → ∀ b, Respelled A b f.old f.new
  blindNew : ∀ {before here f}, s.find? before here = some f →
    ∀ {x y}, f.new = x ++ y → y ≠ [] → ∀ b u, ¬ s.OpenAt (x.reverse ++ b) (y ++ u)
  blindOld : s.guards ≠ [] → ∀ {before here f}, s.find? before here = some f →
    ∀ {x y}, f.old = x ++ y → x ≠ [] → y ≠ [] → ∀ b u, ¬ s.OpenAt (x.reverse ++ b) (y ++ u)

theorem pieceCases (s : Substitution) (before : Text) (f : Found) :
    (s.allowed before f = true ∧ s.piece before f = .swapped f.old f.new) ∨
      (s.allowed before f = false ∧ s.piece before f = .kept f.old) := by
  unfold allowed piece
  cases s.guards.all (·.allows before f.rest) <;> simp

theorem Scan.respelled {A : Swaps} {s : Substitution}
    (swaps : ∀ {before here f}, s.find? before here = some f → ∀ b, Respelled A b f.old f.new)
    {before here : Text} {ps : List Piece} (scan : Scan s before here ps) (b : Text) :
    Respelled A b here (ps.flatMap Piece.result) := by
  induction scan generalizing b with
  | nil => exact .nil b
  | pass none next ih => exact .keep _ (ih _)
  | @found before here f ps found next ih =>
    rw [findSplit found, List.flatMap_cons]
    rcases pieceCases s before f with ⟨-, piece⟩ | ⟨-, piece⟩
    · rw [piece]
      exact (swaps found b).append (ih _)
    · rw [piece]
      exact (Respelled.refl A b f.old).append (ih _)

theorem respelled {A : Swaps} {s : Substitution} (regular : s.Regular)
    (swaps : ∀ {before here f}, s.find? before here = some f → ∀ b, Respelled A b f.old f.new)
    (t : Text) : Respelled A [] t (s.apply t) :=
  (scanned regular [] t).respelled swaps []

theorem Scan.closes {A : Swaps} {s : Substitution} (regular : s.Regular) (mirrored : s.Mirrored A)
    (writes : s.Writes A) {bt here : Text} {ps : List Piece} (scan : Scan s bt here ps) {bu : Text}
    (past : Past A bt bu) : ¬ s.OpenFrom bu (ps.flatMap Piece.result) := by
  induction scan generalizing bu with
  | nil => exact closedNil regular bu
  | @pass before rest c ps none next ih =>
    have same := (Scan.pass none next).respelled writes.swaps bu
    intro opened
    rcases openCons.mp opened with at_ | later
    · obtain ⟨-, f, found, -⟩ := mirrored past same at_
      rw [none] at found
      contradiction
    · exact ih (.keep c past) later
  | @found before here f ps found next ih =>
    have same := (Scan.found found next).respelled writes.swaps bu
    rw [List.flatMap_cons] at same ⊢
    intro opened
    rcases pieceCases s before f with ⟨-, piece⟩ | ⟨refused, piece⟩
    · rw [piece] at opened
      rcases openAppend opened with ⟨x, y, split, some, at_⟩ | later
      · exact writes.blindNew found split some _ _ at_
      · exact ih ((writes.swaps found bu).past past) later
    · rw [piece] at opened same
      rcases openAppend opened with ⟨x, y, split, some, at_⟩ | later
      · cases x with
        | nil =>
          -- The refused match itself: it is refused in the new text as it was in the old one.
          rw [List.nil_append] at split
          change f.old = y at split
          subst split
          obtain ⟨-, g, found', allowed⟩ := mirrored past same at_
          rw [found] at found'
          cases Option.some.inj found'
          simp [refused] at allowed
        | cons c x =>
          have guarded : s.guards ≠ [] := by
            intro free
            simp [Substitution.allowed, free] at refused
          exact writes.blindOld guarded found split (by simp) some _ _ at_
      · exact ih ((Respelled.refl A bu f.old).past past) later

theorem closed {A : Swaps} {s : Substitution} (regular : s.Regular) (mirrored : s.Mirrored A)
    (writes : s.Writes A) (t : Text) : ¬ s.Open (s.apply t) :=
  (scanned regular [] t).closes regular mirrored writes .nil

/-- A substitution that runs with swaps of the kind `A` and is not opened by them. -/
structure Settles (A : Swaps) (s : Substitution) : Prop where
  regular : s.Regular
  mirrored : s.Mirrored A
  blind : s.Blind A
  writes : s.Writes A

theorem Settles.respelled {A : Swaps} {s : Substitution} (settles : s.Settles A) (t : Text) :
    Respelled A [] t (s.apply t) :=
  Substitution.respelled settles.regular settles.writes.swaps t

end Substitution

theorem Rule.applyAllCloses {A : Swaps} {done rest : List Substitution}
    (settles : ∀ s ∈ done ++ rest, s.Settles A) {t : Text} (closed : ∀ s ∈ done, ¬ s.Open t) :
    ∀ s ∈ done ++ rest, ¬ s.Open (Rule.applyAll rest t) := by
  induction rest generalizing done t with
  | nil => simpa using closed
  | cons s rest ih =>
    have here := settles s (by simp)
    have next : ∀ s' ∈ done ++ [s], ¬ s'.Open (s.apply t) := by
      intro s' mem
      rcases List.mem_append.mp mem with before | same
      · have good := settles s' (by simp [before])
        exact Substitution.closedKept good.regular good.mirrored good.blind (here.respelled t)
          (closed s' before)
      · cases List.mem_singleton.mp same
        exact Substitution.closed here.regular here.mirrored here.writes t
    have all : ∀ s' ∈ (done ++ [s]) ++ rest, s'.Settles A := by simpa using settles
    simpa using ih all next

theorem Rule.applyAllClosed {A : Swaps} {substitutions : List Substitution}
    (settles : ∀ s ∈ substitutions, s.Settles A) (t : Text) :
    ∀ s ∈ substitutions, ¬ s.Open (Rule.applyAll substitutions t) := by
  have none : ∀ s ∈ ([] : List Substitution), ¬ s.Open t := by simp
  simpa using Rule.applyAllCloses (by simpa using settles) none

end LintRemedy
