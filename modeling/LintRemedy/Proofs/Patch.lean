import LintRemedy.Proofs.Insertion

/-!
What the dependency stage does to a text: to each line what its own findings ask for, in their
order, and nothing else. The findings of other lines leave it alone (`patchLinesAt`), so the work
on a text is the work on its lines, and so is the number of names inserted.
-/
namespace LintRemedy.Dependency
open Text (splitOn joinWith)
open Bracketed (last?)
open scoped LintRemedy.Counts

def namesOf (d : Diagnostic) : List Text := (Message.missing? d.message.toList).getD []

/-- The findings on the line with index `i`. Lines count from 1. -/
def targeting (ds : List Diagnostic) (i : Nat) : List Diagnostic := ds.filter (·.line == i + 1)

def missingOn (ds : List Diagnostic) (i : Nat) : List Text := (targeting ds i).flatMap namesOf

def insertAll (ds : List Diagnostic) (line : Text) : Text :=
  ds.foldl (fun line d => (insertNames (namesOf d) line).1) line

theorem targetingCons (d : Diagnostic) (ds : List Diagnostic) (i : Nat) :
    targeting (d :: ds) i = if d.line = i + 1 then d :: targeting ds i else targeting ds i := by
  unfold targeting
  split
  · rename_i here
    rw [List.filter_cons_of_pos (by simp [here])]
  · rename_i other
    rw [List.filter_cons_of_neg (by simp [other])]

theorem missingOnCons (d : Diagnostic) (ds : List Diagnostic) (i : Nat) :
    missingOn (d :: ds) i =
      if d.line = i + 1 then namesOf d ++ missingOn ds i else missingOn ds i := by
  unfold missingOn
  rw [targetingCons]
  split
  · rfl
  · rfl

theorem missingUnresolved {d : Diagnostic} (unresolved : namesOf d = []) (ds : List Diagnostic)
    (i : Nat) : missingOn (d :: ds) i = missingOn ds i := by
  rw [missingOnCons, unresolved]
  split
  · rfl
  · rfl

theorem patchOneCases (lines : List Text) (d : Diagnostic) :
    (∃ k line, d.line = k + 1 ∧ lines[k]? = some line ∧
      (patchOne lines d).1 = lines.set k (insertNames (namesOf d) line).1 ∧
      (patchOne lines d).2.count = (insertNames (namesOf d) line).2.getD 0) ∨
    ((namesOf d = [] ∨ ∀ k, d.line = k + 1 → lines[k]? = none) ∧
      (patchOne lines d).1 = lines ∧ (patchOne lines d).2.count = 0) := by
  unfold patchOne namesOf
  cases Message.missing? d.message.toList with
  | none => exact .inr ⟨.inl rfl, rfl, rfl⟩
  | some names =>
    cases number : d.line with
    | zero => exact .inr ⟨.inr (by simp), rfl, rfl⟩
    | succ k =>
      cases here : lines[k]? with
      | none => exact .inr ⟨.inr (by simpa using here), by simp [here], by simp [here, Status.count]⟩
      | some line =>
        have counted : ∀ o : Option Nat, (statusOf o).count = o.getD 0 := by
          intro o
          rcases o with _ | _ | n <;> rfl
        refine .inl ⟨k, line, rfl, here, ?_, ?_⟩
        · simp [here]
        · simp [here, counted]

theorem patchOneLength (lines : List Text) (d : Diagnostic) :
    (patchOne lines d).1.length = lines.length := by
  rcases patchOneCases lines d with ⟨k, line, -, -, edited, -⟩ | ⟨-, same, -⟩
  · rw [edited, List.length_set]
  · rw [same]

theorem patchOneAt (lines : List Text) (d : Diagnostic) (i : Nat) :
    (patchOne lines d).1[i]? = lines[i]?.map (insertAll (targeting [d] i)) := by
  have off : d.line ≠ i + 1 → insertAll (targeting [d] i) = id := by
    intro other
    rw [targetingCons, if_neg other]
    rfl
  rcases patchOneCases lines d with ⟨k, line, number, here, edited, -⟩ | ⟨idle, same, -⟩
  · rw [edited, List.getElem?_set]
    by_cases place : k = i
    · subst place
      have inside := (List.getElem?_eq_some_iff.mp here).1
      rw [if_pos rfl, if_pos inside, here, targetingCons, if_pos number]
      rfl
    · have other : d.line ≠ i + 1 := by omega
      rw [if_neg place, off other, Option.map_id_apply]
  · rw [same]
    by_cases number : d.line = i + 1
    · rcases idle with unresolved | outside
      · have nothing : insertAll (targeting [d] i) = id := by
          funext line
          simp [insertAll, number, targeting, unresolved, insertNames]
        rw [nothing, Option.map_id_apply]
      · rw [outside i number]
        rfl
    · rw [off number, Option.map_id_apply]

theorem patchLinesAt (ds : List Diagnostic) (lines : List Text) (i : Nat) :
    (patchLines ds lines).1[i]? = lines[i]?.map (insertAll (targeting ds i)) := by
  induction ds generalizing lines with
  | nil =>
    have nothing : insertAll (targeting [] i) = id := rfl
    rw [nothing, Option.map_id_apply]
    rfl
  | cons d ds ih =>
    have both : insertAll (targeting (d :: ds) i) =
        insertAll (targeting ds i) ∘ insertAll (targeting [d] i) := by
      funext line
      rw [targetingCons, targetingCons]
      split <;> rfl
    have step : (patchLines (d :: ds) lines).1 = (patchLines ds (patchOne lines d).1).1 := rfl
    rw [step, ih, patchOneAt, both, Option.map_map]

theorem patchLinesLength (ds : List Diagnostic) (lines : List Text) :
    (patchLines ds lines).1.length = lines.length := by
  induction ds generalizing lines with
  | nil => rfl
  | cons d ds ih =>
    have step : (patchLines (d :: ds) lines).1 = (patchLines ds (patchOne lines d).1).1 := rfl
    rw [step, ih, patchOneLength]

theorem patchLinesMap (ds : List Diagnostic) (lines : List Text) :
    (patchLines ds lines).1 = lines.mapIdx fun i => insertAll (targeting ds i) := by
  apply List.ext_getElem?
  intro i
  rw [patchLinesAt, List.getElem?_mapIdx]

theorem patchEither (t : Text) (ds : List Diagnostic) :
    (patch t ds).text = if (patch t ds).inserted = 0 then t
      else joinWith '\n' (patchLines (ds.filter handles) (splitOn '\n' t)).1 := rfl

theorem patchText (t : Text) (ds : List Diagnostic) :
    (patch t ds).text = joinWith '\n' (if (patch t ds).inserted = 0 then splitOn '\n' t
      else (splitOn '\n' t).mapIdx fun i => insertAll (targeting (ds.filter handles) i)) := by
  rw [patchEither, patchLinesMap]
  split
  · rw [Text.joinSplit]
  · rfl

theorem insertAllPatched {ds : List Diagnostic} (paths : ∀ d ∈ ds, ∀ n ∈ namesOf d, PathLike n)
    (line : Text) : Patched (ds.flatMap namesOf) line (insertAll ds line) := by
  induction ds generalizing line with
  | nil => exact .nothing line
  | cons d ds ih =>
    have first := (insertNamesPatched (paths d (by simp)) line).1
    have rest := ih (fun d mem => paths d (by simp [mem])) (insertNames (namesOf d) line).1
    exact first.trans rest

theorem insertAllUnbroken {ds : List Diagnostic} (paths : ∀ d ∈ ds, ∀ n ∈ namesOf d, PathLike n)
    {line : Text} (single : '\n' ∉ line) : '\n' ∉ insertAll ds line := by
  induction ds generalizing line with
  | nil => exact single
  | cons d ds ih =>
    exact ih (fun d mem => paths d (by simp [mem])) (insertNamesUnbroken (paths d (by simp)) single)

theorem sumEdited {f g : Nat → Text → Nat} {lines : List Text} {k n : Nat} {line edited : Text}
    (here : lines[k]? = some line) (edit : f k line = n + g k edited)
    (others : ∀ i, i ≠ k → ∀ l, f i l = g i l) :
    (lines.mapIdx f).sum = n + ((lines.set k edited).mapIdx g).sum := by
  induction lines generalizing k f g with
  | nil => simp at here
  | cons l lines ih =>
    cases k with
    | zero =>
      have same : l = line := by simpa using here
      subst same
      have rest : lines.mapIdx (fun i => f (i + 1)) = lines.mapIdx (fun i => g (i + 1)) := by
        congr 1
        funext i l
        exact others (i + 1) (by simp) l
      simp only [List.mapIdx_cons, List.set_cons_zero, List.sum_cons, rest, edit]
      omega
    | succ k =>
      have rest := ih (f := fun i => f (i + 1)) (g := fun i => g (i + 1)) (k := k)
        (by simpa using here) edit (fun i other l => others (i + 1) (by simpa using other) l)
      simp only [List.mapIdx_cons, List.set_cons_succ, List.sum_cons, rest,
        others 0 (by simp) l]
      omega

theorem sumSame {f g : Nat → Text → Nat} {lines : List Text}
    (same : ∀ i line, lines[i]? = some line → f i line = g i line) :
    (lines.mapIdx f).sum = (lines.mapIdx g).sum := by
  congr 1
  apply List.ext_getElem?
  intro i
  simp only [List.getElem?_mapIdx]
  cases here : lines[i]? with
  | none => rfl
  | some line => simp [same i line here]

def lacking (ds : List Diagnostic) (lines : List Text) : Nat :=
  (lines.mapIdx fun i line => (additions (missingOn ds i) line).length).sum

theorem patchLinesCount {ds : List Diagnostic} (paths : ∀ d ∈ ds, ∀ n ∈ namesOf d, PathLike n)
    (lines : List Text) :
    ((patchLines ds lines).2.map fun (_, s) => s.count).sum = lacking ds lines := by
  -- By induction on the findings: what the first one inserts, the others no longer lack.
  induction ds generalizing lines with
  | nil =>
    have nothing : ∀ line, additions [] line = [] := by
      intro line
      unfold additions
      split <;> rfl
    have zero : ∀ n ∈ lines.mapIdx fun i line => (additions (missingOn [] i) line).length, n = 0 := by
      intro n mem
      obtain ⟨i, inside, rfl⟩ := List.mem_mapIdx.mp mem
      exact List.length_eq_zero_iff.mpr (nothing _)
    exact (List.sum_eq_zero_iff_forall_eq_nat.mpr zero).symm
  | cons d ds ih =>
    have later := ih (fun d mem => paths d (by simp [mem])) (patchOne lines d).1
    have step : ((patchLines (d :: ds) lines).2.map fun (_, s) => s.count).sum =
        (patchOne lines d).2.count + lacking ds (patchOne lines d).1 := by
      rw [← later]
      rfl
    rw [step]
    rcases patchOneCases lines d with ⟨k, line, number, here, edited, count⟩ | ⟨idle, same, count⟩
    · obtain ⟨patched, added⟩ := insertNamesPatched (paths d (by simp)) line
      rw [edited, count, added]
      symm
      apply sumEdited here
      · rw [missingOnCons, if_pos number, patched.additionsAppend, List.length_append]
      · intro i other l
        rw [missingOnCons, if_neg (by omega)]
    · rw [same, count, Nat.zero_add]
      apply sumSame
      intro i line here
      rcases idle with unresolved | outside
      · rw [missingUnresolved unresolved]
      · rw [missingOnCons, if_neg]
        intro number
        simp [outside i number] at here

theorem filterHandles {ds : List Diagnostic}
    (paths : ∀ d ∈ ds, handles d = true → ∀ n ∈ namesOf d, PathLike n) :
    ∀ d ∈ ds.filter handles, ∀ n ∈ namesOf d, PathLike n := by
  intro d mem
  exact paths d (List.mem_filter.mp mem).1 (List.mem_filter.mp mem).2

theorem patchInserted {ds : List Diagnostic}
    (paths : ∀ d ∈ ds, handles d = true → ∀ n ∈ namesOf d, PathLike n) (t : Text) :
    (patch t ds).inserted = lacking (ds.filter handles) (splitOn '\n' t) :=
  patchLinesCount (filterHandles paths) _

theorem patchedAt {ds : List Diagnostic} (paths : ∀ d ∈ ds, ∀ n ∈ namesOf d, PathLike n)
    {lines : List Text} {i : Nat} {line : Text} (here : lines[i]? = some line) :
    ∃ line', (patchLines ds lines).1[i]? = some line' ∧ Patched (missingOn ds i) line line' := by
  refine ⟨insertAll (targeting ds i) line, ?_, ?_⟩
  · rw [patchLinesAt, here]
    rfl
  · exact insertAllPatched (fun d mem => paths d (List.mem_filter.mp mem).1) line

theorem patchLinesIdle {ds : List Diagnostic} (paths : ∀ d ∈ ds, ∀ n ∈ namesOf d, PathLike n)
    {lines : List Text} (none : lacking ds lines = 0) : (patchLines ds lines).1 = lines := by
  apply List.ext_getElem?
  intro i
  cases here : lines[i]? with
  | none => rw [patchLinesAt, here, Option.map_none]
  | some line =>
    obtain ⟨line', at_, patched⟩ := patchedAt paths here
    have nothing : additions (missingOn ds i) line = [] := by
      obtain ⟨inside, rfl⟩ := List.getElem?_eq_some_iff.mp here
      have zero := List.sum_eq_zero_iff_forall_eq_nat.mp none
      exact List.length_eq_zero_iff.mp (zero _ (List.mem_mapIdx.mpr ⟨i, inside, rfl⟩))
    rw [at_, patched.idle nothing]

theorem patchSplit {ds : List Diagnostic}
    (paths : ∀ d ∈ ds, handles d = true → ∀ n ∈ namesOf d, PathLike n) (t : Text) :
    splitOn '\n' (patch t ds).text = (patchLines (ds.filter handles) (splitOn '\n' t)).1 := by
  have good := filterHandles paths
  rw [patchEither, patchInserted paths]
  split
  · rename_i none
    rw [patchLinesIdle good none]
  · apply Text.splitJoin
    · rw [← List.length_pos_iff, patchLinesLength, List.length_pos_iff]
      exact Text.splitOnNonempty _ t
    · intro part mem
      obtain ⟨i, at_⟩ := List.mem_iff_getElem?.mp mem
      rw [patchLinesAt, Option.map_eq_some_iff] at at_
      obtain ⟨line, here, rfl⟩ := at_
      exact insertAllUnbroken (fun d mem => good d (List.mem_filter.mp mem).1)
        (Text.splitParts line (List.mem_of_getElem? here))

theorem patchAgain {ds : List Diagnostic}
    (paths : ∀ d ∈ ds, handles d = true → ∀ n ∈ namesOf d, PathLike n) (t : Text) :
    (patch (patch t ds).text ds).inserted = 0 ∧
      (patch (patch t ds).text ds).text = (patch t ds).text := by
  have none : (patch (patch t ds).text ds).inserted = 0 := by
    rw [patchInserted paths, patchSplit paths]
    apply List.sum_eq_zero_iff_forall_eq_nat.mpr
    intro n mem
    obtain ⟨i, inside, rfl⟩ := List.mem_mapIdx.mp mem
    rw [patchLinesLength] at inside
    obtain ⟨line', at_, patched⟩ :=
      patchedAt (filterHandles paths) (List.getElem?_eq_getElem inside)
    rw [(List.getElem?_eq_some_iff.mp at_).2, patched.again]
    rfl
  refine ⟨none, ?_⟩
  rw [patchEither, if_pos none]

theorem joinAround (sep : Char) {lines : List Text} {k : Nat} (inside : k < lines.length) :
    ∃ x y, ∀ line, joinWith sep (lines.set k line) = x ++ (line ++ y) := by
  induction lines generalizing k with
  | nil => simp at inside
  | cons first lines ih =>
    cases k with
    | zero =>
      cases lines with
      | nil => exact ⟨[], [], fun line => by simp [joinWith]⟩
      | cons next lines =>
        exact ⟨[], sep :: joinWith sep (next :: lines), fun line => by simp [joinWith]⟩
    | succ k =>
      have inside' : k < lines.length := by simpa using inside
      obtain ⟨x, y, around⟩ := ih inside'
      refine ⟨first ++ sep :: x, y, fun line => ?_⟩
      have later := around line
      cases rest : lines.set k line with
      | nil =>
        rw [List.set_eq_nil_iff] at rest
        simp [rest] at inside'
      | cons next tail => simp [joinWith, rest, ← later]

theorem patchKeeps {P Q : Text → Prop}
    (step : ∀ {x line y name edited}, Q name → insert? line name = some edited →
      P (x ++ (line ++ y)) → P (x ++ (edited ++ y)))
    {ds : List Diagnostic} (good : ∀ d ∈ ds, handles d = true → ∀ n ∈ namesOf d, Q n)
    {t : Text} (start : P t) : P (patch t ds).text := by
  have lines : ∀ {ds : List Diagnostic} {lines : List Text}, (∀ d ∈ ds, ∀ n ∈ namesOf d, Q n) →
      P (joinWith '\n' lines) → P (joinWith '\n' (patchLines ds lines).1) := by
    intro ds
    induction ds with
    | nil => exact fun _ start => start
    | cons d ds ih =>
      intro lines good start
      have step' : (patchLines (d :: ds) lines).1 = (patchLines ds (patchOne lines d).1).1 := rfl
      rw [step']
      apply ih (fun d mem => good d (by simp [mem]))
      rcases patchOneCases lines d with ⟨k, line, -, here, edited, -⟩ | ⟨-, same, -⟩
      · obtain ⟨inside, rfl⟩ := List.getElem?_eq_some_iff.mp here
        obtain ⟨x, y, around⟩ := joinAround '\n' inside
        have before := around lines[k]
        rw [List.set_getElem_self] at before
        rw [before] at start
        rw [edited, around]
        exact insertNamesKeeps (P := fun line => P (x ++ (line ++ y))) step (good d (by simp)) start
      · rw [same]
        exact start
  rw [patchEither]
  split
  · exact start
  · apply lines
    · intro d mem
      exact good d (List.mem_filter.mp mem).1 (List.mem_filter.mp mem).2
    · rw [Text.joinSplit]
      exact start

theorem missingUntargeted {ds : List Diagnostic} {i : Nat}
    (untargeted : ∀ d ∈ ds, d.line = i + 1 → Message.missing? d.message.toList = none) :
    missingOn ds i = [] := by
  unfold missingOn
  rw [List.flatMap_eq_nil_iff]
  intro d mem
  obtain ⟨inside, number⟩ := List.mem_filter.mp mem
  rw [namesOf, untargeted d inside (by simpa using number)]
  rfl

/-- The whole effect of the dependency stage. Lines keep their number and, outside of the interior
of their last list, their text. The list of a line keeps its elements and gets the names that the
findings on this line miss, in their order, each of them once and only if it was not there. -/
theorem patchCompletesLists (t : Text) (ds : List Diagnostic)
    (paths : ∀ d ∈ ds, handles d = true → ∀ n ∈ namesOf d, PathLike n) :
    (splitOn '\n' (patch t ds).text).length = (splitOn '\n' t).length ∧
    (∀ i line, (splitOn '\n' t)[i]? = some line →
      ∃ line', (splitOn '\n' (patch t ds).text)[i]? = some line' ∧
        ((∀ d ∈ ds, handles d = true → d.line = i + 1 →
          Message.missing? d.message.toList = none) → line' = line) ∧
        (last? line = none → line' = line) ∧
        ∀ b, last? line = some b → ∃ inner,
          line' = { b with inner := inner }.line ∧ last? line' = some { b with inner := inner } ∧
          elements inner = elements b.inner ++
            missingFrom (elements b.inner) (missingOn (ds.filter handles) i)) ∧
    (patch t ds).inserted = lacking (ds.filter handles) (splitOn '\n' t) := by
  rw [patchSplit paths]
  refine ⟨patchLinesLength _ _, ?_, patchInserted paths t⟩
  intro i line here
  obtain ⟨line', at_, patched⟩ := patchedAt (filterHandles paths) here
  refine ⟨line', at_, ?_, patched.unlisted, ?_⟩
  · intro untargeted
    have nothing : missingOn (ds.filter handles) i = [] :=
      missingUntargeted fun d mem =>
        untargeted d (List.mem_filter.mp mem).1 (List.mem_filter.mp mem).2
    apply patched.idle
    rw [nothing, additions]
    split <;> rfl
  · intro b list
    obtain ⟨inner, list', all⟩ := patched.listed list
    exact ⟨inner, (Bracketed.lastIff.mp list').1, list', all⟩

def repeatedFinding : Diagnostic where
  path := "view.tsx"
  rule := rule
  severity := .warning
  line := 2
  column := 4
  message := "React Hook useEffect has missing dependencies: 'load', 'props.id' and 'load'."
  suggestions := []

theorem patchCompletesTwo :
    (∀ d ∈ [repeatedFinding], handles d = true → ∀ n ∈ namesOf d, PathLike n) ∧
    (patch "const [a] = f();\nf, [load, a, ]);".toList [repeatedFinding]).text =
      "const [a] = f();\nf, [load, a, props.id ]);".toList ∧
    (patch "const [a] = f();\nf, [load, a, ]);".toList [repeatedFinding]).inserted = 1 := by
  have paths : ∀ d ∈ [repeatedFinding], handles d = true → ∀ n ∈ namesOf d, PathLike n := by
    decide +kernel
  have effect := patchCompletesLists "const [a] = f();\nf, [load, a, ]);".toList _ paths
  refine ⟨paths, by decide +kernel, effect.2.2.trans (by decide +kernel)⟩

end LintRemedy.Dependency
