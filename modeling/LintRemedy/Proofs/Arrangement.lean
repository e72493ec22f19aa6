import LintRemedy.Proofs.Statuses
import Mathlib.Data.List.FinRange
import Mathlib.Data.List.Sort

/-!
The order of findings on different lines. What becomes of a finding depends on the text and on the
findings before it on its own line, and on nothing else (`entryOwn`). So the findings may come in any
order in which those on one line follow each other as before: the text and the number of names are
the same, and each finding has the same status wherever it stands.
-/
namespace LintRemedy.Dependency
open Text (splitOn joinWith)

section Indices
variable {n : Nat} {σ : Equiv.Perm (Fin n)}

theorem takeIndices (i : Nat) :
    (List.finRange n).take i = (List.finRange n).filter fun k => k.val < i := by
  have ascending := List.pairwise_lt_finRange n
  apply (ascending.sublist (List.take_sublist _ _)).eq_of_mem_iff (ascending.filter _)
  intro j
  rw [List.mem_take_iff_getElem, List.mem_filter]
  constructor
  · rintro ⟨k, inside, rfl⟩
    have early : k < i := by omega
    simpa using early
  · intro ⟨_, early⟩
    exact ⟨j, by simpa using early, by simp⟩

theorem indicesSent {p q : Fin n → Bool} (sent : ∀ i, p i = q (σ i))
    (ascends : ∀ i j, i < j → p i = true → p j = true → σ i < σ j) :
    ((List.finRange n).filter p).map σ = (List.finRange n).filter q := by
  have ascending := List.pairwise_lt_finRange n
  have images : (((List.finRange n).filter p).map σ).Pairwise (· < ·) := by
    rw [List.pairwise_map]
    apply (ascending.filter p).imp_of_mem
    intro i j inside inside' before
    exact ascends i j before (List.mem_filter.mp inside).2 (List.mem_filter.mp inside').2
  apply images.eq_of_mem_iff (ascending.filter q)
  intro k
  simp only [List.mem_map, List.mem_filter, List.mem_finRange, true_and, sent]
  constructor
  · rintro ⟨i, holds, rfl⟩
    exact holds
  · intro holds
    exact ⟨σ.symm k, by simpa using holds, by simp⟩

end Indices

variable {ds : List Diagnostic} {σ : Equiv.Perm (Fin ds.length)}

def arranged (ds : List Diagnostic) (σ : Equiv.Perm (Fin ds.length)) : List Diagnostic :=
  (List.finRange ds.length).map fun i => ds.get (σ i)

def onLine (line : Nat) (d : Diagnostic) : Bool := handles d && d.line == line

theorem onLineHandled (ds : List Diagnostic) (line : Nat) :
    (ds.filter handles).filter (·.line == line) = ds.filter (onLine line) := by
  rw [List.filter_filter]
  exact List.filter_congr fun d _ => Bool.and_comm ..

def KeepsLines (ds : List Diagnostic) (σ : Equiv.Perm (Fin ds.length)) : Prop :=
  ∀ i j, i < j → handles (ds.get (σ i)) = true → handles (ds.get (σ j)) = true →
    (ds.get (σ i)).line = (ds.get (σ j)).line → σ i < σ j

instance : Decidable (KeepsLines ds σ) := by unfold KeepsLines; infer_instance

theorem arrangedLength : (arranged ds σ).length = ds.length := by simp [arranged]

theorem arrangedAt (i : Fin ds.length) : (arranged ds σ)[i.val]? = some (ds.get (σ i)) := by
  simp [arranged]

theorem KeepsLines.ascends (kept : KeepsLines ds σ) (line : Nat) (i j : Fin ds.length)
    (before : i < j) (first : onLine line (ds.get (σ i)) = true)
    (second : onLine line (ds.get (σ j)) = true) : σ i < σ j := by
  simp only [onLine, Bool.and_eq_true, beq_iff_eq] at first second
  exact kept i j before first.1 second.1 (first.2.trans second.2.symm)

theorem arrangedOnLine (kept : KeepsLines ds σ) (line : Nat) :
    (arranged ds σ).filter (onLine line) = ds.filter (onLine line) := by
  have places := indicesSent (q := fun k => onLine line (ds.get k)) (fun _ => rfl)
    (kept.ascends line)
  calc (arranged ds σ).filter (onLine line)
      = (((List.finRange ds.length).filter fun i => onLine line (ds.get (σ i))).map σ).map ds.get := by
        rw [arranged, List.filter_map, List.map_map]
        rfl
    _ = ((List.finRange ds.length).map ds.get).filter (onLine line) := by
        rw [places, List.filter_map]
        rfl
    _ = ds.filter (onLine line) := by rw [List.map_get_finRange]

theorem arrangedBefore (kept : KeepsLines ds σ) {line : Nat} {i : Fin ds.length}
    (own : onLine line (ds.get (σ i)) = true) :
    ((arranged ds σ).take i).filter (onLine line) = (ds.take (σ i)).filter (onLine line) := by
  -- Of two findings on the line, the one that comes first now came first before.
  have order : ∀ k, onLine line (ds.get (σ k)) = true → (k < i ↔ σ k < σ i) := by
    intro k holds
    constructor
    · intro before
      exact kept.ascends line k i before holds own
    · intro before
      rcases lt_trichotomy k i with early | same | late
      · exact early
      · exact absurd (same ▸ before) (lt_irrefl _)
      · exact absurd (kept.ascends line i k late own holds) (lt_asymm before)
  have places := indicesSent (σ := σ)
    (p := fun k => onLine line (ds.get (σ k)) && decide (k.val < i))
    (q := fun k => onLine line (ds.get k) && decide (k.val < σ i))
    (by
      intro k
      cases holds : onLine line (ds.get (σ k)) with
      | false => rfl
      | true => exact decide_eq_decide.mpr (order k holds))
    (by
      intro k l before first second
      exact kept.ascends line k l before (Bool.and_eq_true_iff.mp first).1
        (Bool.and_eq_true_iff.mp second).1)
  calc ((arranged ds σ).take i).filter (onLine line)
      = (((List.finRange ds.length).filter
          fun k => onLine line (ds.get (σ k)) && decide (k.val < i)).map σ).map ds.get := by
        rw [arranged, ← List.map_take, takeIndices, List.filter_map, List.filter_filter,
          List.map_map]
        rfl
    _ = (((List.finRange ds.length).take (σ i)).map ds.get).filter (onLine line) := by
        rw [places, takeIndices, List.filter_map, List.filter_filter]
        rfl
    _ = (ds.take (σ i)).filter (onLine line) := by rw [List.map_take, List.map_get_finRange]

def told (lines : List Text) (earlier : List Diagnostic) (d : Diagnostic) : Status :=
  (patchOne (patchLines earlier lines).1 d).2

theorem patchOneStatus {lines others : List Text} {d : Diagnostic}
    (count : lines.length = others.length)
    (line : ∀ k, d.line = k + 1 → lines[k]? = others[k]?) :
    (patchOne lines d).2 = (patchOne others d).2 := by
  unfold patchOne
  cases Message.missing? d.message.toList with
  | none => rfl
  | some names =>
    cases number : d.line with
    | zero => simp [count]
    | succ k =>
      have same := line k number
      cases here : lines[k]? with
      | none => simp [← same, here, count]
      | some text => simp [← same, here]

theorem toldOwn (lines : List Text) (earlier : List Diagnostic) (d : Diagnostic) :
    told lines earlier d = told lines (earlier.filter (·.line == d.line)) d := by
  apply patchOneStatus
  · rw [patchLinesLength, patchLinesLength]
  · intro k number
    have own : targeting (earlier.filter (·.line == d.line)) k = targeting earlier k := by
      simp [targeting, List.filter_filter, number]
    rw [patchLinesAt, patchLinesAt, own]

theorem patchLinesAppend (earlier later : List Diagnostic) (lines : List Text) :
    (patchLines (earlier ++ later) lines).2 =
      (patchLines earlier lines).2 ++ (patchLines later (patchLines earlier lines).1).2 := by
  induction earlier generalizing lines with
  | nil => rfl
  | cons d earlier ih => simp only [List.cons_append, patchLines, ih]

theorem patchLinesStatuses (ds : List Diagnostic) (lines : List Text) :
    (patchLines ds lines).2.length = ds.length := by
  induction ds generalizing lines with
  | nil => rfl
  | cons d ds ih => simp only [patchLines, List.length_cons, ih]

theorem patchLinesTold (earlier later : List Diagnostic) (d : Diagnostic) (lines : List Text) :
    (patchLines (earlier ++ d :: later) lines).2[earlier.length]? =
      some (d, told lines earlier d) := by
  rw [patchLinesAppend, List.getElem?_append_right (by rw [patchLinesStatuses]),
    patchLinesStatuses, Nat.sub_self]
  rfl

def entryAt (t : Text) (ds : List Diagnostic) (i : Nat) : Option (Diagnostic × Status) :=
  if ds[i]?.any handles then (patch t ds).statuses[(ds.take i).countP handles]? else none

theorem entryOwn (t : Text) (ds : List Diagnostic) (i : Nat) :
    entryAt t ds i = (ds[i]?.filter handles).map fun d =>
      (d, told (splitOn '\n' t) ((ds.take i).filter (onLine d.line)) d) := by
  unfold entryAt
  cases here : ds[i]? with
  | none => rfl
  | some d =>
    cases ours : handles d with
    | false => simp [ours]
    | true =>
      obtain ⟨inside, rfl⟩ := List.getElem?_eq_some_iff.mp here
      have split : ds.filter handles =
          (ds.take i).filter handles ++ ds[i] :: (ds.drop (i + 1)).filter handles := by
        rw [← List.filter_cons_of_pos ours, ← List.filter_append, List.getElem_cons_drop,
          List.take_append_drop]
      have entry : (patch t ds).statuses[(ds.take i).countP handles]? =
          some (ds[i], told (splitOn '\n' t) ((ds.take i).filter handles) ds[i]) := by
        change (patchLines (ds.filter handles) (splitOn '\n' t)).2[_]? = _
        rw [split, List.countP_eq_length_filter]
        exact patchLinesTold ..
      rw [toldOwn, onLineHandled] at entry
      simp [ours, entry]

theorem entrySnoc (t : Text) (ds : List Diagnostic) (d : Diagnostic) {i : Nat}
    (inside : i < ds.length) : entryAt t (ds ++ [d]) i = entryAt t ds i := by
  rw [entryOwn, entryOwn, List.getElem?_append_left inside,
    List.take_append_of_le_length (Nat.le_of_lt inside)]

theorem entryLast (t : Text) (ds : List Diagnostic) (d : Diagnostic) :
    (patch t (ds ++ [d])).statuses =
      (patch t ds).statuses ++ (entryAt t (ds ++ [d]) ds.length).toList := by
  have statuses : ∀ ds, (patch t ds).statuses =
      (patchLines (ds.filter handles) (splitOn '\n' t)).2 := fun _ => rfl
  rw [statuses, statuses, List.filter_append, patchLinesAppend, entryOwn,
    List.getElem?_append_right (Nat.le_refl _), Nat.sub_self, List.take_left]
  congr 1
  cases ours : handles d with
  | false => simp [ours, patchLines]
  | true =>
    have own := toldOwn (splitOn '\n' t) (ds.filter handles) d
    rw [onLineHandled] at own
    rw [List.filter_cons_of_pos ours, List.getElem?_cons_zero, Option.filter_some, if_pos ours,
      Option.map_some, ← own]
    rfl

theorem statusesEntries (t : Text) (ds : List Diagnostic) :
    (patch t ds).statuses = (List.range ds.length).filterMap (entryAt t ds) := by
  induction ds using List.reverseRecOn with
  | nil => rfl
  | append_singleton ds d ih =>
    have before : (List.range ds.length).filterMap (entryAt t (ds ++ [d])) =
        (List.range ds.length).filterMap (entryAt t ds) :=
      List.filterMap_congr fun i mem => entrySnoc t ds d (List.mem_range.mp mem)
    rw [entryLast, ih, List.length_append, List.length_singleton, List.range_succ,
      List.filterMap_append, before]
    cases entry : entryAt t (ds ++ [d]) ds.length with
    | none => simp [entry]
    | some e => simp [entry]

theorem arrangedEntry (kept : KeepsLines ds σ) (t : Text) (i : Fin ds.length) :
    entryAt t (arranged ds σ) i = entryAt t ds (σ i) := by
  have there : ds[(σ i).val]? = some (ds.get (σ i)) := by simp
  rw [entryOwn, entryOwn, arrangedAt, there]
  cases ours : handles (ds.get (σ i)) with
  | false => simp only [Option.filter_some, ours, Bool.false_eq_true, ↓reduceIte, Option.map_none]
  | true =>
    have own : onLine (ds.get (σ i)).line (ds.get (σ i)) = true := by
      simp only [onLine, ours, beq_self_eq_true, Bool.and_self]
    simp only [Option.filter_some, ours, ↓reduceIte, Option.map_some, arrangedBefore kept own]

theorem arrangedStatuses (kept : KeepsLines ds σ) (t : Text) :
    (patch t (arranged ds σ)).statuses.Perm (patch t ds).statuses := by
  have places : ∀ f : Nat → Option (Diagnostic × Status), (List.range ds.length).filterMap f =
      (List.finRange ds.length).filterMap fun i => f i.val := by
    intro f
    rw [← List.map_coe_finRange_eq_range, List.filterMap_map]
    rfl
  rw [statusesEntries, statusesEntries, arrangedLength, places, places]
  simp only [arrangedEntry kept t]
  have moved : (List.finRange ds.length).filterMap (fun i => entryAt t ds (σ i)) =
      ((List.finRange ds.length).map σ).filterMap fun i : Fin ds.length => entryAt t ds i.val := by
    rw [List.filterMap_map]
    rfl
  rw [moved]
  exact σ.map_finRange_perm.filterMap _

/-- In any order that keeps the dependency findings of each line in theirs, the findings make the
same text with the same number of names inserted, and what becomes of each finding is the same at its
new place. -/
theorem patchAnyOrder (t : Text) (ds : List Diagnostic) (σ : Equiv.Perm (Fin ds.length))
    (kept : KeepsLines ds σ) :
    (patch t (arranged ds σ)).text = (patch t ds).text ∧
    (patch t (arranged ds σ)).inserted = (patch t ds).inserted ∧
    ∀ i : Fin ds.length, entryAt t (arranged ds σ) i = entryAt t ds (σ i) := by
  have inserted : (patch t (arranged ds σ)).inserted = (patch t ds).inserted :=
    ((arrangedStatuses kept t).map _).sum_nat
  refine ⟨?_, inserted, arrangedEntry kept t⟩
  rw [patchText, patchText, inserted]
  simp only [targeting, onLineHandled, arrangedOnLine kept]

def scatteredFindings : List Diagnostic :=
  [{ repeatedFinding with message := "missing dependency: 'b'" },
    { repeatedFinding with line := 3, message := "missing dependency: 'c'" },
    { repeatedFinding with message := "missing dependencies: 'd[0]' and 'b'" },
    { repeatedFinding with line := 9 },
    { repeatedFinding with rule := "no-var" },
    { repeatedFinding with message := "unnecessary dependency: 'b'" }]

def scattering : Equiv.Perm (Fin scatteredFindings.length) :=
  ((Equiv.swap 4 2).trans ((Equiv.swap 3 4).trans (Equiv.swap 0 3)) : Equiv.Perm (Fin 6))

theorem patchAnyOrderScattered :
    let t := "f(b,\n[a, ]);\n[]".toList
    let moved := arranged scatteredFindings scattering
    KeepsLines scatteredFindings scattering ∧ moved.map Diagnostic.line = [9, 3, 2, 2, 2, 2] ∧
    (patch t moved).text = "f(b,\n[a, b, d[0, b] ]);\n[c]".toList ∧ (patch t moved).inserted = 4 ∧
    (entryAt t moved 4).map Prod.snd = some (.inserted 2) := by
  intro t moved
  have kept : KeepsLines scatteredFindings scattering := by decide +kernel
  obtain ⟨text, inserted, entries⟩ := patchAnyOrder t scatteredFindings scattering kept
  refine ⟨kept, by decide +kernel, text.trans (by decide +kernel),
    inserted.trans (by decide +kernel), ?_⟩
  have entry : entryAt t moved 4 = entryAt t scatteredFindings (scattering ⟨4, by decide⟩) :=
    entries ⟨4, by decide⟩
  rw [entry]
  decide +kernel

end LintRemedy.Dependency
