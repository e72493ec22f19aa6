import LintRemedy.Proofs.LineEnds
import LintRemedy.Proofs.Statuses

/-!
Which findings the dependency stage skips, and why: `skipReason?` tells it from the finding and the
text alone. Names of any characters may be inserted before a finding has its turn, but they change
neither the number of the lines nor which of them have lists, and nothing else counts. So a finding
is skipped as it would be if it were the only one, it changes nothing, and the stage goes on as if
it had not been reported.
-/
namespace LintRemedy.Dependency
open Text (splitOn)
open Bracketed (last?)
open scoped LintRemedy.Counts

def opensList (line : Text) : Bool := (line.dropWhile (· != '[')).contains ']'

def skipReason? (t : Text) (d : Diagnostic) : Option SkipReason :=
  if Message.missing? d.message.toList = none then some .unresolvedName
  else if d.line = 0 ∨ lineEnds t + 1 < d.line then some (.outOfRange d.line (lineEnds t + 1))
  else if (splitOn '\n' t)[d.line - 1]?.any opensList then none
  else some .noList

theorem opensListIff {line : Text} :
    opensList line = true ↔ ∃ x y z, line = x ++ '[' :: (y ++ ']' :: z) := by
  rw [opensList, List.contains_iff_mem]
  constructor
  · intro close
    cases tail : line.dropWhile (· != '[') with
    | nil => simp [tail] at close
    | cons c rest =>
      have first : c = '[' := by
        have stop := Text.runStops (· != '[') line
        rw [tail] at stop
        simpa using stop
      subst first
      rw [tail] at close
      have later : ']' ∈ rest := by simpa using close
      obtain ⟨y, z, rfl⟩ := List.append_of_mem later
      exact ⟨line.takeWhile (· != '['), y, z, by rw [← tail, List.takeWhile_append_dropWhile]⟩
  · rintro ⟨x, y, z, rfl⟩
    rw [List.dropWhile_append]
    split <;> simp

theorem opensListListed (line : Text) : opensList line = (last? line).isSome := by
  rw [Bool.eq_iff_iff, opensListIff, Bracketed.listedIff]

def reasonAmong (lists : List Bool) (d : Diagnostic) : Option SkipReason :=
  if Message.missing? d.message.toList = none then some .unresolvedName
  else if d.line = 0 ∨ lists.length < d.line then some (.outOfRange d.line lists.length)
  else if lists[d.line - 1]?.any id then none
  else some .noList

theorem reasonOnText (t : Text) (d : Diagnostic) :
    reasonAmong (listed (splitOn '\n' t)) d = skipReason? t d := by
  have count : (listed (splitOn '\n' t)).length = lineEnds t + 1 := by
    rw [listed, List.length_map, Text.splitLength]
  have line : (listed (splitOn '\n' t))[d.line - 1]?.any id =
      (splitOn '\n' t)[d.line - 1]?.any opensList := by
    rw [listed, List.getElem?_map]
    cases (splitOn '\n' t)[d.line - 1]? with
    | none => rfl
    | some line => exact (opensListListed line).symm
  rw [reasonAmong, skipReason?, count, line]

theorem patchOneSkip (lines : List Text) (d : Diagnostic) :
    (patchOne lines d).2.reason? = reasonAmong (listed lines) d := by
  have count : (listed lines).length = lines.length := List.length_map _
  unfold patchOne reasonAmong
  cases read : Message.missing? d.message.toList with
  | none => rfl
  | some names =>
    cases number : d.line with
    | zero => simp [Status.reason?, count]
    | succ k =>
      cases here : lines[k]? with
      | none =>
        have outside : lines.length < k + 1 := by
          have beyond := List.getElem?_eq_none_iff.mp here
          omega
        simp [here, outside, Status.reason?, count]
      | some line =>
        have inside : ¬ lines.length < k + 1 := by
          have within := (List.getElem?_eq_some_iff.mp here).1
          omega
        have at_ : (listed lines)[k]? = some (last? line).isSome := by
          rw [listed, List.getElem?_map, here]
          rfl
        cases list : last? line with
        | none =>
          have skips := insertNamesSkipped list (missingSome read)
          simp [here, inside, at_, list, skips, statusOf, Status.reason?, count]
        | some b =>
          have isList : (last? line).isSome = true := by simp [list]
          obtain ⟨-, n, inserted, -⟩ := insertNamesOnList isList names
          have counted : (statusOf (some n)).reason? = none := by cases n <;> rfl
          simp [here, inside, at_, list, inserted, counted, count]

theorem patchOneListed (lines : List Text) (d : Diagnostic) :
    listed (patchOne lines d).1 = listed lines := patchLinesListed [d] lines

theorem skippedUncounted {s : Status} (skipped : s.reason?.isSome = true) : s.count = 0 := by
  cases s with
  | inserted n => contradiction
  | alreadyPresent => contradiction
  | skipped r => rfl

theorem patchOneSkipped {lines : List Text} {d : Diagnostic}
    (skipped : (patchOne lines d).2.reason?.isSome = true) : (patchOne lines d).1 = lines :=
  patchOneUncounted (skippedUncounted skipped)

theorem patchLinesSkips (ds : List Diagnostic) (lines : List Text) :
    (patchLines ds lines).2.map (fun (d, s) => (d, s.reason?)) =
      ds.map fun d => (d, reasonAmong (listed lines) d) := by
  induction ds generalizing lines with
  | nil => rfl
  | cons d ds ih =>
    have rest := ih (patchOne lines d).1
    rw [patchOneListed] at rest
    simp only [patchLines, List.map_cons, rest, patchOneSkip]

theorem patchLinesUnskipped (ds : List Diagnostic) {lists : List Bool} {lines : List Text}
    (same : listed lines = lists) :
    patchLines (ds.filter fun d => (reasonAmong lists d).isNone) lines =
      ((patchLines ds lines).1, (patchLines ds lines).2.filter fun x => x.2.reason?.isNone) := by
  induction ds generalizing lines with
  | nil => rfl
  | cons d ds ih =>
    have status : (patchOne lines d).2.reason? = reasonAmong lists d := by
      rw [patchOneSkip, same]
    have rest := ih ((patchOneListed lines d).trans same)
    cases reason : reasonAmong lists d with
    | none =>
      rw [List.filter_cons_of_pos (by simp [reason])]
      simp only [patchLines, rest]
      rw [List.filter_cons_of_pos (by simp [status, reason])]
    | some r =>
      have kept : (patchOne lines d).1 = lines := patchOneSkipped (by simp [status, reason])
      rw [kept] at rest
      rw [List.filter_cons_of_neg (by simp [reason]), rest]
      simp only [patchLines, kept]
      rw [List.filter_cons_of_neg (by simp [status, reason])]

theorem countsUnskipped (statuses : List (Diagnostic × Status)) :
    ((statuses.filter fun x => x.2.reason?.isNone).map fun (_, s) => s.count).sum =
      (statuses.map fun (_, s) => s.count).sum := by
  induction statuses with
  | nil => rfl
  | cons x statuses ih =>
    obtain ⟨d, s⟩ := x
    cases reason : s.reason? with
    | none =>
      rw [List.filter_cons_of_pos (by simp [reason]), List.map_cons, List.map_cons,
        List.sum_cons, List.sum_cons, ih]
    | some r =>
      have zero : s.count = 0 := skippedUncounted (by simp [reason])
      rw [List.filter_cons_of_neg (by simp [reason]), ih, List.map_cons, List.sum_cons]
      simp only [zero, Nat.zero_add]

/-- Each finding of the dependency rule, whatever its message names, is skipped for the reason that
`skipReason?` tells, or else inserted or there. Without the findings that are skipped, the outcome is
the same but for their statuses. -/
theorem skipsClassified (t : Text) (ds : List Diagnostic) :
    (patch t ds).statuses.map (fun (d, s) => (d, s.reason?)) =
      (ds.filter handles).map (fun d => (d, skipReason? t d)) ∧
    patch t (ds.filter fun d => !(handles d && (skipReason? t d).isSome)) =
      { patch t ds with
        statuses := (patch t ds).statuses.filter fun x => x.2.reason?.isNone } ∧
    (patch t ds).inserted = ((patch t ds).statuses.map fun (_, s) => s.count).sum := by
  have reasons : reasonAmong (listed (splitOn '\n' t)) = skipReason? t := funext (reasonOnText t)
  refine ⟨?_, ?_, rfl⟩
  · rw [← reasons]
    exact patchLinesSkips (ds.filter handles) (splitOn '\n' t)
  · have left : (ds.filter fun d => !(handles d && (skipReason? t d).isSome)).filter handles =
        (ds.filter handles).filter fun d => (skipReason? t d).isNone := by
      rw [List.filter_filter, List.filter_filter]
      apply List.filter_congr
      intro d _
      cases handles d <;> simp
    have same : listed (splitOn '\n' t) = _ := rfl
    have run := patchLinesUnskipped (ds.filter handles) same
    rw [reasons] at run
    simp only [patch, left, run, countsUnskipped]

end LintRemedy.Dependency
