import LintRemedy.Proofs.AnyNames

/-!
The statuses of findings. A status depends on the message, on the number of lines and on whether the
line has a list; what the list holds only decides between names that are inserted and names that are
there. No finding changes which lines have lists, so a second run gives every finding its status
again, an insertion apart.
-/
namespace LintRemedy.Dependency
open Text (splitOn)
open Bracketed (last?)

def Status.again : Status → Status
  | inserted _ => alreadyPresent
  | s => s

def listed (lines : List Text) : List Bool := lines.map fun line => (last? line).isSome

theorem missingSome {message : Text} {names : List Text}
    (read : Message.missing? message = some names) : names ≠ [] := by
  induction message with
  | nil => contradiction
  | cons c rest ih =>
    rw [Message.missing?] at read
    split at read
    · exact ih read
    · rename_i none
      cases Option.some.inj read
      exact none

theorem missingNothing {present names : List Text} :
    missingFrom present names = [] ↔ ∀ n ∈ names, n ∈ present := by
  constructor
  · intro nothing n mem
    by_contra absent
    have added : n ∈ missingFrom present names :=
      List.mem_eraseDups.mpr (List.mem_filter.mpr ⟨mem, by simp [absent]⟩)
    simp [nothing] at added
  · exact missingPresent

theorem additionsPart {first names : List Text} {line : Text} (part : first ⊆ names)
    (nothing : additions names line = []) : additions first line = [] := by
  unfold additions at nothing ⊢
  split
  · rfl
  · rename_i b list
    rw [list] at nothing
    rw [missingNothing] at nothing ⊢
    exact fun n mem => nothing n (part mem)

theorem insertNamesSkipped {line : Text} (unlisted : last? line = none) {names : List Text}
    (some : names ≠ []) : insertNames names line = (line, none) := by
  cases names with
  | nil => exact absurd rfl some
  | cons n names =>
    obtain ⟨nowhere, absent⟩ := insertUnlisted unlisted n
    simp [insertNames, nowhere, absent]

theorem insertAllSameList (ds : List Diagnostic) (line : Text) :
    (last? (insertAll ds line)).isSome = (last? line).isSome := by
  induction ds generalizing line with
  | nil => rfl
  | cons d ds ih => exact (ih _).trans (insertNamesSameList (namesOf d) line)

theorem patchLinesListed (ds : List Diagnostic) (lines : List Text) :
    listed (patchLines ds lines).1 = listed lines := by
  apply List.ext_getElem?
  intro i
  simp only [listed, List.getElem?_map, patchLinesAt, Option.map_map]
  congr 1
  funext line
  exact insertAllSameList _ line

theorem listedAt {lines final : List Text} (same : listed final = listed lines) (k : Nat) :
    (lines[k]? = none ∧ final[k]? = none) ∨
      ∃ line line', lines[k]? = some line ∧ final[k]? = some line' ∧
        (last? line').isSome = (last? line).isSome := by
  have here := congrArg (·[k]?) same
  simp only [listed, List.getElem?_map] at here
  cases old : lines[k]? with
  | none =>
    rw [old, Option.map_none, Option.map_eq_none_iff] at here
    exact .inl ⟨rfl, here⟩
  | some line =>
    rw [old, Option.map_some, Option.map_eq_some_iff] at here
    obtain ⟨line', new, isList⟩ := here
    exact .inr ⟨line, line', rfl, new, isList⟩

theorem statusNone : statusOf (some 0) = .alreadyPresent := rfl

theorem statusAgain (n : Nat) : (statusOf (some n)).again = .alreadyPresent := by
  cases n <;> rfl

def Complete (lines : List Text) (d : Diagnostic) : Prop :=
  ∀ k line, d.line = k + 1 → lines[k]? = some line → additions (namesOf d) line = []

/- The two runs meet different lines, which agree in their number and in which of them have a
list. -/
theorem patchOneAgain {lines final : List Text} {d : Diagnostic}
    (paths : ∀ n ∈ namesOf d, PathLike n) (same : listed final = listed lines)
    (complete : Complete final d) : patchOne final d = (final, (patchOne lines d).2.again) := by
  have count : final.length = lines.length := by simpa [listed] using congrArg List.length same
  unfold Complete namesOf at complete
  unfold namesOf at paths
  unfold patchOne
  cases read : Message.missing? d.message.toList with
  | none => rfl
  | some names =>
    rw [read] at paths complete
    cases number : d.line with
    | zero => simp [Status.again, count]
    | succ k =>
      rcases listedAt same k with ⟨old, new⟩ | ⟨line, line', old, new, isList⟩
      · simp [old, new, Status.again, count]
      · have kept : final.set k line' = final := by
          obtain ⟨inside, rfl⟩ := List.getElem?_eq_some_iff.mp new
          exact List.set_getElem_self inside
        cases list : last? line with
        | none =>
          have list' : last? line' = none := by simpa [list] using isList
          have skips := insertNamesSkipped list (missingSome read)
          have skips' := insertNamesSkipped list' (missingSome read)
          simp [old, new, skips, skips', kept, statusOf, Status.again]
        | some b =>
          have listed' : (last? line').isSome = true := by simpa [list] using isList
          obtain ⟨b', list'⟩ := Option.isSome_iff_exists.mp listed'
          obtain ⟨-, inserted⟩ := insertNamesListed paths list
          obtain ⟨patched, inserted'⟩ := insertNamesListed paths list'
          have nothing := complete k line' number new
          have idle := patched.idle nothing
          simp only [Option.getD_some] at inserted inserted' idle nothing
          rw [nothing] at inserted'
          simp [old, new, inserted, inserted', idle, kept, statusAgain, statusNone]

theorem patchLinesAgain {ds : List Diagnostic} (paths : ∀ d ∈ ds, ∀ n ∈ namesOf d, PathLike n)
    {lines final : List Text} (same : listed final = listed lines)
    (complete : ∀ d ∈ ds, Complete final d) :
    patchLines ds final = (final, (patchLines ds lines).2.map fun (d, s) => (d, s.again)) := by
  induction ds generalizing lines with
  | nil => rfl
  | cons d ds ih =>
    have first := patchOneAgain (paths d (by simp)) same (complete d (by simp))
    have next : listed final = listed (patchOne lines d).1 :=
      same.trans (patchLinesListed [d] lines).symm
    have rest := ih (fun d mem => paths d (by simp [mem])) next
      (fun d mem => complete d (by simp [mem]))
    simp only [patchLines, first, rest, List.map_cons]

theorem patchLinesComplete {ds : List Diagnostic}
    (paths : ∀ d ∈ ds, ∀ n ∈ namesOf d, PathLike n) (lines : List Text) :
    ∀ d ∈ ds, Complete (patchLines ds lines).1 d := by
  intro d mem k line' number here
  have inside : k < lines.length := by
    rw [← patchLinesLength ds lines]
    exact (List.getElem?_eq_some_iff.mp here).1
  obtain ⟨edited, at_, patched⟩ := patchedAt paths (List.getElem?_eq_getElem inside)
  cases Option.some.inj (here.symm.trans at_)
  refine additionsPart ?_ patched.again
  intro n named
  exact List.mem_flatMap.mpr ⟨d, List.mem_filter.mpr ⟨mem, by simp [number]⟩, named⟩

/-- The dependency stage has nothing to do on a text that it patched with the same findings. What
was skipped is skipped for the same reason, and what was inserted is there. -/
theorem patchRerun (t : Text) (ds : List Diagnostic)
    (paths : ∀ d ∈ ds, handles d = true → ∀ n ∈ namesOf d, PathLike n) :
    patch (patch t ds).text ds =
      ⟨(patch t ds).text, 0, (patch t ds).statuses.map fun (d, s) => (d, s.again)⟩ := by
  have good := filterHandles paths
  have lines := patchLinesAgain good
    (patchLinesListed _ (splitOn '\n' t)) (patchLinesComplete good _)
  obtain ⟨inserted, text⟩ := patchAgain paths t
  have statuses : (patch (patch t ds).text ds).statuses =
      (patch t ds).statuses.map fun (d, s) => (d, s.again) := by
    change (patchLines (ds.filter handles) (splitOn '\n' (patch t ds).text)).2 = _
    rw [patchSplit paths, lines]
    rfl
  calc patch (patch t ds).text ds
      = ⟨(patch (patch t ds).text ds).text, (patch (patch t ds).text ds).inserted,
          (patch (patch t ds).text ds).statuses⟩ := rfl
    _ = _ := by rw [text, inserted, statuses]

def mixedFindings : List Diagnostic :=
  let missing := { repeatedFinding with message := "missing dependency: 'b'" }
  [missing, missing, { missing with line := 1 }, { missing with line := 9 },
    { missing with message := "unnecessary dependency: 'b'" }]

theorem patchRerunMixed :
    (∀ d ∈ mixedFindings, handles d = true → ∀ n ∈ namesOf d, PathLike n) ∧
    (patch "f(b,\n[a, ]);".toList mixedFindings).statuses.map Prod.snd =
      [.inserted 1, .alreadyPresent, .skipped .noList, .skipped (.outOfRange 9 2),
        .skipped .unresolvedName] ∧
    (patch "f(b,\n[a, b ]);".toList mixedFindings).text = "f(b,\n[a, b ]);".toList ∧
    (patch "f(b,\n[a, b ]);".toList mixedFindings).inserted = 0 ∧
    (patch "f(b,\n[a, b ]);".toList mixedFindings).statuses.map Prod.snd =
      [.alreadyPresent, .alreadyPresent, .skipped .noList, .skipped (.outOfRange 9 2),
        .skipped .unresolvedName] := by
  have paths : ∀ d ∈ mixedFindings, handles d = true → ∀ n ∈ namesOf d, PathLike n := by
    decide +kernel
  have text : (patch "f(b,\n[a, ]);".toList mixedFindings).text =
      "f(b,\n[a, b ]);".toList := by decide +kernel
  have rerun := patchRerun "f(b,\n[a, ]);".toList mixedFindings paths
  rw [text] at rerun
  rw [rerun]
  exact ⟨paths, by decide +kernel, rfl, rfl, by decide +kernel⟩

end LintRemedy.Dependency
