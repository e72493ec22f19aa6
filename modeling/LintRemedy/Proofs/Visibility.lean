import LintRemedy.Proofs.AnyNames
import LintRemedy.Proofs.Idempotence

/-!
Where the invisible characters of a mended text come from. Cleaning takes away those of the text and
no substitution writes one, so what is left is brought by the names that messages tell and that the
dependency stage puts into lists. A name brings each of its characters, except that blanks beside an
earlier element or a comma may be dropped again.
-/
namespace LintRemedy
open Text (isBlank isInvisible splitOn joinWith trim trimStart trimEnd trailingBlanks)

namespace Text

theorem joinChars {sep c : Char} {parts : List Text} (mem : c ∈ joinWith sep parts) :
    c = sep ∨ ∃ part ∈ parts, c ∈ part := by
  induction parts with
  | nil => simp [joinWith] at mem
  | cons part parts ih =>
    cases parts with
    | nil => exact .inr ⟨part, by simp, mem⟩
    | cons next parts =>
      simp only [joinWith, List.mem_append, List.mem_cons] at mem
      rcases mem with first | rfl | later
      · exact .inr ⟨part, by simp, first⟩
      · exact .inl rfl
      · rcases ih later with same | ⟨other, inside, mem⟩
        · exact .inl same
        · exact .inr ⟨other, List.mem_cons_of_mem _ inside, mem⟩

theorem trimEndHolds {c : Char} (solid : isBlank c = false) {t : Text} (mem : c ∈ t) :
    c ∈ trimEnd t := by
  rw [← trimEndKeeps t, List.mem_append] at mem
  rcases mem with front | pad
  · exact front
  · simp [trailingBlank t c pad] at solid

end Text

namespace Dependency
open Bracketed (last?)

theorem appendName {inner name : Text} {c : Char} (mem : c ∈ name) : c ∈ append inner name := by
  unfold append
  split
  · exact mem
  · simp [mem]

section
variable {c : Char} (solid : isBlank c = false) (other : c ≠ ',')
include solid other

theorem appendInner {inner name : Text} (mem : c ∈ inner) : c ∈ append inner name := by
  unfold append
  split
  · rename_i empty
    simp [Text.trimEmpty empty c mem] at solid
  · have kept : c ∈ dropComma (trimEnd inner) := by
      have trimmed := Text.trimEndHolds solid mem
      unfold dropComma
      split
      · rename_i comma
        rw [← List.dropLast_append_getLast? ',' comma, List.mem_append, List.mem_singleton] at trimmed
        exact trimmed.resolve_right other
      · exact trimmed
    simp [Text.trimEndHolds solid kept]

theorem insertHolds {line name edited : Text} (inserted : insert? line name = some edited)
    (mem : c ∈ line ∨ c ∈ name) : c ∈ edited := by
  obtain ⟨b, list, -, rfl⟩ := insertIff.mp inserted
  obtain ⟨rfl, -, -⟩ := Bracketed.lastIff.mp list
  simp only [Bracketed.line, List.mem_append, List.mem_cons] at mem ⊢
  rcases mem with ((before | opening | inner) | closing | after) | named
  · exact .inl (.inl before)
  · exact .inl (.inr (.inl opening))
  · exact .inl (.inr (.inr (appendInner solid other inner)))
  · exact .inr (.inl closing)
  · exact .inr (.inr after)
  · exact .inl (.inr (.inr (appendName named)))

theorem insertNamesHold {names : List Text} {line : Text} (mem : c ∈ line) :
    c ∈ (insertNames names line).1 :=
  insertNamesKeeps (P := (c ∈ ·)) (Q := fun _ => True)
    (fun _ inserted mem => insertHolds solid other inserted (.inl mem)) (fun _ _ => trivial) mem

theorem insertNamesBring {names : List Text} {line : Text} (list : (last? line).isSome = true)
    {name : Text} (named : name ∈ names) (mem : c ∈ name) : c ∈ (insertNames names line).1 := by
  induction names generalizing line with
  | nil => contradiction
  | cons first names ih =>
    rw [insertNames]
    cases inserted : insert? line first with
    | none =>
      -- A name that is not inserted is an element already, and so are its characters.
      have present := insertNone list inserted
      rw [present]
      rcases List.mem_cons.mp named with rfl | later
      · obtain ⟨b, list⟩ := Option.isSome_iff_exists.mp list
        have element : name ∈ elements b.inner := by simpa [lists, list] using present
        refine insertNamesHold solid other ?_
        rw [(Bracketed.lastIff.mp list).1]
        simp [Bracketed.line, (elementWithin element).subset mem]
      · exact ih list later
    | some edited =>
      rcases List.mem_cons.mp named with rfl | later
      · exact insertNamesHold solid other (insertHolds solid other inserted (.inr mem))
      · exact ih (insertListed inserted) later

theorem insertAllHold {line : Text} (mem : c ∈ line) (ds : List Diagnostic) :
    c ∈ insertAll ds line := by
  induction ds generalizing line with
  | nil => exact mem
  | cons d ds ih => exact ih (insertNamesHold solid other mem)

theorem insertAllBring {ds : List Diagnostic} {line : Text} (list : (last? line).isSome = true)
    {d : Diagnostic} (inside : d ∈ ds) {name : Text} (named : name ∈ namesOf d) (mem : c ∈ name) :
    c ∈ insertAll ds line := by
  induction ds generalizing line with
  | nil => contradiction
  | cons first ds ih =>
    rcases List.mem_cons.mp inside with rfl | later
    · exact insertAllHold solid other (insertNamesBring solid other list named mem) ds
    · exact ih (insertNamesOnList list (namesOf first)).1 later

end

theorem insertAllUnlisted {line : Text} (unlisted : last? line = none) (ds : List Diagnostic) :
    insertAll ds line = line := by
  induction ds with
  | nil => rfl
  | cons d ds ih =>
    rw [insertAll, List.foldl_cons, (insertNamesUnlisted unlisted (namesOf d)).1]
    exact ih

theorem insertLacks {c : Char} (plain : c ≠ ',' ∧ c ≠ ' ') {line name edited : Text}
    (unnamed : c ∉ name) (inserted : insert? line name = some edited) (absent : c ∉ line) :
    c ∉ edited := by
  obtain ⟨b, list, -, rfl⟩ := insertIff.mp inserted
  obtain ⟨rfl, -, -⟩ := Bracketed.lastIff.mp list
  simp only [Bracketed.line, List.mem_append, List.mem_cons, not_or] at absent ⊢
  refine ⟨⟨absent.1.1, absent.1.2.1, ?_⟩, absent.2⟩
  intro mem
  rcases appendChars mem with inner | named | comma | space
  · exact absent.1.2.2 inner
  · exact unnamed named
  · exact plain.1 comma
  · exact plain.2 space

theorem insertAllLacks {c : Char} (plain : c ≠ ',' ∧ c ≠ ' ') {ds : List Diagnostic}
    (unnamed : ∀ d ∈ ds, ∀ n ∈ namesOf d, c ∉ n) {line : Text} (absent : c ∉ line) :
    c ∉ insertAll ds line := by
  induction ds generalizing line with
  | nil => exact absent
  | cons d ds ih =>
    refine ih (fun d mem => unnamed d (by simp [mem])) ?_
    exact insertNamesKeeps (P := (c ∉ ·)) (Q := (c ∉ ·)) (insertLacks plain)
      (unnamed d (by simp)) absent

def Brought (ds : List Diagnostic) (t : Text) (c : Char) : Prop :=
  ∃ d ∈ ds, handles d = true ∧ ∃ i line, d.line = i + 1 ∧ (splitOn '\n' t)[i]? = some line ∧
    (last? line).isSome = true ∧ ∃ n ∈ namesOf d, c ∈ n

theorem patchChars {ds : List Diagnostic} {t : Text} {c : Char} (plain : c ≠ ',' ∧ c ≠ ' ')
    (inLine : c ≠ '\n') (mem : c ∈ (patch t ds).text) : c ∈ t ∨ Brought ds t c := by
  rw [patchWhole] at mem
  rcases Text.joinChars mem with same | ⟨edited, inside, mem⟩
  · exact absurd same inLine
  · obtain ⟨i, inRange, rfl⟩ := List.mem_mapIdx.mp inside
    have here : (splitOn '\n' t)[i]? = some (splitOn '\n' t)[i] := List.getElem?_eq_getElem inRange
    by_contra neither
    rw [not_or] at neither
    have absent : c ∉ (splitOn '\n' t)[i] :=
      fun mem => neither.1 ((Text.partWithin (List.getElem_mem inRange)).subset mem)
    cases list : last? (splitOn '\n' t)[i] with
    | none =>
      rw [insertAllUnlisted list] at mem
      exact absent mem
    | some b =>
      refine insertAllLacks plain ?_ absent mem
      intro d targets n named held
      obtain ⟨handled, number⟩ := List.mem_filter.mp targets
      obtain ⟨reported, ours⟩ := List.mem_filter.mp handled
      exact neither.2 ⟨d, reported, ours, i, _, by simpa using number, here, by simp [list], n,
        named, held⟩

theorem patchHolds {ds : List Diagnostic} {t : Text} {c : Char} (solid : isBlank c = false)
    (other : c ≠ ',') (mem : c ∈ t ∨ Brought ds t c) : c ∈ (patch t ds).text := by
  rw [patchWhole]
  rcases mem with old | ⟨d, reported, ours, i, line, number, here, list, n, named, mem⟩
  · rw [← Text.joinSplit '\n' t] at old
    rcases Text.joinChars old with rfl | ⟨line, inside, mem⟩
    · simp [isBlank] at solid
    · obtain ⟨i, inRange, rfl⟩ := List.getElem_of_mem inside
      refine (Text.partJoined (List.mem_mapIdx.mpr ⟨i, inRange, rfl⟩)).subset ?_
      exact insertAllHold solid other mem _
  · obtain ⟨inRange, rfl⟩ := List.getElem?_eq_some_iff.mp here
    refine (Text.partJoined (List.mem_mapIdx.mpr ⟨i, inRange, rfl⟩)).subset ?_
    refine insertAllBring solid other list ?_ named mem
    exact List.mem_filter.mpr ⟨List.mem_filter.mpr ⟨reported, ours⟩, by simp [number]⟩

end Dependency

namespace Mender

def Brings (m : Mender) (t : Text) (ds : List Diagnostic) (c : Char) : Prop :=
  m.options.dependencyLists = true ∧
    Dependency.Brought ds (m.patternStage ds (m.cleanStage t).text).text c

theorem patternsVisible {m : Mender} {disabled : List String}
    (table : m.table = RuleTable.builtin.without disabled) (cleans : m.options.clean = true)
    (t : Text) (ds : List Diagnostic) :
    Visible (m.patternStage ds (m.cleanStage t).text).text := by
  have cleaned : Visible (m.cleanStage t).text := by
    rw [cleanStage, if_pos cleans]
    exact cleanVisible t
  rw [patternStage, table]
  exact RuleTable.runVisible disabled _ cleaned

/-- With cleaning on, the invisible characters of a mended text are those of the names that messages
bring into its lists: there is no other one in the text, and of these none gets lost again unless it
is a blank. -/
theorem invisibleFromNames (m : Mender) (disabled : List String)
    (table : m.table = RuleTable.builtin.without disabled) (cleans : m.options.clean = true)
    (t : Text) (ds : List Diagnostic) (c : Char) (invisible : isInvisible c = true) :
    (c ∈ (m.mend t ds).text → m.Brings t ds c) ∧
    (isBlank c = false → m.Brings t ds c → c ∈ (m.mend t ds).text) := by
  have clean : c ∉ (m.patternStage ds (m.cleanStage t).text).text := by
    intro mem
    simp [patternsVisible table cleans t ds c mem] at invisible
  have unlike {seen : Char} (visible : isInvisible seen = false) : c ≠ seen := by
    intro same
    simp [same, visible] at invisible
  change (c ∈ (m.dependencyStage ds (m.patternStage ds (m.cleanStage t).text).text).text → _) ∧
    (_ → _ → c ∈ (m.dependencyStage ds (m.patternStage ds (m.cleanStage t).text).text).text)
  unfold Brings dependencyStage
  split
  · rename_i on
    constructor
    · intro mem
      have origin := Dependency.patchChars ⟨unlike (by decide), unlike (by decide)⟩
        (unlike (by decide)) mem
      exact ⟨on, origin.resolve_left clean⟩
    · intro solid brings
      exact Dependency.patchHolds solid (unlike (by decide)) (.inr brings.2)
  · rename_i off
    exact ⟨fun mem => absurd mem clean, fun _ brings => absurd brings.1 off⟩

def joinedFinding : Diagnostic := dependencyFinding 2 "missing dependency: 'it\u200dem'."

theorem invisibleFromJoiner :
    standard.table = RuleTable.builtin.without [] ∧ standard.options.clean = true ∧
    isInvisible '\u200d' = true ∧ isBlank '\u200d' = false ∧
    standard.Brings "load(it\u200dem);\nuse(load, []);".toList [joinedFinding] '\u200d' ∧
    '\u200d' ∈ (standard.mend "load(it\u200dem);\nuse(load, []);".toList [joinedFinding]).text := by
  have table : standard.table = RuleTable.builtin.without [] := rfl
  have cleans : standard.options.clean = true := rfl
  have invisible : isInvisible '\u200d' = true := by decide
  have solid : isBlank '\u200d' = false := by decide
  obtain ⟨only, kept⟩ := invisibleFromNames standard [] table cleans
    "load(it\u200dem);\nuse(load, []);".toList [joinedFinding] '\u200d' invisible
  have brings := only (by decide +kernel)
  exact ⟨table, cleans, invisible, solid, brings, kept solid brings⟩

/-- A cleaned text is not clean when the name comes as the message has it. -/
theorem joinerInserted :
    standard.options.clean = true ∧
    (standard.mend "load(it\u200dem);\nuse(load, []);".toList [joinedFinding]).text =
      "load(item);\nuse(load, [it\u200dem]);".toList ∧
    isInvisible '\u200d' = true := by
  refine ⟨rfl, ?_, ?_⟩
  · decide +kernel
  · decide

end Mender
end LintRemedy
