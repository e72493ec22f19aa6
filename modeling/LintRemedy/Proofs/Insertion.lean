import LintRemedy.Dependency.Patch
import LintRemedy.Proofs.Elements

/-!
What becomes of a line into whose last list names are inserted. The list stays the last one of the
line, and of the names those are added that it did not hold, each of them once (`Patched`).
-/
namespace LintRemedy.Dependency
open Text (isBlank)

namespace Bracketed

theorem plainIff {t : Text} : (∀ c ∈ t, isBracket c = false) ↔ '[' ∉ t ∧ ']' ∉ t := by
  constructor
  · intro plain
    exact ⟨fun mem => absurd (plain '[' mem) (by decide), fun mem => absurd (plain ']' mem) (by decide)⟩
  · rintro ⟨opens, closes⟩ c mem
    simp only [isBracket, Bool.or_eq_false_iff, beq_eq_false_iff_ne]
    exact ⟨fun same => opens (same ▸ mem), fun same => closes (same ▸ mem)⟩

theorem lastLater {x r : Text} (unlisted : last? (x ++ r) = none) : last? r = none := by
  induction x with
  | nil => exact unlisted
  | cons c x ih =>
    apply ih
    cases later : last? (x ++ r) with
    | none => rfl
    | some b => simp [last?, later] at unlisted

theorem lastSkip {x r : Text} (plain : '[' ∉ x) (unlisted : last? r = none) :
    last? (x ++ r) = none := by
  induction x with
  | nil => exact unlisted
  | cons c x ih =>
    have other : c ≠ '[' := fun same => plain (by simp [same])
    have later := ih (fun mem => plain (by simp [mem]))
    simp [last?, later, atHead?, other]

theorem headIff {t : Text} {b : Bracketed} :
    atHead? t = some b ↔ b.before = [] ∧ t = b.line ∧ ∀ c ∈ b.inner, isBracket c = false := by
  constructor
  · intro h
    unfold atHead? at h
    split at h <;> try contradiction
    split at h <;> try contradiction
    rename_i rest _ after tail
    cases Option.some.inj h
    refine ⟨rfl, ?_, fun c mem => by simpa using Text.runAll (fun c => !isBracket c) rest c mem⟩
    simp [line, ← tail]
  · rintro ⟨first, rfl, plain⟩
    have all : ∀ c ∈ b.inner, (!isBracket c) = true := fun c mem => by simp [plain c mem]
    have stop : Text.starts (fun c => !isBracket c) (']' :: b.after) = false := rfl
    simp only [line, first, List.nil_append, List.cons_append, atHead?]
    rw [Text.runDropped all stop, Text.runTaken all stop]
    simp [← first]

theorem lastIff {t : Text} {b : Bracketed} :
    last? t = some b ↔
      t = b.line ∧ (∀ c ∈ b.inner, isBracket c = false) ∧ last? b.after = none := by
  have noOpen {inner : Text} (plain : ∀ c ∈ inner, isBracket c = false) : '[' ∉ inner ++ [']'] := by
    simp only [List.mem_append, List.mem_singleton, Char.reduceEq, or_false]
    exact fun mem => absurd (plain '[' mem) (by decide)
  constructor
  · intro h
    induction t generalizing b with
    | nil => contradiction
    | cons c rest ih =>
      simp only [last?] at h
      split at h
      · rename_i d hd
        cases Option.some.inj h
        obtain ⟨text, plain, unlisted⟩ := ih hd
        exact ⟨by simp [line, text], plain, unlisted⟩
      · rename_i unlisted
        obtain ⟨first, text, plain⟩ := headIff.mp h
        refine ⟨text, plain, ?_⟩
        simp only [line, first, List.nil_append, List.cons_append, List.cons.injEq] at text
        apply lastLater (x := b.inner ++ [']'])
        simpa [← text.2] using unlisted
  · rintro ⟨rfl, plain, unlisted⟩
    obtain ⟨before, inner, after⟩ := b
    induction before with
    | nil =>
      have behind : last? (inner ++ ']' :: after) = none := by
        simpa using lastSkip (noOpen plain) unlisted
      simp only [line, List.nil_append, List.cons_append, last?, behind]
      exact headIff.mpr ⟨rfl, by simp [line], plain⟩
    | cons c before ih =>
      have later := ih plain unlisted
      simp only [line, List.cons_append, List.append_assoc] at later ⊢
      simp [last?, later]

end Bracketed

open Bracketed (isBracket last?)

theorem PathLike.plain {name : Text} (path : PathLike name) : ∀ c ∈ name, isBracket c = false :=
  Bracketed.plainIff.mpr ⟨path.lacks (by decide), path.lacks (by decide)⟩

def missingFrom (present names : List Text) : List Text :=
  (names.filter fun n => !present.contains n).eraseDups

theorem missingNil (present : List Text) : missingFrom present [] = [] := rfl

theorem missingPresent {present names : List Text} (all : ∀ n ∈ names, n ∈ present) :
    missingFrom present names = [] := by
  have nothing : names.filter (fun n => !present.contains n) = [] := by
    rw [List.filter_eq_nil_iff]
    intro n mem
    simp [all n mem]
  rw [missingFrom, nothing]
  rfl

theorem missingCons (present : List Text) (n : Text) (names : List Text) :
    missingFrom present (n :: names) =
      if n ∈ present then missingFrom present names
      else n :: missingFrom (present ++ [n]) names := by
  unfold missingFrom
  split
  · rename_i here
    simp [here]
  · rename_i absent
    rw [List.filter_cons_of_pos (by simp [absent]), List.eraseDups_cons, List.filter_filter]
    congr 3
    funext m
    by_cases same : m = n <;> simp [same]

theorem missingAppend (present first second : List Text) :
    missingFrom present (first ++ second) =
      missingFrom present first ++ missingFrom (present ++ missingFrom present first) second := by
  induction first generalizing present with
  | nil => simp [missingNil]
  | cons n first ih =>
    rw [List.cons_append, missingCons, missingCons]
    split
    · exact ih present
    · rw [ih (present ++ [n])]
      simp

def additions (names : List Text) (line : Text) : List Text :=
  match last? line with
  | none => []
  | some b => missingFrom (elements b.inner) names

structure Patched (names : List Text) (line edited : Text) : Prop where
  unlisted : last? line = none → edited = line
  listed : ∀ {b}, last? line = some b →
    ∃ inner, last? edited = some { b with inner := inner } ∧
      elements inner = elements b.inner ++ missingFrom (elements b.inner) names
  idle : additions names line = [] → edited = line

namespace Patched

theorem nothing (line : Text) : Patched [] line line where
  unlisted _ := rfl
  listed {b} h := ⟨b.inner, h, by simp [missingNil]⟩
  idle _ := rfl

theorem additionsAppend {first : List Text} {line middle : Text} (step : Patched first line middle)
    (second : List Text) :
    additions (first ++ second) line = additions first line ++ additions second middle := by
  unfold additions
  cases h : last? line with
  | none => simp [step.unlisted h, h]
  | some b =>
    obtain ⟨inner, list, all⟩ := step.listed h
    simp [list, all, missingAppend]

theorem trans {first second : List Text} {line middle edited : Text}
    (step : Patched first line middle) (next : Patched second middle edited) :
    Patched (first ++ second) line edited where
  unlisted none := by
    have same := step.unlisted none
    subst same
    exact next.unlisted none
  listed {b} h := by
    obtain ⟨inner, list, all⟩ := step.listed h
    obtain ⟨inner', list', all'⟩ := next.listed list
    exact ⟨inner', list', by simp [all', all, missingAppend]⟩
  idle none := by
    rw [step.additionsAppend, List.append_eq_nil_iff] at none
    rw [next.idle none.2, step.idle none.1]

theorem again {names : List Text} {line edited : Text} (step : Patched names line edited) :
    additions names edited = [] := by
  cases h : last? line with
  | none => simp [additions, step.unlisted h, h]
  | some b =>
    obtain ⟨inner, list, all⟩ := step.listed h
    simp only [additions, list]
    apply missingPresent
    intro n mem
    rw [all]
    by_cases present : n ∈ elements b.inner
    · exact List.mem_append_left _ present
    · exact List.mem_append_right _ (List.mem_eraseDups.mpr (List.mem_filter.mpr ⟨mem, by simp [present]⟩))

end Patched

theorem insertUnlisted {line : Text} (unlisted : last? line = none) (name : Text) :
    insert? line name = none ∧ lists line name = false := by
  simp [insert?, lists, unlisted]

theorem insertPresent {line name : Text} {b : Bracketed} (list : last? line = some b)
    (present : name ∈ elements b.inner) : insert? line name = none ∧ lists line name = true := by
  simp [insert?, lists, list, present]

theorem insertAbsent {line name : Text} {b : Bracketed} (list : last? line = some b)
    (absent : name ∉ elements b.inner) :
    insert? line name = some { b with inner := append b.inner name }.line := by
  simp [insert?, list, absent]

theorem patchedOne {line name : Text} {b : Bracketed} (path : PathLike name)
    (list : last? line = some b) (absent : name ∉ elements b.inner) :
    Patched [name] line { b with inner := append b.inner name }.line where
  unlisted none := by simp [list] at none
  listed {b'} h := by
    cases Option.some.inj (list.symm.trans h)
    obtain ⟨-, plain, behind⟩ := Bracketed.lastIff.mp list
    refine ⟨append b.inner name, Bracketed.lastIff.mpr ⟨rfl, ?_, behind⟩, ?_⟩
    · intro c mem
      rcases appendChars mem with old | named | rfl | rfl
      · exact plain c old
      · exact path.plain c named
      · rfl
      · rfl
    · rw [elementsAppend b.inner path, missingCons, if_neg absent, missingNil]
  idle none := by
    simp [additions, list, missingCons, absent] at none

theorem insertNamesUnlisted {line : Text} (unlisted : last? line = none) (names : List Text) :
    (insertNames names line).1 = line ∧ (insertNames names line).2.getD 0 = 0 := by
  cases names with
  | nil => exact ⟨rfl, rfl⟩
  | cons n names =>
    obtain ⟨nowhere, absent⟩ := insertUnlisted unlisted n
    simp [insertNames, nowhere, absent]

theorem insertNamesListed {names : List Text} (paths : ∀ n ∈ names, PathLike n) {line : Text}
    {b : Bracketed} (list : last? line = some b) :
    Patched names line (insertNames names line).1 ∧
      (insertNames names line).2 = some (additions names line).length := by
  induction names generalizing line b with
  | nil => exact ⟨.nothing line, by simp [insertNames, additions, list, missingNil]⟩
  | cons n names ih =>
    have rest : ∀ m ∈ names, PathLike m := fun m mem => paths m (by simp [mem])
    by_cases present : n ∈ elements b.inner
    · obtain ⟨nowhere, listed⟩ := insertPresent list present
      have same : additions (n :: names) line = additions names line := by
        simp [additions, list, missingCons, present]
      obtain ⟨patched, count⟩ := ih rest list
      simp only [insertNames, nowhere, listed, ↓reduceIte]
      refine ⟨⟨patched.unlisted, ?_, fun nothing => patched.idle (same ▸ nothing)⟩, same ▸ count⟩
      intro b' list'
      cases Option.some.inj (list.symm.trans list')
      rw [missingCons, if_pos present]
      exact patched.listed list
    · have one := patchedOne (paths n (by simp)) list present
      obtain ⟨inner, list', -⟩ := one.listed list
      obtain ⟨patched, count⟩ := ih rest list'
      have added : additions [n] line = [n] := by
        simp [additions, list, missingCons, present, missingNil]
      have total := one.additionsAppend names
      rw [added] at total
      simp only [insertNames, insertAbsent list present, count]
      exact ⟨one.trans patched, by simpa using congrArg List.length total.symm⟩

theorem insertNamesPatched {names : List Text} (paths : ∀ n ∈ names, PathLike n) (line : Text) :
    Patched names line (insertNames names line).1 ∧
      (insertNames names line).2.getD 0 = (additions names line).length := by
  cases list : last? line with
  | none =>
    obtain ⟨same, count⟩ := insertNamesUnlisted list names
    refine ⟨⟨fun _ => same, fun listed => by simp [list] at listed, fun _ => same⟩, ?_⟩
    simp [count, additions, list]
  | some b =>
    obtain ⟨patched, count⟩ := insertNamesListed paths list
    exact ⟨patched, by simp [count]⟩

theorem insertNamesKeeps {P Q : Text → Prop}
    (step : ∀ {line name edited}, Q name → insert? line name = some edited → P line → P edited)
    {names : List Text} (good : ∀ n ∈ names, Q n) {line : Text} (start : P line) :
    P (insertNames names line).1 := by
  induction names generalizing line with
  | nil => exact start
  | cons n names ih =>
    have rest : ∀ m ∈ names, Q m := fun m mem => good m (by simp [mem])
    rw [insertNames]
    split
    · rename_i edited inserted
      exact ih rest (step (good n (by simp)) inserted start)
    · split
      · exact ih rest start
      · exact start

theorem insertIff {line name edited : Text} :
    insert? line name = some edited ↔
      ∃ b, last? line = some b ∧ name ∉ elements b.inner ∧
        edited = { b with inner := append b.inner name }.line := by
  simp only [insert?, bind, Option.bind_eq_some_iff]
  constructor
  · rintro ⟨b, list, inserted⟩
    split at inserted <;> try contradiction
    rename_i absent
    exact ⟨b, list, by simpa using absent, (Option.some.inj inserted).symm⟩
  · rintro ⟨b, list, absent, rfl⟩
    exact ⟨b, list, by simp [absent]⟩

theorem insertNamesUnbroken {names : List Text} (paths : ∀ n ∈ names, PathLike n) {line : Text}
    (single : '\n' ∉ line) : '\n' ∉ (insertNames names line).1 := by
  refine insertNamesKeeps (P := ('\n' ∉ ·)) (Q := PathLike) ?_ paths single
  intro line name edited path inserted whole
  obtain ⟨b, list, -, rfl⟩ := insertIff.mp inserted
  have text := (Bracketed.lastIff.mp list).1
  simp only [text, Bracketed.line, List.mem_append, List.mem_cons, not_or] at whole ⊢
  refine ⟨⟨whole.1.1, by decide, ?_⟩, by decide, whole.2.2⟩
  intro mem
  rcases appendChars mem with old | named | same | same
  · exact whole.1.2.2 old
  · exact path.lacks (by decide) named
  · exact absurd same (by decide)
  · exact absurd same (by decide)

end LintRemedy.Dependency
