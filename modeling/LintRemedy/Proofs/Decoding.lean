import LintRemedy.Report
import Mathlib.Data.List.Forall2

/-!
What a JSON value of a report says, as relations between values and what they give: a field may be
left out, some may be `null`, and a record is an object or an array of its fields in order. Decoding
finds what a value gives, and fails exactly where it gives nothing.
-/
namespace LintRemedy
open scoped LintRemedy.Powers
namespace Decode
variable {ε α β : Type}

theorem bindOk {x : Except ε α} {f : α → Except ε β} {b : β} :
    (x >>= f) = .ok b ↔ ∃ a, x = .ok a ∧ f a = .ok b := by
  cases x with
  | error cause => simp [bind, Except.bind]
  | ok a => simp [bind, Except.bind]

def Finds (decode : Json → Result α) (R : Json → α → Prop) : Prop :=
  ∀ v x, decode v = .ok x ↔ R v x

def IsString (v : Json) (s : String) : Prop := v = .str s

def IsPosition (v : Json) (n : Nat) : Prop := v = .nat n ∧ n < 2 ^ (64 : Nat)

def IsCode (v : Json) (n : Int) : Prop :=
  v = .num (.int n) ∧ -2 ^ (63 : Nat) ≤ n ∧ n < 2 ^ (63 : Nat)

def IsSequence (v : Json) (items : List Json) : Prop := v = .arr items

def IsListOf (R : Json → α → Prop) (v : Json) (xs : List α) : Prop :=
  ∃ items, v = .arr items ∧ List.Forall₂ R items xs

def OrNull (R : Json → α → Prop) : Json → Option α → Prop
  | .null, x => x = none
  | v, x => ∃ a, R v a ∧ x = some a

def OrMissing (R : Json → α → Prop) (default : α) : Option Json → α → Prop
  | none, x => x = default
  | some v, x => R v x

theorem findsString : Finds string IsString := by
  intro v s
  cases v <;> simp [string, IsString]

theorem findsPosition : Finds position IsPosition := by
  intro v n
  unfold position IsPosition
  split
  · rename_i k
    split
    · rename_i inside
      simp only [Except.ok.injEq, Json.nat, Json.num.injEq, Number.int.injEq]
      omega
    · rename_i outside
      simp only [Json.nat, Json.num.injEq, Number.int.injEq, reduceCtorEq, false_iff]
      omega
  · rename_i other
    simp only [reduceCtorEq, false_iff]
    rintro ⟨rfl, -⟩
    exact other _ rfl

theorem findsCode : Finds code IsCode := by
  intro v n
  unfold code IsCode
  split
  · rename_i k
    split
    · rename_i inside
      simp only [Except.ok.injEq, Json.num.injEq, Number.int.injEq]
      omega
    · rename_i outside
      simp only [Json.num.injEq, Number.int.injEq, reduceCtorEq, false_iff]
      omega
  · rename_i other
    simp only [reduceCtorEq, false_iff]
    rintro ⟨rfl, -⟩
    exact other _ rfl

theorem findsSequence : Finds sequence IsSequence := by
  intro v items
  cases v <;> simp [sequence, IsSequence]

section
variable {decode : Json → Result α} {R : Json → α → Prop} (finds : Finds decode R)
include finds

theorem listIff (vs : List Json) (xs : List α) :
    list decode vs = .ok xs ↔ List.Forall₂ R vs xs := by
  induction vs generalizing xs with
  | nil => simp [list, eq_comm]
  | cons v vs ih =>
    simp only [list, bindOk, finds v, ih, Except.ok.injEq, List.forall₂_cons_left_iff]
    constructor
    · rintro ⟨x, first, rest, all, rfl⟩
      exact ⟨x, rest, first, all, rfl⟩
    · rintro ⟨x, rest, first, all, rfl⟩
      exact ⟨x, first, rest, all, rfl⟩

theorem findsListOf : Finds (listOf decode) (IsListOf R) := by
  intro v xs
  simp only [listOf, bindOk, findsSequence v, listIff finds]
  rfl

theorem findsOrNull : Finds (nullable decode) (OrNull R) := by
  intro v x
  unfold nullable OrNull
  split
  · simp [eq_comm]
  · simp only [bindOk, finds v _, Except.ok.injEq]
    exact exists_congr fun a => and_congr_right fun _ => eq_comm

theorem withDefaultIff {default x : α} {o : Option Json} :
    withDefault default decode o = .ok x ↔ OrMissing R default o x := by
  cases o with
  | none => simp [withDefault, OrMissing, eq_comm]
  | some v => exact finds v x

theorem requiredIff (default : α) {kind : RecordKind} {fields place : Nat} {x : α}
    {o : Option Json} :
    required kind fields place decode o = .ok x ↔ o.isSome = true ∧ OrMissing R default o x := by
  cases o with
  | none => simp [required]
  | some v => simpa [required, OrMissing] using finds v x

end

theorem noSurplusIff {fields : Nat} {items : List Json} {u : Unit} :
    noSurplus fields items = .ok u ↔ items.length ≤ fields := by
  unfold noSurplus
  split
  · simpa
  · simpa using ‹¬items.length ≤ fields›

end Decode

namespace Report
open Decode

def itemFor (names : List String) (items : List Json) (name : String) : Option Json :=
  (names.idxOf? name).bind fun i => items[i]?

namespace Message

def names : List String := ["ruleId", "severity", "message", "line", "column", "suggestions"]

structure Given (field : String → Option Json) (m : Message) : Prop where
  rule : OrMissing (OrNull IsString) none (field "ruleId") m.rule
  severity : OrMissing (OrNull IsCode) none (field "severity") m.severity
  text : OrMissing IsString "" (field "message") m.text
  line : OrMissing IsPosition 0 (field "line") m.line
  column : OrMissing IsPosition 0 (field "column") m.column
  suggestions : OrMissing IsSequence [] (field "suggestions") m.suggestions

/-- An array has a place for every field and leaves out at most the last four. -/
inductive Stands : Json → Message → Prop where
  | object {fields : Json.Fields} {m : Message} (given : Given fields.get? m) :
      Stands (.obj fields) m
  | array {items : List Json} {m : Message} (enough : 2 ≤ items.length) (few : items.length ≤ 6)
      (given : Given (itemFor names items) m) : Stands (.arr items) m

theorem ofFieldsIff {fields : Json.Fields} {m : Message} :
    ofFields fields = .ok m ↔ Given fields.get? m := by
  simp only [ofFields, bindOk, withDefaultIff findsPosition, withDefaultIff findsString,
    withDefaultIff (findsOrNull findsString), withDefaultIff (findsOrNull findsCode),
    withDefaultIff findsSequence, Except.ok.injEq]
  constructor
  · rintro ⟨column, hc, line, hl, text, ht, rule, hr, severity, hs, suggestions, hg, rfl⟩
    exact ⟨hr, hs, ht, hl, hc, hg⟩
  · intro given
    exact ⟨_, given.column, _, given.line, _, given.text, _, given.rule, _, given.severity, _,
      given.suggestions, rfl⟩

theorem ofItemsIff {items : List Json} {m : Message} :
    ofItems items = .ok m ↔
      2 ≤ items.length ∧ items.length ≤ 6 ∧ Given (itemFor names items) m := by
  simp only [ofItems, bindOk, withDefaultIff findsPosition, withDefaultIff findsString,
    withDefaultIff findsSequence, requiredIff (findsOrNull findsString) none,
    requiredIff (findsOrNull findsCode) none, noSurplusIff, Except.ok.injEq]
  constructor
  · rintro ⟨rule, ⟨-, hr⟩, severity, ⟨enough, hs⟩, text, ht, line, hl, column, hc, suggestions, hg,
      -, few, rfl⟩
    have two : 1 < items.length := by simpa using enough
    exact ⟨two, few, hr, hs, ht, hl, hc, hg⟩
  · rintro ⟨enough, few, given⟩
    have one : items[0]?.isSome = true := by simpa using Nat.lt_of_lt_of_le Nat.zero_lt_two enough
    have two : items[1]?.isSome = true := by simpa using Nat.lt_of_succ_le enough
    exact ⟨_, ⟨one, given.rule⟩, _, ⟨two, given.severity⟩, _, given.text, _, given.line, _,
      given.column, _, given.suggestions, (), few, rfl⟩

theorem findsMessage : Finds ofJson Stands := by
  intro v m
  cases v with
  | obj fields =>
    rw [ofJson, ofFieldsIff]
    exact ⟨.object, fun | .object given => given⟩
  | arr items =>
    rw [ofJson, ofItemsIff]
    exact ⟨fun ⟨enough, few, given⟩ => .array enough few given,
      fun | .array enough few given => ⟨enough, few, given⟩⟩
  | _ => exact ⟨(nomatch ·), (nomatch ·)⟩

end Message

def groupNames : List String := ["filePath", "messages"]

structure GroupGiven (field : String → Option Json) (path : Option String)
    (messages : List Message) : Prop where
  path : OrMissing (OrNull IsString) none (field "filePath") path
  messages : OrMissing (IsListOf Message.Stands) [] (field "messages") messages

inductive GroupStands : Json → Option String → List Message → Prop where
  | object {fields : Json.Fields} {path : Option String} {messages : List Message}
      (given : GroupGiven fields.get? path messages) : GroupStands (.obj fields) path messages
  | array {items : List Json} {path : Option String} {messages : List Message}
      (enough : 1 ≤ items.length) (few : items.length ≤ 2)
      (given : GroupGiven (itemFor groupNames items) path messages) :
      GroupStands (.arr items) path messages

theorem groupOfFieldsIff {fields : Json.Fields} {path : Option String} {messages : List Message} :
    groupOfFields fields = .ok (path, messages) ↔ GroupGiven fields.get? path messages := by
  simp only [groupOfFields, bindOk, withDefaultIff (findsOrNull findsString),
    withDefaultIff (findsListOf Message.findsMessage), Except.ok.injEq, Prod.mk.injEq]
  constructor
  · rintro ⟨p, hp, ms, hm, rfl, rfl⟩
    exact ⟨hp, hm⟩
  · intro given
    exact ⟨_, given.path, _, given.messages, rfl, rfl⟩

theorem groupOfItemsIff {items : List Json} {path : Option String} {messages : List Message} :
    groupOfItems items = .ok (path, messages) ↔
      1 ≤ items.length ∧ items.length ≤ 2 ∧ GroupGiven (itemFor groupNames items) path messages := by
  simp only [groupOfItems, bindOk, requiredIff (findsOrNull findsString) none,
    withDefaultIff (findsListOf Message.findsMessage), noSurplusIff, Except.ok.injEq, Prod.mk.injEq]
  constructor
  · rintro ⟨p, ⟨enough, hp⟩, ms, hm, -, few, rfl, rfl⟩
    have one : 0 < items.length := by simpa using enough
    exact ⟨one, few, hp, hm⟩
  · rintro ⟨enough, few, given⟩
    have one : items[0]?.isSome = true := by simpa using Nat.lt_of_succ_le enough
    exact ⟨_, ⟨one, given.path⟩, _, given.messages, (), few, rfl, rfl⟩

theorem groupOfJsonIff {v : Json} {path : Option String} {messages : List Message} :
    groupOfJson v = .ok (path, messages) ↔ GroupStands v path messages := by
  cases v with
  | obj fields =>
    rw [groupOfJson, groupOfFieldsIff]
    exact ⟨.object, fun | .object given => given⟩
  | arr items =>
    rw [groupOfJson, groupOfItemsIff]
    exact ⟨fun ⟨enough, few, given⟩ => .array enough few given,
      fun | .array enough few given => ⟨enough, few, given⟩⟩
  | _ => exact ⟨(nomatch ·), (nomatch ·)⟩

end Report
end LintRemedy
