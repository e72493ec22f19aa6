import LintRemedy.Proofs.Loading

/-!
Writing a report down and loading it again. A writer gives every field of a finding or leaves out
some of those that hold their default, as it likes and differently from one message to the next; the
rule of a finding without one may also be `null`. Loading sees no difference.
-/
namespace LintRemedy
open scoped LintRemedy.Powers
namespace Json

theorem lookupCons {α : Type} (key k : String) (a : α) (entries : List (String × α)) :
    List.lookup key ((k, a) :: entries) = if key = k then some a else entries.lookup key := by
  by_cases same : key = k
  · simp [same]
  · have other : (key == k) = false := beq_eq_false_iff_ne.mpr same
    simp [List.lookup_cons, other, same]

theorem getInsert (key k : String) (v : Json) (fields : Fields) :
    (fields.insert k v).get? key = if key = k then some v else fields.get? key := by
  unfold Fields.get?
  induction fields with
  | nil => exact lookupCons key k v []
  | cons field fields ih =>
    obtain ⟨name, w⟩ := field
    rw [Fields.insert]
    split
    · rename_i same
      subst same
      rw [lookupCons, lookupCons]
      split
      · rfl
      · rfl
    · rename_i other
      split
      · exact lookupCons key k v _
      · rw [lookupCons, lookupCons, ih]
        by_cases own : key = k
        · have apart : key ≠ name := fun same => other (own ▸ same)
          rw [if_neg apart, if_pos own, if_pos own]
        · rw [if_neg own, if_neg own]

def present : List (String × Option Json) → Fields
  | [] => []
  | (_, none) :: fields => present fields
  | (name, some v) :: fields => (name, v) :: present fields

theorem getFold {fields : List (String × Option Json)} (distinct : (fields.map Prod.fst).Nodup)
    (acc : Fields) (name : String) :
    Fields.get? ((present fields).foldl (fun acc (k, v) => Fields.insert k v acc) acc) name =
      (fields.lookup name).join.or (acc.get? name) := by
  induction fields generalizing acc with
  | nil => rfl
  | cons field fields ih =>
    obtain ⟨k, o⟩ := field
    obtain ⟨fresh, distinct'⟩ := List.nodup_cons.mp distinct
    -- No later field can take the place of this one.
    have last : fields.lookup k = none := by
      rw [List.lookup_eq_none_iff]
      intro field mem
      rw [bne_iff_ne]
      intro same
      exact fresh (List.mem_map.mpr ⟨field, mem, same.symm⟩)
    rw [lookupCons]
    cases o with
    | none =>
      rw [present, ih distinct']
      by_cases own : name = k
      · rw [own, last, if_pos rfl]
        rfl
      · rw [if_neg own]
    | some v =>
      rw [present, List.foldl_cons, ih distinct', getInsert]
      by_cases own : name = k
      · rw [own, last, if_pos rfl, if_pos rfl]
        rfl
      · rw [if_neg own, if_neg own]

theorem getPresent {fields : List (String × Option Json)} (distinct : (fields.map Prod.fst).Nodup) :
    ∃ all : Fields, ofFields (present fields) = .obj all ∧
      ∀ name, all.get? name = (fields.lookup name).join := by
  refine ⟨_, rfl, ?_⟩
  intro name
  rw [getFold distinct]
  exact Option.or_none

end Json

inductive NoRule where
  | named
  | null
  | missing
  deriving DecidableEq, Repr

structure MessageStyle where
  rule : NoRule
  message : Bool
  line : Bool
  column : Bool
  suggestions : Bool
  deriving DecidableEq, Repr

/-- What a writer does with a report: whether it leaves out an empty list of messages, for the group
at an index, and the style of each message, by the indices of its group and its own. -/
structure ReportStyle where
  messages : Nat → Bool
  message : Nat → Nat → MessageStyle

def unlessLeft (leave isDefault : Bool) (v : Json) : Option Json :=
  if leave && isDefault then none else some v

namespace Diagnostic

def ruleJson (style : NoRule) (rule : String) : Option Json :=
  if rule = "unknown" then
    match style with
    | .named => some (.str rule)
    | .null => some .null
    | .missing => none
  else some (.str rule)

def fields (style : MessageStyle) (d : Diagnostic) : List (String × Option Json) :=
  [("ruleId", ruleJson style.rule d.rule),
    ("severity", some (.num (.int d.severity.code))),
    ("message", unlessLeft style.message (d.message == "") (.str d.message)),
    ("line", unlessLeft style.line (d.line == 0) (.nat d.line)),
    ("column", unlessLeft style.column (d.column == 0) (.nat d.column)),
    ("suggestions", unlessLeft style.suggestions d.suggestions.isEmpty (.arr d.suggestions))]

def toJson (style : MessageStyle) (d : Diagnostic) : Json :=
  .ofFields (Json.present (d.fields style))

end Diagnostic

namespace Group

def fields (leave : Bool) (styles : Nat → MessageStyle) (g : Group) : List (String × Option Json) :=
  [("filePath", some (.str g.path)),
    ("messages", unlessLeft leave g.diagnostics.isEmpty
      (.arr (g.diagnostics.mapIdx fun i d => d.toJson (styles i))))]

def toJson (leave : Bool) (styles : Nat → MessageStyle) (g : Group) : Json :=
  .ofFields (Json.present (g.fields leave styles))

end Group

def Report.toJson (style : ReportStyle) (report : Report) : Json :=
  .arr (report.mapIdx fun i g => g.toJson (style.messages i) (style.message i))

namespace Report

/-- The paths are not empty, every finding is one of its group's file, and the places are numbers of
64 bits. -/
def Writable (report : Report) : Prop :=
  ∀ g ∈ report, g.path ≠ "" ∧
    ∀ d ∈ g.diagnostics, d.path = g.path ∧ d.line < 2 ^ (64 : Nat) ∧ d.column < 2 ^ (64 : Nat)

instance (report : Report) : Decidable report.Writable :=
  inferInstanceAs (Decidable (∀ g ∈ report, g.path ≠ "" ∧
    ∀ d ∈ g.diagnostics, d.path = g.path ∧ d.line < 2 ^ (64 : Nat) ∧ d.column < 2 ^ (64 : Nat)))

end Report

section
variable {α β γ : Type}

theorem mapIdxAligned {R : β → γ → Prop} {f : Nat → α → β} {g : Nat → α → γ} {xs : List α}
    (each : ∀ i, ∀ x ∈ xs, R (f i x) (g i x)) : List.Forall₂ R (xs.mapIdx f) (xs.mapIdx g) := by
  induction xs generalizing f g with
  | nil => exact .nil
  | cons x xs ih =>
    rw [List.mapIdx_cons, List.mapIdx_cons]
    exact .cons (each 0 x (by simp)) (ih fun i y mem => each (i + 1) y (by simp [mem]))

theorem mapIdxBack {f : Nat → α → β} {g : β → α} {xs : List α}
    (each : ∀ i, ∀ x ∈ xs, g (f i x) = x) : (xs.mapIdx f).map g = xs := by
  induction xs generalizing f with
  | nil => rfl
  | cons x xs ih =>
    rw [List.mapIdx_cons, List.map_cons, each 0 x (by simp),
      ih fun i y mem => each (i + 1) y (by simp [mem])]

end

open Decode

theorem leftGives {α : Type} {R : Json → α → Prop} {default x : α} {v : Json} (given : R v x)
    {isDefault : Bool} (only : isDefault = true → x = default) (leave : Bool) :
    OrMissing R default (unlessLeft leave isDefault v) x := by
  unfold unlessLeft
  split
  · rename_i left
    exact only (Bool.and_eq_true_iff.mp left).2
  · exact given

namespace Diagnostic

def toMessage (style : MessageStyle) (d : Diagnostic) : Report.Message :=
  { rule := if d.rule = "unknown" ∧ style.rule ≠ .named then none else some d.rule
    severity := some d.severity.code
    text := d.message
    line := d.line
    column := d.column
    suggestions := d.suggestions }

theorem messageBack (style : MessageStyle) (d : Diagnostic) :
    (d.toMessage style).diagnostic d.path = d := by
  have rule : (d.toMessage style).rule.getD unknownRule = d.rule := by
    unfold toMessage
    simp only
    split
    · rename_i unknown
      exact unknown.1.symm
    · rfl
  have severity : Severity.ofCode (d.toMessage style).severity = d.severity := by
    unfold toMessage
    cases d.severity with
    | error => rfl
    | warning => rfl
  rw [Report.Message.diagnostic, rule, severity]
  rfl

theorem ruleGives (style : NoRule) (rule : String) :
    OrMissing (OrNull IsString) none (ruleJson style rule)
      (if rule = "unknown" ∧ style ≠ .named then none else some rule) := by
  unfold ruleJson
  by_cases unknown : rule = "unknown"
  · cases style with
    | named => simp [unknown, OrMissing, OrNull, IsString]
    | null => simp [unknown, OrMissing, OrNull]
    | missing => simp [unknown, OrMissing]
  · simp [unknown, OrMissing, OrNull, IsString]

theorem codeGives (s : Severity) :
    OrMissing (OrNull IsCode) none (some (.num (.int s.code))) (some s.code) := by
  cases s with
  | error => exact ⟨2, ⟨rfl, by decide⟩, rfl⟩
  | warning => exact ⟨1, ⟨rfl, by decide⟩, rfl⟩

theorem toJsonStands (style : MessageStyle) {d : Diagnostic} (line : d.line < 2 ^ (64 : Nat))
    (column : d.column < 2 ^ (64 : Nat)) :
    Report.Message.Stands (d.toJson style) (d.toMessage style) := by
  have distinct : Report.Message.names.Nodup := by decide +kernel
  obtain ⟨all, same, get⟩ := @Json.getPresent (d.fields style) distinct
  rw [toJson, same]
  refine .object ⟨?_, ?_, ?_, ?_, ?_, ?_⟩
  · rw [get]
    exact ruleGives style.rule d.rule
  · rw [get]
    exact codeGives d.severity
  · rw [get]
    exact leftGives (R := IsString) rfl (by simp) _
  · rw [get]
    exact leftGives (R := IsPosition) ⟨rfl, line⟩ (by simp) _
  · rw [get]
    exact leftGives (R := IsPosition) ⟨rfl, column⟩ (by simp) _
  · rw [get]
    exact leftGives (R := IsSequence) rfl (by simp) _

end Diagnostic

namespace Group

theorem toJsonStands (leave : Bool) (styles : Nat → MessageStyle) {g : Group}
    (places : ∀ d ∈ g.diagnostics, d.line < 2 ^ (64 : Nat) ∧ d.column < 2 ^ (64 : Nat)) :
    Report.GroupStands (g.toJson leave styles) (some g.path)
      (g.diagnostics.mapIdx fun i d => d.toMessage (styles i)) := by
  have distinct : Report.groupNames.Nodup := by decide +kernel
  have messages : IsListOf Report.Message.Stands
      (.arr (g.diagnostics.mapIdx fun i d => d.toJson (styles i)))
      (g.diagnostics.mapIdx fun i d => d.toMessage (styles i)) := by
    refine ⟨_, rfl, mapIdxAligned ?_⟩
    intro i d mem
    exact Diagnostic.toJsonStands (styles i) (places d mem).1 (places d mem).2
  obtain ⟨all, same, get⟩ := @Json.getPresent (g.fields leave styles) distinct
  rw [toJson, same]
  refine .object ⟨?_, ?_⟩
  · rw [get]
    exact ⟨g.path, rfl, rfl⟩
  · rw [get]
    refine leftGives messages ?_ leave
    intro empty
    rw [List.isEmpty_iff.mp empty]
    rfl

end Group

namespace Report

theorem groupBack (leave : Bool) (styles : Nat → MessageStyle) {g : Group} (named : g.path ≠ "")
    (sound : ∀ d ∈ g.diagnostics,
      d.path = g.path ∧ d.line < 2 ^ (64 : Nat) ∧ d.column < 2 ^ (64 : Nat)) :
    group 0 (g.toJson leave styles) = .ok g := by
  refine groupOkIff.mpr ⟨_, g.toJsonStands leave styles fun d mem => (sound d mem).2, named, ?_⟩
  refine (mapIdxBack ?_).symm
  intro i d mem
  rw [← (sound d mem).1]
  exact d.messageBack (styles i)

/-- A report comes back as it was from whatever a writer makes of it, in any style. -/
theorem loadsWritten (report : Report) (writable : report.Writable) (style : ReportStyle) :
    ofJson (report.toJson style) = .ok report := by
  have each : List.Forall₂ (fun v g => group 0 v = .ok g)
      (report.mapIdx fun i g => g.toJson (style.messages i) (style.message i))
      (report.mapIdx fun _ g => g) := by
    apply mapIdxAligned
    intro i g mem
    exact groupBack _ _ (writable g mem).1 (writable g mem).2
  have whole : (report.mapIdx fun _ g => g).map id = report := mapIdxBack fun _ _ _ => rfl
  rw [List.map_id] at whole
  rw [whole] at each
  exact groupsOkIff.mpr each

def sparseReport : Report :=
  [⟨"a.ts", [⟨"a.ts", "unknown", .error, 2 ^ (64 : Nat) - 1, 0, "", [.obj [("desc", .null)]]⟩,
      ⟨"a.ts", "semi", .warning, 0, 0, "Missing semicolon.", []⟩]⟩, ⟨"b.ts", []⟩]

def sparseStyle : ReportStyle where
  messages _ := true
  message _ i := ⟨if i = 0 then .null else .missing, true, true, true, true⟩

theorem loadsWrittenSparse :
    sparseReport.Writable ∧
    sparseReport.toJson sparseStyle = .arr [
      .obj [("filePath", .str "a.ts"), ("messages", .arr [
        .obj [("line", .nat (2 ^ (64 : Nat) - 1)), ("ruleId", .null), ("severity", .num (.int 2)),
          ("suggestions", .arr [.obj [("desc", .null)]])],
        .obj [("message", .str "Missing semicolon."), ("ruleId", .str "semi"),
          ("severity", .num (.int 1))]])],
      .obj [("filePath", .str "b.ts")]] ∧
    ofJson (sparseReport.toJson sparseStyle) = .ok sparseReport := by
  have writable : sparseReport.Writable := by decide +kernel
  exact ⟨writable, rfl, loadsWritten sparseReport writable sparseStyle⟩

end Report
end LintRemedy
