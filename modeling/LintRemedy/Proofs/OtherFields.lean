import LintRemedy.Proofs.Encoding

/-!
Fields that the loader does not ask for. A linter writes more into its groups and messages than is
loaded: `bare` is a report without it. Whatever these fields are called and hold, and wherever they
stand among the others, a report is loaded as its bare form is, and refused with the same complaint.
So no edit of such a field, and no number of them, makes a difference.
-/
namespace LintRemedy
namespace Json

def onItems (f : List Json → List Json) : Json → Json
  | .arr items => .arr (f items)
  | v => v

namespace Fields

def only (names : List String) (fields : Fields) : Fields := fields.filter (names.contains ·.1)

def change (name : String) (f : Json → Json) (fields : Fields) : Fields :=
  fields.map fun (k, v) => (k, if k = name then f v else v)

theorem onlyCons (names : List String) (k : String) (v : Json) (fields : Fields) :
    only names ((k, v) :: fields) =
      if k ∈ names then (k, v) :: only names fields else only names fields := by
  simp [only, List.filter_cons]

theorem getOnly {names : List String} {name : String} (mem : name ∈ names) (fields : Fields) :
    get? (only names fields) name = fields.get? name := by
  unfold get?
  induction fields with
  | nil => rfl
  | cons field fields ih =>
    obtain ⟨k, v⟩ := field
    rw [onlyCons, lookupCons]
    split
    · rw [lookupCons, ih]
    · rename_i dropped
      have apart : name ≠ k := fun same => dropped (same ▸ mem)
      rw [if_neg apart, ih]

theorem getChange (name : String) (f : Json → Json) (fields : Fields) (key : String) :
    get? (change name f fields) key =
      if key = name then (fields.get? key).map f else fields.get? key := by
  unfold change get?
  induction fields with
  | nil => simp
  | cons field fields ih =>
    obtain ⟨k, v⟩ := field
    rw [List.map_cons, lookupCons, lookupCons, ih]
    by_cases own : key = k
    · subst own
      rw [if_pos rfl, if_pos rfl]
      split
      · rfl
      · rfl
    · rw [if_neg own, if_neg own]

theorem onlyChange (names : List String) (name : String) (f : Json → Json) (fields : Fields) :
    only names (change name f fields) = change name f (only names fields) := List.filter_map

theorem changeChange {f g : Json → Json} (absorbs : ∀ v, g (f v) = g v) (name : String)
    (fields : Fields) : change name g (change name f fields) = change name g fields := by
  unfold change
  rw [List.map_map]
  apply List.map_congr_left
  intro field _
  by_cases own : field.1 = name
  · simp [own, absorbs]
  · simp [own]

theorem onlyInsert {names : List String} {key : String} (other : key ∉ names) (value : Json)
    (fields : Fields) : only names (fields.insert key value) = only names fields := by
  induction fields with
  | nil => rw [insert, onlyCons, if_neg other]
  | cons field fields ih =>
    obtain ⟨k, v⟩ := field
    rw [insert]
    split
    · rename_i same
      rw [onlyCons, onlyCons, if_neg other, if_neg (same ▸ other)]
    · split
      · rw [onlyCons, if_neg other]
      · rw [onlyCons, onlyCons, ih]

theorem onlyDrop {names : List String} {key : String} (other : key ∉ names) (fields : Fields) :
    only names (fields.filter fun f => f.1 != key) = only names fields := by
  unfold only
  rw [List.filter_filter]
  apply List.filter_congr
  intro field _
  by_cases same : field.1 = key
  · simp [same, other]
  · simp [same]

end Fields

inductive FieldEdit where
  | put (key : String) (value : Json)
  | drop (key : String)

namespace FieldEdit

def key : FieldEdit → String
  | put key _ => key
  | drop key => key

def apply : FieldEdit → Json → Json
  | put key value, .obj fields => .obj (Fields.insert key value fields)
  | drop key, .obj fields => .obj (fields.filter fun f => f.1 != key)
  | _, v => v

theorem applyFields (e : FieldEdit) (fields : Fields) :
    ∃ edited : Fields, e.apply (.obj fields) = .obj edited ∧
      ∀ names, e.key ∉ names → Fields.only names edited = Fields.only names fields := by
  cases e with
  | put key value => exact ⟨_, rfl, fun names other => Fields.onlyInsert other value fields⟩
  | drop key => exact ⟨_, rfl, fun names other => Fields.onlyDrop other fields⟩

theorem applyOther (e : FieldEdit) {v : Json} (plain : ∀ fields, v ≠ .obj fields) :
    e.apply v = v := by
  cases v with
  | obj fields => exact absurd rfl (plain fields)
  | _ => cases e <;> rfl

end FieldEdit
end Json

namespace Decode
variable {α : Type} {decode : Json → Result α} {f : Json → Json}
  (same : ∀ v, decode (f v) = decode v)
include same

theorem listMapped (vs : List Json) : list decode (vs.map f) = list decode vs := by
  induction vs with
  | nil => rfl
  | cons v vs ih => rw [List.map_cons, list, list, same, ih]

theorem withDefaultMapped (default : α) (o : Option Json) :
    withDefault default decode (o.map f) = withDefault default decode o := by
  cases o with
  | none => rfl
  | some v => exact same v

end Decode

namespace Report
open Decode
open Json (FieldEdit onItems)
open Json.Fields (only change)

namespace Message

def bare : Json → Json
  | .obj fields => .obj (only names fields)
  | v => v

theorem ofFieldsAlike {fields others : Json.Fields}
    (same : ∀ name ∈ names, fields.get? name = others.get? name) :
    ofFields fields = ofFields others := by
  unfold ofFields
  rw [same "column" (by decide), same "line" (by decide), same "message" (by decide),
    same "ruleId" (by decide), same "severity" (by decide), same "suggestions" (by decide)]

theorem ofBare (v : Json) : ofJson (bare v) = ofJson v := by
  cases v with
  | obj fields => exact ofFieldsAlike fun _ mem => Json.Fields.getOnly mem fields
  | _ => rfl

theorem bareEdited {e : FieldEdit} (other : e.key ∉ names) (v : Json) :
    bare (e.apply v) = bare v := by
  cases v with
  | obj fields =>
    obtain ⟨edited, applied, kept⟩ := e.applyFields fields
    rw [applied, bare, bare, kept names other]
  | _ => rw [e.applyOther (by simp)]

end Message

def bareMessages : Json → Json := onItems (·.map Message.bare)

def inMessages (f : Json → Json) : Json → Json
  | .obj fields => .obj (change "messages" f fields)
  | .arr items => .arr (items.modify 1 f)
  | v => v

def bareGroup : Json → Json
  | .obj fields => inMessages bareMessages (.obj (only groupNames fields))
  | v => inMessages bareMessages v

def bare : Json → Json := onItems (·.map bareGroup)

theorem messagesOfBare (v : Json) :
    listOf Message.ofJson (bareMessages v) = listOf Message.ofJson v := by
  cases v with
  | arr messages => exact listMapped Message.ofBare messages
  | _ => rfl

theorem groupOfBareFields (fields : Json.Fields) :
    groupOfFields (change "messages" bareMessages (only groupNames fields)) =
      groupOfFields fields := by
  have path : Json.Fields.get? (change "messages" bareMessages (only groupNames fields)) "filePath" =
      fields.get? "filePath" := by
    rw [Json.Fields.getChange, if_neg (by decide), Json.Fields.getOnly (by decide)]
  have messages :
      Json.Fields.get? (change "messages" bareMessages (only groupNames fields)) "messages" =
        (fields.get? "messages").map bareMessages := by
    rw [Json.Fields.getChange, if_pos rfl, Json.Fields.getOnly (by decide)]
  rw [groupOfFields, groupOfFields, path, messages, withDefaultMapped messagesOfBare]

theorem groupOfBareItems (items : List Json) :
    groupOfItems (items.modify 1 bareMessages) = groupOfItems items := by
  have path : (items.modify 1 bareMessages)[0]? = items[0]? := by
    rw [List.getElem?_modify_ne _ _ (by decide)]
  have messages : (items.modify 1 bareMessages)[1]? = items[1]?.map bareMessages :=
    List.getElem?_modify_eq ..
  rw [groupOfItems, groupOfItems, path, messages, withDefaultMapped messagesOfBare, noSurplus,
    noSurplus, List.length_modify]

theorem groupOfBare (v : Json) : groupOfJson (bareGroup v) = groupOfJson v := by
  cases v with
  | obj fields => exact groupOfBareFields fields
  | arr items => exact groupOfBareItems items
  | _ => rfl

theorem groupsOfBare (index : Nat) (vs : List Json) :
    groupsFrom index (vs.map bareGroup) = groupsFrom index vs := by
  induction vs generalizing index with
  | nil => rfl
  | cons v vs ih => rw [List.map_cons, groupsFrom, groupsFrom, group, group, groupOfBare, ih]

theorem ofBare (v : Json) : ofJson (bare v) = ofJson v := by
  cases v with
  | arr groups => exact groupsOfBare 0 groups
  | _ => rfl

inductive Edit where
  | group (index : Nat) (e : FieldEdit)
  | message (index place : Nat) (e : FieldEdit)

namespace Edit

def Other : Edit → Prop
  | group _ e => e.key ∉ groupNames
  | message _ _ e => e.key ∉ Message.names

instance (e : Edit) : Decidable e.Other :=
  match e with
  | group _ e => inferInstanceAs (Decidable (e.key ∉ groupNames))
  | message _ _ e => inferInstanceAs (Decidable (e.key ∉ Message.names))

def apply : Edit → Json → Json
  | group index e => onItems (·.modify index e.apply)
  | message index place e =>
    onItems (·.modify index (inMessages (onItems (·.modify place e.apply))))

end Edit

def edited (v : Json) (edits : List Edit) : Json := edits.foldl (fun v e => e.apply v) v

theorem mapModify {f g : Json → Json} (absorbs : ∀ v, g (f v) = g v) (vs : List Json) (i : Nat) :
    (vs.modify i f).map g = vs.map g := by
  apply List.ext_getElem?
  intro k
  rw [List.getElem?_map, List.getElem?_map, List.getElem?_modify]
  cases vs[k]? with
  | none => rfl
  | some v => by_cases here : i = k <;> simp [here, absorbs]

theorem bareGroupEdited {e : FieldEdit} (other : e.key ∉ groupNames) (v : Json) :
    bareGroup (e.apply v) = bareGroup v := by
  cases v with
  | obj fields =>
    obtain ⟨edited, applied, kept⟩ := e.applyFields fields
    rw [applied, bareGroup, bareGroup, kept groupNames other]
  | _ => rw [e.applyOther (by simp)]

theorem bareGroupInMessages {f : Json → Json}
    (absorbs : ∀ v, bareMessages (f v) = bareMessages v) (v : Json) :
    bareGroup (inMessages f v) = bareGroup v := by
  cases v with
  | obj fields =>
    simp only [inMessages, bareGroup, Json.Fields.onlyChange, Json.Fields.changeChange absorbs]
  | arr items =>
    have both : bareMessages ∘ f = bareMessages := funext absorbs
    simp only [inMessages, bareGroup, List.modify_modify_eq, both]
  | _ => rfl

theorem bareMessagesEdited {e : FieldEdit} (other : e.key ∉ Message.names) (place : Nat) (v : Json) :
    bareMessages (onItems (·.modify place e.apply) v) = bareMessages v := by
  cases v with
  | arr messages => exact congrArg Json.arr (mapModify (Message.bareEdited other) messages place)
  | _ => rfl

theorem bareApplied {e : Edit} (other : e.Other) (v : Json) : bare (e.apply v) = bare v := by
  have absorbs : ∀ {f : Json → Json} (index : Nat), (∀ g, bareGroup (f g) = bareGroup g) →
      bare (onItems (·.modify index f) v) = bare v := by
    intro f index absorbed
    cases v with
    | arr groups => exact congrArg Json.arr (mapModify absorbed groups index)
    | _ => rfl
  cases e with
  | group index e => exact absorbs index (bareGroupEdited other)
  | message index place e =>
    exact absorbs index (bareGroupInMessages (bareMessagesEdited other place))

theorem bareAfter {edits : List Edit} (others : ∀ e ∈ edits, e.Other) (v : Json) :
    bare (edited v edits) = bare v := by
  unfold edited
  induction edits generalizing v with
  | nil => rfl
  | cons e edits ih =>
    rw [List.foldl_cons, ih (fun e mem => others e (by simp [mem])), bareApplied (others e (by simp))]

/-- Two reports that differ in nothing but fields that are not asked for are loaded alike, or refused
with the same complaint; in particular a report and what any edits of such fields make of it. -/
theorem otherFieldsInert (v : Json) :
    (∀ w, bare w = bare v → ofJson w = ofJson v) ∧
    ∀ edits : List Edit, (∀ e ∈ edits, e.Other) → ofJson (edited v edits) = ofJson v := by
  have alike : ∀ w, bare w = bare v → ofJson w = ofJson v := by
    intro w same
    rw [← ofBare w, same, ofBare v]
  refine ⟨alike, ?_⟩
  intro edits others
  exact alike _ (bareAfter others v)

def crowdedReport : Json :=
  .arr [
    .obj [("errorCount", .nat 1), ("filePath", .str "a.ts"),
      ("messages", .arr [.obj [("column", .nat 4), ("endLine", .null), ("line", .nat 2)]])],
    .arr [.str "b.ts", .arr [.obj [("fatal", .bool true), ("line", .str "x"), ("nodeType", .null)]]]]

def crowdingEdits : List Edit :=
  [.group 0 (.put "errorCount" (.str "many")), .group 0 (.put "lines" (.arr [])),
    .group 0 (.drop "source"), .message 0 0 (.drop "endLine"), .message 0 0 (.put "Line" (.nat 9)),
    .message 1 0 (.put "fatal" .null), .message 1 0 (.put "lineText" (.obj [])),
    .message 1 0 (.drop "nodeType")]

theorem otherFieldsInertCrowded :
    (∀ e ∈ crowdingEdits, e.Other) ∧ bare (bare crowdedReport) = bare crowdedReport ∧
    ofJson (edited crowdedReport crowdingEdits) =
      .error (.group 1 (.invalidType (.str "x") .position)) ∧
    ofJson (bare crowdedReport) = .error (.group 1 (.invalidType (.str "x") .position)) := by
  have others : ∀ e ∈ crowdingEdits, e.Other := by decide
  have again : bare (bare crowdedReport) = bare crowdedReport := rfl
  have refused : ofJson crowdedReport = .error (.group 1 (.invalidType (.str "x") .position)) := rfl
  obtain ⟨alike, afterEdits⟩ := otherFieldsInert crowdedReport
  exact ⟨others, again, (afterEdits crowdingEdits others).trans refused,
    (alike _ again).trans refused⟩

end Report
end LintRemedy
