import LintRemedy.Failure
import LintRemedy.Proofs.Documents
import LintRemedy.Proofs.OtherFields

/-!
What a configuration document says. It is accepted if each of its keys is known and holds a value of
its kind, and then each setting is what its own key gives, or the default without it. Otherwise the
first bad key, in the order of code points, says why. A configuration comes back from a document
that gives it, in any order of the keys, with or without those that hold their default.
-/
namespace LintRemedy

namespace Json.Fields

theorem getOnlyOther {names : List String} {name : String} (other : name ∉ names)
    (fields : Fields) : get? (only names fields) name = none := by
  rw [get?, List.lookup_eq_none_iff]
  intro field member
  rw [bne_iff_ne]
  rintro rfl
  have mem : field.1 ∈ names := by simpa using (List.mem_filter.mp member).2
  exact other mem

end Json.Fields

namespace Decode
variable {ε α β : Type}

theorem bindError {x : Except ε α} {f : α → Except ε β} {e : ε} :
    (x >>= f) = .error e ↔ x = .error e ∨ ∃ a, x = .ok a ∧ f a = .error e := by
  cases x with
  | error cause => simp [bind, Except.bind]
  | ok a => simp [bind, Except.bind]

def IsBoolean (v : Json) (b : Bool) : Prop := v = .bool b

def IsStrings (v : Json) (texts : List String) : Prop := v = .arr (texts.map .str)

inductive NotStrings : Json → DecodeError → Prop where
  | value {v : Json} (other : ∀ items, v ≠ .arr items) : NotStrings v (.invalidType v .sequence)
  | item {texts : List String} {v : Json} {rest : List Json} (other : ∀ s, v ≠ .str s) :
      NotStrings (.arr (texts.map .str ++ v :: rest)) (.invalidType v .string)

theorem findsBoolean : Finds boolean IsBoolean := by
  intro v b
  cases v <;> simp [boolean, IsBoolean]

theorem booleanErrorIff {v : Json} {e : DecodeError} :
    boolean v = .error e ↔ (∀ b, v ≠ .bool b) ∧ e = .invalidType v .boolean := by
  cases v <;> simp [boolean, eq_comm]

theorem stringErrorIff {v : Json} {e : DecodeError} :
    string v = .error e ↔ (∀ s, v ≠ .str s) ∧ e = .invalidType v .string := by
  cases v <;> simp [string, eq_comm]

theorem alignedStrings {items : List Json} {texts : List String} :
    List.Forall₂ IsString items texts ↔ items = texts.map .str := by
  rw [← List.forall₂_eq_eq_eq, List.forall₂_map_right_iff]
  rfl

theorem findsStrings : Finds (listOf string) IsStrings := by
  intro v texts
  rw [findsListOf findsString]
  simp only [IsListOf, alignedStrings, IsStrings]
  exact ⟨fun ⟨_, array, same⟩ => same ▸ array, fun array => ⟨_, array, rfl⟩⟩

theorem itemsErrorIff {items : List Json} {e : DecodeError} :
    list string items = .error e ↔ ∃ (texts : List String) (v : Json) (rest : List Json),
      items = texts.map .str ++ v :: rest ∧ string v = .error e := by
  induction items with
  | nil => simp [list]
  | cons v items ih =>
    simp only [list, bindError, ih, reduceCtorEq, and_false, exists_false, or_false]
    constructor
    · rintro (first | ⟨s, here, texts, w, rest, rfl, later⟩)
      · exact ⟨[], v, items, rfl, first⟩
      · cases (findsString v s).mp here
        exact ⟨s :: texts, w, rest, rfl, later⟩
    · rintro ⟨texts, w, rest, split, fault⟩
      cases texts with
      | nil =>
        cases (List.cons.inj split).1
        exact .inl fault
      | cons s texts =>
        obtain ⟨first, later⟩ := List.cons.inj split
        exact .inr ⟨s, (findsString v s).mpr first, texts, w, rest, later, fault⟩

theorem stringsErrorIff {v : Json} {e : DecodeError} :
    listOf string v = .error e ↔ NotStrings v e := by
  constructor
  · intro failed
    rcases bindError.mp failed with noArray | ⟨items, array, inside⟩
    · cases v with
      | arr items => contradiction
      | _ => cases noArray; exact .value (by simp)
    · cases (findsSequence v items).mp array
      obtain ⟨texts, w, rest, rfl, fault⟩ := itemsErrorIff.mp inside
      obtain ⟨other, rfl⟩ := stringErrorIff.mp fault
      exact .item other
  · intro fault
    cases fault with
    | value other =>
      cases v with
      | arr items => exact absurd rfl (other items)
      | _ => rfl
    | item other => exact itemsErrorIff.mpr ⟨_, _, _, rfl, stringErrorIff.mpr ⟨other, rfl⟩⟩

theorem orMissingThen {R : Json → α → Prop} {a b c : α} {one later : Option Json}
    (apart : one = none ∨ later = none) (first : OrMissing R a one b)
    (second : OrMissing R b later c) : OrMissing R a (one.or later) c := by
  cases one with
  | none =>
    cases first
    exact second
  | some v =>
    rcases apart with none | none
    · contradiction
    · subst none
      cases second
      exact first

theorem orMissingUnique {R : Json → α → Prop} (unique : ∀ {v x y}, R v x → R v y → x = y)
    {a x y : α} {o : Option Json} (first : OrMissing R a o x) (second : OrMissing R a o y) :
    x = y := by
  cases o with
  | none => exact first.trans second.symm
  | some v => exact unique first second

theorem findsUnique {decode : Json → Result α} {R : Json → α → Prop} (finds : Finds decode R)
    {v : Json} {x y : α} (first : R v x) (second : R v y) : x = y :=
  Except.ok.inj (((finds v x).mpr first).symm.trans ((finds v y).mpr second))

end Decode

namespace Config
open Decode
open Json (Fields)

def listKeys : List String := ["high_risk_rules", "medium_risk_rules", "disabled_fixers", "exclude"]

inductive Fits : String → Json → Prop where
  | strings {key : String} {v : Json} {texts : List String} (known : key ∈ listKeys)
      (held : IsStrings v texts) : Fits key v
  | flag {v : Json} {b : Bool} (held : IsBoolean v b) : Fits "sanitize" v

inductive Describes : String → Json → DecodeError → Prop where
  | unknown {key : String} {v : Json} (new : key ∉ keys) : Describes key v (.unknownField key keys)
  | strings {key : String} {v : Json} {e : DecodeError} (known : key ∈ listKeys)
      (fault : NotStrings v e) : Describes key v e
  | flag {v : Json} (other : ∀ b, v ≠ .bool b) : Describes "sanitize" v (.invalidType v .boolean)

structure Given (base : Config) (field : String → Option Json) (c : Config) : Prop where
  highRisk : OrMissing IsStrings base.highRisk (field "high_risk_rules") c.highRisk
  mediumRisk : OrMissing IsStrings base.mediumRisk (field "medium_risk_rules") c.mediumRisk
  disabled : OrMissing IsStrings base.disabled (field "disabled_fixers") c.disabled
  clean : OrMissing IsBoolean base.clean (field "sanitize") c.clean
  exclude : OrMissing IsStrings base.exclude (field "exclude") c.exclude

def alone (key : String) (v : Json) (name : String) : Option Json :=
  if name = key then some v else none

theorem keyCases (key : String) : key ∈ listKeys ∨ key = "sanitize" ∨ key ∉ keys := by
  simp only [listKeys, keys, List.mem_cons, List.not_mem_nil, or_false]
  tauto

section
variable (base : Config) {key : String}

theorem setStrings (known : key ∈ listKeys) : ∃ put : List String → Config,
    (∀ v, base.setField key v = listOf string v >>= fun texts => .ok (put texts)) ∧
    ∀ {v texts}, IsStrings v texts → Given base (alone key v) (put texts) := by
  simp only [listKeys, List.mem_cons, List.not_mem_nil, or_false] at known
  rcases known with rfl | rfl | rfl | rfl
  · exact ⟨fun rules => { base with highRisk := rules }, fun v => rfl,
      fun held => ⟨held, rfl, rfl, rfl, rfl⟩⟩
  · exact ⟨fun rules => { base with mediumRisk := rules }, fun v => rfl,
      fun held => ⟨rfl, held, rfl, rfl, rfl⟩⟩
  · exact ⟨fun rules => { base with disabled := rules }, fun v => rfl,
      fun held => ⟨rfl, rfl, held, rfl, rfl⟩⟩
  · exact ⟨fun patterns => { base with exclude := patterns }, fun v => rfl,
      fun held => ⟨rfl, rfl, rfl, rfl, held⟩⟩

theorem setFlag (v : Json) :
    base.setField "sanitize" v = boolean v >>= fun b => .ok { base with clean := b } := rfl

theorem setUnknown (new : key ∉ keys) (v : Json) :
    base.setField key v = .error (.unknownField key keys) := by
  simp only [keys, List.mem_cons, List.not_mem_nil, or_false, not_or] at new
  simp [setField, new]

end

section
variable {base next : Config} {key : String} {v : Json}

theorem setFieldOk (set : base.setField key v = .ok next) :
    Fits key v ∧ Given base (alone key v) next := by
  rcases keyCases key with known | rfl | new
  · obtain ⟨put, all, given⟩ := setStrings base known
    rw [all, bindOk] at set
    obtain ⟨texts, read, last⟩ := set
    cases last
    have held := (findsStrings v texts).mp read
    exact ⟨.strings known held, given held⟩
  · rw [setFlag, bindOk] at set
    obtain ⟨b, read, last⟩ := set
    cases last
    have held := (findsBoolean v b).mp read
    exact ⟨.flag held, ⟨rfl, rfl, rfl, held, rfl⟩⟩
  · rw [setUnknown base new] at set
    contradiction

theorem Fits.set (fits : Fits key v) (base : Config) : ∃ next, base.setField key v = .ok next := by
  cases fits with
  | strings known held =>
    obtain ⟨put, all, -⟩ := setStrings base known
    exact ⟨put _, by rw [all]; exact bindOk.mpr ⟨_, (findsStrings v _).mpr held, rfl⟩⟩
  | flag held => exact ⟨_, bindOk.mpr ⟨_, (findsBoolean v _).mpr held, rfl⟩⟩

theorem setFieldErrorIff {e : DecodeError} :
    base.setField key v = .error e ↔ Describes key v e := by
  have passes {α : Type} {x : Result α} {f : α → Config} :
      (x >>= fun a => .ok (f a)) = .error e ↔ x = .error e := by
    simp [bindError]
  constructor
  · intro failed
    rcases keyCases key with known | rfl | new
    · obtain ⟨put, all, -⟩ := setStrings base known
      rw [all, passes] at failed
      exact .strings known (stringsErrorIff.mp failed)
    · rw [setFlag, passes] at failed
      obtain ⟨other, rfl⟩ := booleanErrorIff.mp failed
      exact .flag other
    · rw [setUnknown base new] at failed
      cases failed
      exact .unknown new
  · intro described
    cases described with
    | unknown new => exact setUnknown base new v
    | strings known fault =>
      obtain ⟨put, all, -⟩ := setStrings base known
      rw [all, passes]
      exact stringsErrorIff.mpr fault
    | flag other =>
      rw [setFlag, passes]
      exact booleanErrorIff.mpr ⟨other, rfl⟩

theorem describesIff : (∃ e, Describes key v e) ↔ ¬ Fits key v := by
  constructor
  · rintro ⟨e, described⟩ fits
    obtain ⟨next, set⟩ := fits.set {}
    have failed : setField {} key v = .error e := setFieldErrorIff.mpr described
    rw [set] at failed
    contradiction
  · intro misfit
    cases result : setField {} key v with
    | ok next => exact absurd (setFieldOk result).1 misfit
    | error e => exact ⟨e, setFieldErrorIff.mp result⟩

end

namespace Given
variable {base next c : Config} {one later : String → Option Json}

theorem nothing (base : Config) : Given base (fun _ => none) base := ⟨rfl, rfl, rfl, rfl, rfl⟩

theorem trans (apart : ∀ name, one name = none ∨ later name = none) (first : Given base one next)
    (second : Given next later c) : Given base (fun name => (one name).or (later name)) c where
  highRisk := orMissingThen (apart _) first.highRisk second.highRisk
  mediumRisk := orMissingThen (apart _) first.mediumRisk second.mediumRisk
  disabled := orMissingThen (apart _) first.disabled second.disabled
  clean := orMissingThen (apart _) first.clean second.clean
  exclude := orMissingThen (apart _) first.exclude second.exclude

theorem unique (first : Given base one c) (second : Given base one next) : c = next := by
  have strings {default x y : List String} {o : Option Json} :=
    @orMissingUnique _ IsStrings (findsUnique findsStrings) default x y o
  have flag {default x y : Bool} {o : Option Json} :=
    @orMissingUnique _ IsBoolean (findsUnique findsBoolean) default x y o
  obtain ⟨h, m, d, s, e⟩ := first
  obtain ⟨h', m', d', s', e'⟩ := second
  cases c
  cases next
  rw [Config.mk.injEq]
  exact ⟨strings h h', strings m m', strings d d', flag s s', strings e e'⟩

end Given

section
variable {fields : Fields} {base c : Config}

theorem setFieldsOk (ascending : fields.Ascending) (set : base.setFields fields = .ok c) :
    (∀ field ∈ fields, Fits field.1 field.2) ∧ Given base fields.get? c := by
  induction fields generalizing base with
  | nil =>
    cases set
    exact ⟨by simp, .nothing _⟩
  | cons field fields ih =>
    obtain ⟨key, v⟩ := field
    obtain ⟨below, rest⟩ := List.pairwise_cons.mp ascending
    obtain ⟨next, first, others⟩ := bindOk.mp set
    obtain ⟨fits, given⟩ := setFieldOk first
    obtain ⟨allFit, givenRest⟩ := ih rest others
    refine ⟨List.forall_mem_cons.mpr ⟨fits, allFit⟩, ?_⟩
    -- The same key does not come again.
    have apart : ∀ name, alone key v name = none ∨ Fields.get? fields name = none := by
      intro name
      by_cases own : name = key
      · right
        rw [own, Fields.get?, List.lookup_eq_none_iff]
        intro field later
        rw [bne_iff_ne]
        rintro rfl
        exact String.lt_irrefl _ (below field later)
      · exact .inl (if_neg own)
    have both : Fields.get? ((key, v) :: fields) =
        fun name => (alone key v name).or (Fields.get? fields name) := by
      funext name
      rw [Fields.get?, Json.lookupCons, alone]
      split <;> rfl
    rw [both]
    exact given.trans apart givenRest

theorem fitsSet (fit : ∀ field ∈ fields, Fits field.1 field.2) (base : Config) :
    ∃ c, base.setFields fields = .ok c := by
  induction fields generalizing base with
  | nil => exact ⟨base, rfl⟩
  | cons field fields ih =>
    obtain ⟨first, rest⟩ := List.forall_mem_cons.mp fit
    obtain ⟨next, set⟩ := first.set base
    obtain ⟨c, others⟩ := ih rest next
    exact ⟨c, bindOk.mpr ⟨next, set, others⟩⟩

theorem setFieldsErrorIff {e : DecodeError} :
    base.setFields fields = .error e ↔ ∃ front key v back, fields = front ++ (key, v) :: back ∧
      (∀ field ∈ front, Fits field.1 field.2) ∧ Describes key v e := by
  induction fields generalizing base with
  | nil => simp [setFields]
  | cons field fields ih =>
    obtain ⟨key, v⟩ := field
    rw [setFields, bindError]
    simp only [ih, setFieldErrorIff]
    constructor
    · rintro (described | ⟨next, set, front, k, w, back, rfl, fit, described⟩)
      · exact ⟨[], key, v, fields, rfl, by simp, described⟩
      · exact ⟨(key, v) :: front, k, w, back, rfl,
          List.forall_mem_cons.mpr ⟨(setFieldOk set).1, fit⟩, described⟩
    · rintro ⟨front, k, w, back, split, fit, described⟩
      cases front with
      | nil =>
        cases (List.cons.inj split).1
        exact .inl described
      | cons head front =>
        obtain ⟨same, rest⟩ := List.cons.inj split
        cases same
        obtain ⟨first, fit'⟩ := List.forall_mem_cons.mp fit
        obtain ⟨next, set⟩ := first.set base
        exact .inr ⟨next, set, front, k, w, back, rest, fit', described⟩

theorem firstMisfit (ascending : fields.Ascending) {e : DecodeError}
    (failed : base.setFields fields = .error e) :
    ∃ key v, (key, v) ∈ fields ∧ ¬ Fits key v ∧
      (∀ field ∈ fields, field.1 < key → Fits field.1 field.2) ∧ Describes key v e := by
  obtain ⟨front, key, v, back, split, fit, described⟩ := setFieldsErrorIff.mp failed
  refine ⟨key, v, by simp [split], describesIff.mp ⟨e, described⟩, ?_, described⟩
  intro field member less
  rw [Fields.Ascending, split, List.pairwise_append, List.pairwise_cons] at ascending
  rw [split, List.mem_append, List.mem_cons] at member
  rcases member with before | rfl | behind
  · exact fit field before
  · exact absurd less (String.lt_irrefl _)
  · have greater := ascending.2.1.1 field behind
    exact absurd (String.lt_trans less greater) (String.lt_irrefl _)

end

def unset : Config := ⟨[], [], [], true, []⟩

def entries (c : Config) : Fields :=
  [("high_risk_rules", .arr (c.highRisk.map .str)),
    ("medium_risk_rules", .arr (c.mediumRisk.map .str)),
    ("disabled_fixers", .arr (c.disabled.map .str)),
    ("sanitize", .bool c.clean),
    ("exclude", .arr (c.exclude.map .str))]

theorem entriesFit (c : Config) : ∀ entry ∈ c.entries, Fits entry.1 entry.2 := by
  simp only [entries, List.forall_mem_cons]
  exact ⟨.strings (by decide) rfl, .strings (by decide) rfl, .strings (by decide) rfl, .flag rfl,
    .strings (by decide) rfl, by simp⟩

section
variable {c : Config} {names : List String}
  (kept : ∀ entry ∈ c.entries, entry ∉ unset.entries → entry.1 ∈ names)
include kept

theorem onlyGiven : Given unset (Fields.get? (Fields.only names c.entries)) c := by
  have gives {α : Type} {R : Json → α → Prop} {default x : α} {key : String} {v : Json}
      (entry : c.entries.get? key = some v) (given : R v x)
      (left : (key, v) ∈ unset.entries → x = default) :
      OrMissing R default (Fields.get? (Fields.only names c.entries) key) x := by
    by_cases mem : key ∈ names
    · rw [Fields.getOnly mem, entry]
      exact given
    · rw [Fields.getOnlyOther mem]
      apply left
      by_contra changed
      exact mem (kept _ (Fields.getMember entry) changed)
  exact ⟨gives rfl rfl (by simp [entries, unset]), gives rfl rfl (by simp [entries, unset]),
    gives rfl rfl (by simp [entries, unset]), gives rfl rfl (by simp [entries, unset]),
    gives rfl rfl (by simp [entries, unset])⟩

theorem writtenBack {written : Fields} (arranged : written.Perm (Fields.only names c.entries)) :
    ofJson (.ofFields written) = .ok c := by
  obtain ⟨all, object, ascending, get⟩ := Json.ofFieldsObject written
  have distinct : ((Fields.only names c.entries).map Prod.fst).Nodup := by
    have whole : (c.entries.map Prod.fst).Nodup := by
      change keys.Nodup
      decide +kernel
    exact whole.sublist (List.filter_sublist.map _)
  have same : all.get? = Fields.get? (Fields.only names c.entries) := by
    funext key
    rw [get, Fields.lookupArranged (written.reverse_perm.trans arranged) distinct]
    rfl
  have fit : ∀ field ∈ all, Fits field.1 field.2 := by
    intro field member
    rw [ascending.memberIff, same] at member
    exact entriesFit c field (List.mem_filter.mp (Fields.getMember member)).1
  obtain ⟨c', set⟩ := fitsSet fit unset
  have given := (setFieldsOk ascending set).2
  rw [same] at given
  rw [object]
  exact set.trans (congrArg _ (given.unique (onlyGiven kept)))

end

theorem ofTextObject {t : Text} {fields : Fields}
    (document : Json.ofLenientText? t = some (.obj fields)) :
    ofText t = (unset.setFields fields).mapError .invalid := by
  rw [ofText, document]
  rfl

/-- A text whose document is an object is a configuration exactly if its keys fit. Each setting is
then what its key gives, or else its default; and if a key does not fit, the first such key in the
order of code points is complained of. A configuration comes back from its keys in any
order, as long as those are there that hold something else than the default. -/
theorem decodesExactly :
    (∀ (t : Text) (fields : Fields), Json.ofLenientText? t = some (.obj fields) →
      ((∃ c, ofText t = .ok c) ↔ ∀ field ∈ fields, Fits field.1 field.2) ∧
      (∀ c, ofText t = .ok c → Given unset fields.get? c) ∧
      ∀ fault, ofText t = .error fault → ∃ key v cause, (key, v) ∈ fields ∧ ¬ Fits key v ∧
        (∀ field ∈ fields, field.1 < key → Fits field.1 field.2) ∧ Describes key v cause ∧
        fault = .invalid cause ∧ ∀ words, (Failure.config fault).message words =
          "Configuration error: Invalid config: " ++ cause.message) ∧
    ∀ (c : Config) (names : List String) (written : Fields),
      (∀ entry ∈ c.entries, entry ∉ unset.entries → entry.1 ∈ names) →
      written.Perm (Fields.only names c.entries) →
      ofJson (.ofFields written) = .ok c ∧
      ∀ t, Json.ofLenientText? t = some (.ofFields written) → ofText t = .ok c := by
  refine ⟨?_, ?_⟩
  · intro t fields document
    have ascending := Json.documentAscending document
    rw [ofTextObject document]
    cases set : unset.setFields fields with
    | ok c =>
      obtain ⟨fit, given⟩ := setFieldsOk ascending set
      refine ⟨⟨fun _ => fit, fun _ => ⟨c, rfl⟩⟩, ?_, fun _ failed => nomatch failed⟩
      intro c' same
      cases same
      exact given
    | error cause =>
      obtain ⟨key, v, member, misfit, before, described⟩ := firstMisfit ascending set
      refine ⟨⟨(fun ⟨_, same⟩ => nomatch same), fun fit => absurd (fit _ member) misfit⟩,
        (fun _ same => nomatch same), ?_⟩
      intro fault failed
      cases failed
      have message : "Configuration error: " ++ ("Invalid config: " ++ cause.message) =
          "Configuration error: Invalid config: " ++ cause.message := by
        rw [← String.append_assoc]
        rfl
      exact ⟨key, v, cause, member, misfit, before, described, rfl, fun _ => message⟩
  · intro c names written kept arranged
    have back := writtenBack kept arranged
    refine ⟨back, ?_⟩
    intro t document
    rw [ofText, document]
    simp only [back]
    rfl

def handWritten : Text :=
  "\x7b // rules\n sanitize: null, 'exclude': [\"a\" \"b\"], \"sanitize\": false,\x7d".toList

def misfitting : Text :=
  "\x7b\"sanitize\": true, \"extra\": null, \"exclude\": [\"a\", null]\x7d".toList

theorem decodesByHand :
    Json.ofLenientText? handWritten =
      some (.obj [("exclude", .arr [.str "a", .str "b"]), ("sanitize", .bool false)]) ∧
    (∃ c, ofText handWritten = .ok c) ∧
    Json.ofLenientText? misfitting = some (.obj [("exclude", .arr [.str "a", .null]),
      ("extra", .null), ("sanitize", .bool true)]) ∧
    ofText misfitting = .error (.invalid (.invalidType .null .string)) ∧
    (∀ words, (Failure.config (.invalid (.invalidType .null .string))).message words =
      "Configuration error: Invalid config: invalid type: null, expected a string") ∧
    ofJson (.ofFields [("sanitize", .bool false), ("exclude", .arr [.str "a", .str "b"])]) =
      .ok ⟨[], [], [], false, ["a", "b"]⟩ := by
  obtain ⟨decoded, written⟩ := decodesExactly
  have read : Json.ofLenientText? handWritten =
      some (.obj [("exclude", .arr [.str "a", .str "b"]), ("sanitize", .bool false)]) := by
    decide +kernel
  have readMisfit : Json.ofLenientText? misfitting =
      some (.obj [("exclude", .arr [.str "a", .null]), ("extra", .null),
        ("sanitize", .bool true)]) := by
    decide +kernel
  have strings : IsStrings (.arr [.str "a", .str "b"]) ["a", "b"] := rfl
  have fit : ∀ field ∈
      ([("exclude", .arr [.str "a", .str "b"]), ("sanitize", .bool false)] : Fields),
      Fits field.1 field.2 := by
    simp only [List.forall_mem_cons]
    exact ⟨.strings (by decide) strings, .flag rfl, by simp⟩
  have refused : ofText misfitting = .error (.invalid (.invalidType .null .string)) := by
    rw [ofTextObject readMisfit]
    rfl
  obtain ⟨-, -, cause, -, -, -, -, same, message⟩ := (decoded _ _ readMisfit).2.2 _ refused
  cases same
  refine ⟨read, (decoded _ _ read).1.mpr fit, readMisfit, refused,
    fun words => (message words).trans rfl, ?_⟩
  refine (written ⟨[], [], [], false, ["a", "b"]⟩ ["sanitize", "exclude"] _ ?_ ?_).1
  · simp [entries, unset]
  · exact .refl _

end Config
end LintRemedy
