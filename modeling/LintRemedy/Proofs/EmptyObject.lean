import LintRemedy.Proofs.Shapes

/-!
The rule against `{}` as a type leaves a text to which none of its substitutions is open. What it
writes is a name where none was, so a shape that reads a name could find a new one; but no shape
of this rule looks for a name at the places where the rule writes.
-/
namespace LintRemedy
open Text (isBlank isNameChar isWord starts clash)

namespace Rule
open Step (keep swap)
open Item (word blanks someBlanks name optional)

def extendsBackwards : Text := ['s', 'd', 'n', 'e', 't', 'x', 'e']

def opensType (c : Char) : Bool := [':', '<', '|', '&', '='].contains c

def typePlace (before : Text) : Bool :=
  starts opensType (before.dropWhile isBlank) ||
    (starts isBlank before && (Text.after? extendsBackwards (before.dropWhile isBlank)).isSome)

theorem typePlaceAfter {bl rest : Text} (gap : ∀ c ∈ bl, isBlank c = true)
    (stop : starts isBlank rest = false) :
    typePlace (bl ++ rest) = (starts opensType rest ||
      (starts isBlank (bl ++ rest) && (Text.after? extendsBackwards rest).isSome)) := by
  rw [typePlace, Text.runDropped gap stop]

theorem typePlaceName {c : Char} (named : isNameChar c = true) (before : Text) :
    typePlace (c :: before) = false := by
  have stop : starts isBlank (c :: before) = false := Text.nameNotBlank named
  have other : opensType c = false := by
    have marks : ∀ d ∈ [':', '<', '|', '&', '='], isNameChar d = false := by decide
    by_contra mark
    have := marks c (by simpa only [opensType, Bool.not_eq_false, List.contains_iff_mem] using mark)
    simp [named] at this
  have h := typePlaceAfter (List.forall_mem_nil _) stop
  simpa [stop, other] using h

def emptySwaps : Swaps := fun before old new =>
  old = emptyType ∧ new = objectType ∧ typePlace before = true

theorem emptyNeutral : emptySwaps.Neutral where
  some := by rintro b _ _ ⟨rfl, rfl, -⟩; decide
  name := by rintro b _ _ ⟨rfl, rfl, -⟩; decide
  close := by rintro b _ _ ⟨rfl, rfl, -⟩; decide
  catches := by rintro b _ _ ⟨rfl, rfl, -⟩; decide
  nameEnd := by rintro b _ _ ⟨rfl, rfl, -⟩; decide
  wordEnd := by rintro b _ _ ⟨rfl, rfl, -⟩; decide

theorem emptyWord {w : Text} (free : Item.free w objectType = true) :
    Item.Reads emptySwaps (.word w) :=
  Item.readsFree (by rintro b _ _ ⟨rfl, rfl, -⟩; exact List.prefix_refl _) free

theorem emptyBlanks : Item.Reads emptySwaps .blanks :=
  Item.readsBlanks (by rintro b _ _ ⟨rfl, rfl, -⟩; decide)

theorem emptySomeBlanks : Item.Reads emptySwaps .someBlanks :=
  Item.readsSomeBlanks (by rintro b _ _ ⟨rfl, rfl, -⟩; decide)

theorem emptyKept {b t x r : Text} (h : Respelled emptySwaps b t (x ++ r)) (absent : 'o' ∉ x) :
    ∃ s, t = x ++ s ∧ Respelled emptySwaps (x.reverse ++ b) s r := by
  apply h.kept (p := (· != 'o'))
  · rintro b _ _ ⟨rfl, rfl, -⟩
    decide
  · intro c mem
    have differs : c ≠ 'o' := fun same => absent (same ▸ mem)
    simpa using differs

theorem emptyNameKept {b t x rest : Text} (h : Respelled emptySwaps b t (x ++ rest))
    (all : ∀ c ∈ x, isNameChar c = true) (away : typePlace b = false) :
    ∃ s, t = x ++ s ∧ Respelled emptySwaps (x.reverse ++ b) s rest := by
  induction x generalizing b t with
  | nil => exact ⟨t, rfl, h⟩
  | cons c x ih =>
    generalize whole : c :: x ++ rest = u at h
    cases h with
    | nil => simp at whole
    | keep d next =>
      obtain ⟨rfl, rfl⟩ := List.cons.inj whole
      obtain ⟨s, rfl, next'⟩ := ih next (fun d mem => all d (by simp [mem]))
        (typePlaceName (all c (by simp)) b)
      exact ⟨s, rfl, by simpa using next'⟩
    | swap ok next =>
      rw [ok.2.2] at away
      contradiction

def fixedEmpty : List Substitution := [
  between "annotation" ": " emptySwap [] [.notBeforeName],
  between "generic argument" "<" emptySwap [">"] [],
  between "union member" "| " emptySwap [] [.notBeforeName],
  between "intersection member" "& " emptySwap [] [.notBeforeName]]

theorem fixedEmptyRegular : ∀ s ∈ fixedEmpty, s.Regular := by
  simp only [fixedEmpty, List.forall_mem_cons, List.not_mem_nil, IsEmpty.forall_iff, implies_true,
    and_true]
  exact ⟨betweenRegular rfl, betweenRegular rfl, betweenRegular rfl, betweenRegular rfl⟩

def emptyLefts : List Text := [": ".toList, "<".toList, "| ".toList, "& ".toList]

def emptyWords : List Text := emptyLefts ++ [emptyType, ">".toList]

theorem fixedEmptyMirrored {A : Swaps} (neutral : A.Neutral) (gap : Item.Reads A .blanks)
    (words : ∀ w ∈ emptyWords, Item.Reads A (.word w)) : ∀ s ∈ fixedEmpty, s.Mirrored A := by
  have each : ∀ {label left right guards},
      (∀ w ∈ betweenWords left emptyType right, w ∈ emptyWords) →
      (between label left emptySwap right guards).Mirrored A :=
    fun sub => betweenMirrored neutral gap (fun w mem => words w (sub w mem))
  simp only [fixedEmpty, List.forall_mem_cons, List.not_mem_nil, IsEmpty.forall_iff, implies_true,
    and_true]
  exact ⟨each (by decide), each (by decide), each (by decide), each (by decide)⟩

theorem fixedEmptyBlind {A : Swaps}
    (inside : ∀ {b o n}, A b o n → ∀ l ∈ emptyLefts, Text.clear (l ++ emptyType) n.tail = true) :
    ∀ s ∈ fixedEmpty, s.Blind A := by
  have each : ∀ {label left right guards}, left.toList ∈ emptyLefts →
      (between label left emptySwap right guards).Blind A :=
    fun mem => betweenBlind (A := A) (fun ok => inside ok _ mem)
  simp only [fixedEmpty, List.forall_mem_cons, List.not_mem_nil, IsEmpty.forall_iff, implies_true,
    and_true]
  exact ⟨each (by decide), each (by decide), each (by decide), each (by decide)⟩

theorem fixedEmptyWrites : ∀ s ∈ fixedEmpty, s.Writes emptySwaps := by
  have each : ∀ {label left right guards},
      (∀ b, typePlace (left.toList.reverse ++ b) = true) →
      Text.clear (left.toList ++ emptyType)
        (left.toList ++ objectType ++ right.flatMap String.toList) = true →
      Text.clear (left.toList ++ emptyType)
        (left.toList ++ emptyType ++ right.flatMap String.toList).tail = true →
      (between label left emptySwap right guards).Writes emptySwaps :=
    fun place newClear oldClear =>
      betweenWrites (fun b => ⟨rfl, rfl, place b⟩) newClear (fun _ => oldClear)
  simp only [fixedEmpty, List.forall_mem_cons, List.not_mem_nil, IsEmpty.forall_iff, implies_true,
    and_true]
  exact ⟨each (fun _ => rfl) (by decide) (by decide), each (fun _ => rfl) (by decide) (by decide),
    each (fun _ => rfl) (by decide) (by decide), each (fun _ => rfl) (by decide) (by decide)⟩

theorem extendsRead {t : Text} {f : Found} :
    Found.read? extendsEmpty.steps t = some f ↔
      ∃ bl, bl ≠ [] ∧ (∀ c ∈ bl, isBlank c = true) ∧
        t = extendsBackwards.reverse ++ (bl ++ (emptyType ++ f.rest)) ∧
        f.old = extendsBackwards.reverse ++ (bl ++ emptyType) ∧
        f.new = extendsBackwards.reverse ++ (bl ++ objectType) := by
  simp only [extendsEmpty, Found.readCons, Found.readNil]
  constructor
  · rintro ⟨_, _, g, rfl, rfl, ⟨bl, _, g₁, rfl, takes, ⟨_, r, g₂, rfl, rfl, rfl, rfl⟩, rfl⟩, rfl⟩
    exact ⟨bl, takes.1, takes.2.1, rfl, rfl, rfl⟩
  · rintro ⟨bl, some, gap, rfl, old, new⟩
    refine ⟨extendsBackwards.reverse, _, _, rfl, rfl, ⟨bl, _, _, rfl, ⟨some, gap, rfl⟩,
      ⟨emptyType, f.rest, _, rfl, rfl, rfl, rfl⟩, rfl⟩, ?_⟩
    cases f
    simp_all only
    rfl

theorem blindInWord {A : Swaps} {s : Substitution} (words : s.atWordStart = true)
    (all : ∀ {b old new}, A b old new → ∀ c ∈ new, isWord c = true) : s.Blind A := by
  rintro b old new x y u ok split first - ⟨-, f, found, -⟩
  have start := (Substitution.findIff.mp found).1 words
  obtain ⟨x', c, rfl⟩ := (List.eq_nil_or_concat x).resolve_left first
  have last : isWord c = true := all ok c (by simp [split])
  simp [last] at start

theorem wordNear {w y u rest : Text} (text : y ++ u = w ++ rest) : clash w y = false := by
  by_contra far
  exact Text.clashApart (by simpa using far) rest u text.symm

theorem gapApart {gap v w r rest : Text} (all : ∀ c ∈ gap, isBlank c = true) (inGap : v <:+ gap)
    (someV : v ≠ []) (someW : w ≠ []) (stop : starts isBlank w = false) : v ++ r ≠ w ++ rest := by
  intro text
  have first := congrArg (starts isBlank) text
  rw [Text.startsAppend someV, Text.startsAppend someW, stop] at first
  cases v with
  | nil => exact someV rfl
  | cons c v => simp [all c (inGap.subset (by simp))] at first

theorem extendsSettles : extendsEmpty.Settles emptySwaps where
  regular := Substitution.regularOfWord (c := 'e') (w := extendsBackwards.reverse.tail) rfl
  mirrored := by
    apply Substitution.mirrored emptyNeutral emptyBlanks
    simp only [extendsEmpty, List.forall_mem_cons, List.not_mem_nil, IsEmpty.forall_iff,
      implies_true, and_true]
    exact ⟨emptyWord (by decide), emptySomeBlanks, emptyWord (by decide)⟩
  blind := blindInWord rfl (by rintro b _ _ ⟨-, rfl, -⟩; decide)
  writes := {
    swaps := by
      intro before here f found b
      obtain ⟨bl, some, gap, -, old, new⟩ := extendsRead.mp (Substitution.findRead found)
      have place : typePlace (bl.reverse ++ (extendsBackwards ++ b)) = true := by
        rw [typePlaceAfter (by simpa using gap) (by rfl)]
        have blank : starts isBlank (bl.reverse ++ (extendsBackwards ++ b)) = true := by
          obtain ⟨bl', c, rfl⟩ := (List.eq_nil_or_concat bl).resolve_left some
          simpa using gap c (by simp)
        have again : Text.after? extendsBackwards (extendsBackwards ++ b) = Option.some b :=
          Text.afterIff.mpr rfl
        simp [blank, again]
      have last : Respelled emptySwaps (bl.reverse ++ (extendsBackwards ++ b)) (emptyType ++ [])
          (objectType ++ []) := .swap ⟨rfl, rfl, place⟩ (.nil _)
      rw [old, new]
      refine (Respelled.refl emptySwaps b _).append ((Respelled.refl emptySwaps _ bl).append ?_)
      simpa using last
    blindNew := by
      rintro before here f found x y split some b u ⟨-, g, found', -⟩
      obtain ⟨bl, someBl, gap, -, -, new⟩ := extendsRead.mp (Substitution.findRead found)
      obtain ⟨bl', -, gap', text, -, -⟩ := extendsRead.mp (Substitution.findRead found')
      have near := wordNear text
      have place : y <:+ extendsBackwards.reverse ++ (bl ++ objectType) := ⟨x, by rw [← split, new]⟩
      rcases Text.suffixAppend place with later | ⟨v, someV, inWord, rfl⟩
      · rcases Text.suffixAppend later with last | ⟨v, someV, inGap, rfl⟩
        · rw [Text.clearSuffix (by decide) last some] at near
          contradiction
        · rw [List.append_assoc] at text
          exact gapApart gap inGap someV (by decide) (by decide) text
      · rcases Text.wordSuffix (by decide) inWord someV with rfl | far
        · simp only [List.append_assoc, List.append_cancel_left_eq] at text
          have run := Text.runUnique gap (by rfl) gap' (by rfl) text
          simp [objectType, emptyType] at run
        · rw [Text.clashAppend far] at near
          contradiction
    blindOld := fun guarded => absurd rfl guarded }

def typeWord : Text := ['t', 'y', 'p', 'e']

structure TypeAlias where
  afterWord : Text
  defined : Text
  beforeEqual : Text
  afterEqual : Text
  spaced : afterWord ≠ []
  gaps : ∀ gap ∈ [afterWord, beforeEqual, afterEqual], ∀ c ∈ gap, isBlank c = true
  named : defined ≠ []
  names : ∀ c ∈ defined, isNameChar c = true

namespace TypeAlias

def text (a : TypeAlias) (type : Text) : Text :=
  typeWord ++ (a.afterWord ++ (a.defined ++ (a.beforeEqual ++ '=' :: (a.afterEqual ++ type))))

theorem stops (a : TypeAlias) (r : Text) :
    starts isNameChar (a.afterWord ++ r) = false ∧ starts isBlank (a.defined ++ r) = false ∧
      starts isNameChar (a.beforeEqual ++ '=' :: r) = false := by
  refine ⟨?_, ?_, ?_⟩
  · rw [Text.startsAppend a.spaced]
    cases gap : a.afterWord with
    | nil => rfl
    | cons c rest => exact Text.blankNotName (a.gaps a.afterWord (by simp) c (by simp [gap]))
  · rw [Text.startsAppend a.named]
    cases nm : a.defined with
    | nil => rfl
    | cons c rest => exact Text.nameNotBlank (a.names c (by simp [nm]))
  · exact gapStops (a.gaps a.beforeEqual (by simp)) rfl

theorem unique {a a' : TypeAlias} {r r' : Text} (stop : starts isBlank r = false)
    (stop' : starts isBlank r' = false) (same : a.text r = a'.text r') : r = r' := by
  simp only [text, List.append_cancel_left_eq] at same
  obtain ⟨-, same⟩ := Text.runUnique (a.gaps a.afterWord (by simp)) (a.stops _).2.1
    (a'.gaps a'.afterWord (by simp)) (a'.stops _).2.1 same
  obtain ⟨-, same⟩ := Text.runUnique a.names (a.stops _).2.2 a'.names (a'.stops _).2.2 same
  obtain ⟨-, same⟩ := Text.runUnique (a.gaps a.beforeEqual (by simp)) (by rfl)
    (a'.gaps a'.beforeEqual (by simp)) (by rfl) same
  exact (Text.runUnique (a.gaps a.afterEqual (by simp)) stop (a'.gaps a'.afterEqual (by simp)) stop'
    (List.cons.inj same).2).2

theorem textAppend (a : TypeAlias) (type r : Text) : a.text type ++ r = a.text (type ++ r) := by
  simp [text]

end TypeAlias

theorem aliasSteps : aliasOfEmpty.steps =
    [keep (word typeWord), keep someBlanks, keep name, keep blanks, keep (word ['=']), keep blanks,
      emptySwap] := rfl

theorem aliasRead {t : Text} {f : Found} :
    Found.read? aliasOfEmpty.steps t = some f ↔
      ∃ a : TypeAlias, t = a.text emptyType ++ f.rest ∧ f.old = a.text emptyType ∧
        f.new = a.text objectType := by
  simp only [aliasSteps, Found.readCons, Found.readNil]
  constructor
  · rintro ⟨_, _, g, rfl, rfl, ⟨b₁, _, g₁, rfl, h₁, ⟨nm, _, g₂, rfl, hn, ⟨b₂, _, g₃, rfl, h₂,
      ⟨_, _, g₄, rfl, rfl, ⟨b₃, _, g₅, rfl, h₃, ⟨_, r, g₆, rfl, rfl, rfl, rfl⟩, rfl⟩, rfl⟩, rfl⟩,
      rfl⟩, rfl⟩, rfl⟩
    refine ⟨⟨b₁, nm, b₂, b₃, h₁.1, ?_, hn.1, hn.2.1⟩, ?_, rfl, rfl⟩
    · simp only [List.forall_mem_cons, List.not_mem_nil, IsEmpty.forall_iff, implies_true, and_true]
      exact ⟨h₁.2.1, h₂.1, h₃.1⟩
    · simp [TypeAlias.text, emptyType]
  · rintro ⟨a, rfl, old, new⟩
    have gaps := a.gaps
    simp only [List.forall_mem_cons, List.not_mem_nil, IsEmpty.forall_iff, implies_true,
      and_true] at gaps
    obtain ⟨h₁, h₂, h₃⟩ := gaps
    refine ⟨typeWord, _, _, ?_, rfl, ⟨a.afterWord, _, _, rfl, ⟨a.spaced, h₁, (a.stops _).2.1⟩,
      ⟨a.defined, _, _, rfl, ⟨a.named, a.names, (a.stops _).2.2⟩, ⟨a.beforeEqual, _, _, rfl,
      ⟨h₂, rfl⟩, ⟨['='], _, _, rfl, rfl, ⟨a.afterEqual, _, _, rfl, ⟨h₃, rfl⟩,
      ⟨emptyType, f.rest, _, rfl, rfl, rfl, rfl⟩, rfl⟩, rfl⟩, rfl⟩, rfl⟩, rfl⟩, ?_⟩
    · simp [TypeAlias.text]
    · cases f
      simp_all only
      rfl

theorem aliasMirrored : aliasOfEmpty.Mirrored emptySwaps := by
  apply Substitution.mirroredOf emptyNeutral emptyBlanks
  intro bt bu t u f past h read
  obtain ⟨a, rfl, -, -⟩ := aliasRead.mp read
  have gap : ∀ g ∈ [a.afterWord, a.beforeEqual, a.afterEqual], 'o' ∉ g :=
    fun g mem inGap => absurd (a.gaps g mem 'o' inGap) (by decide)
  have parts : a.text emptyType ++ f.rest = (typeWord ++ a.afterWord) ++ (a.defined ++
      ((a.beforeEqual ++ '=' :: (a.afterEqual ++ emptyType)) ++ f.rest)) := by
    simp [TypeAlias.text]
  rw [parts] at h
  obtain ⟨t₁, rfl, named⟩ := emptyKept h (by simp [gap, typeWord])
  have away : typePlace ((typeWord ++ a.afterWord).reverse ++ bu) = false := by
    rw [List.reverse_append, List.append_assoc, typePlaceAfter (by
      simpa using a.gaps a.afterWord (by simp)) (by rfl)]
    simp [typeWord, opensType, extendsBackwards, Text.after?]
  obtain ⟨t₂, rfl, rest⟩ := emptyNameKept named a.names away
  obtain ⟨t₃, rfl, last⟩ := emptyKept rest (by simp [gap, emptyType])
  refine ⟨⟨a.text emptyType, a.text objectType, t₃⟩, _, aliasRead.mpr ⟨a, ?_, rfl, rfl⟩, last⟩
  simp [TypeAlias.text]

theorem aliasSwaps (a : TypeAlias) (b : Text) :
    Respelled emptySwaps b (a.text emptyType) (a.text objectType) := by
  let head := typeWord ++ (a.afterWord ++ (a.defined ++ (a.beforeEqual ++ ['='])))
  have parts (type : Text) : a.text type = head ++ (a.afterEqual ++ type) := by
    simp [TypeAlias.text, head]
  have place : typePlace (a.afterEqual.reverse ++ (head.reverse ++ b)) = true := by
    rw [typePlaceAfter (by simpa using a.gaps a.afterEqual (by simp)) (by simp [head]; rfl)]
    simp [head, opensType]
  have last : Respelled emptySwaps (a.afterEqual.reverse ++ (head.reverse ++ b))
      (emptyType ++ []) (objectType ++ []) := .swap ⟨rfl, rfl, place⟩ (.nil _)
  rw [parts, parts]
  refine (Respelled.refl emptySwaps b head).append
    ((Respelled.refl emptySwaps _ a.afterEqual).append ?_)
  simpa using last

theorem definedUnread {a a' : TypeAlias} {v r r' : Text} (inName : v <:+ a.defined) :
    v ++ (a.beforeEqual ++ '=' :: r) ≠ a'.text r' := by
  intro text
  obtain ⟨-, gap⟩ := Text.runUnique (fun c mem => a.names c (inName.subset mem)) (a.stops r).2.2
    (by decide) (a'.stops _).1 text
  obtain ⟨-, name⟩ := Text.runUnique (a.gaps a.beforeEqual (by simp)) (by rfl)
    (a'.gaps a'.afterWord (by simp)) (a'.stops _).2.1 gap
  cases named : a'.defined with
  | nil => exact a'.named named
  | cons c rest =>
    rw [named] at name
    obtain ⟨rfl, -⟩ := List.cons.inj name
    exact absurd (a'.names '=' (by simp [named])) (by decide)

theorem aliasUnread {a a' : TypeAlias} {x y u rest : Text} (split : a.text objectType = x ++ y)
    (some : y ≠ []) (apart : starts isWord x.reverse = false) :
    y ++ u ≠ a'.text (emptyType ++ rest) := by
  intro text
  have near := wordNear text
  have place : y <:+ a.text objectType := ⟨x, split.symm⟩
  have gap : ∀ g ∈ [a.afterWord, a.beforeEqual, a.afterEqual], ∀ {v r}, v <:+ g → v ≠ [] →
      y = v ++ r → False := by
    rintro g mem v r inGap someV rfl
    rw [List.append_assoc] at text
    exact gapApart (a.gaps g mem) inGap someV (by decide) (by decide) text
  rcases Text.suffixAppend place with place | ⟨v, someV, inWord, rfl⟩
  case inr =>
    rcases Text.wordSuffix (by decide) inWord someV with rfl | far
    · have same : a.text (objectType ++ u) = a'.text (emptyType ++ rest) := by
        rw [← text]
        simp [TypeAlias.text]
      have types := TypeAlias.unique (by rfl) (by rfl) same
      exact absurd (List.cons.inj types).1 (by decide)
    · rw [Text.clashAppend far] at near
      contradiction
  rcases Text.suffixAppend place with place | ⟨v, someV, inGap, whole⟩
  case inr => exact gap _ (by simp) inGap someV whole
  rcases Text.suffixAppend place with place | ⟨v, someV, inName, rfl⟩
  case inr => exact definedUnread inName (by simpa using text)
  rcases Text.suffixAppend place with place | ⟨v, someV, inGap, whole⟩
  case inr => exact gap _ (by simp) inGap someV whole
  rcases List.suffix_cons_iff.mp place with rfl | place
  case inl => exact absurd (List.cons.inj text).1 (by decide)
  rcases Text.suffixAppend place with ⟨z, inType⟩ | ⟨v, someV, inGap, whole⟩
  case inr => exact gap _ (by simp) inGap someV whole
  -- The type itself: it does not start with the word, and its later places are inside a word.
  have all : ∀ c ∈ objectType, isWord c = true := by decide
  rcases List.eq_nil_or_concat z with rfl | ⟨z, c, rfl⟩
  · rw [List.nil_append] at inType
    subst inType
    contradiction
  · have last : isWord c = true := all c (by simp [← inType])
    have whole : x ++ y = a.text (z ++ [c]) ++ y := by
      rw [← split, TypeAlias.textAppend, ← inType, List.concat_eq_append]
    have head := List.append_cancel_right whole
    simp [head, TypeAlias.text, last] at apart

theorem aliasSettles : aliasOfEmpty.Settles emptySwaps where
  regular := Substitution.regularOfWord (c := 't') (w := typeWord.tail) rfl
  mirrored := aliasMirrored
  blind := blindInWord rfl (by rintro b _ _ ⟨-, rfl, -⟩; decide)
  writes := {
    swaps := by
      intro before here f found b
      obtain ⟨a, -, old, new⟩ := aliasRead.mp (Substitution.findRead found)
      rw [old, new]
      exact aliasSwaps a b
    blindNew := by
      rintro before here f found x y split some b u ⟨-, g, found', -⟩
      obtain ⟨word, read⟩ := Substitution.findIff.mp found'
      obtain ⟨a, -, -, new⟩ := aliasRead.mp (Substitution.findRead found)
      obtain ⟨a', text, -, -⟩ := aliasRead.mp read
      have apart : starts isWord x.reverse = false := by
        cases back : x.reverse with
        | nil => rfl
        | cons c rest => simpa [back] using word rfl
      exact aliasUnread (new ▸ split) some apart (a'.textAppend _ _ ▸ text)
    blindOld := fun guarded => absurd rfl guarded }

theorem fixedEmptySettles : ∀ s ∈ fixedEmpty, s.Settles emptySwaps := by
  have words : ∀ w ∈ emptyWords, Item.Reads emptySwaps (.word w) := by
    have apart : ∀ w ∈ emptyWords, Item.free w objectType = true := by decide
    exact fun w mem => emptyWord (apart w mem)
  have inside : ∀ l ∈ emptyLefts, Text.clear (l ++ emptyType) objectType.tail = true := by decide
  intro s mem
  exact {
    regular := fixedEmptyRegular s mem
    mirrored := fixedEmptyMirrored emptyNeutral emptyBlanks words s mem
    blind := fixedEmptyBlind (by rintro b _ _ ⟨-, rfl, -⟩; exact inside) s mem
    writes := fixedEmptyWrites s mem }

theorem emptyObjectTypeSettles : ∀ s ∈ emptyObjectType.substitutions, s.Settles emptySwaps := by
  have parts : emptyObjectType.substitutions = fixedEmpty ++ [aliasOfEmpty, extendsEmpty] := rfl
  rw [parts]
  intro s mem
  rcases List.mem_append.mp mem with fixed | last
  · exact fixedEmptySettles s fixed
  · rcases List.mem_cons.mp last with rfl | last
    · exact aliasSettles
    · rw [List.mem_singleton.mp last]
      exact extendsSettles

theorem emptyObjectTypeClosed (t : Text) :
    ∀ s ∈ emptyObjectType.substitutions, ¬ s.Open (applyAll emptyObjectType.substitutions t) :=
  applyAllClosed emptyObjectTypeSettles t

end Rule
end LintRemedy
