import LintRemedy.Proofs.Closure

/-!
The shapes of the table, read as texts: what stands in the text where a substitution finds its
shape, and what it writes there.
-/
namespace LintRemedy
open Text (isBlank isNameChar isWord starts clash)

namespace Rule
open Step (keep swap)
open Item (word blanks someBlanks name optional)

def anyType : Text := ['a', 'n', 'y']

def unknownType : Text := ['u', 'n', 'k', 'n', 'o', 'w', 'n']

def emptyType : Text := ['{', '}']

def objectType : Text := ['o', 'b', 'j', 'e', 'c', 't']

def catchWord : Text := ['c', 'a', 't', 'c', 'h']

theorem readLiterals {ws : List String} {t : Text} {f : Found} :
    Found.read? (ws.map literal) t = some f ↔
      t = ws.flatMap String.toList ++ f.rest ∧ f.old = ws.flatMap String.toList ∧
        f.new = ws.flatMap String.toList := by
  induction ws generalizing t f with
  | nil =>
    simp only [List.map_nil, Found.readNil, List.flatMap_nil, List.nil_append]
    constructor
    · rintro rfl
      exact ⟨rfl, rfl, rfl⟩
    · rintro ⟨rfl, old, new⟩
      cases f
      simp_all
  | cons w ws ih =>
    simp only [List.map_cons, Found.readCons, ih, List.flatMap_cons]
    constructor
    · rintro ⟨x, rest, g, rfl, rfl, ⟨rfl, old, new⟩, rfl⟩
      simp [literal, keep, Step.write, old, new]
    · rintro ⟨rfl, old, new⟩
      refine ⟨w.toList, _, ⟨ws.flatMap String.toList, ws.flatMap String.toList, f.rest⟩, by simp,
        rfl, ⟨rfl, rfl, rfl⟩, ?_⟩
      cases f
      simp_all [literal, keep, Step.write]

section Between
variable {label left : String} {old new : Text} {right : List String} {guards : List Guard}

theorem betweenRead {t : Text} {f : Found} :
    Found.read? (between label left (swap (word old) new) right guards).steps t = some f ↔
      t = left.toList ++ old ++ right.flatMap String.toList ++ f.rest ∧
      f.old = left.toList ++ old ++ right.flatMap String.toList ∧
      f.new = left.toList ++ new ++ right.flatMap String.toList := by
  simp only [between, Found.readCons, readLiterals]
  constructor
  · rintro ⟨x, rest, g, rfl, rfl, ⟨y, rest', g', rfl, rfl, ⟨rfl, old', new'⟩, rfl⟩, rfl⟩
    simp [literal, keep, swap, Step.write, old', new']
  · rintro ⟨rfl, old', new'⟩
    have last : Found.read? (right.map literal) (right.flatMap String.toList ++ f.rest) =
        some ⟨right.flatMap String.toList, right.flatMap String.toList, f.rest⟩ :=
      readLiterals.mpr ⟨rfl, rfl, rfl⟩
    refine ⟨left.toList, old ++ (right.flatMap String.toList ++ f.rest), _, by simp, rfl,
      ⟨old, right.flatMap String.toList ++ f.rest, _, rfl, rfl, readLiterals.mp last, rfl⟩, ?_⟩
    cases f
    simp_all [literal, keep, swap, Step.write]

theorem betweenApart {b y u : Text} (apart : clash (left.toList ++ old) y = true) :
    ¬ (between label left (swap (word old) new) right guards).OpenAt b (y ++ u) := by
  rintro ⟨-, f, found, -⟩
  have text := (betweenRead.mp (Substitution.findRead found)).1
  simp only [List.append_assoc] at text
  exact Text.clashApart apart _ _ (by simpa using text.symm)

theorem betweenNotAtName {b v r : Text} (some : v ≠ []) (names : ∀ c ∈ v, isNameChar c = true)
    (stop : starts isNameChar r = false) (mixed : left.toList.dropWhile isNameChar ≠ [])
    (apart : left.toList.takeWhile isNameChar = [] ∨
      clash (left.toList.dropWhile isNameChar) r = true) :
    ¬ (between label left (swap (word old) new) right guards).OpenAt b (v ++ r) := by
  rintro ⟨-, f, found, -⟩
  have text := (betweenRead.mp (Substitution.findRead found)).1
  rw [← List.takeWhile_append_dropWhile (p := isNameChar) (l := left.toList)] at text
  simp only [List.append_assoc] at text
  have same := Text.runUnique names stop (Text.runAll isNameChar left.toList) (by
    rw [Text.startsAppend mixed]
    exact Text.runStops _ _) text
  rcases apart with empty | far
  · exact some (same.1.trans empty)
  · have tail := same.2.symm
    rw [← List.append_nil r] at tail
    exact Text.clashApart far _ _ tail

theorem betweenRegular {c : Char} {w : Text} (begins : left.toList = c :: w) :
    (between label left (swap (word old) new) right guards).Regular :=
  Substitution.regularOfWord (c := c) (w := w) (by rw [← begins]; rfl)

def betweenWords (left : String) (old : Text) (right : List String) : List Text :=
  left.toList :: old :: right.map String.toList

theorem betweenMirrored {A : Swaps} (neutral : A.Neutral) (gap : Item.Reads A .blanks)
    (words : ∀ w ∈ betweenWords left old right, Item.Reads A (.word w)) :
    (between label left (swap (word old) new) right guards).Mirrored A := by
  apply Substitution.mirrored neutral gap
  intro step mem
  simp only [between, List.mem_cons, List.mem_map] at mem
  rcases mem with rfl | rfl | ⟨w, mem, rfl⟩
  · exact words _ (by simp [betweenWords])
  · exact words _ (by simp [betweenWords])
  · exact words _ (by simp [betweenWords, List.mem_map_of_mem mem])

theorem betweenBlind {A : Swaps}
    (inside : ∀ {b o n}, A b o n → Text.clear (left.toList ++ old) n.tail = true) :
    (between label left (swap (word old) new) right guards).Blind A := by
  intro b o n x y u ok split first some
  exact betweenApart (Text.clearInside (inside ok) split first some)

theorem betweenWrites {A : Swaps} (ok : ∀ b, A (left.toList.reverse ++ b) old new)
    (newClear : Text.clear (left.toList ++ old)
      (left.toList ++ new ++ right.flatMap String.toList) = true)
    (oldClear : guards ≠ [] → Text.clear (left.toList ++ old)
      (left.toList ++ old ++ right.flatMap String.toList).tail = true) :
    (between label left (swap (word old) new) right guards).Writes A where
  swaps found b := by
    obtain ⟨-, oldText, newText⟩ := betweenRead.mp (Substitution.findRead found)
    rw [oldText, newText]
    have first := Respelled.refl A b left.toList
    have second : Respelled A (left.toList.reverse ++ b) (old ++ []) (new ++ []) :=
      .swap (ok b) (.nil _)
    rw [List.append_nil, List.append_nil] at second
    exact (first.append second).append (.refl A _ _)
  blindNew found := by
    intro x y split some b u
    rw [(betweenRead.mp (Substitution.findRead found)).2.2] at split
    exact betweenApart (Text.clearAt newClear split some)
  blindOld guarded _ _ _ found := by
    intro x y split first some b u
    rw [(betweenRead.mp (Substitution.findRead found)).2.1] at split
    exact betweenApart (Text.clearInside (oldClear guarded) split first some)

end Between
def parameterTail (t : Text) : Bool := (Found.read? parameterAnnotation.steps.tail t).isSome

theorem tailRead {t : Text} {f : Found} :
    Found.read? parameterAnnotation.steps.tail t = some f ↔
      ∃ q bl r, (q = [] ∨ q = ['?']) ∧ (∀ c ∈ bl, isBlank c = true) ∧
        t = q ++ (':' :: ' ' :: (anyType ++ (bl ++ ')' :: r))) ∧
        f = ⟨q ++ (':' :: ' ' :: (anyType ++ (bl ++ [')']))),
          q ++ (':' :: ' ' :: (unknownType ++ (bl ++ [')']))), r⟩ := by
  simp only [ parameterAnnotation, List.tail_cons, Found.readCons, Found.readNil]
  constructor
  · rintro ⟨q, rest, g, rfl, opt, ⟨_, _, g₁, rfl, rfl, ⟨_, _, g₂, rfl, rfl, ⟨bl, _, g₃, rfl, all,
      ⟨_, r, g₄, rfl, rfl, rfl, rfl⟩, rfl⟩, rfl⟩, rfl⟩, rfl⟩
    refine ⟨q, bl, r, ?_, all.1, rfl, rfl⟩
    rcases opt with here | ⟨none, -⟩
    · exact .inr here
    · exact .inl none
  · rintro ⟨q, bl, r, opt, all, rfl, rfl⟩
    refine ⟨q, _, _, rfl, ?_, ⟨[':', ' '], _, _, rfl, rfl, ⟨anyType, _, _, rfl, rfl, ⟨bl, ')' :: r,
      _, rfl, ⟨all, rfl⟩, ⟨[')'], r, _, rfl, rfl, rfl, rfl⟩, rfl⟩, rfl⟩, rfl⟩, rfl⟩
    rcases opt with none | here
    · exact .inr ⟨none, by simp⟩
    · exact .inl here

theorem parameterTailIff {t : Text} :
    parameterTail t = true ↔ ∃ q bl r, (q = [] ∨ q = ['?']) ∧ (∀ c ∈ bl, isBlank c = true) ∧
      t = q ++ (':' :: ' ' :: (anyType ++ (bl ++ ')' :: r))) := by
  simp only [parameterTail, Option.isSome_iff_exists, tailRead]
  constructor
  · rintro ⟨f, q, bl, r, opt, all, text, -⟩
    exact ⟨q, bl, r, opt, all, text⟩
  · rintro ⟨q, bl, r, opt, all, text⟩
    exact ⟨_, q, bl, r, opt, all, text, rfl⟩

theorem parameterRead {t : Text} {f : Found} :
    Found.read? parameterAnnotation.steps t = some f ↔
      ∃ nm rest g, nm ≠ [] ∧ (∀ c ∈ nm, isNameChar c = true) ∧ starts isNameChar rest = false ∧
        t = nm ++ rest ∧ Found.read? parameterAnnotation.steps.tail rest = some g ∧
        f = ⟨nm ++ g.old, nm ++ g.new, g.rest⟩ := by
  have steps : parameterAnnotation.steps = keep name :: parameterAnnotation.steps.tail := rfl
  rw [steps, Found.readCons]
  constructor
  · rintro ⟨nm, rest, g, rfl, takes, read, rfl⟩
    exact ⟨nm, rest, g, takes.1, takes.2.1, takes.2.2, rfl, read, rfl⟩
  · rintro ⟨nm, rest, g, some, all, stop, rfl, read, rfl⟩
    exact ⟨nm, rest, g, rfl, ⟨some, all, stop⟩, read, rfl⟩

theorem parameterRegular : parameterAnnotation.Regular where
  solid found := by
    obtain ⟨nm, rest, g, some, -, -, -, -, rfl⟩ := parameterRead.mp (Substitution.findRead found)
    simp [some]
  inside := by
    intro before rest c none
    by_cases held : isNameChar c = true
    · right
      by_contra later
      obtain ⟨f, found⟩ := Option.ne_none_iff_exists'.mp later
      obtain ⟨nm, rest', g, some, all, stop, rfl, read, rfl⟩ :=
        parameterRead.mp (Substitution.findRead found)
      have whole : Found.read? parameterAnnotation.steps (c :: (nm ++ rest')) = Option.some
          ⟨(c :: nm) ++ g.old, (c :: nm) ++ g.new, g.rest⟩ :=
        parameterRead.mpr ⟨c :: nm, rest', g, by simp, by simpa [held] using all, stop, rfl, read, rfl⟩
      have found' : parameterAnnotation.find? before (c :: (nm ++ rest')) = _ :=
        Substitution.findIff.mpr ⟨fun word => by contradiction, whole⟩
      rw [none] at found'
      contradiction
    · left
      simp [Substitution.startsAfter, held]
  ends found := by
    obtain ⟨nm, rest, g, -, -, -, -, read, rfl⟩ := parameterRead.mp (Substitution.findRead found)
    obtain ⟨q, bl, r, -, -, -, rfl⟩ := tailRead.mp read
    simp [Substitution.startsAfter, show isNameChar ')' = false from rfl]

theorem insideName {x b : Text} (some : x ≠ []) (all : ∀ c ∈ x, isNameChar c = true) :
    ¬ parameterAnnotation.startsAfter (x.reverse ++ b) = true := by
  obtain ⟨x', c, rfl⟩ := (List.eq_nil_or_concat x).resolve_left some
  have last : isNameChar c = true := all c (by simp)
  simp [Substitution.startsAfter, last, show parameterAnnotation.nameFirst = true from rfl]

theorem gapsNotName {x y : Text} {c : Char} (before : ∀ d ∈ x, isBlank d = true)
    (after : ∀ d ∈ y, isBlank d = true) (other : isNameChar c = false) :
    ∀ d ∈ x ++ c :: y, isNameChar d = false := by
  intro d mem
  rw [List.mem_append, List.mem_cons] at mem
  rcases mem with gap | rfl | gap
  · exact Text.blankNotName (before d gap)
  · exact other
  · exact Text.blankNotName (after d gap)

theorem closeNotName {bl : Text} (gap : ∀ c ∈ bl, isBlank c = true) :
    ∀ c ∈ bl ++ [')'], isNameChar c = false := gapsNotName gap (List.forall_mem_nil _) rfl

theorem gapStops {bl w : Text} {c : Char} (blank : ∀ c ∈ bl, isBlank c = true)
    (other : isNameChar c = false) : starts isNameChar (bl ++ c :: w) = false := by
  cases bl with
  | nil => exact other
  | cons d bl => exact Text.blankNotName (blank d (by simp))

theorem parameterAt {z rest : Text} {f : Found} (all : ∀ c ∈ z, isNameChar c = true)
    (stop : starts isNameChar rest = false)
    (read : Found.read? parameterAnnotation.steps (z ++ rest) = some f) :
    parameterTail rest = true := by
  obtain ⟨nm, rest', g, -, all', stop', text, tail, -⟩ := parameterRead.mp read
  obtain ⟨-, rfl⟩ := Text.runUnique all stop all' stop' text
  exact Option.isSome_iff_exists.mpr ⟨g, tail⟩

theorem parameterStarts {t : Text} {f : Found}
    (read : Found.read? parameterAnnotation.steps t = some f) : starts isNameChar t = true := by
  obtain ⟨nm, rest, g, some, all, -, rfl, -, -⟩ := parameterRead.mp read
  rw [Text.startsAppend some]
  cases nm with
  | nil => exact absurd rfl some
  | cons c nm => exact all c (by simp)

theorem parameterSegment {z m v : Text} (all : ∀ c ∈ z, isNameChar c = true) (some : m ≠ [])
    (others : ∀ c ∈ m, isNameChar c = false)
    (tail : z ≠ [] → parameterTail (m ++ v) = false)
    {x y : Text} (split : z ++ m = x ++ y) (rest : y ≠ []) :
    Found.read? parameterAnnotation.steps (y ++ v) = none := by
  by_contra found
  obtain ⟨f, read⟩ := Option.ne_none_iff_exists'.mp found
  have stop : ∀ w, w ≠ [] → (∀ c ∈ w, isNameChar c = false) → starts isNameChar (w ++ v) = false := by
    intro w hw others
    cases w with
    | nil => exact absurd rfl hw
    | cons c w => exact others c (by simp)
  rcases List.append_eq_append_iff.mp split with ⟨a, rfl, rfl⟩ | ⟨z', rfl, rfl⟩
  · have first := stop y rest (fun c mem => others c (by simp [mem]))
    rw [parameterStarts read] at first
    contradiction
  · by_cases empty : z' = []
    · subst empty
      have first := stop m some others
      rw [List.nil_append] at read
      rw [parameterStarts read] at first
      contradiction
    · rw [List.append_assoc] at read
      have := parameterAt (fun c mem => all c (by simp [mem])) (stop m some others) read
      simp [tail (by simp [empty])] at this

def segmentText (segments : List (Text × Text)) : Text := segments.flatMap fun s => s.1 ++ s.2

def NoParameter : List (Text × Text) → (after : Text) → Prop
  | [], _ => True
  | (z, m) :: rest, after =>
    (∀ c ∈ z, isNameChar c = true) ∧ m ≠ [] ∧ (∀ c ∈ m, isNameChar c = false) ∧
      (z ≠ [] → parameterTail (m ++ (segmentText rest ++ after)) = false) ∧ NoParameter rest after

theorem NoParameter.unread {segments : List (Text × Text)} {after : Text}
    (h : NoParameter segments after) {x y : Text} (split : segmentText segments = x ++ y)
    (some : y ≠ []) : Found.read? parameterAnnotation.steps (y ++ after) = none := by
  induction segments generalizing x y with
  | nil => exact absurd (List.append_eq_nil_iff.mp split.symm).2 some
  | cons s rest ih =>
    obtain ⟨z, m⟩ := s
    obtain ⟨all, someM, others, tail, later⟩ := h
    change (z ++ m) ++ segmentText rest = x ++ y at split
    rcases List.append_eq_append_iff.mp split with ⟨a, -, rest'⟩ | ⟨y', first, rfl⟩
    · exact ih later rest' some
    · by_cases empty : y' = []
      · subst empty
        exact ih later (x := []) rfl some
      · rw [List.append_assoc]
        exact parameterSegment all someM others tail first empty

theorem NoParameter.closed {segments : List (Text × Text)} {after : Text}
    (h : NoParameter segments after) {x y : Text} (split : segmentText segments = x ++ y)
    (some : y ≠ []) (b : Text) : ¬ parameterAnnotation.OpenAt b (y ++ after) := by
  rintro ⟨-, f, found, -⟩
  have read := Substitution.findRead found
  rw [h.unread split some] at read
  contradiction

theorem parameterTailUnknown {q v : Text} (opt : q = [] ∨ q = ['?']) :
    parameterTail (q ++ (':' :: ' ' :: (unknownType ++ v))) = false := by
  by_contra h
  obtain ⟨q', bl, r, opt', -, text⟩ := parameterTailIff.mp (by simpa using h)
  rcases opt with rfl | rfl <;> rcases opt' with rfl | rfl <;> simp [anyType, unknownType] at text

theorem parameterTailGap {bl v : Text} {c : Char} (all : ∀ c ∈ bl, isBlank c = true)
    (other : c ≠ '?' ∧ c ≠ ':') : parameterTail (bl ++ c :: v) = false := by
  by_contra h
  obtain ⟨q', bl', r, opt', -, text⟩ := parameterTailIff.mp (by simpa using h)
  cases bl with
  | nil => rcases opt' with rfl | rfl <;> simp [other] at text
  | cons c bl =>
    have blank := all c (by simp)
    rcases opt' with rfl | rfl
    · obtain ⟨rfl, -⟩ := List.cons.inj text
      contradiction
    · obtain ⟨rfl, -⟩ := List.cons.inj text
      contradiction

structure CatchClause where
  beforeOpen : Text
  afterOpen : Text
  binding : Text
  beforeColon : Text
  afterColon : Text
  beforeClose : Text
  gaps : ∀ gap ∈ [beforeOpen, afterOpen, beforeColon, afterColon, beforeClose], ∀ c ∈ gap,
    isBlank c = true
  named : binding ≠ []
  names : ∀ c ∈ binding, isNameChar c = true

namespace CatchClause

theorem blankGaps (k : CatchClause) : (∀ c ∈ k.beforeOpen, isBlank c = true) ∧
    (∀ c ∈ k.afterOpen, isBlank c = true) ∧ (∀ c ∈ k.beforeColon, isBlank c = true) ∧
    (∀ c ∈ k.afterColon, isBlank c = true) ∧ ∀ c ∈ k.beforeClose, isBlank c = true := by
  simpa using k.gaps

def inside (k : CatchClause) : Text :=
  k.afterOpen ++ (k.binding ++ (k.beforeColon ++ ':' :: (k.afterColon ++ (anyType ++
    (k.beforeClose ++ [')'])))))

def text (k : CatchClause) : Text := catchWord ++ (k.beforeOpen ++ '(' :: k.inside)

def tidy (k : CatchClause) : Text :=
  catchWord ++ (' ' :: '(' :: (k.binding ++ (':' :: ' ' :: (unknownType ++ [')']))))

end CatchClause

def bindingSteps : List Step :=
  [swap blanks [], keep (word [':']), swap blanks [' '], anySwap, swap blanks [],
    keep (word [')'])]

theorem catchSteps : catchBinding.steps =
    keep (word catchWord) :: swap blanks [' '] :: keep (word ['(']) :: swap blanks [] ::
      keep name :: bindingSteps := rfl

theorem bindingRead {t : Text} {f : Found} :
    Found.read? bindingSteps t = some f ↔
      ∃ b₃ b₄ b₅, (∀ c ∈ b₃, isBlank c = true) ∧ (∀ c ∈ b₄, isBlank c = true) ∧
        (∀ c ∈ b₅, isBlank c = true) ∧
        t = b₃ ++ ':' :: (b₄ ++ (anyType ++ (b₅ ++ ')' :: f.rest))) ∧
        f.old = b₃ ++ ':' :: (b₄ ++ (anyType ++ (b₅ ++ [')']))) ∧
        f.new = ':' :: ' ' :: (unknownType ++ [')']) := by
  simp only [bindingSteps, Found.readCons, Found.readNil]
  constructor
  · rintro ⟨b₃, _, g₅, rfl, h₃, ⟨_, _, g₆, rfl, rfl, ⟨b₄, _, g₇, rfl, h₄, ⟨_, _, g₈, rfl, rfl,
      ⟨b₅, _, g₉, rfl, h₅, ⟨_, r, g₀, rfl, rfl, rfl, rfl⟩, rfl⟩, rfl⟩, rfl⟩, rfl⟩, rfl⟩
    exact ⟨b₃, b₄, b₅, h₃.1, h₄.1, h₅.1, rfl, rfl, rfl⟩
  · rintro ⟨b₃, b₄, b₅, h₃, h₄, h₅, rfl, old, new⟩
    refine ⟨b₃, _, _, rfl, ⟨h₃, rfl⟩, ⟨[':'], _, _, rfl, rfl, ⟨b₄, _, _, rfl, ⟨h₄, rfl⟩,
      ⟨anyType, _, _, rfl, rfl, ⟨b₅, _, _, rfl, ⟨h₅, rfl⟩, ⟨[')'], f.rest, _, rfl, rfl, rfl, rfl⟩,
      rfl⟩, rfl⟩, rfl⟩, rfl⟩, ?_⟩
    cases f
    simp_all only
    rfl

theorem CatchClause.stops (k : CatchClause) (r : Text) :
    starts isBlank (k.binding ++ r) = false ∧
      starts isNameChar (k.beforeColon ++ ':' :: r) = false := by
  constructor
  · rw [Text.startsAppend k.named]
    cases nm : k.binding with
    | nil => rfl
    | cons c rest => exact Text.nameNotBlank (k.names c (by simp [nm]))
  · exact gapStops (k.gaps k.beforeColon (by simp)) rfl

theorem catchRead {t : Text} {f : Found} :
    Found.read? catchBinding.steps t = some f ↔
      ∃ k : CatchClause, t = k.text ++ f.rest ∧ f.old = k.text ∧ f.new = k.tidy := by
  simp only [catchSteps, Found.readCons]
  constructor
  · rintro ⟨_, _, g, rfl, rfl, ⟨b₁, _, g₁, rfl, h₁, ⟨_, _, g₂, rfl, rfl, ⟨b₂, _, g₃, rfl, h₂,
      ⟨nm, _, g₄, rfl, hn, binding, rfl⟩, rfl⟩, rfl⟩, rfl⟩, rfl⟩
    obtain ⟨b₃, b₄, b₅, h₃, h₄, h₅, rfl, old, new⟩ := bindingRead.mp binding
    refine ⟨⟨b₁, b₂, nm, b₃, b₄, b₅, ?_, hn.1, hn.2.1⟩, ?_, ?_, ?_⟩
    · simp only [List.forall_mem_cons, List.not_mem_nil, IsEmpty.forall_iff, implies_true, and_true]
      exact ⟨h₁.1, h₂.1, h₃, h₄, h₅⟩
    · simp [CatchClause.text, CatchClause.inside]
    · rw [old]
      rfl
    · rw [new]
      rfl
  · rintro ⟨k, rfl, old, new⟩
    obtain ⟨h₁, h₂, h₃, h₄, h₅⟩ := k.blankGaps
    have binding := bindingRead (f := ⟨_, _, f.rest⟩).mpr
      ⟨k.beforeColon, k.afterColon, k.beforeClose, h₃, h₄, h₅, rfl, rfl, rfl⟩
    refine ⟨catchWord, _, _, ?_, rfl, ⟨k.beforeOpen, _, _, rfl, ⟨h₁, rfl⟩, ⟨['('], _, _, rfl, rfl,
      ⟨k.afterOpen, _, _, rfl, ⟨h₂, (k.stops _).1⟩, ⟨k.binding, _, _, rfl,
      ⟨k.named, k.names, (k.stops _).2⟩, binding,
      rfl⟩, rfl⟩, rfl⟩, rfl⟩, ?_⟩
    · simp [CatchClause.text, CatchClause.inside]
    · cases f
      simp_all only
      rfl

theorem tidyPlaces {k : CatchClause} {x y : Text} (split : k.tidy = x ++ y) :
    (∃ v, v ≠ [] ∧ catchWord ++ [' ', '('] = x ++ v ∧
      y = v ++ (k.binding ++ (':' :: ' ' :: (unknownType ++ [')'])))) ∨
    (∃ v, v ≠ [] ∧ v <:+ k.binding ∧ y = v ++ (':' :: ' ' :: (unknownType ++ [')']))) ∨
    y <:+ ':' :: ' ' :: (unknownType ++ [')']) := by
  have whole : (catchWord ++ [' ', '(']) ++ (k.binding ++ (':' :: ' ' :: (unknownType ++ [')']))) =
      x ++ y := by
    rw [← split]
    simp [CatchClause.tidy]
  rcases List.append_eq_append_iff.mp whole with ⟨a, -, later⟩ | ⟨v, opening, rest⟩
  · rcases List.append_eq_append_iff.mp later with ⟨a', -, last⟩ | ⟨v, name, rest⟩
    · exact .inr (.inr ⟨a', last.symm⟩)
    · by_cases empty : v = []
      · subst empty
        exact .inr (.inr (by rw [rest]; exact List.suffix_refl _))
      · exact .inr (.inl ⟨v, empty, ⟨a, name.symm⟩, rest⟩)
  · by_cases empty : v = []
    · subst empty
      exact .inr (.inl ⟨k.binding, k.named, List.suffix_refl _, rest⟩)
    · exact .inl ⟨v, empty, opening, rest⟩

theorem tidyNoClause (k k' : CatchClause) (u r : Text) : k.tidy ++ u ≠ k'.text ++ r := by
  intro same
  have gap : ∀ g ∈ [k'.beforeOpen, k'.afterOpen, k'.beforeColon, k'.afterColon, k'.beforeClose],
      ∀ c ∈ g, isBlank c = true := k'.gaps
  simp only [CatchClause.tidy, CatchClause.text, CatchClause.inside, List.append_assoc,
    List.cons_append, List.append_cancel_left_eq] at same
  have opening := Text.runUnique (x := [' ']) (by decide) (by rfl) (gap k'.beforeOpen (by simp))
    (by rfl) same
  have inner := (List.cons.inj opening.2).2
  have names := Text.runUnique (p := isBlank) (x := []) (by simp) (k.stops _).1
    (gap k'.afterOpen (by simp)) (k'.stops _).1 inner
  have colon := Text.runUnique k.names (by rfl) k'.names (k'.stops _).2 names.2
  have type := Text.runUnique (p := isBlank) (x := []) (by simp) (by rfl)
    (gap k'.beforeColon (by simp)) (by rfl) colon.2
  have last := Text.runUnique (x := [' ']) (by decide) (by rfl) (gap k'.afterColon (by simp))
    (by rfl) (List.cons.inj type.2).2
  simp [anyType] at last

end Rule
end LintRemedy
