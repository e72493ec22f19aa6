import LintRemedy.Proofs.Shapes

/-!
The rule against `any` leaves a text to which none of its substitutions is open. The first six
only swap `any` for `unknown`, which no shape can tell from a name; the last one also tidies the
blanks of a catch clause, and what it writes is no part of another shape.
-/
namespace LintRemedy
open Text (isBlank isNameChar isWord starts clash)

namespace Rule
open Step (keep swap)
open Item (word blanks someBlanks name optional)

def anySwaps : Swaps := fun _ old new => old = anyType ∧ new = unknownType

theorem anyNeutral : anySwaps.Neutral where
  some := by rintro b _ _ ⟨rfl, rfl⟩; decide
  name := by rintro b _ _ ⟨rfl, rfl⟩; decide
  close := by rintro b _ _ ⟨rfl, rfl⟩; decide
  catches := by rintro b _ _ ⟨rfl, rfl⟩; decide
  nameEnd := by rintro b _ _ ⟨rfl, rfl⟩; decide
  wordEnd := by rintro b _ _ ⟨rfl, rfl⟩; decide

theorem anyWord {w : Text} (free : Item.free w unknownType = true) : Item.Reads anySwaps (.word w) :=
  Item.readsFree (by rintro b _ _ ⟨rfl, rfl⟩; exact List.prefix_refl _) free

theorem anyBlanks : Item.Reads anySwaps .blanks :=
  Item.readsBlanks (by rintro b _ _ ⟨rfl, rfl⟩; decide)

theorem anyName : Item.Reads anySwaps .name := by
  rintro before t x rest h ⟨some, all, stop⟩
  have read := h.runOver (p := isNameChar) (by rintro b _ _ ⟨rfl, rfl⟩; decide)
  rw [Text.runTaken all stop, Text.runDropped all stop] at read
  refine ⟨t.takeWhile isNameChar, t.dropWhile isNameChar, List.takeWhile_append_dropWhile.symm,
    ⟨?_, Text.runAll _ t, Text.runStops _ t⟩, read.2⟩
  have begins : starts isNameChar t = true := by
    rw [read.1, Text.startsAppend some]
    cases x with
    | nil => exact absurd rfl some
    | cons c x => exact all c (by simp)
  cases t with
  | nil => simp at begins
  | cons c t =>
    have held : isNameChar c = true := begins
    simp [held]

theorem anyRespells {steps : List Step} (only : ∀ s ∈ steps, s.put = none ∨ s = anySwap)
    {t : Text} {f : Found} (read : Found.read? steps t = some f) (b : Text) :
    Respelled anySwaps b f.old f.new := by
  induction steps generalizing t f b with
  | nil =>
    cases Found.readNil.mp read
    exact .nil b
  | cons s steps ih =>
    obtain ⟨x, rest, g, -, takes, read', rfl⟩ := Found.readCons.mp read
    have later := ih (fun s mem => only s (by simp [mem])) read'
    rcases only s (by simp) with kept | rfl
    · rw [Step.write, kept]
      exact (Respelled.refl anySwaps b x).append (later _)
    · have same : x = anyType := takes
      rw [same]
      exact .swap ⟨rfl, rfl⟩ (later _)

def fixedAny : List Substitution := [
  between "useState generic" "useState<" anySwap [">"] [],
  between "array annotation" ": " anySwap ["[]"] [],
  between "annotation" ": " anySwap [] [.notBeforeName, .notBeforeClose],
  between "type alias" "= " anySwap [] [.notBeforeName],
  between "generic argument" "<" anySwap [">"] []]

theorem fixedAnyRegular : ∀ s ∈ fixedAny, s.Regular := by
  simp only [fixedAny, List.forall_mem_cons, List.not_mem_nil, IsEmpty.forall_iff, implies_true,
    and_true]
  exact ⟨betweenRegular rfl, betweenRegular rfl, betweenRegular rfl, betweenRegular rfl,
    betweenRegular rfl⟩

def anyLefts : List Text := ["useState<".toList, ": ".toList, "= ".toList, "<".toList]

def anyWords : List Text := anyLefts ++ [anyType, ">".toList, "[]".toList]

theorem fixedAnyMirrored {A : Swaps} (neutral : A.Neutral) (gap : Item.Reads A .blanks)
    (words : ∀ w ∈ anyWords, Item.Reads A (.word w)) : ∀ s ∈ fixedAny, s.Mirrored A := by
  have each : ∀ {label left right guards}, (∀ w ∈ betweenWords left anyType right, w ∈ anyWords) →
      (between label left anySwap right guards).Mirrored A :=
    fun sub => betweenMirrored neutral gap (fun w mem => words w (sub w mem))
  simp only [fixedAny, List.forall_mem_cons, List.not_mem_nil, IsEmpty.forall_iff, implies_true,
    and_true]
  exact ⟨each (by decide), each (by decide), each (by decide), each (by decide), each (by decide)⟩

theorem fixedAnyBlind {A : Swaps}
    (inside : ∀ {b o n}, A b o n → ∀ l ∈ anyLefts, Text.clear (l ++ anyType) n.tail = true) :
    ∀ s ∈ fixedAny, s.Blind A := by
  have each : ∀ {label left right guards}, left.toList ∈ anyLefts →
      (between label left anySwap right guards).Blind A :=
    fun mem => betweenBlind (A := A) (fun ok => inside ok _ mem)
  simp only [fixedAny, List.forall_mem_cons, List.not_mem_nil, IsEmpty.forall_iff, implies_true,
    and_true]
  exact ⟨each (by decide), each (by decide), each (by decide), each (by decide), each (by decide)⟩

theorem fixedAnyWrites : ∀ s ∈ fixedAny, s.Writes anySwaps := by
  have each : ∀ {label left right guards},
      Text.clear (left.toList ++ anyType)
        (left.toList ++ unknownType ++ right.flatMap String.toList) = true →
      Text.clear (left.toList ++ anyType)
        (left.toList ++ anyType ++ right.flatMap String.toList).tail = true →
      (between label left anySwap right guards).Writes anySwaps :=
    fun newClear oldClear => betweenWrites (fun _ => ⟨rfl, rfl⟩) newClear (fun _ => oldClear)
  simp only [fixedAny, List.forall_mem_cons, List.not_mem_nil, IsEmpty.forall_iff, implies_true,
    and_true]
  exact ⟨each (by decide) (by decide), each (by decide) (by decide), each (by decide) (by decide),
    each (by decide) (by decide), each (by decide) (by decide)⟩

theorem parameterMirroredAny : parameterAnnotation.Mirrored anySwaps := by
  apply Substitution.mirrored anyNeutral anyBlanks
  simp only [ parameterAnnotation, List.forall_mem_cons, List.not_mem_nil, IsEmpty.forall_iff,
    implies_true, and_true]
  exact ⟨anyName, Item.readsOptional (by rintro b _ _ ⟨rfl, rfl⟩; decide), anyWord (by decide),
    anyWord (by decide), anyBlanks, anyWord (by decide)⟩

theorem parameterBlindAny : parameterAnnotation.Blind anySwaps := by
  rintro b _ _ x y u ⟨rfl, rfl⟩ split first - ⟨start, -⟩
  have all : ∀ c ∈ unknownType, isNameChar c = true := by decide
  exact insideName first (fun c mem => all c (by simp [split, mem])) start

theorem parameterWrites : parameterAnnotation.Writes anySwaps where
  swaps found := anyRespells (by decide) (Substitution.findRead found)
  blindNew found := by
    intro x y split some b u
    obtain ⟨nm, rest, g, -, names, -, -, read, rfl⟩ :=
      parameterRead.mp (Substitution.findRead found)
    obtain ⟨q, bl, r, opt, gap, -, rfl⟩ := tailRead.mp read
    have quiet : NoParameter [(nm, q ++ [':', ' ']), (unknownType, bl ++ [')'])] u := by
      refine ⟨names, by simp, ?_, fun _ => ?_, by decide, by simp, closeNotName gap, fun _ => ?_,
        trivial⟩
      · rcases opt with rfl | rfl <;> decide
      · simpa [segmentText] using parameterTailUnknown (v := bl ++ ')' :: u) opt
      · simpa [segmentText] using parameterTailGap (c := ')') (v := u) gap (by decide)
    exact quiet.closed (by simpa [segmentText] using split) some _
  blindOld _ _ _ _ found := by
    intro x y split first some b u
    obtain ⟨nm, rest, g, -, names, -, -, read, rfl⟩ :=
      parameterRead.mp (Substitution.findRead found)
    obtain ⟨q, bl, r, opt, gap, -, rfl⟩ := tailRead.mp read
    have quiet : NoParameter [([], q ++ [':', ' ']), (anyType, bl ++ [')'])] u := by
      refine ⟨by simp, by simp, ?_, by simp, by decide, by simp, closeNotName gap, fun _ => ?_,
        trivial⟩
      · rcases opt with rfl | rfl <;> decide
      · simpa [segmentText] using parameterTailGap (c := ')') (v := u) gap (by decide)
    rcases List.append_eq_append_iff.mp split with ⟨x', rfl, later⟩ | ⟨nm', rfl, later⟩
    · exact quiet.closed (by simpa [segmentText] using later) some _
    · by_cases empty : nm' = []
      · subst empty
        exact quiet.closed (x := []) (by simpa [segmentText] using later.symm) some _
      · rintro ⟨start, -⟩
        exact insideName first (fun c mem => names c (by simp [mem])) start

def catchSwaps : Swaps := fun _ old new => ∃ k : CatchClause, old = k.text ∧ new = k.tidy

theorem catchEnd (k : CatchClause) : ∃ x, k.text.reverse = ')' :: x := by
  simp [CatchClause.text, CatchClause.inside]

theorem catchNeutral : catchSwaps.Neutral where
  some := by rintro b _ _ ⟨k, rfl, rfl⟩; simp [CatchClause.text, CatchClause.tidy, catchWord]
  name := by rintro b _ _ ⟨k, rfl, rfl⟩ -; rfl
  close := by rintro b _ _ ⟨k, rfl, rfl⟩; rfl
  catches := by
    rintro b _ _ ⟨k, rfl, rfl⟩
    obtain ⟨x, last⟩ := catchEnd k
    rw [last]
    rfl
  nameEnd := by
    rintro b _ _ ⟨k, rfl, rfl⟩ h
    obtain ⟨x, last⟩ := catchEnd k
    rw [last] at h
    contradiction
  wordEnd := by
    rintro b _ _ ⟨k, rfl, rfl⟩ h
    obtain ⟨x, last⟩ := catchEnd k
    rw [last] at h
    contradiction

theorem catchReads {w : Text} (free : Item.free w (catchWord ++ [' ', '(']) = true) :
    Item.Reads catchSwaps (.word w) :=
  Item.readsFree (by rintro b _ _ ⟨k, rfl, rfl⟩; exact ⟨_, List.append_assoc _ _ _⟩) free

theorem catchBlanks : Item.Reads catchSwaps .blanks :=
  Item.readsBlanks (by
    rintro b _ _ ⟨k, rfl, rfl⟩
    exact ⟨by simp [CatchClause.text, catchWord], by simp [CatchClause.tidy, catchWord], rfl, rfl⟩)

theorem catchKept {b t x r : Text} (h : Respelled catchSwaps b t (x ++ r)) (absent : 'c' ∉ x) :
    ∃ s, t = x ++ s ∧ Respelled catchSwaps (x.reverse ++ b) s r := by
  apply h.kept (p := (· != 'c'))
  · rintro b _ _ ⟨k, rfl, rfl⟩
    exact ⟨by simp [CatchClause.tidy, catchWord], rfl⟩
  · intro c mem
    have differs : c ≠ 'c' := fun same => absent (same ▸ mem)
    simpa using differs

theorem catchNameKept {b t x rest : Text} (h : Respelled catchSwaps b t (x ++ rest))
    (all : ∀ c ∈ x, isNameChar c = true) (stop : starts isNameChar rest = false)
    (other : ∀ z, rest ≠ ' ' :: '(' :: z) :
    ∃ s, t = x ++ s ∧ Respelled catchSwaps (x.reverse ++ b) s rest := by
  induction x generalizing b t with
  | nil => exact ⟨t, rfl, h⟩
  | cons c x ih =>
    generalize whole : c :: x ++ rest = u at h
    cases h with
    | nil => simp at whole
    | keep d next =>
      obtain ⟨rfl, rfl⟩ := List.cons.inj whole
      obtain ⟨s, rfl, next'⟩ := ih next (fun d mem => all d (by simp [mem]))
      exact ⟨s, rfl, by simpa using next'⟩
    | swap ok next =>
      obtain ⟨k, -, rfl⟩ := ok
      have run := Text.runUnique (y := catchWord) all stop (by decide) (by rfl) whole
      exact absurd run.2 (other _)

theorem parameterMirroredCatch : parameterAnnotation.Mirrored catchSwaps := by
  apply Substitution.mirroredOf catchNeutral catchBlanks
  intro bt bu t u f past h read
  obtain ⟨nm, rest, g, some, names, stop, rfl, tail, rfl⟩ := parameterRead.mp read
  obtain ⟨q, bl, r, opt, gap, rfl, rfl⟩ := tailRead.mp tail
  obtain ⟨s, rfl, next⟩ := catchNameKept h names stop (by
    intro z same
    rcases opt with rfl | rfl <;> simp at same)
  have absent : 'c' ∉ q ++ (':' :: ' ' :: (anyType ++ (bl ++ [')']))) := by
    have inGap : 'c' ∉ bl := fun mem => absurd (gap 'c' mem) (by decide)
    rcases opt with rfl | rfl <;> simp [anyType, inGap]
  obtain ⟨s', rfl, last⟩ := catchKept (r := r) (by simpa using next) absent
  have tail' := tailRead.mpr ⟨q, bl, s', opt, gap, rfl, rfl⟩
  refine ⟨_, _, parameterRead.mpr ⟨nm, _, _, some, names, ?_, by simp, tail', rfl⟩, last⟩
  rcases opt with rfl | rfl <;> rfl

theorem tidyUnread {k : CatchClause} {x y : Text} (split : k.tidy = x ++ y) (some : y ≠ [])
    (u : Text) : Found.read? catchBinding.steps (y ++ u) = none := by
  by_contra read
  obtain ⟨f, read⟩ := Option.ne_none_iff_exists'.mp read
  obtain ⟨k', text, -⟩ := catchRead.mp read
  have near : clash catchWord y = false := by
    by_contra far
    exact Text.clashApart (by simpa using far) _ u (by
      rw [text, CatchClause.text, List.append_assoc])
  rcases tidyPlaces split with ⟨v, someV, opening, rfl⟩ | ⟨v, someV, ⟨z, name⟩, rfl⟩ | ⟨z, last⟩
  · cases x with
    | nil => exact tidyNoClause k k' u f.rest (by rw [split]; exact text)
    | cons c x =>
      have far := Text.clearInside (w := catchWord) (by decide) opening (by simp) someV
      simp [Text.clashAppend far] at near
  · have names : ∀ c ∈ v, isNameChar c = true := fun c mem => k.names c (by simp [← name, mem])
    rw [CatchClause.text, List.append_assoc, List.append_assoc] at text
    have stop : starts isNameChar (k'.beforeOpen ++ '(' :: k'.inside ++ f.rest) = false := by
      rw [List.append_assoc]
      exact gapStops k'.blankGaps.1 rfl
    have run := Text.runUnique names (by rfl) (by decide) stop text
    cases gap : k'.beforeOpen with
    | nil => simp [gap] at run
    | cons c rest =>
      have blank := k'.gaps k'.beforeOpen (by simp) c (by simp [gap])
      rw [gap] at run
      obtain ⟨rfl, -⟩ := List.cons.inj run.2
      contradiction
  · have far := Text.clearAt (w := catchWord) (by decide) last.symm some
    simp [far] at near

theorem catchMirrored : catchBinding.Mirrored catchSwaps := by
  apply Substitution.mirroredOf catchNeutral catchBlanks
  intro bt bu t u f past h read
  cases h with
  | nil => simp [catchSteps, Found.read?, Item.take?, catchWord, Text.after?, keep] at read
  | swap ok next =>
    obtain ⟨k, rfl, rfl⟩ := ok
    rw [tidyUnread (x := []) (y := k.tidy) rfl (catchNeutral.some (b := bu) ⟨k, rfl, rfl⟩).2] at read
    contradiction
  | @keep _ t u c next =>
    -- No new clause starts behind the first letter, so the whole clause was there before.
    obtain ⟨k, text, -⟩ := catchRead.mp read
    have gap : ∀ g ∈ [k.beforeOpen, k.afterOpen, k.beforeColon, k.afterColon, k.beforeClose],
        'c' ∉ g := fun g mem inGap => absurd (k.gaps g mem 'c' inGap) (by decide)
    have parts : c = 'c' ∧ u = ['a', 't', 'c', 'h'] ++ ((k.beforeOpen ++ '(' :: k.afterOpen) ++
        (k.binding ++ ((k.beforeColon ++ ':' :: (k.afterColon ++ (anyType ++
          (k.beforeClose ++ [')'])))) ++ f.rest))) := by
      simpa [CatchClause.text, CatchClause.inside, catchWord] using text
    obtain ⟨rfl, rfl⟩ := parts
    obtain ⟨_, t₁, rfl, rfl, opening⟩ := catchReads (by decide) next rfl
    obtain ⟨t₂, rfl, binding⟩ := catchKept opening (by simp [gap])
    obtain ⟨t₃, rfl, type⟩ := catchNameKept binding k.names (by simpa using (k.stops _).2) (by
      intro z same
      cases first : k.beforeColon with
      | nil => simp [first] at same
      | cons d rest =>
        cases second : rest with
        | nil => simp [first, second] at same
        | cons e rest' =>
          have blank := k.gaps k.beforeColon (by simp) e (by simp [first, second])
          rw [first, second] at same
          obtain ⟨-, same⟩ := List.cons.inj same
          obtain ⟨rfl, -⟩ := List.cons.inj same
          contradiction)
    obtain ⟨t₄, rfl, last⟩ := catchKept type (by simp [gap, anyType])
    refine ⟨⟨k.text, k.tidy, t₄⟩, _, catchRead.mpr ⟨k, ?_, rfl, rfl⟩, last⟩
    simp [CatchClause.text, CatchClause.inside, catchWord]

theorem catchSettles : catchBinding.Settles catchSwaps where
  regular := Substitution.regularOfWord (c := 'c') (w := ['a', 't', 'c', 'h']) rfl
  mirrored := catchMirrored
  blind := by
    rintro b _ _ x y u ⟨k, -, rfl⟩ split - some ⟨-, f, found, -⟩
    have read := Substitution.findRead found
    rw [tidyUnread split some] at read
    contradiction
  writes := {
    swaps := by
      intro before here f found b
      obtain ⟨k, -, old, new⟩ := catchRead.mp (Substitution.findRead found)
      have one : Respelled catchSwaps b (f.old ++ []) (f.new ++ []) := .swap ⟨k, old, new⟩ (.nil _)
      simpa using one
    blindNew := by
      rintro before here f found x y split some b u ⟨-, g, found', -⟩
      obtain ⟨k, -, -, new⟩ := catchRead.mp (Substitution.findRead found)
      have read := Substitution.findRead found'
      rw [tidyUnread (new.symm.trans split) some] at read
      contradiction
    blindOld := fun guarded => absurd rfl guarded }

theorem fixedAnyMirroredCatch : ∀ s ∈ fixedAny, s.Mirrored catchSwaps := by
  have free : ∀ w ∈ anyWords, Item.free w (catchWord ++ [' ', '(']) = true := by decide
  exact fixedAnyMirrored catchNeutral catchBlanks (fun w mem => catchReads (free w mem))

theorem fixedAnyBlindCatch : ∀ s ∈ fixedAny, s.Blind catchSwaps := by
  have each : ∀ {label left right guards}, left.toList ∈ anyLefts →
      (between label left anySwap right guards).Blind catchSwaps := by
    rintro label left right guards mem b _ _ x y u ⟨k, -, rfl⟩ split first some
    have opening : ∀ l ∈ anyLefts, Text.clear (l ++ anyType) (catchWord ++ [' ', '(']) = true := by
      decide
    have ending : ∀ l ∈ anyLefts, Text.clear (l ++ anyType)
        (':' :: ' ' :: (unknownType ++ [')'])) = true := by decide
    have mixed : ∀ l ∈ anyLefts, l.dropWhile isNameChar ≠ [] ∧
        (l.takeWhile isNameChar = [] ∨ clash (l.dropWhile isNameChar) [':'] = true) := by decide
    rcases tidyPlaces split with ⟨v, someV, open_, rfl⟩ | ⟨v, someV, ⟨z, name⟩, rfl⟩ | ⟨z, last⟩
    · exact betweenApart (Text.clashAppend (Text.clearAt (opening _ mem) open_ someV) _)
    · rw [List.append_assoc]
      refine betweenNotAtName someV (fun c inV => k.names c (by simp [← name, inV])) (by rfl)
        (mixed _ mem).1 ((mixed _ mem).2.imp_right fun far => ?_)
      exact Text.clashAppend far _
    · exact betweenApart (Text.clearAt (ending _ mem) last.symm some)
  simp only [fixedAny, List.forall_mem_cons, List.not_mem_nil, IsEmpty.forall_iff, implies_true,
    and_true]
  exact ⟨each (by decide), each (by decide), each (by decide), each (by decide), each (by decide)⟩

theorem parameterBlindCatch : parameterAnnotation.Blind catchSwaps := by
  rintro b _ _ x y u ⟨k, -, rfl⟩ split first some
  have quiet : NoParameter
      [(catchWord, [' ', '(']), (k.binding, [':', ' ']), (unknownType, [')'])] u := by
    refine ⟨by decide, by decide, by decide, fun _ => ?_, k.names, by decide, by decide, fun _ => ?_,
      by decide, by decide, by decide, fun _ => ?_, trivial⟩
    · rfl
    · exact parameterTailUnknown (v := ')' :: u) (.inl rfl)
    · exact parameterTailGap (List.forall_mem_nil _) (by decide)
  exact quiet.closed (by simpa [segmentText, CatchClause.tidy] using split) some _

def plainAny : List Substitution := explicitAny.substitutions.dropLast

theorem plainAnyCases {s : Substitution} (mem : s ∈ plainAny) :
    s ∈ fixedAny ∨ s = parameterAnnotation := by
  simp only [plainAny, explicitAny, List.dropLast, List.mem_cons, List.not_mem_nil,
    or_false] at mem
  simp only [fixedAny, List.mem_cons, List.not_mem_nil, or_false]
  tauto

theorem fixedAnySettles : ∀ s ∈ fixedAny, s.Settles anySwaps := by
  have free : ∀ w ∈ anyWords, Item.free w unknownType = true := by decide
  have inside : ∀ l ∈ anyLefts, Text.clear (l ++ anyType) unknownType.tail = true := by decide
  intro s mem
  exact {
    regular := fixedAnyRegular s mem
    mirrored := fixedAnyMirrored anyNeutral anyBlanks (fun w inWords => anyWord (free w inWords)) s mem
    blind := fixedAnyBlind (by rintro b _ _ ⟨rfl, rfl⟩; exact inside) s mem
    writes := fixedAnyWrites s mem }

theorem plainAnySettles : ∀ s ∈ plainAny, s.Settles anySwaps := by
  intro s mem
  rcases plainAnyCases mem with fixed | rfl
  · exact fixedAnySettles s fixed
  · exact ⟨parameterRegular, parameterMirroredAny, parameterBlindAny, parameterWrites⟩

theorem explicitAnySplit : explicitAny.substitutions = plainAny ++ [catchBinding] := rfl

theorem explicitAnyRegular : ∀ s ∈ explicitAny.substitutions, s.Regular := by
  intro s mem
  rw [explicitAnySplit] at mem
  rcases List.mem_append.mp mem with plain | last
  · exact (plainAnySettles s plain).regular
  · rw [List.mem_singleton.mp last]
    exact catchSettles.regular

theorem explicitAnyApply (t : Text) :
    applyAll explicitAny.substitutions t = catchBinding.apply (applyAll plainAny t) := by
  rw [explicitAnySplit, applyAllAppend, applyAllCons, applyAllNil]

theorem explicitAnyClosed (t : Text) :
    ∀ s ∈ explicitAny.substitutions, ¬ s.Open (applyAll explicitAny.substitutions t) := by
  have before : ∀ s ∈ plainAny, ¬ s.Open (applyAll plainAny t) :=
    applyAllClosed plainAnySettles t
  intro s mem
  rw [explicitAnyApply]
  rw [explicitAnySplit] at mem
  rcases List.mem_append.mp mem with plain | last
  · have kept := before s plain
    have tidied := catchSettles.respelled (applyAll plainAny t)
    rcases plainAnyCases plain with fixed | rfl
    · exact Substitution.closedKept (fixedAnyRegular s fixed) (fixedAnyMirroredCatch s fixed)
        (fixedAnyBlindCatch s fixed) tidied kept
    · exact Substitution.closedKept parameterRegular parameterMirroredCatch parameterBlindCatch
        tidied kept
  · rw [List.mem_singleton.mp last]
    exact Substitution.closed catchSettles.regular catchSettles.mirrored catchSettles.writes _

end Rule
end LintRemedy
