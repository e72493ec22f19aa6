import LintRemedy.Proofs.Scan

/-!
Two texts of which one is the other with some stretches swapped. What a shape reads off the new
text it reads off the old one, as long as no swap stands in its way; so a text that is closed to a
substitution stays closed to it when another substitution has run.
-/
namespace LintRemedy
open Text (isBlank isNameChar isWord starts clash)

/-- A kind of swaps: behind `before`, which is read backwards, `new` stands in place of `old`. -/
abbrev Swaps := (before old new : Text) → Prop

/-- `u` is `t` after swaps; `before` holds the characters of the new text before `u`. -/
inductive Respelled (A : Swaps) : (before t u : Text) → Prop where
  | nil (before : Text) : Respelled A before [] []
  | keep {before t u : Text} (c : Char) (next : Respelled A (c :: before) t u) :
      Respelled A before (c :: t) (c :: u)
  | swap {before old new t u : Text} (ok : A before old new)
      (next : Respelled A (new.reverse ++ before) t u) :
      Respelled A before (old ++ t) (new ++ u)

inductive Past (A : Swaps) : (t u : Text) → Prop where
  | nil : Past A [] []
  | keep {t u : Text} (c : Char) (before : Past A t u) : Past A (c :: t) (c :: u)
  | swap {t u old new : Text} (ok : A u old new) (before : Past A t u) :
      Past A (old.reverse ++ t) (new.reverse ++ u)

namespace Respelled

theorem refl (A : Swaps) (before t : Text) : Respelled A before t t := by
  induction t generalizing before with
  | nil => exact .nil before
  | cons c t ih => exact .keep c (ih (c :: before))

theorem append {A : Swaps} {before t u t' u' : Text} (first : Respelled A before t u)
    (second : Respelled A (u.reverse ++ before) t' u') :
    Respelled A before (t ++ t') (u ++ u') := by
  induction first with
  | nil => exact second
  | keep c next ih => exact .keep c (ih (by simpa using second))
  | swap ok next ih =>
    simp only [List.append_assoc]
    exact .swap ok (ih (by simpa using second))

theorem mono {A B : Swaps} (weaker : ∀ {b old new}, A b old new → B b old new)
    {before t u : Text} (h : Respelled A before t u) : Respelled B before t u := by
  induction h with
  | nil before => exact .nil before
  | keep c next ih => exact .keep c ih
  | swap ok next ih => exact .swap (weaker ok) ih

theorem past {A : Swaps} {before t u : Text} (h : Respelled A before t u) {past : Text}
    (before_ : Past A past before) : Past A (t.reverse ++ past) (u.reverse ++ before) := by
  induction h generalizing past with
  | nil => exact before_
  | keep c next ih => simpa using ih (.keep c before_)
  | swap ok next ih => simpa using ih (.swap ok before_)

theorem keptWord {A : Swaps} {x : Text}
    (apart : ∀ {b old new}, A b old new → ∀ v, v ≠ [] → v <:+ x → ∀ r s, v ++ r ≠ new ++ s)
    {before t rest : Text} (h : Respelled A before t (x ++ rest)) :
    ∃ s, t = x ++ s ∧ Respelled A (x.reverse ++ before) s rest := by
  induction x generalizing before t with
  | nil => exact ⟨t, rfl, h⟩
  | cons c x ih =>
    generalize whole : c :: x ++ rest = u at h
    cases h with
    | nil => simp at whole
    | keep d next =>
      obtain ⟨rfl, rfl⟩ := List.cons.inj whole
      obtain ⟨s, rfl, next'⟩ := ih (fun ok v some tail =>
        apart ok v some (tail.trans (List.suffix_cons c x))) next
      exact ⟨s, rfl, by simpa using next'⟩
    | swap ok next => exact absurd whole (apart ok (c :: x) (by simp) (List.suffix_refl _) _ _)

theorem keptOn {A : Swaps} {x : Text}
    (apart : ∀ {b old new}, A b old new → ∀ v, v ≠ [] → v <:+ x → ∀ r s, v ++ r ≠ old ++ s)
    {before u rest : Text} (h : Respelled A before (x ++ rest) u) :
    ∃ s, u = x ++ s ∧ Respelled A (x.reverse ++ before) rest s := by
  induction x generalizing before u with
  | nil => exact ⟨u, rfl, h⟩
  | cons c x ih =>
    generalize whole : c :: x ++ rest = t at h
    cases h with
    | nil => simp at whole
    | keep d next =>
      obtain ⟨rfl, rfl⟩ := List.cons.inj whole
      obtain ⟨s, rfl, next'⟩ := ih (fun ok v some tail =>
        apart ok v some (tail.trans (List.suffix_cons c x))) next
      exact ⟨s, rfl, by simpa using next'⟩
    | swap ok next => exact absurd whole (apart ok (c :: x) (by simp) (List.suffix_refl _) _ _)

theorem kept {A : Swaps} {p : Char → Bool}
    (outside : ∀ {b old new}, A b old new → new ≠ [] ∧ starts p new = false)
    {before t x rest : Text} (h : Respelled A before t (x ++ rest))
    (all : ∀ c ∈ x, p c = true) :
    ∃ s, t = x ++ s ∧ Respelled A (x.reverse ++ before) s rest := by
  refine h.keptWord ?_
  intro b old new ok v some tail r s whole
  have first := congrArg (starts p) whole
  rw [Text.startsAppend (outside ok).1, (outside ok).2, Text.startsAppend some] at first
  cases v with
  | nil => exact some rfl
  | cons c v => simp [all c (tail.subset (by simp))] at first

theorem run {A : Swaps} {p : Char → Bool}
    (outside : ∀ {b old new}, A b old new →
      old ≠ [] ∧ new ≠ [] ∧ starts p old = false ∧ starts p new = false)
    {before t x rest : Text} (h : Respelled A before t (x ++ rest))
    (all : ∀ c ∈ x, p c = true) (stop : starts p rest = false) :
    ∃ s, t = x ++ s ∧ starts p s = false ∧ Respelled A (x.reverse ++ before) s rest := by
  obtain ⟨s, rfl, next⟩ := h.kept (fun ok => ⟨(outside ok).2.1, (outside ok).2.2.2⟩) all
  refine ⟨s, rfl, ?_, next⟩
  cases next with
  | nil => rfl
  | keep c next => exact stop
  | swap ok next =>
    rw [Text.startsAppend (outside ok).1]
    exact (outside ok).2.2.1

theorem runOver {A : Swaps} {p : Char → Bool}
    (within : ∀ {b old new}, A b old new →
      old ≠ [] ∧ new ≠ [] ∧ (∀ c ∈ old, p c = true) ∧ ∀ c ∈ new, p c = true)
    {before t u : Text} (h : Respelled A before t u) :
    (starts p t = starts p u) ∧
      Respelled A ((u.takeWhile p).reverse ++ before) (t.dropWhile p) (u.dropWhile p) := by
  induction h with
  | nil before => exact ⟨rfl, .nil before⟩
  | @keep before t u c next ih =>
    by_cases held : p c = true
    · simp only [List.takeWhile_cons, List.dropWhile_cons, held, ↓reduceIte]
      exact ⟨rfl, by simpa using ih.2⟩
    · simp only [List.takeWhile_cons, List.dropWhile_cons, held, Bool.false_eq_true, ↓reduceIte]
      exact ⟨rfl, .keep c next⟩
  | @swap before old new t u ok next ih =>
    obtain ⟨oldSome, newSome, oldAll, newAll⟩ := within ok
    rw [List.takeWhile_append_of_pos newAll, List.dropWhile_append_of_pos newAll,
      List.dropWhile_append_of_pos oldAll]
    refine ⟨?_, by simpa using ih.2⟩
    rw [Text.startsAppend oldSome, Text.startsAppend newSome]
    cases old with
    | nil => exact absurd rfl oldSome
    | cons a old =>
      cases new with
      | nil => exact absurd rfl newSome
      | cons b new => simp [oldAll a (by simp), newAll b (by simp)]

end Respelled

def Item.Reads (A : Swaps) (i : Item) : Prop :=
  ∀ {before t x rest}, Respelled A before t (x ++ rest) → i.Takes x rest →
    ∃ y rest', t = y ++ rest' ∧ i.Takes y rest' ∧ Respelled A (x.reverse ++ before) rest' rest

namespace Item

theorem readsWord {A : Swaps} {w : Text}
    (apart : ∀ {b old new}, A b old new → ∀ v, v ≠ [] → v <:+ w → ∀ x y, v ++ x ≠ new ++ y) :
    Reads A (.word w) := by
  intro before t x rest h takes
  cases takes
  obtain ⟨s, rfl, next⟩ := h.keptWord apart
  exact ⟨w, s, rfl, rfl, next⟩

def free (w head : Text) : Bool := w.tails.all fun v => v.isEmpty || clash v head

theorem readsFree {A : Swaps} {w head : Text}
    (begins : ∀ {b old new}, A b old new → head <+: new) (apart : free w head = true) :
    Reads A (.word w) := by
  apply readsWord
  intro b old new ok v some tail x y same
  obtain ⟨z, rfl⟩ := begins ok
  have far : clash v head = true := by
    have h := List.all_eq_true.mp apart v ((List.mem_tails v w).mpr tail)
    simpa [some] using h
  exact Text.clashApart far x (z ++ y) (by simpa using same)

theorem readsBlanks {A : Swaps}
    (outside : ∀ {b old new}, A b old new →
      old ≠ [] ∧ new ≠ [] ∧ starts isBlank old = false ∧ starts isBlank new = false) :
    Reads A .blanks := by
  intro before t x rest h takes
  obtain ⟨s, rfl, stop, next⟩ := h.run outside takes.1 takes.2
  exact ⟨x, s, rfl, ⟨takes.1, stop⟩, next⟩

theorem readsSomeBlanks {A : Swaps}
    (outside : ∀ {b old new}, A b old new →
      old ≠ [] ∧ new ≠ [] ∧ starts isBlank old = false ∧ starts isBlank new = false) :
    Reads A .someBlanks := by
  intro before t x rest h takes
  obtain ⟨s, rfl, stop, next⟩ := h.run outside takes.2.1 takes.2.2
  exact ⟨x, s, rfl, ⟨takes.1, takes.2.1, stop⟩, next⟩

theorem readsOptional {A : Swaps} {c : Char}
    (other : ∀ {b old new}, A b old new →
      old ≠ [] ∧ new ≠ [] ∧ old.head? ≠ some c ∧ new.head? ≠ some c) :
    Reads A (.optional c) := by
  intro before t x rest h takes
  rcases takes with rfl | ⟨rfl, absent⟩
  · generalize whole : [c] ++ rest = u at h
    cases h with
    | nil => simp at whole
    | keep d next =>
      obtain ⟨rfl, rfl⟩ := List.cons.inj whole
      exact ⟨[c], _, rfl, .inl rfl, by simpa using next⟩
    | @swap _ old new t u ok next =>
      obtain ⟨-, newSome, -, otherNew⟩ := other ok
      cases new with
      | nil => exact absurd rfl newSome
      | cons d new =>
        obtain ⟨rfl, -⟩ := List.cons.inj whole
        exact absurd rfl otherNew
  · rw [List.nil_append] at h
    refine ⟨[], t, rfl, .inr ⟨rfl, ?_⟩, h⟩
    cases h with
    | nil => simp
    | keep d next => exact absent
    | @swap _ old new t u ok next =>
      obtain ⟨oldSome, -, otherOld, -⟩ := other ok
      cases old with
      | nil => exact absurd rfl oldSome
      | cons d old => exact otherOld

end Item

theorem Found.readBack {A : Swaps} {steps : List Step} (reads : ∀ s ∈ steps, s.item.Reads A)
    {before t u : Text} (h : Respelled A before t u) {f : Found}
    (found : Found.read? steps u = some f) :
    ∃ g, Found.read? steps t = some g ∧ Respelled A (f.old.reverse ++ before) g.rest f.rest := by
  induction steps generalizing before t u f with
  | nil =>
    cases Found.readNil.mp found
    exact ⟨⟨[], [], t⟩, rfl, h⟩
  | cons s steps ih =>
    obtain ⟨x, rest, g, rfl, takes, hg, rfl⟩ := Found.readCons.mp found
    obtain ⟨y, rest', rfl, takes', next⟩ := reads s (by simp) h takes
    obtain ⟨g', hg', last⟩ := ih (fun s mem => reads s (by simp [mem])) next hg
    exact ⟨_, Found.readCons.mpr ⟨y, rest', g', rfl, takes', hg', rfl⟩, by simpa using last⟩

def catchBackwards : Text := ['h', 'c', 't', 'a', 'c']

theorem opensCatchIff {before : Text} :
    opensCatch before = true ↔ ∃ x y rest, before = x ++ '(' :: (y ++ (catchBackwards ++ rest)) ∧
      (∀ c ∈ x, isBlank c = true) ∧ ∀ c ∈ y, isBlank c = true ∧ (c != '\n') = true := by
  unfold opensCatch
  constructor
  · intro h
    simp only at h
    split at h
    · rename_i line rest same
      obtain ⟨last, hlast⟩ := Option.isSome_iff_exists.mp h
      refine ⟨before.takeWhile isBlank, rest.takeWhile isBlank,
        last ++ (before.dropWhile isBlank).dropWhile (· != '\n'), ?_, Text.runAll _ _, ?_⟩
      · have inner : rest = rest.takeWhile isBlank ++ (catchBackwards ++ last) := by
          rw [catchBackwards, ← Text.afterIff.mp hlast, List.takeWhile_append_dropWhile]
        have outer : before.dropWhile isBlank =
            '(' :: rest ++ (before.dropWhile isBlank).dropWhile (· != '\n') := by
          rw [← same, List.takeWhile_append_dropWhile]
        rw [← List.append_assoc catchBackwards, ← List.append_assoc (rest.takeWhile isBlank), ← inner,
          ← List.cons_append, ← outer, List.takeWhile_append_dropWhile]
      · intro c mem
        refine ⟨Text.runAll _ _ c mem, Text.runAll (· != '\n') (before.dropWhile isBlank) c ?_⟩
        rw [same]
        exact List.mem_cons_of_mem _ (List.takeWhile_sublist isBlank |>.subset mem)
    · contradiction
  · rintro ⟨x, y, rest, rfl, allX, allY⟩
    have line : ((x ++ '(' :: (y ++ (catchBackwards ++ rest))).dropWhile isBlank).takeWhile
        (· != '\n') = '(' :: (y ++ (catchBackwards ++ rest.takeWhile (· != '\n'))) := by
      rw [Text.runDropped allX (by rfl), List.takeWhile_cons,
        List.takeWhile_append_of_pos (fun c mem => (allY c mem).2),
        List.takeWhile_append_of_pos (by decide)]
      rfl
    have word : (y ++ (catchBackwards ++ rest.takeWhile (· != '\n'))).dropWhile isBlank =
        catchBackwards ++ rest.takeWhile (· != '\n') :=
      Text.runDropped (fun c mem => (allY c mem).1) (by rfl)
    simp only [line]
    rw [word]
    exact Option.isSome_iff_exists.mpr ⟨_, Text.afterIff.mpr rfl⟩

theorem Past.kept {A : Swaps} {p : Char → Bool}
    (foreign : ∀ {b old new}, A b old new → old ≠ [] ∧ starts p old.reverse = false)
    {x t u : Text} (all : ∀ c ∈ x, p c = true) (h : Past A (x ++ t) u) :
    ∃ u', u = x ++ u' ∧ Past A t u' := by
  induction x generalizing u with
  | nil => exact ⟨u, rfl, h⟩
  | cons c x ih =>
    generalize whole : c :: x ++ t = w at h
    cases h with
    | nil => simp at whole
    | keep d before =>
      obtain ⟨rfl, rfl⟩ := List.cons.inj whole
      obtain ⟨u', rfl, past⟩ := ih (fun d mem => all d (by simp [mem])) before
      exact ⟨u', rfl, past⟩
    | swap ok before =>
      have first := congrArg (starts p) whole
      rw [Text.startsAppend (List.reverse_ne_nil_iff.mpr (foreign ok).1), (foreign ok).2] at first
      simp [all c (by simp)] at first

theorem Past.keptWord {A : Swaps} {x : Text}
    (apart : ∀ {b old new}, A b old new → ∀ v, v ≠ [] → v <:+ x → ∀ r s, v ++ r ≠ new.reverse ++ s)
    {t u : Text} (h : Past A t (x ++ u)) : ∃ t', t = x ++ t' ∧ Past A t' u := by
  induction x generalizing t with
  | nil => exact ⟨t, rfl, h⟩
  | cons c x ih =>
    generalize whole : c :: x ++ u = w at h
    cases h with
    | nil => simp at whole
    | keep d before =>
      obtain ⟨rfl, rfl⟩ := List.cons.inj whole
      obtain ⟨t', rfl, past⟩ := ih (fun ok v some tail =>
        apart ok v some (tail.trans (List.suffix_cons c x))) before
      exact ⟨t', rfl, past⟩
    | swap ok before => exact absurd whole (apart ok (c :: x) (by simp) (List.suffix_refl _) _ _)

theorem Past.startsBack {A : Swaps} {p : Char → Bool}
    (ends : ∀ {b old new}, A b old new →
      old ≠ [] ∧ new ≠ [] ∧ (starts p old.reverse = true → starts p new.reverse = true))
    {t u : Text} (h : Past A t u) (stop : starts p u = false) : starts p t = false := by
  cases h with
  | nil => rfl
  | keep c before => exact stop
  | swap ok before =>
    obtain ⟨oldSome, newSome, class_⟩ := ends ok
    rw [Text.startsAppend (by simpa using newSome)] at stop
    rw [Text.startsAppend (by simpa using oldSome)]
    by_contra h
    have := class_ (by simpa using h)
    simp [stop] at this

def catchPath (c : Char) : Bool := isBlank c || c == '(' || catchBackwards.contains c

/-- Swaps at whose ends no guard sees a difference that would let a match through. -/
structure Swaps.Neutral (A : Swaps) : Prop where
  some : ∀ {b old new}, A b old new → old ≠ [] ∧ new ≠ []
  name : ∀ {b old new}, A b old new →
    starts isNameChar old = true → starts isNameChar new = true
  close : ∀ {b old new}, A b old new → starts (· == ')') old = false
  catches : ∀ {b old new}, A b old new → starts catchPath old.reverse = false
  nameEnd : ∀ {b old new}, A b old new →
    starts isNameChar old.reverse = true → starts isNameChar new.reverse = true
  wordEnd : ∀ {b old new}, A b old new →
    starts isWord old.reverse = true → starts isWord new.reverse = true

namespace Swaps.Neutral

theorem opensCatch {A : Swaps} (neutral : A.Neutral) {t u : Text} (past : Past A t u)
    (h : LintRemedy.opensCatch t = true) : LintRemedy.opensCatch u = true := by
  obtain ⟨x, y, rest, rfl, allX, allY⟩ := opensCatchIff.mp h
  have path : ∀ c ∈ x ++ '(' :: (y ++ catchBackwards), catchPath c = true := by
    intro c mem
    simp only [List.mem_append, List.mem_cons] at mem
    rcases mem with mem | rfl | mem | mem
    · simp [catchPath, allX c mem]
    · rfl
    · simp [catchPath, allY c mem]
    · simp [catchPath, mem]
  have whole : x ++ '(' :: (y ++ (catchBackwards ++ rest)) =
      (x ++ '(' :: (y ++ catchBackwards)) ++ rest := by simp
  rw [whole] at past
  obtain ⟨u', rfl, -⟩ :=
    Past.kept (fun ok => ⟨(neutral.some ok).1, neutral.catches ok⟩) path past
  exact opensCatchIff.mpr ⟨x, y, u', by simp, allX, allY⟩

theorem closing {A : Swaps} (neutral : A.Neutral) (blanks : Item.Reads A .blanks) {b t u : Text}
    (h : Respelled A b t u) (close : starts (· == ')') (t.dropWhile isBlank) = true) :
    starts (· == ')') (u.dropWhile isBlank) = true := by
  have takes : Item.blanks.Takes (u.takeWhile isBlank) (u.dropWhile isBlank) :=
    ⟨Text.runAll _ u, Text.runStops _ u⟩
  rw [← List.takeWhile_append_dropWhile (p := isBlank) (l := u)] at h
  obtain ⟨y, rest, rfl, takes', next⟩ := blanks h takes
  rw [Text.runDropped takes'.1 takes'.2] at close
  generalize u.dropWhile isBlank = r at next
  cases next with
  | nil => exact close
  | keep c next => exact close
  | swap ok next =>
    rw [Text.startsAppend (neutral.some ok).1, neutral.close ok] at close
    contradiction

theorem guard {A : Swaps} (neutral : A.Neutral)
    (closing : ∀ {b t u}, Respelled A b t u → starts (· == ')') (t.dropWhile isBlank) = true →
      starts (· == ')') (u.dropWhile isBlank) = true) (g : Guard)
    {bt bu b t u : Text} (past : Past A bt bu) (h : Respelled A b t u)
    (allows : g.allows bu u = true) : g.allows bt t = true := by
  cases g with
  | notBeforeName =>
    have stop : starts isNameChar u = false := by simpa [Guard.allows, starts] using allows
    have stop' : starts isNameChar t = false := by
      cases h with
      | nil => rfl
      | keep c next => exact stop
      | swap ok next =>
        obtain ⟨oldSome, newSome⟩ := neutral.some ok
        rw [Text.startsAppend newSome] at stop
        rw [Text.startsAppend oldSome]
        by_contra h
        have := neutral.name ok (by simpa using h)
        simp [stop] at this
    simpa [Guard.allows, starts] using stop'
  | notBeforeClose =>
    have closes (t : Text) : Guard.notBeforeClose.allows [] t =
        !starts (· == ')') (t.dropWhile isBlank) := by
      simp only [Guard.allows, starts, bne]
      cases (t.dropWhile isBlank).head? <;> rfl
    have open_ : starts (· == ')') (u.dropWhile isBlank) = false := by
      simpa using (closes u).symm.trans allows
    have open' : starts (· == ')') (t.dropWhile isBlank) = false := by
      by_contra close
      have := closing h (by simpa using close)
      simp [open_] at this
    exact (closes t).trans (by simp [open'])
  | notAfterCatch =>
    simp only [Guard.allows, Bool.not_eq_true'] at allows ⊢
    by_contra h
    have := neutral.opensCatch past (by simpa using h)
    simp [allows] at this

end Swaps.Neutral
end LintRemedy
