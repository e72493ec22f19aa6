import LintRemedy.RuleTable
import Mathlib.Data.List.Basic
import Mathlib.Data.List.Infix

/-!
What it means that a shape was read. An item takes a stretch with nothing left behind it that the
item would have taken too (`Item.Takes`), and a shape is read when its items take one stretch
after another. Nothing here depends on the rules of the table.
-/
namespace LintRemedy
namespace Text

-- Preferred, since the same statement can also be decided by going over all the characters there are.
instance (priority := high) decidableForall {p : Char → Prop} [DecidablePred p] (t : Text) :
    Decidable (∀ c ∈ t, p c) :=
  List.decidableBAll p t

theorem afterIff {head t rest : Text} : after? head t = some rest ↔ t = head ++ rest := by
  constructor
  · exact afterKeeps
  · rintro rfl
    induction head with
    | nil => rfl
    | cons c head ih => simp [after?, ih]

def clash : Text → Text → Bool
  | a :: s, b :: t => a != b || clash s t
  | _, _ => false

theorem clashApart {s t : Text} (apart : clash s t = true) (x y : Text) : s ++ x ≠ t ++ y := by
  induction s generalizing t with
  | nil => simp [clash] at apart
  | cons a s ih =>
    cases t with
    | nil => simp [clash] at apart
    | cons b t =>
      simp only [clash, Bool.or_eq_true, bne_iff_ne] at apart
      intro same
      simp only [List.cons_append, List.cons.injEq] at same
      rcases apart with first | later
      · exact first same.1
      · exact ih later same.2

theorem clashAppend {s t : Text} (apart : clash s t = true) (z : Text) : clash s (t ++ z) = true := by
  induction s generalizing t with
  | nil => simp [clash] at apart
  | cons a s ih =>
    cases t with
    | nil => simp [clash] at apart
    | cons b t =>
      simp only [clash, List.cons_append, Bool.or_eq_true] at apart ⊢
      exact apart.imp_right ih

/-- `w` starts nowhere in `t`, nor at a place of `t` from where it would run over its end. -/
def clear (w t : Text) : Bool := t.tails.all fun v => v.isEmpty || clash w v

theorem clearAt {w t x y : Text} (h : clear w t = true) (split : t = x ++ y) (some : y ≠ []) :
    clash w y = true := by
  have tail : y ∈ t.tails := (List.mem_tails y t).mpr ⟨x, split.symm⟩
  simpa [some] using List.all_eq_true.mp h y tail

theorem clearInside {w t x y : Text} (h : clear w t.tail = true) (split : t = x ++ y)
    (first : x ≠ []) (some : y ≠ []) : clash w y = true := by
  cases x with
  | nil => exact absurd rfl first
  | cons c x => exact clearAt (x := x) h (by simp [split]) some

theorem suffixAppend {y a b : Text} (h : y <:+ a ++ b) :
    y <:+ b ∨ ∃ v, v ≠ [] ∧ v <:+ a ∧ y = v ++ b := by
  obtain ⟨x, split⟩ := h
  rcases List.append_eq_append_iff.mp split with ⟨v, rfl, rfl⟩ | ⟨z, -, last⟩
  · by_cases empty : v = []
    · subst empty
      exact .inl (List.suffix_refl b)
    · exact .inr ⟨v, empty, ⟨x, rfl⟩, rfl⟩
  · exact .inl ⟨z, last.symm⟩

theorem suffixLast {v x : Text} {c : Char} (suffix : v <:+ x ++ [c]) (some : v ≠ []) : c ∈ v := by
  rcases suffixAppend suffix with last | ⟨w, -, -, rfl⟩
  · rcases List.suffix_cons_iff.mp last with rfl | gone
    · simp
    · exact absurd (List.suffix_nil.mp gone) some
  · simp

theorem clearSuffix {w t y : Text} (h : clear w t = true) (suffix : y <:+ t) (some : y ≠ []) :
    clash w y = true := by
  obtain ⟨x, split⟩ := suffix
  exact clearAt h split.symm some

theorem wordSuffix {w v : Text} (h : clear w w.tail = true) (suffix : v <:+ w) (some : v ≠ []) :
    v = w ∨ clash w v = true := by
  cases w with
  | nil => exact .inl (List.suffix_nil.mp suffix)
  | cons c w =>
    rcases List.suffix_cons_iff.mp suffix with same | later
    · exact .inl same
    · exact .inr (clearSuffix h later some)

def starts (p : Char → Bool) (t : Text) : Bool := t.head?.any p

@[simp] theorem startsNil (p : Char → Bool) : starts p [] = false := rfl

@[simp] theorem startsCons (p : Char → Bool) (c : Char) (t : Text) : starts p (c :: t) = p c := rfl

theorem startsAppend {p : Char → Bool} {x : Text} (some : x ≠ []) (t : Text) :
    starts p (x ++ t) = starts p x := by
  cases x with
  | nil => exact absurd rfl some
  | cons c x => rfl

theorem runTaken {p : Char → Bool} {x r : Text} (all : ∀ c ∈ x, p c = true)
    (stop : starts p r = false) : (x ++ r).takeWhile p = x := by
  rw [List.takeWhile_append_of_pos all]
  cases r with
  | nil => simp
  | cons c r =>
    have other : p c = false := stop
    simp [other]

theorem runDropped {p : Char → Bool} {x r : Text} (all : ∀ c ∈ x, p c = true)
    (stop : starts p r = false) : (x ++ r).dropWhile p = r := by
  rw [List.dropWhile_append_of_pos all]
  cases r with
  | nil => rfl
  | cons c r =>
    have other : p c = false := stop
    simp [other]

theorem runAll (p : Char → Bool) (t : Text) : ∀ c ∈ t.takeWhile p, p c = true := by
  intro c mem
  exact List.all_eq_true.mp List.all_takeWhile c mem

theorem runStops (p : Char → Bool) (t : Text) : starts p (t.dropWhile p) = false := by
  induction t with
  | nil => rfl
  | cons c t ih =>
    rw [List.dropWhile_cons]
    split
    · exact ih
    · simpa using ‹¬p c = true›

theorem runUnique {p : Char → Bool} {x y r s : Text} (allX : ∀ c ∈ x, p c = true)
    (stopR : starts p r = false) (allY : ∀ c ∈ y, p c = true) (stopS : starts p s = false)
    (same : x ++ r = y ++ s) : x = y ∧ r = s := by
  constructor
  · rw [← runTaken allX stopR, same, runTaken allY stopS]
  · rw [← runDropped allX stopR, same, runDropped allY stopS]

def blankCodes : List Nat :=
  [9, 10, 11, 12, 13, 0x20, 0x85, 0xa0, 0x1680, 0x2000, 0x2001, 0x2002, 0x2003, 0x2004, 0x2005,
    0x2006, 0x2007, 0x2008, 0x2009, 0x200a, 0x2028, 0x2029, 0x202f, 0x205f, 0x3000]

theorem blankCode {c : Char} (h : isBlank c = true) : c.toNat ∈ blankCodes := by
  simp only [isBlank, Bool.or_eq_true, Bool.and_eq_true, decide_eq_true_eq, beq_iff_eq] at h
  simp only [blankCodes, List.mem_cons, List.not_mem_nil, or_false]
  omega

theorem blankNotName {c : Char} (h : isBlank c = true) : isNameChar c = false := by
  have all : ∀ n ∈ blankCodes, isNameChar (Char.ofNat n) = false := by decide +kernel
  simpa using all c.toNat (blankCode h)

theorem nameNotBlank {c : Char} (h : isNameChar c = true) : isBlank c = false := by
  cases blank : isBlank c with
  | false => rfl
  | true => simp [blankNotName blank] at h

end Text
open Text (isBlank isNameChar isWord starts)

namespace Item

def Takes : Item → (x rest : Text) → Prop
  | word w, x, _ => x = w
  | blanks, x, rest => (∀ c ∈ x, isBlank c = true) ∧ starts isBlank rest = false
  | someBlanks, x, rest => x ≠ [] ∧ (∀ c ∈ x, isBlank c = true) ∧ starts isBlank rest = false
  | name, x, rest => x ≠ [] ∧ (∀ c ∈ x, isNameChar c = true) ∧ starts isNameChar rest = false
  | optional c, x, rest => x = [c] ∨ (x = [] ∧ rest.head? ≠ some c)

theorem takeIff {i : Item} {t x rest : Text} :
    i.take? t = some (x, rest) ↔ t = x ++ rest ∧ i.Takes x rest := by
  cases i with
  | word w =>
    simp only [take?, Takes, Option.map_eq_some_iff, Prod.mk.injEq, Text.afterIff]
    constructor
    · rintro ⟨r, rfl, rfl, rfl⟩
      exact ⟨rfl, rfl⟩
    · rintro ⟨rfl, rfl⟩
      exact ⟨rest, rfl, rfl, rfl⟩
  | blanks =>
    simp only [take?, Takes, Option.some.injEq, Prod.mk.injEq]
    constructor
    · rintro ⟨rfl, rfl⟩
      exact ⟨List.takeWhile_append_dropWhile.symm, Text.runAll _ t, Text.runStops _ t⟩
    · rintro ⟨rfl, all, stop⟩
      exact ⟨Text.runTaken all stop, Text.runDropped all stop⟩
  | someBlanks =>
    simp only [take?, Takes]
    constructor
    · intro h
      split at h <;> try contradiction
      rename_i some
      simp only [Option.some.injEq, Prod.mk.injEq] at h
      obtain ⟨rfl, rfl⟩ := h
      exact ⟨List.takeWhile_append_dropWhile.symm, some, Text.runAll _ t, Text.runStops _ t⟩
    · rintro ⟨rfl, some, all, stop⟩
      rw [Text.runTaken all stop, Text.runDropped all stop, if_neg some]
  | name =>
    simp only [take?, Takes]
    constructor
    · intro h
      split at h <;> try contradiction
      rename_i some
      simp only [Option.some.injEq, Prod.mk.injEq] at h
      obtain ⟨rfl, rfl⟩ := h
      exact ⟨List.takeWhile_append_dropWhile.symm, some, Text.runAll _ t, Text.runStops _ t⟩
    · rintro ⟨rfl, some, all, stop⟩
      rw [Text.runTaken all stop, Text.runDropped all stop, if_neg some]
  | optional c =>
    simp only [take?, Takes]
    cases t with
    | nil =>
      simp only [Text.after?, Option.some.injEq, Prod.mk.injEq]
      constructor
      · rintro ⟨rfl, rfl⟩
        simp
      · rintro ⟨same, -⟩
        simpa [eq_comm] using same
    | cons d t =>
      by_cases same : c = d
      · subst same
        simp only [Text.after?, ↓reduceIte, Option.some.injEq, Prod.mk.injEq]
        constructor
        · rintro ⟨rfl, rfl⟩
          simp
        · rintro ⟨split, rfl | ⟨rfl, other⟩⟩
          · exact ⟨rfl, by simpa using split⟩
          · rw [List.nil_append] at split
            simp [← split] at other
      · simp only [Text.after?, if_neg same, Option.some.injEq, Prod.mk.injEq]
        constructor
        · rintro ⟨rfl, rfl⟩
          exact ⟨rfl, .inr ⟨rfl, by simpa using Ne.symm same⟩⟩
        · rintro ⟨split, rfl | ⟨rfl, -⟩⟩
          · simp only [List.cons_append, List.nil_append, List.cons.injEq] at split
            exact absurd split.1.symm same
          · exact ⟨rfl, split⟩

def holds : Item → Char → Bool
  | word w, c => w.contains c
  | blanks, c => isBlank c
  | someBlanks, c => isBlank c
  | name, c => isNameChar c
  | optional d, c => c == d

theorem Takes.held {i : Item} {x rest : Text} (takes : i.Takes x rest) :
    ∀ c ∈ x, i.holds c = true := by
  intro c mem
  cases i with
  | word w => cases takes; simpa [holds] using mem
  | blanks => exact takes.1 c mem
  | someBlanks => exact takes.2.1 c mem
  | name => exact takes.2.1 c mem
  | optional d =>
    rcases takes with rfl | ⟨rfl, -⟩
    · simpa [holds] using mem
    · simp at mem

end Item

namespace Found

theorem readNil {t : Text} {f : Found} : read? [] t = some f ↔ f = ⟨[], [], t⟩ := by
  simp [read?, eq_comm]

theorem readCons {s : Step} {steps : List Step} {t : Text} {f : Found} :
    read? (s :: steps) t = some f ↔
      ∃ x rest g, t = x ++ rest ∧ s.item.Takes x rest ∧ read? steps rest = some g ∧
        f = ⟨x ++ g.old, s.write x ++ g.new, g.rest⟩ := by
  simp only [read?, bind, Option.bind_eq_some_iff, Prod.exists, Item.takeIff, Option.some.injEq]
  constructor
  · rintro ⟨x, rest, ⟨split, takes⟩, g, hg, rfl⟩
    exact ⟨x, rest, g, split, takes, hg, rfl⟩
  · rintro ⟨x, rest, g, split, takes, hg, rfl⟩
    exact ⟨x, rest, ⟨split, takes⟩, g, hg, rfl⟩

end Found
end LintRemedy
