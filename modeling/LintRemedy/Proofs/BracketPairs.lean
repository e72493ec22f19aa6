import LintRemedy.Proofs.AnyNames

/-!
The last list of a line by the places of its brackets. A pair is an opening and a closing bracket
with none in between, and the last list is the pair that closes last, however the brackets nest and
whether or not they match. It is also the last one that a search from the left finds, which goes on
behind each list it has found. Other characters without a bracket in its place make no difference to
where the last list is.
-/
namespace LintRemedy.Dependency
open Bracketed (isBracket last?)

structure Pair (t : Text) (i j : Nat) : Prop where
  start : 0 < i
  order : i ≤ j
  opens : t[i - 1]? = some '['
  closes : t[j]? = some ']'
  plain : ∀ k c, i ≤ k → k < j → t[k]? = some c → isBracket c = false

namespace Bracketed

def span (b : Bracketed) : Nat × Nat :=
  (b.before.length + 1, b.before.length + 1 + b.inner.length)

def lastSpan? (t : Text) : Option (Nat × Nat) := (last? t).map span

/-- The lists that a search from the left finds, by their places; it has come to `place`, and the
next `skip` characters belong to a list that is already found. -/
def spansFrom : (place skip : Nat) → Text → List (Nat × Nat)
  | _, _, [] => []
  | place, skip + 1, _ :: rest => spansFrom (place + 1) skip rest
  | place, 0, c :: rest => match atHead? (c :: rest) with
    | none => spansFrom (place + 1) 0 rest
    | some b =>
      (place + 1, place + 1 + b.inner.length) :: spansFrom (place + 1) (b.inner.length + 1) rest

def spans (t : Text) : List (Nat × Nat) := spansFrom 0 0 t

theorem spansSkip (x t : Text) (place : Nat) :
    spansFrom place x.length (x ++ t) = spansFrom (place + x.length) 0 t := by
  induction x generalizing place with
  | nil => rfl
  | cons c x ih =>
    rw [List.cons_append, List.length_cons, spansFrom, ih]
    congr 1
    omega

def behind (x : Text) (b : Bracketed) : Bracketed := { b with before := x ++ b.before }

section Head
variable {t : Text} {b : Bracketed} (head : atHead? t = some b)
include head

theorem headText : t = '[' :: (b.inner ++ [']'] ++ b.after) := by
  obtain ⟨first, text, -⟩ := headIff.mp head
  simpa [line, first] using text

theorem lastHead :
    last? t = some (((last? b.after).map (behind ('[' :: (b.inner ++ [']'])))).getD b) := by
  obtain ⟨-, text, plain⟩ := headIff.mp head
  cases later : last? b.after with
  | none => exact lastIff.mpr ⟨text, plain, later⟩
  | some d =>
    obtain ⟨text', plain', unlisted⟩ := lastIff.mp later
    refine lastIff.mpr ⟨?_, plain', unlisted⟩
    rw [headText head, text']
    simp [behind, line]

theorem spansHead (place : Nat) :
    spansFrom place 0 t = (place + 1, place + 1 + b.inner.length) ::
      spansFrom (place + 1 + (b.inner.length + 1)) 0 b.after := by
  have length : (b.inner ++ [']']).length = b.inner.length + 1 := by simp
  have text := headText head
  rw [text] at head
  rw [text, spansFrom, head]
  simp only [← length, spansSkip]

theorem headShorter : b.after.length < t.length := by
  rw [headText head]
  simp only [List.length_cons, List.length_append]
  omega

end Head

theorem spansLast (t : Text) (place : Nat) :
    (spansFrom place 0 t).getLast? =
      (last? t).map fun b => (place + b.span.1, place + b.span.2) := by
  induction size : t.length using Nat.strongRecOn generalizing t place with
  | ind n ih =>
    subst size
    cases t with
    | nil => rfl
    | cons c rest =>
      cases head : atHead? (c :: rest) with
      | none =>
        rw [spansFrom, head, last?, head, ih rest.length (Nat.lt_succ_self _) rest _ rfl]
        cases last? rest with
        | none => rfl
        | some b =>
          simp only [Option.map_some, span, List.length_cons, Option.some.injEq, Prod.mk.injEq]
          omega
      | some b =>
        -- The search goes on behind the list, and so does `last?` if there is another one.
        have first := (headIff.mp head).1
        rw [spansHead head, lastHead head, List.getLast?_cons,
          ih _ (headShorter head) b.after _ rfl]
        cases last? b.after with
        | none => simp [span, first, Nat.add_assoc]
        | some d =>
          simp only [Option.map_some, Option.getD_some, behind, span, List.length_cons,
            List.length_append, List.length_nil, Option.some.injEq, Prod.mk.injEq]
          omega

theorem lineParts (b : Bracketed) :
    b.line = (b.before ++ ['[']) ++ (b.inner ++ ']' :: b.after) ∧
      (b.before ++ ['[']).length = b.span.1 := by
  simp [line, span]

theorem lineFrom (b : Bracketed) (k : Nat) :
    b.line[b.span.1 + k]? = (b.inner ++ ']' :: b.after)[k]? := by
  obtain ⟨text, start⟩ := lineParts b
  rw [text, ← start, List.getElem?_append_right (Nat.le_add_right _ k), Nat.add_sub_cancel_left]

theorem lineBehind (b : Bracketed) (k : Nat) : b.line[b.span.2 + (k + 1)]? = b.after[k]? := by
  have place : b.span.2 + (k + 1) = b.span.1 + (b.inner.length + (k + 1)) := by
    simp only [span]
    omega
  rw [place, lineFrom, List.getElem?_append_right (Nat.le_add_right _ _), Nat.add_sub_cancel_left,
    List.getElem?_cons_succ]

theorem linePair {b : Bracketed} (plain : ∀ c ∈ b.inner, isBracket c = false) :
    Pair b.line b.span.1 b.span.2 where
  start := Nat.succ_pos _
  order := Nat.le_add_right _ _
  opens := by simp [line, span]
  closes := by
    have close := lineFrom b b.inner.length
    simpa [span] using close
  plain := by
    intro k c after below char
    obtain ⟨m, rfl⟩ := Nat.exists_eq_add_of_le after
    have inside : m < b.inner.length := by
      simp only [span] at below
      omega
    rw [lineFrom, List.getElem?_append_left inside] at char
    exact plain c (List.mem_of_getElem? char)

theorem listedPlaces {t : Text} :
    (last? t).isSome = true ↔ ∃ i j : Nat, i < j ∧ t[i]? = some '[' ∧ t[j]? = some ']' := by
  rw [listedIff]
  constructor
  · rintro ⟨x, y, z, rfl⟩
    refine ⟨x.length, x.length + (y.length + 1), by omega, by simp, by simp⟩
  · rintro ⟨i, j, before, opens, closes⟩
    obtain ⟨inside, char⟩ := List.getElem?_eq_some_iff.mp opens
    have later : ']' ∈ t.drop (i + 1) := by
      apply List.mem_of_getElem? (i := j - (i + 1))
      rw [List.getElem?_drop, ← closes]
      congr 1
      omega
    obtain ⟨y, z, split⟩ := List.append_of_mem later
    refine ⟨t.take i, y, z, ?_⟩
    rw [← split, ← char, ← List.drop_eq_getElem_cons, List.take_append_drop]

end Bracketed

namespace Pair
variable {t : Text} {i j k : Nat}

theorem noBracket (pair : Pair t i j) {c : Char} (bracket : isBracket c = true)
    (char : t[k]? = some c) : k < i ∨ j ≤ k := by
  by_contra inside
  have plain := pair.plain k c (by omega) (by omega) char
  simp [bracket] at plain

theorem sameStart (pair : Pair t i j) (other : Pair t k j) : i = k := by
  have before := pair.noBracket rfl other.opens
  have after := other.noBracket rfl pair.opens
  have bounds := And.intro pair.start other.start
  have orders := And.intro pair.order other.order
  omega

theorem opensBehind (pair : Pair t i j) (close : t[k]? = some ']') (later : k < j) : k < i - 1 := by
  have outside := pair.noBracket rfl close
  have start := pair.start
  have apart : k ≠ i - 1 := by
    rintro rfl
    have same := close.symm.trans pair.opens
    simp at same
  omega

end Pair

namespace Bracketed
variable {t : Text} {b : Bracketed}

theorem lastIsPair (list : last? t = some b) : Pair t b.span.1 b.span.2 := by
  obtain ⟨rfl, plain, -⟩ := lastIff.mp list
  exact linePair plain

theorem lastCloses (list : last? t = some b) {i j : Nat} (pair : Pair t i j) : j ≤ b.span.2 := by
  by_contra later
  have behind := pair.opensBehind (lastIsPair list).closes (by omega)
  obtain ⟨rfl, -, unlisted⟩ := lastIff.mp list
  -- Otherwise there would be a list in what stands behind the last one.
  have listed : (last? b.after).isSome = true := by
    refine listedPlaces.mpr ⟨i - 1 - (b.span.2 + 1), j - (b.span.2 + 1), ?_, ?_, ?_⟩
    · have order := pair.order
      omega
    · rw [← lineBehind, ← pair.opens]
      congr 1
      omega
    · rw [← lineBehind, ← pair.closes]
      congr 1
      omega
  simp [unlisted] at listed

theorem lastSpanIff {i j : Nat} :
    lastSpan? t = some (i, j) ↔ Pair t i j ∧ ∀ k l, Pair t k l → l ≤ j := by
  unfold lastSpan?
  constructor
  · intro found
    obtain ⟨b, list, span⟩ := Option.map_eq_some_iff.mp found
    have pair := lastIsPair list
    have closes := fun k l => lastCloses (i := k) (j := l) list
    rw [span] at pair closes
    exact ⟨pair, closes⟩
  · rintro ⟨pair, closes⟩
    have listed : (last? t).isSome = true := by
      refine listedPlaces.mpr ⟨i - 1, j, ?_, pair.opens, pair.closes⟩
      have bounds := And.intro pair.start pair.order
      omega
    obtain ⟨b, list⟩ := Option.isSome_iff_exists.mp listed
    have own := lastIsPair list
    have stop : b.span.2 = j := Nat.le_antisymm (closes _ _ own) (lastCloses list pair)
    rw [stop] at own
    have start := own.sameStart pair
    rw [list, Option.map_some, ← start, ← stop]

theorem lastReplaced (list : last? t = some b) {r : Text} (plain : ∀ c ∈ r, isBracket c = false) :
    last? (t.take b.span.1 ++ r ++ t.drop b.span.2) = some { b with inner := r } := by
  obtain ⟨rfl, -, unlisted⟩ := lastIff.mp list
  obtain ⟨text, start⟩ := lineParts b
  have first : b.line.take b.span.1 = b.before ++ ['['] := by
    rw [text, List.take_left' start]
  have last : b.line.drop b.span.2 = ']' :: b.after := by
    have stop : b.span.2 = b.span.1 + b.inner.length := rfl
    rw [stop, ← List.drop_drop, text, List.drop_left' start, List.drop_left]
  refine lastIff.mpr ⟨?_, plain, unlisted⟩
  rw [first, last]
  simp [line]

/-- The last list is the last one that a search from the left finds. It is the pair of brackets that
closes last, and there is none exactly if no bracket closes behind one that opens. Another text
without brackets in its place is the last list again. -/
theorem lastListExactly (t : Text) :
    lastSpan? t = (spans t).getLast? ∧
    (∀ i j, lastSpan? t = some (i, j) ↔ Pair t i j ∧ ∀ k l, Pair t k l → l ≤ j) ∧
    (lastSpan? t = none ↔ ¬ ∃ i j : Nat, i < j ∧ t[i]? = some '[' ∧ t[j]? = some ']') ∧
    ∀ i j r, lastSpan? t = some (i, j) → (∀ c ∈ r, isBracket c = false) →
      lastSpan? (t.take i ++ r ++ t.drop j) = some (i, i + r.length) := by
  refine ⟨?_, fun i j => lastSpanIff, ?_, ?_⟩
  · simp [spans, spansLast, lastSpan?]
  · rw [← listedPlaces, lastSpan?]
    simp
  · intro i j r found plain
    obtain ⟨b, list, places⟩ := Option.map_eq_some_iff.mp found
    have again := lastReplaced list plain
    rw [places] at again
    have start : b.span.1 = i := by rw [places]
    rw [lastSpan?, again, Option.map_some, ← start]
    rfl

def unmatchedLine : Text := "memo(x[1]], [[a] +]".toList

theorem lastListUnmatched :
    lastSpan? unmatchedLine = some (14, 15) ∧ (∀ c ∈ "b, c".toList, isBracket c = false) ∧
    spans unmatchedLine = [(7, 8), (14, 15)] ∧ Pair unmatchedLine 14 15 ∧
    lastSpan? "memo(x[1]], [[b, c] +]".toList = some (14, 18) := by
  obtain ⟨-, exactly, -, replaced⟩ := lastListExactly unmatchedLine
  have found : lastSpan? unmatchedLine = some (14, 15) := by decide +kernel
  have plain : ∀ c ∈ "b, c".toList, isBracket c = false := by decide
  have searched : spans unmatchedLine = [(7, 8), (14, 15)] := by decide +kernel
  exact ⟨found, plain, searched, ((exactly 14 15).mp found).1, replaced 14 15 _ found plain⟩

end Bracketed
end LintRemedy.Dependency
