import LintRemedy.Proofs.NormalForm
import LintRemedy.Proofs.Parameters

/-!
The rule against `{}` on a text that the rule against `any` has settled. Of the substitutions of
the first rule only the one for parameters can be opened again, and exactly by a name that the
second rule writes before an annotation.
-/
namespace LintRemedy
open Text (isBlank isNameChar starts clash)

namespace Rule

theorem catchMirroredEmpty : catchBinding.Mirrored emptySwaps := by
  apply Substitution.mirroredOf emptyNeutral emptyBlanks
  intro bt bu t u f past h read
  obtain ⟨k, rfl, -⟩ := catchRead.mp read
  have gap : ∀ g ∈ [k.beforeOpen, k.afterOpen, k.beforeColon, k.afterColon, k.beforeClose],
      'o' ∉ g := fun g mem inGap => absurd (k.gaps g mem 'o' inGap) (by decide)
  have parts : k.text ++ f.rest = (catchWord ++ (k.beforeOpen ++ '(' :: k.afterOpen)) ++
      (k.binding ++ ((k.beforeColon ++ ':' :: (k.afterColon ++ (anyType ++
        (k.beforeClose ++ [')'])))) ++ f.rest)) := by
    simp [CatchClause.text, CatchClause.inside]
  rw [parts] at h
  obtain ⟨t₁, rfl, named⟩ := emptyKept h (by simp [gap, catchWord])
  have away : typePlace ((catchWord ++ (k.beforeOpen ++ '(' :: k.afterOpen)).reverse ++ bu) = false := by
    have back : (catchWord ++ (k.beforeOpen ++ '(' :: k.afterOpen)).reverse ++ bu =
        k.afterOpen.reverse ++ '(' :: (k.beforeOpen.reverse ++ (catchWord.reverse ++ bu)) := by simp
    rw [back, typePlaceAfter (by simpa using k.gaps k.afterOpen (by simp)) (by rfl)]
    simp [opensType, extendsBackwards, Text.after?]
  obtain ⟨t₂, rfl, rest⟩ := emptyNameKept named k.names away
  obtain ⟨t₃, rfl, last⟩ := emptyKept rest (by simp [gap, anyType])
  refine ⟨⟨k.text, k.tidy, t₃⟩, _, catchRead.mpr ⟨k, ?_, rfl, rfl⟩, last⟩
  simp [CatchClause.text, CatchClause.inside]

theorem catchBlindEmpty : catchBinding.Blind emptySwaps := by
  rintro b _ _ x y u ⟨-, rfl, -⟩ split first some ⟨-, f, found, -⟩
  obtain ⟨k, text, -⟩ := catchRead.mp (Substitution.findRead found)
  rw [CatchClause.text, List.append_assoc] at text
  have far := Text.clearInside (w := catchWord) (by decide) split first some
  rw [wordNear text] at far
  contradiction

theorem explicitAnyUnderEmpty {s : Substitution} (mem : s ∈ explicitAny.substitutions)
    (other : s ≠ parameterAnnotation) : s.Mirrored emptySwaps ∧ s.Blind emptySwaps := by
  rw [explicitAnySplit] at mem
  rcases List.mem_append.mp mem with plain | last
  · have fixed := (plainAnyCases plain).resolve_right other
    have free : ∀ w ∈ anyWords, Item.free w objectType = true := by decide
    have inside : ∀ l ∈ anyLefts, Text.clear (l ++ anyType) objectType.tail = true := by decide
    exact ⟨fixedAnyMirrored emptyNeutral emptyBlanks (fun w inWords => emptyWord (free w inWords)) s
      fixed, fixedAnyBlind (by rintro b _ _ ⟨-, rfl, -⟩; exact inside) s fixed⟩
  · rw [List.mem_singleton.mp last]
    exact ⟨catchMirroredEmpty, catchBlindEmpty⟩

theorem applyAllKeeps {A : Swaps} {substitutions : List Substitution}
    (settles : ∀ s ∈ substitutions, s.Settles A) {s : Substitution} (regular : s.Regular)
    (mirrored : s.Mirrored A) (blind : s.Blind A) {t : Text} (closed : ¬ s.Open t) :
    ¬ s.Open (applyAll substitutions t) := by
  induction substitutions generalizing t with
  | nil => exact closed
  | cons s' rest ih =>
    apply ih (fun s mem => settles s (by simp [mem]))
    exact Substitution.closedKept regular mirrored blind ((settles s' (by simp)).respelled t) closed

theorem bothRulesOpen (t : Text) {s : Substitution}
    (mem : s ∈ explicitAny.substitutions ++ emptyObjectType.substitutions) :
    s.Open (applyAll emptyObjectType.substitutions (applyAll explicitAny.substitutions t)) ↔
      s = parameterAnnotation ∧ runWritesParameter emptyObjectType.substitutions
        (applyAll explicitAny.substitutions t) = true := by
  have settled := explicitAnyClosed t
  have parameterMem : parameterAnnotation ∈ explicitAny.substitutions := by
    simp [explicitAny]
  have parameter := parameterRun emptyObjectTypes (applyAll explicitAny.substitutions t)
  rw [← parameterOpenIff, ← parameterOpenIff] at parameter
  by_cases same : s = parameterAnnotation
  · subst same
    rw [parameter]
    simp [settled _ parameterMem]
  · simp only [same, false_and, iff_false]
    rcases List.mem_append.mp mem with first | second
    · obtain ⟨mirrored, blind⟩ := explicitAnyUnderEmpty first same
      exact applyAllKeeps emptyObjectTypeSettles (explicitAnyRegular s first) mirrored blind
        (settled s first)
    · exact emptyObjectTypeClosed _ s second

end Rule
end LintRemedy
