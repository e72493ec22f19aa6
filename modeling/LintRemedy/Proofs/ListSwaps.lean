import LintRemedy.Proofs.Insertion
import LintRemedy.Proofs.RuleOrder

/-!
The insertion of a name into a list, as a swap in the text. No shape of the table reaches over what
is inserted: a shape has no comma, it has an opening bracket only before a closing one, and it has
some mark that a list of names lacks. So the dependency stage opens nothing to the rules.
-/
namespace LintRemedy
open Text (isBlank isNameChar isWord starts clash trim trimEnd trailingBlanks)

theorem Item.Takes.moved {i : Item} {x r r' : Text} (takes : i.Takes x r)
    (same : r.head? = r'.head?) : i.Takes x r' := by
  have first (p : Char → Bool) : starts p r = starts p r' := by simp [starts, same]
  cases i with
  | word w => exact takes
  | blanks => exact ⟨takes.1, first _ ▸ takes.2⟩
  | someBlanks => exact ⟨takes.1, takes.2.1, first _ ▸ takes.2.2⟩
  | name => exact ⟨takes.1, takes.2.1, first _ ▸ takes.2.2⟩
  | optional c => exact takes.imp_right fun h => ⟨h.1, same ▸ h.2⟩

namespace Step

def endsWithWord : List Step → Bool
  | [] => false
  | [s] => match s.item with
    | .word w => !w.isEmpty
    | _ => false
  | _ :: s :: steps => endsWithWord (s :: steps)

def isMark (c : Char) : Bool := [':', '=', '<', '{', '(', '|', '&'].contains c

def marked : List Step → Bool
  | [] => false
  | s :: steps => match s.item with
    | .word w => (w.takeWhile (· != ']')).any isMark || (!w.contains ']' && marked steps)
    | .optional c => c != ']' && marked steps
    | _ => marked steps

def passesLists (s : Step) : Bool :=
  match s.item with
  | .word w => !w.contains ',' && w.tails.all fun v => v.head? != some '[' || v.tail.head? == some ']'
  | .optional c => c != ',' && c != '['
  | _ => true

end Step

namespace Found

theorem readMoved {steps : List Step} (ends : Step.endsWithWord steps = true) {t : Text} {f : Found}
    (read : read? steps t = some f) (r : Text) :
    f.old ≠ [] ∧ read? steps (f.old ++ r) = some ⟨f.old, f.new, r⟩ := by
  induction steps generalizing t f with
  | nil => contradiction
  | cons s steps ih =>
    obtain ⟨x, rest, g, rfl, takes, hg, rfl⟩ := readCons.mp read
    cases steps with
    | nil =>
      cases readNil.mp hg
      rw [Step.endsWithWord] at ends
      split at ends <;> try contradiction
      rename_i w word
      rw [word] at takes
      cases takes
      refine ⟨by simpa using ends, readCons.mpr ⟨x, r, ⟨[], [], r⟩, by simp, ?_, rfl, by simp⟩⟩
      rw [word]
      rfl
    | cons s' steps =>
      obtain ⟨some, read'⟩ := ih ends hg
      refine ⟨by simp [some], readCons.mpr ⟨x, g.old ++ r, _, by simp, takes.moved ?_, read', rfl⟩⟩
      rw [← readKeeps hg]
      cases old : g.old with
      | nil => exact absurd old some
      | cons c w => rfl

theorem readMarked {steps : List Step} (marked : Step.marked steps = true) {t : Text} {f : Found}
    (read : read? steps t = some f) :
    ∃ p c q, f.old = p ++ c :: q ∧ Step.isMark c = true ∧ ']' ∉ p := by
  induction steps generalizing t f with
  | nil => contradiction
  | cons s steps ih =>
    obtain ⟨x, rest, g, rfl, takes, hg, rfl⟩ := readCons.mp read
    have later (plain : ']' ∉ x) (marked : Step.marked steps = true) :
        ∃ p c q, x ++ g.old = p ++ c :: q ∧ Step.isMark c = true ∧ ']' ∉ p := by
      obtain ⟨p, c, q, old, mark, absent⟩ := ih marked hg
      exact ⟨x ++ p, c, q, by simp [old], mark, by simp [plain, absent]⟩
    have plain (other : s.item.holds ']' = false) : ']' ∉ x := by
      intro mem
      simp [takes.held _ mem] at other
    rw [Step.marked] at marked
    split at marked
    · rename_i w word
      simp only [Bool.or_eq_true, List.any_eq_true, Bool.and_eq_true] at marked
      rcases marked with ⟨c, mem, mark⟩ | ⟨absent, marked⟩
      · rw [word] at takes
        cases takes
        obtain ⟨p, q, split⟩ := List.append_of_mem mem
        refine ⟨p, c, q ++ (x.dropWhile (· != ']') ++ g.old), ?_, mark, ?_⟩
        · rw [← List.cons_append, ← List.append_assoc, ← List.append_assoc, ← split,
            List.takeWhile_append_dropWhile]
        · intro close
          have := Text.runAll (· != ']') x ']' (by simp [split, close])
          contradiction
      · exact later (plain (by simpa [Item.holds, word] using absent)) marked
    · rename_i d optional
      simp only [Bool.and_eq_true, bne_iff_ne] at marked
      exact later (plain (by simpa [Item.holds, optional] using Ne.symm marked.1)) marked.2
    · rename_i notWord notOptional
      refine later (plain ?_) marked
      cases item : s.item with
      | word w => exact absurd item (notWord w)
      | optional d => exact absurd item (notOptional d)
      | blanks => rfl
      | someBlanks => rfl
      | name => rfl

theorem readPasses {steps : List Step} (passes : ∀ s ∈ steps, s.passesLists = true) {t : Text}
    {f : Found} (read : read? steps t = some f) :
    ',' ∉ f.old ∧ ∀ v, '[' :: v <:+ f.old → v.head? = some ']' := by
  induction steps generalizing t f with
  | nil =>
    cases readNil.mp read
    simp
  | cons s steps ih =>
    obtain ⟨x, rest, g, rfl, takes, hg, rfl⟩ := readCons.mp read
    obtain ⟨noComma, closes⟩ := ih (fun s mem => passes s (by simp [mem])) hg
    have first : ',' ∉ x ∧ ∀ v, '[' :: v <:+ x → v.head? = some ']' := by
      have here := passes s (by simp)
      have lacks {c : Char} (other : s.item.holds c = false) : c ∉ x := by
        intro mem
        simp [takes.held _ mem] at other
      have without (comma : s.item.holds ',' = false) (bracket : s.item.holds '[' = false) :
          ',' ∉ x ∧ ∀ v, '[' :: v <:+ x → v.head? = some ']' :=
        ⟨lacks comma, fun v suffix => absurd (suffix.subset (by simp)) (lacks bracket)⟩
      rw [Step.passesLists] at here
      cases item : s.item with
      | word w =>
        rw [item] at here takes
        cases takes
        simp only [Bool.and_eq_true, List.all_eq_true] at here
        refine ⟨by simpa using here.1, fun v suffix => ?_⟩
        have pair := here.2 _ ((List.mem_tails _ _).mpr suffix)
        simpa using pair
      | optional c =>
        rw [item] at here without
        simp only [Bool.and_eq_true, bne_iff_ne] at here
        exact without (by simpa [Item.holds] using Ne.symm here.1)
          (by simpa [Item.holds] using Ne.symm here.2)
      | blanks => exact without (by rw [item]; rfl) (by rw [item]; rfl)
      | someBlanks => exact without (by rw [item]; rfl) (by rw [item]; rfl)
      | name => exact without (by rw [item]; rfl) (by rw [item]; rfl)
    refine ⟨by simp [first.1, noComma], fun v suffix => ?_⟩
    rcases Text.suffixAppend suffix with later | ⟨w, some, inFirst, split⟩
    · exact closes v later
    · cases w with
      | nil => exact absurd rfl some
      | cons c w =>
        obtain ⟨rfl, rfl⟩ := List.cons.inj split
        have close := first.2 w inFirst
        cases w with
        | nil => simp at close
        | cons d w => exact close

end Found

namespace Dependency

/-- A name that is put into a list: `gap` and the closing bracket give way to `mark`, what is new
and the bracket. -/
structure ListEdit where
  mark : Char
  gap : Text
  fresh : Text
  marked : mark = ',' ∨ (mark = '[' ∧ starts isPathChar fresh = true)
  blank : ∀ c ∈ gap, isBlank c = true ∨ c = ',' ∨ c = '['
  plain : ∀ c ∈ fresh, isPathChar c = true ∨ isBlank c = true

namespace ListEdit

def old (e : ListEdit) : Text := e.gap ++ [']']

def new (e : ListEdit) : Text := e.mark :: (e.fresh ++ [']'])

end ListEdit

def listSwaps : Swaps := fun _ old new => ∃ e : ListEdit, old = e.old ∧ new = e.new

theorem appendGap (inner : Text) :
    ∃ gap, inner = trimEnd (dropComma (trimEnd inner)) ++ gap ∧
      ∀ c ∈ gap, isBlank c = true ∨ c = ',' := by
  have comma : ∃ z, trimEnd inner = dropComma (trimEnd inner) ++ z ∧ ∀ c ∈ z, c = ',' := by
    unfold dropComma
    split
    · rename_i last
      exact ⟨[','], (List.dropLast_append_getLast? ',' last).symm, by simp⟩
    · exact ⟨[], by simp, by simp⟩
  obtain ⟨z, split, commas⟩ := comma
  refine ⟨trailingBlanks (dropComma (trimEnd inner)) ++ (z ++ trailingBlanks inner), ?_, ?_⟩
  · rw [← List.append_assoc, Text.trimEndKeeps, ← List.append_assoc, ← split, Text.trimEndKeeps]
  · intro c mem
    simp only [List.mem_append] at mem
    rcases mem with before | inZ | behind
    · exact .inl (Text.trailingBlank _ c before)
    · exact .inr (commas c inZ)
    · exact .inl (Text.trailingBlank _ c behind)

theorem insertRespelled {line name edited : Text} (path : PathLike name)
    (inserted : insert? line name = some edited) (b : Text) : Respelled listSwaps b line edited := by
  obtain ⟨⟨before, inner, after⟩, list, -, rfl⟩ := insertIff.mp inserted
  obtain ⟨rfl, -, -⟩ := Bracketed.lastIff.mp list
  have one (head : Text) (e : ListEdit) :
      Respelled listSwaps b (head ++ (e.old ++ after)) (head ++ (e.new ++ after)) :=
    (Respelled.refl listSwaps b head).append (.swap ⟨e, rfl, rfl⟩ (.refl listSwaps _ after))
  simp only [Bracketed.line, append]
  split
  · rename_i empty
    let e : ListEdit := {
      mark := '['
      gap := '[' :: inner
      fresh := name
      marked := .inr ⟨rfl, by
        cases named : name with
        | nil => exact absurd named path.some
        | cons c rest => exact path.chars c (by simp [named])⟩
      blank := by
        intro c mem
        rcases List.mem_cons.mp mem with rfl | inGap
        · exact .inr (.inr rfl)
        · exact .inl (Text.trimEmpty empty c inGap)
      plain := fun c mem => .inl (path.chars c mem) }
    simpa [ListEdit.old, ListEdit.new, e] using one before e
  · obtain ⟨gap, split, blank⟩ := appendGap inner
    let e : ListEdit := {
      mark := ','
      gap := gap
      fresh := ' ' :: (name ++ trailingBlanks inner)
      marked := .inl rfl
      blank := fun c mem => (blank c mem).imp_right .inl
      plain := by
        intro c mem
        simp only [List.mem_cons, List.mem_append] at mem
        rcases mem with rfl | named | pad
        · exact .inr rfl
        · exact .inl (path.chars c named)
        · exact .inr (Text.trailingBlank inner c pad) }
    have whole := one (before ++ '[' :: trimEnd (dropComma (trimEnd inner))) e
    have text : before ++ '[' :: trimEnd (dropComma (trimEnd inner)) ++ (e.old ++ after) =
        before ++ '[' :: inner ++ ']' :: after := by
      conv_rhs => rw [split]
      simp [ListEdit.old, e]
    rw [text] at whole
    simpa [ListEdit.new, e] using whole

namespace ListEdit

theorem oldChars (e : ListEdit) : ∀ c ∈ e.old, isBlank c = true ∨ c ∈ [',', '[', ']'] := by
  intro c mem
  rcases List.mem_append.mp mem with inGap | last
  · rcases e.blank c inGap with blank | rfl | rfl
    · exact .inl blank
    · exact .inr (by simp)
    · exact .inr (by simp)
  · exact .inr (by simp [List.mem_singleton.mp last])

theorem oldLacks (e : ListEdit) {p : Char → Bool} (blank : ∀ c, isBlank c = true → p c = false)
    (marks : ∀ c ∈ [',', '[', ']'], p c = false) : ∀ c ∈ e.old, p c = false := by
  intro c mem
  rcases e.oldChars c mem with gap | mark
  · exact blank c gap
  · exact marks c mark

theorem oldStarts (e : ListEdit) {p : Char → Bool} (lacks : ∀ c ∈ e.old, p c = false) :
    starts p e.old = false := by
  cases text : e.old with
  | nil => rfl
  | cons c rest => exact lacks c (by simp [text])

theorem ends (e : ListEdit) : (∃ x, e.old.reverse = ']' :: x) ∧ ∃ x, e.new.reverse = ']' :: x := by
  simp [old, new]

end ListEdit

theorem listNames (e : ListEdit) : ∀ c ∈ e.old, isNameChar c = false :=
  e.oldLacks (fun _ => Text.blankNotName) (by decide)

theorem listNoClose (e : ListEdit) : ')' ∉ e.old := by
  intro mem
  rcases e.oldChars _ mem with blank | mark
  · contradiction
  · simp at mark

theorem listNeutral : listSwaps.Neutral where
  some := by rintro b _ _ ⟨e, rfl, rfl⟩; simp [ListEdit.old, ListEdit.new]
  name := by
    rintro b _ _ ⟨e, rfl, rfl⟩ h
    rw [e.oldStarts (listNames e)] at h
    contradiction
  close := by
    rintro b _ _ ⟨e, rfl, rfl⟩
    apply e.oldStarts
    intro c mem
    rw [beq_eq_false_iff_ne]
    rintro rfl
    exact listNoClose e mem
  catches := by
    rintro b _ _ ⟨e, rfl, rfl⟩
    obtain ⟨⟨x, last⟩, -⟩ := e.ends
    rw [last]
    rfl
  nameEnd := by
    rintro b _ _ ⟨e, rfl, rfl⟩ h
    obtain ⟨⟨x, last⟩, -⟩ := e.ends
    rw [last] at h
    contradiction
  wordEnd := by
    rintro b _ _ ⟨e, rfl, rfl⟩ h
    obtain ⟨⟨x, last⟩, -⟩ := e.ends
    rw [last] at h
    contradiction

theorem listKeptOn {b x r u : Text} (h : Respelled listSwaps b ((x ++ [')']) ++ r) u)
    (absent : ']' ∉ x) :
    ∃ s, u = (x ++ [')']) ++ s ∧ Respelled listSwaps ((x ++ [')']).reverse ++ b) r s := by
  refine h.keptOn ?_
  rintro b _ _ ⟨e, rfl, -⟩ v some suffix y z same
  have closed : ')' ∈ v := Text.suffixLast suffix some
  rcases List.append_eq_append_iff.mp same with ⟨z', old, -⟩ | ⟨z', rfl, -⟩
  · exact listNoClose e (by simp [old, closed])
  · have mem : ']' ∈ x ++ [')'] := suffix.subset (by simp [ListEdit.old])
    simp [absent] at mem

theorem listClosing {b t u : Text} (h : Respelled listSwaps b t u)
    (close : starts (· == ')') (t.dropWhile isBlank) = true) :
    starts (· == ')') (u.dropWhile isBlank) = true := by
  cases rest : t.dropWhile isBlank with
  | nil => simp [rest] at close
  | cons c r =>
    have same : c = ')' := by simpa [rest] using close
    subst same
    have blank := Text.runAll isBlank t
    have parts : t = (t.takeWhile isBlank ++ [')']) ++ r := by
      rw [List.append_assoc, List.singleton_append, ← rest, List.takeWhile_append_dropWhile]
    rw [parts] at h
    obtain ⟨s, rfl, -⟩ := listKeptOn h (fun mem => absurd (blank _ mem) (by decide))
    rw [List.append_assoc, Text.runDropped blank (by rfl)]
    rfl

def steady (s : Substitution) : Bool :=
  s.steps.all Step.passesLists && Step.marked s.steps && Step.endsWithWord s.steps

theorem steadyMirrored {s : Substitution} (ok : steady s = true) : s.Mirrored listSwaps := by
  simp only [steady, Bool.and_eq_true, List.all_eq_true] at ok
  obtain ⟨⟨passes, -⟩, ends⟩ := ok
  apply Substitution.mirroredBy listNeutral listClosing
  intro bt bu t u f past h read
  obtain ⟨noComma, closes⟩ := Found.readPasses passes read
  rw [← Found.readKeeps read] at h
  obtain ⟨r, rfl, rest⟩ := h.keptWord (by
    rintro b _ _ ⟨e, -, rfl⟩ v some suffix y z same
    cases v with
    | nil => exact some rfl
    | cons c v =>
      obtain ⟨rfl, later⟩ := List.cons.inj same
      rcases e.marked with comma | ⟨bracket, path⟩
      · rw [comma] at suffix
        exact noComma (suffix.subset (by simp))
      · -- Behind the bracket stands the name, where the shape has the closing bracket.
        rw [bracket] at suffix
        have close := closes v suffix
        cases v with
        | nil => simp at close
        | cons d v =>
          cases fresh : e.fresh with
          | nil => simp [fresh] at path
          | cons d' rest =>
            rw [fresh] at later path
            obtain ⟨rfl, -⟩ := List.cons.inj later
            have same : d = ']' := by simpa using close
            subst same
            contradiction)
  exact ⟨_, _, (Found.readMoved ends read r).2, rest⟩

theorem markForeign {c : Char} (mark : Step.isMark c = true) :
    isPathChar c = false ∧ isBlank c = false ∧ c ≠ ']' := by
  have all : ∀ c ∈ [':', '=', '<', '{', '(', '|', '&'],
      isPathChar c = false ∧ isBlank c = false ∧ c ≠ ']' := by decide
  exact all c (by simpa [Step.isMark] using mark)

theorem steadyBlind {s : Substitution} (ok : steady s = true) : s.Blind listSwaps := by
  simp only [steady, Bool.and_eq_true] at ok
  rintro b _ _ x y u ⟨e, -, rfl⟩ split first some ⟨-, f, found, -⟩
  have read := Substitution.findRead found
  obtain ⟨p, c, q, old, mark, absent⟩ := Found.readMarked ok.1.2 read
  obtain ⟨notPath, notBlank, notClose⟩ := markForeign mark
  -- The place lies behind the mark of the edit, so up to the bracket there is no mark of a shape.
  have inside : ∃ v, y = v ++ [']'] ∧ v <:+ e.fresh := by
    cases x with
    | nil => exact absurd rfl first
    | cons d x =>
      obtain ⟨-, tail⟩ := List.cons.inj split
      rcases Text.suffixAppend ⟨x, tail.symm⟩ with last | ⟨v, -, inFresh, rfl⟩
      · rcases List.suffix_cons_iff.mp last with rfl | gone
        · exact ⟨[], rfl, List.nil_suffix⟩
        · exact absurd (List.suffix_nil.mp gone) some
      · exact ⟨v, rfl, inFresh⟩
  obtain ⟨v, rfl, inFresh⟩ := inside
  have text : v ++ ']' :: u = p ++ c :: (q ++ f.rest) := by
    have keeps := Found.readKeeps read
    rw [old] at keeps
    simpa using keeps.symm
  rcases List.append_eq_append_iff.mp text with ⟨z, rfl, rest⟩ | ⟨z, rfl, rest⟩
  · cases z with
    | nil => exact notClose (List.cons.inj rest).1.symm
    | cons d z =>
      obtain ⟨rfl, -⟩ := List.cons.inj rest
      exact absent (by simp)
  · cases z with
    | nil => exact notClose (List.cons.inj rest).1
    | cons d z =>
      obtain ⟨rfl, -⟩ := List.cons.inj rest
      rcases e.plain c (inFresh.subset (by simp)) with path | blank
      · simp [notPath] at path
      · simp [notBlank] at blank

theorem listQuiet : listSwaps.Quiet where
  some := by rintro b _ _ ⟨e, -, rfl⟩; simp [ListEdit.new]
  opening := by
    rintro b _ _ ⟨e, -, rfl⟩
    obtain ⟨-, x, last⟩ := e.ends
    rw [last]
    rfl
  word := by
    rintro b _ _ ⟨e, -, rfl⟩ v some suffix
    obtain ⟨-, x, last⟩ := e.ends
    rw [last]
    cases v with
    | nil => exact absurd rfl some
    | cons c v =>
      have other : ∀ c ∈ catchBackwards, (c != ']') = true := by decide
      simp [clash, other c (suffix.subset (by simp))]
  after := by
    rintro b _ _ ⟨e, -, rfl⟩
    obtain ⟨-, x, last⟩ := e.ends
    rw [last]
    rfl

theorem parameterOnLists {bt bu t u : Text} (past : Past listSwaps bt bu)
    (h : Respelled listSwaps bu t u) (param : Rule.ParameterFrom bt t) : Rule.ParameterFrom bu u := by
  induction h generalizing bt with
  | nil =>
    obtain ⟨x, y, split, some, -⟩ := param
    exact absurd (List.append_eq_nil_iff.mp split.symm).1 some
  | @keep bu t u c next ih =>
    rcases Rule.parameterCons param with ⟨tail, place⟩ | later
    · refine ⟨[c], u, rfl, by simp, Rule.tailOn ?_ next tail, listQuiet.place past place⟩
      rintro b _ _ ⟨e, rfl, -⟩
      exact ⟨listNoClose e, ']', by simp [ListEdit.old], by decide⟩
    · exact Rule.parameterLater (x := [c]) (ih (.keep c past) later)
  | @swap bu old new t u ok next ih =>
    -- No name ends in the stretch that is replaced, which has no name characters.
    have outside {y z : Text} (split : old = y ++ z) (some : y ≠ []) :
        Rule.parameterPlace (y.reverse ++ bt) = false := by
      obtain ⟨e, rfl, -⟩ := ok
      by_contra place
      have ends := Rule.placeEnds some (by simpa using place)
      obtain ⟨y', c, rfl⟩ := (List.eq_nil_or_concat y).resolve_left some
      have named : isNameChar c = true := by simpa using ends
      rw [listNames e c (by simp [split])] at named
      contradiction
    rcases Rule.parameterAppend param with ⟨y, z, split, some, -, -, place⟩ | ⟨some, -, place⟩ | later
    · rw [outside split some] at place
      contradiction
    · rw [outside (z := []) (by simp) some] at place
      contradiction
    · exact Rule.parameterLater (ih (.swap ok past) later)

theorem builtinSteady : ∀ s ∈ Rule.explicitAny.substitutions ++ Rule.emptyObjectType.substitutions,
    steady s = true := by decide

end Dependency
end LintRemedy
