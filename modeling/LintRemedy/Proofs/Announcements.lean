import LintRemedy.Dependency.Message
import LintRemedy.Proofs.Reading

/-!
The grammar of the messages that name missing dependencies. A chain is one quoted name or more, with
nothing but a link between two of them. The reader takes each name where it meets it and never goes
back, which is enough: a quote can only start a name, so a text has one chain that no other exceeds.
-/
namespace LintRemedy.Dependency.Message
open Text (after? afterIff)

def IsName (name : Text) : Prop := name ≠ [] ∧ '\'' ∉ name

instance (name : Text) : Decidable (IsName name) := inferInstanceAs (Decidable (_ ∧ _))

def quote (name : Text) : Text := '\'' :: name ++ ['\'']

-- Names may also follow each other with nothing in between.
def links : List Text := [[], ", ".toList, " and ".toList, ", and ".toList]

inductive Chain : List Text → Text → Prop where
  | one {name : Text} (named : IsName name) : Chain [name] (quote name)
  | link {name between t : Text} {names : List Text} (named : IsName name)
      (linked : between ∈ links) (rest : Chain names t) :
      Chain (name :: names) (quote name ++ between ++ t)

def Announces (message before t : Text) : Prop :=
  message = before ++ "missing dependency: ".toList ++ t ∨
    message = before ++ "missing dependencies: ".toList ++ t

structure FirstChain (message before t : Text) (names : List Text) : Prop where
  announced : ∃ rest, Announces message before (t ++ rest)
  chained : Chain names t
  first : ∀ before' t' rest' names', Announces message before' (t' ++ rest') → Chain names' t' →
    before.length ≤ before'.length
  longest : ∀ t' rest' names', Announces message before (t' ++ rest') → Chain names' t' → t' <+: t

theorem quotedIff {t name rest : Text} :
    quoted? t = some (name, rest) ↔ IsName name ∧ t = quote name ++ rest := by
  simp only [quoted?, bind, Option.bind_eq_some_iff, afterIff]
  constructor
  · rintro ⟨body, rfl, behind, closed, h⟩
    split at h <;> try contradiction
    rename_i some
    simp only [Option.some.injEq, Prod.mk.injEq] at h
    obtain ⟨rfl, rfl⟩ := h
    refine ⟨⟨some, ?_⟩, ?_⟩
    · intro mem
      simpa using Text.runAll _ body _ mem
    · have whole := List.takeWhile_append_dropWhile (p := (· != '\'')) (l := body)
      rw [closed] at whole
      simp only [quote, List.cons_append, List.append_assoc, List.nil_append] at whole ⊢
      rw [whole]
  · rintro ⟨⟨some, plain⟩, rfl⟩
    have all : ∀ c ∈ name, (c != '\'') = true := by
      intro c mem
      rw [bne_iff_ne]
      rintro rfl
      exact plain mem
    have stop : Text.starts (· != '\'') ('\'' :: rest) = false := by simp
    refine ⟨name ++ '\'' :: rest, by simp [quote], rest, ?_, ?_⟩
    · rw [Text.runDropped all stop]
      rfl
    · rw [Text.runTaken all stop, if_neg some]

theorem quotedName {name : Text} (named : IsName name) (rest : Text) :
    quoted? (quote name ++ rest) = some (name, rest) := quotedIff.mpr ⟨named, rfl⟩

theorem quoteUnique {name name' rest rest' : Text} (named : IsName name) (named' : IsName name')
    (same : quote name ++ rest = quote name' ++ rest') : name = name' ∧ rest = rest' := by
  have read := quotedName named rest
  rw [same, quotedName named'] at read
  simp only [Option.some.injEq, Prod.mk.injEq] at read
  exact ⟨read.1.symm, read.2.symm⟩

theorem separatorLink (t : Text) : ∃ between ∈ links, t = between ++ dropSeparator t := by
  unfold dropSeparator
  cases found : separators.findSome? (after? · t) with
  | none => exact ⟨[], by simp [links], rfl⟩
  | some rest =>
    obtain ⟨between, mem, read⟩ := List.exists_of_findSome?_eq_some found
    refine ⟨between, ?_, afterIff.mp read⟩
    simp only [separators, List.mem_cons, List.not_mem_nil, or_false] at mem
    simp only [links, List.mem_cons, List.not_mem_nil, or_false]
    tauto

theorem linkDropped {between : Text} (linked : between ∈ links) (t : Text) :
    dropSeparator (between ++ '\'' :: t) = '\'' :: t := by
  simp only [links, List.mem_cons, List.not_mem_nil, or_false] at linked
  rcases linked with rfl | rfl | rfl | rfl
  · rfl
  · rfl
  · rfl
  · rfl

theorem quotedShorter {t name rest : Text} (read : quoted? t = some (name, rest)) :
    (dropSeparator rest).length < t.length := by
  obtain ⟨-, rfl⟩ := quotedIff.mp read
  obtain ⟨between, -, split⟩ := separatorLink rest
  have lengths := congrArg List.length split
  simp only [quote, List.length_append, List.length_cons] at lengths ⊢
  omega

theorem chainWithinLength (n : Nat) (t : Text) (enough : t.length ≤ n) :
    chainWithin n t = chain t := by
  induction n using Nat.strong_induction_on generalizing t with
  | h n ih =>
    unfold chain
    cases n with
    | zero =>
      cases List.length_eq_zero_iff.mp (Nat.le_zero.mp enough)
      rfl
    | succ n =>
      cases t with
      | nil => rfl
      | cons c t =>
        simp only [List.length_cons, chainWithin]
        cases read : quoted? (c :: t) with
        | none => rfl
        | some pair =>
          obtain ⟨name, rest⟩ := pair
          have shorter := quotedShorter read
          simp only [List.length_cons] at shorter enough
          simp only
          rw [ih n (by omega) _ (by omega), ih t.length (by omega) _ (by omega)]

theorem chainUnquoted {t : Text} (read : quoted? t = none) : chain t = [] := by
  cases t with
  | nil => rfl
  | cons c t => simp [chain, chainWithin, read]

theorem chainQuoted {t name rest : Text} (read : quoted? t = some (name, rest)) :
    chain t = name :: chain (dropSeparator rest) := by
  have shorter := quotedShorter read
  cases t with
  | nil => simp at shorter
  | cons c t =>
    simp only [List.length_cons] at shorter
    simp only [chain, List.length_cons, chainWithin, read]
    rw [chainWithinLength _ _ (by omega)]
    rfl

def Stops (rest : Text) : Prop :=
  ∀ between ∈ links, ∀ name after, IsName name → rest ≠ between ++ quote name ++ after

theorem stopsIff {rest : Text} : Stops rest ↔ quoted? (dropSeparator rest) = none := by
  constructor
  · intro stops
    cases read : quoted? (dropSeparator rest) with
    | none => rfl
    | some pair =>
      obtain ⟨name, after⟩ := pair
      obtain ⟨named, next⟩ := quotedIff.mp read
      obtain ⟨between, linked, split⟩ := separatorLink rest
      refine absurd ?_ (stops between linked name after named)
      rw [List.append_assoc, ← next]
      exact split
  · intro none between linked name after named split
    have next : dropSeparator rest = quote name ++ after := by
      rw [split, List.append_assoc]
      exact linkDropped linked _
    rw [next, quotedName named] at none
    contradiction

namespace Chain
variable {names names' : List Text} {t t' rest rest' : Text}

theorem opens (chained : Chain names t) : ∃ name after, IsName name ∧ t = quote name ++ after := by
  cases chained with
  | one named => exact ⟨_, [], named, by simp⟩
  | link named linked rest => exact ⟨_, _, named, List.append_assoc _ _ _⟩

theorem quoteFirst (chained : Chain names t) : ∃ after, t = '\'' :: after := by
  obtain ⟨name, after, -, rfl⟩ := chained.opens
  exact ⟨_, rfl⟩

theorem linkSkipped (chained : Chain names t) {between : Text} (linked : between ∈ links)
    (rest : Text) : dropSeparator (between ++ (t ++ rest)) = t ++ rest := by
  obtain ⟨after, rfl⟩ := chained.quoteFirst
  exact linkDropped linked _

theorem read (chained : Chain names t) (stops : Stops rest) : chain (t ++ rest) = names := by
  induction chained with
  | one named =>
    rw [chainQuoted (quotedName named rest), chainUnquoted (stopsIff.mp stops)]
  | link named linked chained ih =>
    rw [List.append_assoc, List.append_assoc, chainQuoted (quotedName named _),
      chained.linkSkipped linked, ih]

theorem exceeds (chained : Chain names t) (stops : Stops rest) (other : Chain names' t')
    (same : t' ++ rest' = t ++ rest) : t' <+: t := by
  induction chained generalizing names' t' with
  | one named =>
    cases other with
    | one named' =>
      obtain ⟨rfl, -⟩ := quoteUnique named' named same
      exact List.prefix_refl _
    | link named' linked' chained' =>
      -- The other chain would go on where this one stops.
      rw [List.append_assoc, List.append_assoc] at same
      obtain ⟨-, behind⟩ := quoteUnique named' named same
      obtain ⟨name, after, named'', rfl⟩ := chained'.opens
      refine absurd ?_ (stops _ linked' name (after ++ rest') named'')
      simpa using behind.symm
  | link named linked chained ih =>
    rw [List.append_assoc (quote _ ++ _), List.append_assoc (quote _)] at same
    cases other with
    | one named' =>
      obtain ⟨rfl, -⟩ := quoteUnique named' named same
      rw [List.append_assoc]
      exact List.prefix_append _ _
    | link named' linked' chained' =>
      rw [List.append_assoc, List.append_assoc] at same
      obtain ⟨rfl, behind⟩ := quoteUnique named' named same
      have next := congrArg dropSeparator behind
      rw [chained.linkSkipped linked, chained'.linkSkipped linked'] at next
      rw [next, List.append_left_inj] at behind
      rw [behind]
      exact (List.prefix_append_right_inj _).mpr (ih chained' next)

theorem append (chained : Chain names t) {between name : Text} (linked : between ∈ links)
    (named : IsName name) : Chain (names ++ [name]) (t ++ (between ++ quote name)) := by
  induction chained with
  | one first =>
    rw [← List.append_assoc]
    exact .link first linked (.one named)
  | link first linked' rest ih =>
    rw [List.append_assoc]
    exact .link first linked' ih

end Chain

theorem chainFrom (t : Text) (some : chain t ≠ []) :
    ∃ x rest, t = x ++ rest ∧ Chain (chain t) x ∧ Stops rest := by
  induction length : t.length using Nat.strong_induction_on generalizing t with
  | h n ih =>
    cases read : quoted? t with
    | none => exact absurd (chainUnquoted read) some
    | some pair =>
      obtain ⟨name, rest⟩ := pair
      have shorter := quotedShorter read
      rw [chainQuoted read]
      obtain ⟨named, rfl⟩ := quotedIff.mp read
      cases next : quoted? (dropSeparator rest) with
      | none =>
        rw [chainUnquoted next]
        exact ⟨quote name, rest, rfl, .one named, stopsIff.mpr next⟩
      | some pair =>
        have more : chain (dropSeparator rest) ≠ [] := by simp [chainQuoted next]
        obtain ⟨x, behind, split, chained, stops⟩ := ih _ (length ▸ shorter) _ more rfl
        obtain ⟨between, linked, all⟩ := separatorLink rest
        refine ⟨quote name ++ between ++ x, behind, ?_, .link named linked chained, stops⟩
        rw [List.append_assoc, List.append_assoc, ← split, ← all]

theorem chainIff {t : Text} : chain t ≠ [] ↔ ∃ x rest names, t = x ++ rest ∧ Chain names x := by
  constructor
  · intro some
    obtain ⟨x, rest, split, chained, -⟩ := chainFrom t some
    exact ⟨x, rest, _, split, chained⟩
  · rintro ⟨x, rest, names, rfl, chained⟩
    obtain ⟨name, after, named, rfl⟩ := chained.opens
    rw [List.append_assoc, chainQuoted (quotedName named _)]
    simp

theorem announcesCons {c : Char} {message before t : Text}
    (announced : Announces (c :: message) before t) :
    before = [] ∨ ∃ before', before = c :: before' ∧ Announces message before' t := by
  cases before with
  | nil => exact .inl rfl
  | cons d before =>
    simp only [Announces, List.cons_append, List.cons.injEq] at announced
    rcases announced with ⟨rfl, here⟩ | ⟨rfl, here⟩
    · exact .inr ⟨before, rfl, .inl here⟩
    · exact .inr ⟨before, rfl, .inr here⟩

theorem Announces.cons {message before t : Text} (announced : Announces message before t)
    (c : Char) : Announces (c :: message) (c :: before) t := by
  rcases announced with rfl | rfl
  · exact .inl rfl
  · exact .inr rfl

theorem namesAtAnnounced {message t : Text} (announced : Announces message [] t) :
    namesAt message = chain t := by
  rcases announced with rfl | rfl
  · rfl
  · rfl

theorem namesAtFrom {message : Text} (some : namesAt message ≠ []) :
    ∃ t, Announces message [] t := by
  unfold namesAt at some
  split at some
  · rename_i t found
    obtain ⟨announcement, mem, read⟩ := List.exists_of_findSome?_eq_some found
    simp only [announcements, List.mem_cons, List.not_mem_nil, or_false] at mem
    refine ⟨t, ?_⟩
    rcases mem with rfl | rfl
    · exact .inl (afterIff.mp read)
    · exact .inr (afterIff.mp read)
  · contradiction

theorem missingFirst {message : Text} {names : List Text} (read : missing? message = some names) :
    ∃ before t, Announces message before t ∧ chain t = names ∧ names ≠ [] ∧
      ∀ before' t', Announces message before' t' → chain t' ≠ [] →
        before.length ≤ before'.length := by
  induction message with
  | nil => contradiction
  | cons c message ih =>
    rw [missing?] at read
    split at read
    · rename_i nothing
      obtain ⟨before, t, announced, chained, some, first⟩ := ih read
      refine ⟨c :: before, t, announced.cons c, chained, some, ?_⟩
      intro before' t' announced' some'
      rcases announcesCons announced' with rfl | ⟨before'', rfl, later⟩
      · rw [← namesAtAnnounced announced', nothing] at some'
        contradiction
      · simpa using first before'' t' later some'
    · rename_i here
      cases Option.some.inj read
      obtain ⟨t, announced⟩ := namesAtFrom here
      exact ⟨[], t, announced, (namesAtAnnounced announced).symm, here, by simp⟩

theorem missingNoneIff {message : Text} :
    missing? message = none ↔ ∀ before t, Announces message before t → chain t = [] := by
  constructor
  · intro read
    induction message with
    | nil =>
      intro before t announced
      rcases announced with empty | empty
      · simp at empty
      · simp at empty
    | cons c message ih =>
      intro before t announced
      rw [missing?] at read
      split at read <;> try contradiction
      rename_i nothing
      rcases announcesCons announced with rfl | ⟨before', rfl, later⟩
      · rw [← namesAtAnnounced announced, nothing]
      · exact ih read before' t later
  · intro nothing
    cases read : missing? message with
    | none => rfl
    | some names =>
      obtain ⟨before, t, announced, chained, some, -⟩ := missingFirst read
      exact absurd (chained.symm.trans (nothing before t announced)) some

theorem announcesUnique {message before before' t t' : Text}
    (announced : Announces message before t) (announced' : Announces message before' t')
    (level : before.length = before'.length) :
    before = before' ∧ t = t' := by
  have apart : Text.clash "missing dependency: ".toList "missing dependencies: ".toList = true := by
    decide +kernel
  rcases announced with rfl | rfl
  · rcases announced' with same | same
    · simp only [List.append_assoc] at same
      obtain ⟨rfl, rest⟩ := List.append_inj same level
      exact ⟨rfl, List.append_cancel_left rest⟩
    · simp only [List.append_assoc] at same
      exact absurd (List.append_inj same level).2 (Text.clashApart apart t t')
  · rcases announced' with same | same
    · simp only [List.append_assoc] at same
      exact absurd (List.append_inj same level).2.symm (Text.clashApart apart t' t)
    · simp only [List.append_assoc] at same
      obtain ⟨rfl, rest⟩ := List.append_inj same level
      exact ⟨rfl, List.append_cancel_left rest⟩

theorem FirstChain.stops {message before t rest : Text} {names : List Text}
    (first : FirstChain message before t names) (announced : Announces message before (t ++ rest)) :
    Stops rest := by
  intro between linked name after named split
  have longer := first.chained.append linked named
  rw [split, ← List.append_assoc] at announced
  have within := (first.longest _ _ _ announced longer).length_le
  simp only [quote, List.length_append, List.length_cons] at within
  omega

theorem missingIff {message : Text} {names : List Text} :
    missing? message = some names ↔ ∃ before t, FirstChain message before t names := by
  constructor
  · intro read
    obtain ⟨before, whole, announced, rfl, some, first⟩ := missingFirst read
    obtain ⟨t, rest, rfl, chained, stops⟩ := chainFrom whole some
    refine ⟨before, t, ⟨rest, announced⟩, chained, ?_, ?_⟩
    · intro before' t' rest' names' announced' chained'
      exact first before' _ announced' (chainIff.mpr ⟨t', rest', names', rfl, chained'⟩)
    · intro t' rest' names' announced' chained'
      exact chained.exceeds stops chained' (announcesUnique announced' announced rfl).2
  · rintro ⟨before, t, first⟩
    obtain ⟨rest, announced⟩ := first.announced
    have some : chain (t ++ rest) ≠ [] := chainIff.mpr ⟨t, rest, names, rfl, first.chained⟩
    cases read : missing? message with
    | none => exact absurd (missingNoneIff.mp read before _ announced) some
    | some names' =>
      obtain ⟨before', whole, announced', rfl, some', first'⟩ := missingFirst read
      -- Neither announcement comes before the other, so they are the same.
      obtain ⟨t', rest', rfl, chained', -⟩ := chainFrom whole some'
      have level : before.length = before'.length :=
        Nat.le_antisymm (first.first _ _ _ _ announced' chained') (first' _ _ announced some)
      obtain ⟨-, same⟩ := announcesUnique announced announced' level
      rw [← same, first.chained.read (first.stops announced)]

def announcing : Text := "missing dependenc".toList

theorem Announces.starts {message before t : Text} (announced : Announces message before t) :
    ∃ behind, message = before ++ (announcing ++ behind) := by
  have one : "missing dependency: ".toList = announcing ++ "y: ".toList := by decide +kernel
  have many : "missing dependencies: ".toList = announcing ++ "ies: ".toList := by decide +kernel
  rcases announced with rfl | rfl
  · exact ⟨"y: ".toList ++ t, by rw [one, List.append_assoc, List.append_assoc]⟩
  · exact ⟨"ies: ".toList ++ t, by rw [many, List.append_assoc, List.append_assoc]⟩

theorem Announces.first {message before before' t t' : Text}
    (announced : Announces message before t) (plain : ¬ announcing <:+: before)
    (announced' : Announces message before' t') :
    before.length ≤ before'.length := by
  obtain ⟨behind, whole⟩ := announced.starts
  obtain ⟨behind', same⟩ := announced'.starts
  rw [whole] at same
  rcases List.append_eq_append_iff.mp same with ⟨v, rfl, -⟩ | ⟨v, rfl, rest⟩
  · simp
  · by_cases empty : v = []
    · simp [empty]
    rcases List.append_eq_append_iff.mp rest with ⟨u, rfl, -⟩ | ⟨u, cut, beyond⟩
    · exact absurd ⟨before', u, by simp⟩ plain
    · by_cases last : u = []
      · refine absurd ⟨before', [], ?_⟩ plain
        simpa [last] using cut
      -- Nothing that the words start with is found inside of them.
      have suffix : u <:+ announcing := ⟨v, cut.symm⟩
      rcases Text.wordSuffix (by decide +kernel) suffix last with same | apart
      · rw [same] at cut
        exact absurd (List.self_eq_append_left.mp cut) empty
      · exact absurd beyond (Text.clashApart apart behind behind')

theorem missingChained {before t rest : Text} {names : List Text} {message : Text}
    (plain : ¬ announcing <:+: before) (chained : Chain names t) (stops : Stops rest)
    (announced : Announces message before (t ++ rest)) : missing? message = some names := by
  refine missingIff.mpr ⟨before, t, ⟨rest, announced⟩, chained, ?_, ?_⟩
  · intro before' t' rest' names' announced' chained'
    exact announced.first plain announced'
  · intro t' rest' names' announced' chained'
    exact chained.exceeds stops chained' (announcesUnique announced' announced rfl).2

theorem fullStop (rest : Text) : Stops ('.' :: rest) := stopsIff.mpr rfl

def series : List Text → Text
  | [] => []
  | [a] => quote a
  | [a, b] => quote a ++ ", and ".toList ++ quote b
  | a :: names => quote a ++ ", ".toList ++ series names

def enumeration : List Text → Text
  | [a, b] => quote a ++ " and ".toList ++ quote b
  | names => series names

def announcement (names : List Text) : Text :=
  (if names.length = 1 then "missing dependency: ".toList else "missing dependencies: ".toList) ++
    enumeration names

theorem seriesChain {names : List Text} (some : names ≠ []) (named : ∀ name ∈ names, IsName name) :
    Chain names (series names) := by
  induction names using series.induct with
  | case1 => contradiction
  | case2 a => exact .one (named a (by simp))
  | case3 a b =>
    exact .link (named a (by simp)) (by simp [links]) (.one (named b (by simp)))
  | case4 a names one two ih =>
    have more : names ≠ [] := fun empty => one (by rw [empty])
    rw [series]
    · have rest := ih more fun name mem => named name (by simp [mem])
      exact .link (named a (by simp)) (by simp [links]) rest
    · exact one
    · exact two

theorem enumerationChain {names : List Text} (some : names ≠ [])
    (named : ∀ name ∈ names, IsName name) : Chain names (enumeration names) := by
  unfold enumeration
  split
  · exact .link (named _ (by simp)) (by simp [links]) (.one (named _ (by simp)))
  · exact seriesChain some named

theorem announcementAnnounces (before : Text) (names : List Text) (rest : Text) :
    Announces (before ++ announcement names ++ rest) before (enumeration names ++ rest) := by
  unfold announcement
  split
  · exact .inl (by simp only [List.append_assoc])
  · exact .inr (by simp only [List.append_assoc])

/-- A message gives the names of the longest chain behind the first announcement that a chain
follows, and none at all if no announcement has a chain behind it. So the names come back from any
spelling of them that a full stop ends, whatever else the message quotes before and after it. -/
theorem missingReadsChain (message : Text) :
    (∀ names, missing? message = some names ↔ ∃ before t, FirstChain message before t names) ∧
    (missing? message = none ↔
      ∀ before t rest names, Announces message before (t ++ rest) → ¬ Chain names t) ∧
    (∀ before t rest names, ¬ announcing <:+: before → Chain names t →
      Announces message before (t ++ '.' :: rest) → missing? message = some names) ∧
    ∀ before rest names, ¬ announcing <:+: before → names ≠ [] → (∀ name ∈ names, IsName name) →
      message = before ++ announcement names ++ '.' :: rest → missing? message = some names := by
  refine ⟨fun names => missingIff, ?_, ?_, ?_⟩
  · rw [missingNoneIff]
    constructor
    · intro nothing before t rest names announced chained
      exact chainIff.mpr ⟨t, rest, names, rfl, chained⟩ (nothing before _ announced)
    · intro nothing before t announced
      by_contra some
      obtain ⟨x, rest, names, rfl, chained⟩ := chainIff.mp some
      exact nothing before x rest names announced chained
  · intro before t rest names plain chained announced
    exact missingChained plain chained (fullStop rest) announced
  · rintro before rest names plain some named rfl
    have announced := announcementAnnounces before names ('.' :: rest)
    exact missingChained plain (enumerationChain some named) (fullStop rest) announced

theorem missingReadsThree :
    let names := ["a, b".toList, "it".toList, "props.c".toList]
    ¬ announcing <:+: "The hook 'useMemo' has ".toList ∧ (∀ name ∈ names, IsName name) ∧
    missing? ("The hook 'useMemo' has missing dependencies: 'a, b', 'it', and 'props.c'. " ++
      "Include 'x' or 'y'.").toList = some names := by
  intro names
  have plain : ¬ announcing <:+: "The hook 'useMemo' has ".toList := by decide +kernel
  have named : ∀ name ∈ names, IsName name := by decide +kernel
  refine ⟨plain, named, ?_⟩
  refine (missingReadsChain _).2.2.2 _ " Include 'x' or 'y'.".toList names plain ?_ named ?_
  · decide +kernel
  · decide +kernel

end LintRemedy.Dependency.Message
