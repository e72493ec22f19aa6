import LintRemedy.Tree
import Mathlib.Data.List.Basic

/-!
Paths as places in a tree. From a working directory, the components of a path alone say where it
leads, and a path that can be followed leads there. Replacing the text of a file moves nothing: every
path goes on leading to where it led, other files hold what they held, and replacements in different
files commute.
-/
namespace LintRemedy
open LintRemedy.Path (Component components parts)

namespace Path

def trail (path : String) : List Component :=
  ((parts path).filter fun p => p != [] && p != ['.']).map Component.ofPart

def isAbsolute (path : String) : Bool := path.toList.head? == some '/'

theorem relativeHead {path : String} (relative : ∀ rest, path.toList = '/' :: rest → False) :
    isAbsolute path = false := by
  rw [isAbsolute, beq_eq_false_iff_ne]
  intro slash
  obtain ⟨rest, text⟩ := List.head?_eq_some_iff.mp slash
  exact relative rest text

theorem componentsCases (path : String) :
    (isAbsolute path = true ∧ components path = .root :: trail path) ∨
    (isAbsolute path = false ∧
      (components path = .here :: trail path ∨ components path = trail path)) := by
  unfold components
  split
  case h_1 slash => exact .inl ⟨by simp [isAbsolute, slash], rfl⟩
  case h_2 relative => exact .inr ⟨relativeHead relative, .inl rfl⟩
  case h_3 relative _ => exact .inr ⟨relativeHead relative, .inr rfl⟩

end Path

namespace Tree

def enter (place : Names) : Component → Names
  | .root => []
  | .here => place
  | .parent => place.dropLast
  | .name n => place ++ [n]

def idlePart (part : Text) : Bool := part == [] || part == ['.']

theorem nextIdle {part : Text} (idle : idlePart part = true) (place : Names) :
    next place part = place := by
  simp only [idlePart, Bool.or_eq_true, beq_iff_eq] at idle
  rw [next, if_pos idle]

theorem nextEnter {part : Text} (busy : idlePart part = false) (place : Names) :
    next place part = enter place (.ofPart part) := by
  simp only [idlePart, Bool.or_eq_false_iff, beq_eq_false_iff_ne] at busy
  rw [next, if_neg (not_or.mpr busy), Component.ofPart]
  split <;> rfl

theorem nextTrail (ps : List Text) (place : Names) :
    ps.foldl next place =
      ((ps.filter fun p => p != [] && p != ['.']).map Component.ofPart).foldl enter place := by
  induction ps generalizing place with
  | nil => rfl
  | cons part ps ih =>
    have kept : (part != [] && part != ['.']) = !idlePart part := by
      simp [idlePart, bne]
    rw [List.foldl_cons, ih, List.filter_cons, kept]
    cases idle : idlePart part with
    | true =>
      rw [nextIdle idle]
      rfl
    | false =>
      rw [nextEnter idle]
      rfl

theorem targetTrail (base : Names) (path : String) :
    target base path = (Path.trail path).foldl enter (start base path) :=
  nextTrail (parts path) (start base path)

theorem startAbsolute (base : Names) (path : String) :
    start base path = if Path.isAbsolute path then [] else base := by
  simp [start, Path.isAbsolute]

theorem targetComponents (base : Names) (path : String) :
    target base path = (components path).foldl enter base := by
  rw [targetTrail, startAbsolute]
  rcases Path.componentsCases path with ⟨absolute, all⟩ | ⟨relative, dotted | plain⟩
  · rw [all, absolute]
    rfl
  · rw [dotted, relative]
    rfl
  · rw [plain, relative]
    rfl

theorem targetSame (base : Names) {a b : String} (same : Path.same a b = true) :
    target base a = target base b := by
  have equal : components a = components b := by simpa [Path.same] using same
  rw [targetComponents, targetComponents, equal]

def Apart (base : Names) (a b : String) : Prop := target base a ≠ target base b

theorem Apart.symm {base : Names} {a b : String} (apart : Apart base a b) : Apart base b a :=
  Ne.symm apart

instance (base : Names) (a b : String) : Decidable (Apart base a b) :=
  inferInstanceAs (Decidable (target base a ≠ target base b))

theorem stepTarget {tree : Tree} {place final : Names} {part : Text}
    (taken : tree.stepInto place part = .ok final) : final = next place part := by
  unfold stepInto at taken
  split at taken
  case h_1 =>
    unfold next
    by_cases idle : part = [] ∨ part = ['.']
    · rw [if_pos idle] at taken ⊢
      cases taken
      rfl
    · rw [if_neg idle] at taken ⊢
      by_cases parent : part = ['.', '.']
      · rw [if_pos parent] at taken ⊢
        cases taken
        rfl
      · rw [if_neg parent] at taken ⊢
        by_cases long : maxName < byteSize part
        · rw [if_pos long] at taken
          contradiction
        · rw [if_neg long] at taken
          cases entry : tree.entryAt? (place ++ [part]) with
          | none =>
            simp only [entry] at taken
            contradiction
          | some e =>
            simp only [entry] at taken
            cases taken
            rfl
  case h_2 => contradiction
  case h_3 => contradiction

theorem followTarget {tree : Tree} {place final : Names} {ps : List Text}
    (followed : tree.follow place ps = .ok final) : final = ps.foldl next place := by
  induction ps generalizing place with
  | nil =>
    cases followed
    rfl
  | cons part ps ih =>
    rw [follow] at followed
    cases step : tree.stepInto place part with
    | error cause =>
      rw [step] at followed
      contradiction
    | ok place' =>
      rw [step] at followed
      rw [List.foldl_cons, ← stepTarget step]
      exact ih followed

theorem resolveTarget {tree : Tree} {path : String} {place : Names}
    (found : tree.resolve path = .ok place) : place = target tree.base path := by
  unfold resolve at found
  split at found <;> try contradiction
  split at found <;> try contradiction
  split at found <;> try contradiction
  exact followTarget found

theorem fileAtIff {tree : Tree} {path : String} {place : Names} {c : Content} :
    tree.fileAt path = .ok (place, c) ↔
      tree.resolve path = .ok place ∧ tree.entryAt? place = some (.file c) := by
  unfold fileAt
  cases tree.resolve path with
  | error cause => simp [bind, Except.bind]
  | ok found =>
    simp only [bind, Except.bind, Except.ok.injEq]
    constructor
    · intro held
      split at held <;> try contradiction
      rename_i entry
      cases held
      exact ⟨rfl, entry⟩
    · rintro ⟨rfl, entry⟩
      simp only [entry]

theorem admittedIff {tree : Tree} {operation : Operation} {path : String} {place : Names}
    {c : Content} :
    tree.admitted operation path = .ok (place, c) ↔
      tree.fileAt path = .ok (place, c) ∧ tree.refusal? operation place = none := by
  unfold admitted
  cases tree.fileAt path with
  | error cause => simp [bind, Except.bind]
  | ok found =>
    obtain ⟨place', c'⟩ := found
    simp only [bind, Except.bind, Except.ok.injEq, Prod.mk.injEq]
    cases refused : tree.refusal? operation place' with
    | none =>
      simp only [Except.ok.injEq, Prod.mk.injEq, iff_self_and, and_imp]
      rintro rfl rfl
      exact refused
    | some r =>
      simp only [reduceCtorEq, false_iff, not_and, and_imp]
      rintro rfl rfl
      simp [refused]

theorem contentIff {tree : Tree} {path : String} {c : Content} :
    tree.content path = .ok c ↔
      tree.resolve path = .ok (target tree.base path) ∧
      tree.entryAt? (target tree.base path) = some (.file c) ∧
      tree.refusal? .read (target tree.base path) = none := by
  have found : tree.content path = .ok c ↔
      ∃ place, tree.admitted .read path = .ok (place, c) := by
    unfold content
    cases tree.admitted .read path with
    | error cause => simp [Except.map]
    | ok held =>
      obtain ⟨place, c'⟩ := held
      simp [Except.map]
  rw [found]
  constructor
  · rintro ⟨place, held⟩
    obtain ⟨at_, admitted⟩ := admittedIff.mp held
    obtain ⟨resolved, entry⟩ := fileAtIff.mp at_
    rw [← resolveTarget resolved]
    exact ⟨resolved, entry, admitted⟩
  · rintro ⟨resolved, entry, admitted⟩
    exact ⟨_, admittedIff.mpr ⟨fileAtIff.mpr ⟨resolved, entry⟩, admitted⟩⟩

theorem readContent {tree : Tree} {path : String} {t : Text} :
    tree.read path = .ok t ↔ tree.content path = .ok (.text t) := by
  unfold read
  cases tree.content path with
  | error cause => simp [bind, Except.bind]
  | ok c => cases c <;> simp [bind, Except.bind]

theorem readSame {a b : Tree} {path : String} (same : a.content path = b.content path) :
    a.read path = b.read path := by
  unfold read
  rw [same]

def kindAt (tree : Tree) (names : Names) : Option Bool :=
  (tree.entryAt? names).map (· == .directory)

structure Alike (a b : Tree) : Prop where
  base : a.base = b.base
  refusals : a.refusals = b.refusals
  kinds : ∀ names, a.kindAt names = b.kindAt names

theorem Alike.present {a b : Tree} (alike : Alike a b) (names : Names) :
    (a.entryAt? names).isSome = (b.entryAt? names).isSome := by
  have here := congrArg Option.isSome (alike.kinds names)
  simpa [kindAt] using here

theorem stepAlike {a b : Tree} (alike : Alike a b) (place : Names) (part : Text) :
    a.stepInto place part = b.stepInto place part := by
  have here := alike.kinds place
  unfold kindAt at here
  unfold stepInto
  cases left : a.entryAt? place with
  | none =>
    cases right : b.entryAt? place with
    | none => rfl
    | some e => simp [left, right] at here
  | some e =>
    cases right : b.entryAt? place with
    | none => simp [left, right] at here
    | some f =>
      have same : (e == .directory) = (f == .directory) := by simpa [left, right] using here
      cases e with
      | file c =>
        cases f with
        | file c' => rfl
        | directory => contradiction
      | directory =>
        cases f with
        | file c' => contradiction
        | directory =>
          have present := alike.present (place ++ [part])
          cases first : a.entryAt? (place ++ [part]) <;>
          cases second : b.entryAt? (place ++ [part]) <;> simp_all

theorem followAlike {a b : Tree} (alike : Alike a b) (place : Names) (ps : List Text) :
    a.follow place ps = b.follow place ps := by
  induction ps generalizing place with
  | nil => rfl
  | cons part ps ih =>
    rw [follow, follow, stepAlike alike]
    cases b.stepInto place part with
    | error cause => rfl
    | ok place' => exact ih place'

theorem resolveAlike {a b : Tree} (alike : Alike a b) (path : String) :
    a.resolve path = b.resolve path := by
  unfold resolve
  rw [followAlike alike, alike.base]

theorem refusalAlike {a b : Tree} (alike : Alike a b) (operation : Operation) (place : Names) :
    a.refusal? operation place = b.refusal? operation place := by
  rw [refusal?, alike.refusals]
  rfl

theorem contentAlike {a b : Tree} (alike : Alike a b) {path : String}
    (same : a.entryAt? (target b.base path) = b.entryAt? (target b.base path)) :
    a.content path = b.content path := by
  unfold content admitted fileAt
  rw [resolveAlike alike]
  cases found : b.resolve path with
  | error cause => rfl
  | ok place =>
    cases resolveTarget found
    simp only [bind, Except.bind, same, refusalAlike alike]

theorem putLookup (names other : Names) (e : Entry) (entries : List (Names × Entry)) :
    (put.go names e entries).lookup other =
      if other = names then some e else entries.lookup other := by
  induction entries with
  | nil =>
    by_cases same : other = names
    · simp [put.go, same]
    · simp [put.go, same, List.lookup_cons, beq_eq_false_iff_ne.mpr same]
  | cons entry entries ih =>
    obtain ⟨n, old⟩ := entry
    rw [put.go]
    by_cases first : n = names
    · subst first
      by_cases same : other = n
      · simp [same]
      · simp [same, List.lookup_cons, beq_eq_false_iff_ne.mpr same]
    · rw [if_neg first, List.lookup_cons, ih, List.lookup_cons]
      by_cases same : other = n
      · subst same
        simp [first]
      · simp [beq_eq_false_iff_ne.mpr same]

theorem fileInner {tree : Tree} {names : Names} {c : Content}
    (entry : tree.entryAt? names = some (.file c)) : names.isPrefixOf tree.base = false := by
  rw [entryAt?] at entry
  split at entry
  · cases Option.some.inj entry
  · rename_i inner
    exact eq_false_of_ne_true inner

theorem putEntry (tree : Tree) {names : Names} (inner : names.isPrefixOf tree.base = false)
    (e : Entry) (other : Names) :
    entryAt? (tree.put names e) other = if other = names then some e else tree.entryAt? other := by
  unfold entryAt? put
  simp only [putLookup]
  by_cases same : other = names
  · subst same
    simp [inner]
  · simp [same]

theorem putSwap {names other : Names} (apart : names ≠ other) (x y : Entry)
    {entries : List (Names × Entry)} (present : entries.lookup names ≠ none) :
    put.go other y (put.go names x entries) = put.go names x (put.go other y entries) := by
  induction entries with
  -- With no entry to replace, the two would be added at the end in different orders.
  | nil => exact absurd rfl present
  | cons entry entries ih =>
    obtain ⟨n, old⟩ := entry
    by_cases first : n = names
    · subst first
      simp [put.go, apart]
    · by_cases second : n = other
      · subst second
        simp [put.go, first]
      · have later : entries.lookup names ≠ none := by
          rw [List.lookup_cons, beq_eq_false_iff_ne.mpr (Ne.symm first)] at present
          exact present
        simp [put.go, first, second, ih later]

def bar? (tree : Tree) (path : String) : Option IoFailure :=
  (tree.refusal? .replace (target tree.base path)).map fun r => .other r.cause

section
variable {tree : Tree} {path : String} {old : Text} (held : tree.read path = .ok old)
include held

theorem writeEntry (t : Text) (names : Names) :
    (tree.write path t).entryAt? names =
      if names = target tree.base path then some (.file (.text t)) else tree.entryAt? names := by
  obtain ⟨-, entry, -⟩ := contentIff.mp (readContent.mp held)
  exact putEntry tree (fileInner entry) _ names

theorem writeAlike (t : Text) : Alike (tree.write path t) tree := by
  obtain ⟨-, entry, -⟩ := contentIff.mp (readContent.mp held)
  refine ⟨rfl, rfl, ?_⟩
  intro names
  rw [kindAt, kindAt, writeEntry held]
  split
  · rename_i same
    rw [same, entry]
    rfl
  · rfl

theorem writeRespelled {other : String} {u : Text} (readable : tree.read other = .ok u)
    (same : target tree.base other = target tree.base path) (t : Text) :
    (tree.write path t).content other = .ok (.text t) := by
  obtain ⟨found, -, admitted⟩ := contentIff.mp (readContent.mp readable)
  refine contentIff.mpr ⟨?_, ?_, admitted⟩
  · rw [resolveAlike (writeAlike held t)]
    exact found
  · rw [writeEntry held]
    exact if_pos same

theorem writeContent (t : Text) : (tree.write path t).content path = .ok (.text t) :=
  writeRespelled held held rfl t

theorem writeOther {other : String} (apart : Apart tree.base path other) (t : Text) :
    (tree.write path t).content other = tree.content other := by
  refine contentAlike (writeAlike held t) ?_
  rw [writeEntry held, if_neg apart.symm]

theorem writeSwap {other : String} (apart : Apart tree.base path other) (t t' : Text) :
    (tree.write path t).write other t' = (tree.write other t').write path t := by
  obtain ⟨-, entry, -⟩ := contentIff.mp (readContent.mp held)
  have present : tree.entries.lookup (target tree.base path) ≠ none := by
    rw [entryAt?, if_neg (by simp [fileInner entry])] at entry
    simp [entry]
  simp only [write, putAt, put, putSwap apart _ _ present]

theorem replaceHeld (t : Text) :
    tree.replace path t = match tree.bar? path with
      | some cause => (.error cause, tree)
      | none => (.ok (), tree.write path t) := by
  obtain ⟨found, entry, -⟩ := contentIff.mp (readContent.mp held)
  have at_ := fileAtIff.mpr ⟨found, entry⟩
  unfold replace bar? admitted
  rw [at_]
  simp only [bind, Except.bind]
  cases tree.refusal? .replace (target tree.base path) with
  | none => rfl
  | some r => rfl

end

end Tree
end LintRemedy
