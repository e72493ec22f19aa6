import LintRemedy.Proofs.EditCounts
import LintRemedy.Proofs.Merging
import Mathlib.Data.List.Forall2

/-!
Mending the files of a report at the same time. A worker is the mending of one file read as a list
of queries, each of which is answered at once by the tree that all workers share; a schedule says who
is next. Each worker keeps to its own file, so a query of one commutes with all that another does, and
every schedule ends as if the files were mended one after the other.
-/
namespace LintRemedy

inductive Query where
  | read (path : String)
  | kind (path : String)
  | replace (path : String) (t : Text)
  | create (path : String)
  | fill (path : String) (t : Text)
  | remove (path : String)

namespace Query

abbrev Answer : Query → Type
  | read _ => Except IoFailure Text
  | kind _ => Option EntryKind
  | replace _ _ => Except IoFailure Unit
  | create _ => Except IoFailure Unit
  | fill _ _ => Except IoFailure Unit
  | remove _ => Except IoFailure Unit

def perform (tree : Tree) : (q : Query) → q.Answer × Tree
  | read path => (tree.read path, tree)
  | kind path => (tree.kind path, tree)
  | replace path t => tree.replace path t
  | create path => tree.create path
  | fill path t => tree.fill path t
  | remove path => tree.remove path

end Query

inductive Work (α : Type) where
  | done (a : α)
  | ask (q : Query) (next : q.Answer → Work α)

/-- What a worker meets at its file: what reading gives, and what keeps the system from replacing
it. -/
structure Outlook where
  read : Except IoFailure Text
  bar? : Option IoFailure

def Outlook.answer (x : Outlook) : Except IoFailure Unit :=
  match x.bar? with
  | some cause => .error cause
  | none => .ok ()

namespace Work
variable {α β : Type}

def andThen : Work α → (α → Work β) → Work β
  | done a, f => f a
  | ask q next, f => ask q fun x => (next x).andThen f

instance : Monad Work where
  pure := done
  bind := andThen

def fileSystem : FileSystem Work where
  read path := .ask (.read path) .done
  kind path := .ask (.kind path) .done
  replace path t := .ask (.replace path t) .done
  create path := .ask (.create path) .done
  fill path t := .ask (.fill path t) .done
  remove path := .ask (.remove path) .done

def advance : Work α → Tree → Work α × Tree
  | done a, tree => (done a, tree)
  | ask q next, tree => (next (q.perform tree).1, (q.perform tree).2)

def complete : Work α → Tree → α × Tree
  | done a, tree => (a, tree)
  | ask q next, tree => (next (q.perform tree).1).complete (q.perform tree).2

def isDone : Work α → Bool
  | done _ => true
  | ask _ _ => false

theorem advanceComplete (w : Work α) (tree : Tree) :
    (w.advance tree).1.complete (w.advance tree).2 = w.complete tree := by
  cases w <;> rfl

/-- The worker reads no file but its own, and replaces it at most once and last, and only if it can
be read. -/
inductive Confined (path : String) (x : Outlook) : Work α → Prop where
  | done (a : α) : Confined path x (.done a)
  | read {next : Except IoFailure Text → Work α} (rest : Confined path x (next x.read)) :
      Confined path x (.ask (.read path) next)
  | replace {old : Text} (readable : x.read = .ok old) (t : Text)
      (result : Except IoFailure Unit → α) :
      Confined path x (.ask (.replace path t) fun stored => .done (result stored))

end Work

namespace Tree

def outlook (tree : Tree) (path : String) : Outlook := ⟨tree.read path, tree.bar? path⟩

def revise (tree : Tree) (path : String) : Option Text → Tree
  | none => tree
  | some t => tree.write path t

theorem reviseBase (tree : Tree) (path : String) (o : Option Text) :
    (tree.revise path o).base = tree.base := by
  cases o <;> rfl

theorem replaceOutlook {tree : Tree} {path : String} {x : Outlook} (here : tree.outlook path = x)
    {old : Text} (readable : x.read = .ok old) (t : Text) :
    tree.replace path t =
      (x.answer, tree.revise path (if x.bar? = none then some t else none)) := by
  subst here
  rw [replaceHeld readable]
  unfold Outlook.answer outlook
  cases tree.bar? path with
  | none => rfl
  | some cause => rfl

/-- The action keeps to its file: where this has the outlook `x`, it answers `b` and does nothing to
the tree but to revise the file, and that only if it can be read. -/
structure Local {β : Type} (path : String) (x : Outlook) (act : Tree → β × Tree) (b : β)
    (o : Option Text) : Prop where
  readable : ∀ {t}, o = some t → ∃ old, x.read = .ok old
  acts : ∀ {tree : Tree}, tree.outlook path = x → act tree = (b, tree.revise path o)

section
variable {β γ : Type} {path other : String} {x y : Outlook}
  {act : Tree → β × Tree} {act' : Tree → γ × Tree} {b : β} {b' : γ} {o o' : Option Text} {tree : Tree}

theorem Local.elsewhere (local_ : Local path x act b o) (here : tree.outlook path = x)
    (apart : Apart tree.base path other) :
    (tree.revise path o).content other = tree.content other := by
  cases o with
  | none => rfl
  | some t =>
    obtain ⟨old, readable⟩ := local_.readable rfl
    subst here
    exact writeOther readable apart t

theorem Local.outlook (local_ : Local path x act b o) (here : tree.outlook path = x)
    (apart : Apart tree.base path other) :
    (tree.revise path o).outlook other = tree.outlook other := by
  have read : (tree.revise path o).read other = tree.read other :=
    readSame (local_.elsewhere here apart)
  have bar : (tree.revise path o).bar? other = tree.bar? other := by cases o <;> rfl
  rw [Tree.outlook, read, bar]
  rfl

theorem Local.swap (first : Local path x act b o) (second : Local other y act' b' o')
    (apart : Apart tree.base path other) (here : tree.outlook path = x)
    (there : tree.outlook other = y) :
    act' (act tree).2 = (b', (act (act' tree).2).2) ∧ (act (act' tree).2).1 = b := by
  have there' : (tree.revise path o).outlook other = y := (first.outlook here apart).trans there
  have here' : (tree.revise other o').outlook path = x :=
    (second.outlook there apart.symm).trans here
  rw [first.acts here, second.acts there, second.acts there', first.acts here']
  refine ⟨?_, rfl⟩
  cases o with
  | none => rfl
  | some t =>
    cases o' with
    | none => rfl
    | some t' =>
      obtain ⟨old, readable⟩ := first.readable rfl
      subst here
      simp only [revise, writeSwap readable apart]

def heldAfter (before : Except IoFailure Content) : Option Text → Except IoFailure Content
  | none => before
  | some t => .ok (.text t)

theorem Local.own (local_ : Local path x act b o) (here : tree.outlook path = x) :
    (tree.revise path o).content path = heldAfter (tree.content path) o := by
  cases o with
  | none => rfl
  | some t =>
    obtain ⟨old, readable⟩ := local_.readable rfl
    subst here
    exact writeContent readable t

end
end Tree

namespace Work
open LintRemedy.Tree (Apart Local)
variable {α : Type} {path : String} {x : Outlook} {w : Work α}

theorem Confined.advances (confined : w.Confined path x) :
    ∃ w' o, Local path x w.advance w' o ∧ ∀ {tree : Tree}, tree.outlook path = x →
      w'.Confined path ((tree.revise path o).outlook path) := by
  cases confined with
  | done a => exact ⟨.done a, none, ⟨by simp, fun _ => rfl⟩, fun _ => .done a⟩
  | @read next rest =>
    refine ⟨next x.read, none, ⟨by simp, ?_⟩, ?_⟩
    · intro tree here
      subst here
      rfl
    · intro tree here
      subst here
      exact rest
  | replace readable t result =>
    refine ⟨.done (result x.answer), if x.bar? = none then some t else none,
      ⟨fun _ => ⟨_, readable⟩, ?_⟩, fun _ => .done _⟩
    intro tree here
    simp only [advance, Query.perform, Tree.replaceOutlook here readable]

theorem Confined.completes (confined : w.Confined path x) :
    ∃ a o, Local path x w.complete a o := by
  induction confined with
  | done a => exact ⟨a, none, by simp, fun _ => rfl⟩
  | read rest ih =>
    obtain ⟨a, o, local_⟩ := ih
    refine ⟨a, o, local_.readable, ?_⟩
    intro tree here
    have answer : tree.read path = x.read := congrArg Outlook.read here
    simp only [complete, Query.perform, answer]
    exact local_.acts here
  | replace readable t result =>
    refine ⟨result x.answer, if x.bar? = none then some t else none, fun _ => ⟨_, readable⟩, ?_⟩
    intro tree here
    simp only [complete, Query.perform, Tree.replaceOutlook here readable]

def Within : Nat → Work α → Prop
  | 0, w => w.isDone = true
  | n + 1, w => ∀ tree, Within n (w.advance tree).1

theorem withinDone (a : α) (n : Nat) : Within n (.done a) := by
  induction n with
  | zero => rfl
  | succ n ih => exact fun _ => ih

end Work

structure Crew where
  tree : Tree
  workers : List (Work FileResult)

namespace Crew
open LintRemedy.Tree (Apart Local)

def turn (crew : Crew) (i : Nat) : Crew :=
  match crew.workers[i]? with
  | none => crew
  | some w => ⟨(w.advance crew.tree).2, crew.workers.set i (w.advance crew.tree).1⟩

def run (crew : Crew) (turns : List Nat) : Crew := turns.foldl turn crew

def finished (crew : Crew) : Bool := crew.workers.all Work.isDone

def inOrder : List (Work FileResult) → Tree → List FileResult × Tree
  | [], tree => ([], tree)
  | w :: ws, tree =>
    let (r, tree) := w.complete tree
    let (rs, tree) := inOrder ws tree
    (r :: rs, tree)

def OnTask (groups : List Group) (tree : Tree) (workers : List (Work FileResult)) : Prop :=
  List.Forall₂ (fun g w => Work.Confined g.path (tree.outlook g.path) w) groups workers

theorem turnFirst (tree : Tree) (w : Work FileResult) (ws : List (Work FileResult)) :
    turn ⟨tree, w :: ws⟩ 0 = ⟨(w.advance tree).2, (w.advance tree).1 :: ws⟩ := rfl

theorem turnLater (tree : Tree) (w : Work FileResult) (ws : List (Work FileResult)) (i : Nat) :
    turn ⟨tree, w :: ws⟩ (i + 1) = ⟨(turn ⟨tree, ws⟩ i).tree, w :: (turn ⟨tree, ws⟩ i).workers⟩ := by
  unfold turn
  simp only [List.getElem?_cons_succ, List.set_cons_succ]
  cases ws[i]? with
  | none => rfl
  | some v => rfl

theorem onTaskAfter {β : Type} {path : String} {tree : Tree} {act : Tree → β × Tree} {b : β}
    {o : Option Text} (local_ : Local path (tree.outlook path) act b o) {groups : List Group}
    {ws : List (Work FileResult)} (others : ∀ g ∈ groups, Apart tree.base path g.path)
    (onTask : OnTask groups tree ws) : OnTask groups (tree.revise path o) ws := by
  unfold OnTask at onTask ⊢
  induction onTask with
  | nil => exact .nil
  | cons first rest ih =>
    refine .cons ?_ (ih fun g mem => others g (by simp [mem]))
    rw [local_.outlook rfl (others _ (by simp))]
    exact first

section
variable {groups : List Group}

theorem turnLocal {tree : Tree} {ws : List (Work FileResult)} (onTask : OnTask groups tree ws)
    (i : Nat) :
    turn ⟨tree, ws⟩ i = ⟨tree, ws⟩ ∨
    ∃ g ∈ groups, ∃ w w' o, ws[i]? = some w ∧
      Local g.path (tree.outlook g.path) w.advance w' o ∧
      turn ⟨tree, ws⟩ i = ⟨tree.revise g.path o, ws.set i w'⟩ := by
  cases at_ : ws[i]? with
  | none => exact .inl (by simp [turn, at_])
  | some w =>
    obtain ⟨inside, rfl⟩ := List.getElem?_eq_some_iff.mp at_
    have inside' : i < groups.length := by rw [onTask.length_eq]; exact inside
    have confined : Work.Confined groups[i].path (tree.outlook groups[i].path) ws[i] :=
      onTask.get inside' inside
    obtain ⟨w', o, local_, -⟩ := confined.advances
    refine .inr ⟨groups[i], List.getElem_mem inside', ws[i], w', o, rfl, local_, ?_⟩
    simp only [turn, at_, local_.acts rfl]

theorem turnBase {tree : Tree} {ws : List (Work FileResult)} (onTask : OnTask groups tree ws)
    (i : Nat) : (turn ⟨tree, ws⟩ i).tree.base = tree.base := by
  rcases turnLocal onTask i with idle | ⟨g, -, w, w', o, -, -, moved⟩
  · rw [idle]
  · rw [moved]
    exact tree.reviseBase g.path o

theorem turnOnTask {tree : Tree} (apart : groups.Pairwise fun g h => Apart tree.base g.path h.path)
    {ws : List (Work FileResult)} (onTask : OnTask groups tree ws) (i : Nat) :
    OnTask groups (turn ⟨tree, ws⟩ i).tree (turn ⟨tree, ws⟩ i).workers := by
  induction groups generalizing ws i with
  | nil =>
    cases onTask
    exact .nil
  | cons g groups ih =>
    obtain ⟨others, apart'⟩ := List.pairwise_cons.mp apart
    cases onTask with
    | @cons _ w _ ws first rest =>
      cases i with
      | zero =>
        obtain ⟨w', o, local_, next⟩ := first.advances
        rw [turnFirst, local_.acts rfl]
        exact .cons (next rfl) (onTaskAfter local_ others rest)
      | succ i =>
        rw [turnLater]
        refine .cons ?_ (ih apart' rest i)
        rcases turnLocal rest i with idle | ⟨h, mem, v, v', o, -, local_, moved⟩
        · rw [idle]
          exact first
        · rw [moved, local_.outlook rfl (others h mem).symm]
          exact first

theorem turnInOrder {tree : Tree} (apart : groups.Pairwise fun g h => Apart tree.base g.path h.path)
    {ws : List (Work FileResult)} (onTask : OnTask groups tree ws) (i : Nat) :
    inOrder (turn ⟨tree, ws⟩ i).workers (turn ⟨tree, ws⟩ i).tree = inOrder ws tree := by
  induction groups generalizing tree ws i with
  | nil =>
    cases onTask
    rfl
  | cons g groups ih =>
    obtain ⟨others, apart'⟩ := List.pairwise_cons.mp apart
    cases onTask with
    | @cons _ w _ ws first rest =>
      cases i with
      | zero =>
        rw [turnFirst]
        simp only [inOrder, Work.advanceComplete]
      | succ i =>
        rw [turnLater]
        -- The first worker would have been done before, and all it does commutes with the query.
        obtain ⟨a, o, whole⟩ := first.completes
        have rest' : OnTask groups (w.complete tree).2 ws := by
          rw [whole.acts rfl]
          exact onTaskAfter whole others rest
        have base' : (w.complete tree).2.base = tree.base := by
          rw [whole.acts rfl]
          exact tree.reviseBase g.path o
        have later := ih (base' ▸ apart') rest' i
        rcases turnLocal rest i with idle | ⟨h, mem, v, v', o', at_, local_, moved⟩
        · rw [idle]
        · obtain ⟨after, same⟩ := whole.swap local_ (others h mem) rfl rfl
          have moved' : turn ⟨(w.complete tree).2, ws⟩ i =
              ⟨(w.complete (v.advance tree).2).2, ws.set i v'⟩ := by
            simp only [turn, at_, after]
          have first' : (w.complete tree).1 = a := by rw [whole.acts rfl]
          rw [moved'] at later
          rw [moved]
          have shared : tree.revise h.path o' = (v.advance tree).2 := by rw [local_.acts rfl]
          simp only [inOrder, shared, same, later, first']

theorem runInOrder {tree : Tree} (apart : groups.Pairwise fun g h => Apart tree.base g.path h.path)
    {ws : List (Work FileResult)} (onTask : OnTask groups tree ws) (turns : List Nat) :
    inOrder (run ⟨tree, ws⟩ turns).workers (run ⟨tree, ws⟩ turns).tree = inOrder ws tree := by
  induction turns generalizing tree ws with
  | nil => rfl
  | cons i turns ih =>
    have next := ih ((turnBase onTask i).symm ▸ apart) (turnOnTask apart onTask i)
    exact next.trans (turnInOrder apart onTask i)

end

theorem finishedInOrder {ws : List (Work FileResult)} (all : ws.all Work.isDone = true)
    (tree : Tree) : ws = (inOrder ws tree).1.map .done ∧ (inOrder ws tree).2 = tree := by
  induction ws with
  | nil => exact ⟨rfl, rfl⟩
  | cons w ws ih =>
    obtain ⟨first, rest⟩ := Bool.and_eq_true_iff.mp all
    obtain ⟨workers, same⟩ := ih rest
    cases w with
    | done r => exact ⟨congrArg (Work.done r :: ·) workers, same⟩
    | ask q next => contradiction

theorem turnWithin {crew : Crew} {j n : Nat} {w : Work FileResult} (at_ : crew.workers[j]? = some w)
    (within : w.Within n) (i : Nat) :
    ∃ w', (crew.turn i).workers[j]? = some w' ∧ w'.Within (n - if i = j then 1 else 0) := by
  obtain ⟨inside, rfl⟩ := List.getElem?_eq_some_iff.mp at_
  by_cases own : i = j
  · subst own
    refine ⟨(crew.workers[i].advance crew.tree).1, ?_, ?_⟩
    · simp [turn, inside]
    · rw [if_pos rfl]
      cases n with
      | zero =>
        cases idle : crew.workers[i] with
        | done r => rfl
        | ask q next => simp [Work.Within, idle, Work.isDone] at within
      | succ n => exact within crew.tree
  · refine ⟨crew.workers[j], ?_, by rw [if_neg own]; exact within⟩
    unfold turn
    split
    · exact at_
    · rw [List.getElem?_set_ne own, at_]

theorem runWithin {crew : Crew} {j n : Nat} {w : Work FileResult} (at_ : crew.workers[j]? = some w)
    (within : w.Within n) (turns : List Nat) :
    ∃ w', (crew.run turns).workers[j]? = some w' ∧ w'.Within (n - turns.count j) := by
  induction turns generalizing crew n w with
  | nil => exact ⟨w, at_, within⟩
  | cons i turns ih =>
    obtain ⟨w', there, within'⟩ := turnWithin at_ within i
    obtain ⟨w'', last, done⟩ := ih there within'
    refine ⟨w'', last, ?_⟩
    have left : n - (i :: turns).count j = n - (if i = j then 1 else 0) - turns.count j := by
      rw [List.count_cons]
      simp only [beq_iff_eq]
      omega
    rw [left]
    exact done

theorem turnLength (crew : Crew) (i : Nat) :
    (crew.turn i).workers.length = crew.workers.length := by
  unfold turn
  split
  · rfl
  · simp

theorem runLength (crew : Crew) (turns : List Nat) :
    (crew.run turns).workers.length = crew.workers.length := by
  induction turns generalizing crew with
  | nil => rfl
  | cons i turns ih => exact (ih (crew.turn i)).trans (turnLength crew i)

theorem runFinishes {crew : Crew} (short : ∀ w ∈ crew.workers, w.Within 2) {turns : List Nat}
    (fair : ∀ i < crew.workers.length, 2 ≤ turns.count i) : (crew.run turns).finished = true := by
  rw [finished, List.all_eq_true]
  intro w mem
  obtain ⟨i, inside, rfl⟩ := List.getElem_of_mem mem
  have inside' : i < crew.workers.length := by rwa [runLength] at inside
  obtain ⟨w', there, within⟩ := runWithin (List.getElem?_eq_getElem inside')
    (short _ (List.getElem_mem inside')) turns
  have spent : 2 - turns.count i = 0 := Nat.sub_eq_zero_of_le (fair i inside')
  rw [spent] at within
  have same : (crew.run turns).workers[i] = w' := by
    simpa [List.getElem?_eq_getElem inside] using there
  rw [same]
  exact within

end Crew

namespace Mender
open LintRemedy.Tree (Apart Local)

def fileResult (m : Mender) (g : Group) (x : Outlook) : FileResult :=
  if m.options.excludes g.path then leave g
  else
    let r := m.resultOf g x.read
    if r.status = .written then r.stored x.answer else r

def newText (m : Mender) (g : Group) (x : Outlook) : Option Text :=
  if (m.fileResult g x).status = .written then some (m.fileResult g x).after else none

theorem mendFileWork (m : Mender) (g : Group) :
    m.mendFile Work.fileSystem g =
      if m.options.excludes g.path then .done (leave g)
      else .ask (.read g.path) fun x =>
        if (m.resultOf g x).status = .written
        then .ask (.replace g.path (m.resultOf g x).after) fun stored =>
          .done ((m.resultOf g x).stored stored)
        else .done (m.resultOf g x) := by
  unfold mendFile
  split
  · rfl
  · rfl

theorem writtenReadable {m : Mender} {g : Group} {x : Except IoFailure Text}
    (written : (m.resultOf g x).status = .written) : ∃ old, x = .ok old := by
  cases x with
  | error cause => simp [resultOf] at written
  | ok old => exact ⟨old, rfl⟩

theorem mendFileConfined (m : Mender) (g : Group) (x : Outlook) :
    (m.mendFile Work.fileSystem g).Confined g.path x := by
  rw [mendFileWork]
  split
  · exact .done _
  · refine .read ?_
    split
    case isTrue written =>
      obtain ⟨old, readable⟩ := writtenReadable written
      exact .replace readable _ _
    case isFalse => exact .done _

theorem mendFileShort (m : Mender) (g : Group) : (m.mendFile Work.fileSystem g).Within 2 := by
  rw [mendFileWork]
  split
  · exact Work.withinDone _ 2
  · intro tree
    change Work.Within 1 (if (m.resultOf g (tree.read g.path)).status = .written then _ else _)
    split
    · exact fun _ => rfl
    · exact Work.withinDone _ 1

theorem storedStatus {r : FileResult} (written : r.status = .written) (x : Outlook) :
    (r.stored x.answer).status = .written ↔ x.bar? = none := by
  unfold Outlook.answer
  cases x.bar? with
  | none => simp [FileResult.stored, written]
  | some cause => simp [FileResult.stored]

theorem storedAfter (r : FileResult) (stored : Except IoFailure Unit) :
    (r.stored stored).after = r.after := by
  cases stored <;> rfl

theorem newTextWritten {m : Mender} {g : Group} {x : Outlook}
    (included : m.options.excludes g.path = false)
    (written : (m.resultOf g x.read).status = .written) :
    m.newText g x = if x.bar? = none then some (m.resultOf g x.read).after else none := by
  unfold newText fileResult
  simp only [included, Bool.false_eq_true, written, ↓reduceIte, storedAfter, storedStatus written]

theorem mendFileLocal (m : Mender) (g : Group) (x : Outlook) :
    Local g.path x (m.mendFile Work.fileSystem g).complete (m.fileResult g x) (m.newText g x) := by
  rw [mendFileWork]
  cases included : m.options.excludes g.path with
  | true =>
    have none : m.newText g x = none := by simp [newText, fileResult, included, leave]
    rw [none]
    exact ⟨by simp, fun _ => by simp [Work.complete, fileResult, included, Tree.revise]⟩
  | false =>
    simp only [Bool.false_eq_true, ↓reduceIte]
    by_cases written : (m.resultOf g x.read).status = .written
    · obtain ⟨old, readable⟩ := writtenReadable written
      refine ⟨fun _ => ⟨old, readable⟩, ?_⟩
      intro tree here
      have answer : tree.read g.path = x.read := congrArg Outlook.read here
      simp only [Work.complete, Query.perform, answer, written, ↓reduceIte,
        Tree.replaceOutlook here readable, newTextWritten included written]
      simp [fileResult, included, written]
    · have none : m.newText g x = none := by simp [newText, fileResult, included, written]
      rw [none]
      refine ⟨by simp, ?_⟩
      intro tree here
      have answer : tree.read g.path = x.read := congrArg Outlook.read here
      simp only [Work.complete, Query.perform, answer, written, ↓reduceIte]
      simp [fileResult, included, written, Tree.revise]

theorem mendFileComplete (m : Mender) (g : Group) (tree : Tree) :
    (m.mendFile Work.fileSystem g).complete tree = (m.mendFile Tree.fileSystem g).run tree := by
  rw [mendFileWork]
  cases excluded : m.options.excludes g.path with
  | true =>
    simp only [mendFile, excluded, ↓reduceIte]
    rfl
  | false =>
    rw [mendFileRun m excluded]
    by_cases written : (m.resultOf g (tree.read g.path)).status = .written
    · simp only [Bool.false_eq_true, ↓reduceIte, Work.complete, Query.perform, written]
    · simp only [Bool.false_eq_true, ↓reduceIte, Work.complete, Query.perform, written]

theorem mendAllInOrder (m : Mender) (groups : List Group) (tree : Tree) :
    Crew.inOrder (groups.map (m.mendFile Work.fileSystem)) tree =
      (m.mendAll Tree.fileSystem groups).run tree := by
  induction groups generalizing tree with
  | nil => rfl
  | cons g groups ih =>
    rw [List.map_cons, Crew.inOrder]
    simp only [mendFileComplete, ih]
    rfl

section
variable (m : Mender) {groups : List Group}

theorem inOrderElsewhere (tree : Tree) {path : String}
    (apart : ∀ g ∈ groups, Apart tree.base g.path path) :
    (Crew.inOrder (groups.map (m.mendFile Work.fileSystem)) tree).2.content path =
      tree.content path := by
  induction groups generalizing tree with
  | nil => rfl
  | cons g groups ih =>
    have first := m.mendFileLocal g (tree.outlook g.path)
    simp only [List.map_cons, Crew.inOrder, first.acts rfl]
    rw [ih _ (fun g mem => by rw [Tree.reviseBase]; exact apart g (by simp [mem]))]
    exact first.elsewhere rfl (apart g (by simp))

theorem inOrderFiles {tree : Tree}
    (apart : groups.Pairwise fun g h => Apart tree.base g.path h.path) :
    (Crew.inOrder (groups.map (m.mendFile Work.fileSystem)) tree).1 =
      groups.map (fun g => m.fileResult g (tree.outlook g.path)) ∧
    ∀ g ∈ groups, (Crew.inOrder (groups.map (m.mendFile Work.fileSystem)) tree).2.content g.path =
      Tree.heldAfter (tree.content g.path) (m.newText g (tree.outlook g.path)) := by
  induction groups generalizing tree with
  | nil => exact ⟨rfl, by simp⟩
  | cons g groups ih =>
    obtain ⟨others, apart'⟩ := List.pairwise_cons.mp apart
    have first := m.mendFileLocal g (tree.outlook g.path)
    have frame : ∀ h ∈ groups,
        (tree.revise g.path (m.newText g (tree.outlook g.path))).content h.path =
          tree.content h.path := fun h mem => first.elsewhere rfl (others h mem)
    have ahead : ∀ h ∈ groups,
        (tree.revise g.path (m.newText g (tree.outlook g.path))).outlook h.path =
          tree.outlook h.path := fun h mem => first.outlook rfl (others h mem)
    have base := tree.reviseBase g.path (m.newText g (tree.outlook g.path))
    obtain ⟨results, contents⟩ := ih (base.symm ▸ apart')
    simp only [List.map_cons, Crew.inOrder, first.acts rfl]
    constructor
    · rw [results]
      congr 1
      apply List.map_congr_left
      intro h mem
      rw [ahead h mem]
    · intro h mem
      rcases List.mem_cons.mp mem with rfl | later
      · rw [inOrderElsewhere m _ (fun h' mem => by rw [base]; exact (others h' mem).symm)]
        exact first.own rfl
      · rw [contents h later, frame h later, ahead h later]

end

def crew (m : Mender) (tree : Tree) (report : Report) : Crew :=
  ⟨tree, report.merged.map (m.mendFile Work.fileSystem)⟩

theorem crewOnTask (m : Mender) (tree : Tree) (groups : List Group) :
    Crew.OnTask groups tree (groups.map (m.mendFile Work.fileSystem)) := by
  unfold Crew.OnTask
  rw [List.forall₂_map_right_iff, List.forall₂_same]
  intro g _
  exact m.mendFileConfined g _

/-- However the workers of a report take turns, they end with the results and the tree of mending
one file after the other, and they do end once each has had two turns. The result of a file and what
it holds in the end come from its own group and from what was met there at first: what reading it
gave, and what kept the system from replacing it, if anything did. No other file changes. -/
theorem mendReportAnySchedule (m : Mender) (tree : Tree) (report : Report)
    (apart : report.merged.FilesApart tree.base) :
    (∀ turns, ((m.crew tree report).run turns).finished = true →
      (m.crew tree report).run turns =
        ⟨((m.mendReport Tree.fileSystem report).run tree).2,
          ((m.mendReport Tree.fileSystem report).run tree).1.map .done⟩) ∧
    (∀ turns : List Nat, (∀ i < report.merged.length, 2 ≤ turns.count i) →
      ((m.crew tree report).run turns).finished = true) ∧
    ((m.mendReport Tree.fileSystem report).run tree).1 =
      report.merged.map (fun g => m.fileResult g ⟨tree.read g.path, tree.bar? g.path⟩) ∧
    (∀ g ∈ report.merged, ((m.mendReport Tree.fileSystem report).run tree).2.content g.path =
      Tree.heldAfter (tree.content g.path)
        (m.newText g ⟨tree.read g.path, tree.bar? g.path⟩)) ∧
    ∀ path, (∀ g ∈ report.merged, Apart tree.base g.path path) →
      ((m.mendReport Tree.fileSystem report).run tree).2.content path = tree.content path := by
  have inOrder : Crew.inOrder (report.merged.map (m.mendFile Work.fileSystem)) tree =
      (m.mendReport Tree.fileSystem report).run tree := m.mendAllInOrder report.merged tree
  obtain ⟨results, contents⟩ := m.inOrderFiles apart
  rw [inOrder] at results contents
  refine ⟨?_, ?_, results, contents, ?_⟩
  · intro turns finished
    have same := Crew.runInOrder apart (m.crewOnTask tree report.merged) turns
    obtain ⟨workers, last⟩ := Crew.finishedInOrder finished ((m.crew tree report).run turns).tree
    unfold crew at workers last ⊢
    rw [same, inOrder] at workers last
    rw [← workers, last]
  · intro turns fair
    refine Crew.runFinishes ?_ (by simpa [crew] using fair)
    intro w mem
    obtain ⟨g, -, rfl⟩ := List.mem_map.mp mem
    exact m.mendFileShort g
  · intro path others
    rw [← inOrder]
    exact m.inOrderElsewhere tree others

def sharedTree : Tree where
  base := ["work".toList]
  entries :=
    [(["work".toList, "a.ts".toList], .file (.text "let a: any;\nuse(a, []);".toList)),
      (["work".toList, "b.ts".toList], .file (.text "let b: any;".toList)),
      (["lib".toList], .directory),
      (["lib".toList, "c.ts".toList], .file (.text "let c: any;".toList))]
  refusals := [⟨.replace, ["work".toList, "b.ts".toList], "Permission denied (os error 13)", 0⟩]

def sharedReport : Report :=
  [⟨"/work/a.ts", [typeFinding Rule.noExplicitAny]⟩, ⟨"gone.ts", []⟩,
    ⟨"b.ts", [typeFinding Rule.noExplicitAny]⟩, ⟨"../lib/c.ts", [typeFinding Rule.noExplicitAny]⟩]

theorem mendReportFourWorkers :
    sharedReport.merged.FilesApart sharedTree.base ∧
    ((standard.crew sharedTree sharedReport).run [2, 0, 1, 3, 0, 1, 3, 2]).finished = true ∧
    ((standard.crew sharedTree sharedReport).run [2, 0, 1, 3, 0, 1, 3, 2]).tree.entries =
      [(["work".toList, "a.ts".toList], .file (.text "let a: unknown;\nuse(a, []);".toList)),
        (["work".toList, "b.ts".toList], .file (.text "let b: any;".toList)),
        (["lib".toList], .directory),
        (["lib".toList, "c.ts".toList], .file (.text "let c: unknown;".toList))] ∧
    ((standard.mendReport Tree.fileSystem sharedReport).run sharedTree).1.map FileResult.status =
      [.written, .failed .missing, .failed (.other "Permission denied (os error 13)"), .written] := by
  have apart : sharedReport.merged.FilesApart sharedTree.base := by decide +kernel
  obtain ⟨same, ends, results, -⟩ := mendReportAnySchedule standard sharedTree sharedReport apart
  have finished := ends [2, 0, 1, 3, 0, 1, 3, 2] (by decide +kernel)
  refine ⟨apart, finished, ?_, ?_⟩
  · rw [same _ finished]
    decide +kernel
  · rw [results]
    decide +kernel

end Mender
end LintRemedy
