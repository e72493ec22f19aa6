import LintRemedy.Proofs.Decoding

/-!
Loading a report group by group. What becomes of a group does not depend on its neighbours, but for
its index in a complaint; a report is loaded if all its groups are, and otherwise the first group
that cannot be loaded says why.
-/
namespace LintRemedy

def ReportFault.moved (index : Nat) : ReportFault → ReportFault
  | group _ cause => group index cause
  | noPath _ => noPath index
  | fault => fault

namespace Report

def Unloadable (v : Json) : Prop :=
  (∀ path messages, ¬ GroupStands v path messages) ∨
    ∃ path messages, GroupStands v path messages ∧ (path = none ∨ path = some "")

theorem groupMoved (index : Nat) (v : Json) :
    group index v = (group 0 v).mapError (·.moved index) := by
  unfold group
  split
  · rfl
  · rfl
  · split
    · rfl
    · rfl

theorem groupOkIff {index : Nat} {v : Json} {g : Group} :
    group index v = .ok g ↔ ∃ messages, GroupStands v (some g.path) messages ∧ g.path ≠ "" ∧
      g.diagnostics = messages.map (Message.diagnostic g.path) := by
  simp only [← groupOfJsonIff]
  unfold group
  split
  · rename_i failed
    simp [failed]
  · rename_i found
    simp [found]
  · rename_i path messages found
    simp only [found, Except.ok.injEq, Prod.mk.injEq, Option.some.injEq]
    split
    · rename_i empty
      simp only [reduceCtorEq, false_iff]
      rintro ⟨ms, ⟨rfl, -⟩, some, -⟩
      exact some empty
    · rename_i some
      constructor
      · intro same
        cases Except.ok.inj same
        exact ⟨messages, ⟨rfl, rfl⟩, some, rfl⟩
      · rintro ⟨ms, ⟨rfl, rfl⟩, -, all⟩
        rw [← all]

theorem groupErrorIff (index : Nat) {v : Json} :
    (∃ fault, group index v = .error fault) ↔ Unloadable v := by
  simp only [Unloadable, ← groupOfJsonIff]
  unfold group
  split
  · rename_i failed
    simp [failed]
  · rename_i found
    simp [found]
  · rename_i path messages found
    simp only [found, Except.ok.injEq, Prod.mk.injEq]
    split
    · rename_i empty
      simp [empty]
    · rename_i some
      simp [some]

theorem groupLoads (v : Json) : (∃ g, group 0 v = .ok g) ↔ ¬ Unloadable v := by
  rw [← groupErrorIff 0]
  cases group 0 v with
  | error fault => simp
  | ok g => simp

theorem groupUnmoved {v : Json} {fault : ReportFault} (failed : group 0 v = .error fault) :
    fault.moved 0 = fault := by
  have same := groupMoved 0 v
  rw [failed] at same
  exact (Except.error.inj same).symm

theorem groupFault {v : Json} {fault : ReportFault} (failed : group 0 v = .error fault) :
    ∃ cause, ∀ words index,
      (fault.moved index).message words = "group " ++ toString index ++ cause := by
  unfold group at failed
  split at failed
  · rename_i cause _
    cases Except.error.inj failed
    refine ⟨": " ++ cause.message, ?_⟩
    intro words index
    simp only [ReportFault.moved, ReportFault.message, String.append_assoc]
  · cases Except.error.inj failed
    exact ⟨" has no filePath", fun words index => rfl⟩
  · split at failed <;> try contradiction
    cases Except.error.inj failed
    exact ⟨" has no filePath", fun words index => rfl⟩

theorem groupsStop {v : Json} {own : ReportFault} (failed : group 0 v = .error own) (index : Nat)
    (vs : List Json) : groupsFrom index (v :: vs) = .error (own.moved index) := by
  rw [groupsFrom, groupMoved, failed]
  rfl

theorem groupsNext {v : Json} {g : Group} (loaded : group 0 v = .ok g) (index : Nat)
    (vs : List Json) :
    groupsFrom index (v :: vs) = groupsFrom (index + 1) vs >>= fun gs => .ok (g :: gs) := by
  rw [groupsFrom, groupMoved, loaded]
  rfl

theorem groupsOkIff {index : Nat} {vs : List Json} {report : Report} :
    groupsFrom index vs = .ok report ↔ List.Forall₂ (fun v g => group 0 v = .ok g) vs report := by
  induction vs generalizing index report with
  | nil => simp [groupsFrom, eq_comm]
  | cons v vs ih =>
    rw [List.forall₂_cons_left_iff]
    cases here : group 0 v with
    | error own => simp [groupsStop here]
    | ok g =>
      simp only [groupsNext here, Decode.bindOk, ih, Except.ok.injEq]
      constructor
      · intro ⟨gs, rest, same⟩
        exact ⟨g, gs, rfl, rest, same.symm⟩
      · intro ⟨g', gs, first, rest, same⟩
        exact ⟨gs, rest, by rw [same, first]⟩

theorem groupsErrorIff {index : Nat} {vs : List Json} {fault : ReportFault} :
    groupsFrom index vs = .error fault ↔ ∃ i v own, vs[i]? = some v ∧
      (∀ j < i, ∀ w, vs[j]? = some w → ∃ g, group 0 w = .ok g) ∧
      group 0 v = .error own ∧ fault = own.moved (index + i) := by
  induction vs generalizing index with
  | nil => simp [groupsFrom]
  | cons v vs ih =>
    cases here : group 0 v with
    | error own =>
      rw [groupsStop here]
      constructor
      · intro failed
        cases Except.error.inj failed
        exact ⟨0, v, own, rfl, by simp, here, rfl⟩
      · intro ⟨i, w, own', at_, before, failed, moved⟩
        cases i with
        | zero =>
          cases Option.some.inj at_
          rw [here] at failed
          cases Except.error.inj failed
          rw [moved]
          rfl
        | succ i =>
          obtain ⟨g, loaded⟩ := before 0 (Nat.zero_lt_succ i) v rfl
          rw [here] at loaded
          contradiction
    | ok g =>
      have rest : groupsFrom index (v :: vs) = .error fault ↔
          groupsFrom (index + 1) vs = .error fault := by
        rw [groupsNext here]
        cases groupsFrom (index + 1) vs with
        | error other => rfl
        | ok gs => exact ⟨(nomatch ·), (nomatch ·)⟩
      rw [rest, ih]
      constructor
      · intro ⟨i, w, own, at_, before, failed, moved⟩
        refine ⟨i + 1, w, own, at_, ?_, failed, by rw [moved, Nat.add_right_comm, Nat.add_assoc]⟩
        intro j early u there
        cases j with
        | zero => exact ⟨g, Option.some.inj there ▸ here⟩
        | succ j => exact before j (Nat.lt_of_succ_lt_succ early) u there
      · intro ⟨i, w, own, at_, before, failed, moved⟩
        cases i with
        | zero =>
          cases Option.some.inj at_
          rw [here] at failed
          contradiction
        | succ i =>
          refine ⟨i, w, own, at_, ?_, failed, by rw [moved, Nat.add_right_comm, Nat.add_assoc]⟩
          exact fun j early u there => before (j + 1) (Nat.succ_lt_succ early) u there

theorem aloneOk {v : Json} {g : Group} : ofJson (.arr [v]) = .ok [g] ↔ group 0 v = .ok g := by
  rw [ofJson, groupsOkIff]
  simp

theorem aloneError {v : Json} {own : ReportFault} :
    ofJson (.arr [v]) = .error own ↔ group 0 v = .error own := by
  rw [ofJson]
  cases here : group 0 v with
  | error fault =>
    rw [groupsStop here, groupUnmoved here]
    simp only [Except.error.injEq]
  | ok g =>
    rw [groupsNext here]
    exact ⟨(nomatch ·), (nomatch ·)⟩

structure Loads (v : Json) (g : Group) : Prop where
  alone : ofJson (.arr [v]) = .ok [g]
  named : g.path ≠ ""
  given : ∃ messages, GroupStands v (some g.path) messages ∧
    g.diagnostics = messages.map (Message.diagnostic g.path)
  own : ∀ d ∈ g.diagnostics, d.path = g.path

theorem loadsIff {v : Json} {g : Group} : group 0 v = .ok g ↔ Loads v g := by
  constructor
  · intro loaded
    obtain ⟨messages, stands, named, all⟩ := groupOkIff.mp loaded
    refine ⟨aloneOk.mpr loaded, named, ⟨messages, stands, all⟩, ?_⟩
    intro d mem
    rw [all] at mem
    obtain ⟨m, -, made⟩ := List.mem_map.mp mem
    rw [← made]
    rfl
  · intro loads
    exact aloneOk.mp loads.alone

def FirstFault (groups : List Json) (fault : ReportFault) : Prop :=
  ∃ i v own cause, groups[i]? = some v ∧ Unloadable v ∧
    (∀ j < i, ∀ w, groups[j]? = some w → ¬ Unloadable w) ∧
    ofJson (.arr [v]) = .error own ∧ fault = own.moved i ∧
    ∀ words, own.message words = "group " ++ toString 0 ++ cause ∧
      fault.message words = "group " ++ toString i ++ cause

theorem firstFaultIff {groups : List Json} {fault : ReportFault} :
    ofJson (.arr groups) = .error fault ↔ FirstFault groups fault := by
  rw [ofJson, groupsErrorIff]
  constructor
  · intro ⟨i, v, own, at_, before, failed, moved⟩
    rw [Nat.zero_add] at moved
    obtain ⟨cause, text⟩ := groupFault failed
    have unloadable := (groupErrorIff 0).mp ⟨own, failed⟩
    refine ⟨i, v, own, cause, at_, unloadable, ?_, aloneError.mpr failed, moved, fun words => ⟨?_, ?_⟩⟩
    · exact fun j early w there => (groupLoads w).mp (before j early w there)
    · rw [← text words 0, groupUnmoved failed]
    · rw [moved, text words i]
  · intro ⟨i, v, own, cause, at_, _, before, failed, moved, _⟩
    refine ⟨i, v, own, at_, ?_, aloneError.mp failed, by rw [moved, Nat.zero_add]⟩
    exact fun j early w there => (groupLoads w).mpr (before j early w there)

theorem loadedIff {groups : List Json} {report : Report} :
    ofJson (.arr groups) = .ok report ↔ List.Forall₂ Loads groups report := by
  rw [ofJson, groupsOkIff]
  exact ⟨List.Forall₂.imp fun _ _ => loadsIff.mp, List.Forall₂.imp fun _ _ => loadsIff.mpr⟩

theorem unloadableIff {groups : List Json} :
    (∃ fault, ofJson (.arr groups) = .error fault) ↔ ∃ v ∈ groups, Unloadable v := by
  constructor
  · intro ⟨fault, failed⟩
    obtain ⟨i, v, _, _, at_, unloadable, _⟩ := firstFaultIff.mp failed
    exact ⟨v, List.mem_of_getElem? at_, unloadable⟩
  · intro ⟨v, mem, unloadable⟩
    cases loaded : ofJson (.arr groups) with
    | error fault => exact ⟨fault, rfl⟩
    | ok report =>
      have all := groupsOkIff.mp loaded
      obtain ⟨i, inside, rfl⟩ := List.getElem_of_mem mem
      have here := all.get inside (all.length_eq ▸ inside)
      exact absurd unloadable ((groupLoads _).mp ⟨_, here⟩)

/-- A value fails to load exactly if it is no array or one of its groups cannot be loaded. In an
array the first such group decides on the complaint, with its index and the words that it has on its
own, and otherwise every group is loaded as it is on its own. -/
theorem loadsPointwise (v : Json) :
    ((∃ fault, ofJson v = .error fault) ↔
      (∀ groups, v ≠ .arr groups) ∨ ∃ groups, v = .arr groups ∧ ∃ g ∈ groups, Unloadable g) ∧
    ((∀ groups, v ≠ .arr groups) → ofJson v = .error .notAnArray) ∧
    ∀ groups, v = .arr groups →
      (∀ fault, ofJson v = .error fault ↔ FirstFault groups fault) ∧
      ∀ report, ofJson v = .ok report ↔ List.Forall₂ Loads groups report := by
  have other : (∀ groups, v ≠ .arr groups) → ofJson v = .error .notAnArray := by
    intro none
    cases v with
    | arr groups => exact absurd rfl (none groups)
    | _ => rfl
  refine ⟨?_, other, ?_⟩
  · constructor
    · intro failed
      by_cases array : ∃ groups, v = .arr groups
      · obtain ⟨groups, rfl⟩ := array
        exact .inr ⟨groups, rfl, unloadableIff.mp failed⟩
      · exact .inl fun groups same => array ⟨groups, same⟩
    · intro failed
      rcases failed with none | ⟨groups, rfl, unloadable⟩
      · exact ⟨.notAnArray, other none⟩
      · exact unloadableIff.mpr unloadable
  · rintro groups rfl
    exact ⟨fun fault => firstFaultIff, fun report => loadedIff⟩

def mixedGroups : List Json :=
  [.obj [("filePath", .str "a.ts"), ("messages", .arr [.obj [("line", .nat 3)]])],
    .arr [.str "b.ts"], .obj [("filePath", .null)], .str "c.ts"]

theorem loadsPointwiseMixed :
    (∃ fault, ofJson (.arr mixedGroups) = .error fault) ∧
    FirstFault mixedGroups (.noPath 2) ∧
    ∃ report, ofJson (.arr (mixedGroups.take 2)) = .ok report ∧
      report.map Group.path = ["a.ts", "b.ts"] ∧ List.Forall₂ Loads (mixedGroups.take 2) report := by
  have failed : ofJson (.arr mixedGroups) = .error (.noPath 2) := rfl
  obtain ⟨report, loaded, paths⟩ : ∃ report, ofJson (.arr (mixedGroups.take 2)) = .ok report ∧
      report.map Group.path = ["a.ts", "b.ts"] := ⟨_, rfl, rfl⟩
  refine ⟨⟨_, failed⟩, ?_, report, loaded, paths, ?_⟩
  · exact (((loadsPointwise _).2.2 mixedGroups rfl).1 _).mp failed
  · exact (((loadsPointwise _).2.2 (mixedGroups.take 2) rfl).2 report).mp loaded

end Report
end LintRemedy
