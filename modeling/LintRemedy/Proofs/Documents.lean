import LintRemedy.Json.Reader
import LintRemedy.Proofs.Encoding
import Mathlib.Data.List.Induction

/-!
The objects that a reader hands out. Whatever the order of the fields in the document and however
often it gives a key, an object has each of its keys once, in ascending order of their code points,
and with the value that the document gives last.
-/
namespace LintRemedy.Json

namespace Fields

def Ascending (fields : Fields) : Prop := fields.Pairwise fun f g => f.1 < g.1

theorem insertMember {key : String} {value : Json} {fields : Fields} {field : String × Json}
    (member : field ∈ fields.insert key value) : field = (key, value) ∨ field ∈ fields := by
  induction fields with
  | nil => exact .inl (List.mem_singleton.mp member)
  | cons head fields ih =>
    obtain ⟨k, v⟩ := head
    rw [insert] at member
    split at member
    · rcases List.mem_cons.mp member with new | old
      · exact .inl new
      · exact .inr (List.mem_cons_of_mem _ old)
    · split at member
      · exact List.mem_cons.mp member
      · rcases List.mem_cons.mp member with first | later
        · exact .inr (by simp [first])
        · exact (ih later).imp_right (List.mem_cons_of_mem _)

theorem Ascending.insert {fields : Fields} (ascending : Ascending fields) (key : String)
    (value : Json) : Ascending (fields.insert key value) := by
  induction fields with
  | nil => exact List.pairwise_singleton _ _
  | cons head fields ih =>
    obtain ⟨k, v⟩ := head
    obtain ⟨below, rest⟩ := List.pairwise_cons.mp ascending
    rw [Fields.insert]
    split
    · rename_i same
      subst same
      exact List.pairwise_cons.mpr ⟨below, rest⟩
    · rename_i other
      split
      · rename_i less
        refine List.pairwise_cons.mpr ⟨?_, ascending⟩
        intro field member
        rcases List.mem_cons.mp member with rfl | later
        · exact less
        · exact String.lt_trans less (below field later)
      · rename_i notLess
        have greater : k < key := by
          by_contra notGreater
          exact other (String.le_antisymm (String.not_lt.mp notGreater) (String.not_lt.mp notLess))
        refine List.pairwise_cons.mpr ⟨?_, ih rest⟩
        intro field member
        rcases insertMember member with rfl | old
        · exact greater
        · exact below field old

theorem getMember {fields : Fields} {key : String} {v : Json} (get : fields.get? key = some v) :
    (key, v) ∈ fields := by
  obtain ⟨front, back, split, -⟩ := List.lookup_eq_some_iff.mp get
  simp [split]

theorem lookupArranged {xs ys : Fields} (arranged : xs.Perm ys)
    (distinct : (ys.map Prod.fst).Nodup) (key : String) : xs.lookup key = ys.lookup key := by
  induction arranged with
  | nil => rfl
  | cons field _ ih =>
    rw [lookupCons, lookupCons, ih (List.nodup_cons.mp distinct).2]
  | swap f g rest =>
    have apart : f.1 ≠ g.1 := by
      intro same
      exact (List.nodup_cons.mp distinct).1 (by simp [same])
    rw [lookupCons, lookupCons, lookupCons, lookupCons]
    by_cases own : key = f.1
    · rw [if_neg (own ▸ apart), if_pos own, if_pos own]
    · rw [if_neg own, if_neg own]
  | trans _ second ihFirst ihSecond =>
    have distinct' := (second.map Prod.fst).nodup_iff.mpr distinct
    exact (ihFirst distinct').trans (ihSecond distinct)

theorem Ascending.memberIff {fields : Fields} (ascending : Ascending fields) {key : String}
    {v : Json} : (key, v) ∈ fields ↔ fields.get? key = some v := by
  constructor
  · intro member
    obtain ⟨front, back, split⟩ := List.append_of_mem member
    refine List.lookup_eq_some_iff.mpr ⟨front, back, split, ?_⟩
    intro field before
    rw [Ascending, split, List.pairwise_append] at ascending
    have less := ascending.2.2 field before (key, v) (by simp)
    rw [bne_iff_ne]
    rintro rfl
    exact String.lt_irrefl _ less
  · exact getMember

end Fields

theorem ofFieldsObject (written : Fields) :
    ∃ all : Fields, ofFields written = .obj all ∧ all.Ascending ∧
      ∀ key, all.get? key = written.reverse.lookup key := by
  refine ⟨_, rfl, ?_⟩
  induction written using List.reverseRecOn with
  | nil => exact ⟨List.Pairwise.nil, fun _ => rfl⟩
  | append_singleton written field ih =>
    obtain ⟨key, value⟩ := field
    obtain ⟨ascending, get⟩ := ih
    rw [List.foldl_concat]
    refine ⟨ascending.insert key value, ?_⟩
    intro name
    rw [getInsert, get, List.reverse_append, List.reverse_singleton, List.singleton_append,
      lookupCons]

namespace Token

def Plain : Token → Prop
  | constant v => ∀ fields, v ≠ .obj fields
  | _ => True

theorem numberPlain {loose : Bool} {t rest : Text} {token : Token}
    (read : number? loose t = some (token, rest)) : token.Plain := by
  have written {negative : Bool} {body : Text}
      (h : ((unsigned? loose negative body).bind fun found =>
        some (num (String.ofList (t.take (t.length - found.2.length))) found.1, found.2)) =
          some (token, rest)) : token.Plain := by
    obtain ⟨found, -, last⟩ := Option.bind_eq_some_iff.mp h
    cases Option.some.inj last
    trivial
  unfold number? at read
  split at read
  · exact written read
  · split at read
    · exact written read
    · contradiction
  · exact written read

theorem constantPlain {t rest : Text} {token : Token}
    (read : constant? t = some (token, rest)) : token.Plain := by
  obtain ⟨⟨w, v⟩, known, found⟩ := List.exists_of_findSome?_eq_some read
  simp only [bind, Option.bind_eq_some_iff] at found
  obtain ⟨after, -, last⟩ := found
  split at last <;> try contradiction
  cases Option.some.inj last
  simp only [constants, List.mem_cons, Prod.mk.injEq, List.not_mem_nil, or_false] at known
  rcases known with ⟨-, rfl⟩ | ⟨-, rfl⟩ | ⟨-, rfl⟩ <;> exact fun _ same => nomatch same

theorem wordPlain {t rest : Text} {token : Token} (read : word? t = some (token, rest)) :
    token.Plain := by
  simp only [word?, Option.ite_none_right_eq_some] at read
  cases Option.some.inj read.2
  trivial

theorem firstPlain {d : Dialect} {t rest : Text} {token : Token}
    (read : first? d t = some (token, rest)) : token.Plain := by
  unfold first? at read
  split at read <;> try (cases Option.some.inj read; trivial)
  · split at read
    · obtain ⟨⟨s, left⟩, -, last⟩ := Option.bind_eq_some_iff.mp read
      cases Option.some.inj last
      trivial
    · split at read
      · exact numberPlain read
      · rename_i c rest _ _ _ _ _ _ _ _
        cases constant : constant? (c :: rest) with
        | some found =>
          rw [constant] at read
          cases Option.some.inj read
          exact constantPlain constant
        | none =>
          rw [constant] at read
          exact wordPlain (Option.ite_none_right_eq_some.mp read).2
  · contradiction

theorem allPlain {d : Dialect} {n : Nat} {t : Text} {tokens : List Token}
    (read : allWithin d n t = some tokens) : ∀ token ∈ tokens, token.Plain := by
  induction n generalizing t tokens with
  | zero =>
    cases t with
    | nil => cases Option.some.inj read; simp
    | cons c rest => contradiction
  | succ n ih =>
    cases t with
    | nil => cases Option.some.inj read; simp
    | cons c rest =>
      rw [allWithin] at read
      split at read
      · exact ih read
      · split at read
        · obtain ⟨left, -, later⟩ := Option.bind_eq_some_iff.mp read
          exact ih later
        · obtain ⟨⟨token, left⟩, first, rest⟩ := Option.bind_eq_some_iff.mp read
          obtain ⟨others, later, last⟩ := Option.bind_eq_some_iff.mp rest
          cases Option.some.inj last
          exact List.forall_mem_cons.mpr ⟨firstPlain first, ih later⟩

end Token

theorem numberNoObject {loose : Bool} {literal : String} {value : Option Number} {fields : Fields} :
    numberValue? loose literal value ≠ some (.obj fields) := by
  cases value with
  | some n => simp [numberValue?]
  | none => cases loose <;> simp [numberValue?]

theorem valueObject {loose : Bool} {n depth : Nat} {tokens rest : List Token} {fields : Fields}
    (plain : ∀ token ∈ tokens, token.Plain)
    (read : value? loose n depth tokens = some (.obj fields, rest)) :
    ∃ written, ofFields written = .obj fields := by
  unfold value? at read
  split at read
  · contradiction
  · split at read
    · contradiction
    · obtain ⟨items, -, last⟩ := Option.bind_eq_some_iff.mp read
      cases last
  · split at read
    · contradiction
    · obtain ⟨⟨written, left⟩, -, last⟩ := Option.bind_eq_some_iff.mp read
      exact ⟨written, (Prod.mk.inj (Option.some.inj last)).1⟩
  · cases read
  · obtain ⟨v, number, same⟩ := Option.map_eq_some_iff.mp read
    rw [(Prod.mk.inj same).1] at number
    exact absurd number numberNoObject
  · have constant := (Prod.mk.inj (Option.some.inj read)).1
    exact absurd constant (plain _ List.mem_cons_self fields)
  · contradiction

theorem documentObject {t : Text} {fields : Fields}
    (document : ofLenientText? t = some (.obj fields)) :
    ∃ written, ofFields written = .obj fields := by
  obtain ⟨value, read, same⟩ := Option.map_eq_some_iff.mp document
  obtain ⟨tokens, all, parsed⟩ := Option.bind_eq_some_iff.mp read
  split at parsed
  · cases Option.some.inj parsed
    exact ⟨[], same⟩
  · obtain ⟨⟨v, left⟩, object, last⟩ := Option.bind_eq_some_iff.mp parsed
    cases Option.some.inj (Option.ite_none_right_eq_some.mp last).2
    rw [Option.getD_some] at same
    rw [same] at object
    exact valueObject (Token.allPlain all) object

theorem documentAscending {t : Text} {fields : Fields}
    (document : ofLenientText? t = some (.obj fields)) : fields.Ascending := by
  obtain ⟨written, same⟩ := documentObject document
  obtain ⟨all, object, ascending, -⟩ := ofFieldsObject written
  cases Json.obj.inj (object.symm.trans same)
  exact ascending

end LintRemedy.Json
