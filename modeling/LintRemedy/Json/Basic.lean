import LintRemedy.Number.Binary64

/-!
JSON values. An object is a list of fields; a reader hands it out with every key once and the
keys in ascending order, whatever the order in the document.
-/
namespace LintRemedy

inductive Number where
  | int (n : Int)
  | float (x : Binary64)
  deriving DecidableEq, Repr

inductive Json where
  | null
  | bool (b : Bool)
  | num (n : Number)
  | str (s : String)
  | arr (items : List Json)
  | obj (fields : List (String × Json))
  deriving Inhabited

namespace Json

mutual

def same : Json → Json → Bool
  | null, null => true
  | bool a, bool b => a == b
  | num a, num b => a == b
  | str a, str b => a == b
  | arr a, arr b => sameItems a b
  | obj a, obj b => sameFields a b
  | _, _ => false

def sameItems : List Json → List Json → Bool
  | [], [] => true
  | a :: as, b :: bs => same a b && sameItems as bs
  | _, _ => false

def sameFields : List (String × Json) → List (String × Json) → Bool
  | [], [] => true
  | (k, a) :: as, (l, b) :: bs => k == l && same a b && sameFields as bs
  | _, _ => false

end

mutual

theorem sameIff (a b : Json) : same a b = true ↔ a = b := by
  cases a with
  | null => cases b <;> simp [same]
  | bool x => cases b <;> simp [same]
  | num n => cases b <;> simp [same]
  | str s => cases b <;> simp [same]
  | arr items => cases b <;> simp [same, sameItemsIff]
  | obj fields => cases b <;> simp [same, sameFieldsIff]

theorem sameItemsIff (as bs : List Json) : sameItems as bs = true ↔ as = bs := by
  cases as with
  | nil => cases bs <;> simp [sameItems]
  | cons a as => cases bs <;> simp [sameItems, sameIff a, sameItemsIff as]

theorem sameFieldsIff (as bs : List (String × Json)) : sameFields as bs = true ↔ as = bs := by
  cases as with
  | nil => cases bs <;> simp [sameFields]
  | cons f as =>
    obtain ⟨k, a⟩ := f
    cases bs with
    | nil => simp [sameFields]
    | cons g bs =>
      obtain ⟨l, b⟩ := g
      simp [sameFields, sameIff a, sameFieldsIff as]

end

instance : DecidableEq Json := fun a b => decidable_of_iff _ (sameIff a b)

abbrev Fields := List (String × Json)

def Fields.insert (key : String) (value : Json) : Fields → Fields
  | [] => [(key, value)]
  | (k, v) :: rest =>
    if key = k then (key, value) :: rest
    else if key < k then (key, value) :: (k, v) :: rest
    else (k, v) :: Fields.insert key value rest

def ofFields (fields : Fields) : Json :=
  .obj (fields.foldl (fun acc (k, v) => Fields.insert k v acc) [])

def Fields.get? (fields : Fields) (key : String) : Option Json := fields.lookup key

def get? : Json → String → Option Json
  | obj fields, key => fields.lookup key
  | _, _ => none

def str? : Json → Option String
  | str s => some s
  | _ => none

def nat (n : Nat) : Json := .num (.int n)

end Json
end LintRemedy
