import LintRemedy.Substitution

/-!
The lint rules that are mended by substitution, and the table of them. The substitutions of a
rule run over the whole text one after another, so each sees what the ones before it wrote; the
place a diagnostic names plays no part.
-/
namespace LintRemedy

structure Rule where
  id : String
  substitutions : List Substitution
  deriving DecidableEq, Repr

namespace Rule

def run (substitutions : List Substitution) (t : Text) : Text × Nat :=
  substitutions.foldl
    (fun (t, n) s => match s.change? t with
      | some t' => (t', n + 1)
      | none => (t, n))
    (t, 0)

end Rule

abbrev RuleTable := List Rule

/-- What the table did to a text. `unmatched` lists, in table order, the reported rules none of
whose substitutions changed it. -/
structure PatternOutcome where
  text : Text
  applied : Nat
  unmatched : List String
  deriving DecidableEq, Repr

namespace RuleTable

def ids (table : RuleTable) : List String := table.map Rule.id

def get? (table : RuleTable) (id : String) : Option Rule := table.find? (·.id == id)

def mends (table : RuleTable) (id : String) : Bool := table.any (·.id == id)

def without (table : RuleTable) (disabled : List String) : RuleTable :=
  table.filter fun r => !disabled.contains r.id

def run (table : RuleTable) (reported : List String) (t : Text) : PatternOutcome :=
  (table.filter fun r => reported.contains r.id).foldl
    (fun o r =>
      let (t, n) := Rule.run r.substitutions o.text
      ⟨t, o.applied + n, if n = 0 then o.unmatched ++ [r.id] else o.unmatched⟩)
    ⟨t, 0, []⟩

end RuleTable

namespace Rule
open Step (keep swap)
open Item (word blanks someBlanks name optional)

def noExplicitAny : String := "@typescript-eslint/no-explicit-any"

def noEmptyObjectType : String := "@typescript-eslint/no-empty-object-type"

def anySwap : Step := swap (word ['a', 'n', 'y']) ['u', 'n', 'k', 'n', 'o', 'w', 'n']

def emptySwap : Step := swap (word ['{', '}']) ['o', 'b', 'j', 'e', 'c', 't']

def literal (w : String) : Step := keep (word w.toList)

def between (name left : String) (type : Step) (right : List String) (guards : List Guard) :
    Substitution :=
  ⟨name, literal left :: type :: right.map literal, false, guards⟩

def parameterAnnotation : Substitution :=
  ⟨"parameter annotation",
    [keep name, keep (optional '?'), literal ": ", anySwap, keep blanks, literal ")"],
    false, [.notAfterCatch]⟩

def catchBinding : Substitution :=
  ⟨"catch binding",
    [literal "catch", swap blanks [' '], literal "(", swap blanks [], keep name, swap blanks [],
      literal ":", swap blanks [' '], anySwap, swap blanks [], literal ")"],
    false, []⟩

/- The annotation before a closing parenthesis is left to the fourth substitution, and a catch
clause to the last one, which also tidies its blanks. -/
def explicitAny : Rule where
  id := noExplicitAny
  substitutions := [
    between "useState generic" "useState<" anySwap [">"] [],
    between "array annotation" ": " anySwap ["[]"] [],
    between "annotation" ": " anySwap [] [.notBeforeName, .notBeforeClose],
    parameterAnnotation,
    between "type alias" "= " anySwap [] [.notBeforeName],
    between "generic argument" "<" anySwap [">"] [],
    catchBinding]

def aliasOfEmpty : Substitution :=
  ⟨"type alias",
    [literal "type", keep someBlanks, keep name, keep blanks, literal "=", keep blanks, emptySwap],
    true, []⟩

def extendsEmpty : Substitution :=
  ⟨"extends clause", [literal "extends", keep someBlanks, emptySwap], true, []⟩

def emptyObjectType : Rule where
  id := noEmptyObjectType
  substitutions := [
    between "annotation" ": " emptySwap [] [.notBeforeName],
    between "generic argument" "<" emptySwap [">"] [],
    between "union member" "| " emptySwap [] [.notBeforeName],
    between "intersection member" "& " emptySwap [] [.notBeforeName],
    aliasOfEmpty,
    extendsEmpty]

end Rule

def RuleTable.builtin : RuleTable := [Rule.explicitAny, Rule.emptyObjectType]

end LintRemedy
