import LintRemedy.Json.Basic
import LintRemedy.Text.Word

/-!
The tokens of a JSON document. Two dialects are read: the strict one, for files that a program
wrote, and a lenient one for files written by hand, with comments, single quotes, bare words as
keys, a plus sign and hexadecimal integers.
-/
namespace LintRemedy.Json
open scoped LintRemedy.Powers

structure Dialect where
  blank : Char → Bool
  loose : Bool
  depth : Option Nat

def strict : Dialect :=
  ⟨fun c => c == ' ' || c == '\t' || c == '\n' || c == '\r', false, some 127⟩

def lenient : Dialect := ⟨Text.isBlank, true, none⟩

inductive Token where
  | openBrace | closeBrace | openBracket | closeBracket | comma | colon
  | str (s : String)
  | num (literal : String) (value : Option Number)
  | word (w : String)
  | constant (v : Json)

namespace Token
open Text (after?)

def hexDigit? (c : Char) : Option Nat :=
  if '0' ≤ c ∧ c ≤ '9' then some (c.toNat - '0'.toNat)
  else if 'a' ≤ c ∧ c ≤ 'f' then some (c.toNat - 'a'.toNat + 10)
  else if 'A' ≤ c ∧ c ≤ 'F' then some (c.toNat - 'A'.toNat + 10)
  else none

def unit? : Text → Option (Nat × Text)
  | a :: b :: c :: d :: rest => do
    let a ← hexDigit? a
    let b ← hexDigit? b
    let c ← hexDigit? c
    let d ← hexDigit? d
    some (((a * 16 + b) * 16 + c) * 16 + d, rest)
  | _ => none

def escapedUnits? (t : Text) : Option (Char × Text) := do
  let (high, rest) ← unit? t
  if 0xd800 ≤ high ∧ high < 0xdc00 then
    let rest ← after? ['\\', 'u'] rest
    let (low, rest) ← unit? rest
    if 0xdc00 ≤ low ∧ low < 0xe000 then
      some (Char.ofNat (0x10000 + (high - 0xd800) * 0x400 + (low - 0xdc00)), rest)
    else none
  else if 0xdc00 ≤ high ∧ high < 0xe000 then none
  else some (Char.ofNat high, rest)

def escaped? (quote : Char) : Text → Option (Char × Text)
  | 'b' :: rest => some ('\x08', rest)
  | 'f' :: rest => some ('\x0c', rest)
  | 'n' :: rest => some ('\n', rest)
  | 'r' :: rest => some ('\r', rest)
  | 't' :: rest => some ('\t', rest)
  | 'u' :: rest => escapedUnits? rest
  | c :: rest => if c = quote ∨ c = '\\' ∨ c = '/' then some (c, rest) else none
  | [] => none

def stringBody? (loose : Bool) (quote : Char) : Nat → Text → Option (Text × Text)
  | 0, _ => none
  | _, [] => none
  | n + 1, c :: rest =>
    if c = quote then some ([], rest)
    else if c = '\\' then do
      let (c, rest) ← escaped? quote rest
      let (s, rest) ← stringBody? loose quote n rest
      some (c :: s, rest)
    else if loose || 0x20 ≤ c.toNat then do
      let (s, rest) ← stringBody? loose quote n rest
      some (c :: s, rest)
    else none

def digitValue (c : Char) : Nat := c.toNat - '0'.toNat

/-- Takes digits into the significand as long as it stays below `2 ^ 64`, and gives back the
digits that found no room. -/
def fill (significand : Nat) : Text → Nat × Text
  | [] => (significand, [])
  | d :: ds =>
    let next := significand * 10 + digitValue d
    if next < 2 ^ (64 : Nat) then fill next ds else (significand, d :: ds)

structure Decimal where
  negative : Bool
  whole : Text
  fraction : Option Text
  exponent : Option Int

/-- An integer in range stays one, except for `-0`. Otherwise the digits that fit in 64 bits are
shifted to their place; a number too great for a float has no value. -/
def Decimal.value? (d : Decimal) : Option Number :=
  let (n, dropped) := fill 0 d.whole
  if d.fraction.isNone && d.exponent.isNone && dropped.isEmpty &&
      (!d.negative || (0 < n && n ≤ 2 ^ (63 : Nat))) then
    some (.int (if d.negative then -(n : Int) else n))
  else
    let digits := d.fraction.getD []
    let (n, unused) := fill n digits
    let shift : Int := (dropped.length : Int) - (digits.length - unused.length : Nat)
    (Binary64.ofDecimal? d.negative n (shift + d.exponent.getD 0)).map .float

def natOfDigits (ds : Text) : Nat := ds.foldl (fun n d => n * 10 + digitValue d) 0

def digits (t : Text) : Text × Text := (t.takeWhile Char.isDigit, t.dropWhile Char.isDigit)

def someDigits? (t : Text) : Option (Text × Text) :=
  let (ds, rest) := digits t
  if ds.isEmpty then none else some (ds, rest)

def whole? : Text → Option (Text × Text)
  | '0' :: rest => some (['0'], rest)
  | t => someDigits? t

def fraction? : Text → Option (Option Text × Text)
  | '.' :: rest => do
    let (ds, rest) ← someDigits? rest
    some (some ds, rest)
  | t => some (none, t)

def exponent? : Text → Option (Option Int × Text)
  | c :: rest =>
    if c = 'e' ∨ c = 'E' then do
      let (negative, rest) := match rest with
        | '-' :: rest => (true, rest)
        | '+' :: rest => (false, rest)
        | rest => (false, rest)
      let (ds, rest) ← someDigits? rest
      let n : Int := natOfDigits ds
      some (some (if negative then -n else n), rest)
    else some (none, c :: rest)
  | [] => some (none, [])

def hexValue? (negative : Bool) (ds : Text) : Option Number :=
  let n := ds.foldl (fun n d => n * 16 + (hexDigit? d).getD 0) 0
  if n < 2 ^ (63 : Nat) then some (.int (if negative then -(n : Int) else n)) else none

def unsigned? (loose negative : Bool) (t : Text) : Option (Option Number × Text) :=
  match t with
  | '0' :: x :: rest =>
    if loose && (x = 'x' || x = 'X') then
      let ds := rest.takeWhile fun c => (hexDigit? c).isSome
      if ds.isEmpty then none else some (hexValue? negative ds, rest.drop ds.length)
    else decimal? t
  | _ => decimal? t
where
  decimal? (t : Text) : Option (Option Number × Text) := do
    let (whole, rest) ← whole? t
    let (fraction, rest) ← fraction? rest
    let (exponent, rest) ← exponent? rest
    some ((Decimal.mk negative whole fraction exponent).value?, rest)

def number? (loose : Bool) (t : Text) : Option (Token × Text) := do
  let (negative, body) ← match t with
    | '-' :: rest => some (true, rest)
    | '+' :: rest => if loose then some (false, rest) else none
    | rest => some (false, rest)
  let (value, rest) ← unsigned? loose negative body
  some (num (String.ofList (t.take (t.length - rest.length))) value, rest)

def afterComment? : Text → Option Text
  | '/' :: '/' :: rest => some (rest.dropWhile (· != '\n'))
  | '/' :: '*' :: rest => closed rest
  | _ => none
where
  closed : Text → Option Text
    | '*' :: '/' :: rest => some rest
    | _ :: rest => closed rest
    | [] => none

def constants : List (Text × Json) :=
  [("true".toList, .bool true), ("false".toList, .bool false), ("null".toList, .null)]

def constant? (t : Text) : Option (Token × Text) :=
  constants.findSome? fun (w, v) => do
    let rest ← after? w t
    if rest.head?.any Text.isAlphanumeric then none else some (constant v, rest)

def word? (t : Text) : Option (Token × Text) :=
  let part c := Text.isAlphanumeric c || c == '-' || c == '_'
  let rest := t.dropWhile part
  let ends := match rest with
    | [] => true
    | c :: _ => Text.isBlank c || c == ':'
  if ends && !(t.takeWhile part).isEmpty then some (word (String.ofList (t.takeWhile part)), rest)
  else none

def first? (d : Dialect) (t : Text) : Option (Token × Text) :=
  match t with
  | '{' :: rest => some (openBrace, rest)
  | '}' :: rest => some (closeBrace, rest)
  | '[' :: rest => some (openBracket, rest)
  | ']' :: rest => some (closeBracket, rest)
  | ',' :: rest => some (comma, rest)
  | ':' :: rest => some (colon, rest)
  | c :: rest =>
    if c = '"' ∨ (d.loose ∧ c = '\'') then do
      let (s, rest) ← stringBody? d.loose c (rest.length + 1) rest
      some (str (String.ofList s), rest)
    else if c.isDigit ∨ c = '-' ∨ c = '+' then number? d.loose t
    else constant? t <|> (if d.loose then word? t else none)
  | [] => none

def allWithin (d : Dialect) : Nat → Text → Option (List Token)
  | _, [] => some []
  | 0, _ => none
  | n + 1, c :: rest =>
    if d.blank c then allWithin d n rest
    else if d.loose ∧ c = '/' then do allWithin d n (← afterComment? (c :: rest))
    else do
      let (token, rest) ← first? d (c :: rest)
      let tokens ← allWithin d n rest
      some (token :: tokens)

def all? (d : Dialect) (t : Text) : Option (List Token) := allWithin d t.length t

end Token
end LintRemedy.Json
