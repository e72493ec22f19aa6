/-!
Texts as lists of characters: blanks, trimming, cutting at a separator and joining again.
A blank is a character with the Unicode property White_Space; the zero-width space and the
byte-order mark are not blanks. Code points that a reader of a source file cannot see can be taken
out of a text; tab, line feed and carriage return count as visible, since without them the layout
would change. Sets of code points are lists of closed ranges in ascending order.
-/
namespace LintRemedy

-- Sums of counts start at the numeral, whatever structure on the numbers is in scope.
namespace Counts

scoped instance (priority := high) zeroOfCounts : Zero Nat := ⟨0⟩

end Counts

abbrev Text := List Char

namespace Text

/-- White_Space has 25 code points, so they are listed. -/
def isBlank (c : Char) : Bool :=
  let n := c.toNat
  (9 ≤ n && n ≤ 13) || n == 0x20 || n == 0x85 || n == 0xa0 || n == 0x1680 ||
  (0x2000 ≤ n && n ≤ 0x200a) || n == 0x2028 || n == 0x2029 || n == 0x202f ||
  n == 0x205f || n == 0x3000

def trimStart (t : Text) : Text := t.dropWhile isBlank

def trimEnd (t : Text) : Text := (t.reverse.dropWhile isBlank).reverse

def trim (t : Text) : Text := trimEnd (trimStart t)

def trailingBlanks (t : Text) : Text := (t.reverse.takeWhile isBlank).reverse

def splitOn (sep : Char) : Text → List Text
  | [] => [[]]
  | c :: rest =>
    if c = sep then [] :: splitOn sep rest
    else match splitOn sep rest with
      | [] => [[c]]
      | part :: parts => (c :: part) :: parts

def joinWith (sep : Char) : List Text → Text
  | [] => []
  | [part] => part
  | part :: next :: parts => part ++ sep :: joinWith sep (next :: parts)

def after? : (head : Text) → Text → Option Text
  | [], t => some t
  | _ :: _, [] => none
  | h :: hs, c :: rest => if h = c then after? hs rest else none

theorem trimEndKeeps (t : Text) : trimEnd t ++ trailingBlanks t = t := by
  rw [trimEnd, trailingBlanks, ← List.reverse_append, List.takeWhile_append_dropWhile,
    List.reverse_reverse]

theorem afterKeeps {head t rest : Text} (h : after? head t = some rest) : t = head ++ rest := by
  induction head generalizing t with
  | nil => simpa [after?] using h
  | cons c head ih =>
    cases t with
    | nil => simp [after?] at h
    | cons d t =>
      simp only [after?] at h
      split at h
      · rename_i same; simp [same, ih h]
      · contradiction

theorem splitOnNonempty (sep : Char) (t : Text) : splitOn sep t ≠ [] := by
  cases t with
  | nil => simp [splitOn]
  | cons c rest => simp only [splitOn]; split <;> try split
                   all_goals simp

theorem joinSplit (sep : Char) (t : Text) : joinWith sep (splitOn sep t) = t := by
  induction t with
  | nil => rfl
  | cons c rest ih =>
    have some := splitOnNonempty sep rest
    revert ih some
    simp only [splitOn]
    generalize splitOn sep rest = parts
    intro ih some
    split
    · rename_i same
      cases parts with
      | nil => exact absurd rfl some
      | cons part parts => simp [joinWith, ih, same]
    · cases parts with
      | nil => exact absurd rfl some
      | cons part parts => cases parts <;> simp_all [joinWith]

def isControl (c : Char) : Bool := c.toNat < 0x20 || (0x7f ≤ c.toNat && c.toNat ≤ 0x9f)

/-- Zero-width space, the joiners, word joiner, byte-order mark and no-break space. -/
def zeroWidth : List Char :=
  ['\u200b', '\u200c', '\u200d', '\u2060', '\ufeff', '\u00a0']

def isInvisible (c : Char) : Bool :=
  !(c == '\t' || c == '\n' || c == '\r') && (zeroWidth.contains c || isControl c)

structure Cleaned where
  text : Text
  removed : Nat
  deriving DecidableEq, Repr

def clean (t : Text) : Cleaned :=
  ⟨t.filter (fun c => !isInvisible c), t.countP isInvisible⟩

def Cleaned.changed (c : Cleaned) : Bool := 0 < c.removed

abbrev Ranges := List (Nat × Nat)

namespace Ranges

/-- The ranges ascend, so the search ends at the first one that does not lie below `n`. -/
def holds : Ranges → Nat → Bool
  | [], _ => false
  | (low, high) :: rest, n => if high < n then holds rest n else low ≤ n

def Ascending : Ranges → Bool
  | [] => true
  | [(low, high)] => low ≤ high
  | (low, high) :: (low', high') :: rest =>
    low ≤ high && high < low' && Ascending ((low', high') :: rest)

end Ranges

end Text
end LintRemedy
