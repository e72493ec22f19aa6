import LintRemedy.Text.Basic
import LintRemedy.Text.Alphabetic
import LintRemedy.Text.Mark
import LintRemedy.Text.Numeral

/-!
Word characters: what a word of a source text is made of. A name character is a word character
or the dollar sign. Alphanumeric characters are the letters and numerals alone. Words go by
version 16 of Unicode, alphanumeric characters by version 17.
-/
namespace LintRemedy.Text

def isAsciiWord (n : Nat) : Bool :=
  (0x30 ≤ n && n ≤ 0x39) || (0x41 ≤ n && n ≤ 0x5a) || n == 0x5f || (0x61 ≤ n && n ≤ 0x7a)

def connectors : Ranges :=
  [(0x5f, 0x5f), (0x203f, 0x2040), (0x2054, 0x2054), (0xfe33, 0xfe34), (0xfe4d, 0xfe4f),
    (0xff3f, 0xff3f)]

/-- The letters, marks and digits that came with version 17. -/
def recent : Ranges :=
  [(0x88f, 0x88f), (0xc5c, 0xc5c), (0xcdc, 0xcdc), (0x1acf, 0x1add), (0x1ae0, 0x1aeb),
    (0xa7ce, 0xa7cf), (0xa7d2, 0xa7d2), (0xa7d4, 0xa7d4), (0xa7f1, 0xa7f1), (0x10940, 0x10959),
    (0x10ec5, 0x10ec7), (0x10efa, 0x10efb), (0x11b60, 0x11b67), (0x11db0, 0x11ddb),
    (0x11de0, 0x11de9), (0x16ea0, 0x16eb8), (0x16ebb, 0x16ed3), (0x16ff2, 0x16ff6),
    (0x187f8, 0x187ff), (0x18d09, 0x18d1e), (0x18d80, 0x18df2), (0x1e6c0, 0x1e6de),
    (0x1e6e0, 0x1e6f5), (0x1e6fe, 0x1e6ff), (0x2b73a, 0x2b73f), (0x2cea2, 0x2cead),
    (0x323b0, 0x33479)]

/-- Letters, marks, decimal digits, connecting punctuation and the two zero-width joiners. -/
def isWord (c : Char) : Bool :=
  let n := c.toNat
  if n < 0x80 then isAsciiWord n
  else !recent.holds n &&
    (alphabetic.holds n || plainMarks.holds n || decimalDigits.holds n || connectors.holds n ||
      n == 0x200c || n == 0x200d)

def isNameChar (c : Char) : Bool := isWord c || c == '$'

def isAlphanumeric (c : Char) : Bool :=
  let n := c.toNat
  if n < 0x80 then isAsciiWord n && n != 0x5f
  else alphabetic.holds n || decimalDigits.holds n || otherNumerals.holds n

end LintRemedy.Text
