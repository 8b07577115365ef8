/-!
# White space

The characters with the Unicode property `White_Space`, and the text without those at its ends.
-/

namespace PreferenceInjector

/-- Whether a character has the Unicode property `White_Space`. -/
def isWhiteSpace (c : Char) : Bool :=
  let n := c.toNat
  (9 ≤ n && n ≤ 13) || n == 0x20 || n == 0x85 || n == 0xA0 || n == 0x1680 ||
  (0x2000 ≤ n && n ≤ 0x200A) || n == 0x2028 || n == 0x2029 || n == 0x202F || n == 0x205F ||
  n == 0x3000

/-- A text without the characters at its two ends that satisfy `p`. -/
def trimBoth (p : Char → Bool) (text : List Char) : List Char :=
  ((text.dropWhile p).reverse.dropWhile p).reverse

/-- A text without the white space at its two ends. -/
def trimmed (text : List Char) : List Char := trimBoth isWhiteSpace text

end PreferenceInjector
