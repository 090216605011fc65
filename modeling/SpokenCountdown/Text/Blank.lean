/-!
# Blank characters, trimming and words

A blank is a character of the Unicode property `White_Space`. Trimming drops
blanks at both ends; the words of a text are its maximal runs without blanks.
-/

namespace SpokenCountdown.Text

/-- The Unicode property `White_Space`. -/
def isBlank (c : Char) : Bool :=
  let n := c.toNat
  (0x9 ≤ n && n ≤ 0xD) || n == 0x20 || n == 0x85 || n == 0xA0 || n == 0x1680 ||
    (0x2000 ≤ n && n ≤ 0x200A) || n == 0x2028 || n == 0x2029 || n == 0x202F ||
    n == 0x205F || n == 0x3000

def trimChars (cs : List Char) : List Char :=
  ((cs.dropWhile isBlank).reverse.dropWhile isBlank).reverse

def trim (s : String) : String :=
  String.ofList (trimChars s.toList)

def isBlankText (s : String) : Bool :=
  s.toList.all isBlank

def words (cs : List Char) : List (List Char) :=
  (cs.splitOnP isBlank).filter (!·.isEmpty)

/-- ASCII letters in lower case, every other character unchanged. -/
def lowercase (cs : List Char) : List Char :=
  cs.map Char.toLower

end SpokenCountdown.Text
