/-
  Blank characters: the 25 code points with the Unicode property White_Space, and trimming by
  them.  U+200B and U+FEFF are not blank.
-/

namespace SimilarityStore.Text

/-- The characters with the Unicode property White_Space. -/
def isBlank (c : Char) : Bool :=
  let n := c.toNat
  (9 ≤ n && n ≤ 13) || n == 32 || n == 0x85 || n == 0xa0 || n == 0x1680 ||
    (0x2000 ≤ n && n ≤ 0x200a) || n == 0x2028 || n == 0x2029 || n == 0x202f || n == 0x205f ||
    n == 0x3000

/-- A text without its leading and trailing blanks, as characters. -/
def trimList (cs : List Char) : List Char :=
  ((cs.dropWhile isBlank).reverse.dropWhile isBlank).reverse

/-- A text without its leading and trailing blanks. -/
def trim (s : String) : String := String.ofList (trimList s.toList)

/-- Whether nothing but blanks stands in the text. -/
def isBlankText (s : String) : Bool := s.toList.all isBlank

end SimilarityStore.Text
