/-!
# Blank text

White space is the set of characters with the White_Space property, which is wider than
the ASCII blanks. Text is blank when it holds nothing else.
-/

namespace LiveDetection

/-- Characters with the White_Space property. -/
def isBlankChar (c : Char) : Bool :=
  let n := c.toNat
  (9 ≤ n && n ≤ 13) || n == 0x20 || n == 0x85 || n == 0xA0 || n == 0x1680 ||
    (0x2000 ≤ n && n ≤ 0x200A) || n == 0x2028 || n == 0x2029 || n == 0x202F ||
    n == 0x205F || n == 0x3000

/-- Characters without the white space at the front and at the end. -/
def trimBlanks (s : List Char) : List Char :=
  ((s.dropWhile isBlankChar).reverse.dropWhile isBlankChar).reverse

/-- Text without its leading and trailing white space. -/
def trimBlank (s : String) : String := String.ofList (trimBlanks s.toList)

/-- Text that holds nothing but white space. -/
def isBlank (s : String) : Bool := s.toList.all isBlankChar

end LiveDetection
