/-!
White space: the code points with the Unicode property White_Space, and the text that is left when
they are cut from both ends.
-/

namespace ScriptBoundary.Text

def isBlank (c : Char) : Bool :=
  let n := c.toNat
  (9 ≤ n && n ≤ 13) || n == 0x20 || n == 0x85 || n == 0xa0 || n == 0x1680 ||
  (0x2000 ≤ n && n ≤ 0x200a) || n == 0x2028 || n == 0x2029 || n == 0x202f || n == 0x205f ||
  n == 0x3000

def trimStart (text : List Char) : List Char :=
  text.dropWhile isBlank

def trimEnd (text : List Char) : List Char :=
  (text.reverse.dropWhile isBlank).reverse

/-- Inner blanks stay. -/
def trim (text : List Char) : List Char :=
  trimEnd (trimStart text)

end ScriptBoundary.Text
