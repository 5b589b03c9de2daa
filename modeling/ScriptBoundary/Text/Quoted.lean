import ScriptBoundary.Text.Extender
import ScriptBoundary.Text.Unprinted

/-!
Quoted text, as diagnostics show it: between double quotes, with escapes for the quote, the
backslash, the usual controls, and whatever could not be told apart on a page.
-/

namespace ScriptBoundary.Text

/-- Hangul letters that stand for a missing letter and show nothing. -/
def isFiller (c : Char) : Bool := c = '\u115f' || c = '\u1160' || c = '\u3164' || c = '\uffa0'

/-- The two half-width sound marks. They extend the letter before them, but beside it, in a cell of
their own. -/
def isSoundMark (c : Char) : Bool := c = '\uff9e' || c = '\uff9f'

/-- What shows nothing, and what shows only upon the character before it. -/
def isHidden (c : Char) : Bool := isUnprinted c || isFiller c || (isExtender c && !isSoundMark c)

/-- An escape by code point: lower-case hexadecimal digits in braces, without leading zeros. -/
def codePointEscape (c : Char) : List Char :=
  ['\\', 'u', '\x7b'] ++ Nat.toDigits 16 c.toNat ++ ['\x7d']

def quotedChar (c : Char) : List Char :=
  match c with
  | '\"' => ['\\', '\"']
  | '\\' => ['\\', '\\']
  | '\n' => ['\\', 'n']
  | '\r' => ['\\', 'r']
  | '\t' => ['\\', 't']
  | '\x00' => ['\\', '0']
  | c => if isHidden c then codePointEscape c else [c]

/-- An apostrophe stands for itself. -/
def quoted (text : String) : String :=
  String.ofList (['\"'] ++ text.toList.flatMap quotedChar ++ ['\"'])

end ScriptBoundary.Text
