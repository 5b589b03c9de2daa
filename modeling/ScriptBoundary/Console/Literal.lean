import ScriptBoundary.Double.Reader
import ScriptBoundary.Text.Blank
import ScriptBoundary.Text.Enclosed
import ScriptBoundary.Value.Scalar

/-!
Values as they are written in commands: a keyword, a text between quotes, an integer, a decimal, or
else a bare text. Blanks around a value do not matter.
-/

namespace ScriptBoundary.Literal

def keywords : List (String × Scalar) :=
  [("undefined", .void), ("null", .null), ("true", .boolean true), ("false", .boolean false)]

/-- Drops the backslash before every `mark`. Of a run of backslashes before a mark other than
itself, only the last is dropped; of a run of backslashes, every second one. -/
def unescape (mark : Char) : List Char → List Char
  | [] => []
  | [c] => [c]
  | c :: d :: rest =>
    if c = '\\' && d = mark then mark :: unescape mark rest
    else c :: unescape mark (d :: rest)

/-- The text that is meant between quotes: first quotes lose their backslash, then backslashes. -/
def unquote (inner : List Char) : List Char := unescape '\\' (unescape '\"' inner)

def keyword? (text : List Char) : Option Scalar := keywords.lookup (String.ofList text)

/-- A lone quote encloses nothing and is no quoted text. -/
def quoted? (text : List Char) : Option Scalar :=
  (Text.inside? '\"' '\"' text).map fun inner => .string (String.ofList (unquote inner))

def integer? (text : List Char) : Option Scalar := (Text.readInt32 text).map .int32

/-- Also an integer that does not fit 32 bits. -/
def decimal? (text : List Char) : Option Scalar := (Double.read? text).map .double

/-- Reads text without blanks around it. -/
def readTrimmed (text : List Char) : Scalar :=
  ((keyword? text).or <| (quoted? text).or <| (integer? text).or <| decimal? text).getD
    (.string (String.ofList text))

/-- Every text is a value. -/
def read (text : List Char) : Scalar := readTrimmed (Text.trim text)

end ScriptBoundary.Literal
