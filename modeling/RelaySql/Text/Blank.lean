/-!
# Text — blank characters

A character is blank when it has the `White_Space` property of the character standard.  A text is
blank when all its characters are, so the empty text is blank too.

* `words`: the parts of a text between blank characters.
* `oneLine`: these parts with one space between them.
-/

namespace RelaySql.Text

/-- The `White_Space` property. -/
def isBlankChar (c : Char) : Bool :=
  let n := c.toNat
  (0x9 ≤ n && n ≤ 0xd) || n == 0x20 || n == 0x85 || n == 0xa0 || n == 0x1680 ||
    (0x2000 ≤ n && n ≤ 0x200a) || n == 0x2028 || n == 0x2029 || n == 0x202f || n == 0x205f ||
    n == 0x3000

/-- No character of the text is other than blank. -/
def isBlank (s : String) : Bool := s.toList.all isBlankChar

/-- The maximal runs of characters that are not blank. -/
def words (cs : List Char) : List (List Char) :=
  (cs.splitOnP isBlankChar).filter (!·.isEmpty)

/-- The words of a text with one space between them. -/
def oneLine (s : String) : String :=
  " ".intercalate ((words s.toList).map String.ofList)

end RelaySql.Text
