import Graft.Text.Ranges

/-!
# Word characters

A keyword stands alone when the character after it cannot continue a word. Two notions are in use:
the one of the accessor keywords (a letter, a number or an underscore continues the word) and the
one of fold markers (marks and connectors continue it too, numbers that are not digits do not). Fold
markers go by version 16 of the Unicode standard: what came later ends the word.
-/

namespace Graft.Text

/-- Letters and numbers of every script. -/
def isAlphanumeric (c : Char) : Bool :=
  inRanges alphabeticRanges c || inRanges decimalDigitRanges c || inRanges otherNumberRanges c

/-- Letters, decimal digits, marks and connectors of every script. -/
def isWordChar (c : Char) : Bool :=
  (inRanges alphabeticRanges c || inRanges decimalDigitRanges c || inRanges markRanges c) &&
    !inRanges recentRanges c

end Graft.Text
