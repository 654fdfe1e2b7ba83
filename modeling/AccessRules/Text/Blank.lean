import AccessRules.Text.CodePointRanges

/-!
# Blank characters

The characters with the Unicode property `White_Space`. They separate the tokens of a rule and
are trimmed from the key of an authentication pair.
-/

namespace AccessRules.Text

/-- Every code point with the property `White_Space`. -/
def blankRanges : CodePointRanges := [
  (0x9, 0xD), (0x20, 0x20), (0x85, 0x85), (0xA0, 0xA0), (0x1680, 0x1680),
  (0x2000, 0x200A), (0x2028, 0x2029), (0x202F, 0x202F), (0x205F, 0x205F), (0x3000, 0x3000)]

/-- Whether a character is white space. -/
def isBlank (c : Char) : Bool :=
  blankRanges.covers c

end AccessRules.Text
