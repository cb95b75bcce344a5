/-!
# Character classes of scripts

## Main definitions

- `Script.isBlank` — characters that only separate tokens
- `Script.isNamePart` — characters that a name may hold
-/

namespace ScriptWire

namespace Script

/-- Space separators beyond the basic Latin space. -/
def isSpaceSeparator (c : Char) : Bool :=
  let n := c.toNat
  n == 0xA0 || n == 0x1680 || (0x2000 ≤ n && n ≤ 0x200A) || n == 0x202F
    || n == 0x205F || n == 0x3000

/-- The white space of the basic Latin block. -/
def isPlainSpace (c : Char) : Bool :=
  c == ' ' || ('\t' ≤ c && c ≤ '\r')

/-- The line breaks after which a statement may end by itself. -/
def isLineBreak (c : Char) : Bool :=
  c == '\n' || c == '\u2028' || c == '\u2029'

/-- Characters that only separate tokens: white space, line separators, and the marks that have no
width. -/
def isBlank (c : Char) : Bool :=
  isPlainSpace c || isSpaceSeparator c || isLineBreak c || c == '\u0085'
    || c == '\ufeff' || c == '\u2060' || c == '\u200b'

/-- Punctuation that ends a name. -/
def isPunctuation (c : Char) : Bool :=
  ":;\x60\x22\x27@#.,|^&<=>+-*/\\%?!~()[]\x7b\x7d".toList.contains c

/-- Characters that a name may hold: all that are not controls, blanks or punctuation. -/
def isNamePart (c : Char) : Bool :=
  '\x1f' < c && !isBlank c && !isPunctuation c

/-- Characters that a name may start with. -/
def isNameStart (c : Char) : Bool :=
  isNamePart c && !c.isDigit

end Script

end ScriptWire
