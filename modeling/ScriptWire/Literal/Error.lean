/-!
# Faults of literals

The ways in which the text of a literal denotes no value.

## Main definitions

- `LiteralError` — a cause, with the text at fault
- `LiteralError.message` — its wording
-/

namespace ScriptWire

/-- Why the text of a literal denotes no value. -/
inductive LiteralError
  /-- The text is no number. -/
  | invalidNumber (text : String)
  /-- The text lacks the mark of a big integer. -/
  | invalidBigInt (text : String)
  /-- The text does not stand between two equal quotes. -/
  | unterminatedString (text : String)
  /-- A backslash is the last character. -/
  | danglingEscape
  /-- The two places after `\x` are no code. -/
  | invalidByte (digits : String)
  /-- What follows `\u` is no code. -/
  | invalidUnit (digits : String)
  /-- The code is beyond the last code point. -/
  | escapeOutOfRange (digits : String)
  /-- The code is one half of a surrogate pair whose other half is missing. -/
  | unpairedSurrogate (digits : String)
deriving DecidableEq

/-- The wording of a fault. -/
def LiteralError.message : LiteralError → String
  | .invalidNumber text => "invalid number: " ++ text
  | .invalidBigInt text => "invalid bigint: " ++ text
  | .unterminatedString text => "unterminated string: " ++ text
  | .danglingEscape => "dangling escape"
  | .invalidByte digits => "invalid escape: " ++ digits
  | .invalidUnit digits => "invalid escape: \\u" ++ digits
  | .escapeOutOfRange digits => "escape out of range: \\u\x7b" ++ digits ++ "\x7d"
  | .unpairedSurrogate digits => "unpaired surrogate: \\u" ++ digits

end ScriptWire
