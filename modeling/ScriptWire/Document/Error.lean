/-!
# Faults of document texts

## Main definitions

- `Document.TextError` — why a text is no document
- `Document.TextError.message`, `Document.TextError.isCut` — its wording, and whether the text ends
  too early
-/

namespace ScriptWire

namespace Document

/-- Why a text is no document. -/
inductive TextError
  | endInList
  | endInObject
  | endInString
  | endInValue
  | expectedColon
  | expectedListCommaOrEnd
  | expectedObjectCommaOrEnd
  | expectedWord
  | expectedValue
  | invalidEscape
  | invalidNumber
  | numberOutOfRange
  | controlCharacter
  | keyNotString
  | loneSurrogate
  | trailingComma
  | trailingCharacters
  | unexpectedEscapeEnd
  | tooNested
deriving DecidableEq

/-- The wording of a fault. -/
def TextError.message : TextError → String
  | .endInList => "EOF while parsing a list"
  | .endInObject => "EOF while parsing an object"
  | .endInString => "EOF while parsing a string"
  | .endInValue => "EOF while parsing a value"
  | .expectedColon => "expected \x60:\x60"
  | .expectedListCommaOrEnd => "expected \x60,\x60 or \x60]\x60"
  | .expectedObjectCommaOrEnd => "expected \x60,\x60 or \x60\x7d\x60"
  | .expectedWord => "expected ident"
  | .expectedValue => "expected value"
  | .invalidEscape => "invalid escape"
  | .invalidNumber => "invalid number"
  | .numberOutOfRange => "number out of range"
  | .controlCharacter => "control character (\\u0000-\\u001F) found while parsing a string"
  | .keyNotString => "key must be a string"
  | .loneSurrogate => "lone leading surrogate in hex escape"
  | .trailingComma => "trailing comma"
  | .trailingCharacters => "trailing characters"
  | .unexpectedEscapeEnd => "unexpected end of hex escape"
  | .tooNested => "recursion limit exceeded"

/-- The text ends too early, and could go on. -/
def TextError.isCut : TextError → Bool
  | .endInList => true
  | .endInObject => true
  | .endInString => true
  | .endInValue => true
  | _ => false

end Document

end ScriptWire
