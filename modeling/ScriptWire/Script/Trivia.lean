import ScriptWire.Script.Character

/-!
# Blanks, comments and automatic semicolons

Blanks and comments may stand between any two tokens. Where a statement may end, a line break can
stand for the semicolon; whether it does is decided by the characters that follow the last token.

## Main definitions

- `Script.skip` — the text without the blanks and comments in front of it
- `Script.skipOperand` — the same where no operator can stand, so that markup comments count too
- `Script.endsStatement` — whether a statement may end here without a semicolon
-/

namespace ScriptWire

namespace Script

mutual

/-- The text without the blanks and comments in front of it. With `markup`, an opening or closing
markup comment mark starts a comment that runs to the end of its line. A comment that is never
closed is no comment. -/
def skipTrivia (markup : Bool) : List Char → List Char
  | [] => []
  | '/' :: '/' :: cs => skipLine markup cs
  | '/' :: '*' :: cs => skipBlock markup ('/' :: '*' :: cs) cs
  | '<' :: '!' :: '-' :: '-' :: cs =>
    if markup then skipMarkup cs else '<' :: '!' :: '-' :: '-' :: cs
  | '-' :: '-' :: '>' :: cs => if markup then skipMarkup cs else '-' :: '-' :: '>' :: cs
  | c :: cs => if isBlank c then skipTrivia markup cs else c :: cs

/-- The text after a comment that runs to the end of the line. -/
def skipLine (markup : Bool) : List Char → List Char
  | [] => []
  | c :: cs => if c = '\r' || isLineBreak c then skipTrivia markup cs else skipLine markup cs

/-- The text after a comment that is closed by its own mark; `start` is the text from its opening
mark on. -/
def skipBlock (markup : Bool) (start : List Char) : List Char → List Char
  | [] => start
  | '*' :: '/' :: cs => skipTrivia markup cs
  | _ :: cs => skipBlock markup start cs

/-- The text after a markup comment. -/
def skipMarkup : List Char → List Char
  | [] => []
  | c :: cs => if isLineBreak c then skipTrivia true cs else skipMarkup cs

end

/-- The text without the blanks and comments in front of it. -/
def skip (s : List Char) : List Char :=
  skipTrivia false s

/-- The text without the blanks and comments in front of it, where no operator can stand. -/
def skipOperand (s : List Char) : List Char :=
  skipTrivia true s

/-- Whether the first token of a line can start a statement, rather than continue the line before.
Operators and punctuation continue it, except that a doubled sign, a negation and a number that
begins with its point start a statement. -/
def opensStatement : List Char → Bool
  | [] => true
  | '.' :: cs => cs.head?.any Char.isDigit
  | '+' :: cs => cs.head? == some '+'
  | '-' :: cs => cs.head? == some '-'
  | '!' :: cs => cs.head? != some '='
  | 'i' :: 'n' :: cs =>
    if !cs.head?.any Char.isAlpha then false
    else if "stanceof".toList.isPrefixOf cs then (cs.drop 8).head?.any Char.isAlpha
    else true
  | c :: _ => !"\x60,:;*%><=[(?^|&/".toList.contains c

mutual

/-- Whether the text after a line break starts a statement, blanks and comments aside. -/
def lineOpens : List Char → Bool
  | [] => true
  | '/' :: '/' :: cs => lineOpensAfterLine cs
  | '/' :: '*' :: cs => lineOpensAfterBlock cs
  | c :: cs => if isPlainSpace c then lineOpens cs else opensStatement (c :: cs)

/-- The same for the text inside a comment that runs to the end of the line. -/
def lineOpensAfterLine : List Char → Bool
  | [] => true
  | c :: cs => if isLineBreak c then lineOpens cs else lineOpensAfterLine cs

/-- The same for the text inside a comment that is closed by its own mark. -/
def lineOpensAfterBlock : List Char → Bool
  | [] => true
  | '*' :: '/' :: cs => lineOpens cs
  | _ :: cs => lineOpensAfterBlock cs

end

/-- The character cannot continue a statement that has no operand yet. -/
def isFreshStart (c : Option Char) : Bool :=
  c != some ',' && c != some '='

mutual

/-- Whether a statement may end here without a semicolon: at the end of the text, before a closing
brace, or at a line break after which a statement starts. The text is what follows the last token;
`operand` tells that this token ends an expression. Where it does not, a comment that holds or ends
with a line break is enough. -/
def endsStatement (operand : Bool) : List Char → Bool
  | [] => true
  | '/' :: '/' :: cs => endsAfterLine operand cs
  | '/' :: '*' :: cs => endsAfterBlock operand false cs
  | c :: cs =>
    if c = '}' then true
    else if isLineBreak c then lineOpens cs
    else if isPlainSpace c then endsStatement operand cs
    else isBlank c && endsAfterBlank operand cs

/-- The same inside a comment that runs to the end of the line. -/
def endsAfterLine (operand : Bool) : List Char → Bool
  | [] => true
  | c :: cs =>
    if isLineBreak c then
      if operand then lineOpens cs
      else isFreshStart (skip cs).head? && (skip cs).head? != some '/'
    else if c = '\r' && operand then endsStatement operand cs
    else endsAfterLine operand cs

/-- The same inside a comment that is closed by its own mark; `broken` tells that it holds a line
break. -/
def endsAfterBlock (operand broken : Bool) : List Char → Bool
  | [] => true
  | '*' :: '/' :: cs =>
    (broken && !operand && isFreshStart cs.head?) || endsStatement operand cs
  | c :: cs => endsAfterBlock operand (broken || isLineBreak c) cs

/-- The same after a blank that is no plain space: only a comment can be followed by the end. -/
def endsAfterBlank (operand : Bool) : List Char → Bool
  | [] => false
  | '/' :: '/' :: cs => endsAfterLine operand cs
  | '/' :: '*' :: cs => endsAfterBlock operand false cs
  | c :: cs => isBlank c && endsAfterBlank operand cs

end

end Script

end ScriptWire
