import ScriptWire.Literal.Digit
import ScriptWire.Script.Trivia

/-!
# Lexemes of scripts

The words, numbers, strings and patterns of a script. Each scanner takes the text from the first
character of the lexeme on, and gives the characters of the lexeme and the text after it.

## Main definitions

- `Script.word?` — a name or keyword
- `Script.number?` — a numeric literal
- `Script.quoted?` — a string literal with its quotes
- `Script.pattern?` — the body of a regular expression up to its closing slash
- `Script.isReserved` — the words that are no names
-/

namespace ScriptWire

namespace Script

/-- What a scanner gives: the characters of a lexeme and the text after it. -/
abbrev Scan := Option (List Char × List Char)

/-- The scan with the characters `cs` in front of its lexeme. -/
def Scan.after (cs : List Char) (s : Scan) : Scan :=
  s.map fun (taken, rest) => (cs ++ taken, rest)

/-- The longest stretch of characters with the property `p`. -/
def stretch (p : Char → Bool) (s : List Char) : List Char × List Char :=
  (s.takeWhile p, s.dropWhile p)

mutual

/-- The parts of a name: plain characters, and codes after a backslash, kept as they are written. -/
def nameTail : List Char → Scan
  | '\\' :: 'u' :: '{' :: cs => Scan.after ['\\', 'u', '{'] (bracedCode false cs)
  | '\\' :: 'u' :: a :: b :: c :: d :: cs =>
    if [a, b, c, d].all isHexDigit then Scan.after ['\\', 'u', a, b, c, d] (nameTail cs) else none
  | '\\' :: _ => none
  | c :: cs => if isNamePart c then Scan.after [c] (nameTail cs) else some ([], c :: cs)
  | [] => some ([], [])

/-- The rest of a code in braces and of the name after it; `filled` tells that a digit was seen. -/
def bracedCode (filled : Bool) : List Char → Scan
  | [] => none
  | c :: cs =>
    if isHexDigit c then Scan.after [c] (bracedCode true cs)
    else if c = '}' && filled then Scan.after [c] (nameTail cs)
    else none

end

/-- A name or keyword. -/
def word? : List Char → Scan
  | '\\' :: cs => nameTail ('\\' :: cs)
  | c :: cs => if isNameStart c then nameTail (c :: cs) else none
  | [] => none

/-- Digits accepted by `p`, with single separators between them. -/
def digitGroup (p : Char → Bool) : List Char → List Char × List Char
  | '_' :: c :: cs =>
    if p c then
      let (taken, rest) := digitGroup p cs
      ('_' :: c :: taken, rest)
    else ([], '_' :: c :: cs)
  | c :: cs =>
    if p c then
      let (taken, rest) := digitGroup p cs
      (c :: taken, rest)
    else ([], c :: cs)
  | [] => ([], [])

/-- Digits accepted by `p`, at least one and no separator in front. -/
def digits? (p : Char → Bool) (s : List Char) : Scan :=
  if s.head?.any p then some (digitGroup p s) else none

/-- The mark of a big integer, if it stands here. -/
def bigMark : List Char → List Char × List Char
  | 'n' :: cs => (['n'], cs)
  | cs => ([], cs)

/-- An exponent, if one stands here. -/
def exponentPart : List Char → List Char × List Char
  | mark :: cs =>
    if mark = 'e' || mark = 'E' then
      let (sign, digits) := match cs with
        | '+' :: tail => (['+'], tail)
        | '-' :: tail => (['-'], tail)
        | tail => ([], tail)
      match digits? Char.isDigit digits with
      | some (taken, rest) => (mark :: sign ++ taken, rest)
      | none => ([], mark :: cs)
    else ([], mark :: cs)
  | [] => ([], [])

/-- The digits can stand before a decimal point: a single zero, or digits that start with at most
one zero. -/
def isWholePart : List Char → Bool
  | ['0'] => true
  | '0' :: c :: _ => '1' ≤ c && c ≤ '9'
  | _ => true

/-- A number of the given radix after its mark. -/
def radixNumber? (mark : List Char) (radix : Nat) (s : List Char) : Scan := do
  let (digits, s) ← digits? (fun c => (digit? radix c).isSome) s
  let (big, s) := bigMark s
  some (mark ++ digits ++ big, s)

/-- What follows the point of a decimal number. -/
def placesPart (s : List Char) : List Char × List Char :=
  let (places, s) := (digits? Char.isDigit s).getD ([], s)
  let (exponent, s) := exponentPart s
  (places ++ exponent, s)

/-- A number that starts with a digit and has no radix mark. -/
def decimalNumber? (s : List Char) : Scan := do
  let (whole, rest) ← digits? Char.isDigit s
  let plain : Scan :=
    let (big, rest) := bigMark rest
    some (whole ++ big, rest)
  if isWholePart whole then
    match rest with
    | '.' :: tail =>
      let (places, tail) := placesPart tail
      some (whole ++ '.' :: places, tail)
    | _ =>
      match exponentPart rest with
      | ([], _) => plain
      | (exponent, tail) => some (whole ++ exponent, tail)
  else plain

/-- A numeric literal. -/
def number? (s : List Char) : Scan :=
  match s with
  | '0' :: c :: cs =>
    let marked :=
      if c = 'x' || c = 'X' then radixNumber? ['0', c] 16 cs
      else if c = 'o' || c = 'O' then radixNumber? ['0', c] 8 cs
      else if c = 'b' || c = 'B' then radixNumber? ['0', c] 2 cs
      else none
    marked.or (decimalNumber? s)
  | '.' :: c :: cs =>
    if c.isDigit then
      let (places, rest) := placesPart (c :: cs)
      some ('.' :: places, rest)
    else none
  | _ => decimalNumber? s

mutual

/-- The rest of a string literal up to its closing quote `q`. A line break ends the run of plain
characters; after it only blanks, a comment or the quote can stand. -/
def stringTail (q : Char) : List Char → Scan
  | [] => none
  | '\\' :: cs => Scan.after ['\\'] (escapeTail q cs)
  | c :: cs =>
    if c = q then some ([c], cs)
    else if c = '\n' || c = '\r' then Scan.after [c] (stringGap q cs)
    else Scan.after [c] (stringTail q cs)

/-- The rest of a string literal after a backslash. -/
def escapeTail (q : Char) : List Char → Scan
  | 'x' :: a :: b :: cs =>
    if isHexDigit a && isHexDigit b then Scan.after ['x', a, b] (stringTail q cs) else none
  | 'u' :: '{' :: cs => Scan.after ['u', '{'] (escapeCode q false cs)
  | 'u' :: a :: b :: c :: d :: cs =>
    if [a, b, c, d].all isHexDigit then Scan.after ['u', a, b, c, d] (stringTail q cs) else none
  | '\r' :: '\n' :: cs => Scan.after ['\r', '\n'] (stringTail q cs)
  | '?' :: '\n' :: cs => Scan.after ['?', '\n'] (stringTail q cs)
  | c :: cs => if c = 'x' || c = 'u' then none else Scan.after [c] (stringTail q cs)
  | [] => none

/-- The rest of a string literal inside a code in braces. -/
def escapeCode (q : Char) (filled : Bool) : List Char → Scan
  | [] => none
  | c :: cs =>
    if isHexDigit c then Scan.after [c] (escapeCode q true cs)
    else if c = '}' && filled then Scan.after [c] (stringTail q cs)
    else none

/-- The rest of a string literal after a line break. -/
def stringGap (q : Char) : List Char → Scan
  | [] => none
  | '/' :: '/' :: cs => Scan.after ['/', '/'] (gapLine q cs)
  | '/' :: '*' :: cs => Scan.after ['/', '*'] (gapBlock q cs)
  | c :: cs =>
    if c = q then some ([c], cs)
    else if isBlank c then Scan.after [c] (stringGap q cs)
    else none

/-- The rest of a string literal inside a comment that runs to the end of the line. -/
def gapLine (q : Char) : List Char → Scan
  | [] => none
  | c :: cs =>
    if c = '\r' || isLineBreak c then Scan.after [c] (stringGap q cs)
    else Scan.after [c] (gapLine q cs)

/-- The rest of a string literal inside a comment that is closed by its own mark. -/
def gapBlock (q : Char) : List Char → Scan
  | [] => none
  | '*' :: '/' :: cs => Scan.after ['*', '/'] (stringTail q cs)
  | c :: cs => Scan.after [c] (gapBlock q cs)

end

/-- A string literal with its quotes. -/
def quoted? : List Char → Scan
  | q :: cs => if q = '\x22' || q = '\x27' then Scan.after [q] (stringTail q cs) else none
  | [] => none

mutual

/-- The body of a regular expression up to its closing slash, which is taken off the text. -/
def patternTail : List Char → Scan
  | [] => none
  | '/' :: cs => some ([], cs)
  | '\\' :: c :: cs => if c = '\n' then none else Scan.after ['\\', c] (patternTail cs)
  | '[' :: cs => Scan.after ['['] (patternClass cs)
  | c :: cs => if c = '\n' || c = '\\' then none else Scan.after [c] (patternTail cs)

/-- The same inside a class in brackets, where a slash stands for itself. -/
def patternClass : List Char → Scan
  | [] => none
  | ']' :: cs => Scan.after [']'] (patternTail cs)
  | '\\' :: c :: cs => if c = '\n' then none else Scan.after ['\\', c] (patternClass cs)
  | c :: cs => if c = '\n' || c = '\\' then none else Scan.after [c] (patternClass cs)

end

/-- The body of a regular expression after its opening slash, at least one character long. The
closing slash is taken off the text. -/
def pattern? (s : List Char) : Scan :=
  match patternTail s with
  | some ([], _) => none
  | scan => scan

/-- How a stretch of template text ends. -/
inductive TemplateEnd
  /-- With the closing mark. -/
  | closed
  /-- With the opening of a substitution. -/
  | substitution
deriving DecidableEq

mutual

/-- The end of a stretch of template text, and the text after it. -/
def templateTail : List Char → Option (TemplateEnd × List Char)
  | [] => none
  | '\x60' :: cs => some (.closed, cs)
  | '$' :: '{' :: cs => some (.substitution, cs)
  | '\\' :: cs => templateEscape cs
  | _ :: cs => templateTail cs

/-- The same after a backslash. -/
def templateEscape : List Char → Option (TemplateEnd × List Char)
  | 'x' :: a :: b :: cs => if isHexDigit a && isHexDigit b then templateTail cs else none
  | 'u' :: '{' :: cs => templateCode false cs
  | 'u' :: a :: b :: c :: d :: cs => if [a, b, c, d].all isHexDigit then templateTail cs else none
  | c :: cs => if c = 'x' || c = 'u' then none else templateTail cs
  | [] => none

/-- The same inside a code in braces. -/
def templateCode (filled : Bool) : List Char → Option (TemplateEnd × List Char)
  | [] => none
  | c :: cs =>
    if isHexDigit c then templateCode true cs
    else if c = '}' && filled then templateTail cs
    else none

end

/-- The words that are no names, except where a property is named. -/
def reservedWords : List String :=
  ["break", "case", "catch", "class", "const", "continue", "debugger", "default", "delete", "do",
   "else", "export", "extends", "false", "finally", "for", "function", "if", "import", "in",
   "instanceof", "new", "null", "return", "super", "switch", "this", "throw", "true", "try",
   "typeof", "var", "void", "while", "with"]

/-- The word is no name. -/
def isReserved (word : String) : Bool :=
  reservedWords.contains word

end Script

end ScriptWire
