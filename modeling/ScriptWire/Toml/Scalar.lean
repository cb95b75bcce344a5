import ScriptWire.Literal.Number
import ScriptWire.Toml.Value

/-!
# TOML strings, numbers and moments

Each scanner takes the text from the first character that is still to be read on, and gives what it
has read with the text after it.

## Main definitions

- `Toml.quoted?` — a string in any of the four kinds of quotes
- `Toml.integer?`, `Toml.isFraction` — numbers
- `Toml.moment?` — dates and times
-/

namespace ScriptWire

namespace Toml

/-- What a scanner of strings gives: the characters of the string, and the text after it. -/
abbrev Scan := Option (List Char × List Char)

/-- The scan with the character `c` in front of its string. -/
def Scan.after (c : Char) (s : Scan) : Scan :=
  s.map fun (taken, rest) => (c :: taken, rest)

/-- The character is a space or a tab. -/
def isBlank (c : Char) : Bool :=
  c = ' ' || c = '\t'

/-- The character may stand in strings and comments: control characters may not, but for tabs. -/
def isText (c : Char) : Bool :=
  c = '\t' || (' ' ≤ c && c ≠ '\x7f')

/-- The character that a letter after a backslash stands for. -/
def escaped? : Char → Option Char
  | 'b' => some '\x08'
  | 't' => some '\t'
  | 'n' => some '\n'
  | 'f' => some '\x0c'
  | 'r' => some '\r'
  | '\x22' => some '\x22'
  | '\\' => some '\\'
  | _ => none

/-- The character with the code that hexadecimal digits denote. -/
def coded? (digits : List Char) : Option Char := do
  let code ← digitsIn? 16 digits
  if code < 0xD800 || (0xDFFF < code && code < 0x110000) then some (Char.ofNat code) else none

/-- The rest of a string in double quotes. -/
def basicTail : List Char → Scan
  | '\x22' :: cs => some ([], cs)
  | '\\' :: 'u' :: a :: b :: c :: d :: cs => do
    Scan.after (← coded? [a, b, c, d]) (basicTail cs)
  | '\\' :: 'U' :: a :: b :: c :: d :: e :: f :: g :: h :: cs => do
    Scan.after (← coded? [a, b, c, d, e, f, g, h]) (basicTail cs)
  | '\\' :: c :: cs => do Scan.after (← escaped? c) (basicTail cs)
  | c :: cs => if isText c then Scan.after c (basicTail cs) else none
  | [] => none

/-- The rest of a string in single quotes. -/
def literalTail : List Char → Scan
  | '\x27' :: cs => some ([], cs)
  | c :: cs => if isText c then Scan.after c (literalTail cs) else none
  | [] => none

/-- The text goes on with nothing but blanks up to the end of the line. -/
def lineEnds (cs : List Char) : Bool :=
  match cs.dropWhile isBlank with
  | '\n' :: _ => true
  | '\r' :: '\n' :: _ => true
  | _ => false

/-- The rest of a string in three double quotes. While `joining`, blanks and line ends are left out:
a backslash at the end of a line joins it with what follows. -/
def basicLines (joining : Bool) : List Char → Scan
  | '\x22' :: '\x22' :: '\x22' :: '\x22' :: '\x22' :: cs => some (['\x22', '\x22'], cs)
  | '\x22' :: '\x22' :: '\x22' :: '\x22' :: cs => some (['\x22'], cs)
  | '\x22' :: '\x22' :: '\x22' :: cs => some ([], cs)
  | '\r' :: '\n' :: cs =>
    if joining then basicLines true cs else Scan.after '\n' (basicLines false cs)
  | '\\' :: 'u' :: a :: b :: c :: d :: cs => do
    Scan.after (← coded? [a, b, c, d]) (basicLines false cs)
  | '\\' :: 'U' :: a :: b :: c :: d :: e :: f :: g :: h :: cs => do
    Scan.after (← coded? [a, b, c, d, e, f, g, h]) (basicLines false cs)
  | '\\' :: c :: cs =>
    if lineEnds (c :: cs) then basicLines true (c :: cs)
    else do Scan.after (← escaped? c) (basicLines false cs)
  | c :: cs =>
    if joining && (isBlank c || c = '\n') then basicLines true cs
    else if isText c || c = '\n' then Scan.after c (basicLines false cs)
    else none
  | [] => none

/-- The rest of a string in three single quotes. -/
def literalLines : List Char → Scan
  | '\x27' :: '\x27' :: '\x27' :: '\x27' :: '\x27' :: cs => some (['\x27', '\x27'], cs)
  | '\x27' :: '\x27' :: '\x27' :: '\x27' :: cs => some (['\x27'], cs)
  | '\x27' :: '\x27' :: '\x27' :: cs => some ([], cs)
  | '\r' :: '\n' :: cs => Scan.after '\n' (literalLines cs)
  | c :: cs => if isText c || c = '\n' then Scan.after c (literalLines cs) else none
  | [] => none

/-- The text without a line end at its start. -/
def dropLineEnd : List Char → List Char
  | '\n' :: cs => cs
  | '\r' :: '\n' :: cs => cs
  | cs => cs

/-- A string on one line. -/
def lineQuoted? : List Char → Scan
  | '\x22' :: cs => basicTail cs
  | '\x27' :: cs => literalTail cs
  | _ => none

/-- A string in any of the four kinds of quotes. -/
def quoted? : List Char → Scan
  | '\x22' :: '\x22' :: '\x22' :: cs => basicLines false (dropLineEnd cs)
  | '\x27' :: '\x27' :: '\x27' :: cs => literalLines (dropLineEnd cs)
  | cs => lineQuoted? cs

/-- The value of digits in the given radix after digits of the value `n`, with single separators
between digits. -/
def groupedAfter (radix n : Nat) : List Char → Option Nat
  | [] => some n
  | '_' :: c :: cs => do groupedAfter radix (radix * n + (← digit? radix c)) cs
  | c :: cs => do groupedAfter radix (radix * n + (← digit? radix c)) cs

/-- The value of digits in the given radix, at least one, with single separators between them. -/
def grouped? (radix : Nat) : List Char → Option Nat
  | [] => none
  | c :: cs => do groupedAfter radix (← digit? radix c) cs

/-- The value of a decimal number: zero is the only one that starts with the digit zero. -/
def decimal? : List Char → Option Nat
  | '0' :: _ :: _ => none
  | cs => grouped? 10 cs

/-- A number without a fraction. -/
def wholeNumber? : List Char → Option Int
  | '0' :: 'x' :: cs => (grouped? 16 cs).map Int.ofNat
  | '0' :: 'o' :: cs => (grouped? 8 cs).map Int.ofNat
  | '0' :: 'b' :: cs => (grouped? 2 cs).map Int.ofNat
  | '+' :: cs => (decimal? cs).map Int.ofNat
  | '-' :: cs => (decimal? cs).map fun n => -(n : Int)
  | cs => (decimal? cs).map Int.ofNat

/-- A number without a fraction that fits in sixty-four bits with a sign. -/
def integer? (cs : List Char) : Option Int := do
  let n ← wholeNumber? cs
  if -(Nat.pow 2 63) ≤ n && n < Nat.pow 2 63 then some n else none

/-- The text without a sign at its start. -/
def dropSign : List Char → List Char
  | '+' :: cs => cs
  | '-' :: cs => cs
  | cs => cs

/-- The digits of an exponent, after a sign or not. -/
def isExponent (cs : List Char) : Bool :=
  (grouped? 10 (dropSign cs)).isSome

/-- The text has a fraction, an exponent or both, and no sign. -/
def hasFraction (cs : List Char) : Bool :=
  let isMark := fun c => c = '.' || c = 'e' || c = 'E'
  let whole := cs.takeWhile fun c => !isMark c
  (decimal? whole).isSome &&
    match cs.drop whole.length with
    | '.' :: after =>
      let isE := fun c => c = 'e' || c = 'E'
      let places := after.takeWhile fun c => !isE c
      (grouped? 10 places).isSome &&
        match after.drop places.length with
        | [] => true
        | _ :: exponent => isExponent exponent
    | _ :: exponent => isExponent exponent
    | [] => false

/-- A number with a fraction, an exponent or both, or one of the names of special numbers. Of the
numbers whose rounded value is infinite only the negative ones are accepted. -/
def isFraction (cs : List Char) : Bool :=
  let body := dropSign cs
  body = "inf".toList || body = "nan".toList ||
    (hasFraction body &&
      Binary64.parse? (Literal.withoutSeparators cs) ≠ some Binary64.infinity)

/-- A number of as many digits as `count`, and the text after it. -/
def fixed? (count : Nat) (cs : List Char) : Option (Nat × List Char) := do
  if cs.length < count then none
  else return (← digitsIn? 10 (cs.take count), cs.drop count)

/-- A number of two digits between two bounds, and the text after it. -/
def pair? (low high : Nat) (cs : List Char) : Option (Nat × List Char) := do
  let (n, rest) ← fixed? 2 cs
  if low ≤ n && n ≤ high then some (n, rest) else none

/-- The text after a character. -/
def after? (c : Char) : List Char → Option (List Char)
  | d :: cs => if d = c then some cs else none
  | [] => none

/-- The number of days of a month. -/
def daysIn (year month : Nat) : Nat :=
  if month = 2 then
    if year % 4 = 0 && (year % 100 ≠ 0 || year % 400 = 0) then 29 else 28
  else if month = 4 || month = 6 || month = 9 || month = 11 then 30
  else 31

/-- The text after a date. -/
def date? (cs : List Char) : Option (List Char) := do
  let (year, cs) ← fixed? 4 cs
  let (month, cs) ← pair? 1 12 (← after? '-' cs)
  let (_, cs) ← pair? 1 (daysIn year month) (← after? '-' cs)
  return cs

/-- The text after a time of day. -/
def time? (cs : List Char) : Option (List Char) := do
  let (_, cs) ← pair? 0 23 cs
  let (_, cs) ← pair? 0 59 (← after? ':' cs)
  let (_, cs) ← pair? 0 60 (← after? ':' cs)
  match cs with
  | '.' :: c :: rest =>
    if c.isDigit then return rest.dropWhile Char.isDigit else return cs
  | _ => return cs

/-- The text after the offset of a time zone, if there is one. -/
def dropOffset (cs : List Char) : List Char :=
  match cs with
  | 'Z' :: rest => rest
  | 'z' :: rest => rest
  | c :: rest =>
    if c = '+' || c = '-' then
      let zone := do
        let (_, rest) ← pair? 0 23 rest
        let (_, rest) ← pair? 0 59 (← after? ':' rest)
        return rest
      zone.getD cs
    else cs
  | [] => []

/-- The text after a date, a time of day, or both. -/
def moment? (cs : List Char) : Option (List Char) :=
  match date? cs with
  | none => time? cs
  | some rest =>
    match rest with
    | c :: tail =>
      if c = 'T' || c = 't' || c = ' ' then
        match time? tail with
        | some after => some (dropOffset after)
        | none => some rest
      else some rest
    | [] => some []

end Toml

end ScriptWire
