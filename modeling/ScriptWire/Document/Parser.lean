import ScriptWire.Document.Number
import ScriptWire.Literal.Digit

/-!
# Reading documents

## Main definitions

- `Document.string` — a string after its opening quote
- `Document.value` — a value, with a number of levels left
- `Document.parse` — the document of a text
-/

namespace ScriptWire

namespace Document

/-- Blanks between the tokens of a document. -/
def isBlank (c : Char) : Bool :=
  c == ' ' || c == '\n' || c == '\t' || c == '\r'

/-- The text without the blanks in front of it. -/
def skip (s : List Char) : List Char :=
  s.dropWhile isBlank

/-- The code of a hexadecimal escape, which takes up four bytes. -/
def hexEscape (s : List Char) : Except TextError (Parsed Nat) :=
  match s with
  | a :: b :: c :: d :: rest =>
    match digitsIn? 16 [a, b, c, d] with
    | some n => .ok (n, rest)
    | none => .error .invalidEscape
  | _ =>
    if s.foldl (fun n c => n + c.utf8Size) 0 < 4 then .error .endInString else .error .invalidEscape

/-- The low half of a surrogate pair after its high half. -/
def lowHalf (s : List Char) : Except TextError (Parsed Nat) :=
  match s with
  | [] => .error .endInString
  | '\\' :: [] => .error .endInString
  | '\\' :: 'u' :: rest => do
    let (low, rest) ← hexEscape rest
    if 0xDC00 ≤ low && low ≤ 0xDFFF then .ok (low, rest) else .error .loneSurrogate
  | _ => .error .unexpectedEscapeEnd

/-- The character of a hexadecimal escape. -/
def unicodeEscape (s : List Char) : Except TextError (Parsed Char) := do
  let (unit, rest) ← hexEscape s
  if 0xDC00 ≤ unit && unit ≤ 0xDFFF then .error .loneSurrogate
  else if 0xD800 ≤ unit && unit ≤ 0xDBFF then
    let (low, rest) ← lowHalf rest
    .ok (Char.ofNat (0x10000 + (unit - 0xD800) * 0x400 + (low - 0xDC00)), rest)
  else
    .ok (Char.ofNat unit, rest)

/-- The character that an escape denotes, after its backslash. -/
def escape (s : List Char) : Except TextError (Parsed Char) :=
  match s with
  | [] => .error .endInString
  | '\x22' :: rest => .ok ('\x22', rest)
  | '\\' :: rest => .ok ('\\', rest)
  | '/' :: rest => .ok ('/', rest)
  | 'b' :: rest => .ok ('\x08', rest)
  | 'f' :: rest => .ok ('\x0c', rest)
  | 'n' :: rest => .ok ('\n', rest)
  | 'r' :: rest => .ok ('\r', rest)
  | 't' :: rest => .ok ('\t', rest)
  | 'u' :: rest => unicodeEscape rest
  | _ => .error .invalidEscape

/-- The characters of a string after its opening quote, added to those that were read, which are
kept last first. -/
def stringTail : Nat → List Char → List Char → Except TextError (Parsed (List Char))
  | 0, _, _ => .error .endInString
  | _ + 1, _, [] => .error .endInString
  | fuel + 1, done, c :: cs =>
    if c = '\x22' then .ok (done.reverse, cs)
    else if c = '\\' then
      match escape cs with
      | .error e => .error e
      | .ok (d, rest) => stringTail fuel (d :: done) rest
    else if c.toNat < 0x20 then .error .controlCharacter
    else stringTail fuel (c :: done) cs

/-- A string after its opening quote. -/
def string (s : List Char) : Except TextError (Parsed String) :=
  (stringTail (s.length + 1) [] s).map fun (text, rest) => (String.ofList text, rest)

/-- The rest of a word that stands for a value. -/
def wordTail (value : Value) : List Char → List Char → Except TextError (Parsed Value)
  | [], s => .ok (value, s)
  | _ :: _, [] => .error .endInValue
  | w :: ws, c :: cs => if w = c then wordTail value ws cs else .error .expectedWord

/-- What stands inside brackets at a place where an item may start: the closing bracket, with the
text after it, or an item. -/
inductive Turn
  | close (rest : List Char)
  | item (s : List Char)

/-- The turn inside an array, either after the opening bracket or after an item. -/
def listTurn (first : Bool) (s : List Char) : Except TextError Turn :=
  match skip s with
  | [] => .error .endInList
  | ']' :: rest => .ok (.close rest)
  | c :: cs =>
    if first then .ok (.item (c :: cs))
    else if c = ',' then
      match skip cs with
      | [] => .error .endInValue
      | ']' :: _ => .error .trailingComma
      | s => .ok (.item s)
    else .error .expectedListCommaOrEnd

/-- The text after the quote that a key starts with. -/
def keyTurn (s : List Char) : Except TextError Turn :=
  match s with
  | [] => .error .endInValue
  | '\x22' :: rest => .ok (.item rest)
  | '\x7d' :: _ => .error .trailingComma
  | _ => .error .keyNotString

/-- The turn inside an object; an item is given by the text after the quote of its key. -/
def objectTurn (first : Bool) (s : List Char) : Except TextError Turn :=
  match skip s with
  | [] => .error .endInObject
  | '\x7d' :: rest => .ok (.close rest)
  | c :: cs =>
    if first then keyTurn (c :: cs)
    else if c = ',' then keyTurn (skip cs)
    else .error .expectedObjectCommaOrEnd

/-- The text after the colon of a member. -/
def colon (s : List Char) : Except TextError (List Char) :=
  match skip s with
  | [] => .error .endInObject
  | ':' :: rest => .ok rest
  | _ => .error .expectedColon

/-- The items of an array, added to those that were read, which are kept last first. -/
def itemsTail (item : List Char → Except TextError (Parsed Value)) :
    Nat → Bool → List Value → List Char → Except TextError (Parsed Value)
  | 0, _, _, _ => .error .endInList
  | fuel + 1, first, done, s => do
    match ← listTurn first s with
    | .close rest => .ok (.array done.reverse, rest)
    | .item s =>
      let (v, rest) ← item s
      itemsTail item fuel false (v :: done) rest

/-- A member after the quote of its key. -/
def member (item : List Char → Except TextError (Parsed Value)) (s : List Char) :
    Except TextError (Parsed (String × Value)) := do
  let (key, rest) ← string s
  let rest ← colon rest
  let (v, rest) ← item rest
  .ok ((key, v), rest)

/-- The members of an object, put among those that were read. -/
def membersTail (item : List Char → Except TextError (Parsed Value)) :
    Nat → Bool → List (String × Value) → List Char → Except TextError (Parsed Value)
  | 0, _, _, _ => .error .endInObject
  | fuel + 1, first, done, s => do
    match ← objectTurn first s with
    | .close rest => .ok (.object done, rest)
    | .item s =>
      let ((key, v), rest) ← member item s
      membersTail item fuel false (insert key v done) rest

/-- A value, given how the text after an opening bracket and an opening brace is read. -/
def valueWith (array object : List Char → Except TextError (Parsed Value)) (s : List Char) :
    Except TextError (Parsed Value) :=
  match skip s with
  | [] => .error .endInValue
  | 'n' :: cs => wordTail .null ['u', 'l', 'l'] cs
  | 't' :: cs => wordTail (.boolean true) ['r', 'u', 'e'] cs
  | 'f' :: cs => wordTail (.boolean false) ['a', 'l', 's', 'e'] cs
  | '\x22' :: cs => (string cs).map fun (text, rest) => (.string text, rest)
  | '[' :: cs => array cs
  | '\x7b' :: cs => object cs
  | c :: cs => if c = '-' || c.isDigit then number (c :: cs) else .error .expectedValue

/-- A value in which no more than the given number of arrays and objects stand inside each
other. -/
def value : Nat → List Char → Except TextError (Parsed Value)
  | 0, s => valueWith (fun _ => .error .tooNested) (fun _ => .error .tooNested) s
  | levels + 1, s =>
    valueWith (fun s => itemsTail (value levels) (s.length + 1) true [] s)
      (fun s => membersTail (value levels) (s.length + 1) true [] s) s

/-- How many arrays and objects may stand inside each other. -/
def nestingLimit : Nat :=
  127

/-- The document of a text. -/
def parse (text : String) : Except TextError Value := do
  let (v, rest) ← value nestingLimit text.toList
  if (skip rest).isEmpty then .ok v else .error .trailingCharacters

end Document

end ScriptWire
