import ScriptWire.Toml.Scalar

/-!
# TOML texts

A text is a list of lines: headers of tables, and keys with values. A value may go on over several
lines. A text that breaks a rule has no value at all, so failure carries no reason.

## Main definitions

- `Toml.parse?` — the table that a text denotes
-/

namespace ScriptWire

namespace Toml

/-- Parsers take the text that is left. -/
abbrev Parser (α : Type) := StateT (List Char) Option α

/-- Values stand inside each other, and keys have parts, on fewer levels than this. -/
def nestingLimit : Nat := 80

/-- Takes a character, if it is the next one. -/
def mark? (c : Char) : Parser Bool := do
  match after? c (← get) with
  | some rest =>
    set rest
    return true
  | none => return false

/-- Takes a character. -/
def mark (c : Char) : Parser Unit := do
  set (← after? c (← get))

/-- Takes blanks. -/
def blanks : Parser Unit :=
  modify fun s => s.dropWhile isBlank

/-- The text after blanks, comments and line ends. -/
def dropLines (comment : Bool) : List Char → Option (List Char)
  | '\n' :: cs => dropLines false cs
  | '\r' :: '\n' :: cs => dropLines false cs
  | c :: cs =>
    if comment then
      if isText c then dropLines true cs else none
    else if isBlank c then dropLines false cs
    else if c = '#' then dropLines true cs
    else some (c :: cs)
  | [] => some []

/-- Takes blanks, comments and line ends. -/
def lines : Parser Unit := do
  set (← dropLines false (← get))

/-- Takes the end of a line, after a comment or not. -/
def lineEnd : Parser Unit := do
  blanks
  if ← mark? '#' then modify fun s => s.dropWhile isText
  match ← get with
  | [] => return ()
  | '\n' :: rest => set rest
  | '\r' :: '\n' :: rest => set rest
  | _ => failure

/-- The character may stand in a key without quotes. -/
def isKeyPart (c : Char) : Bool :=
  c.isAlphanum || c = '_' || c = '-'

/-- Takes one part of a key. -/
def keyPart : Parser String := do
  let s ← get
  match lineQuoted? s with
  | some (text, rest) =>
    set rest
    return String.ofList text
  | none =>
    let part := s.takeWhile isKeyPart
    if part.isEmpty then failure
    set (s.dropWhile isKeyPart)
    return String.ofList part

/-- Takes the parts of a key after the first. -/
def moreKeyParts : Nat → Parser (List String)
  | 0 => failure
  | n + 1 => do
    blanks
    if ← mark? '.' then
      blanks
      let part ← keyPart
      return part :: (← moreKeyParts n)
    else return []

/-- Takes a key: the parts before the last, and the last. -/
def key : Parser (List String × String) := do
  let first ← keyPart
  let parts := first :: (← moreKeyParts (nestingLimit - 1))
  return (parts.dropLast, parts.getLastD first)

/-- Takes the rest of an array after its bracket. -/
def arrayItems (item : Parser Value) : Nat → Parser (List Value)
  | 0 => failure
  | n + 1 => do
    lines
    if ← mark? ']' then return []
    let v ← item
    lines
    if ← mark? ',' then return v :: (← arrayItems item n)
    mark ']'
    return [v]

/-- Takes a key with its value: the parts of the key before the last, the last, and the value. -/
def entry (item : Parser Value) : Parser (List String × String × Value) := do
  let (path, last) ← key
  blanks
  mark '='
  blanks
  return (path, last, ← item)

/-- Takes the rest of a table that is written as a value, from a member on. -/
def inlineMembers (item : Parser Value) : Nat → Table → Parser Table
  | 0, _ => failure
  | n + 1, t => do
    blanks
    let (path, last, v) ← entry item
    let t ← t.define last v path
    blanks
    if ← mark? ',' then inlineMembers item n t
    else
      mark '\x7d'
      return t

/-- The character may stand in a number or in the word of a truth value. -/
def isAtomPart (c : Char) : Bool :=
  c.isAlphanum || c = '_' || c = '+' || c = '-' || c = '.'

/-- The value that a word or number denotes. -/
def atom? (cs : List Char) : Option Value :=
  if cs = "true".toList then some (.boolean true)
  else if cs = "false".toList then some (.boolean false)
  else
    match integer? cs with
    | some n => some (.integer n)
    | none => if isFraction cs then some .fraction else none

/-- Takes a value that is neither an array nor a table. -/
def scalar : Parser Value := do
  let s ← get
  match quoted? s with
  | some (text, rest) =>
    set rest
    return .string (String.ofList text)
  | none =>
    match moment? s with
    | some rest =>
      set rest
      return .moment
    | none =>
      set (s.dropWhile isAtomPart)
      atom? (s.takeWhile isAtomPart)

/-- Takes a value with at most `levels` brackets around each of its parts. -/
def value : Nat → Parser Value
  | 0 => scalar
  | levels + 1 => do
    if ← mark? '[' then
      return .array (← arrayItems (value levels) (← get).length)
    else if ← mark? '\x7b' then
      blanks
      if ← mark? '\x7d' then return .table .inline []
      return .table .inline (← inlineMembers (value levels) (← get).length [])
    else scalar

/-- Takes the lines of a text into the table at the path `here` of the table `t`. -/
def body : Nat → List String → Table → Parser Table
  | 0, _, _ => failure
  | n + 1, here, t => do
    lines
    if (← get).isEmpty then return t
    if ← mark? '[' then
      let repeated ← mark? '['
      blanks
      let (path, last) ← key
      blanks
      mark ']'
      if repeated then mark ']'
      lineEnd
      let t ← t.reach (if repeated then Table.openItem last else Table.openTable last) path
      body n (path ++ [last]) t
    else
      let (path, last, v) ← entry (value (nestingLimit - 1))
      lineEnd
      let t ← t.reach (Table.define last v path) here
      body n here t

/-- The text without a byte order mark at its start. -/
def dropOrderMark : List Char → List Char
  | '\uFEFF' :: cs => cs
  | cs => cs

/-- The table that a text denotes. -/
def parse? (text : String) : Option Table :=
  let s := dropOrderMark text.toList
  ((body (s.length + 1) [] []).run s).map Prod.fst

end Toml

end ScriptWire
