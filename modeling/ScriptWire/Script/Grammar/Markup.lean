import ScriptWire.Script.Grammar.Basic

/-!
# Markup elements

Elements between angle brackets may stand as expressions. Nothing of them is kept, so the rules
only decide where an element ends.

## Main definitions

- `Script.markupElement` — an element from its opening bracket on
-/

namespace ScriptWire

namespace Script

/-- Characters of a name with a dash in it, beside the dash. -/
def isDashedPart (c : Char) : Bool :=
  c.isAlphanum || c == '_' || c == '$'

/-- The longest of a name and a name with dashes. -/
def markupWord? (s : List Char) : Scan :=
  let (front, rest) := stretch isDashedPart s
  match front, rest with
  | c :: _, '-' :: _ =>
    if c.isDigit then none else
      let (tail, rest) := stretch (fun d => isDashedPart d || d == '-') rest
      some (front ++ tail, rest)
  | _, _ => word? s

/-- Takes a name of markup. -/
def markupName : Parser String := do
  let (w, rest) ← markupWord? (skip (← get))
  set rest
  return String.ofList w

/-- The names after the first in a name with points. -/
def markupPath : Nat → Parser Unit
  | 0 => failure
  | fuel + 1 => do
    if ← mark? "." then
      let _ ← anyWord
      markupPath fuel
    else
      pure ()

/-- The name of an element: a path, or two names with a colon between them. -/
def elementName (fuel : Nat) : Parser Unit := do
  let w ← markupName
  if isReserved w then failure
  else if ← mark? ":" then
    let _ ← markupName
  else
    markupPath fuel

/-- The text after a reference to a character, from its ampersand on. -/
def characterReference? : List Char → Option (List Char)
  | '&' :: '#' :: c :: cs =>
    let hex := c == 'x' || c == 'X'
    let (digits, rest) := if hex then stretch isHexDigit cs else stretch Char.isDigit (c :: cs)
    let most := if hex then 6 else 5
    if 1 ≤ digits.length && digits.length ≤ most && rest.head? == some ';' then some (rest.drop 1)
    else none
  | '&' :: cs =>
    let (letters, rest) := stretch Char.isAlpha cs
    if 1 ≤ letters.length && letters.length ≤ 30 && rest.head? == some ';' then some (rest.drop 1)
    else none
  | _ => none

/-- The text after the closing quote `q` of an attribute. An ampersand in front of a letter or of a
number sign must be a reference. -/
def attributeTail (q : Char) : Nat → List Char → Option (List Char)
  | 0, _ => none
  | _, [] => none
  | fuel + 1, c :: cs =>
    if c = q then some cs
    else if c = '&' then
      match cs with
      | d :: tail =>
        if d = '#' || d.isAlpha then
          match characterReference? (c :: cs) with
          | some rest => attributeTail q fuel rest
          | none => none
        else attributeTail q fuel tail
      | [] => none
    else attributeTail q fuel cs

/-- Characters of plain text between elements. -/
def isMarkupText (c : Char) : Bool :=
  c != '<' && c != '>' && c != '{' && c != '}' && c != '&'

/-- An expression in braces, after the opening brace; it may be missing. -/
def embedded (rules : Rules) : Parser Unit := do
  if ← mark? "\x7d" then pure ()
  else if ← mark? "..." then
    let _ ← expression rules Mode.inner
    mark "\x7d"
  else
    let _ ← expressions rules Mode.inner
    mark "\x7d"

mutual

/-- An element after its opening bracket. -/
def elementTail (rules : Rules) : Nat → Parser Unit
  | 0 => failure
  | fuel + 1 => do
    if ← mark? ">" then children rules fuel
    else
      elementName fuel
      attributes rules fuel

/-- Attributes and the end of the opening tag. -/
def attributes (rules : Rules) : Nat → Parser Unit
  | 0 => failure
  | fuel + 1 => do
    if ← mark? "/>" then pure ()
    else if ← mark? ">" then children rules fuel
    else if ← mark? "\x7b" then
      embedded rules
      attributes rules fuel
    else
      let _ ← markupName
      if ← mark? ":" then
        let _ ← markupName
      if ← mark? "=" then attributeValue rules fuel
      attributes rules fuel

/-- The value of an attribute. -/
def attributeValue (rules : Rules) : Nat → Parser Unit
  | 0 => failure
  | fuel + 1 => do
    match skip (← get) with
    | '{' :: cs =>
      set cs
      embedded rules
    | '<' :: cs =>
      set cs
      elementTail rules fuel
    | c :: cs =>
      if c = '\x22' || c = '\x27' then
        let rest ← attributeTail c (cs.length + 1) cs
        set rest
      else failure
    | [] => failure

/-- What stands between the tags, and the closing tag. -/
def children (rules : Rules) : Nat → Parser Unit
  | 0 => failure
  | fuel + 1 => do
    match (← get).dropWhile isMarkupText with
    | '<' :: '/' :: cs =>
      set cs
      if ← mark? ">" then pure ()
      else
        elementName fuel
        mark ">"
    | '<' :: cs =>
      set cs
      elementTail rules fuel
      children rules fuel
    | '{' :: cs =>
      set cs
      embedded rules
      children rules fuel
    | s =>
      let rest ← characterReference? s
      set rest
      children rules fuel

end

/-- An element from its opening bracket on. -/
def markupElement (rules : Rules) : Parser Unit := do
  mark "<"
  elementTail rules rules.bound

end Script

end ScriptWire
