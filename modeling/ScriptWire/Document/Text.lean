import ScriptWire.Binary64.Text
import ScriptWire.Document.Value

/-!
# The text of documents

## Main definitions

- `Document.quote` — a string between quotes, with its escapes
- `Document.Value.compact` — the text of a value without blanks
- `Document.Value.indented` — the text of a value with one member or item on each line
-/

namespace ScriptWire

namespace Document

/-- The character in a string literal. Controls, the quote and the backslash are escaped; all other
characters stand for themselves. -/
def quoteChar (c : Char) : List Char :=
  match c with
  | '\x22' => ['\\', '\x22']
  | '\\' => ['\\', '\\']
  | '\x08' => ['\\', 'b']
  | '\x0c' => ['\\', 'f']
  | '\n' => ['\\', 'n']
  | '\r' => ['\\', 'r']
  | '\t' => ['\\', 't']
  | c =>
    if c.toNat < 0x20 then
      let digits := Nat.toDigits 16 c.toNat
      ['\\', 'u', '0', '0'] ++ List.replicate (2 - digits.length) '0' ++ digits
    else [c]

/-- A string between quotes. -/
def quote (text : String) : String :=
  String.ofList ('\x22' :: text.toList.flatMap quoteChar ++ ['\x22'])

/-- The text of a value that holds no other values. -/
def Value.atom : Value → String
  | .null => "null"
  | .boolean b => if b then "true" else "false"
  | .integer n => toString n
  | .float x => NumberStyle.document.render x
  | .string text => quote text
  | .array _ => "[]"
  | .object _ => "\x7b\x7d"

mutual

/-- The text of a value without blanks. -/
def Value.compact : Value → String
  | .array items => "[" ++ ",".intercalate (compactItems items) ++ "]"
  | .object members => "\x7b" ++ ",".intercalate (compactMembers members) ++ "\x7d"
  | v => v.atom

/-- The texts of items. -/
def compactItems : List Value → List String
  | [] => []
  | v :: rest => v.compact :: compactItems rest

/-- The texts of members. -/
def compactMembers : List (String × Value) → List String
  | [] => []
  | (k, v) :: rest => (quote k ++ ":" ++ v.compact) :: compactMembers rest

end

/-- Lines between brackets, each on a level of its own; nothing at all between the brackets if
there are none. -/
def lines (level : Nat) (opening closing : String) (parts : List String) : String :=
  match parts with
  | [] => opening ++ closing
  | _ =>
    let margin (n : Nat) : String := "\n" ++ "".pushn ' ' (2 * n)
    opening ++ margin (level + 1) ++ ("," ++ margin (level + 1)).intercalate parts
      ++ margin level ++ closing

mutual

/-- The text of a value with one member or item on each line, two blanks for each level. -/
def Value.indentedAt (level : Nat) : Value → String
  | .array items => lines level "[" "]" (indentedItems (level + 1) items)
  | .object members => lines level "\x7b" "\x7d" (indentedMembers (level + 1) members)
  | v => v.atom

/-- The texts of items. -/
def indentedItems (level : Nat) : List Value → List String
  | [] => []
  | v :: rest => v.indentedAt level :: indentedItems level rest

/-- The texts of members. -/
def indentedMembers (level : Nat) : List (String × Value) → List String
  | [] => []
  | (k, v) :: rest => (quote k ++ ": " ++ v.indentedAt level) :: indentedMembers level rest

end

/-- The text of a value with one member or item on each line. -/
def Value.indented (v : Value) : String :=
  v.indentedAt 0

end Document

end ScriptWire
