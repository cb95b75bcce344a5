import ScriptWire.Text.Invisible

/-!
# Strings in messages

## Main definitions

- `Text.quoted` — a string between quotes as messages show it
-/

namespace ScriptWire

namespace Text

/-- The character in a quoted string. -/
def quotedChar (c : Char) : List Char :=
  match c with
  | '\x00' => ['\\', '0']
  | '\t' => ['\\', 't']
  | '\r' => ['\\', 'r']
  | '\n' => ['\\', 'n']
  | '\x22' => ['\\', '\x22']
  | '\\' => ['\\', '\\']
  | c =>
    if isInvisible c then ['\\', 'u', '\x7b'] ++ Nat.toDigits 16 c.toNat ++ ['\x7d'] else [c]

/-- A string between quotes, its invisible characters given by their codes. -/
def quoted (text : String) : String :=
  String.ofList ('\x22' :: text.toList.flatMap quotedChar ++ ['\x22'])

end Text

end ScriptWire
