/-!
# Digits in a radix

## Main definitions

- `digit?` — the value of a digit in a radix up to sixteen
- `unsigned?` — the number that a text denotes, after a plus sign or not
- `hexCode?` — the code that a hexadecimal text denotes
-/

namespace ScriptWire

/-- The value of a digit in the given radix, letters counting from ten in either case. -/
def digit? (radix : Nat) (c : Char) : Option Nat :=
  let value :=
    if '0' ≤ c ∧ c ≤ '9' then c.toNat - '0'.toNat
    else if 'a' ≤ c ∧ c ≤ 'z' then c.toNat - 'a'.toNat + 10
    else if 'A' ≤ c ∧ c ≤ 'Z' then c.toNat - 'A'.toNat + 10
    else radix
  if value < radix then some value else none

/-- The value of a list of digits in the given radix. -/
def digitsIn? (radix : Nat) (cs : List Char) : Option Nat :=
  cs.foldlM (fun n c => (digit? radix c).map (radix * n + ·)) 0

/-- The number that a text denotes: at least one digit in the given radix, after a plus sign or not,
and a value that fits in so many bits. -/
def unsigned? (radix bits : Nat) (cs : List Char) : Option Nat :=
  let digits := match cs with
    | '+' :: tail => tail
    | _ => cs
  match digits, digitsIn? radix digits with
  | _ :: _, some n => if n < Nat.pow 2 bits then some n else none
  | _, _ => none

/-- The code that a hexadecimal text denotes. It fits in thirty-two bits. -/
def hexCode? (cs : List Char) : Option Nat :=
  unsigned? 16 32 cs

/-- The character is a hexadecimal digit. -/
def isHexDigit (c : Char) : Bool :=
  (digit? 16 c).isSome

end ScriptWire
