import ScriptWire.Literal.Digit
import ScriptWire.Literal.Error

/-!
# Escapes in string literals

A backslash and what follows it denote one character, or none at a line continuation. Codes above
the basic plane may be written as the two halves of a surrogate pair.

## Main definitions

- `Literal.escape` — the meaning of what follows one backslash, and the rest
- `Literal.decode` — the characters that a text with escapes denotes
- `Literal.unquote` — the same for a text between quotes
-/

namespace ScriptWire

namespace Literal

/-- The character with the given code, unless the code is a surrogate or too large. -/
def charOfCode? (n : Nat) : Option Char :=
  if n.isValidChar then some (Char.ofNat n) else none

/-- The code of the low half of a surrogate pair written in front, and the rest. -/
def lowHalf? : List Char → Option (Nat × List Char)
  | '\\' :: 'u' :: cs => do
    let low ← hexCode? (cs.take 4)
    if 0xDC00 ≤ low ∧ low < 0xE000 then some (low, cs.drop 4) else none
  | _ => none

/-- The character of a code unit, which may be the high half of a pair whose low half follows. -/
def unitChar? (unit : Nat) (rest : List Char) : Option (Char × List Char) :=
  if 0xD800 ≤ unit ∧ unit < 0xDC00 then do
    let (low, rest) ← lowHalf? rest
    let c ← charOfCode? (0x10000 + (unit - 0xD800) * 0x400 + (low - 0xDC00))
    some (c, rest)
  else
    (charOfCode? unit).map (·, rest)

/-- The meaning of the digits after `\u`, given what follows them. -/
def unicodeEscape (digits rest : List Char) : Except LiteralError (Option Char × List Char) :=
  let text := String.ofList digits
  match hexCode? digits with
  | none => .error (.invalidUnit text)
  | some unit =>
    match unitChar? unit rest with
    | some (c, rest) => .ok (some c, rest)
    | none =>
      if 0x10FFFF < unit then .error (.escapeOutOfRange text) else .error (.unpairedSurrogate text)

/-- The text in front of the first closing brace, and the text after it. -/
def splitBrace (cs : List Char) : List Char × List Char :=
  (cs.takeWhile (· != '}'), (cs.dropWhile (· != '}')).drop 1)

/-- The character that a single letter after the backslash denotes. -/
def letterEscape? : Char → Option Char
  | 'n' => some '\n'
  | 't' => some '\t'
  | 'r' => some '\r'
  | 'b' => some '\x08'
  | 'f' => some '\x0c'
  | 'v' => some '\x0b'
  | _ => none

/-- The code of a character, whose digits are the two places after `\x`. -/
def byteEscape (digits rest : List Char) : Except LiteralError (Option Char × List Char) :=
  match (hexCode? digits).bind charOfCode? with
  | some c => .ok (some c, rest)
  | none => .error (.invalidByte (String.ofList digits))

/-- A backslash in front of one of these characters continues the line. -/
def isContinuation (c : Char) : Bool :=
  c == '\n' || c == '\u2028' || c == '\u2029'

/-- What follows a backslash: the character it denotes, if any, and the rest of the text. -/
def escape : List Char → Except LiteralError (Option Char × List Char)
  | [] => .error .danglingEscape
  | c :: cs =>
    match letterEscape? c with
    | some d => .ok (some d, cs)
    | none =>
      if c = '0' ∧ !(cs.head?.any Char.isDigit) then .ok (some '\x00', cs)
      else if c = 'x' then byteEscape (cs.take 2) (cs.drop 2)
      else if c = 'u' then
        match cs with
        | '{' :: tail => unicodeEscape (splitBrace tail).1 (splitBrace tail).2
        | _ => unicodeEscape (cs.take 4) (cs.drop 4)
      else if isContinuation c then .ok (none, cs)
      else if c = '\r' then
        match cs with
        | '\n' :: tail => .ok (none, tail)
        | _ => .ok (none, cs)
      else .ok (some c, cs)

theorem lowHalf?_length_le {cs rest : List Char} {low : Nat}
    (h : lowHalf? cs = some (low, rest)) : rest.length ≤ cs.length := by
  unfold lowHalf? at h
  split at h
  · simp only [Option.bind_eq_bind, Option.bind_eq_some_iff] at h
    obtain ⟨n, _, h⟩ := h
    split at h
    · simp only [Option.some.injEq, Prod.mk.injEq] at h
      rw [← h.2]
      simp only [List.length_drop, List.length_cons]
      omega
    · simp at h
  · simp at h

theorem unitChar?_length_le {unit : Nat} {cs rest : List Char} {c : Char}
    (h : unitChar? unit cs = some (c, rest)) : rest.length ≤ cs.length := by
  unfold unitChar? at h
  split at h
  · simp only [Option.bind_eq_bind, Option.bind_eq_some_iff] at h
    obtain ⟨⟨low, tail⟩, hlow, d, _, h⟩ := h
    simp only [Option.some.injEq, Prod.mk.injEq] at h
    rw [← h.2]
    exact lowHalf?_length_le hlow
  · simp only [Option.map_eq_some_iff, Prod.mk.injEq] at h
    obtain ⟨_, _, _, h⟩ := h
    exact Nat.le_of_eq (congrArg List.length h.symm)

theorem unicodeEscape_length_le {digits cs rest : List Char} {c : Option Char}
    (h : unicodeEscape digits cs = .ok (c, rest)) : rest.length ≤ cs.length := by
  unfold unicodeEscape at h
  split at h
  · simp at h
  · split at h
    · rename_i heq
      simp only [Except.ok.injEq, Prod.mk.injEq] at h
      rw [← h.2]
      exact unitChar?_length_le heq
    · split at h <;> simp at h

theorem byteEscape_length_le {digits cs rest : List Char} {c : Option Char}
    (h : byteEscape digits cs = .ok (c, rest)) : rest.length ≤ cs.length := by
  unfold byteEscape at h
  split at h
  · simp only [Except.ok.injEq, Prod.mk.injEq] at h
    exact Nat.le_of_eq (congrArg List.length h.2.symm)
  · simp at h

theorem splitBrace_length_le (cs : List Char) : (splitBrace cs).2.length ≤ cs.length := by
  have h := (List.dropWhile_suffix (· != '}') (l := cs)).length_le
  simp only [splitBrace, List.length_drop]
  omega

/-- An escape takes at least one character. -/
theorem escape_length_lt {cs rest : List Char} {c : Option Char}
    (h : escape cs = .ok (c, rest)) : rest.length < cs.length := by
  unfold escape at h
  split at h
  · simp at h
  · rename_i d tail
    simp only [List.length_cons]
    split at h
    · simp only [Except.ok.injEq, Prod.mk.injEq] at h
      rw [h.2]
      omega
    · split at h
      · simp only [Except.ok.injEq, Prod.mk.injEq] at h
        rw [h.2]
        omega
      · split at h
        · have := byteEscape_length_le h
          simp only [List.length_drop] at this
          omega
        · split at h
          · split at h
            · have := Nat.le_trans (unicodeEscape_length_le h) (splitBrace_length_le _)
              simp only [List.length_cons]
              omega
            · have := unicodeEscape_length_le h
              simp only [List.length_drop] at this
              omega
          · split at h
            · simp only [Except.ok.injEq, Prod.mk.injEq] at h
              rw [h.2]
              omega
            · split at h
              · split at h <;> simp only [Except.ok.injEq, Prod.mk.injEq] at h <;> rw [h.2]
                · simp only [List.length_cons]
                  omega
                · omega
              · simp only [Except.ok.injEq, Prod.mk.injEq] at h
                rw [h.2]
                omega

/-- The characters that a text with escapes denotes. -/
def decode : List Char → Except LiteralError (List Char)
  | [] => .ok []
  | c :: cs =>
    if c = '\\' then
      match _h : escape cs with
      | .error e => .error e
      | .ok (d, rest) => (decode rest).map (d.toList ++ ·)
    else
      (decode cs).map (c :: ·)
termination_by cs => cs.length
decreasing_by
  · exact Nat.lt_succ_of_lt (escape_length_lt _h)
  · exact Nat.lt_succ_self _

/-- The text that a text with escapes denotes. -/
def unescape (raw : String) : Except LiteralError String :=
  (decode raw.toList).map String.ofList

/-- The text between two quotes `q`, if it stands between them. -/
def between? (q : Char) : List Char → Option (List Char)
  | [] => none
  | c :: cs => if c = q ∧ cs.getLast? = some q then some cs.dropLast else none

/-- The text that a string literal denotes: between double quotes or between single ones, with its
escapes resolved. -/
def unquote (text : String) : Except LiteralError String :=
  match (between? '\x22' text.toList).or (between? '\x27' text.toList) with
  | some inner => (decode inner).map String.ofList
  | none => .error (.unterminatedString text)

end Literal

end ScriptWire
