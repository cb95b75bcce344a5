import ScriptWire.Script.Lexeme

/-!
# Operators and how tightly they bind

What can follow an operand, each with the level at which it binds. A higher level binds tighter; an
operator is taken by the innermost operand that is being read at a lower level.

## Main definitions

- `Script.Follow` — what can follow an operand
- `Script.follow?` — what follows, by the longest operator that the text starts with
-/

namespace ScriptWire

namespace Script

/-- The levels at which operators bind, from the loosest on. -/
inductive Level
  | lowest
  | conditional
  | disjunction
  | conjunction
  | bitOr
  | bitXor
  | bitAnd
  | equality
  | relation
  | shift
  | sum
  | product
  | power
  | unary
  | update
  | call
  | access

/-- The level as a number. -/
def Level.rank : Level → Nat
  | .lowest => 0
  | .conditional => 1
  | .disjunction => 2
  | .conjunction => 3
  | .bitOr => 4
  | .bitXor => 5
  | .bitAnd => 6
  | .equality => 7
  | .relation => 8
  | .shift => 9
  | .sum => 10
  | .product => 11
  | .power => 12
  | .unary => 13
  | .update => 14
  | .call => 15
  | .access => 16

/-- What can follow an operand. -/
inductive Follow
  | point
  | optionalPoint
  | bracket
  | parenthesis
  | template
  | update (operator : String)
  | conditional
  | assign (operator : String)
  | binary (operator : String) (level : Level)

/-- The operators by their text. One that starts like another stands after the longer one. -/
def operators : List (String × Follow) :=
  [(">>>=", .assign ">>>="), ("===", .binary "===" .equality), ("!==", .binary "!==" .equality),
   ("**=", .assign "**="), ("&&=", .assign "&&="), ("||=", .assign "||="), ("??=", .assign "??="),
   (">>=", .assign ">>="), ("<<=", .assign "<<="), (">>>", .binary ">>>" .shift),
   ("&&", .binary "&&" .conjunction), ("||", .binary "||" .disjunction),
   ("??", .binary "??" .conditional), ("==", .binary "==" .equality),
   ("!=", .binary "!=" .equality), ("<=", .binary "<=" .relation), (">=", .binary ">=" .relation),
   ("<<", .binary "<<" .shift), (">>", .binary ">>" .shift), ("**", .binary "**" .power),
   ("++", .update "++"), ("--", .update "--"), ("+=", .assign "+="), ("-=", .assign "-="),
   ("*=", .assign "*="), ("/=", .assign "/="), ("%=", .assign "%="), ("^=", .assign "^="),
   ("&=", .assign "&="), ("|=", .assign "|="), ("<", .binary "<" .relation),
   (">", .binary ">" .relation), ("+", .binary "+" .sum), ("-", .binary "-" .sum),
   ("*", .binary "*" .product), ("/", .binary "/" .product), ("%", .binary "%" .product),
   ("&", .binary "&" .bitAnd), ("^", .binary "^" .bitXor), ("|", .binary "|" .bitOr),
   ("=", .assign "="), (".", .point), ("[", .bracket), ("(", .parenthesis), ("\x60", .template)]

/-- The operator that the text starts with, and the text after it. -/
def operatorIn? : List (String × Follow) → List Char → Option (Follow × List Char)
  | [], _ => none
  | (text, follow) :: rest, s =>
    if text.toList.isPrefixOf s then some (follow, s.drop text.length) else operatorIn? rest s

/-- What follows an operand, and the text after it. A point that starts a number is no access, and
a question mark in front of it no optional one. -/
def follow? : List Char → Option (Follow × List Char)
  | '=' :: '>' :: _ => none
  | '.' :: c :: cs => if c.isDigit then none else some (.point, c :: cs)
  | '?' :: '.' :: c :: cs =>
    if c.isDigit then some (.conditional, '.' :: c :: cs) else some (.optionalPoint, c :: cs)
  | '?' :: '?' :: cs => operatorIn? operators ('?' :: '?' :: cs)
  | '?' :: cs => some (.conditional, cs)
  | 'i' :: cs =>
    match word? ('i' :: cs) with
    | some (['i', 'n'], rest) => some (.binary "in" .relation, rest)
    | some (['i', 'n', 's', 't', 'a', 'n', 'c', 'e', 'o', 'f'], rest) =>
      some (.binary "instanceof" .relation, rest)
    | _ => none
  | s => operatorIn? operators s

/-- The level of the right operand of a binary operator: powers group to the right. -/
def rightRank (operator : String) (level : Level) : Nat :=
  if operator = "**" then level.rank - 1 else level.rank

end Script

end ScriptWire
