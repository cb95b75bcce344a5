import ScriptWire.Script.Grammar.Statement

/-!
# Scripts

The rules are closed by recursion on a bound: the parsers with the bound `n + 1` are the rules over
the parsers with the bound `n`. A text of `n` characters never needs more than four levels for each
of its characters.

## Main definitions

- `Script.expressionBy`, `Script.statementBy` — the parsers with a bound
- `Script.parse?` — the statements of a script
-/

namespace ScriptWire

namespace Script

mutual

/-- Expressions, with at most the given number of rules inside each other. -/
def expressionBy : Nat → Nat → Mode → Parser Operand
  | 0, _, _ => failure
  | n + 1, level, mode => expressionRule ⟨expressionBy n, statementBy n, n⟩ level mode

/-- Statements, with at most the given number of rules inside each other. -/
def statementBy : Nat → Parser Statement
  | 0 => failure
  | n + 1 => statementRule ⟨expressionBy n, statementBy n, n⟩

end

/-- Statements up to the end of the text. -/
def statementsBy (bound : Nat) : Nat → Parser (List Statement)
  | 0 => failure
  | fuel + 1 => do
    match skipOperand (← get) with
    | [] => return []
    | s =>
      set s
      let first ← statementBy bound
      return first :: (← statementsBy bound fuel)

/-- The text after a first line that names an interpreter. -/
def skipInterpreterLine (s : List Char) : List Char :=
  match skipOperand s with
  | '#' :: '!' :: cs => cs.dropWhile (· != '\n')
  | _ => s

/-- The statements of a script, if the whole text follows the grammar. -/
def parse? (source : List Char) : Option (List Statement) :=
  let bound := 4 * source.length + 16
  ((statementsBy bound bound).run (skipInterpreterLine source)).map Prod.fst

end Script

end ScriptWire
