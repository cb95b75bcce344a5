import ScriptWire.Proofs.Script.Parser
import ScriptWire.Script.Reader
import Mathlib.Data.List.Basic

/-!
# Scripts of string literals

A line with a string literal and a semicolon is a statement of its own, whatever the literal holds,
so that a script of such lines is read line by line.

## Main definitions

- `Script.StringBody` — what can stand between the quotes of a string literal
- `Script.stringLine` — a line with a string literal in single quotes

## Main results

- `Script.stringTail_body` — a string literal is taken up to its closing quote
- `Script.run_statementBy_line` — a line is taken as a statement
- `Script.read_lines` — a script of lines is read as the values of their literals
-/

namespace ScriptWire

namespace Script

/-- What can stand between two quotes `q`: characters other than the quote, a backslash and a line
break, and escapes with the digits that their letter asks for. -/
inductive StringBody (q : Char) : List Char → Prop
  | nil : StringBody q []
  | plain {c : Char} {cs : List Char} (hc : c ∉ [q, '\\', '\n', '\r']) (h : StringBody q cs) :
      StringBody q (c :: cs)
  | byte {a b : Char} {cs : List Char} (hhex : isHexDigit a ∧ isHexDigit b)
      (h : StringBody q cs) : StringBody q ('\\' :: 'x' :: a :: b :: cs)
  | unit {a b c d : Char} {cs : List Char}
      (hhex : isHexDigit a ∧ isHexDigit b ∧ isHexDigit c ∧ isHexDigit d) (h : StringBody q cs) :
      StringBody q ('\\' :: 'u' :: a :: b :: c :: d :: cs)
  | braced {first : Char} {hex cs : List Char} (hfirst : isHexDigit first)
      (hhex : ∀ c ∈ hex, isHexDigit c) (h : StringBody q cs) :
      StringBody q ('\\' :: 'u' :: '{' :: first :: (hex ++ '}' :: cs))
  | lineBreak {cs : List Char} (h : StringBody q cs) : StringBody q ('\\' :: '\r' :: '\n' :: cs)
  | other {c : Char} {cs : List Char} (hc : c ∉ ['x', 'u']) (h : StringBody q cs) :
      StringBody q ('\\' :: c :: cs)

section Strings

variable {q : Char} {cs rest : List Char}

theorem Scan.after_some (front taken rest : List Char) :
    Scan.after front (some (taken, rest)) = some (front ++ taken, rest) :=
  rfl

theorem StringBody.of_plain (h : ∀ c ∈ cs, c ∉ [q, '\\', '\n', '\r']) : StringBody q cs := by
  induction cs with
  | nil => exact .nil
  | cons c rest ih =>
    rw [List.forall_mem_cons] at h
    exact .plain h.1 (ih h.2)

/-- A line break does not stand by itself in a string literal. -/
theorem StringBody.head?_ne (h : StringBody q cs) (hq : q ≠ '\n') :
    (cs ++ q :: rest).head? ≠ some '\n' := by
  intro heq
  cases h with
  | nil => exact hq (Option.some.inj heq)
  | plain hc _ =>
    obtain rfl := Option.some.inj heq
    exact hc (by simp)
  | byte => cases heq
  | unit => cases heq
  | braced => cases heq
  | lineBreak => cases heq
  | other => cases heq

/-- A character after a backslash that asks for no digits. -/
theorem escapeTail_other {c : Char} (hc : c ∉ ['x', 'u']) (hcs : cs.head? ≠ some '\n') :
    escapeTail q (c :: cs) = Scan.after [c] (stringTail q cs) := by
  have hx : c ≠ 'x' := fun heq => hc (by simp [heq])
  have hu : c ≠ 'u' := fun heq => hc (by simp [heq])
  rw [escapeTail.eq_def]
  split
  · exact absurd (List.cons.inj ‹_›).1 hx
  · exact absurd (List.cons.inj ‹_›).1 hu
  · exact absurd (List.cons.inj ‹_›).1 hu
  · obtain ⟨-, rfl⟩ := List.cons.inj ‹_›
    exact absurd rfl hcs
  · obtain ⟨-, rfl⟩ := List.cons.inj ‹_›
    exact absurd rfl hcs
  · obtain ⟨rfl, rfl⟩ := List.cons.inj ‹_›
    simp [hx, hu]
  · cases ‹_ = []›

theorem escapeTail_unit {a b c d : Char}
    (hhex : isHexDigit a ∧ isHexDigit b ∧ isHexDigit c ∧ isHexDigit d) :
    escapeTail q ('u' :: a :: b :: c :: d :: cs) =
      Scan.after ['u', a, b, c, d] (stringTail q cs) := by
  have hbrace : a ≠ '{' := by
    rintro rfl
    exact absurd hhex.1 (by decide)
  have hall : [a, b, c, d].all isHexDigit = true := by simp [hhex]
  rw [escapeTail, if_pos hall]
  exact hbrace

theorem escapeCode_hex {hex : List Char} (hhex : ∀ c ∈ hex, isHexDigit c) :
    escapeCode q true (hex ++ '}' :: cs) = Scan.after (hex ++ ['}']) (stringTail q cs) := by
  induction hex with
  | nil =>
    have hbrace : isHexDigit '}' = false := by decide
    simp [escapeCode, hbrace]
  | cons c tail ih =>
    rw [List.forall_mem_cons] at hhex
    rw [List.cons_append, escapeCode, if_pos hhex.1, ih hhex.2]
    cases stringTail q cs <;> rfl

/-- A string literal is taken up to its closing quote. -/
theorem stringTail_body (h : StringBody q cs) (hq : q ∉ ['\\', '\n']) :
    stringTail q (cs ++ q :: rest) = some (cs ++ [q], rest) := by
  have hbackslash : q ≠ '\\' := fun heq => hq (by simp [heq])
  have hline : q ≠ '\n' := fun heq => hq (by simp [heq])
  induction h with
  | nil => simp [stringTail]
  | @plain c cs hc _ ih =>
    simp only [List.mem_cons, List.not_mem_nil, or_false, not_or] at hc
    simp [stringTail, hc, ih, Scan.after_some]
  | byte hhex _ ih => simp [stringTail, escapeTail, hhex, ih, Scan.after_some]
  | @unit a b c d cs hhex _ ih =>
    simp [stringTail, escapeTail_unit hhex, ih, Scan.after_some]
  | @braced first hex cs hfirst hhex _ ih =>
    have hcode : escapeCode q true (hex ++ '}' :: (cs ++ q :: rest)) =
        some (hex ++ '}' :: (cs ++ [q]), rest) := by
      rw [escapeCode_hex hhex, ih]
      simp [Scan.after_some]
    simp [stringTail, escapeTail, escapeCode, hfirst, hcode, Scan.after_some]
  | lineBreak _ ih => simp [stringTail, escapeTail, ih, Scan.after_some]
  | @other c cs hc hcs ih =>
    simp [stringTail, escapeTail_other hc (hcs.head?_ne hline), ih, Scan.after_some]

end Strings

section Lines

variable {text : String} {rest : List Char}

/-- A line with a string literal in single quotes. -/
def stringLine (text : String) : List Char :=
  '\x27' :: (text.toList ++ '\x27' :: [';', '\n'])

/-- A quote starts no blank and no comment. -/
theorem skipTrivia_quote (markup : Bool) (cs : List Char) :
    skipTrivia markup ('\x27' :: cs) = '\x27' :: cs := by
  have hblank : ¬ isBlank '\x27' = true := by decide
  rw [skipTrivia.eq_def]
  exact if_neg hblank

theorem skip_semicolon (cs : List Char) : skip (';' :: cs) = ';' :: cs := by
  have hblank : ¬ isBlank ';' = true := by decide
  rw [skip, skipTrivia.eq_def]
  exact if_neg hblank

/-- The tree of a line. -/
def stringStatement (text : String) : Statement :=
  .expression (.string ("'" ++ text ++ "'"))

theorem run_string (h : StringBody '\x27' text.toList) :
    string.run (stringLine text ++ rest) = some ("'" ++ text ++ "'", ';' :: '\n' :: rest) := by
  have htail : stringTail '\x27' (text.toList ++ '\x27' :: (';' :: '\n' :: rest)) =
      some (text.toList ++ ['\x27'], ';' :: '\n' :: rest) := stringTail_body h (by decide)
  have hscan : quoted? (stringLine text ++ rest) =
      some ('\x27' :: (text.toList ++ ['\x27']), ';' :: '\n' :: rest) := by
    simp [quoted?, stringLine, htail, Scan.after_some]
  have hskip : skip (stringLine text ++ rest) = stringLine text ++ rest := skipTrivia_quote false _
  have htext : String.ofList ('\x27' :: (text.toList ++ ['\x27'])) = "'" ++ text ++ "'" := by
    simp [← String.toList_inj]
  simp [string, hskip, hscan, htext, liftM, monadLift, MonadLift.monadLift]

theorem run_operandRule (rules : Rules) (mode : Mode) (h : StringBody '\x27' text.toList) :
    (operandRule rules mode).run (stringLine text ++ rest) =
      some (.plain (.string ("'" ++ text ++ "'")), ';' :: '\n' :: rest) := by
  have hskip : skipOperand (stringLine text ++ rest) = stringLine text ++ rest :=
    skipTrivia_quote true _
  have hstring : stringOperand.run (stringLine text ++ rest) =
      some (.plain (.string ("'" ++ text ++ "'")), ';' :: '\n' :: rest) := by
    rw [stringOperand, run_bind_of_eq (run_string h)]
    rfl
  rw [operandRule, run_get_bind, hskip]
  exact hstring

/-- A semicolon follows no operand, so the operand is the whole expression. -/
theorem run_expressionRule (rules : Rules) (mode : Mode) (level : Nat) (hbound : rules.bound ≠ 0)
    (h : StringBody '\x27' text.toList) :
    (expressionRule rules level mode).run (stringLine text ++ rest) =
      some (.plain (.string ("'" ++ text ++ "'")), ';' :: '\n' :: rest) := by
  obtain ⟨fuel, hfuel⟩ := Nat.exists_eq_succ_of_ne_zero hbound
  have hfollow : follow? (skip (';' :: '\n' :: rest)) = none := by
    rw [skip_semicolon]
    rfl
  rw [expressionRule, run_bind_of_eq (run_operandRule rules mode h), hfuel, climb, run_get_bind,
    hfollow]
  rfl

theorem run_expressions {rules : Rules} {mode : Mode} (hbound : rules.bound ≠ 0)
    (hrule : (rules.expression 0 mode).run (stringLine text ++ rest) =
      some (.plain (.string ("'" ++ text ++ "'")), ';' :: '\n' :: rest)) :
    (expressions rules mode).run (stringLine text ++ rest) =
      some (.string ("'" ++ text ++ "'"), ';' :: '\n' :: rest) := by
  obtain ⟨fuel, hfuel⟩ := Nat.exists_eq_succ_of_ne_zero hbound
  have hmore : (moreExpressions rules mode rules.bound).run (';' :: '\n' :: rest) =
      some ([], ';' :: '\n' :: rest) := by
    have hcomma : (mark? ",").run (';' :: '\n' :: rest) = some (false, ';' :: '\n' :: rest) := by
      simp [mark?, skip_semicolon]
    rw [hfuel, moreExpressions, run_bind_of_eq hcomma]
    rfl
  have hsettle : (Operand.plain (.string ("'" ++ text ++ "'"))).settle.run (';' :: '\n' :: rest) =
      some (.string ("'" ++ text ++ "'"), ';' :: '\n' :: rest) := rfl
  rw [expressions, run_bind_of_eq hrule, run_bind_of_eq hsettle, run_bind_of_eq hmore]
  rfl

theorem run_semicolon : (semicolon true).run (';' :: '\n' :: rest) = some ((), '\n' :: rest) := by
  have hends : (mayEndHere true).run (';' :: '\n' :: rest) = some (false, ';' :: '\n' :: rest) := by
    simp [mayEndHere, endsStatement, isLineBreak, isPlainSpace, isBlank, isSpaceSeparator]
  have hmark : (mark? ";").run (';' :: '\n' :: rest) = some (true, '\n' :: rest) := by
    rw [mark?, run_get_bind, skip_semicolon]
    rfl
  rw [semicolon, run_bind_of_eq hends]
  simp only [Bool.false_eq_true, if_false, mark]
  rw [run_bind_of_eq hmark]
  rfl

/-- A line is taken as a statement. -/
theorem run_statementBy_line (n : Nat) (h : StringBody '\x27' text.toList) :
    (statementBy (n + 3)).run (stringLine text ++ rest) =
      some (stringStatement text, '\n' :: rest) := by
  have hexpressions : (expressions ⟨expressionBy (n + 2), statementBy (n + 2), n + 2⟩ .final).run
      (stringLine text ++ rest) = some (.string ("'" ++ text ++ "'"), ';' :: '\n' :: rest) := by
    refine run_expressions (Nat.succ_ne_zero _) ?_
    exact run_expressionRule ⟨expressionBy (n + 1), statementBy (n + 1), n + 1⟩ .final 0
      (Nat.succ_ne_zero n) h
  have hskip : skipOperand (stringLine text ++ rest) = stringLine text ++ rest :=
    skipTrivia_quote true _
  have hword : word? (stringLine text ++ rest) = none := by
    have hstart : isNameStart '\x27' = false := by decide
    simp [stringLine, word?, hstart]
  have hstatement :
      (expressionStatement ⟨expressionBy (n + 2), statementBy (n + 2), n + 2⟩).run
        (stringLine text ++ rest) = some (stringStatement text, '\n' :: rest) := by
    rw [expressionStatement, run_bind_of_eq hexpressions, run_bind_of_eq run_semicolon]
    rfl
  rw [statementBy, statementRule, run_get_bind, hskip]
  dsimp only
  rw [hword]
  exact hstatement

theorem skipOperand_lines (texts : List String) :
    skipOperand (texts.flatMap stringLine) = texts.flatMap stringLine := by
  cases texts with
  | nil => rfl
  | cons text texts => exact skipTrivia_quote true _

theorem skipOperand_newline (texts : List String) :
    skipOperand ('\n' :: texts.flatMap stringLine) = texts.flatMap stringLine := by
  have hblank : isBlank '\n' = true := by decide
  have hskip : skipOperand ('\n' :: texts.flatMap stringLine) =
      skipOperand (texts.flatMap stringLine) := by
    rw [skipOperand, skipTrivia.eq_def]
    exact if_pos hblank
  rw [hskip, skipOperand_lines]

theorem length_le_lines (texts : List String) :
    texts.length ≤ (texts.flatMap stringLine).length := by
  induction texts with
  | nil => exact Nat.le_refl 0
  | cons text texts ih =>
    rw [List.flatMap_cons, List.length_append, List.length_cons, stringLine, List.length_cons]
    omega

/-- Lines are taken as statements one by one, with line breaks between them. -/
theorem run_statementsBy_lines (n : Nat) {texts : List String}
    (h : ∀ text ∈ texts, StringBody '\x27' text.toList) {s : List Char} {fuel : Nat}
    (hs : skipOperand s = texts.flatMap stringLine) (hfuel : texts.length < fuel) :
    ((statementsBy (n + 3) fuel).run s).map Prod.fst = some (texts.map stringStatement) := by
  induction texts generalizing s fuel with
  | nil =>
    obtain ⟨more, rfl⟩ := Nat.exists_eq_succ_of_ne_zero (Nat.ne_of_gt hfuel)
    rw [statementsBy, run_get_bind, hs]
    rfl
  | cons text texts ih =>
    obtain ⟨more, rfl⟩ := Nat.exists_eq_succ_of_ne_zero (Nat.ne_of_gt (Nat.zero_lt_of_lt hfuel))
    rw [List.forall_mem_cons] at h
    rw [List.length_cons] at hfuel
    have hrest := ih h.2 (skipOperand_newline texts) (Nat.lt_of_succ_lt_succ hfuel)
    obtain ⟨⟨statements, after⟩, hrun, hstatements⟩ := Option.map_eq_some_iff.mp hrest
    have hstep : (statementBy (n + 3) >>= fun first => do
        return first :: (← statementsBy (n + 3) more)).run
          (stringLine text ++ texts.flatMap stringLine) =
            some (stringStatement text :: statements, after) := by
      rw [run_bind_of_eq (run_statementBy_line n h.1), run_bind_of_eq hrun]
      rfl
    rw [statementsBy, run_get_bind, hs, List.flatMap_cons, List.map_cons, ← hstatements]
    exact congrArg (Option.map Prod.fst) hstep

theorem read_stringStatement {text value : String} (levels : Nat)
    (h : Literal.unquote ("'" ++ text ++ "'") = .ok value) :
    (stringStatement text).read (levels + 2) =
      .ok (.expressionStatement (.stringLiteral value)) := by
  have hliteral : (Expression.string ("'" ++ text ++ "'")).read (levels + 1) =
      .ok (.stringLiteral value) := by
    change (literally (Literal.unquote ("'" ++ text ++ "'")) >>= fun value =>
      .ok (Tree.Expression.stringLiteral value)) = _
    rw [h]
    rfl
  change ((Expression.string ("'" ++ text ++ "'")).read (levels + 1) >>= fun e =>
    .ok (Tree.Statement.expressionStatement e)) = _
  rw [hliteral]
  rfl

/-- A script of lines is read as the values of their literals. -/
theorem read_lines {texts values : List String}
    (h : ∀ text ∈ texts, StringBody '\x27' text.toList)
    (hvalues : List.Forall₂ (fun text value => Literal.unquote ("'" ++ text ++ "'") = .ok value)
      texts values) :
    read (String.ofList (texts.flatMap stringLine)) =
      .ok ⟨values.map fun value => .expressionStatement (.stringLiteral value)⟩ := by
  have hparse : parse? (texts.flatMap stringLine) = some (texts.map stringStatement) := by
    have hstart : skipInterpreterLine (texts.flatMap stringLine) = texts.flatMap stringLine := by
      rw [skipInterpreterLine, skipOperand_lines]
      cases texts <;> rfl
    have hlength := length_le_lines texts
    rw [parse?, hstart]
    exact run_statementsBy_lines (4 * (texts.flatMap stringLine).length + 13) h
      (skipOperand_lines texts) (by omega)
  have hread (levels : Nat) : readStatements (levels + 2) (texts.map stringStatement) =
      .ok (values.map fun value => .expressionStatement (.stringLiteral value)) := by
    clear h hparse
    induction hvalues with
    | nil => rw [List.map_nil, readStatements]; rfl
    | cons hvalue _ ih =>
      rw [List.map_cons, readStatements, ih, read_stringStatement levels hvalue]
      rfl
  rw [read, String.toList_ofList, hparse]
  simp [hread, nestingLimit]

end Lines

end Script

end ScriptWire
