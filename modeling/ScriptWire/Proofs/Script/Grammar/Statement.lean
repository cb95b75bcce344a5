import ScriptWire.Proofs.Script.Grammar.Expression
import ScriptWire.Script.Grammar

/-!
# What the rules of statements keep

With the rules of statements the grammar is closed: the parsers with a bound are rules over parsers
with a smaller bound. Every array literal of a script has its text between brackets.

## Main definitions

- `Script.Written` — the tokens of an array literal are written in a source

## Main results

- `Script.Rules.Sound.statementRule` — for a statement
- `Script.written_of_parse?` — for the statements of a script
-/

namespace ScriptWire

namespace Script

variable {top : List Char} {P : List ArrayItem → Prop}

/-- The property holds of the array literals in an expression that may be missing. -/
def SomeEachArray (P : List ArrayItem → Prop) (value : Option Expression) : Prop :=
  ∀ e ∈ value.toList, (Piece.expression e).EachArray P

theorem SomeEachArray.none : SomeEachArray P none :=
  List.forall_mem_nil _

theorem SomeEachArray.some {e : Expression} (he : (Piece.expression e).EachArray P) :
    SomeEachArray P (some e) :=
  List.forall_mem_singleton.mpr he

/-! ### Imports and exports -/

namespace Keeps

protected theorem moduleName : Advances top moduleName := by
  refine .bind .skipped fun s hs => ?_
  split
  · rename_i text rest hquoted
    exact .set ((leaves_quoted? _ text rest hquoted).trans hs)
  · refine .bind (.word "default") fun _ _ => .ite (fun _ => .pure trivial) fun _ => ?_
    exact .bind .name fun _ _ => .pure trivial

protected theorem exportSpecifier : Advances top exportSpecifier :=
  .bind .moduleName fun _ _ => .bind (.word "as") fun _ _ =>
    .ite (fun _ => .moduleName) fun _ => .pure trivial

protected theorem importSpecifier : Advances top importSpecifier := by
  refine .bind .get fun start hstart => .bind .moduleName fun _ _ =>
    .bind (.word "as") fun _ _ => .ite (fun _ => ?_) fun _ => ?_
  · exact .bind .name fun _ _ => .pure trivial
  · exact .bind (.set hstart) fun _ _ => .bind .name fun _ _ => .pure trivial

protected theorem specifiers {one : Parser Unit} (hone : Advances top one) (fuel : Nat) :
    Advances top (specifiers one fuel) := by
  induction fuel with
  | zero => exact .failure
  | succ fuel ih =>
    refine .bind (.mark? "\x7d") fun _ _ => .ite (fun _ => .pure trivial) fun _ => ?_
    exact hone.bind fun _ _ => .bind (.mark? ",") fun _ _ =>
      .ite (fun _ => ih) fun _ => .mark "\x7d"

protected theorem fromClause : Advances top fromClause :=
  .bind (.expectWord "from") fun _ _ => .bind .string fun _ _ => .pure trivial

protected theorem namespaceImport : Advances top namespaceImport :=
  .bind (.mark "*") fun _ _ => .bind (.expectWord "as") fun _ _ =>
    .bind .name fun _ _ => .pure trivial

protected theorem importClause (rules : Rules) : Advances top (importClause rules) := by
  have hnames : Advances top (mark "\x7b" >>= fun _ => specifiers importSpecifier rules.bound) :=
    .bind (.mark "\x7b") fun _ _ => .specifiers .importSpecifier rules.bound
  refine .bind .peek? fun _ _ => ?_
  split
  · exact .namespaceImport
  · exact hnames
  · refine .bind .name fun _ _ => .bind (.mark? ",") fun _ _ =>
      .ite (fun _ => .bind .peek? fun _ _ => ?_) fun _ => .pure trivial
    exact .ite (fun _ => .namespaceImport) fun _ => hnames

protected theorem exportWithoutDeclaration (rules : Rules) :
    Advances top (exportWithoutDeclaration rules) := by
  refine .bind (.mark? "*") fun _ _ => .ite (fun _ => ?_) fun _ => ?_
  · exact .bind (.word "as") fun _ _ => .when (fun _ => .moduleName) <|
      .bind .fromClause fun _ _ => .semicolon false
  · exact .bind (.mark "\x7b") fun _ _ => .bind (.specifiers .exportSpecifier _) fun _ _ =>
      .bind (.mayEndHere false) fun _ _ => .bind .peekWord? fun _ _ =>
        .when (fun _ => .fromClause) (.semicolon false)

/-! ### Words that decide what a statement is -/

protected theorem isNamedFunction : Advances top isNamedFunction := by
  refine .bind .get fun _ _ => ?_
  split
  · exact .pure trivial
  · exact .pure trivial

protected theorem isNamedClass : Advances top isNamedClass := by
  refine .bind .peekWord? fun _ _ => ?_
  split
  · exact .pure trivial
  · exact .pure trivial

protected theorem loopWord : Advances top loopWord := by
  refine .bind .anyWord fun _ _ => ?_
  split
  · exact .pure trivial
  · exact .pure trivial
  · exact .failure

protected theorem onlyDeclares : Advances top onlyDeclares := by
  refine .bind .peekWord? fun _ _ => ?_
  split
  · exact .pure trivial
  · exact .bind .get fun start hstart => .bind .anyWord fun _ _ => .bind .peek? fun _ _ =>
      .bind (.set hstart) fun _ _ => .pure trivial
  · exact .pure trivial

protected theorem jumpTail (kind : UnreadStatement) : KeepsStatement P top (jumpTail kind) := by
  have hend : (Piece.statement (.unread kind)).EachArray P := .leaf rfl rfl
  refine .bind (.mayEndHere false) fun _ _ => .ite (fun _ => .pure hend) fun _ => ?_
  refine .bind (.mark? ";") fun _ _ => .ite (fun _ => .pure hend) fun _ => ?_
  exact .bind .name fun _ _ => .bind (.semicolon false) fun _ _ => .pure hend

protected theorem letDeclares : Advances top letDeclares := by
  refine .bind (.mayEndHere true) fun _ _ => .ite (fun _ => .pure trivial) fun _ =>
    .bind .peek? fun _ _ => ?_
  split
  · exact .pure trivial
  · exact .pure trivial
  · refine .bind .peekWord? fun _ _ => ?_
    split
    · exact .pure trivial
    · exact .pure trivial

protected theorem exportFollows : Advances top exportFollows := by
  refine .bind (.mayEndHere true) fun _ _ => .ite (fun _ => .pure trivial) fun _ =>
    .bind .peek? fun _ _ => ?_
  split
  · exact .pure trivial
  · exact .pure trivial
  · exact .pure trivial
  · refine .bind .peekWord? fun _ _ => ?_
    split
    · exact .pure trivial
    · exact .pure trivial

end Keeps

namespace Rules.Sound

variable {rules : Rules} (h : rules.Sound P top)

include h

/-- A declared target has no pieces, so that the array literals are those of its value. -/
protected theorem declarator :
    Keeps top (declarator rules) fun d => (Piece.declarator d).EachArray P := by
  refine h.bindingTarget.bind fun target htarget => .bind .equals? fun _ _ => ?_
  have hplace : (Piece.pattern target).EachArray P := .leaf rfl htarget
  refine .ite (fun _ => ?_) fun _ => .pure (.single rfl rfl hplace)
  exact (h.singleExpression _).bind fun _ he => .pure (.pair rfl rfl hplace he)

protected theorem declarators (fuel : Nat) :
    Keeps top (declarators rules fuel) fun ds =>
      ∀ d ∈ ds, (Piece.declarator d).EachArray P := by
  induction fuel with
  | zero => exact .failure
  | succ fuel ih =>
    refine h.declarator.bind fun d hd => .bind (.mark? ",") fun _ _ =>
      .ite (fun _ => ?_) fun _ => ?_
    · exact ih.bind fun ds hds => .pure (List.forall_mem_cons.mpr ⟨hd, hds⟩)
    · exact .pure (List.forall_mem_singleton.mpr hd)

protected theorem declaredVariables :
    Keeps top (declaredVariables rules) fun ds => ∀ d ∈ ds, (Piece.declarator d).EachArray P :=
  (h.declarators _).bind fun _ hds => .bind (.semicolon _) fun _ _ => .pure hds

protected theorem importStatement : Advances top (importStatement rules) := by
  refine .bind .skipped fun s hs => ?_
  extract_lets last next
  have hnext (u : Unit) : Advances top (next u) := by
    refine .bind (.word "with") fun _ _ => .ite (fun _ => ?_) fun _ => .semicolon false
    exact .bind (.mark "\x7b") fun _ _ => h.objectTail.bind fun _ ho =>
      (Keeps.settle ho).bind fun _ _ => .semicolon false
  split
  · rename_i text rest hquoted
    exact .bind (.set ((leaves_quoted? _ text rest hquoted).trans hs)) fun u _ => hnext u
  · exact .bind (.importClause rules) fun _ _ => .bind .fromClause fun u _ => hnext u

protected theorem exportValue : Advances top (exportValue rules) :=
  (h.singleExpression _).bind fun _ _ => .semicolon true

/-! ### Simple statements -/

protected theorem expressionStatement : KeepsStatement P top (expressionStatement rules) :=
  (h.expressions _).bind fun _ he => .bind (.semicolon true) fun _ _ => .pure (.single rfl rfl he)

protected theorem blockStatement : KeepsStatement P top (blockStatement rules) := by
  refine h.block.bind fun body hbody => .bind (.looking "=") fun _ _ =>
    .ite (fun _ => .failure) fun _ => .pure (.node rfl ?_)
  exact List.forall_mem_map.mpr hbody

protected theorem bracedStatement : KeepsStatement P top (bracedStatement rules) := by
  refine .bind .get fun s _ => ?_
  split
  · exact h.blockStatement
  · exact h.blockStatement.orElse h.expressionStatement
  · exact h.expressionStatement.orElse h.blockStatement

protected theorem variableStatement (keyword : String) :
    KeepsStatement P top (variableStatement rules keyword) :=
  h.declaredVariables.bind fun _ hds => .pure (.node rfl (List.forall_mem_map.mpr hds))

protected theorem usingStatement : KeepsStatement P top (usingStatement rules) :=
  h.declaredVariables.bind fun _ _ => .pure (.leaf rfl rfl)

protected theorem functionStatement (isAsync : Bool) :
    KeepsStatement P top (functionStatement rules isAsync) := by
  refine h.functionTail.bind fun found hfound => ?_
  split
  · exact .pure (.function rfl rfl hfound.1 hfound.2)
  · exact .failure

protected theorem ifStatement : KeepsStatement P top (ifStatement rules) := by
  refine h.parenthesized.bind fun test htest => h.statement.bind fun consequent hconsequent =>
    .bind (.word "else") fun _ _ => .ite (fun _ => ?_) fun _ => ?_
  · refine h.statement.bind fun alternate halternate => .pure ?_
    exact .triple rfl rfl htest hconsequent halternate
  · exact .pure (.pair rfl rfl htest hconsequent)

protected theorem whileStatement : KeepsStatement P top (whileStatement rules) :=
  h.parenthesized.bind fun _ htest => h.statement.bind fun _ hbody =>
    .pure (.pair rfl rfl htest hbody)

protected theorem doStatement : KeepsStatement P top (doStatement rules) := by
  refine h.statement.bind fun body hbody => .bind (.expectWord "while") fun _ _ =>
    h.parenthesized.bind fun test htest => .bind (.mayEndHere false) fun _ _ => ?_
  exact .when (fun _ => .mark? ";") (.pure (.pair rfl rfl hbody htest))

protected theorem returnStatement : KeepsStatement P top (returnStatement rules) := by
  have hbare : (Piece.statement (.returns none)).EachArray P := .leaf rfl rfl
  refine .bind (.mayEndHere false) fun _ _ => .ite (fun _ => .pure hbare) fun _ =>
    .bind (.mark? ";") fun _ _ => .ite (fun _ => .pure hbare) fun _ => ?_
  exact (h.expressions _).bind fun _ he => .bind (.semicolon true) fun _ _ =>
    .pure (.single rfl rfl he)

protected theorem throwStatement : KeepsStatement P top (throwStatement rules) :=
  (h.expressions _).bind fun _ he => .bind (.semicolon true) fun _ _ => .pure (.single rfl rfl he)

/-! ### Loops -/

protected theorem loopVar :
    Keeps top (loopVar rules) fun head => (Piece.loopHead head).EachArray P := by
  refine h.bindingTarget.bind fun target htarget => .bind .equals? fun _ _ => ?_
  refine .ite_bind (Q := SomeEachArray P) (fun _ => (h.singleExpression _).map fun _ => .some)
    (fun _ => .pure .none) fun value hvalue => ?_
  refine .bind (.mayEndHere _) fun _ _ => .ite (fun _ => .failure_bind) fun _ => .pure ?_
  refine .single rfl rfl (.node rfl ?_)
  exact List.forall_mem_cons.mpr ⟨.leaf rfl htarget, List.forall_mem_map.mpr hvalue⟩

protected theorem loopBinding (keyword : String) :
    Keeps top (loopBinding rules keyword) fun head => (Piece.loopHead head).EachArray P := by
  refine h.bindingTarget.bind fun target htarget => .pure ?_
  exact .single rfl rfl (.single rfl rfl (.leaf rfl htarget))

protected theorem loopResource :
    Keeps top (loopResource rules) fun head => (Piece.loopHead head).EachArray P := by
  refine h.bindingTarget.bind fun target _ => .pure (.single rfl rfl ?_)
  cases target <;> exact .leaf rfl rfl

protected theorem loopPlace :
    Keeps top (loopPlace rules) fun head => (Piece.loopHead head).EachArray P := by
  refine .bind .onlyDeclares fun _ _ => .ite (fun _ => .failure_bind) fun _ => ?_
  refine (h.expression _ _).bind fun o ho => .bind (.scan _) fun target htarget => .pure ?_
  exact .single rfl rfl (ho.assigned htarget)

protected theorem loopLeft :
    Keeps top (loopLeft rules) fun found => (Piece.loopHead found.1).EachArray P := by
  refine .bind .peekWord? fun _ _ => ?_
  split
  · exact .bind .anyWord fun _ _ => h.loopVar.bind fun _ hhead => .pure hhead
  · exact .bind .anyWord fun _ _ => (h.loopBinding _).bind fun _ hhead => .pure hhead
  · exact .bind .anyWord fun _ _ => h.loopResource.bind fun _ hhead => .pure hhead
  · refine .orElse ?_ (h.loopPlace.bind fun _ hhead => .pure hhead)
    exact .bind .anyWord fun _ _ => .bind (.expectWord "using") fun _ _ =>
      h.loopResource.bind fun _ hhead => .pure hhead
  · exact h.loopPlace.bind fun _ hhead => .pure hhead

protected theorem loopTail (isAwait : Bool) {left : ForHead}
    (hleft : (Piece.loopHead left).EachArray P) :
    KeepsStatement P top (loopTail rules isAwait left) := by
  refine .bind .loopWord fun side _ => (h.expressions _).bind fun right hright =>
    .bind (.mark ")") fun _ _ => h.statement.bind fun body hbody => ?_
  split
  · exact .pure (.triple rfl rfl hleft hright hbody)
  · exact .pure (.triple rfl rfl hleft hright hbody)

protected theorem letLoop (isAwait : Bool) : KeepsStatement P top (letLoop rules isAwait) :=
  .bind (.expectWord "let") fun _ _ => (h.loopBinding "let").bind fun _ hleft =>
    h.loopTail isAwait hleft

protected theorem partsLoop (isAwait : Bool) : KeepsStatement P top (partsLoop rules isAwait) :=
  (h.letLoop isAwait).orElse <| h.loopLeft.bind fun _ hfound => h.loopTail _ hfound

protected theorem loopClause : Keeps top (loopClause rules) (SomeEachArray P) := by
  refine .bind (.mark? ";") fun _ _ => .ite (fun _ => .pure .none) fun _ => ?_
  exact (h.expressions _).bind fun _ he => .bind (.mark ";") fun _ _ => .pure (.some he)

protected theorem loopDeclaration :
    Keeps top (loopDeclaration rules) fun init =>
      ∀ head ∈ init.toList, (Piece.loopHead head).EachArray P := by
  refine .bind .anyWord fun _ _ => .ite (fun _ => ?_) fun _ => .failure
  refine h.declaredVariables.bind fun ds hds => .pure (List.forall_mem_singleton.mpr (.node rfl ?_))
  exact List.forall_mem_map.mpr hds

protected theorem loopInit :
    Keeps top (loopInit rules) fun init =>
      ∀ head ∈ init.toList, (Piece.loopHead head).EachArray P := by
  refine h.loopDeclaration.orElse ?_
  refine .bind .onlyDeclares fun _ _ => .ite (fun _ => .failure_bind) fun _ => ?_
  refine h.loopClause.bind fun clause hclause => .pure ?_
  cases clause with
  | none => exact List.forall_mem_nil _
  | some e => exact List.forall_mem_singleton.mpr (.single rfl rfl (hclause e (.head _)))

protected theorem clauseLoop : KeepsStatement P top (clauseLoop rules) := by
  refine h.loopInit.bind fun init hinit => h.loopClause.bind fun test htest =>
    .bind .peek? fun _ _ => ?_
  refine .ite_bind (Q := SomeEachArray P) (fun _ => .pure .none)
    (fun _ => (h.expressions _).map fun _ => .some) fun update hupdate => ?_
  refine .bind (.mark ")") fun _ _ => h.statement.bind fun body hbody => .pure (.node rfl ?_)
  refine List.forall_mem_append.mpr ⟨List.forall_mem_append.mpr ⟨List.forall_mem_append.mpr
    ⟨?_, ?_⟩, ?_⟩, List.forall_mem_singleton.mpr hbody⟩
  · exact List.forall_mem_map.mpr hinit
  · exact List.forall_mem_map.mpr htest
  · exact List.forall_mem_map.mpr hupdate

protected theorem forStatement : KeepsStatement P top (forStatement rules) :=
  .bind (.word "await") fun _ _ => .bind (.mark "(") fun _ _ =>
    .ite (fun _ => h.partsLoop true) fun _ => (h.partsLoop false).orElse h.clauseLoop

protected theorem catchParameter :
    Keeps top (catchParameter rules) fun param =>
      ∀ p ∈ param.toList, (Piece.pattern p).EachArray P := by
  refine .bind (.mark? "(") fun _ _ => .ite (fun _ => ?_) fun _ => .pure (List.forall_mem_nil _)
  exact h.bindingTarget.bind fun p hp => .bind (.mark ")") fun _ _ =>
    .pure (List.forall_mem_singleton.mpr (.leaf rfl hp))

protected theorem tryStatement : KeepsStatement P top (tryStatement rules) := by
  refine h.block.bind fun body hbody => .bind (.word "catch") fun _ _ => ?_
  extract_lets next
  have hnext (handler : Option Handler)
      (hhandler : ∀ c ∈ handler.toList, (Piece.handler c).EachArray P) :
      KeepsStatement P top (next handler) := by
    refine .bind (.word "finally") fun _ _ => ?_
    refine .ite_bind
      (Q := fun last => ∀ x ∈ last.toList.flatten, (Piece.statement x).EachArray P)
      (fun _ => h.block.map fun _ hlast => by simpa using hlast)
      (fun _ => .pure (List.forall_mem_nil _)) fun last hlast => .pure (.node rfl ?_)
    refine List.forall_mem_append.mpr ⟨List.forall_mem_append.mpr ⟨?_, ?_⟩, ?_⟩
    · exact List.forall_mem_map.mpr hbody
    · exact List.forall_mem_map.mpr hhandler
    · exact List.forall_mem_map.mpr hlast
  refine .ite (fun _ => ?_) fun _ => ?_
  · refine h.catchParameter.bind fun param hparam => h.block.bind fun inner hinner =>
      .bind (.pure (List.forall_mem_singleton.mpr ?_)) hnext
    refine .node rfl (List.forall_mem_append.mpr ⟨?_, ?_⟩)
    · exact List.forall_mem_map.mpr hparam
    · exact List.forall_mem_map.mpr hinner
  · exact .bind (.pure (List.forall_mem_nil _)) hnext

/-! ### Statements that leave no pieces -/

protected theorem caseStatements (fuel : Nat) : Advances top (caseStatements rules fuel) := by
  induction fuel with
  | zero => exact .failure
  | succ fuel ih =>
    refine .bind .skippedOperand fun s hs => .bind .peekWord? fun _ _ =>
      .ite (fun _ => .pure trivial) fun _ => ?_
    exact .bind (.set hs) fun _ _ => h.statement.bind fun _ _ => ih

protected theorem switchCases (fuel : Nat) : Advances top (switchCases rules fuel) := by
  induction fuel with
  | zero => exact .failure
  | succ fuel ih =>
    refine .bind (.mark? "\x7d") fun _ _ => .ite (fun _ => .pure trivial) fun _ => ?_
    have hrest : Advances top (do
        mark ":"
        caseStatements rules rules.bound
        switchCases rules fuel) :=
      .bind (.mark ":") fun _ _ => (h.caseStatements _).bind fun _ _ => ih
    refine .bind (.word "default") fun _ _ => .ite (fun _ => hrest) fun _ => ?_
    exact .bind (.expectWord "case") fun _ _ => (h.expressions _).bind fun _ _ => hrest

protected theorem switchStatement : KeepsStatement P top (switchStatement rules) :=
  h.parenthesized.bind fun _ _ => .bind (.mark "\x7b") fun _ _ =>
    (h.switchCases _).bind fun _ _ => .pure (.leaf rfl rfl)

protected theorem withStatement : KeepsStatement P top (withStatement rules) :=
  h.parenthesized.bind fun _ _ => h.statement.bind fun _ _ => .pure (.leaf rfl rfl)

protected theorem exportedDeclaration : Advances top (exportedDeclaration rules) := by
  refine (h.decorators _).bind fun _ _ => .bind .anyWord fun _ _ => ?_
  split
  · exact (h.functionStatement false).bind fun _ _ => .pure trivial
  · exact .bind (.expectWord "function") fun _ _ =>
      (h.functionStatement true).bind fun _ _ => .pure trivial
  · refine .bind .isNamedClass fun _ _ => .ite (fun _ => ?_) fun _ => .failure
    exact h.classTail.bind fun _ _ => .pure trivial
  · exact h.declaredVariables.bind fun _ _ => .pure trivial
  · exact h.declaredVariables.bind fun _ _ => .pure trivial
  · exact h.declaredVariables.bind fun _ _ => .pure trivial
  · exact h.declaredVariables.bind fun _ _ => .pure trivial
  · exact .bind (.expectWord "using") fun _ _ =>
      h.declaredVariables.bind fun _ _ => .pure trivial
  · exact .failure

protected theorem exportStatement : KeepsStatement P top (exportStatement rules) := by
  refine .bind (.word "default") fun _ _ => ?_
  refine .ite_bind (fun _ => h.exportedDeclaration.orElse h.exportValue)
    (fun _ => h.exportedDeclaration.orElse (.exportWithoutDeclaration rules)) fun _ _ => ?_
  exact .pure (.leaf rfl rfl)

protected theorem decoratedStatement : KeepsStatement P top (decoratedStatement rules) := by
  refine (h.decorators _).bind fun _ _ => .bind .anyWord fun _ _ => ?_
  split
  · refine .bind .isNamedClass fun _ _ => .ite (fun _ => ?_) fun _ => .failure
    exact h.classTail.bind fun _ _ => .pure (.leaf rfl rfl)
  · refine .bind (.word "default") fun _ _ => ?_
    exact .ite_bind (fun _ => h.exportedDeclaration.orElse h.exportValue)
      (fun _ => h.exportedDeclaration) fun _ _ => .pure (.leaf rfl rfl)
  · exact .failure

protected theorem labeledStatement (w : String) :
    KeepsStatement P top (labeledStatement rules w) := by
  refine .ite (fun _ => .failure_bind) fun _ => .bind (.mark ":") fun _ _ => ?_
  exact h.statement.bind fun _ _ => .pure (.leaf rfl rfl)

/-! ### All statements -/

protected theorem keywordStatement {start : List Char} (hstart : start <:+ top) (w : String) :
    KeepsStatement P top (keywordStatement rules start w) := by
  have hexpression : KeepsStatement P top (set start >>= fun _ => expressionStatement rules) :=
    .bind (.set hstart) fun _ _ => h.expressionStatement
  rw [keywordStatement.eq_def]
  extract_lets asExpression
  split
  · exact h.variableStatement "var"
  · exact h.variableStatement "const"
  · exact .bind .letDeclares fun _ _ =>
      .ite (fun _ => h.variableStatement "let") fun _ => hexpression
  · exact h.ifStatement
  · exact h.forStatement
  · exact h.whileStatement
  · exact h.doStatement
  · exact h.tryStatement
  · exact h.throwStatement
  · exact h.returnStatement
  · exact .jumpTail _
  · exact .jumpTail _
  · exact .bind (.semicolon false) fun _ _ => .pure (.leaf rfl rfl)
  · exact h.switchStatement
  · exact h.withStatement
  · refine .bind (.looking "(") fun _ _ => .bind (.looking ".") fun _ _ =>
      .bind (.looking "?") fun _ _ => .ite (fun _ => hexpression) fun _ => ?_
    exact h.importStatement.bind fun _ _ => .pure (.leaf rfl rfl)
  · exact .bind .exportFollows fun _ _ =>
      .ite (fun _ => h.exportStatement) fun _ => hexpression
  · exact .bind .isNamedFunction fun _ _ =>
      .ite (fun _ => h.functionStatement false) fun _ => hexpression
  · refine .bind .isNamedClass fun _ _ => .ite (fun _ => ?_) fun _ => hexpression
    exact h.classTail.bind fun _ _ => .pure (.leaf rfl rfl)
  · exact .bind (.mayEndHere true) fun _ _ => .bind (.word "function") fun _ _ =>
      .bind .isNamedFunction fun _ _ =>
        .ite (fun _ => h.functionStatement true) fun _ => hexpression
  · exact h.usingStatement
  · exact .bind (.mayEndHere true) fun _ _ => .bind (.word "using") fun _ _ =>
      .ite (fun _ => h.usingStatement) fun _ => hexpression
  · exact hexpression

protected theorem wordStatement : KeepsStatement P top (wordStatement rules) :=
  .bind .get fun _ hstart => .bind .anyWord fun w _ => .bind (.looking ":") fun _ _ =>
    .ite (fun _ => h.labeledStatement w) fun _ => h.keywordStatement hstart w

protected theorem statementRule : KeepsStatement P top (statementRule rules) := by
  refine .bind .skippedOperand fun s hs => .bind (.set hs) fun _ _ => ?_
  split
  · exact .bind (.setTail hs ‹_›) fun _ _ => .pure (.leaf rfl rfl)
  · exact h.bracedStatement
  · exact h.decoratedStatement.orElse h.expressionStatement
  · exact .ite (fun _ => h.wordStatement) fun _ => h.expressionStatement

end Rules.Sound

/-! ### Scripts -/

/-- Somewhere in the source the tokens stand in brackets, where the parsers with a bound take the
elements. -/
def Written (source : List Char) (tokens : List ArrayItem) : Prop :=
  ∃ bound text rest, '[' :: text <:+ source ∧
    Bracketed (element ⟨expressionBy bound, statementBy bound, bound⟩) false text tokens rest

theorem Written.alternates {source : List Char} {tokens : List ArrayItem}
    (h : Written source tokens) : Alternates false tokens := by
  obtain ⟨bound, text, rest, _, hbracketed⟩ := h
  exact hbracketed.alternates

/-- The parsers with a bound are the rules over the parsers with a smaller bound. -/
theorem sound_rules (source : List Char) (bound : Nat) :
    Rules.Sound (Written source) source ⟨expressionBy bound, statementBy bound, bound⟩ := by
  induction bound with
  | zero =>
    exact ⟨fun _ _ _ => .failure, fun _ => .failure, fun htext h => ⟨0, _, _, htext, h⟩⟩
  | succ bound ih =>
    exact ⟨fun hs level mode => (ih.of_suffix hs).expressionRule level mode,
      fun hs => (ih.of_suffix hs).statementRule, fun htext h => ⟨bound + 1, _, _, htext, h⟩⟩

theorem keeps_statementsBy (source : List Char) (bound fuel : Nat) :
    Keeps source (statementsBy bound fuel) fun statements =>
      ∀ x ∈ statements, (Piece.statement x).EachArray (Written source) := by
  induction fuel with
  | zero => exact .failure
  | succ fuel ih =>
    refine .bind .skippedOperand fun s hs => ?_
    split
    · exact .pure (List.forall_mem_nil _)
    · refine .bind (.set hs) fun _ _ => (sound_rules source bound).statement.bind fun x hx =>
        ih.bind fun statements hstatements => .pure ?_
      exact List.forall_mem_cons.mpr ⟨hx, hstatements⟩

theorem suffix_skipInterpreterLine (s : List Char) : skipInterpreterLine s <:+ s := by
  fun_cases skipInterpreterLine s with
  | case1 cs hskip =>
    have hline : '#' :: '!' :: cs <:+ s := hskip ▸ suffix_skipOperand s
    exact (List.dropWhile_suffix _).trans ((List.suffix_append ['#', '!'] cs).trans hline)
  | case2 => exact List.suffix_refl s

/-- Every array literal in the statements of a script is written in its source. -/
theorem written_of_parse? {source : List Char} {statements : List Statement}
    (h : parse? source = some statements) {x : Statement} (hx : x ∈ statements)
    {tokens : List ArrayItem}
    (htokens : (Piece.expression (.array tokens)).Within (.statement x)) :
    Written source tokens := by
  obtain ⟨⟨found, rest⟩, hrun, rfl⟩ := Option.map_eq_some_iff.mp h
  have hkeeps := keeps_statementsBy source _ _ _ found rest (suffix_skipInterpreterLine source) hrun
  exact hkeeps.2 x hx tokens htokens

end Script

end ScriptWire
