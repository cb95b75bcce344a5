import ScriptWire.Proofs.Script.Grammar.Member
import ScriptWire.Script.Grammar.Expression

/-!
# What the rules of expressions keep

An operand keeps the array literals of the expressions inside it, and so does every step that takes
more of the text to its right.

## Main results

- `Script.Rules.Sound.operandRule` — for an operand with the operators in front of it
- `Script.Rules.Sound.expressionRule` — for an expression
-/

namespace ScriptWire

namespace Script

variable {top : List Char} {P : List ArrayItem → Prop}

/-- The left side of an assignment has no array literals that its operand does not have. -/
theorem Piece.EachArray.assigned {operator : String} {o : Operand} {e : Expression}
    (ho : (Piece.expression o.expr).EachArray P) (h : assigned? operator o = some e) :
    (Piece.expression e).EachArray P := by
  revert h
  fun_cases assigned? operator o with
  | case1 e heq =>
    rintro ⟨⟩
    rwa [heq] at ho
  | case2 | case4 | case6 =>
    rintro ⟨⟩
    exact .leaf rfl rfl
  | case8 e =>
    rintro ⟨⟩
    exact ho
  | _ => rintro ⟨⟩

namespace Keeps

protected theorem importTail : KeepsOperand P top importTail := by
  refine .bind .get fun start hstart => .bind (.mark? ".") fun _ _ => .ite (fun _ => ?_) fun _ => ?_
  · refine .bind (.word "meta") fun _ _ => .ite (fun _ => .pure (.leaf rfl rfl)) fun _ => ?_
    exact .bind (.set hstart) fun _ _ => .pure (.leaf rfl rfl)
  · refine .bind (.looking "(") fun _ _ => .bind (.looking "?.") fun _ _ => ?_
    exact .ite (fun _ => .pure (.leaf rfl rfl)) fun _ => .failure

protected theorem regexTail : KeepsOperand P top regexTail := by
  refine .bind .get fun s hs => .bind (.scan _) fun found hfound => ?_
  obtain ⟨body, rest⟩ := found
  have hrest : rest <:+ top := (leaves_pattern? s body rest hfound).trans hs
  exact .bind (.set ((suffix_of_stretch rfl).trans hrest)) fun _ _ => .pure (.leaf rfl rfl)

protected theorem stringOperand : KeepsOperand P top stringOperand :=
  .bind .string fun _ _ => .pure (.leaf rfl rfl)

protected theorem pointTail {e : Expression} (he : (Piece.expression e).EachArray P) :
    KeepsOperand P top (pointTail e) := by
  refine .bind .peek? fun _ _ => .ite (fun _ => ?_) fun _ => ?_
  · exact .bind .privateName fun _ _ => .pure (.single rfl rfl he)
  · exact .bind .anyWord fun _ _ => .pure (.single rfl rfl he)

end Keeps

namespace Rules.Sound

variable {rules : Rules} (h : rules.Sound P top)

include h

/-! ### Arrow functions -/

protected theorem arrowExpression (mode : Mode) :
    Keeps top (arrowExpression rules mode) fun body => ∀ c ∈ body.contents, c.EachArray P :=
  (h.singleExpression mode).bind fun _ he => .pure (List.forall_mem_singleton.mpr he)

protected theorem arrowBlock :
    Keeps top (arrowBlock rules) fun body => ∀ c ∈ body.contents, c.EachArray P :=
  h.block.bind fun _ hbody => .pure (List.forall_mem_map.mpr hbody)

protected theorem arrowBody (mode : Mode) :
    Keeps top (arrowBody rules mode) fun body => ∀ c ∈ body.contents, c.EachArray P := by
  refine .bind .get fun s _ => ?_
  split
  · split
    · exact h.arrowBlock
    · exact h.arrowBlock.orElse (h.arrowExpression mode)
    · exact (h.arrowExpression mode).orElse h.arrowBlock
  · exact h.arrowExpression mode

protected theorem arrowTail (mode : Mode) (isAsync : Bool) {params : List Pattern}
    (hparams : ∀ p ∈ params, (Piece.pattern p).EachArray P) :
    KeepsOperand P top (arrowTail rules mode isAsync params) := by
  refine .bind (.mark "=>") fun _ _ => (h.arrowBody mode).bind fun _ hbody =>
    .pure (.node rfl ?_)
  exact List.forall_mem_append.mpr ⟨List.forall_mem_map.mpr hparams, hbody⟩

protected theorem identifierTail (mode : Mode) (w : String) :
    KeepsOperand P top (identifierTail rules mode w) := by
  have hname : (Piece.expression (.identifier w)).EachArray P := .leaf rfl rfl
  refine .ite (fun _ => ?_) fun _ => .pure hname
  refine .bind (.looking "=>") fun _ _ => .ite (fun _ => ?_) fun _ => .pure hname
  have hparam : ∀ p ∈ [Pattern.identifier w], (Piece.pattern p).EachArray P :=
    List.forall_mem_singleton.mpr (.leaf rfl rfl)
  exact h.arrowTail mode false hparam

protected theorem parenthesisTail (mode : Mode) :
    KeepsOperand P top (parenthesisTail rules mode) := by
  refine (h.items ')' _ _).bind fun list hlist => .bind (.scan _) fun found hfound => ?_
  obtain ⟨os, trailing⟩ := found
  have hos : ∀ o ∈ os, (Piece.expression o.expr).EachArray P :=
    fun o ho => hlist o (mem_operandsOf_of_separated? hfound o ho)
  refine .bind (.looking "=>") fun _ _ => .ite (fun _ => ?_) fun _ => ?_
  · refine .ite (fun _ => h.arrowTail mode false ?_) fun _ => .failure
    exact List.forall_mem_map.mpr fun o ho => .patternOf (hos o ho)
  · refine .ite (fun _ => .failure) fun _ => (Keeps.settleAll hos).bind fun es hes => ?_
    split
    · exact .failure
    · exact .failure
    · exact .pure (.single rfl rfl (hes _ (.head _)))
    · refine .ite (fun _ => .failure) fun _ => .pure (.single rfl rfl (.node rfl ?_))
      exact List.forall_mem_map.mpr hes

/-! ### Operands that start with a word -/

protected theorem functionOperand (isAsync : Bool) :
    KeepsOperand P top (functionOperand rules isAsync) := by
  refine h.functionTail.bind fun found hfound => .pure ?_
  exact .function rfl rfl hfound.1 hfound.2

protected theorem asyncTail (mode : Mode) : KeepsOperand P top (asyncTail rules mode) := by
  have hname : (Piece.expression (.identifier "async")).EachArray P := .leaf rfl rfl
  refine .ite_bind (fun _ => .mayEndHere true) (fun _ => .pure trivial) fun _ _ =>
    .ite (fun _ => .pure hname) fun _ => .bind .peekWord? fun _ _ => ?_
  split
  · exact .bind .anyWord fun _ _ => h.functionOperand true
  · refine .bind .get fun start hstart => .bind .anyWord fun _ _ =>
      .bind (.looking "=>") fun _ _ => .ite (fun _ => h.arrowTail mode true ?_) fun _ => ?_
    · exact List.forall_mem_singleton.mpr (.leaf rfl rfl)
    · exact .bind (.set hstart) fun _ _ => .pure hname
  · exact h.identifierTail mode "async"

protected theorem awaited (mode : Mode) : KeepsOperand P top (awaited rules mode) :=
  (h.expression _ mode).bind fun _ ho => (Keeps.settle ho).bind fun _ he =>
    .pure (.single rfl rfl he)

protected theorem awaitTail (mode : Mode) : KeepsOperand P top (awaitTail rules mode) :=
  .ite_bind (fun _ => .mayEndHere true) (fun _ => .pure trivial) fun _ _ => .bind .get fun _ _ =>
    .ite (fun _ => h.awaited mode) fun _ => h.identifierTail mode "await"

protected theorem yieldTail (mode : Mode) : KeepsOperand P top (yieldTail rules mode) := by
  have hbare : (Piece.expression (.yields none false)).EachArray P := .leaf rfl rfl
  refine .ite_bind (fun _ => .mayEndHere true) (fun _ => .pure trivial) fun _ _ =>
    .ite (fun _ => .pure hbare) fun _ => .bind (.looking "*") fun _ _ =>
      .bind (.looking "**") fun _ _ => .ite (fun _ => ?_) fun _ => ?_
  · exact .bind (.mark "*") fun _ _ => (h.singleExpression mode).bind fun _ he =>
      .pure (.single rfl rfl he)
  · refine .bind .get fun _ _ => .ite (fun _ => ?_) fun _ => .pure hbare
    exact (h.singleExpression mode).bind fun _ he => .pure (.single rfl rfl he)

protected theorem newTail (mode : Mode) : KeepsOperand P top (newTail rules mode) := by
  refine .bind .get fun _ _ => .ite (fun _ => ?_) fun _ => ?_
  · exact .bind (.mark ".") fun _ _ => .bind (.expectWord "target") fun _ _ =>
      .pure (.leaf rfl rfl)
  · refine (h.expression _ mode).bind fun o ho => (Keeps.settle ho).bind fun callee hcallee =>
      .ite (fun _ => .bind (.mark? "(") fun _ _ => ?_) fun _ => .failure
    refine .ite_bind (fun _ => h.argumentsTail) (fun _ => .pure (List.forall_mem_nil _))
      fun arguments harguments => .pure (.node rfl ?_)
    exact List.forall_mem_cons.mpr ⟨hcallee, List.forall_mem_map.mpr harguments⟩

protected theorem unaryTail (mode : Mode) (operator : String) :
    KeepsOperand P top (unaryTail rules mode operator) :=
  (h.expression _ mode).bind fun _ ho => (Keeps.settle ho).bind fun _ he =>
    .pure (.single rfl rfl he)

protected theorem updateTail (mode : Mode) (operator : String) :
    KeepsOperand P top (updateTail rules mode operator) :=
  (h.expression _ mode).bind fun _ ho => (Keeps.settle ho).bind fun _ he =>
    .pure (.single rfl rfl he)

protected theorem classOperand : KeepsOperand P top (classOperand rules) :=
  h.classTail.bind fun _ _ => .pure (.leaf rfl rfl)

protected theorem wordOperand (mode : Mode) (w : String) :
    KeepsOperand P top (wordOperand rules mode w) := by
  rw [wordOperand.eq_def]
  split
  · exact h.functionOperand false
  · exact h.asyncTail mode
  · exact h.awaitTail mode
  · exact h.yieldTail mode
  · exact h.classOperand
  · exact h.newTail mode
  · exact .importTail
  · exact .pure (.leaf rfl rfl)
  · exact .pure (.leaf rfl rfl)
  · exact .pure (.leaf rfl rfl)
  · exact .pure (.leaf rfl rfl)
  · exact .pure (.leaf rfl rfl)
  · exact h.unaryTail mode _
  · exact h.unaryTail mode _
  · exact h.unaryTail mode _
  · exact .ite (fun _ => .failure) fun _ => h.identifierTail mode w

/-! ### Other operands -/

protected theorem templateParts (fuel : Nat) : Advances top (templateParts rules fuel) := by
  induction fuel with
  | zero => exact .failure
  | succ fuel ih =>
    refine .bind .get fun s hs => .bind (.scan _) fun found hfound => ?_
    obtain ⟨ending, rest⟩ := found
    refine .bind (.set (((leaves_templateTail_and_parts s).1 _ _ hfound).trans hs)) fun _ _ => ?_
    split
    · exact .pure trivial
    · exact (h.expressions _).bind fun _ _ => .bind (.mark "\x7d") fun _ _ => ih

protected theorem privateTest (mode : Mode) : KeepsOperand P top (privateTest rules mode) := by
  refine .bind .privateName fun _ _ => .bind (.expectWord "in") fun _ _ =>
    (h.expression _ mode).bind fun o ho => (Keeps.settle ho).bind fun e he => .pure ?_
  exact .pair rfl rfl (.leaf rfl rfl) he

protected theorem decoratedClass : KeepsOperand P top (decoratedClass rules) :=
  (h.decorators _).bind fun _ _ => .bind (.expectWord "class") fun _ _ => h.classOperand

protected theorem plainOperand (mode : Mode) : KeepsOperand P top (plainOperand rules mode) := by
  refine .bind .get fun s hs => ?_
  split
  · rename_i text rest hnumber
    refine .bind (.set ((leaves_number? s text rest hnumber).trans hs)) fun _ _ => ?_
    exact .pure (.leaf rfl rfl)
  · exact .bind .anyWord fun w _ => h.wordOperand mode w

protected theorem templateOperand : KeepsOperand P top (templateOperand rules) :=
  (h.templateParts _).bind fun _ _ => .pure (.leaf rfl rfl)

protected theorem markupOperand : KeepsOperand P top (markupOperand rules) :=
  h.markupElement.bind fun _ _ => .pure (.leaf rfl rfl)

protected theorem operandRule (mode : Mode) : KeepsOperand P top (operandRule rules mode) := by
  refine .bind .skippedOperand fun s hs => .bind (.set hs) fun _ _ => ?_
  split
  · exact .bind (.setTail hs ‹_›) fun _ _ => h.parenthesisTail mode
  · rename_i cs heq
    exact h.arrayTail (heq ▸ hs)
  · exact .bind (.setTail hs ‹_›) fun _ _ => h.objectTail
  · exact .stringOperand
  · exact .stringOperand
  · exact .bind (.setTail hs ‹_›) fun _ _ => h.templateOperand
  · exact .bind (.setTail hs ‹_›) fun _ _ => .regexTail
  · exact h.markupOperand
  · exact h.privateTest mode
  · exact h.decoratedClass
  · rename_i cs heq
    rw [heq] at hs
    exact .bind (.setTail ((List.suffix_cons _ _).trans hs) rfl) fun _ _ => h.updateTail mode "++"
  · rename_i cs heq
    rw [heq] at hs
    exact .bind (.setTail ((List.suffix_cons _ _).trans hs) rfl) fun _ _ => h.updateTail mode "--"
  · exact .bind (.setTail hs ‹_›) fun _ _ => h.unaryTail mode "+"
  · exact .bind (.setTail hs ‹_›) fun _ _ => h.unaryTail mode "-"
  · exact .bind (.setTail hs ‹_›) fun _ _ => h.unaryTail mode "!"
  · exact .bind (.setTail hs ‹_›) fun _ _ => h.unaryTail mode "~"
  · exact h.plainOperand mode

/-! ### What follows an operand -/

protected theorem optionalTail (e : Expression) : KeepsOperand P top (optionalTail rules e) := by
  refine .bind .peek? fun _ _ => ?_
  split
  · refine .ite (fun _ => .bind (.mark "(") fun _ _ => ?_) fun _ => .failure
    exact h.argumentsTail.bind fun _ _ => .pure (.leaf rfl rfl)
  · exact .bind (.mark "[") fun _ _ => (h.expressions _).bind fun _ _ =>
      .bind (.mark "]") fun _ _ => .pure (.leaf rfl rfl)
  · exact .bind .privateName fun _ _ => .pure (.leaf rfl rfl)
  · exact .bind .anyWord fun _ _ => .pure (.leaf rfl rfl)

protected theorem indexTail {e : Expression} (he : (Piece.expression e).EachArray P) :
    KeepsOperand P top (indexTail rules e) :=
  (h.expressions _).bind fun _ hplace => .bind (.mark "]") fun _ _ =>
    .pure (.pair rfl rfl he hplace)

protected theorem conditionalTail (mode : Mode) {test : Expression}
    (htest : (Piece.expression test).EachArray P) :
    KeepsOperand P top (conditionalTail rules mode test) := by
  refine (h.singleExpression _).bind fun consequent hconsequent => .bind (.mark ":") fun _ _ =>
    (h.singleExpression mode).bind fun alternate halternate => .pure ?_
  exact .triple rfl rfl htest hconsequent halternate

protected theorem assignTail (mode : Mode) (operator : String) (left : Operand)
    {target : Expression} (htarget : (Piece.expression target).EachArray P) :
    KeepsOperand P top (assignTail rules mode operator left target) :=
  (h.singleExpression mode).bind fun _ hright => .pure (.pair rfl rfl htarget hright)

protected theorem binaryTail (mode : Mode) (operator : String) (level : Level) {left : Expression}
    (hleft : (Piece.expression left).EachArray P) :
    KeepsOperand P top (binaryTail rules mode operator level left) :=
  (h.expression _ mode).bind fun _ ho => (Keeps.settle ho).bind fun _ hright =>
    .pure (.pair rfl rfl hleft hright)

protected theorem callTail (level : Nat) (mode : Mode) {left : Operand}
    (hleft : (Piece.expression left.expr).EachArray P) :
    Keeps top (callTail rules level mode left) fun found =>
      ∀ o ∈ found, (Piece.expression o.expr).EachArray P := by
  refine (h.items ')' _ _).bind fun list hlist => .bind (.looking "=>") fun _ _ =>
    .ite (fun _ => ?_) fun _ => .ite (fun _ => ?_) fun _ => .pure fun _ hnone => nomatch hnone
  · refine .bind (.scan _) fun found hfound => .ite (fun _ => ?_) fun _ => .failure
    refine (h.arrowTail mode true ?_).bind fun o ho => .pure ?_
    · exact List.forall_mem_map.mpr fun o ho =>
        .patternOf (hlist o (mem_operandsOf_of_separated? hfound o ho))
    · rintro _ ⟨⟩
      exact ho
  · refine (Keeps.settle hleft).bind fun callee hcallee => (Keeps.settleAll hlist).bind
      fun arguments harguments => .pure ?_
    rintro _ ⟨⟩
    exact .node rfl (List.forall_mem_cons.mpr ⟨hcallee, List.forall_mem_map.mpr harguments⟩)

/-- What follows an operand is taken step by step, and each step keeps the array literals of the
operand that it starts from. -/
protected theorem climb (level : Nat) (mode : Mode) (fuel : Nat) {left : Operand}
    (hleft : (Piece.expression left.expr).EachArray P) :
    KeepsOperand P top (climb rules level mode fuel left) := by
  induction fuel generalizing left with
  | zero => exact .failure
  | succ fuel ih =>
    refine .bind .get fun s hs => ?_
    have hafter {follow : Follow} {rest : List Char}
        (hfollow : follow? (skip s) = some (follow, rest)) : Advances top (set rest) :=
      .set ((leaves_follow? _ follow rest hfollow).trans ((suffix_skip s).trans hs))
    split
    · exact .pure hleft
    · refine .ite (fun _ => .bind (hafter ‹_›) fun _ _ => ?_) fun _ => .pure hleft
      exact (Keeps.settle hleft).bind fun _ he => (Keeps.pointTail he).bind fun _ ho => ih ho
    · refine .ite (fun _ => .bind (hafter ‹_›) fun _ _ => ?_) fun _ => .pure hleft
      exact (Keeps.settle hleft).bind fun e _ => (h.optionalTail e).bind fun _ ho => ih ho
    · refine .ite (fun _ => .bind (hafter ‹_›) fun _ _ => ?_) fun _ => .pure hleft
      exact (Keeps.settle hleft).bind fun _ he => (h.indexTail he).bind fun _ ho => ih ho
    · refine .ite (fun _ => .bind (hafter ‹_›) fun _ _ => ?_) fun _ => .pure hleft
      exact (Keeps.settle hleft).bind fun _ _ => (h.templateParts _).bind fun _ _ =>
        ih (.leaf rfl rfl)
    · refine .ite (fun _ => .bind (hafter ‹_›) fun _ _ => ?_) fun _ => .pure hleft
      refine (h.callTail level mode hleft).bind fun found hfound => ?_
      split
      · exact ih (hfound _ rfl)
      · exact .bind (.set hs) fun _ _ => .pure hleft
    · refine .ite (fun _ => .bind (hafter ‹_›) fun _ _ => ?_) fun _ => .pure hleft
      exact (Keeps.settle hleft).bind fun _ he => ih (.single rfl rfl he)
    · refine .ite (fun _ => .bind (hafter ‹_›) fun _ _ => ?_) fun _ => .pure hleft
      exact (Keeps.settle hleft).bind fun _ he => h.conditionalTail mode he
    · split
      · rename_i target htarget
        exact .bind (hafter ‹_›) fun _ _ => h.assignTail mode _ left (hleft.assigned htarget)
      · exact .pure hleft
    · refine .ite (fun _ => .bind (hafter ‹_›) fun _ _ => ?_) fun _ => .pure hleft
      exact (Keeps.settle hleft).bind fun _ he => (h.binaryTail mode _ _ he).bind fun _ ho => ih ho

protected theorem expressionRule (level : Nat) (mode : Mode) :
    KeepsOperand P top (expressionRule rules level mode) :=
  (h.operandRule mode).bind fun _ ho => h.climb level mode rules.bound ho

end Rules.Sound

end Script

end ScriptWire
