import ScriptWire.Proofs.Script.ArrayLiteral
import ScriptWire.Proofs.Script.Piece

/-!
# What the rules of tokens and lists keep

Each rule of the grammar leaves an end of the text. The trees that it builds have array literals
only where the text has some, as long as this holds of the parsers that the rule calls.

## Main definitions

- `Script.Rules.Sound` — the parsers that the rules call leave ends of the text, and have array
  literals with a property
-/

namespace ScriptWire

namespace Script

variable {top s : List Char}

/-! ### Tokens -/

theorem Keeps.skipped : Keeps top get fun s => skip s <:+ top :=
  Keeps.get.imp fun s hs => (suffix_skip s).trans hs

theorem Keeps.skippedOperand : Keeps top get fun s => skipOperand s <:+ top :=
  Keeps.get.imp fun s hs => (suffix_skipOperand s).trans hs

/-- What a scanner takes from the text leaves an end of it. -/
theorem Keeps.lexeme {α β : Type} {scan : List Char → Option (α × List Char)}
    (hscan : ∀ s, Leaves s (scan s)) {next : α → Parser β} (hnext : ∀ a, Advances top (next a)) :
    Advances top (do
      let (a, rest) ← scan (skip (← get))
      set rest
      next a) := by
  refine .bind .skipped fun s hs => .bind (.scan _) fun found hfound => ?_
  obtain ⟨a, rest⟩ := found
  exact .bind (.set ((hscan _ a rest hfound).trans hs)) fun _ _ => hnext a

namespace Keeps

protected theorem peek? : Advances top peek? :=
  .bind .get fun _ _ => .pure trivial

protected theorem looking (text : String) : Advances top (looking text) :=
  .bind .get fun _ _ => .pure trivial

protected theorem mark? (text : String) : Advances top (mark? text) := by
  refine .bind skipped fun s hs => .ite (fun _ => ?_) fun _ => .pure trivial
  exact .bind (.set ((List.drop_suffix _ _).trans hs)) fun _ _ => .pure trivial

protected theorem mark (text : String) : Advances top (mark text) :=
  .bind (.mark? text) fun _ _ => .ite (fun _ => .pure trivial) fun _ => .failure

protected theorem equals? : Advances top equals? := by
  refine .bind skipped fun s hs => ?_
  split
  · rename_i c cs heq
    refine .ite (fun _ => .pure trivial) fun _ => ?_
    exact .bind (.setTail hs heq) fun _ _ => .pure trivial
  · exact .pure trivial

protected theorem peekWord? : Advances top peekWord? :=
  .bind .get fun _ _ => .pure trivial

protected theorem anyWord : Advances top anyWord :=
  .lexeme leaves_word? fun _ => .pure

protected theorem word (w : String) : Advances top (word w) :=
  .bind .peekWord? fun _ _ => .ite (fun _ => .bind .anyWord fun _ _ => .pure trivial)
    fun _ => .pure trivial

protected theorem expectWord (w : String) : Advances top (expectWord w) :=
  .bind (.word w) fun _ _ => .ite (fun _ => .pure trivial) fun _ => .failure

protected theorem name : Advances top name :=
  .bind .anyWord fun _ _ => .ite (fun _ => .failure) fun _ => .pure trivial

protected theorem string : Advances top string :=
  .lexeme leaves_quoted? fun _ => .pure

protected theorem mayEndHere (operand : Bool) : Advances top (mayEndHere operand) :=
  .bind .get fun _ _ => .pure trivial

protected theorem semicolon (operand : Bool) : Advances top (semicolon operand) :=
  .bind (.mayEndHere operand) fun _ _ => .ite (fun _ => .pure trivial) fun _ => .mark ";"

protected theorem privateName : Advances top privateName := by
  refine .bind skipped fun s hs => ?_
  split
  · rename_i cs heq
    rw [heq] at hs
    refine .bind (.scan _) fun found hfound => ?_
    obtain ⟨w, rest⟩ := found
    exact .set (((leaves_word? _ w rest hfound).trans (List.suffix_cons _ _)).trans hs)
  · exact .failure

end Keeps

/-! ### Lists -/

/-- The parser leaves an end of the text, and every array literal in its operand has the
property. -/
abbrev KeepsOperand (P : List ArrayItem → Prop) (top : List Char) (p : Parser Operand) : Prop :=
  Keeps top p fun o => (Piece.expression o.expr).EachArray P

/-- The parser leaves an end of the text, and every array literal in its statement has the
property. -/
abbrev KeepsStatement (P : List ArrayItem → Prop) (top : List Char) (p : Parser Statement) : Prop :=
  Keeps top p fun x => (Piece.statement x).EachArray P

/-- The parsers that the rules call leave ends of the text `top`, and every array literal in their
results has the property `P`, which is one that the text of an array literal in `top` gives it. -/
structure Rules.Sound (P : List ArrayItem → Prop) (top : List Char) (rules : Rules) : Prop where
  expressionAt {s : List Char} (hs : s <:+ top) (level : Nat) (mode : Mode) :
    KeepsOperand P s (rules.expression level mode)
  statementAt {s : List Char} (hs : s <:+ top) : KeepsStatement P s rules.statement
  literal {text rest : List Char} {tokens : List ArrayItem} (htext : '[' :: text <:+ top)
    (h : Bracketed (element rules) false text tokens rest) : P tokens

namespace Rules.Sound

variable {P : List ArrayItem → Prop} {rules : Rules} (h : rules.Sound P top)

include h

protected theorem of_suffix (hs : s <:+ top) : rules.Sound P s where
  expressionAt hr := h.expressionAt (hr.trans hs)
  statementAt hr := h.statementAt (hr.trans hs)
  literal htext := h.literal (htext.trans hs)

protected theorem expression (level : Nat) (mode : Mode) :
    KeepsOperand P top (rules.expression level mode) :=
  h.expressionAt (List.suffix_refl _) level mode

protected theorem statement : KeepsStatement P top rules.statement :=
  h.statementAt (List.suffix_refl _)

end Rules.Sound

theorem Keeps.settle {P : List ArrayItem → Prop} {o : Operand}
    (ho : (Piece.expression o.expr).EachArray P) :
    Keeps top o.settle fun e => (Piece.expression e).EachArray P :=
  .ite (fun _ => .failure) fun _ => .pure ho

theorem Keeps.settleAll {P : List ArrayItem → Prop} {os : List Operand}
    (hos : ∀ o ∈ os, (Piece.expression o.expr).EachArray P) :
    Keeps top (settleAll os) fun es => ∀ e ∈ es, (Piece.expression e).EachArray P :=
  .mapM fun o ho => .settle (hos o ho)

theorem mem_operandsOf_of_separated? {items : List Item} {os : List Operand} {trailing : Bool}
    (h : separated? items = some (os, trailing)) : ∀ o ∈ os, o ∈ operandsOf items := by
  fun_induction separated? items generalizing os trailing with
  | case1 =>
    cases h
    exact List.forall_mem_nil _
  | case2 o | case3 o =>
    cases h
    exact List.forall_mem_singleton.mpr (.head _)
  | case4 o items hitems ih =>
    obtain ⟨⟨others, trailing⟩, hothers, heq⟩ := Option.map_eq_some_iff.mp h
    cases heq
    exact List.forall_mem_cons.mpr ⟨.head _, fun x hx => .tail _ (ih hothers x hx)⟩
  | case5 => cases h

/-- A pattern has the array literals of the expression that it was parsed as. -/
theorem Piece.EachArray.patternOf {P : List ArrayItem → Prop} {e : Expression}
    (h : (Piece.expression e).EachArray P) : (Piece.pattern (patternOf e)).EachArray P := by
  fun_induction Script.patternOf e with
  | case2 operator left right ih =>
    obtain ⟨hleft, hright⟩ := List.forall_mem_cons.mp h.contents
    exact .pair rfl rfl (ih hleft) (List.forall_mem_singleton.mp hright)
  | case3 operator left right ih =>
    have hassign := List.forall_mem_singleton.mp h.contents
    obtain ⟨hleft, hright⟩ := List.forall_mem_cons.mp hassign.contents
    refine .pair rfl rfl ?_ (List.forall_mem_singleton.mp hright)
    exact .single rfl rfl (ih hleft)
  | case4 e _ ih =>
    exact .single rfl rfl (ih (List.forall_mem_singleton.mp h.contents))
  | _ => exact .leaf rfl rfl

namespace Rules.Sound

variable {P : List ArrayItem → Prop} {rules : Rules} (h : rules.Sound P top)

include h

protected theorem element : KeepsOperand P top (element rules) := by
  refine .bind (.mark? "...") fun _ _ => .ite (fun _ => ?_) fun _ => h.expression 0 Mode.inner
  refine (h.expression 0 Mode.inner).bind fun o ho => .pure ?_
  exact .single rfl rfl ho

protected theorem items (close : Char) (fuel : Nat) (after : Bool) :
    Keeps top (items rules close fuel after) fun list =>
      ∀ o ∈ operandsOf list, (Piece.expression o.expr).EachArray P := by
  induction fuel generalizing after with
  | zero => exact .failure
  | succ fuel ih =>
    refine .bind .get fun text htext => ?_
    have hskip : (if after then skip text else skipOperand text) <:+ top := by
      split
      · exact (suffix_skip text).trans htext
      · exact (suffix_skipOperand text).trans htext
    dsimp only
    split
    · exact .failure
    · rename_i c cs hs
      refine .ite (fun _ => ?_) fun _ => .ite (fun _ => ?_) fun _ =>
        .ite (fun _ => .failure) fun _ => ?_
      · exact .bind (.setTail hskip hs) fun _ _ => .pure (List.forall_mem_nil _)
      · exact .bind (.setTail hskip hs) fun _ _ => (ih false).bind fun list hlist => .pure hlist
      · refine .bind (.set hskip) fun _ _ => h.element.bind fun o ho =>
          (ih true).bind fun list hlist => .pure ?_
        exact List.forall_mem_cons.mpr ⟨ho, hlist⟩

protected theorem moreExpressions (mode : Mode) (fuel : Nat) :
    Keeps top (moreExpressions rules mode fuel) fun es =>
      ∀ e ∈ es, (Piece.expression e).EachArray P := by
  induction fuel with
  | zero => exact .failure
  | succ fuel ih =>
    refine .bind (.mark? ",") fun _ _ => .ite (fun _ => ?_) fun _ => .pure (List.forall_mem_nil _)
    refine (h.expression 0 mode).bind fun o ho => (Keeps.settle ho).bind fun e he =>
      ih.bind fun es hes => .pure ?_
    exact List.forall_mem_cons.mpr ⟨he, hes⟩

protected theorem expressions (mode : Mode) :
    Keeps top (expressions rules mode) fun e => (Piece.expression e).EachArray P := by
  refine (h.expression 0 mode).bind fun o ho => (Keeps.settle ho).bind fun first hfirst =>
    (h.moreExpressions mode rules.bound).bind fun more hmore => ?_
  split
  · exact .pure hfirst
  · refine .pure (.node rfl (List.forall_mem_map.mpr ?_))
    exact List.forall_mem_cons.mpr ⟨hfirst, hmore⟩

protected theorem parenthesized :
    Keeps top (parenthesized rules) fun e => (Piece.expression e).EachArray P := by
  refine .bind (.mark "(") fun _ _ => (h.expressions _).bind fun e he =>
    .bind (.mark ")") fun _ _ => .pure ?_
  exact .single rfl rfl he

protected theorem singleExpression (mode : Mode) :
    Keeps top (Script.expression rules mode) fun e => (Piece.expression e).EachArray P :=
  (h.expression 0 mode).bind fun _ ho => .settle ho

protected theorem argumentsTail :
    Keeps top (argumentsTail rules) fun es => ∀ e ∈ es, (Piece.expression e).EachArray P :=
  (h.items ')' _ _).bind fun _ hlist => .settleAll hlist

protected theorem parameters :
    Keeps top (parameters rules) fun ps => ∀ p ∈ ps, (Piece.pattern p).EachArray P := by
  refine .bind (.mark "(") fun _ _ => (h.items ')' _ _).bind fun list hlist =>
    .bind (.scan _) fun found hfound => ?_
  obtain ⟨os, trailing⟩ := found
  refine .ite (fun _ => .pure ?_) fun _ => .failure
  refine List.forall_mem_map.mpr fun o ho => .patternOf (hlist o ?_)
  exact mem_operandsOf_of_separated? hfound o ho

protected theorem statementsTail (fuel : Nat) :
    Keeps top (statementsTail rules fuel) fun body =>
      ∀ x ∈ body, (Piece.statement x).EachArray P := by
  induction fuel with
  | zero => exact .failure
  | succ fuel ih =>
    refine .bind .get fun text htext => ?_
    have hskip := (suffix_skipOperand text).trans htext
    split
    · rename_i cs hs
      exact .bind (.setTail hskip hs) fun _ _ => .pure (List.forall_mem_nil _)
    · refine .bind (.set hskip) fun _ _ => h.statement.bind fun x hx => ih.bind fun body hbody =>
        .pure ?_
      exact List.forall_mem_cons.mpr ⟨hx, hbody⟩

protected theorem block :
    Keeps top (block rules) fun body => ∀ x ∈ body, (Piece.statement x).EachArray P :=
  .bind (.mark "\x7b") fun _ _ => h.statementsTail _

/-- What follows the word `function` has array literals in the parameters and in the body. -/
protected theorem functionTail :
    Keeps top (functionTail rules) fun f =>
      (∀ p ∈ f.2.2.1, (Piece.pattern p).EachArray P) ∧
        ∀ x ∈ f.2.2.2, (Piece.statement x).EachArray P := by
  refine .bind (.mark? "*") fun _ _ => .bind .peek? fun _ _ =>
    .ite_bind (fun _ => Advances.pure) (fun _ => Keeps.name.advancesMap) fun _ _ => ?_
  exact h.parameters.bind fun _ hparams => h.block.bind fun _ hbody => .pure ⟨hparams, hbody⟩

end Rules.Sound

end Script

end ScriptWire
