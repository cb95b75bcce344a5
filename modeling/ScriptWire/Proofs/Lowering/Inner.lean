import ScriptWire.Proofs.Lowering.Soundness

/-!
# Messages of inner nodes

The message of a node holds the messages of the nodes inside it, except for the variables of
declarations, which are kept as their names.

## Main definitions

- `Tree.Node.HeldBy` — the message of a node stands inside another message

## Main results

- `Tree.Node.heldBy_of_mem_children` — the message of a node holds those of its children
- `Tree.Program.inside_image` — the message of a program holds those of its expressions
-/

namespace ScriptWire

namespace Message

variable {k : Kind} {m : Message k} {inner : Any}

theorem Any.Inside.of_mem_parts (h : inner ∈ m.parts) : inner.Inside m.any :=
  .single h

theorem Any.Inside.statement [Holds statementVariants k] [LawfulHolds statementVariants k]
    (h : inner.Inside m.any) : inner.Inside (Message.statement m).any := by
  refine .head ?_ h
  change m.any ∈ (Message.statement m).parts
  rw [parts_statement]
  exact .head _

theorem Any.Inside.expression [Holds expressionVariants k] [LawfulHolds expressionVariants k]
    (h : inner.Inside m.any) : inner.Inside (Message.expression m).any := by
  refine .head ?_ h
  change m.any ∈ (Message.expression m).parts
  rw [parts_expression]
  exact .head _

theorem Any.Inside.objectField [Holds memberVariants k] [LawfulHolds memberVariants k]
    (h : inner.Inside m.any) : inner.Inside (Message.objectField m).any := by
  refine .head ?_ h
  change m.any ∈ (Message.objectField m).parts
  rw [parts_objectField]
  exact .head _

@[simp]
theorem Slot.parts_plain {number : Nat} {type : Scalar} (value : type.Carrier) :
    (Slot.plain value : Slot (.plain number type)).parts = [] :=
  rfl

@[simp]
theorem Slot.parts_present {number : Nat} (m : Message k) :
    (Slot.present m : Slot (.optional number k)).parts = [m.any] :=
  rfl

@[simp]
theorem Slot.parts_set {vs : List Variant} (choice : Choice vs) :
    (Slot.set choice).parts = choice.parts :=
  rfl

@[simp]
theorem Slot.parts_ofOption {number : Nat} (m : Option (Message k)) :
    (Slot.ofOption m : Slot (.optional number k)).parts = m.toList.map any := by
  cases m <;> rfl

end Message

namespace Tree

open Message (Any parts any)

/-- The message of a node stands inside a message. Nothing is asked of a binding, whose name may be
all that is kept. -/
def Node.HeldBy (outer : Any) : Node → Prop
  | .pattern _ => True
  | n => n.image.Inside outer

namespace Node.HeldBy

variable {k : Message.Kind} {m : Message k} {outer : Any} {n : Node}

theorem of_inside (h : n.image.Inside outer) : n.HeldBy outer := by
  cases n with
  | pattern p => trivial
  | _ => exact h

theorem of_mem_parts (h : n.image ∈ m.parts) : n.HeldBy m.any :=
  of_inside (.single h)

theorem statement [Message.Holds Message.statementVariants k]
    [Message.LawfulHolds Message.statementVariants k] (h : n.image ∈ m.parts) :
    n.HeldBy (Message.statement m).any :=
  of_inside (Any.Inside.of_mem_parts h).statement

theorem expression [Message.Holds Message.expressionVariants k]
    [Message.LawfulHolds Message.expressionVariants k] (h : n.image ∈ m.parts) :
    n.HeldBy (Message.expression m).any :=
  of_inside (Any.Inside.of_mem_parts h).expression

theorem objectField [Message.Holds Message.memberVariants k]
    [Message.LawfulHolds Message.memberVariants k] (h : n.image ∈ m.parts) :
    n.HeldBy (Message.objectField m).any :=
  of_inside (Any.Inside.of_mem_parts h).objectField

end Node.HeldBy

attribute [local simp] Message.parts Message.Slots.parts Message.Choice.parts
  Message.Payload.parts Node.image

/-- The message of a statement holds those of its children. -/
theorem Statement.heldBy_image {s : Statement} (h : s.Regular) :
    ∀ c ∈ s.children, c.HeldBy (Image.statement s).any := by
  cases s with
  | emptyStatement => exact List.forall_mem_nil _
  | blockStatement body =>
    refine List.forall_mem_map.mpr fun s hs => .statement ?_
    simpa [Message.blockStatement] using ⟨s, hs, rfl⟩
  | expressionStatement e =>
    refine List.forall_mem_singleton.mpr (.statement ?_)
    simp [Message.expressionStatement]
  | variableDeclaration kind declarations =>
    refine List.forall_mem_map.mpr fun d hd => .statement ?_
    simpa [Message.variableDeclaration] using ⟨d, hd, rfl⟩
  | functionDeclaration id params body generator isAsync =>
    refine List.forall_mem_append.mpr ⟨List.forall_mem_map.mpr fun _ _ => trivial, ?_⟩
    refine List.forall_mem_map.mpr fun s hs => .statement ?_
    simpa [Message.functionDeclaration] using .inr ⟨s, hs, rfl⟩
  | returnStatement argument =>
    refine List.forall_mem_map.mpr fun e he => .statement ?_
    obtain rfl := Option.mem_toList.mp he
    simp [Message.returnStatement]
  | ifStatement test consequent alternate =>
    simp only [Statement.children, List.forall_mem_cons, List.forall_mem_map]
    refine ⟨.statement ?_, .statement ?_, fun s hs => .statement ?_⟩
    · simp [Message.ifStatement]
    · simp [Message.ifStatement]
    · obtain rfl := Option.mem_toList.mp hs
      simp [Message.ifStatement]
  | whileStatement test body =>
    simp only [Statement.children, List.forall_mem_cons]
    refine ⟨.statement ?_, .statement ?_, List.forall_mem_nil _⟩
    all_goals simp [Message.whileLoop]
  | doWhileStatement body test =>
    simp only [Statement.children, List.forall_mem_cons]
    refine ⟨.statement ?_, .statement ?_, List.forall_mem_nil _⟩
    all_goals simp [Message.doWhileLoop]
  | forStatement init test update body =>
    obtain ⟨hinit, htest, hupdate⟩ := h
    obtain ⟨init, rfl⟩ := Option.isSome_iff_exists.mp hinit
    obtain ⟨test, rfl⟩ := Option.isSome_iff_exists.mp htest
    obtain ⟨update, rfl⟩ := Option.isSome_iff_exists.mp hupdate
    simp only [Statement.children, Option.toList_some, List.map_cons, List.map_nil,
      List.cons_append, List.nil_append, List.forall_mem_cons]
    refine ⟨.statement ?_, .statement ?_, .statement ?_, .statement ?_, List.forall_mem_nil _⟩
    all_goals simp [Message.forLoop]
  | forInStatement left right body =>
    simp only [Statement.children, List.forall_mem_cons]
    refine ⟨.statement ?_, .statement ?_, .statement ?_, List.forall_mem_nil _⟩
    all_goals simp [Message.forInLoop]
  | forOfStatement left right body isAwait =>
    simp only [Statement.children, List.forall_mem_cons]
    refine ⟨.statement ?_, .statement ?_, .statement ?_, List.forall_mem_nil _⟩
    all_goals simp [Message.forOfLoop]
  | tryStatement block handler finalizer =>
    simp only [Statement.children, List.forall_mem_append, List.forall_mem_map]
    refine ⟨⟨fun s hs => .statement ?_, fun c hc => .statement ?_⟩, fun s hs => .of_inside ?_⟩
    · simpa [Message.tryStatement] using .inl ⟨s, hs, rfl⟩
    · obtain rfl := Option.mem_toList.mp hc
      simp [Message.tryStatement]
    · -- The statements of the last block stand in a message of their own.
      obtain ⟨body, hbody, hmem⟩ := List.mem_flatten.mp hs
      obtain rfl := Option.mem_toList.mp hbody
      have hstatement : (Image.statement s).any.Inside
          (Message.finallyClause (body.map Image.statement)).any :=
        .of_mem_parts (by simpa [Message.finallyClause] using ⟨s, hmem, rfl⟩)
      refine .statement (.head ?_ hstatement)
      simp [Message.tryStatement, any]
  | throwStatement argument =>
    refine List.forall_mem_singleton.mpr (.statement ?_)
    simp [Message.throwStatement]
  | unsupported kind => exact h.elim

theorem ArrowBody.heldBy_image {body : ArrowBody} {type : Int32}
    {params : List (Message .parameter)} :
    ∀ c ∈ body.children, c.HeldBy (Message.expression (Image.arrow type params body)).any := by
  cases body with
  | expression e =>
    refine List.forall_mem_singleton.mpr (.expression ?_)
    simp [Image.arrow, Message.expressionArrow]
  | blockStatement body =>
    refine List.forall_mem_map.mpr fun s hs => .of_inside (.expression ?_)
    -- The statements of the body stand in a block, which is a statement of its own.
    have hblock : (Image.statement s).any.Inside
        (Message.statement (Message.blockStatement (body.map Image.statement))).any :=
      .statement (.of_mem_parts (by simpa [Message.blockStatement] using ⟨s, hs, rfl⟩))
    refine .head ?_ hblock
    simp [Image.arrow, Message.blockArrow, any]

/-- The message of an expression holds those of its children. -/
theorem Expression.heldBy_image {e : Expression} (h : e.Regular) :
    ∀ c ∈ e.children, c.HeldBy (Image.expression e).any := by
  cases e with
  | assignmentExpression operator left right =>
    simp only [Expression.children, List.forall_mem_cons]
    refine ⟨.expression ?_, .expression ?_, List.forall_mem_nil _⟩
    all_goals simp [Message.assignmentExpression]
  | objectExpression properties =>
    refine List.forall_mem_map.mpr fun m hm => .expression ?_
    simpa [Message.objectExpression] using ⟨m, hm, rfl⟩
  | arrayExpression elements =>
    refine List.forall_mem_flatMap.mpr fun e he => List.forall_mem_map.mpr fun x hx =>
      .expression ?_
    obtain rfl := Option.mem_toList.mp hx
    simpa [Message.arrayExpression] using ⟨some x, he, rfl⟩
  | functionExpression id params body generator isAsync =>
    refine List.forall_mem_append.mpr ⟨List.forall_mem_map.mpr fun _ _ => trivial, ?_⟩
    refine List.forall_mem_map.mpr fun s hs => .expression ?_
    simpa [Message.functionExpression] using .inr ⟨s, hs, rfl⟩
  | arrowFunctionExpression id params body generator isAsync =>
    exact List.forall_mem_append.mpr
      ⟨List.forall_mem_map.mpr fun _ _ => trivial, ArrowBody.heldBy_image⟩
  | callExpression callee arguments =>
    simp only [Expression.children, List.forall_mem_cons, List.forall_mem_map]
    refine ⟨.expression ?_, fun e he => .expression ?_⟩
    · simp [Message.callExpression]
    · simpa [Message.callExpression] using .inr ⟨e, he, rfl⟩
  | newExpression callee arguments =>
    simp only [Expression.children, List.forall_mem_cons, List.forall_mem_map]
    refine ⟨.expression ?_, fun e he => .expression ?_⟩
    · simp [Message.newExpression]
    · simpa [Message.newExpression] using .inr ⟨e, he, rfl⟩
  | memberExpression object property computed =>
    cases computed with
    | true =>
      simp only [Expression.children, List.forall_mem_cons, if_true]
      refine ⟨.expression ?_, .expression ?_, List.forall_mem_nil _⟩
      all_goals simp [Message.computedMember]
    | false =>
      refine List.forall_mem_singleton.mpr (.expression ?_)
      simp [Message.namedMember]
  | unaryExpression operator isPrefix argument =>
    refine List.forall_mem_singleton.mpr (.expression ?_)
    simp [Message.unaryExpression]
  | binaryExpression operator left right =>
    simp only [Expression.children, List.forall_mem_cons]
    refine ⟨.expression ?_, .expression ?_, List.forall_mem_nil _⟩
    all_goals simp [Message.binaryExpression]
  | logicalExpression operator left right =>
    simp only [Expression.children, List.forall_mem_cons]
    refine ⟨.expression ?_, .expression ?_, List.forall_mem_nil _⟩
    all_goals simp [Message.binaryExpression]
  | updateExpression operator isPrefix argument =>
    refine List.forall_mem_singleton.mpr (.expression ?_)
    simp [Message.updateExpression]
  | yieldExpression argument delegate =>
    refine List.forall_mem_map.mpr fun e he => .expression ?_
    obtain rfl := Option.mem_toList.mp he
    simp [Message.yieldExpression]
  | awaitExpression argument =>
    refine List.forall_mem_singleton.mpr (.expression ?_)
    simp [Message.awaitExpression]
  | conditionalExpression test consequent alternate =>
    simp only [Expression.children, List.forall_mem_cons]
    refine ⟨.expression ?_, .expression ?_, .expression ?_, List.forall_mem_nil _⟩
    all_goals simp [Message.ternaryExpression]
  | sequenceExpression expressions =>
    refine List.forall_mem_map.mpr fun e he => .expression ?_
    simpa [Message.sequenceExpression] using ⟨e, he, rfl⟩
  | spreadElement argument =>
    refine List.forall_mem_singleton.mpr (.expression ?_)
    simp [Message.spreadElement]
  | unsupported kind => exact h.elim
  | _ => exact List.forall_mem_nil _

/-- The message of a member holds those of its children. -/
theorem Member.heldBy_image {m : Member} (h : m.Regular) :
    ∀ c ∈ m.children, c.HeldBy (Image.member m).any := by
  cases m with
  | objectProperty key value computed shorthand method =>
    cases computed with
    | true =>
      simp only [Member.children, if_true, List.cons_append, List.nil_append, List.forall_mem_cons]
      refine ⟨.objectField ?_, .objectField ?_, List.forall_mem_nil _⟩
      all_goals simp [Message.computedProperty]
    | false =>
      refine List.forall_mem_singleton.mpr ?_
      -- Only a number as the key makes a difference.
      cases key with
      | numericLiteral number =>
        refine .objectField ?_
        simp [Message.indexedProperty]
      | _ =>
        refine .objectField ?_
        simp [Message.namedProperty]
  | objectMethod kind key params body computed shorthand generator isAsync =>
    refine List.forall_mem_append.mpr ⟨List.forall_mem_map.mpr fun _ _ => trivial, ?_⟩
    refine List.forall_mem_map.mpr fun s hs => ?_
    cases kind with
    | method =>
      refine .objectField ?_
      simpa [Message.objectMethod] using .inr ⟨s, hs, rfl⟩
    | getter =>
      refine .objectField ?_
      simpa [Message.objectGetter] using ⟨s, hs, rfl⟩
    | setter =>
      refine .objectField ?_
      simpa [Message.objectSetter] using .inr ⟨s, hs, rfl⟩
  | spreadElement argument => exact h.elim
  | unsupported kind => exact h.elim

/-- The message of an accepted node holds those of its children. -/
theorem Node.heldBy_of_mem_children {n c : Node} (h : n.Regular) (hc : c ∈ n.children) :
    c.HeldBy n.image := by
  cases n with
  | statement s => exact Statement.heldBy_image h c hc
  | expression e => exact Expression.heldBy_image h c hc
  | pattern p => cases hc
  | member m => exact Member.heldBy_image h c hc
  | declarator d =>
    obtain ⟨id, init⟩ := d
    rcases List.mem_cons.mp hc with rfl | hc
    · trivial
    · obtain ⟨e, he, rfl⟩ := List.mem_map.mp hc
      obtain rfl := Option.mem_toList.mp he
      refine .of_mem_parts ?_
      simp [Image.declarator, Message.variableDeclarator]
  | countingHead head =>
    -- The head has the message of its only variable.
    obtain ⟨kind, d, rfl, _⟩ := h
    obtain rfl := List.mem_singleton.mp hc
    exact .of_inside .refl
  | iterationHead loop head =>
    obtain ⟨kind, id, rfl, _⟩ := h
    obtain rfl := List.mem_singleton.mp hc
    exact .of_inside .refl
  | catchClause clause =>
    obtain ⟨param, body⟩ := clause
    rcases List.mem_append.mp hc with hc | hc
    · obtain ⟨p, _, rfl⟩ := List.mem_map.mp hc
      trivial
    · obtain ⟨s, hs, rfl⟩ := List.mem_map.mp hc
      refine .of_mem_parts ?_
      simpa [Image.catchClause, Message.catchClause] using .inr ⟨s, hs, rfl⟩

/-- The message of an accepted node holds those of the expressions inside it. -/
theorem Node.inside_image {n : Node} {e : Expression} (h : n.Accepted)
    (hinside : (Node.expression e).Inside n) : (Image.expression e).any.Inside n.image := by
  induction hinside using Relation.ReflTransGen.head_induction_on with
  | refl => exact .refl
  | @head n c hc hrest ih =>
    obtain ⟨hregular, hchildren⟩ := accepted_iff.mp h
    have hheld := heldBy_of_mem_children hregular hc
    have hinner := ih (hchildren c hc)
    cases c with
    | pattern p =>
      -- Nothing stands inside a binding.
      rcases Relation.ReflTransGen.cases_head hrest with heq | ⟨_, hnone, _⟩
      · cases heq
      · cases hnone
    | _ => exact Relation.ReflTransGen.trans hheld hinner

/-- The message of an accepted program holds those of its expressions. -/
theorem Program.inside_image {p : Program} {s : Statement} {e : Expression} (h : p.Accepted)
    (hs : s ∈ p.body) (hinside : (Node.expression e).Inside (.statement s)) :
    (Image.expression e).any.Inside (Image.program p).any := by
  refine .head ?_ (Node.inside_image (h s hs) hinside)
  simpa [Image.program, Message.ast, any] using ⟨s, hs, rfl⟩

end Tree

end ScriptWire
