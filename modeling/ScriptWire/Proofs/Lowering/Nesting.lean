import ScriptWire.Proofs.Lowering.Compile
import ScriptWire.Wire.Decoder

/-!
# How deeply the messages of programs are nested

The compiler counts statements and expressions inside each other, and the reader of messages counts
messages. Every construct wraps what stands in it into messages of its own, and some of these belong
to no statement or expression: members, declarators, clauses and parameters. Four messages for each
level are always enough, and some programs need them all.

## Main definitions

- `Message.Any.Within` — at most so many messages stand inside each other
- `Tree.Node.surplus` — the messages that a node may take beside four for each level
- `deepestProgram` — a program of a given number of levels with the deepest message

## Main results

- `Tree.Node.nests_of_children` — what one node adds to the messages of its children
- `Tree.Node.nests` — a bound on the message of every node
- `depth_of_compile` — the exact bound on the messages of programs
-/

namespace ScriptWire

namespace Message

/-- At most `bound` messages stand inside each other, the message itself included. -/
def Any.Within (bound : Nat) (m : Any) : Prop :=
  m.2.depth < bound

/-- At most `bound` messages stand inside each other in a field. -/
def Slot.Within (bound : Nat) {shape : Shape} (slot : Slot shape) : Prop :=
  ∀ c ∈ slot.parts, c.Within bound

/-- At most `bound` messages stand inside each other in each of several fields. -/
def Slots.Within (bound : Nat) : {fs : List Field} → Slots fs → Prop
  | [], .nil => True
  | _ :: _, .cons head tail => head.Within bound ∧ tail.Within bound

theorem Slots.Within.parts {bound : Nat} :
    {fs : List Field} → {slots : Slots fs} → slots.Within bound → ∀ c ∈ slots.parts, c.Within bound
  | [], .nil, _ => List.forall_mem_nil _
  | _ :: _, .cons head tail, h => by
    rw [Slots.parts, List.forall_mem_append]
    exact ⟨h.1, h.2.parts⟩

namespace Slot.Within

variable {bound number : Nat} {k : Kind} {α : Type} {f : α → Message k}

theorem plain {type : Scalar} {value : type.Carrier} :
    (Slot.plain value : Slot (.plain number type)).Within bound :=
  List.forall_mem_nil _

theorem present {m : Message k} (h : m.any.Within bound) :
    (Slot.present m : Slot (.optional number k)).Within bound :=
  List.forall_mem_singleton.mpr h

theorem option {o : Option α} (h : ∀ a ∈ o.toList, (f a).any.Within bound) :
    (Slot.ofOption (o.map f) : Slot (.optional number k)).Within bound := by
  cases o with
  | none => exact List.forall_mem_nil _
  | some a => exact present (h a (Option.mem_toList.mpr rfl))

theorem list {l : List α} (h : ∀ a ∈ l, (f a).any.Within bound) :
    (Slot.ofList (l.map f) : Slot (.repeated number k)).Within bound := by
  rw [Slot.Within, Slot.parts_ofList, List.forall_mem_map, List.forall_mem_map]
  exact h

/-- A variant that holds a message. -/
theorem chosen {vs : List Variant} {c : Choice vs} {m : Message k} (h : m.any.Within bound)
    (hparts : c.parts = [m.any]) : (Slot.set c).Within bound := by
  rw [Slot.Within, Slot.parts, hparts, List.forall_mem_singleton]
  exact h

/-- A variant that holds a value. -/
theorem scalar {vs : List Variant} {c : Choice vs} (hparts : c.parts = []) :
    (Slot.set c).Within bound := by
  rw [Slot.Within, Slot.parts, hparts]
  exact List.forall_mem_nil _

end Slot.Within

variable {k : Kind} {m : Message k}

/-- A message is one level deeper than its only part. -/
theorem depth_of_only_part {outerKind : Kind} {outer : Message outerKind}
    (h : outer.parts = [m.any]) : outer.depth = m.depth + 1 := by
  have hbound (bound : Nat) : outer.depth ≤ bound ↔ m.depth < bound := by
    rw [depth_le_iff, h, List.forall_mem_singleton]
    rfl
  have hlower := (hbound outer.depth).mp (Nat.le_refl _)
  have hupper := (hbound (m.depth + 1)).mpr (Nat.lt_succ_self _)
  omega

namespace Any.Within

variable {bound : Nat}

theorem mono {m : Any} {other : Nat} (h : m.Within bound) (hle : bound ≤ other) :
    m.Within other :=
  Nat.lt_of_lt_of_le h hle

/-- A message adds itself to what stands in its fields. -/
theorem mk {slots : Slots (fields k)} (h : slots.Within bound) :
    (Message.mk k slots).any.Within (bound + 1) :=
  Nat.lt_succ_of_le (depth_le_iff.mpr h.parts)

theorem of_only_part {outerKind : Kind} {outer : Message outerKind} (h : m.any.Within bound)
    (hparts : outer.parts = [m.any]) : outer.any.Within (bound + 1) := by
  have hdepth : outer.depth = m.depth + 1 := depth_of_only_part hparts
  have hm : m.depth < bound := h
  change outer.depth < bound + 1
  omega

theorem statement [Holds statementVariants k] [LawfulHolds statementVariants k]
    (h : m.any.Within bound) : (Message.statement m).any.Within (bound + 1) :=
  h.of_only_part (parts_statement m)

theorem expression [Holds expressionVariants k] [LawfulHolds expressionVariants k]
    (h : m.any.Within bound) : (Message.expression m).any.Within (bound + 1) :=
  h.of_only_part (parts_expression m)

theorem objectField [Holds memberVariants k] [LawfulHolds memberVariants k]
    (h : m.any.Within bound) : (Message.objectField m).any.Within (bound + 1) :=
  h.of_only_part (parts_objectField m)

end Any.Within

end Message

namespace Tree

/-- How many messages may stand inside each other in the message of a node, itself included, beside
four for each level of the node. -/
def Node.surplus : Node → Nat
  | .statement _ => 0
  | .expression _ => 1
  | .pattern _ => 1
  -- A member enters no level, but has a message of its own and one of its variant.
  | .member _ => 3
  | .declarator _ => 2
  | .countingHead _ => 2
  | .iterationHead _ _ => 2
  | .catchClause _ => 2

/-- The message of a node keeps to the bound for a number of levels. -/
def Node.Nests (levels : Nat) (n : Node) : Prop :=
  n.image.Within (4 * levels + n.surplus)

variable {levels : Nat}

theorem Node.Nests.mono {n : Node} {more : Nat} (h : n.Nests levels) (hle : levels ≤ more) :
    n.Nests more :=
  Message.Any.Within.mono h (by omega)

/-- One bound for several children, with the largest of their surpluses. -/
theorem Node.within_of_nests {children : List Node} {surplus : Nat}
    (ih : ∀ c ∈ children, c.Nests levels) (h : ∀ c ∈ children, c.surplus ≤ surplus) :
    ∀ c ∈ children, c.image.Within (4 * levels + surplus) := by
  intro c hc
  have hsurplus := h c hc
  exact Message.Any.Within.mono (ih c hc) (by omega)

theorem Node.surplus_le (n : Node) : n.surplus ≤ 3 := by
  cases n <;> simp [Node.surplus]

theorem Statement.surplus_le {s : Statement} : ∀ c ∈ s.children, c.surplus ≤ 2 := by
  cases s <;> simp only [Statement.children] <;> grind [Node.surplus]

/-- A statement adds itself and its variant to the messages of its children. -/
theorem Statement.nests {s : Statement} (ih : ∀ c ∈ s.children, c.Nests levels) :
    (Node.statement s).Nests (levels + 1) := by
  have h := Node.within_of_nests ih surplus_le
  change (Image.statement s).any.Within (4 * levels + 2 + 1 + 1)
  cases s with
  | emptyStatement => exact .statement (.mk trivial)
  | blockStatement body =>
    simp only [Statement.children, List.forall_mem_map] at h
    rw [Image.statement, Image.statements_eq_map]
    exact .statement (.mk ⟨.list h, trivial⟩)
  | expressionStatement e =>
    simp only [Statement.children, List.forall_mem_cons] at h
    exact .statement (.mk ⟨.present h.1, trivial⟩)
  | variableDeclaration kind declarations =>
    simp only [Statement.children, List.forall_mem_map] at h
    rw [Image.statement, Image.declarators_eq_map]
    exact .statement (.mk ⟨.plain, .list h, trivial⟩)
  | functionDeclaration id params body generator isAsync =>
    simp only [Statement.children, List.forall_mem_append, List.forall_mem_map] at h
    rw [Image.statement, Image.statements_eq_map]
    exact .statement (.mk ⟨.plain, .plain, .list h.1, .list h.2, trivial⟩)
  | returnStatement argument =>
    simp only [Statement.children, List.forall_mem_map] at h
    rw [Image.statement, Image.expression?_eq_map]
    exact .statement (.mk ⟨.option h, trivial⟩)
  | ifStatement test consequent alternate =>
    simp only [Statement.children, List.forall_mem_cons, List.forall_mem_map] at h
    rw [Image.statement, Image.statement?_eq_map]
    exact .statement (.mk ⟨.present h.1, .present h.2.1, .option h.2.2, trivial⟩)
  | whileStatement test body =>
    simp only [Statement.children, List.forall_mem_cons] at h
    exact .statement (.mk ⟨.present h.1, .present h.2.1, trivial⟩)
  | doWhileStatement body test =>
    simp only [Statement.children, List.forall_mem_cons] at h
    exact .statement (.mk ⟨.present h.1, .present h.2.1, trivial⟩)
  | forStatement init test update body =>
    simp only [Statement.children, List.forall_mem_append, List.forall_mem_map,
      List.forall_mem_singleton] at h
    obtain ⟨⟨⟨hinit, htest⟩, hupdate⟩, hbody⟩ := h
    -- A loop without one of its clauses has the message of an empty statement.
    cases init with
    | none => exact .statement (.mk trivial)
    | some init =>
      cases test with
      | none => exact .statement (.mk trivial)
      | some test =>
        cases update with
        | none => exact .statement (.mk trivial)
        | some update =>
          exact .statement (.mk ⟨.present (hinit init (by simp)), .present (htest test (by simp)),
            .present (hupdate update (by simp)), .present hbody, trivial⟩)
  | forInStatement left right body =>
    simp only [Statement.children, List.forall_mem_cons] at h
    exact .statement (.mk ⟨.present h.1, .present h.2.1, .present h.2.2.1, trivial⟩)
  | forOfStatement left right body isAwait =>
    simp only [Statement.children, List.forall_mem_cons] at h
    exact .statement (.mk ⟨.present h.1, .present h.2.1, .present h.2.2.1, trivial⟩)
  | tryStatement block handler finalizer =>
    simp only [Statement.children, List.forall_mem_append, List.forall_mem_map,
      List.mem_flatten] at ih h
    rw [Image.statement, Image.statements_eq_map, Image.catchClause?_eq_map,
      Image.finallyClause?_eq_map]
    refine .statement (.mk ⟨.list h.1.1, .option h.1.2, .option ?_, trivial⟩)
    -- The finally clause is no node, so the bound is the one for its statements.
    intro body hbody
    have hfinally : (Message.finallyClause (body.map Image.statement)).any.Within
        (4 * levels + 0 + 1) :=
      .mk ⟨.list fun s hs => ih.2 s ⟨body, hbody, hs⟩, trivial⟩
    exact hfinally.mono (by omega)
  | throwStatement argument =>
    simp only [Statement.children, List.forall_mem_cons] at h
    exact .statement (.mk ⟨.present h.1, trivial⟩)
  | unsupported kind => exact .statement (.mk trivial)

/-- An arrow function, from the bounds for its parameters and its body. -/
theorem ArrowBody.within {body : ArrowBody} {params : List Pattern} (type : Int32)
    (hparams : ∀ p ∈ params, (Node.pattern p).Nests levels)
    (ih : ∀ c ∈ body.children, c.Nests levels) :
    (Image.arrow type (params.map Image.parameter) body).any.Within (4 * levels + 3) := by
  have h : ∀ p ∈ params, (Image.parameter p).any.Within (4 * levels + 2) := fun p hp =>
    Message.Any.Within.mono (hparams p hp) (by simp [Node.surplus])
  cases body with
  | blockStatement body =>
    simp only [ArrowBody.children, List.forall_mem_map] at ih
    rw [Image.arrow, Image.statements_eq_map]
    -- The block is no node: its statement and its variant stand around the statements in it.
    have hblock : (Message.statement (Message.blockStatement (body.map Image.statement))).any.Within
        (4 * levels + 0 + 1 + 1) := .statement (.mk ⟨.list ih, trivial⟩)
    exact .mk ⟨.plain, .list h, .chosen hblock rfl, trivial⟩
  | expression e =>
    simp only [ArrowBody.children, List.forall_mem_singleton] at ih
    have he : (Image.expression e).any.Within (4 * levels + 2) :=
      Message.Any.Within.mono ih (by simp [Node.surplus])
    exact .mk ⟨.plain, .list h, .chosen he rfl, trivial⟩

/-- An expression adds itself and its variant to the messages of its children. -/
theorem Expression.nests {e : Expression} (ih : ∀ c ∈ e.children, c.Nests levels) :
    (Node.expression e).Nests (levels + 1) := by
  have h := Node.within_of_nests ih fun c _ => c.surplus_le
  change (Image.expression e).any.Within (4 * levels + 3 + 1 + 1)
  cases e with
  | identifier name => exact .expression (.mk ⟨.plain, trivial⟩)
  | numericLiteral value => exact .expression (.mk ⟨.plain, trivial⟩)
  | bigIntLiteral value => exact .expression (.mk ⟨.plain, trivial⟩)
  | stringLiteral value => exact .expression (.mk ⟨.plain, trivial⟩)
  | regExpLiteral pattern flags => exact .expression (.mk ⟨.plain, .plain, trivial⟩)
  | booleanLiteral value => exact .expression (.mk ⟨.plain, trivial⟩)
  | nullLiteral => exact .expression (.mk trivial)
  | thisExpression => exact .expression (.mk trivial)
  | intrinsicIdentifier name => exact .expression (.mk ⟨.plain, trivial⟩)
  | assignmentExpression operator left right =>
    simp only [Expression.children, List.forall_mem_cons] at h
    exact .expression (.mk ⟨.plain, .present h.1, .present h.2.1, trivial⟩)
  | objectExpression properties =>
    simp only [Expression.children, List.forall_mem_map] at h
    rw [Image.expression, Image.members_eq_map]
    exact .expression (.mk ⟨.list h, trivial⟩)
  | arrayExpression elements =>
    rw [Image.expression, Image.elements_eq_map]
    refine .expression (.mk ⟨.list fun element hmem => ?_, trivial⟩)
    cases element with
    | none =>
      change 0 < 4 * levels + 3
      omega
    | some e => exact h (.expression e) (List.mem_flatMap.mpr ⟨some e, hmem, by simp⟩)
  | functionExpression id params body generator isAsync =>
    simp only [Expression.children, List.forall_mem_append, List.forall_mem_map] at h
    rw [Image.expression, Image.statements_eq_map]
    exact .expression (.mk ⟨.plain, .list h.1, .list h.2, trivial⟩)
  | arrowFunctionExpression id params body generator isAsync =>
    simp only [Expression.children, List.forall_mem_append, List.forall_mem_map] at ih
    have harrow := ArrowBody.within (Lowering.functionType false isAsync) ih.1 ih.2
    exact (Message.Any.Within.expression harrow).mono (by omega)
  | callExpression callee arguments =>
    simp only [Expression.children, List.forall_mem_cons, List.forall_mem_map] at h
    rw [Image.expression, Image.expressions_eq_map]
    exact .expression (.mk ⟨.present h.1, .list h.2, trivial⟩)
  | newExpression callee arguments =>
    simp only [Expression.children, List.forall_mem_cons, List.forall_mem_map] at h
    rw [Image.expression, Image.expressions_eq_map]
    exact .expression (.mk ⟨.present h.1, .list h.2, trivial⟩)
  | memberExpression object property computed =>
    simp only [Expression.children, List.forall_mem_cons] at h
    cases computed with
    | true =>
      simp only [if_true, List.forall_mem_singleton] at h
      exact .expression (.mk ⟨.present h.1, .chosen h.2 rfl, trivial⟩)
    | false => exact .expression (.mk ⟨.present h.1, .scalar rfl, trivial⟩)
  | unaryExpression operator isPrefix argument =>
    simp only [Expression.children, List.forall_mem_cons] at h
    exact .expression (.mk ⟨.plain, .present h.1, trivial⟩)
  | binaryExpression operator left right =>
    simp only [Expression.children, List.forall_mem_cons] at h
    exact .expression (.mk ⟨.plain, .present h.1, .present h.2.1, trivial⟩)
  | logicalExpression operator left right =>
    simp only [Expression.children, List.forall_mem_cons] at h
    exact .expression (.mk ⟨.plain, .present h.1, .present h.2.1, trivial⟩)
  | updateExpression operator isPrefix argument =>
    simp only [Expression.children, List.forall_mem_cons] at h
    exact .expression (.mk ⟨.plain, .plain, .present h.1, trivial⟩)
  | yieldExpression argument delegate =>
    simp only [Expression.children, List.forall_mem_map] at h
    rw [Image.expression, Image.expression?_eq_map]
    exact .expression (.mk ⟨.option h, trivial⟩)
  | awaitExpression argument =>
    simp only [Expression.children, List.forall_mem_cons] at h
    exact .expression (.mk ⟨.present h.1, trivial⟩)
  | conditionalExpression test consequent alternate =>
    simp only [Expression.children, List.forall_mem_cons] at h
    exact .expression (.mk ⟨.present h.1, .present h.2.1, .present h.2.2.1, trivial⟩)
  | sequenceExpression expressions =>
    simp only [Expression.children, List.forall_mem_map] at h
    rw [Image.expression, Image.expressions_eq_map]
    exact .expression (.mk ⟨.list h, trivial⟩)
  | spreadElement argument =>
    simp only [Expression.children, List.forall_mem_cons] at h
    exact .expression (.mk ⟨.present h.1, trivial⟩)
  | unsupported kind => exact .expression (.mk trivial)

theorem Member.surplus_le {m : Member} : ∀ c ∈ m.children, c.surplus ≤ 1 := by
  cases m <;> simp only [Member.children] <;> grind [Node.surplus]

/-- A member adds itself and its variant to the messages of its children. -/
theorem Member.nests {m : Member} (ih : ∀ c ∈ m.children, c.Nests levels) :
    (Node.member m).Nests levels := by
  have h := Node.within_of_nests ih surplus_le
  change (Image.member m).any.Within (4 * levels + 1 + 1 + 1)
  cases m with
  | objectProperty key value computed shorthand method =>
    cases computed with
    | true =>
      simp only [Member.children, if_true, List.forall_mem_append, List.forall_mem_singleton] at h
      exact .objectField (.mk ⟨.chosen h.1 rfl, .present h.2, trivial⟩)
    | false =>
      have hvalue : (Image.expression value).any.Within (4 * levels + 1) :=
        h (.expression value) (by simp [Member.children])
      cases key with
      | numericLiteral number => exact .objectField (.mk ⟨.scalar rfl, .present hvalue, trivial⟩)
      | _ => exact .objectField (.mk ⟨.scalar rfl, .present hvalue, trivial⟩)
  | objectMethod kind key params body computed shorthand generator isAsync =>
    simp only [Member.children, List.forall_mem_append, List.forall_mem_map] at h
    cases kind with
    | method =>
      rw [Image.member, Image.statements_eq_map]
      exact .objectField (.mk ⟨.plain, .plain, .list h.1, .list h.2, trivial⟩)
    | getter =>
      rw [Image.member, Image.statements_eq_map]
      exact .objectField (.mk ⟨.plain, .list h.2, trivial⟩)
    | setter =>
      rw [Image.member, Image.statements_eq_map]
      have hparam : (Image.parameter (params.headD .objectPattern)).any.Within (4 * levels + 1) :=
        Nat.succ_pos _
      exact .objectField (.mk ⟨.plain, .present hparam, .list h.2, trivial⟩)
  | spreadElement argument => exact Nat.succ_pos _
  | unsupported kind => exact Nat.succ_pos _

theorem Declarator.nests {d : Declarator}
    (ih : ∀ c ∈ (Node.declarator d).children, c.Nests levels) :
    (Node.declarator d).Nests levels := by
  obtain ⟨id, init⟩ := d
  simp only [Node.children, List.forall_mem_cons, List.forall_mem_map] at ih
  change (Image.declarator (.mk id init)).any.Within (4 * levels + 1 + 1)
  rw [Image.declarator, Image.expression?_eq_map]
  exact .mk ⟨.plain, .option ih.2, trivial⟩

/-- The message of the head of a loop is the one of its first variable. -/
theorem ForInit.within {head : ForInit} (ih : ∀ c ∈ head.children, c.Nests levels) :
    (Image.head head).any.Within (4 * levels + 2) := by
  cases head with
  | variableDeclaration kind declarations =>
    cases declarations with
    | nil => exact Nat.succ_pos _
    | cons d rest => exact ih (.declarator d) (by simp [ForInit.children])
  | expression e => exact Nat.succ_pos _

theorem CatchClause.nests {clause : CatchClause}
    (ih : ∀ c ∈ (Node.catchClause clause).children, c.Nests levels) :
    (Node.catchClause clause).Nests levels := by
  obtain ⟨param, body⟩ := clause
  simp only [Node.children, List.forall_mem_append, List.forall_mem_map] at ih
  have hbody : ∀ s ∈ body, (Image.statement s).any.Within (4 * levels + 1) := fun s hs =>
    Message.Any.Within.mono (ih.2 s hs) (by simp [Node.surplus])
  change (Image.catchClause (.mk param body)).any.Within (4 * levels + 1 + 1)
  rw [Image.catchClause, Image.statements_eq_map]
  exact .mk ⟨.option ih.1, .list hbody, trivial⟩

/-- A node keeps to its bound if its children keep to theirs: the messages it adds are four for its
level, or taken from its surplus. -/
theorem Node.nests_of_children {n : Node} (ih : ∀ c ∈ n.children, c.Nests levels) :
    n.Nests (levels + n.levels) := by
  cases n with
  | statement s => exact Statement.nests ih
  | expression e => exact Expression.nests ih
  | pattern p => exact Nat.succ_pos _
  | member m => exact Member.nests ih
  | declarator d => exact Declarator.nests ih
  | countingHead head => exact ForInit.within ih
  | iterationHead loop head => exact ForInit.within ih
  | catchClause clause => exact CatchClause.nests ih

/-- Every node keeps to the bound for its depth. -/
theorem Node.nests (n : Node) : n.Nests n.depth := by
  induction n using induction_on_children with
  | step n ih =>
    obtain ⟨hlevels, hchildren⟩ := depth_le_iff.mp (Nat.le_refl n.depth)
    have hnests : ∀ c ∈ n.children, c.Nests (n.depth - n.levels) := by
      intro c hc
      have hdepth := hchildren c hc
      exact (ih c hc).mono (by omega)
    have hn := nests_of_children hnests
    rwa [Nat.sub_add_cancel hlevels] at hn

/-- At most four messages for each level stand inside each other below the message of a program. -/
theorem Program.depth_image_le (p : Program) : (Image.program p).depth ≤ 4 * p.depth := by
  rw [Image.program, Image.statements_eq_map, Message.depth_le_iff]
  have hslots : (Message.Slot.ofList (p.body.map Image.statement) :
      Message.Slot (.repeated 1 .statement)).Within (4 * p.depth) := by
    refine .list fun s hs => ?_
    have hdepth := Program.depth_le_iff.mp (Nat.le_refl p.depth) s hs
    exact (Node.statement s).nests.mono hdepth
  exact Message.Slots.Within.parts ⟨hslots, trivial⟩

end Tree

open ScriptWire.Tree

/-- Objects inside each other around one with a method, which has a parameter. -/
def nestedObjects : Nat → Expression
  | 0 => .objectExpression
      [.objectMethod .method (.identifier "f") [.identifier "a"] [] false false false false]
  | n + 1 => .objectExpression
      [.objectProperty (.identifier "a") (nestedObjects n) false false false]

/-- A program with the given number of levels of which the message is as deep as it can be. On one
level there is no place for expressions, and the deepest statement has a catch clause. -/
def deepestProgram : Nat → Program
  | 0 => ⟨[]⟩
  | 1 => ⟨[.tryStatement [] (some (.mk (some (.identifier "e")) [])) none]⟩
  | n + 2 => ⟨[.variableDeclaration "var" [.mk (.identifier "x") (some (nestedObjects n))]]⟩

theorem accepted_nestedObjects (n : Nat) : (Node.expression (nestedObjects n)).Accepted := by
  induction n with
  | zero =>
    have hparam : (Node.pattern (.identifier "a")).Accepted :=
      Node.accepted_iff.mpr ⟨⟨"a", rfl, by decide⟩, List.forall_mem_nil _⟩
    refine Node.accepted_iff.mpr ⟨trivial, List.forall_mem_singleton.mpr ?_⟩
    exact Node.accepted_iff.mpr
      ⟨⟨rfl, rfl, rfl, trivial⟩, List.forall_mem_singleton.mpr hparam⟩
  | succ n ih =>
    refine Node.accepted_iff.mpr ⟨trivial, List.forall_mem_singleton.mpr ?_⟩
    exact Node.accepted_iff.mpr ⟨⟨rfl, rfl, .inr rfl⟩, List.forall_mem_singleton.mpr ih⟩

theorem Tree.Node.depth_of_only_child {n c : Node} (h : n.children = [c]) :
    n.depth = n.levels + c.depth := by
  rw [depth_eq, h, List.map_singleton]
  exact congrArg (n.levels + ·) (Nat.max_zero c.depth)

theorem depth_nestedObjects (n : Nat) : (Node.expression (nestedObjects n)).depth = n + 1 := by
  induction n with
  | zero =>
    have hparam : (Node.pattern (.identifier "a")).depth = 0 := Node.depth_eq _
    rw [Node.depth_of_only_child rfl, Node.depth_of_only_child rfl, hparam]
    rfl
  | succ n ih =>
    rw [Node.depth_of_only_child rfl, Node.depth_of_only_child rfl, ih]
    simp only [Node.levels]
    omega

/-- An object adds four messages: itself, its variant, its member and the variant of this. -/
theorem depth_image_nestedObjects (n : Nat) :
    (Image.expression (nestedObjects n)).depth = 4 * n + 4 := by
  have hobject (m : Message .objectField) :
      (Message.expression (Message.objectExpression [m])).depth = m.depth + 2 := by
    rw [Message.depth_of_only_part (Message.parts_expression _), Message.depth_of_only_part rfl]
  induction n with
  | zero =>
    rw [nestedObjects, Image.expression, Image.members, Image.members, hobject, Image.member,
      Message.depth_of_only_part (Message.parts_objectField _), Message.depth_of_only_part rfl]
    rfl
  | succ n ih =>
    have hmember : Image.member
        (.objectProperty (.identifier "a") (nestedObjects n) false false false) =
          Message.objectField (Message.namedProperty "a" (Image.expression (nestedObjects n))) :=
      rfl
    rw [nestedObjects, Image.expression, Image.members, Image.members, hobject, hmember,
      Message.depth_of_only_part (Message.parts_objectField _), Message.depth_of_only_part rfl, ih]
    omega

/-- The program is accepted on its number of levels. -/
theorem compile_deepestProgram (limit : Nat) :
    compile limit (deepestProgram limit) = .ok (Image.program (deepestProgram limit)) := by
  match limit with
  | 0 => rfl
  | 1 => rfl
  | n + 2 =>
    have hname : (Node.pattern (.identifier "x")).Accepted :=
      Node.accepted_iff.mpr ⟨⟨"x", rfl, by decide⟩, List.forall_mem_nil _⟩
    have hdeclarator :
        (Node.declarator (.mk (.identifier "x") (some (nestedObjects n)))).Accepted :=
      Node.accepted_iff.mpr ⟨trivial, List.forall_mem_cons.mpr
        ⟨hname, List.forall_mem_singleton.mpr (accepted_nestedObjects n)⟩⟩
    have hdepth : (Node.declarator (.mk (.identifier "x") (some (nestedObjects n)))).depth ≤
        n + 1 := by
      refine Node.depth_le_iff.mpr ⟨Nat.zero_le _, List.forall_mem_cons.mpr
        ⟨?_, List.forall_mem_singleton.mpr ?_⟩⟩
      · rw [Node.depth_eq]
        exact Nat.zero_le _
      · rw [depth_nestedObjects]
        exact Nat.le_of_eq (Nat.zero_add _)
    refine compile_eq_ok_iff.mpr ⟨⟨List.forall_mem_singleton.mpr ?_, ?_⟩, rfl⟩
    · exact Node.accepted_iff.mpr ⟨⟨.inl rfl, by simp⟩, List.forall_mem_singleton.mpr hdeclarator⟩
    · rw [Program.depth_le_iff, deepestProgram, List.forall_mem_singleton,
        Node.depth_of_only_child rfl, Node.levels]
      omega

/-- Its message is as deep as the bound allows. -/
theorem depth_image_deepestProgram (limit : Nat) :
    (Image.program (deepestProgram limit)).depth = 4 * limit := by
  match limit with
  | 0 => rfl
  | 1 => rfl
  | n + 2 =>
    have hdepth : (Image.program (deepestProgram (n + 2))).depth =
        (Image.expression (nestedObjects n)).depth + 4 := by
      rw [Image.program, deepestProgram, Image.statements, Image.statements, Image.statement,
        Image.declarators, Image.declarators, Image.declarator, Image.expression?,
        Message.depth_of_only_part rfl, Message.depth_of_only_part (Message.parts_statement _),
        Message.depth_of_only_part rfl, Message.depth_of_only_part rfl]
    rw [hdepth, depth_image_nestedObjects]
    omega

/-- Messages of programs are nested at most four times as deeply as the programs may be, and for
every limit some are. So the messages under a limit of levels all keep to what the reader of
messages takes exactly if the limit is at most twenty-five. -/
theorem depth_of_compile :
    (∀ (limit : Nat) (p : Program) (ast : Message .ast),
      compile limit p = .ok ast → ast.depth ≤ 4 * limit) ∧
      (∀ limit : Nat, 1 ≤ limit →
        ∃ (p : Program) (ast : Message .ast), compile limit p = .ok ast ∧ ast.depth = 4 * limit) ∧
      ∀ limit : Nat,
        (∀ (p : Program) (ast : Message .ast),
          compile limit p = .ok ast → ast.depth ≤ Wire.nestingBudget) ↔ limit ≤ 25 := by
  have hbound (limit : Nat) (p : Program) (ast : Message .ast) (h : compile limit p = .ok ast) :
      ast.depth ≤ 4 * limit := by
    obtain ⟨⟨_, hdepth⟩, rfl⟩ := compile_eq_ok_iff.mp h
    have himage := p.depth_image_le
    omega
  have hreached (limit : Nat) : ∃ (p : Program) (ast : Message .ast),
      compile limit p = .ok ast ∧ ast.depth = 4 * limit :=
    ⟨_, _, compile_deepestProgram limit, depth_image_deepestProgram limit⟩
  have hbudget : Wire.nestingBudget = 4 * 25 := rfl
  refine ⟨hbound, fun limit _ => hreached limit, fun limit => ⟨fun h => ?_, fun h p ast hast => ?_⟩⟩
  · obtain ⟨p, ast, hast, hdepth⟩ := hreached limit
    have hle := h p ast hast
    omega
  · have hle := hbound limit p ast hast
    omega

/-- A hole, which is counted as a message and not as a level, and the deepest program on two
levels. -/
theorem depth_of_compile_sparse :
    compile 2 ⟨[.expressionStatement (.arrayExpression [none])]⟩ =
        .ok (Image.program ⟨[.expressionStatement (.arrayExpression [none])]⟩) ∧
      (Image.program ⟨[.expressionStatement (.arrayExpression [none])]⟩).depth ≤ 8 ∧
      ∃ (p : Program) (ast : Message .ast), compile 2 p = .ok ast ∧ ast.depth = 8 := by
  have hcompile : compile 2 ⟨[.expressionStatement (.arrayExpression [none])]⟩ =
      .ok (Image.program ⟨[.expressionStatement (.arrayExpression [none])]⟩) := rfl
  exact ⟨hcompile, depth_of_compile.1 2 _ _ hcompile, depth_of_compile.2.1 2 (by decide)⟩

end ScriptWire
