import ScriptWire.Tree.Kind
import Mathlib.Data.List.Basic
import Mathlib.Logic.Relation

/-!
# The nodes of a program

The levels of a tree are put into one type, so that what holds of every node of a program can be
said once. A node has the nodes right below it as its children: the parts that are turned into
messages on their own. A name that belongs to its owner, as the property of `a.b` or the key of
`{ a: 1 }`, is not a child.

## Main definitions

- `Tree.Node` — a node of a program
- `Tree.Node.children` — the nodes right below a node
- `Tree.Node.Inside` — one node stands somewhere inside another
- `Tree.Node.depth`, `Tree.Program.depth` — how many statements and expressions stand inside each
  other
-/

namespace ScriptWire

namespace Tree

/-- A node of a program. -/
inductive Node
  | statement (s : Statement)
  | expression (e : Expression)
  | pattern (p : Pattern)
  | member (m : Member)
  | declarator (d : Declarator)
  /-- The head of a loop that counts. -/
  | countingHead (head : ForInit)
  /-- The head of a loop over keys or elements, with the kind of the loop. -/
  | iterationHead (loop : String) (head : ForInit)
  | catchClause (clause : CatchClause)

/-- The nodes right below a statement. -/
def Statement.children : Statement → List Node
  | .emptyStatement => []
  | .blockStatement body => body.map .statement
  | .expressionStatement e => [.expression e]
  | .variableDeclaration _ declarations => declarations.map .declarator
  | .functionDeclaration _ params body _ _ => params.map .pattern ++ body.map .statement
  | .returnStatement argument => argument.toList.map .expression
  | .ifStatement test consequent alternate =>
    .expression test :: .statement consequent :: alternate.toList.map .statement
  | .whileStatement test body => [.expression test, .statement body]
  | .doWhileStatement body test => [.statement body, .expression test]
  | .forStatement init test update body =>
    init.toList.map .countingHead ++ test.toList.map .expression ++
      update.toList.map .expression ++ [.statement body]
  | .forInStatement left right body =>
    [.iterationHead "ForInStatement" left, .expression right, .statement body]
  | .forOfStatement left right body _ =>
    [.iterationHead "ForOfStatement" left, .expression right, .statement body]
  | .tryStatement block handler finalizer =>
    block.map .statement ++ handler.toList.map .catchClause ++
      finalizer.toList.flatten.map .statement
  | .throwStatement argument => [.expression argument]
  | .unsupported _ => []

/-- The nodes right below the body of an arrow function. -/
def ArrowBody.children : ArrowBody → List Node
  -- The block itself is no statement here, so its statements are the children.
  | .blockStatement body => body.map .statement
  | .expression e => [.expression e]

/-- The nodes right below an expression. -/
def Expression.children : Expression → List Node
  | .assignmentExpression _ left right => [.expression left, .expression right]
  | .objectExpression properties => properties.map .member
  | .arrayExpression elements => elements.flatMap fun e => e.toList.map .expression
  | .functionExpression _ params body _ _ => params.map .pattern ++ body.map .statement
  | .arrowFunctionExpression _ params body _ _ => params.map .pattern ++ body.children
  | .callExpression callee arguments => .expression callee :: arguments.map .expression
  | .newExpression callee arguments => .expression callee :: arguments.map .expression
  -- A property that is not computed is a name and no node of its own; so is such a key below.
  | .memberExpression object property computed =>
    .expression object :: if computed then [.expression property] else []
  | .unaryExpression _ _ argument => [.expression argument]
  | .binaryExpression _ left right => [.expression left, .expression right]
  | .logicalExpression _ left right => [.expression left, .expression right]
  | .updateExpression _ _ argument => [.expression argument]
  | .yieldExpression argument _ => argument.toList.map .expression
  | .awaitExpression argument => [.expression argument]
  | .conditionalExpression test consequent alternate =>
    [.expression test, .expression consequent, .expression alternate]
  | .sequenceExpression expressions => expressions.map .expression
  | .spreadElement argument => [.expression argument]
  | _ => []

/-- The nodes right below a member of an object literal. -/
def Member.children : Member → List Node
  | .objectProperty key value computed _ _ =>
    (if computed then [.expression key] else []) ++ [.expression value]
  | .objectMethod _ _ params body _ _ _ _ => params.map .pattern ++ body.map .statement
  | _ => []

/-- The nodes right below the head of a loop. -/
def ForInit.children : ForInit → List Node
  | .variableDeclaration _ declarations => declarations.map .declarator
  | .expression _ => []

theorem foldr_max_le_iff {l : List Nat} {k : Nat} : l.foldr max 0 ≤ k ↔ ∀ n ∈ l, n ≤ k := by
  induction l with
  | nil => simp
  | cons n rest ih => rw [List.foldr_cons, Nat.max_le, ih, List.forall_mem_cons]

namespace Node

/-- The nodes right below a node. -/
def children : Node → List Node
  | .statement s => s.children
  | .expression e => e.children
  | .pattern _ => []
  | .member m => m.children
  | .declarator d => .pattern d.id :: d.init.toList.map .expression
  | .countingHead head => head.children
  | .iterationHead _ head => head.children
  | .catchClause (.mk param body) => param.toList.map .pattern ++ body.map .statement

/-- The size of a node, which is smaller for its children. -/
noncomputable def size : Node → Nat
  | .statement s => sizeOf s
  | .expression e => sizeOf e
  | .pattern p => sizeOf p
  | .member m => sizeOf m
  | .declarator d => sizeOf d
  | .countingHead head => sizeOf head
  | .iterationHead _ head => sizeOf head
  | .catchClause clause => sizeOf clause

theorem size_lt_of_mem_children {n c : Node} (h : c ∈ n.children) : c.size < n.size := by
  -- The nodes of a list are smaller than the list, and so than what holds it.
  rcases n with s | e | p | m | ⟨id, init⟩ | head | ⟨loop, head⟩ | ⟨param, body⟩
  · cases s <;> simp [children, Statement.children] at h <;> grind [size, → List.sizeOf_lt_of_mem]
  · cases e <;> simp [children, Expression.children] at h <;>
      grind [size, ArrowBody.children, cases ArrowBody, → List.sizeOf_lt_of_mem]
  · simp [children] at h
  · cases m <;> simp [children, Member.children] at h <;> grind [size, → List.sizeOf_lt_of_mem]
  · simp [children, Declarator.id, Declarator.init] at h
    grind [size]
  · cases head with
    | variableDeclaration kind declarations =>
      simp [children, ForInit.children] at h
      grind [size, → List.sizeOf_lt_of_mem]
    | expression e => simp [children, ForInit.children] at h
  · cases head with
    | variableDeclaration kind declarations =>
      simp [children, ForInit.children] at h
      grind [size, → List.sizeOf_lt_of_mem]
    | expression e => simp [children, ForInit.children] at h
  · simp [children] at h
    grind [size, → List.sizeOf_lt_of_mem]

/-- What holds of a node when it holds of its children holds of every node. -/
theorem induction_on_children {P : Node → Prop}
    (step : ∀ n : Node, (∀ c ∈ n.children, P c) → P n) (n : Node) : P n :=
  step n fun c _ => induction_on_children step c
termination_by n.size
decreasing_by exact size_lt_of_mem_children ‹_›

/-- One node stands inside another, or is the other. -/
def Inside (inner outer : Node) : Prop :=
  Relation.ReflTransGen (fun n c => c ∈ n.children) outer inner

/-- The levels that a node adds to those below it. -/
def levels : Node → Nat
  | .statement _ => 1
  | .expression _ => 1
  -- Bindings, members, clauses and the heads of loops are entered without a level.
  | _ => 0

/-- How many statements and expressions stand inside each other, from a node downwards. -/
def depth (n : Node) : Nat :=
  n.levels + (n.children.attach.map fun c => c.1.depth).foldr max 0
termination_by n.size
decreasing_by exact size_lt_of_mem_children c.2

theorem depth_eq (n : Node) : n.depth = n.levels + (n.children.map depth).foldr max 0 := by
  rw [depth, List.attach_map_val]

/-- A bound on depth is a bound on the node itself and on each of its children. -/
theorem depth_le_iff {n : Node} {k : Nat} :
    n.depth ≤ k ↔ n.levels ≤ k ∧ ∀ c ∈ n.children, n.levels + c.depth ≤ k := by
  rw [depth_eq]
  constructor
  · intro h
    refine ⟨by omega, fun c hc => ?_⟩
    have hmax := foldr_max_le_iff.mp (Nat.le_refl _) c.depth (List.mem_map_of_mem hc)
    omega
  · rintro ⟨hn, hc⟩
    have hmax : (n.children.map depth).foldr max 0 ≤ k - n.levels := by
      rw [foldr_max_le_iff, List.forall_mem_map]
      intro c hmem
      have := hc c hmem
      omega
    omega

end Node

/-- How many statements and expressions stand inside each other in a program. -/
def Program.depth (p : Program) : Nat :=
  (p.body.map fun s => (Node.statement s).depth).foldr max 0

theorem Program.depth_le_iff {p : Program} {k : Nat} :
    p.depth ≤ k ↔ ∀ s ∈ p.body, (Node.statement s).depth ≤ k := by
  rw [Program.depth, foldr_max_le_iff, List.forall_mem_map]

end Tree

end ScriptWire
