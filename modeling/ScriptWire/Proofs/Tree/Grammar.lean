import ScriptWire.Proofs.Tree.Node

/-!
# The accepted grammar

Which programs have a message, said of the tree alone. Every node follows a rule of its own, which
looks at the node and not at the nodes below it, and a program is accepted when all its nodes follow
theirs.

## Main definitions

- `Tree.Node.Regular` — a node follows its rule
- `Tree.Node.Accepted`, `Tree.Program.Accepted` — every node inside follows its rule
-/

namespace ScriptWire

namespace Tree

/-- A word that begins a declaration. -/
def IsKeyword (word : String) : Prop :=
  word = "var" ∨ word = "let" ∨ word = "const"

instance (word : String) : Decidable (IsKeyword word) :=
  inferInstanceAs (Decidable (_ ∨ _))

/-- A number that can be a key: an integer of at most sixty-three bits beside its sign, or the one
right above them. -/
def isIndex (value : Binary64) : Bool :=
  match value.toInt? with
  | some n => decide (-(Nat.pow 2 63) ≤ n ∧ n ≤ Nat.pow 2 63)
  | none => false

/-- An expression that names a property without being computed. -/
def Expression.isPropertyKey : Expression → Bool
  | .identifier _ => true
  | .stringLiteral _ => true
  | .numericLiteral value => isIndex value
  | _ => false

/-- An expression that names a method. -/
def Expression.isMethodName : Expression → Bool
  | .identifier _ => true
  | .stringLiteral _ => true
  | _ => false

/-- The rules of statements. -/
def Statement.Regular : Statement → Prop
  | .variableDeclaration kind declarations => IsKeyword kind ∧ declarations ≠ []
  | .functionDeclaration id _ _ _ _ => ∃ name, id = some name ∧ name ≠ ""
  | .forStatement init test update _ =>
    init.isSome = true ∧ test.isSome = true ∧ update.isSome = true
  | .forOfStatement _ _ _ isAwait => isAwait = false
  | .tryStatement _ handler finalizer => handler.isSome = true ∨ finalizer.isSome = true
  | .unsupported _ => False
  | _ => True

/-- The rules of expressions. -/
def Expression.Regular : Expression → Prop
  | .identifier name => name ≠ ""
  | .bigIntLiteral value => value ≠ ""
  | .regExpLiteral pattern _ => pattern ≠ ""
  | .intrinsicIdentifier name => name ≠ ""
  | .assignmentExpression operator _ _ => operator ≠ ""
  | .arrowFunctionExpression id _ _ generator _ => generator = false ∧ id = none
  | .memberExpression _ property computed =>
    computed = true ∨ ∃ name, property = .identifier name ∧ name ≠ ""
  | .unaryExpression operator isPrefix _ => isPrefix = true ∧ operator ≠ ""
  | .binaryExpression operator _ _ => operator ≠ ""
  | .logicalExpression operator _ _ => operator ≠ ""
  | .updateExpression operator _ _ => operator = "++" ∨ operator = "--"
  | .yieldExpression _ delegate => delegate = false
  | .sequenceExpression expressions => 2 ≤ expressions.length
  | .unsupported _ => False
  | _ => True

/-- The rule of bindings: a name that is not empty. -/
def Pattern.Regular (p : Pattern) : Prop :=
  ∃ name, p = .identifier name ∧ name ≠ ""

/-- The rule of methods: getters and setters are plain functions with no and one parameter. -/
def MethodKind.Admits : MethodKind → (params : List Pattern) → (generator isAsync : Bool) → Prop
  | .method, _, _, _ => True
  | .getter, params, generator, isAsync => generator = false ∧ isAsync = false ∧ params = []
  | .setter, params, generator, isAsync =>
    generator = false ∧ isAsync = false ∧ params.length = 1

/-- The rules of members of object literals. -/
def Member.Regular : Member → Prop
  | .objectProperty key _ computed shorthand method =>
    shorthand = false ∧ method = false ∧ (computed = true ∨ key.isPropertyKey = true)
  | .objectMethod kind key params _ computed shorthand generator isAsync =>
    computed = false ∧ shorthand = false ∧ key.isMethodName = true ∧
      kind.Admits params generator isAsync
  | .spreadElement _ => False
  | .unsupported _ => False

/-- The head of a loop declares one variable. -/
def ForInit.Regular (head : ForInit) : Prop :=
  ∃ kind d, head = .variableDeclaration kind [d] ∧ IsKeyword kind

/-- The head of a loop over keys or elements declares one variable without a first value. -/
def ForInit.Bare (head : ForInit) : Prop :=
  ∃ kind id, head = .variableDeclaration kind [.mk id none] ∧ IsKeyword kind

namespace Node

/-- A node follows its rule. -/
def Regular : Node → Prop
  | .statement s => s.Regular
  | .expression e => e.Regular
  | .pattern p => p.Regular
  | .member m => m.Regular
  | .declarator _ => True
  | .countingHead head => head.Regular
  | .iterationHead _ head => head.Bare
  | .catchClause _ => True

/-- Every node inside a node follows its rule. -/
def Accepted (n : Node) : Prop :=
  ∀ inner : Node, inner.Inside n → inner.Regular

/-- A node is accepted when it follows its rule and its children are accepted. -/
theorem accepted_iff {n : Node} : n.Accepted ↔ n.Regular ∧ ∀ c ∈ n.children, c.Accepted := by
  constructor
  · intro h
    exact ⟨h n .refl, fun c hc inner hi => h inner (.head hc hi)⟩
  · rintro ⟨hn, hc⟩ inner hi
    rcases Relation.ReflTransGen.cases_head hi with rfl | ⟨c, hmem, hrest⟩
    · exact hn
    · exact hc c hmem inner hrest

end Node

/-- Every node of a program follows its rule. -/
def Program.Accepted (p : Program) : Prop :=
  ∀ s ∈ p.body, (Node.statement s).Accepted

end Tree

end ScriptWire
