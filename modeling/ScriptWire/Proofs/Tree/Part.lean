import ScriptWire.Tree.Kind
import Mathlib.Data.List.Basic
import Mathlib.Logic.Relation

/-!
# All parts of a program

A tree is taken apart completely here, names of properties and insides of bindings included, so that
a rule can be asked of everything that stands in a program.

## Main definitions

- `Tree.Part` — a part of a program
- `Tree.Part.contents` — the parts right below a part
- `Tree.Part.Within` — one part stands somewhere inside another
- `Tree.Part.Every`, `Tree.Program.Every` — a rule holds throughout a part or a program
- `Tree.Rule` — a relation between parts and numbers of levels that trees are built up along
-/

namespace ScriptWire

namespace Tree

/-- A part of a program. -/
inductive Part
  | statement (s : Statement)
  | expression (e : Expression)
  | pattern (p : Pattern)
  | member (m : Member)
  | declarator (d : Declarator)
  | loopHead (head : ForInit)
  | catchClause (clause : CatchClause)
  | arrowBody (body : ArrowBody)

/-- The parts right below a statement. -/
def Statement.contents : Statement → List Part
  | .emptyStatement => []
  | .blockStatement body => body.map .statement
  | .expressionStatement e => [.expression e]
  | .variableDeclaration _ declarations => declarations.map .declarator
  | .functionDeclaration _ params body _ _ => params.map .pattern ++ body.map .statement
  | .returnStatement argument => argument.toList.map .expression
  | .ifStatement test consequent alternate =>
    .expression test :: .statement consequent :: alternate.toList.map .statement
  | .whileStatement test body => [.expression test, .statement body]
  | .doWhileStatement body test => [.statement body, .expression test]
  | .forStatement init test update body =>
    init.toList.map .loopHead ++ test.toList.map .expression ++ update.toList.map .expression ++
      [.statement body]
  | .forInStatement left right body => [.loopHead left, .expression right, .statement body]
  | .forOfStatement left right body _ => [.loopHead left, .expression right, .statement body]
  | .tryStatement block handler finalizer =>
    block.map .statement ++ handler.toList.map .catchClause ++
      finalizer.toList.flatten.map .statement
  | .throwStatement argument => [.expression argument]
  | .unsupported _ => []

/-- The parts right below an expression. -/
def Expression.contents : Expression → List Part
  | .assignmentExpression _ left right => [.expression left, .expression right]
  | .objectExpression properties => properties.map .member
  | .arrayExpression elements => elements.flatMap fun e => e.toList.map .expression
  | .functionExpression _ params body _ _ => params.map .pattern ++ body.map .statement
  | .arrowFunctionExpression _ params body _ _ => params.map .pattern ++ [.arrowBody body]
  | .callExpression callee arguments => .expression callee :: arguments.map .expression
  | .newExpression callee arguments => .expression callee :: arguments.map .expression
  | .memberExpression object property _ => [.expression object, .expression property]
  | .unaryExpression _ _ argument => [.expression argument]
  | .binaryExpression _ left right => [.expression left, .expression right]
  | .logicalExpression _ left right => [.expression left, .expression right]
  | .updateExpression _ _ argument => [.expression argument]
  | .yieldExpression argument _ => argument.toList.map .expression
  | .awaitExpression argument => [.expression argument]
  | .conditionalExpression test consequent alternate =>
    [.expression test, .expression consequent, .expression alternate]
  | .sequenceExpression expressions => expressions.map .expression
  | .spreadElement argument => [.expression argument]
  | _ => []

/-- The parts right below a binding. -/
def Pattern.contents : Pattern → List Part
  | .assignmentPattern left right => [.pattern left, .expression right]
  | .restElement argument => [.pattern argument]
  | _ => []

/-- The parts right below a member of an object literal. -/
def Member.contents : Member → List Part
  | .objectProperty key value _ _ _ => [.expression key, .expression value]
  | .objectMethod _ key params body _ _ _ _ =>
    .expression key :: (params.map .pattern ++ body.map .statement)
  | .spreadElement argument => [.expression argument]
  | .unsupported _ => []

/-- The parts right below the head of a loop. -/
def ForInit.contents : ForInit → List Part
  | .variableDeclaration _ declarations => declarations.map .declarator
  | .expression e => [.expression e]

/-- The parts right below the body of an arrow function. -/
def ArrowBody.contents : ArrowBody → List Part
  | .blockStatement body => body.map .statement
  | .expression e => [.expression e]

namespace Part

/-- The parts right below a part. -/
def contents : Part → List Part
  | .statement s => s.contents
  | .expression e => e.contents
  | .pattern p => p.contents
  | .member m => m.contents
  | .declarator (.mk id init) => .pattern id :: init.toList.map .expression
  | .loopHead head => head.contents
  | .catchClause (.mk param body) => param.toList.map .pattern ++ body.map .statement
  | .arrowBody body => body.contents

/-- The size of a part, which is smaller for the parts below it. -/
noncomputable def size : Part → Nat
  | .statement s => sizeOf s
  | .expression e => sizeOf e
  | .pattern p => sizeOf p
  | .member m => sizeOf m
  | .declarator d => sizeOf d
  | .loopHead head => sizeOf head
  | .catchClause clause => sizeOf clause
  | .arrowBody body => sizeOf body

theorem size_lt_of_mem_contents {n c : Part} (h : c ∈ n.contents) : c.size < n.size := by
  -- The parts of a list are smaller than the list, and so than what holds it.
  rcases n with s | e | p | m | ⟨id, init⟩ | head | ⟨param, body⟩ | body
  · cases s <;> simp [contents, Statement.contents] at h <;> grind [size, → List.sizeOf_lt_of_mem]
  · cases e <;> simp [contents, Expression.contents] at h <;> grind [size, → List.sizeOf_lt_of_mem]
  · cases p <;> simp [contents, Pattern.contents] at h <;> grind [size, → List.sizeOf_lt_of_mem]
  · cases m <;> simp [contents, Member.contents] at h <;> grind [size, → List.sizeOf_lt_of_mem]
  · simp [contents] at h
    grind [size]
  · cases head <;> simp [contents, ForInit.contents] at h <;> grind [size, → List.sizeOf_lt_of_mem]
  · simp [contents] at h
    grind [size, → List.sizeOf_lt_of_mem]
  · cases body <;> simp [contents, ArrowBody.contents] at h <;>
      grind [size, → List.sizeOf_lt_of_mem]

/-- What holds of a part when it holds of the parts right below it holds of every part. -/
theorem induction_on_contents {P : Part → Prop} (step : ∀ n : Part, (∀ c ∈ n.contents, P c) → P n)
    (n : Part) : P n :=
  step n fun c _ => induction_on_contents step c
termination_by n.size
decreasing_by exact size_lt_of_mem_contents ‹_›

/-- One part stands inside another, or is the other. -/
def Within (inner outer : Part) : Prop :=
  Relation.ReflTransGen (fun n c => c ∈ n.contents) outer inner

/-- A rule holds of a part and of everything inside it. -/
def Every (rule : Part → Prop) (n : Part) : Prop :=
  ∀ inner : Part, inner.Within n → rule inner

variable {rule : Part → Prop} {n a b : Part}

theorem every_iff :
    n.Every rule ↔ rule n ∧ ∀ c ∈ n.contents, c.Every rule := by
  constructor
  · intro h
    exact ⟨h n .refl, fun c hc inner hi => h inner (.head hc hi)⟩
  · rintro ⟨hn, hc⟩ inner hi
    rcases Relation.ReflTransGen.cases_head hi with rfl | ⟨c, hmem, hrest⟩
    · exact hn
    · exact hc c hmem inner hrest

theorem every_of_leaf (hc : n.contents = []) (hn : rule n) : n.Every rule := by
  refine every_iff.mpr ⟨hn, ?_⟩
  rw [hc]
  exact List.forall_mem_nil _

theorem forall_pair (ha : rule a) (hb : rule b) : ∀ c ∈ [a, b], rule c :=
  List.forall_mem_cons.mpr ⟨ha, List.forall_mem_singleton.mpr hb⟩

/-- The parameters and the body of a function are below it. -/
theorem forall_function {params : List Pattern} {body : List Statement}
    (hparams : ∀ p ∈ params, rule (.pattern p)) (hbody : ∀ s ∈ body, rule (.statement s)) :
    ∀ c ∈ params.map Part.pattern ++ body.map Part.statement, rule c :=
  List.forall_mem_append.mpr ⟨List.forall_mem_map.mpr hparams, List.forall_mem_map.mpr hbody⟩

/-- The levels that a part adds to those below it. -/
def levels : Part → Nat
  | .statement _ => 1
  | .expression _ => 1
  | .pattern _ => 1
  | _ => 0

end Part

/-- A relation between parts and numbers of levels that is built from the leaves of a tree: it holds
of an admitted part if it holds of the parts right below with the levels that the part leaves them,
and it holds with more levels as well. -/
structure Rule (Admits : Part → Prop) (R : Nat → Part → Prop) : Prop where
  node {levels : Nat} {n : Part} (hself : Admits n) (h : ∀ c ∈ n.contents, R levels c) :
    R (levels + n.levels) n
  more {levels : Nat} {n : Part} (h : R levels n) : R (levels + 1) n

namespace Rule

variable {Admits : Part → Prop} {R : Nat → Part → Prop} {levels : Nat} {n : Part}

/-- One level is enough for every part. -/
theorem step (rule : Rule Admits R) (hself : Admits n) (h : ∀ c ∈ n.contents, R levels c) :
    R (levels + 1) n := by
  have hnode := rule.node hself h
  cases n with
  | statement s => exact hnode
  | expression e => exact hnode
  | pattern p => exact hnode
  | _ => exact rule.more hnode

theorem flat (rule : Rule Admits R) (hn : n.levels = 0) (hself : Admits n)
    (h : ∀ c ∈ n.contents, R levels c) : R levels n := by
  have hnode := rule.node hself h
  rwa [hn] at hnode

theorem leaf (rule : Rule Admits R) (hc : n.contents = []) (hself : Admits n) :
    R (levels + 1) n := by
  refine rule.step hself ?_
  rw [hc]
  exact List.forall_mem_nil _

/-- What is asked of every part is asked on every number of levels. -/
theorem every (Admits : Part → Prop) : Rule Admits fun _ n => n.Every Admits :=
  ⟨fun hself h => Part.every_iff.mpr ⟨hself, h⟩, id⟩

end Rule

/-- A rule holds of everything in a program. -/
def Program.Every (rule : Part → Prop) (p : Program) : Prop :=
  ∀ s ∈ p.body, (Part.statement s).Every rule

end Tree

end ScriptWire
