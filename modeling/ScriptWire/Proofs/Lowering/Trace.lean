import ScriptWire.Proofs.Lowering.Event
import ScriptWire.Proofs.Tree.Grammar

/-!
# The events of a walk over a program

The walk enters a level with every statement and every expression. At a node it looks for faults of
the node itself, then walks over the children in order, and last makes the checks that need them.

## Main definitions

- `Tree.Node.before`, `Tree.Node.after` — the faults of a node, before and after its children
- `Tree.Node.trace`, `Tree.Program.trace` — the events of a walk

## Main results

- `Tree.Node.passes_trace_iff` — a walk goes past all events when the node is accepted and not
  nested too deeply
-/

namespace ScriptWire

namespace Tree

open Lowering

/-- A text that must not be empty. -/
def textFaults (kind field text : String) : List Event :=
  demand (text ≠ "") (.unsupported kind (.emptyText field))

/-- A word that must begin a declaration. -/
def keywordFaults (word : String) : List Event :=
  demand (IsKeyword word) (.unsupported "VariableDeclaration" (.declarationKind word))

/-- The faults of a statement. -/
def Statement.before : Statement → List Event
  | .variableDeclaration kind declarations =>
    keywordFaults kind ++
      demand (declarations.isEmpty = false) (.unsupported "VariableDeclaration" .noDeclarators)
  | .functionDeclaration none _ _ _ _ =>
    [.fault (.unsupported "FunctionDeclaration" .noFunctionName)]
  | .functionDeclaration (some name) _ _ _ _ => textFaults "FunctionDeclaration" "name" name
  | .forStatement init test update _ =>
    demand (init.isSome = true ∧ test.isSome = true ∧ update.isSome = true)
      (.unsupported "ForStatement" .missingClause)
  | .forOfStatement _ _ _ isAwait =>
    demand (isAwait = false) (.unsupported "ForOfStatement" .awaitLoop)
  | .tryStatement _ handler finalizer =>
    demand (handler.isSome = true ∨ finalizer.isSome = true)
      (.unsupported "TryStatement" .noHandler)
  | .unsupported kind => [.fault (.unhandled kind)]
  | _ => []

/-- The faults of an expression that show before its children are walked over. -/
def Expression.before : Expression → List Event
  | .identifier name => textFaults "Identifier" "name" name
  | .bigIntLiteral value => textFaults "BigIntLiteral" "value" value
  | .regExpLiteral pattern _ => textFaults "RegExpLiteral" "pattern" pattern
  | .intrinsicIdentifier name => textFaults "V8IntrinsicIdentifier" "name" name
  | .assignmentExpression operator _ _ => textFaults "AssignmentExpression" "operator" operator
  | .arrowFunctionExpression id _ _ generator _ =>
    demand (generator = false) (.unsupported "ArrowFunctionExpression" .generatorArrow) ++
      demand (id.isSome = false) (.unsupported "ArrowFunctionExpression" .namedArrow)
  | .unaryExpression operator isPrefix _ =>
    demand (isPrefix = true) (.unsupported "UnaryExpression" (.postfixOperator operator)) ++
      textFaults "UnaryExpression" "operator" operator
  | .binaryExpression operator _ _ => textFaults "BinaryExpression" "operator" operator
  | .logicalExpression operator _ _ => textFaults "LogicalExpression" "operator" operator
  | .updateExpression operator _ _ => textFaults "UpdateExpression" "operator" operator
  | .yieldExpression _ delegate =>
    demand (delegate = false) (.unsupported "YieldExpression" .delegatingYield)
  | .unsupported kind => [.fault (.unhandled kind)]
  | _ => []

/-- The faults of the property of an access by name. -/
def Expression.nameFaults : Expression → List Event
  | .identifier name => textFaults "MemberExpression" "property name" name
  | property => [.fault (.unsupported "MemberExpression" (.memberNotIdentifier property.kind))]

/-- The faults of an expression that show after its children are walked over. -/
def Expression.after : Expression → List Event
  | .memberExpression _ property computed => if computed then [] else property.nameFaults
  -- The last two are found by the check of the finished message, and not by the walk.
  | .updateExpression operator _ _ =>
    demand (operator = "++" ∨ operator = "--")
      (.shape ⟨.updateExpression, "operator", .unknownOperator operator⟩)
  | .sequenceExpression expressions =>
    demand (2 ≤ expressions.length) (.shape ⟨.sequenceExpression, "expressions", .fewerThanTwo⟩)
  | _ => []

/-- The faults of a binding. -/
def Pattern.before : Pattern → List Event
  | .identifier name => demand (name ≠ "") (.unsupported "Identifier" .emptyBinding)
  | .assignmentPattern _ _ => [.fault (.unsupported "AssignmentPattern" .defaultValue)]
  | .restElement _ => [.fault (.unsupported "RestElement" .restBinding)]
  | .objectPattern => [.fault (.unsupported "ObjectPattern" .destructuring)]
  | .arrayPattern => [.fault (.unsupported "ArrayPattern" .destructuring)]
  | .unsupported kind => [.fault (.unhandled kind)]

/-- The faults of a key that is not computed. -/
def Expression.keyFaults : Expression → List Event
  | .identifier _ => []
  | .stringLiteral _ => []
  | .numericLiteral value =>
    demand (isIndex value = true) (.unsupported "ObjectProperty" (.keyNotInteger value))
  | key => [.fault (.unsupported "ObjectProperty" (.keyKind key.kind))]

/-- The faults in the flags of a getter or setter. -/
def accessorFaults (accessor : String) (generator isAsync : Bool) : List Event :=
  demand (generator = false ∧ isAsync = false)
    (.unsupported "ObjectMethod" (.accessorFlags accessor))

/-- The faults of a method in what its kind asks for. -/
def MethodKind.faults : MethodKind → List Pattern → Bool → Bool → List Event
  | .method, _, _, _ => []
  | .getter, params, generator, isAsync =>
    accessorFaults "getter" generator isAsync ++
      demand (params.isEmpty = true) (.unsupported "ObjectMethod" .getterParameters)
  | .setter, params, generator, isAsync =>
    accessorFaults "setter" generator isAsync ++
      demand (params.length = 1) (.unsupported "ObjectMethod" (.setterParameters params.length))

/-- The faults of a member of an object literal. -/
def Member.before : Member → List Event
  | .objectProperty key _ computed shorthand method =>
    demand (shorthand = false ∧ method = false)
      (.unsupported "ObjectProperty" .shorthandProperty) ++
      if computed then [] else key.keyFaults
  | .objectMethod kind key params _ computed shorthand generator isAsync =>
    demand (computed = false ∧ shorthand = false) (.unsupported "ObjectMethod" .computedMethod) ++
      demand (key.isMethodName = true) (.unsupported "ObjectMethod" (.methodKind key.kind)) ++
      kind.faults params generator isAsync
  | .spreadElement _ => [.fault (.unsupported "SpreadElement" .objectSpread)]
  | .unsupported kind => [.fault (.unhandled kind)]

/-- The faults of the head of a loop; `refusal` is the reason against an expression of a kind. -/
def ForInit.before (loop : String) (refusal : String → Reason) : ForInit → List Event
  | .variableDeclaration kind declarations =>
    keywordFaults kind ++
      demand (declarations.length = 1)
        (.unsupported loop (.loopVariables declarations.length))
  | .expression e => [.fault (.unsupported loop (refusal e.kind))]

/-- No variable in the head of a loop has a first value. -/
def ForInit.isBare : ForInit → Bool
  | .variableDeclaration _ declarations => declarations.all fun d => d.init.isNone
  | .expression _ => true

variable {limit : Nat}

@[simp]
theorem passes_textFaults {kind field text : String} :
    Passes limit (textFaults kind field text) ↔ text ≠ "" :=
  passes_demand

@[simp]
theorem passes_keywordFaults {word : String} : Passes limit (keywordFaults word) ↔ IsKeyword word :=
  passes_demand

theorem Statement.passes_before_iff {s : Statement} : Passes limit s.before ↔ s.Regular := by
  cases s with
  | functionDeclaration id params body generator isAsync =>
    cases id <;> simp [Statement.before, Statement.Regular]
  | _ => simp [Statement.before, Statement.Regular]

theorem Expression.passes_nameFaults_iff {property : Expression} :
    Passes limit property.nameFaults ↔ ∃ name, property = .identifier name ∧ name ≠ "" := by
  cases property <;> simp [Expression.nameFaults]

theorem Expression.passes_faults_iff {e : Expression} :
    Passes limit e.before ∧ Passes limit e.after ↔ e.Regular := by
  cases e with
  | memberExpression object property computed =>
    cases computed <;>
      simp [Expression.before, Expression.after, Expression.Regular,
        Expression.passes_nameFaults_iff]
  | updateExpression operator isPrefix argument =>
    simp only [Expression.before, Expression.after, Expression.Regular, passes_textFaults,
      passes_demand]
    constructor
    · exact And.right
    · rintro (rfl | rfl) <;> simp
  | _ => simp [Expression.before, Expression.after, Expression.Regular]

theorem Pattern.passes_before_iff {p : Pattern} : Passes limit p.before ↔ p.Regular := by
  cases p <;> simp [Pattern.before, Pattern.Regular]

theorem Expression.passes_keyFaults_iff {key : Expression} :
    Passes limit key.keyFaults ↔ key.isPropertyKey = true := by
  cases key <;> simp [Expression.keyFaults, Expression.isPropertyKey]

theorem MethodKind.passes_faults_iff {kind : MethodKind} {params : List Pattern}
    {generator isAsync : Bool} :
    Passes limit (kind.faults params generator isAsync) ↔ kind.Admits params generator isAsync := by
  cases kind <;> simp [MethodKind.faults, MethodKind.Admits, accessorFaults, and_assoc]

theorem Member.passes_before_iff {m : Member} : Passes limit m.before ↔ m.Regular := by
  cases m with
  | objectProperty key value computed shorthand method =>
    cases computed <;>
      simp [Member.before, Member.Regular, Expression.passes_keyFaults_iff, and_assoc]
  | objectMethod kind key params body computed shorthand generator isAsync =>
    simp [Member.before, Member.Regular, MethodKind.passes_faults_iff, and_assoc]
  | _ => simp [Member.before, Member.Regular]

theorem ForInit.passes_before_iff {head : ForInit} {loop : String} {refusal : String → Reason} :
    Passes limit (head.before loop refusal) ↔ head.Regular := by
  cases head with
  | variableDeclaration kind declarations =>
    simp [ForInit.before, ForInit.Regular, List.length_eq_one_iff]
    tauto
  | expression e => simp [ForInit.before, ForInit.Regular]

theorem ForInit.bare_iff {head : ForInit} : head.Bare ↔ head.Regular ∧ head.isBare = true := by
  constructor
  · rintro ⟨kind, id, rfl, hkind⟩
    exact ⟨⟨kind, _, rfl, hkind⟩, rfl⟩
  · rintro ⟨⟨kind, ⟨id, init⟩, rfl, hkind⟩, hbare⟩
    have hinit : init = none := by simpa [ForInit.isBare, Declarator.init] using hbare
    exact ⟨kind, id, by rw [hinit], hkind⟩

namespace Node

/-- The faults of a node that show before its children are walked over. -/
def before : Node → List Event
  | .statement s => s.before
  | .expression e => e.before
  | .pattern p => p.before
  | .member m => m.before
  | .declarator _ => []
  | .countingHead head => head.before "ForStatement" .initNotDeclaration
  | .iterationHead loop head =>
    head.before loop .leftNotDeclaration ++
      demand (head.isBare = true) (.unsupported loop .loopInitializer)
  | .catchClause _ => []

/-- The faults of a node that show after its children are walked over. -/
def after : Node → List Event
  | .expression e => e.after
  | _ => []

/-- The level that the walk enters at a node, inside `depth` other ones. -/
def entry (depth : Nat) : Node → List Event
  | .statement _ => [.level (depth + 1)]
  | .expression _ => [.level (depth + 1)]
  | _ => []

/-- The events of the walk over a node that stands inside `depth` levels. -/
def trace (depth : Nat) (n : Node) : List Event :=
  n.entry depth ++ (n.before ++
    ((n.children.attach.flatMap fun c => c.1.trace (depth + n.levels)) ++ n.after))
termination_by n.size
decreasing_by exact size_lt_of_mem_children c.2

theorem trace_eq (depth : Nat) (n : Node) :
    n.trace depth = n.entry depth ++ (n.before ++
      (n.children.flatMap (trace (depth + n.levels)) ++ n.after)) := by
  rw [trace, ← List.flatMap_map (f := Subtype.val) (g := trace (depth + n.levels)),
    List.attach_map_subtype_val]

theorem trace_eq_of_after {depth : Nat} {n : Node} (h : n.after = []) :
    n.trace depth =
      n.entry depth ++ (n.before ++ n.children.flatMap (trace (depth + n.levels))) := by
  rw [trace_eq, h, List.append_nil]

/-- A walk goes past the faults of a node itself when the node follows its rule. -/
theorem passes_faults_iff {n : Node} :
    Passes limit n.before ∧ Passes limit n.after ↔ n.Regular := by
  cases n with
  | statement s => simp [before, after, Regular, Statement.passes_before_iff]
  | expression e => exact Expression.passes_faults_iff
  | pattern p => simp [before, after, Regular, Pattern.passes_before_iff]
  | member m => simp [before, after, Regular, Member.passes_before_iff]
  | declarator d => simp [before, after, Regular]
  | countingHead head => simp [before, after, Regular, ForInit.passes_before_iff]
  | iterationHead loop head =>
    simp [before, after, Regular, ForInit.passes_before_iff, ForInit.bare_iff]
  | catchClause clause => simp [before, after, Regular]

theorem passes_entry_iff {n : Node} {depth : Nat} (h : depth ≤ limit) :
    Passes limit (n.entry depth) ↔ depth + n.levels ≤ limit := by
  cases n <;> simp [entry, levels, h]

/-- A walk goes past all events of a node that is accepted and does not stand too deep. -/
theorem passes_trace_iff (n : Node) {depth : Nat} (h : depth ≤ limit) :
    Passes limit (n.trace depth) ↔ n.Accepted ∧ depth + n.depth ≤ limit := by
  induction n using induction_on_children generalizing depth with
  | step n ih =>
    -- The bound on the depth splits as the events do: the level of the node, then the children.
    have hdepth : depth + n.depth ≤ limit ↔
        depth + n.levels ≤ limit ∧ ∀ c ∈ n.children, depth + n.levels + c.depth ≤ limit := by
      rw [← Nat.le_sub_iff_add_le' h, depth_le_iff, Nat.le_sub_iff_add_le' h]
      refine and_congr_right fun _ => forall₂_congr fun c _ => ?_
      rw [Nat.le_sub_iff_add_le' h, Nat.add_assoc]
    rw [trace_eq, accepted_iff, ← @passes_faults_iff limit n, hdepth]
    simp only [passes_append, passes_flatMap, passes_entry_iff h]
    constructor
    · rintro ⟨hlevel, hbefore, hchildren, hafter⟩
      have hc := fun c hmem => (ih c hmem hlevel).mp (hchildren c hmem)
      exact ⟨⟨⟨hbefore, hafter⟩, fun c hmem => (hc c hmem).1⟩, hlevel, fun c hmem => (hc c hmem).2⟩
    · rintro ⟨⟨⟨hbefore, hafter⟩, haccepted⟩, hlevel, hbound⟩
      exact ⟨hlevel, hbefore,
        fun c hmem => (ih c hmem hlevel).mpr ⟨haccepted c hmem, hbound c hmem⟩, hafter⟩

/-- A walk is stopped at a node by an event of the node itself. -/
def StopsAt (limit depth : Nat) (error : CompileError) (n : Node) : Prop :=
  Stops limit (n.entry depth ++ n.before) error ∨
    Passes limit (n.entry depth ++ n.before) ∧
      Passes limit (n.children.flatMap (trace (depth + n.levels))) ∧ Stops limit n.after error

/-- A walk over a node is stopped before its children, at one of them, or after them. -/
theorem stops_trace_cases {n : Node} {depth : Nat} {error : CompileError} :
    Stops limit (n.trace depth) error ↔
      Stops limit (n.entry depth ++ n.before) error ∨
        Passes limit (n.entry depth ++ n.before) ∧
          (Stops limit (n.children.flatMap (trace (depth + n.levels))) error ∨
            Passes limit (n.children.flatMap (trace (depth + n.levels))) ∧
              Stops limit n.after error) := by
  rw [trace_eq, ← List.append_assoc]
  exact stops_append_iff.trans (or_congr_right (and_congr_right fun _ => stops_append_iff))

theorem stops_trace_of_stopsAt {n : Node} {depth : Nat} {error : CompileError}
    (h : n.StopsAt limit depth error) : Stops limit (n.trace depth) error := by
  rw [stops_trace_cases]
  exact h.imp id fun ⟨hself, hchildren, hafter⟩ => ⟨hself, .inr ⟨hchildren, hafter⟩⟩

/-- A walk over a node is stopped at one of the nodes inside, after it has gone past everything that
comes before. -/
theorem stops_trace_iff {n : Node} {depth : Nat} {error : CompileError} :
    Stops limit (n.trace depth) error ↔
      ∃ (inner : Node) (innerDepth : Nat) (before after : List Event), inner.Inside n ∧
        n.trace depth = before ++ (inner.trace innerDepth ++ after) ∧ Passes limit before ∧
        inner.StopsAt limit innerDepth error := by
  constructor
  · intro h
    induction n using induction_on_children generalizing depth with
    | step n ih =>
      rcases stops_trace_cases.mp h with hself | ⟨hself, hchildren | ⟨hchildren, hafter⟩⟩
      · exact ⟨n, depth, [], [], .refl, by simp, passes_nil, .inl hself⟩
      · -- The node that stops the walk is inside the first child that the walk does not go past.
        obtain ⟨earlier, c, later, hsplit, hearlier, hc⟩ := stops_flatMap_iff.mp hchildren
        have hmem : c ∈ n.children := by rw [hsplit]; simp
        obtain ⟨inner, innerDepth, before, after, hinside, htrace, hbefore, hat⟩ := ih c hmem hc
        refine ⟨inner, innerDepth,
          n.entry depth ++ n.before ++ (earlier.flatMap (trace (depth + n.levels)) ++ before),
          after ++ (later.flatMap (trace (depth + n.levels)) ++ n.after), .head hmem hinside,
          ?_, ?_, hat⟩
        · rw [trace_eq, hsplit, List.flatMap_append, List.flatMap_cons, htrace]
          simp only [List.append_assoc]
        · exact passes_append.mpr ⟨hself, passes_append.mpr ⟨hearlier, hbefore⟩⟩
      · exact ⟨n, depth, [], [], .refl, by simp, passes_nil, .inr ⟨hself, hchildren, hafter⟩⟩
  · rintro ⟨inner, innerDepth, before, after, _, htrace, hbefore, hat⟩
    rw [htrace]
    exact stops_of_split hbefore (stops_trace_of_stopsAt hat)

end Node

/-- The events of the walk over a program. -/
def Program.trace (p : Program) : List Event :=
  p.body.flatMap fun s => (Node.statement s).trace 0

/-- The walk over a program goes past all events when the program is accepted and not nested too
deeply. -/
theorem Program.passes_trace_iff {p : Program} :
    Passes limit p.trace ↔ p.Accepted ∧ p.depth ≤ limit := by
  have hstatement (s : Statement) := (Node.statement s).passes_trace_iff (Nat.zero_le limit)
  simp only [Nat.zero_add] at hstatement
  rw [Program.trace, passes_flatMap, Program.depth_le_iff, Program.Accepted]
  simp only [hstatement]
  exact forall₂_and

/-- A walk over a program is stopped at one of its nodes, after it has gone past everything that
comes before. -/
theorem Program.stops_trace_iff {p : Program} {error : CompileError} :
    Stops limit p.trace error ↔
      ∃ s ∈ p.body, ∃ (inner : Node) (depth : Nat) (before after : List Event),
        inner.Inside (.statement s) ∧
        p.trace = before ++ (inner.trace depth ++ after) ∧ Passes limit before ∧
        inner.StopsAt limit depth error := by
  constructor
  · intro h
    obtain ⟨earlier, s, later, hsplit, hearlier, hs⟩ := stops_flatMap_iff.mp h
    obtain ⟨inner, depth, before, after, hinside, htrace, hbefore, hat⟩ :=
      Node.stops_trace_iff.mp hs
    refine ⟨s, by rw [hsplit]; simp, inner, depth,
      earlier.flatMap (fun s => (Node.statement s).trace 0) ++ before,
      after ++ later.flatMap (fun s => (Node.statement s).trace 0), hinside, ?_,
      passes_append.mpr ⟨hearlier, hbefore⟩, hat⟩
    rw [Program.trace, hsplit, List.flatMap_append, List.flatMap_cons, htrace]
    simp only [List.append_assoc]
  · rintro ⟨_, _, inner, depth, before, after, _, htrace, hbefore, hat⟩
    rw [htrace]
    exact stops_of_split hbefore (Node.stops_trace_of_stopsAt hat)

end Tree

end ScriptWire
