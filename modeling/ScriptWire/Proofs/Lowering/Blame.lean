import ScriptWire.Proofs.Lowering.Compile

/-!
# What refusals name

A refusal gives the kind of a construct. The checks at a node give the kind of the node, except that
the head of a loop is checked on behalf of the loop, and then the kind is that of the loop.

## Main definitions

- `Tree.Node.kind?`, `Tree.Node.unknownKind?` — the kind of a node, and of one without a shape
- `Tree.Node.loop?` — the kind of the loop that a node is the head of
- `Tree.Node.NamedBy` — a fault is about the node at which it is found
- `Tree.Program.Contains` — a node stands in a program

## Main results

- `Tree.Node.explains_before`, `Tree.Node.explains_after` — all faults of a node are about the node
- `Tree.Node.kind?_of_mem_children` — the head of a loop stands below a loop of the kind it gives
- `compile_error_names_node` — a refusal names a construct of the program that is not accepted
-/

namespace ScriptWire

namespace Tree

open Lowering

/-- The kind of the head of a loop that is a declaration. -/
def ForInit.declarationKind? : ForInit → Option String
  | .variableDeclaration word declarations =>
    some (ForInit.variableDeclaration word declarations).kind
  | .expression _ => none

namespace Node

/-- The kind that a construct without a shape has kept. -/
def unknownKind? : Node → Option String
  | .statement (.unsupported kind) => some kind
  | .expression (.unsupported kind) => some kind
  | .pattern (.unsupported kind) => some kind
  | .member (.unsupported kind) => some kind
  | _ => none

/-- The kind of a node. The head of a loop has one if it is a declaration. -/
def kind? : Node → Option String
  | .statement s => some s.kind
  | .expression e => some e.kind
  | .pattern p => some p.kind
  | .member m => some m.kind
  | .countingHead head => head.declarationKind?
  | .iterationHead _ head => head.declarationKind?
  | .declarator _ => none
  | .catchClause _ => none

/-- The kind of the loop that a node is the head of. -/
def loop? : Node → Option String
  | .countingHead _ => some "ForStatement"
  | .iterationHead loop _ => some loop
  | _ => none

/-- A fault at a node gives the kind of the node, or of the loop that the node is the head of.
Faults of messages and of depth give no kind. -/
def NamedBy (n : Node) : CompileError → Prop
  | .unhandled kind => n.unknownKind? = some kind
  | .unsupported kind _ => n.kind? = some kind ∨ n.loop? = some kind
  | .shape _ => True
  | .tooDeep _ => True

/-- All faults among the events are about a node. -/
def Explains (n : Node) (events : List Event) : Prop :=
  ∀ error, .fault error ∈ events → n.NamedBy error

variable {n : Node} {events rest : List Event} {error : CompileError}

@[simp]
theorem explains_nil : n.Explains [] := by
  simp [Explains]

@[simp]
theorem explains_append : n.Explains (events ++ rest) ↔ n.Explains events ∧ n.Explains rest := by
  simp only [Explains, List.mem_append, or_imp, forall_and]

@[simp]
theorem explains_fault : n.Explains [.fault error] ↔ n.NamedBy error := by
  simp [Explains]

@[simp]
theorem explains_demand {condition : Prop} [Decidable condition] :
    n.Explains (demand condition error) ↔ (¬ condition → n.NamedBy error) := by
  by_cases h : condition <;> simp [demand, h]

end Node

section Faults

attribute [local simp] Node.NamedBy Node.unknownKind? Node.kind? Node.loop? textFaults keywordFaults

theorem Statement.explains_before (s : Statement) : (Node.statement s).Explains s.before := by
  cases s with
  | functionDeclaration id params body generator isAsync =>
    cases id <;> simp [Statement.before, Statement.kind]
  | _ => simp [Statement.before, Statement.kind]

theorem Expression.explains_before (e : Expression) : (Node.expression e).Explains e.before := by
  cases e <;> simp [Expression.before, Expression.kind]

theorem Expression.explains_after (e : Expression) : (Node.expression e).Explains e.after := by
  cases e with
  | memberExpression object property computed =>
    cases computed <;> cases property <;>
      simp [Expression.after, Expression.nameFaults, Expression.kind]
  | _ => simp [Expression.after]

theorem Pattern.explains_before (p : Pattern) : (Node.pattern p).Explains p.before := by
  cases p <;> simp [Pattern.before, Pattern.kind]

theorem Member.explains_before (m : Member) : (Node.member m).Explains m.before := by
  cases m with
  | objectProperty key value computed shorthand method =>
    cases computed <;> cases key <;> simp [Member.before, Member.kind, Expression.keyFaults]
  | objectMethod kind key params body computed shorthand generator isAsync =>
    cases kind <;> simp [Member.before, Member.kind, MethodKind.faults, accessorFaults]
  | _ => simp [Member.before, Member.kind]

/-- A fault in the head of a loop is about the loop, unless it is in the word of a declaration. -/
theorem ForInit.explains_before {n : Node} {head : ForInit} {loop : String}
    {refusal : String → Reason} (hkind : n.kind? = head.declarationKind?)
    (hloop : n.loop? = some loop) : n.Explains (head.before loop refusal) := by
  cases head with
  | variableDeclaration word declarations =>
    exact Node.explains_append.mpr
      ⟨Node.explains_demand.mpr fun _ => .inl hkind, Node.explains_demand.mpr fun _ => .inr hloop⟩
  | expression e => exact Node.explains_fault.mpr (.inr hloop)

end Faults

section Heads

/-- The head of a loop right below a statement gives the kind of the statement. -/
theorem Statement.kind_of_mem_children {s : Statement} :
    ∀ c ∈ s.children, ∀ loop, c.loop? = some loop → s.kind = loop := by
  cases s with
  | emptyStatement => exact List.forall_mem_nil _
  | unsupported kind => exact List.forall_mem_nil _
  | _ =>
    simp only [Statement.children, List.forall_mem_append, List.forall_mem_map,
      List.forall_mem_cons, Node.loop?, Statement.kind]
    grind

theorem ArrowBody.loop?_of_mem_children {body : ArrowBody} :
    ∀ c ∈ body.children, c.loop? = none := by
  cases body with
  | blockStatement body => exact List.forall_mem_map.mpr fun _ _ => rfl
  | expression e => exact List.forall_mem_singleton.mpr rfl

theorem Expression.loop?_of_mem_children {e : Expression} : ∀ c ∈ e.children, c.loop? = none := by
  cases e with
  | arrowFunctionExpression id params body generator isAsync =>
    exact List.forall_mem_append.mpr
      ⟨List.forall_mem_map.mpr fun _ _ => rfl, ArrowBody.loop?_of_mem_children⟩
  | memberExpression object property computed =>
    cases computed <;> simp [Expression.children, Node.loop?]
  | _ =>
    simp only [Expression.children, List.forall_mem_append, List.forall_mem_map,
      List.forall_mem_cons, List.forall_mem_flatMap, Node.loop?]
    grind

theorem Member.loop?_of_mem_children {m : Member} : ∀ c ∈ m.children, c.loop? = none := by
  cases m with
  | objectProperty key value computed shorthand method =>
    cases computed <;> simp [Member.children, Node.loop?]
  | objectMethod kind key params body computed shorthand generator isAsync =>
    exact List.forall_mem_append.mpr
      ⟨List.forall_mem_map.mpr fun _ _ => rfl, List.forall_mem_map.mpr fun _ _ => rfl⟩
  | _ => exact List.forall_mem_nil _

theorem ForInit.loop?_of_mem_children {head : ForInit} :
    ∀ c ∈ head.children, c.loop? = none := by
  cases head with
  | variableDeclaration word declarations => exact List.forall_mem_map.mpr fun _ _ => rfl
  | expression e => exact List.forall_mem_nil _

end Heads

namespace Node

variable {n c : Node} {limit depth : Nat} {error : CompileError} {loop : String}

/-- What a walk finds at a node before it comes to the children is about the node. -/
theorem explains_before (n : Node) : n.Explains n.before := by
  cases n with
  | statement s => exact s.explains_before
  | expression e => exact e.explains_before
  | pattern p => exact p.explains_before
  | member m => exact m.explains_before
  | declarator d => exact explains_nil
  | countingHead head => exact ForInit.explains_before rfl rfl
  | iterationHead loop head =>
    exact explains_append.mpr
      ⟨ForInit.explains_before rfl rfl, explains_demand.mpr fun _ => .inr rfl⟩
  | catchClause clause => exact explains_nil

/-- So is what it finds after the children. -/
theorem explains_after (n : Node) : n.Explains n.after := by
  cases n with
  | expression e => exact e.explains_after
  | _ => exact explains_nil

/-- A walk that is not stopped for its depth is stopped at a node by a fault that is about the node,
and the node does not follow its rule. -/
theorem namedBy_of_stopsAt (h : n.StopsAt limit depth error) (hdepth : error ≠ .tooDeep limit) :
    n.NamedBy error ∧ ¬ n.Regular := by
  rcases h with hself | ⟨_, _, hafter⟩
  · rcases stops_append_iff.mp hself with hentry | ⟨_, hbefore⟩
    · exact absurd (stops_entry hentry).1 hdepth
    · refine ⟨n.explains_before error (fault_mem_of_stops hbefore hdepth), fun hregular => ?_⟩
      exact not_passes_of_stops hbefore (passes_faults_iff.mpr hregular).1
  · refine ⟨n.explains_after error (fault_mem_of_stops hafter hdepth), fun hregular => ?_⟩
    exact not_passes_of_stops hafter (passes_faults_iff.mpr hregular).2

/-- The heads of loops stand right below statements only. -/
theorem loop?_of_mem_children (hn : ∀ s, n ≠ .statement s) : ∀ c ∈ n.children, c.loop? = none := by
  cases n with
  | statement s => exact absurd rfl (hn s)
  | expression e => exact Expression.loop?_of_mem_children
  | pattern p => exact List.forall_mem_nil _
  | member m => exact Member.loop?_of_mem_children
  | declarator d =>
    exact List.forall_mem_cons.mpr ⟨rfl, List.forall_mem_map.mpr fun _ _ => rfl⟩
  | countingHead head => exact ForInit.loop?_of_mem_children
  | iterationHead loop head => exact ForInit.loop?_of_mem_children
  | catchClause clause =>
    cases clause with
    | mk param body =>
      exact List.forall_mem_append.mpr
        ⟨List.forall_mem_map.mpr fun _ _ => rfl, List.forall_mem_map.mpr fun _ _ => rfl⟩

/-- The head of a loop stands right below a loop of the kind that it gives. -/
theorem kind?_of_mem_children (hc : c ∈ n.children) (hloop : c.loop? = some loop) :
    n.kind? = some loop := by
  cases n with
  | statement s => exact congrArg some (Statement.kind_of_mem_children c hc loop hloop)
  | _ =>
    have hnone := loop?_of_mem_children (by simp) c hc
    rw [hnone] at hloop
    cases hloop

end Node

/-- A node stands in a program. -/
def Program.Contains (p : Program) (n : Node) : Prop :=
  ∃ s ∈ p.body, n.Inside (.statement s)

/-- A program that contains the head of a loop contains the loop. -/
theorem Program.Contains.exists_loop {p : Program} {n : Node} {loop : String} (h : p.Contains n)
    (hloop : n.loop? = some loop) :
    ∃ outer : Node, p.Contains outer ∧ n ∈ outer.children ∧ outer.kind? = some loop := by
  obtain ⟨s, hs, hinside⟩ := h
  rcases Relation.ReflTransGen.cases_tail hinside with rfl | ⟨outer, houter, hmem⟩
  · cases hloop
  · exact ⟨outer, ⟨s, hs, houter⟩, hmem, Node.kind?_of_mem_children hmem hloop⟩

end Tree

open ScriptWire.Tree Lowering

/-- A program that is not refused for its depth is refused at a node that does not follow its rule,
and the error is about this node. -/
theorem exists_namedBy_of_compile {limit : Nat} {p : Program} {error : CompileError}
    (h : compile limit p = .error error) (hdepth : error ≠ .tooDeep limit) :
    ∃ n : Node, p.Contains n ∧ n.NamedBy error ∧ ¬ n.Regular := by
  rw [compile_eq, outcome_eq_error_iff, Program.stops_trace_iff] at h
  obtain ⟨s, hs, n, depth, _, _, hinside, _, _, hat⟩ := h
  exact ⟨n, ⟨s, hs, hinside⟩, Node.namedBy_of_stopsAt hat hdepth⟩

/-- A program that is refused for a construct without a shape contains such a construct, of the kind
that the error gives. One that is refused for a construct of a known kind contains a statement, an
expression, a binding, a member or the declaration in the head of a loop that is of this kind and is
not accepted. -/
theorem compile_error_names_node (limit : Nat) (p : Program) (kind : String) :
    (compile limit p = .error (.unhandled kind) →
      ∃ n : Node, p.Contains n ∧ n.unknownKind? = some kind) ∧
    ∀ reason, compile limit p = .error (.unsupported kind reason) →
      ∃ n : Node, p.Contains n ∧ n.kind? = some kind ∧ ¬ n.Accepted := by
  constructor
  · intro h
    obtain ⟨n, hn, hkind, _⟩ := exists_namedBy_of_compile h (by simp)
    exact ⟨n, hn, hkind⟩
  · intro reason h
    obtain ⟨n, hn, hkind | hloop, hrule⟩ := exists_namedBy_of_compile h (by simp)
    · exact ⟨n, hn, hkind, fun haccepted => hrule (Node.accepted_iff.mp haccepted).1⟩
    · -- The head is what is not accepted, and the loop is not accepted because of its head.
      obtain ⟨outer, houter, hmem, hkind⟩ := hn.exists_loop hloop
      refine ⟨outer, houter, hkind, fun haccepted => hrule ?_⟩
      exact (Node.accepted_iff.mp ((Node.accepted_iff.mp haccepted).2 n hmem)).1

/-- A loop over keys whose variable has a first value. -/
def initializedLoop : Program :=
  ⟨[.forInStatement (.variableDeclaration "var" [.mk (.identifier "k") (some .nullLiteral)])
    .thisExpression .emptyStatement]⟩

theorem compile_error_names_node_loop :
    compile 2 ⟨[.throwStatement (.unsupported "TemplateLiteral")]⟩ =
        .error (.unhandled "TemplateLiteral") ∧
      (∃ n : Node, Program.Contains ⟨[.throwStatement (.unsupported "TemplateLiteral")]⟩ n ∧
        n.unknownKind? = some "TemplateLiteral") ∧
      compile 1 initializedLoop = .error (.unsupported "ForInStatement" .loopInitializer) ∧
      ∃ n : Node, initializedLoop.Contains n ∧ n.kind? = some "ForInStatement" ∧ ¬ n.Accepted :=
  ⟨rfl, (compile_error_names_node 2 _ _).1 rfl, rfl, (compile_error_names_node 1 _ _).2 _ rfl⟩

end ScriptWire
