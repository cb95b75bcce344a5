import ScriptWire.Proofs.Lowering.Binding

/-!
# The walk over a program

The walk ends as its events say: with the error of the first one that it cannot go past, or else
with the message of the node.

## Main definitions

- `Tree.Node.Walks` — the walk over a node ends as the events of the node say

## Main results

- `Tree.Node.walks` — every walk ends so
- `compile_eq` — the walk over a program
-/

namespace ScriptWire

namespace Lowering

open ScriptWire.Tree

variable {limit levels : Nat}

theorem statements_eq_mapM (body : List Statement) :
    statements limit levels body = body.mapM (statement limit levels) := by
  induction body with
  | nil => rfl
  | cons s rest ih => rw [statements, ih, List.mapM_cons]

theorem statement?_eq_mapM (s : Option Statement) :
    statement? limit levels s = s.mapM (statement limit levels) := by
  cases s <;> rfl

theorem declarators_eq_mapM (ds : List Declarator) :
    declarators limit levels ds = ds.mapM (declarator limit levels) := by
  induction ds with
  | nil => rfl
  | cons d rest ih => rw [declarators, ih, List.mapM_cons]

theorem expressions_eq_mapM (es : List Expression) :
    expressions limit levels es = es.mapM (expression limit levels) := by
  induction es with
  | nil => rfl
  | cons e rest ih => rw [expressions, ih, List.mapM_cons]

theorem expression?_eq_mapM (e : Option Expression) :
    expression? limit levels e = e.mapM (expression limit levels) := by
  cases e <;> rfl

theorem members_eq_mapM (ms : List Member) :
    members limit levels ms = ms.mapM (member limit levels) := by
  induction ms with
  | nil => rfl
  | cons m rest ih => rw [members, ih, List.mapM_cons]

end Lowering

namespace Tree

open Lowering
open Message (Sound)

/-- The walk over a node inside `depth` levels, with `levels` left, ends as the events of the node
say. Bindings are walked over together with the node they belong to. -/
def Node.Walks (limit levels depth : Nat) : Node → Prop
  | .statement s =>
    Lowering.statement limit levels s =
      outcome limit ((Node.statement s).trace depth) (Image.statement s)
  | .expression e =>
    Lowering.expression limit levels e =
      outcome limit ((Node.expression e).trace depth) (Image.expression e)
  | .pattern _ => True
  | .member m =>
    Lowering.member limit levels m = outcome limit ((Node.member m).trace depth) (Image.member m)
  | .declarator d =>
    Lowering.declarator limit levels d =
      outcome limit ((Node.declarator d).trace depth) (Image.declarator d)
  | .countingHead head =>
    Lowering.countingHead limit levels head =
      outcome limit ((Node.countingHead head).trace depth) (Image.head head)
  | .iterationHead loop head =>
    Lowering.iterationHead limit levels loop head =
      outcome limit ((Node.iterationHead loop head).trace depth) (Image.head head)
  | .catchClause clause =>
    Lowering.catchClause? limit levels (some clause) =
      outcome limit ((Node.catchClause clause).trace depth) (some (Image.catchClause clause))

variable {limit levels depth : Nat}

section Lists

theorem walk_statements {body : List Statement}
    (h : ∀ s ∈ body, (Node.statement s).Walks limit levels depth) :
    statements limit levels body =
      outcome limit ((body.map Node.statement).flatMap (Node.trace depth))
        (body.map Image.statement) := by
  rw [statements_eq_mapM, List.flatMap_map]
  exact mapM_eq_outcome h

theorem walk_statement? {s : Option Statement}
    (h : ∀ a ∈ s.toList, (Node.statement a).Walks limit levels depth) :
    statement? limit levels s =
      outcome limit ((s.toList.map Node.statement).flatMap (Node.trace depth))
        (s.map Image.statement) := by
  rw [statement?_eq_mapM, List.flatMap_map]
  exact option_mapM_eq_outcome fun a ha => h a (Option.mem_toList.mpr ha)

theorem walk_declarators {ds : List Declarator}
    (h : ∀ d ∈ ds, (Node.declarator d).Walks limit levels depth) :
    declarators limit levels ds =
      outcome limit ((ds.map Node.declarator).flatMap (Node.trace depth))
        (ds.map Image.declarator) := by
  rw [declarators_eq_mapM, List.flatMap_map]
  exact mapM_eq_outcome h

theorem walk_expressions {es : List Expression}
    (h : ∀ e ∈ es, (Node.expression e).Walks limit levels depth) :
    expressions limit levels es =
      outcome limit ((es.map Node.expression).flatMap (Node.trace depth))
        (es.map Image.expression) := by
  rw [expressions_eq_mapM, List.flatMap_map]
  exact mapM_eq_outcome h

theorem walk_expression? {e : Option Expression}
    (h : ∀ a ∈ e.toList, (Node.expression a).Walks limit levels depth) :
    expression? limit levels e =
      outcome limit ((e.toList.map Node.expression).flatMap (Node.trace depth))
        (e.map Image.expression) := by
  rw [expression?_eq_mapM, List.flatMap_map]
  exact option_mapM_eq_outcome fun a ha => h a (Option.mem_toList.mpr ha)

theorem walk_elements {es : List (Option Expression)}
    (h : ∀ e, some e ∈ es → (Node.expression e).Walks limit levels depth) :
    arrayElements limit levels es =
      outcome limit ((es.flatMap fun e => e.toList.map Node.expression).flatMap (Node.trace depth))
        (es.map fun e => (e.map Image.expression).getD Message.hole) := by
  induction es with
  | nil => rfl
  | cons e rest ih =>
    have hrest := ih fun e he => h e (List.mem_cons_of_mem _ he)
    cases e with
    | none => exact bind_outcome_ok hrest fun _ => rfl
    | some e =>
      rw [List.flatMap_cons, List.flatMap_append]
      refine bind_outcome ?_ fun _ => bind_outcome_ok hrest fun _ => rfl
      rw [Option.toList_some, List.map_singleton, List.flatMap_singleton]
      exact h e List.mem_cons_self

theorem walk_members {ms : List Member}
    (h : ∀ m ∈ ms, (Node.member m).Walks limit levels depth) :
    members limit levels ms =
      outcome limit ((ms.map Node.member).flatMap (Node.trace depth))
        (ms.map Image.member) := by
  rw [members_eq_mapM, List.flatMap_map]
  exact mapM_eq_outcome h

theorem walk_catchClause? {clause : Option CatchClause}
    (h : ∀ c ∈ clause.toList, (Node.catchClause c).Walks limit levels depth) :
    catchClause? limit levels clause =
      outcome limit ((clause.toList.map Node.catchClause).flatMap (Node.trace depth))
        (clause.map Image.catchClause) := by
  cases clause with
  | none => rfl
  | some c =>
    rw [Option.toList_some, List.map_singleton, List.flatMap_singleton]
    exact h c (by simp)

theorem walk_finallyClause? (hd : depth ≤ limit) {body : Option (List Statement)}
    (h : ∀ s ∈ body.toList.flatten, (Node.statement s).Walks limit levels depth) :
    finallyClause? limit levels body =
      outcome limit ((body.toList.flatten.map Node.statement).flatMap (Node.trace depth))
        (body.map fun b => Message.finallyClause (b.map Image.statement)) := by
  cases body with
  | none => rfl
  | some b =>
    simp only [Option.toList_some, List.flatten_singleton] at h ⊢
    refine bind_outcome_ok (walk_statements h) fun hb => ?_
    have hsound := sound_of_mem_map (f := Image.statement) (sound_of_passes_map hd hb)
    rw [checked_of_sound (Sound.finallyClause hsound)]
    rfl

end Lists

section Checks

variable {k : Message.Kind}

theorem Node.accepted_of_passes {n : Node} (hd : depth + n.levels ≤ limit)
    (h : Passes limit
      (n.before ++ (n.children.flatMap (Node.trace (depth + n.levels)) ++ n.after))) :
    n.Accepted := by
  have hdepth : depth ≤ limit := by omega
  refine ((n.passes_trace_iff hdepth).mp ?_).1
  rw [Node.trace_eq, passes_append, Node.passes_entry_iff hdepth]
  exact ⟨hd, h⟩

theorem asStatement_of_sound [Message.Holds Message.statementVariants k]
    [Message.LawfulHolds Message.statementVariants k] {m : Message k}
    (h : Sound (Message.statement m).any) : asStatement m = .ok (Message.statement m) := by
  have hm : Sound m.any := h.only_part (Message.parts_statement m) (by decide)
  rw [asStatement, checked_of_sound hm]
  exact checked_of_sound h

theorem asExpression_of_sound [Message.Holds Message.expressionVariants k]
    [Message.LawfulHolds Message.expressionVariants k] {m : Message k}
    (h : Sound (Message.expression m).any) : asExpression m = .ok (Message.expression m) := by
  have hm : Sound m.any := h.only_part (Message.parts_expression m) (by decide)
  rw [asExpression, checked_of_sound hm]
  exact checked_of_sound h

theorem asMember_of_sound [Message.Holds Message.memberVariants k]
    [Message.LawfulHolds Message.memberVariants k] {m : Message k}
    (h : Sound (Message.objectField m).any) : asMember m = .ok (Message.objectField m) := by
  have hm : Sound m.any := h.only_part (Message.parts_objectField m) (by decide)
  rw [asMember, checked_of_sound hm]
  exact checked_of_sound h

/-- The message of a statement is well-formed once the walk has gone past all its events. -/
theorem asStatement_image [Message.Holds Message.statementVariants k]
    [Message.LawfulHolds Message.statementVariants k] {s : Statement} {m : Message k}
    (hd : depth + 1 ≤ limit)
    (h : Passes limit (s.before ++ s.children.flatMap (Node.trace (depth + 1))))
    (hm : Image.statement s = Message.statement m) :
    asStatement m = .ok (Image.statement s) := by
  have haccepted : (Node.statement s).Accepted := by
    refine Node.accepted_of_passes hd ?_
    change Passes limit (s.before ++ (s.children.flatMap (Node.trace (depth + 1)) ++ []))
    rwa [List.append_nil]
  have hsound : Sound (Image.statement s).any := Node.sound_image haccepted
  rw [hm] at hsound ⊢
  exact asStatement_of_sound hsound

/-- The message of an expression is well-formed once the walk has gone past all its events. -/
theorem asExpression_image [Message.Holds Message.expressionVariants k]
    [Message.LawfulHolds Message.expressionVariants k] {e : Expression} {m : Message k}
    (hd : depth + 1 ≤ limit)
    (h : Passes limit (e.before ++ (e.children.flatMap (Node.trace (depth + 1)) ++ e.after)))
    (hm : Image.expression e = Message.expression m) :
    asExpression m = .ok (Image.expression e) := by
  have haccepted : (Node.expression e).Accepted := Node.accepted_of_passes hd h
  have hsound : Sound (Image.expression e).any := Node.sound_image haccepted
  rw [hm] at hsound ⊢
  exact asExpression_of_sound hsound

/-- The message of a member is well-formed once the walk has gone past all its events. -/
theorem asMember_image [Message.Holds Message.memberVariants k]
    [Message.LawfulHolds Message.memberVariants k] {o : Member} {m : Message k}
    (hd : depth ≤ limit)
    (h : Passes limit (o.before ++ o.children.flatMap (Node.trace depth)))
    (hm : Image.member o = Message.objectField m) :
    asMember m = .ok (Image.member o) := by
  have haccepted : (Node.member o).Accepted := by
    refine Node.accepted_of_passes hd ?_
    change Passes limit (o.before ++ (o.children.flatMap (Node.trace depth) ++ []))
    rwa [List.append_nil]
  have hsound : Sound (Image.member o).any := Node.sound_image haccepted
  rw [hm] at hsound ⊢
  exact asMember_of_sound hsound

end Checks

theorem Statement.walk_zero (s : Statement) :
    Lowering.statement limit 0 s = .error (.tooDeep limit) := by
  cases s <;> rfl

/-- The walk over a statement, from the walks over its children. -/
theorem Statement.walk {s : Statement} (hd : depth + 1 ≤ limit)
    (hc : ∀ c ∈ s.children, c.Walks limit levels (depth + 1)) :
    Lowering.statement limit (levels + 1) s =
      outcome limit (s.before ++ s.children.flatMap (Node.trace (depth + 1)))
        (Image.statement s) := by
  -- Every case collects the events of its parts in the order of the walk. When all of them are gone
  -- past, the statement is accepted and its finished message is well-formed.
  cases s with
  | emptyStatement => rfl
  | blockStatement body =>
    simp only [Statement.children, List.forall_mem_map] at hc
    refine bind_outcome_ok (walk_statements hc) fun hbody => ?_
    exact asStatement_image hd hbody (by rw [Image.statement, Image.statements_eq_map])
  | expressionStatement e =>
    simp only [Statement.children, List.forall_mem_singleton] at hc
    simp only [Statement.before, Statement.children, List.flatMap_singleton, List.nil_append]
    refine bind_outcome_ok hc fun he => ?_
    exact asStatement_image hd (by simp [Statement.before, Statement.children, he]) rfl
  | variableDeclaration kind declarations =>
    simp only [Statement.children, List.forall_mem_map] at hc
    simp only [Statement.before, Statement.children, List.append_assoc]
    refine bind_outcome (declarationKind_eq kind) fun hkind => ?_
    refine outcome_demand_append (fun hsome => ?_) fun hnone => by simp [hnone]
    rw [if_neg (by simp [hsome])]
    refine bind_outcome_ok (walk_declarators hc) fun hdeclarations => ?_
    exact asStatement_image hd (by simp [Statement.before, Statement.children, *])
      (by rw [Image.statement, Image.declarators_eq_map])
  | functionDeclaration id params body generator isAsync =>
    simp only [Statement.children, List.forall_mem_append, List.forall_mem_map] at hc
    cases id with
    | none => rfl
    | some name =>
      simp only [Statement.before, Statement.children, List.flatMap_append]
      refine bind_outcome (requiredText_eq _ _ name) fun hname => ?_
      refine bind_outcome (parameters_eq hd params) fun hparams => ?_
      refine bind_outcome_ok (walk_statements hc.2) fun hbody => ?_
      exact asStatement_image hd (by simp [Statement.before, Statement.children, *])
        (by rw [Image.statement, Image.statements_eq_map, Option.getD_some])
  | returnStatement argument =>
    simp only [Statement.children, List.forall_mem_map] at hc
    refine bind_outcome_ok (walk_expression? hc) fun hargument => ?_
    exact asStatement_image hd hargument (by rw [Image.statement, Image.expression?_eq_map])
  | ifStatement test consequent alternate =>
    simp only [Statement.children, List.forall_mem_cons, List.forall_mem_map] at hc
    simp only [Statement.before, Statement.children, List.flatMap_cons, List.nil_append]
    refine bind_outcome hc.1 fun htest => bind_outcome hc.2.1 fun hconsequent => ?_
    refine bind_outcome_ok (walk_statement? hc.2.2) fun halternate => ?_
    exact asStatement_image hd (by simp [Statement.before, Statement.children, *])
      (by rw [Image.statement, Image.statement?_eq_map])
  | whileStatement test body =>
    simp only [Statement.children, List.forall_mem_cons] at hc
    simp only [Statement.before, Statement.children, List.flatMap_cons, List.flatMap_nil,
      List.nil_append, List.append_nil]
    refine bind_outcome hc.1 fun htest => bind_outcome_ok hc.2.1 fun hbody => ?_
    exact asStatement_image hd (by simp [Statement.before, Statement.children, *]) rfl
  | doWhileStatement body test =>
    simp only [Statement.children, List.forall_mem_cons] at hc
    simp only [Statement.before, Statement.children, List.flatMap_cons, List.flatMap_nil,
      List.nil_append, List.append_nil]
    refine bind_outcome hc.1 fun hbody => bind_outcome_ok hc.2.1 fun htest => ?_
    exact asStatement_image hd (by simp [Statement.before, Statement.children, *]) rfl
  | forStatement init test update body =>
    refine outcome_demand_append (fun hclauses => ?_) fun hclauses => ?_
    · obtain ⟨hinit, htest, hupdate⟩ := hclauses
      obtain ⟨init, rfl⟩ := Option.isSome_iff_exists.mp hinit
      obtain ⟨test, rfl⟩ := Option.isSome_iff_exists.mp htest
      obtain ⟨update, rfl⟩ := Option.isSome_iff_exists.mp hupdate
      simp only [Statement.children, Option.toList_some, List.map_singleton, List.cons_append,
        List.nil_append, List.forall_mem_cons] at hc
      simp only [Statement.children, Option.toList_some, List.map_singleton, List.cons_append,
        List.nil_append, List.flatMap_cons, List.flatMap_nil, List.append_nil]
      refine bind_outcome hc.1 fun hinit => bind_outcome hc.2.1 fun htest => ?_
      refine bind_outcome hc.2.2.1 fun hupdate => bind_outcome_ok hc.2.2.2.1 fun hbody => ?_
      exact asStatement_image hd (by simp [Statement.before, Statement.children, *]) rfl
    · -- A clause is missing: the walk ends before it looks at the others.
      cases init <;> cases test <;> cases update <;> simp at hclauses <;> rfl
  | forInStatement left right body =>
    simp only [Statement.children, List.forall_mem_cons] at hc
    simp only [Statement.before, Statement.children, List.flatMap_cons, List.flatMap_nil,
      List.nil_append, List.append_nil]
    refine bind_outcome hc.1 fun hleft => bind_outcome hc.2.1 fun hright => ?_
    refine bind_outcome_ok hc.2.2.1 fun hbody => ?_
    exact asStatement_image hd (by simp [Statement.before, Statement.children, *]) rfl
  | forOfStatement left right body isAwait =>
    simp only [Statement.children, List.forall_mem_cons] at hc
    simp only [Statement.before, Statement.children, List.flatMap_cons, List.flatMap_nil,
      List.append_nil]
    refine outcome_demand_append (fun hawait => ?_) fun hawait => ?_
    · subst hawait
      refine bind_outcome hc.1 fun hleft => bind_outcome hc.2.1 fun hright => ?_
      refine bind_outcome_ok hc.2.2.1 fun hbody => ?_
      exact asStatement_image hd (by simp [Statement.before, Statement.children, *]) rfl
    · rw [Bool.not_eq_false] at hawait
      rw [hawait]
      rfl
  | tryStatement block handler finalizer =>
    simp only [Statement.children, List.forall_mem_append, List.forall_mem_map] at hc
    simp only [Statement.before, Statement.children, List.flatMap_append, List.append_assoc]
    refine outcome_demand_append (fun hclause => ?_) fun hclause => ?_
    · have hsome : (handler.isNone && finalizer.isNone) = false := by
        cases handler <;> cases finalizer <;> simp at hclause ⊢
      refine (if_neg (Bool.eq_false_iff.mp hsome)).trans ?_
      refine bind_outcome (walk_statements hc.1.1) fun hblock => ?_
      refine bind_outcome (walk_catchClause? hc.1.2) fun hhandler => ?_
      refine bind_outcome_ok (walk_finallyClause? hd hc.2) fun hfinalizer => ?_
      refine asStatement_image hd ?_ ?_
      · simp only [Statement.before, Statement.children, List.flatMap_append, passes_append,
          passes_demand]
        exact ⟨hclause, ⟨hblock, hhandler⟩, hfinalizer⟩
      · rw [Image.statement, Image.statements_eq_map, Image.catchClause?_eq_map,
          Image.finallyClause?_eq_map]
    · cases handler <;> cases finalizer <;> simp at hclause
      rfl
  | throwStatement argument =>
    simp only [Statement.children, List.forall_mem_singleton] at hc
    simp only [Statement.before, Statement.children, List.flatMap_singleton, List.nil_append]
    refine bind_outcome_ok hc fun hargument => ?_
    exact asStatement_image hd (by simp [Statement.before, Statement.children, hargument]) rfl
  | unsupported kind => rfl

/-- An arrow function, from the walks over its body. -/
theorem ArrowBody.walk {body : ArrowBody} {type : Int32} {params : List (Message .parameter)}
    (hd : depth ≤ limit) (hc : ∀ c ∈ body.children, c.Walks limit levels depth) :
    arrow limit levels type params body =
      outcome limit (body.children.flatMap (Node.trace depth)) (Image.arrow type params body) := by
  cases body with
  | blockStatement body =>
    simp only [ArrowBody.children, List.forall_mem_map] at hc
    simp only [ArrowBody.children]
    refine bind_outcome_ok (walk_statements hc) fun hbody => ?_
    have hsound := sound_of_mem_map (f := Image.statement) (sound_of_passes_map hd hbody)
    rw [asStatement_of_sound (Sound.blockStatement hsound).statement, Image.arrow,
      Image.statements_eq_map]
    rfl
  | expression e =>
    simp only [ArrowBody.children, List.forall_mem_singleton] at hc
    simp only [ArrowBody.children, List.flatMap_singleton]
    exact bind_outcome_ok hc fun _ => rfl

/-- The check of an update, after the walk over its operand. -/
theorem asExpression_update {operator : String} {isPrefix : Bool} {argument : Expression}
    (hargument : Sound (Image.expression argument).any) :
    asExpression (Message.updateExpression operator isPrefix (Image.expression argument)) =
      outcome limit (Expression.updateExpression operator isPrefix argument).after
        (Image.expression (.updateExpression operator isPrefix argument)) := by
  rw [Expression.after, ← List.append_nil (demand _ _)]
  refine outcome_demand_append (fun hoperator => ?_) fun hoperator => ?_
  · exact asExpression_of_sound (Sound.updateExpression hoperator hargument).expression
  · rw [asExpression, checked_of_violation (Message.violation?_updateExpression hoperator)]
    rfl

/-- The check of a sequence, after the walk over its members. -/
theorem asExpression_sequence {parts : List Expression}
    (hparts : ∀ e ∈ parts, Sound (Image.expression e).any) :
    asExpression (Message.sequenceExpression (parts.map Image.expression)) =
      outcome limit (Expression.sequenceExpression parts).after
        (Image.expression (.sequenceExpression parts)) := by
  rw [Expression.after, ← List.append_nil (demand _ _), Image.expression,
    Image.expressions_eq_map, ← List.length_map (f := Image.expression)]
  refine outcome_demand_append (fun hlength => ?_) fun hlength => ?_
  · exact asExpression_of_sound
      (Sound.sequenceExpression hlength (sound_of_mem_map hparts)).expression
  · rw [asExpression, checked_of_violation (Message.violation?_sequenceExpression hlength)]
    rfl

section Families

variable {k : Message.Kind} [Message.Holds Message.expressionVariants k]
  [Message.LawfulHolds Message.expressionVariants k] {e : Expression}

/-- The walk over an expression with an operator between two operands. -/
theorem walk_operator {kind operator : String} {left right : Expression}
    {build : String → Message .expression → Message .expression → Message k}
    (hd : depth + 1 ≤ limit) (hleft : (Node.expression left).Walks limit levels (depth + 1))
    (hright : (Node.expression right).Walks limit levels (depth + 1))
    (hbefore : e.before = textFaults kind "operator" operator)
    (hchildren : e.children = [.expression left, .expression right]) (hafter : e.after = [])
    (himage : Image.expression e =
      Message.expression (build operator (Image.expression left) (Image.expression right))) :
    (do
      let operator ← requiredText kind "operator" operator
      let left ← Lowering.expression limit levels left
      let right ← Lowering.expression limit levels right
      asExpression (build operator left right)) =
      outcome limit (e.before ++ (e.children.flatMap (Node.trace (depth + 1)) ++ e.after))
        (Image.expression e) := by
  have hevents : e.before ++ (e.children.flatMap (Node.trace (depth + 1)) ++ e.after) =
      textFaults kind "operator" operator ++ ((Node.expression left).trace (depth + 1) ++
        (Node.expression right).trace (depth + 1)) := by
    simp [hbefore, hchildren, hafter]
  rw [hevents]
  refine bind_outcome (requiredText_eq _ _ operator) fun hoperator => ?_
  refine bind_outcome hleft fun hpleft => bind_outcome_ok hright fun hpright => ?_
  refine asExpression_image hd ?_ himage
  rw [hevents]
  exact passes_append.mpr ⟨hoperator, passes_append.mpr ⟨hpleft, hpright⟩⟩

/-- The walk over an expression that applies another one to arguments. -/
theorem walk_application {callee : Expression} {arguments : List Expression}
    {build : Message .expression → List (Message .expression) → Message k}
    (hd : depth + 1 ≤ limit) (hcallee : (Node.expression callee).Walks limit levels (depth + 1))
    (harguments : ∀ a ∈ arguments, (Node.expression a).Walks limit levels (depth + 1))
    (hbefore : e.before = []) (hchildren : e.children = .expression callee ::
      arguments.map .expression) (hafter : e.after = [])
    (himage : Image.expression e =
      Message.expression (build (Image.expression callee) (Image.expressions arguments))) :
    (do
      let callee ← Lowering.expression limit levels callee
      let arguments ← Lowering.expressions limit levels arguments
      asExpression (build callee arguments)) =
      outcome limit (e.before ++ (e.children.flatMap (Node.trace (depth + 1)) ++ e.after))
        (Image.expression e) := by
  have hevents : e.before ++ (e.children.flatMap (Node.trace (depth + 1)) ++ e.after) =
      (Node.expression callee).trace (depth + 1) ++
        (arguments.map Node.expression).flatMap (Node.trace (depth + 1)) := by
    rw [hbefore, hchildren, hafter, List.nil_append, List.append_nil, List.flatMap_cons]
  rw [hevents]
  refine bind_outcome hcallee fun hpcallee => ?_
  refine bind_outcome_ok (walk_expressions harguments) fun hparguments => ?_
  rw [Image.expressions_eq_map] at himage
  refine asExpression_image hd ?_ himage
  rw [hevents]
  exact passes_append.mpr ⟨hpcallee, hparguments⟩

end Families

theorem Expression.walk_zero (e : Expression) :
    Lowering.expression limit 0 e = .error (.tooDeep limit) := by
  cases e <;> rfl

/-- The walk over an expression, from the walks over its children. -/
theorem Expression.walk {e : Expression} (hd : depth + 1 ≤ limit)
    (hc : ∀ c ∈ e.children, c.Walks limit levels (depth + 1)) :
    Lowering.expression limit (levels + 1) e =
      outcome limit (e.before ++ (e.children.flatMap (Node.trace (depth + 1)) ++ e.after))
        (Image.expression e) := by
  -- As for statements; only accesses by name, updates and sequences have events after their
  -- children.
  cases e with
  | identifier name =>
    refine bind_outcome (requiredText_eq _ _ name) fun hname => ?_
    exact asExpression_image hd (passes_append.mpr ⟨hname, passes_nil⟩) rfl
  | numericLiteral value => rfl
  | bigIntLiteral value =>
    refine bind_outcome (requiredText_eq _ _ value) fun hvalue => ?_
    exact asExpression_image hd (passes_append.mpr ⟨hvalue, passes_nil⟩) rfl
  | stringLiteral value => rfl
  | regExpLiteral pattern flags =>
    refine bind_outcome (requiredText_eq _ _ pattern) fun hpattern => ?_
    exact asExpression_image hd (passes_append.mpr ⟨hpattern, passes_nil⟩) rfl
  | booleanLiteral value => rfl
  | nullLiteral => rfl
  | thisExpression => rfl
  | intrinsicIdentifier name =>
    refine bind_outcome (requiredText_eq _ _ name) fun hname => ?_
    exact asExpression_image hd (passes_append.mpr ⟨hname, passes_nil⟩) rfl
  | assignmentExpression operator left right =>
    simp only [Expression.children, List.forall_mem_cons] at hc
    exact walk_operator hd hc.1 hc.2.1 rfl rfl rfl rfl
  | objectExpression properties =>
    simp only [Expression.children, List.forall_mem_map] at hc
    simp only [Expression.before, Expression.children, Expression.after, List.nil_append,
      List.append_nil]
    refine bind_outcome_ok (walk_members hc) fun hproperties => ?_
    exact asExpression_image hd
      (by simp [Expression.before, Expression.children, Expression.after, *])
      (by rw [Image.expression, Image.members_eq_map])
  | arrayExpression elements =>
    have helements : ∀ e, some e ∈ elements →
        (Node.expression e).Walks limit levels (depth + 1) := fun e he =>
      hc (.expression e) (List.mem_flatMap.mpr ⟨some e, he, by simp⟩)
    simp only [Expression.before, Expression.children, Expression.after, List.nil_append,
      List.append_nil]
    refine bind_outcome_ok (walk_elements helements) fun hevents => ?_
    refine asExpression_image hd ?_ (by rw [Image.expression, Image.elements_eq_map])
    simpa only [Expression.before, Expression.children, Expression.after, List.nil_append,
      List.append_nil] using hevents
  | functionExpression id params body generator isAsync =>
    simp only [Expression.children, List.forall_mem_append, List.forall_mem_map] at hc
    simp only [Expression.before, Expression.children, Expression.after, List.flatMap_append,
      List.nil_append, List.append_nil]
    refine bind_outcome (parameters_eq hd params) fun hparams => ?_
    refine bind_outcome_ok (walk_statements hc.2) fun hbody => ?_
    exact asExpression_image hd
      (by simp [Expression.before, Expression.children, Expression.after, *])
      (by rw [Image.expression, Image.statements_eq_map])
  | arrowFunctionExpression id params body generator isAsync =>
    simp only [Expression.children, List.forall_mem_append, List.forall_mem_map] at hc
    simp only [Expression.before, Expression.children, Expression.after, List.flatMap_append,
      List.append_nil, List.append_assoc]
    refine outcome_demand_append (fun hgenerator => ?_) fun hgenerator => ?_
    · refine outcome_demand_append (fun hid => ?_) fun hid => ?_
      · subst hgenerator
        refine (if_neg (Bool.eq_false_iff.mp hid)).trans ?_
        refine bind_outcome (parameters_eq hd params) fun hparams => ?_
        refine bind_outcome_ok (ArrowBody.walk hd hc.2) fun hbody => ?_
        exact asExpression_image hd
          (by simp [Expression.before, Expression.children, Expression.after, *]) rfl
      · rw [Bool.not_eq_false] at hid
        subst hgenerator
        exact if_pos hid
    · rw [Bool.not_eq_false] at hgenerator
      rw [hgenerator]
      rfl
  | callExpression callee arguments =>
    simp only [Expression.children, List.forall_mem_cons, List.forall_mem_map] at hc
    exact walk_application hd hc.1 hc.2 rfl rfl rfl rfl
  | newExpression callee arguments =>
    simp only [Expression.children, List.forall_mem_cons, List.forall_mem_map] at hc
    exact walk_application hd hc.1 hc.2 rfl rfl rfl rfl
  | memberExpression object property computed =>
    cases computed with
    | true =>
      simp only [Expression.children, if_true, List.forall_mem_cons] at hc
      simp only [Expression.before, Expression.children, Expression.after, if_true,
        List.flatMap_cons, List.flatMap_nil, List.nil_append, List.append_nil]
      refine bind_outcome hc.1 fun hobject => bind_outcome_ok hc.2.1 fun hproperty => ?_
      exact asExpression_image hd
        (by simp [Expression.before, Expression.children, Expression.after, *]) rfl
    | false =>
      simp only [Expression.children, List.forall_mem_cons] at hc
      simp only [Expression.before, Expression.children, Expression.after, Bool.false_eq_true,
        if_false, List.flatMap_cons, List.flatMap_nil, List.nil_append, List.append_nil]
      refine bind_outcome hc.1 fun hobject => ?_
      cases property with
      | identifier name =>
        refine bind_outcome_ok (requiredText_eq _ _ name) fun hname => ?_
        refine asExpression_image hd ?_ rfl
        simp only [Expression.before, Expression.children, Expression.after, Bool.false_eq_true,
          if_false, List.flatMap_cons, List.flatMap_nil, List.nil_append, List.append_nil]
        exact passes_append.mpr ⟨hobject, hname⟩
      | _ => rfl
  | unaryExpression operator isPrefix argument =>
    simp only [Expression.children, List.forall_mem_cons] at hc
    simp only [Expression.before, Expression.children, Expression.after, List.flatMap_cons,
      List.flatMap_nil, List.append_nil, List.append_assoc]
    refine outcome_demand_append (fun hfront => ?_) fun hfront => ?_
    · subst hfront
      refine bind_outcome (requiredText_eq _ _ operator) fun hoperator => ?_
      refine bind_outcome_ok hc.1 fun hargument => ?_
      exact asExpression_image hd
        (by simp [Expression.before, Expression.children, Expression.after, *]) rfl
    · rw [Bool.not_eq_true] at hfront
      rw [hfront]
      rfl
  | binaryExpression operator left right =>
    simp only [Expression.children, List.forall_mem_cons] at hc
    exact walk_operator hd hc.1 hc.2.1 rfl rfl rfl rfl
  | logicalExpression operator left right =>
    simp only [Expression.children, List.forall_mem_cons] at hc
    exact walk_operator hd hc.1 hc.2.1 rfl rfl rfl rfl
  | updateExpression operator isPrefix argument =>
    simp only [Expression.children, List.forall_mem_cons] at hc
    simp only [Expression.before, Expression.children, List.flatMap_cons, List.flatMap_nil,
      List.append_nil]
    refine bind_outcome (requiredText_eq _ _ operator) fun _ => ?_
    exact bind_outcome hc.1 fun hargument => asExpression_update (sound_of_passes hd hargument)
  | yieldExpression argument delegate =>
    simp only [Expression.children, List.forall_mem_map] at hc
    simp only [Expression.before, Expression.children, Expression.after, List.append_nil]
    refine outcome_demand_append (fun hdelegate => ?_) fun hdelegate => ?_
    · subst hdelegate
      refine bind_outcome_ok (walk_expression? hc) fun hargument => ?_
      refine asExpression_image hd ?_ (by rw [Image.expression, Image.expression?_eq_map])
      simpa [Expression.before, Expression.children, Expression.after] using hargument
    · rw [Bool.not_eq_false] at hdelegate
      rw [hdelegate]
      rfl
  | awaitExpression argument =>
    simp only [Expression.children, List.forall_mem_cons] at hc
    simp only [Expression.before, Expression.children, Expression.after, List.flatMap_cons,
      List.flatMap_nil, List.nil_append, List.append_nil]
    refine bind_outcome_ok hc.1 fun hargument => ?_
    exact asExpression_image hd
      (by simp [Expression.before, Expression.children, Expression.after, *]) rfl
  | conditionalExpression test consequent alternate =>
    simp only [Expression.children, List.forall_mem_cons] at hc
    simp only [Expression.before, Expression.children, Expression.after, List.flatMap_cons,
      List.flatMap_nil, List.nil_append, List.append_nil]
    refine bind_outcome hc.1 fun htest => bind_outcome hc.2.1 fun hconsequent => ?_
    refine bind_outcome_ok hc.2.2.1 fun halternate => ?_
    exact asExpression_image hd
      (by simp [Expression.before, Expression.children, Expression.after, *]) rfl
  | sequenceExpression parts =>
    simp only [Expression.children, List.forall_mem_map] at hc
    simp only [Expression.before, Expression.children, List.nil_append]
    exact bind_outcome (walk_expressions hc) fun hparts =>
      asExpression_sequence (sound_of_passes_map hd hparts)
  | spreadElement argument =>
    simp only [Expression.children, List.forall_mem_cons] at hc
    simp only [Expression.before, Expression.children, Expression.after, List.flatMap_cons,
      List.flatMap_nil, List.nil_append, List.append_nil]
    refine bind_outcome_ok hc.1 fun hargument => ?_
    exact asExpression_image hd
      (by simp [Expression.before, Expression.children, Expression.after, *]) rfl
  | unsupported kind => rfl

/-- The walk over a member of an object literal, from the walks over its children. -/
theorem Member.walk {m : Member} (hd : depth ≤ limit)
    (hc : ∀ c ∈ m.children, c.Walks limit levels depth) :
    Lowering.member limit levels m =
      outcome limit (m.before ++ m.children.flatMap (Node.trace depth)) (Image.member m) := by
  cases m with
  | objectProperty key value computed shorthand method =>
    simp only [Member.before, List.append_assoc]
    refine outcome_demand_append (fun hflags => ?_) fun hflags => ?_
    · obtain ⟨rfl, rfl⟩ := hflags
      cases computed with
      | true =>
        simp only [Member.children, if_true, List.forall_mem_append, List.forall_mem_singleton]
          at hc
        simp only [Member.children, if_true, List.flatMap_append, List.flatMap_singleton,
          List.nil_append]
        refine bind_outcome hc.1 fun hkey => bind_outcome_ok hc.2 fun hvalue => ?_
        exact asMember_image hd (by simp [Member.before, Member.children, *]) rfl
      | false =>
        have hwalk : (Node.expression value).Walks limit levels depth :=
          hc (.expression value) (by simp [Member.children])
        simp only [Member.children, Bool.false_eq_true, if_false, List.nil_append,
          List.flatMap_singleton]
        cases key with
        | identifier name =>
          refine bind_outcome_ok hwalk fun hvalue => ?_
          exact asMember_image hd
            (by simpa [Member.before, Member.children, Expression.keyFaults] using hvalue) rfl
        | stringLiteral name =>
          refine bind_outcome_ok hwalk fun hvalue => ?_
          exact asMember_image hd
            (by simpa [Member.before, Member.children, Expression.keyFaults] using hvalue) rfl
        | numericLiteral number =>
          refine bind_outcome (indexKey_eq number) fun hindex => ?_
          refine bind_outcome_ok hwalk fun hvalue => ?_
          exact asMember_image hd (by simp [Member.before, Member.children, *]) rfl
        | _ => rfl
    · cases shorthand <;> cases method <;> simp [Lowering.member] at hflags ⊢
  | objectMethod kind key params body computed shorthand generator isAsync =>
    simp only [Member.children, List.forall_mem_append, List.forall_mem_map] at hc
    simp only [Member.before, Member.children, List.flatMap_append, List.append_assoc]
    rw [← List.append_assoc]
    refine bind_outcome (methodName_eq key computed shorthand) fun hname => ?_
    rw [passes_append, passes_demand, passes_demand] at hname
    cases kind with
    | method =>
      simp only [MethodKind.faults, List.nil_append]
      refine bind_outcome (parameters_eq hd params) fun hparams => ?_
      refine bind_outcome_ok (walk_statements hc.2) fun hbody => ?_
      refine asMember_image hd ?_ (by rw [Image.member, Image.statements_eq_map])
      simp only [Member.before, Member.children, MethodKind.faults, List.flatMap_append,
        passes_append, passes_demand, passes_nil]
      exact ⟨⟨hname, trivial⟩, hparams, hbody⟩
    | getter =>
      simp only [MethodKind.faults, List.append_assoc]
      refine bind_outcome (plainAccessor_eq "getter" generator isAsync) fun hflags => ?_
      refine bind_outcome (noParameters_eq params) fun hparams => ?_
      -- Without parameters there are no events of parameters either.
      obtain rfl := List.isEmpty_iff.mp (passes_demand.mp hparams)
      refine bind_outcome_ok (walk_statements hc.2) fun hbody => ?_
      refine asMember_image hd ?_ (by rw [Image.member, Image.statements_eq_map])
      simp only [Member.before, Member.children, MethodKind.faults, List.flatMap_append,
        passes_append, passes_demand]
      exact ⟨⟨hname, hflags, rfl⟩, passes_nil, hbody⟩
    | setter =>
      simp only [MethodKind.faults, List.append_assoc]
      refine bind_outcome (plainAccessor_eq "setter" generator isAsync) fun hflags => ?_
      refine bind_outcome (oneParameter_eq params) fun hparams => ?_
      obtain ⟨p, rfl⟩ := List.length_eq_one_iff.mp (passes_demand.mp hparams)
      rw [List.map_singleton, List.flatMap_singleton]
      refine bind_outcome (parameter_eq hd p) fun hp => ?_
      refine bind_outcome_ok (walk_statements hc.2) fun hbody => ?_
      refine asMember_image hd ?_ (by rw [Image.member, Image.statements_eq_map, List.headD_cons])
      simp only [Member.before, Member.children, MethodKind.faults, List.flatMap_append,
        List.map_singleton, List.flatMap_singleton, passes_append, passes_demand]
      exact ⟨⟨hname, hflags, rfl⟩, hp, hbody⟩
  | spreadElement argument => rfl
  | unsupported kind => rfl

namespace Node

theorem trace_declarator (id : Pattern) (init : Option Expression) :
    (Node.declarator (.mk id init)).trace depth =
      (Node.pattern id).trace depth ++
        (init.toList.map Node.expression).flatMap (trace depth) :=
  trace_eq_of_after rfl

theorem trace_countingHead (head : ForInit) :
    (Node.countingHead head).trace depth =
      head.before "ForStatement" .initNotDeclaration ++
        head.children.flatMap (trace depth) :=
  trace_eq_of_after rfl

theorem trace_iterationHead (loop : String) (head : ForInit) :
    (Node.iterationHead loop head).trace depth =
      head.before loop .leftNotDeclaration ++
        (demand (head.isBare = true) (.unsupported loop .loopInitializer) ++
          head.children.flatMap (trace depth)) := by
  rw [← List.append_assoc]
  exact trace_eq_of_after rfl

theorem trace_catchClause (param : Option Pattern) (body : List Statement) :
    (Node.catchClause (.mk param body)).trace depth =
      (param.toList.map Node.pattern).flatMap (trace depth) ++
        (body.map Node.statement).flatMap (trace depth) := by
  rw [← List.flatMap_append]
  exact trace_eq_of_after rfl

theorem walk_declarator {d : Declarator} (hd : depth ≤ limit)
    (hc : ∀ c ∈ (Node.declarator d).children, c.Walks limit levels depth) :
    (Node.declarator d).Walks limit levels depth := by
  obtain ⟨id, init⟩ := d
  simp only [children, List.forall_mem_cons, List.forall_mem_map] at hc
  rw [Walks, trace_declarator]
  refine bind_outcome (bindingName_eq id) fun hid => ?_
  refine bind_outcome_ok (walk_expression? hc.2) fun hinit => ?_
  have hsound : Sound (Image.declarator (.mk id init)).any := by
    refine sound_of_passes hd (?_ : Passes limit ((Node.declarator (.mk id init)).trace depth))
    rw [trace_declarator]
    exact passes_append.mpr ⟨hid, hinit⟩
  rw [Image.declarator, Image.expression?_eq_map] at hsound ⊢
  exact checked_of_sound hsound

theorem walk_countingHead {head : ForInit}
    (hc : ∀ c ∈ head.children, c.Walks limit levels depth) :
    (Node.countingHead head).Walks limit levels depth := by
  rw [Walks, trace_countingHead]
  cases head with
  | expression e => rfl
  | variableDeclaration kind declarations =>
    rw [ForInit.before, List.append_assoc]
    cases declarations with
    | nil => exact bind_outcome (declarationKind_eq kind) fun _ => rfl
    | cons d rest =>
      cases rest with
      | nil =>
        simp only [ForInit.children, List.map_singleton, List.forall_mem_singleton] at hc
        simp only [ForInit.children, List.map_singleton, List.flatMap_singleton]
        exact bind_outcome (declarationKind_eq kind) fun _ => hc
      | cons e rest => exact bind_outcome (declarationKind_eq kind) fun _ => rfl

theorem walk_iterationHead {loop : String} {head : ForInit}
    (hc : ∀ c ∈ head.children, c.Walks limit levels depth) :
    (Node.iterationHead loop head).Walks limit levels depth := by
  rw [Walks, trace_iterationHead]
  cases head with
  | expression e => rfl
  | variableDeclaration kind declarations =>
    rw [ForInit.before, List.append_assoc]
    cases declarations with
    | nil => exact bind_outcome (declarationKind_eq kind) fun _ => rfl
    | cons d rest =>
      cases rest with
      | nil =>
        obtain ⟨id, init⟩ := d
        cases init with
        | some e => exact bind_outcome (declarationKind_eq kind) fun _ => rfl
        | none =>
          simp only [ForInit.children, List.map_singleton, List.forall_mem_singleton] at hc
          simp only [ForInit.children, List.map_singleton, List.flatMap_singleton]
          exact bind_outcome (declarationKind_eq kind) fun _ => hc
      | cons e rest => exact bind_outcome (declarationKind_eq kind) fun _ => rfl

theorem walk_catchClause {clause : CatchClause} (hd : depth ≤ limit)
    (hc : ∀ c ∈ (Node.catchClause clause).children, c.Walks limit levels depth) :
    (Node.catchClause clause).Walks limit levels depth := by
  obtain ⟨param, body⟩ := clause
  simp only [children, List.forall_mem_append, List.forall_mem_map] at hc
  rw [Walks, trace_catchClause, List.flatMap_map]
  refine bind_outcome (option_mapM_eq_outcome fun p _ => parameter_eq hd p) fun hparam => ?_
  refine bind_outcome_ok (walk_statements hc.2) fun hbody => ?_
  have hsound : Sound (Image.catchClause (.mk param body)).any := by
    refine sound_of_passes hd (?_ : Passes limit ((Node.catchClause (.mk param body)).trace depth))
    rw [trace_catchClause, List.flatMap_map]
    exact passes_append.mpr ⟨hparam, hbody⟩
  rw [Image.catchClause, Image.statements_eq_map] at hsound ⊢
  rw [checked_of_sound hsound]
  rfl

/-- Every walk ends as the events of the node say. -/
theorem walks (n : Node) (h : depth + levels = limit) : n.Walks limit levels depth := by
  induction n using induction_on_children generalizing levels depth with
  | step n ih =>
    have hdepth : depth ≤ limit := by omega
    cases n with
    | statement s =>
      rw [Walks, trace_eq_of_after rfl]
      cases levels with
      | zero =>
        -- No level is left: the walk cannot go past the first event.
        rw [Statement.walk_zero]
        exact (outcome_level_cons_of_lt (show limit < depth + 1 by omega)).symm
      | succ levels =>
        have hd : depth + 1 ≤ limit := by omega
        refine .trans ?_ (outcome_level_cons_of_le hd).symm
        exact Statement.walk hd fun c hc => ih c hc (by omega)
    | expression e =>
      rw [Walks, trace_eq]
      cases levels with
      | zero =>
        rw [Expression.walk_zero]
        exact (outcome_level_cons_of_lt (show limit < depth + 1 by omega)).symm
      | succ levels =>
        have hd : depth + 1 ≤ limit := by omega
        refine .trans ?_ (outcome_level_cons_of_le hd).symm
        exact Expression.walk hd fun c hc => ih c hc (by omega)
    | pattern p => trivial
    | member m =>
      rw [Walks, trace_eq_of_after rfl]
      exact Member.walk hdepth fun c hc => ih c hc h
    | declarator d => exact walk_declarator hdepth fun c hc => ih c hc h
    | countingHead head => exact walk_countingHead fun c hc => ih c hc h
    | iterationHead loop head => exact walk_iterationHead fun c hc => ih c hc h
    | catchClause clause => exact walk_catchClause hdepth fun c hc => ih c hc h

end Node

end Tree

open ScriptWire.Tree Lowering in
/-- A program is compiled by one walk over its statements. -/
theorem compile_eq (limit : Nat) (p : Program) :
    compile limit p = outcome limit p.trace (Image.program p) := by
  rw [compile, statements_eq_mapM]
  refine bind_outcome_ok (mapM_eq_outcome fun s _ => (Node.statement s).walks (Nat.zero_add _))
    fun hp => ?_
  have hsound := Program.sound_image (Program.passes_trace_iff.mp hp).1
  rw [Image.program, Image.statements_eq_map] at hsound ⊢
  exact checked_of_sound hsound

end ScriptWire
