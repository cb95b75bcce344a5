import ScriptWire.Proofs.Lowering.Walk

/-!
# What the compiler accepts, returns and refuses

## Main results

- `compile_succeeds_iff` — a program has a message when it is accepted and not nested too deeply
- `wellFormed_of_compile` — the message is well-formed throughout, but for the holes of arrays
- `compile_internal_fault_iff` — when a program is refused with a fault of the messages
-/

namespace ScriptWire

open ScriptWire.Tree Lowering

variable {limit : Nat} {p : Program} {ast : Message .ast}

theorem compile_eq_ok_iff :
    compile limit p = .ok ast ↔ (p.Accepted ∧ p.depth ≤ limit) ∧ Image.program p = ast := by
  rw [compile_eq, outcome_eq_ok_iff, Program.passes_trace_iff]

/-- A program has a message exactly when it is in the accepted grammar and its statements and
expressions stand inside each other on at most `limit` levels. -/
theorem compile_succeeds_iff (limit : Nat) (p : Program) :
    (∃ ast, compile limit p = .ok ast) ↔ p.Accepted ∧ p.depth ≤ limit := by
  constructor
  · rintro ⟨ast, h⟩
    exact (compile_eq_ok_iff.mp h).1
  · intro h
    exact ⟨Image.program p, compile_eq_ok_iff.mpr ⟨h, rfl⟩⟩

/-- A message with a hole as a part is an array in a sound message. -/
theorem Message.Sound.hole_part {outer : Message.Any} (h : Message.Sound outer)
    (hpart : Message.hole.any ∈ outer.2.parts) :
    ∃ elements, outer = (Message.arrayExpression elements).any ∧ Message.hole ∈ elements := by
  have harray : outer.1 = .arrayExpression := by
    -- In any other message the hole would be well-formed itself.
    by_contra hkind
    have hhole := (h.parts _ hpart fun hc => hkind hc.1).valid
    cases hhole
  match outer, harray with
  | ⟨_, .mk .arrayExpression (.cons (.repeated ms) .nil)⟩, rfl =>
    refine ⟨ms.toList, ?_, ?_⟩
    · rw [Message.arrayExpression, Message.Slot.ofList, Message.Sequence.ofList_toList]
      rfl
    · have hparts : Message.hole.any ∈ ms.toList.map Message.any ++ [] := hpart
      rw [List.append_nil, List.mem_map] at hparts
      obtain ⟨m, hm, heq⟩ := hparts
      rwa [eq_of_heq (Sigma.mk.inj heq).2] at hm

/-- Every message inside the message of a program is well-formed, except for expressions without a
variant, which are found in arrays only. -/
theorem wellFormed_of_compile (limit : Nat) (p : Program) (ast : Message .ast)
    (h : compile limit p = .ok ast) :
    (∀ m : Message.Any, m.Inside ast.any → m.2.violation? = none ∨ m = Message.hole.any) ∧
      ∀ outer : Message.Any, outer.Inside ast.any → Message.hole.any ∈ outer.2.parts →
        ∃ elements, outer = (Message.arrayExpression elements).any ∧ Message.hole ∈ elements := by
  obtain ⟨⟨haccepted, _⟩, rfl⟩ := compile_eq_ok_iff.mp h
  have hsound := Program.sound_image haccepted
  constructor
  · intro m hm
    exact (hsound.inside hm).imp_left Message.Sound.valid
  · intro outer hm hpart
    rcases hsound.inside hm with houter | rfl
    · exact houter.hole_part hpart
    · cases hpart

/-- An array with a hole is compiled, and its message is well-formed but for the hole. -/
theorem wellFormed_of_compile_sparse :
    compile 2 ⟨[.expressionStatement (.arrayExpression [none])]⟩ =
        .ok (Image.program ⟨[.expressionStatement (.arrayExpression [none])]⟩) ∧
      ∀ m : Message.Any,
        m.Inside (Image.program ⟨[.expressionStatement (.arrayExpression [none])]⟩).any →
          m.2.violation? = none ∨ m = Message.hole.any :=
  ⟨rfl, (wellFormed_of_compile 2 ⟨[.expressionStatement (.arrayExpression [none])]⟩ _ rfl).1⟩

namespace Tree

/-- What the check of the message of an expression finds although the walk has gone past everything
inside the expression. -/
def Expression.lateViolation? : Expression → Option Message.Violation
  | .updateExpression operator _ _ =>
    if operator ∈ ["", "++", "--"] then none
    else some ⟨.updateExpression, "operator", .unknownOperator operator⟩
  | .sequenceExpression expressions =>
    if 2 ≤ expressions.length then none
    else some ⟨.sequenceExpression, "expressions", .fewerThanTwo⟩
  | _ => none

/-- The walk over a program comes to the end of an expression inside `depth` levels: whatever comes
before or inside the expression is accepted and not nested too deeply. -/
structure Program.Completes (limit : Nat) (p : Program) (e : Expression) (depth : Nat) : Prop where
  inside : ∃ s ∈ p.body, (Node.expression e).Inside (.statement s)
  earlier : ∃ before after, p.trace = before ++ ((Node.expression e).trace depth ++ after) ∧
    Passes limit before
  level : depth < limit
  children : ∀ c ∈ e.children, c.Accepted ∧ depth + 1 + c.depth ≤ limit

/-- The event is a fault of a construct, which is unknown or not supported as it stands. -/
def refuses : Event → Bool
  | .fault (.unhandled _) => true
  | .fault (.unsupported _ _) => true
  | _ => false

/-- All events are faults of constructs. -/
def Refusals (events : List Event) : Prop :=
  ∀ event ∈ events, refuses event = true

@[simp]
theorem refusals_nil : Refusals [] := by
  simp [Refusals]

@[simp]
theorem refusals_append {events rest : List Event} :
    Refusals (events ++ rest) ↔ Refusals events ∧ Refusals rest :=
  List.forall_mem_append

@[simp]
theorem refusals_unhandled_cons {kind : String} {rest : List Event} :
    Refusals (.fault (.unhandled kind) :: rest) ↔ Refusals rest := by
  simp [Refusals, refuses]

@[simp]
theorem refusals_unsupported_cons {kind : String} {reason : Reason} {rest : List Event} :
    Refusals (.fault (.unsupported kind reason) :: rest) ↔ Refusals rest := by
  simp [Refusals, refuses]

@[simp]
theorem refusals_demand {condition : Prop} [Decidable condition] {kind : String}
    {reason : Reason} : Refusals (demand condition (.unsupported kind reason)) := by
  by_cases h : condition <;> simp [demand, h]

/-- Among faults of constructs a walk is stopped by one of them. -/
theorem Refusals.refuses_of_stops {events : List Event} {error : CompileError} {limit : Nat}
    (h : Refusals events) (hstop : Stops limit events error) :
    refuses (.fault error) = true := by
  obtain ⟨event, hmem, herror⟩ := List.exists_of_findSome?_eq_some hstop
  have hevent := h event hmem
  cases event with
  | level number => cases hevent
  | fault other =>
    cases herror
    exact hevent

/-- What a walk finds at a node before it comes to its children are faults of constructs. -/
theorem Node.refusals_before (n : Node) : Refusals n.before := by
  cases n with
  | statement s =>
    cases s with
    | functionDeclaration id params body generator isAsync =>
      cases id <;> simp [Node.before, Statement.before, textFaults]
    | _ => simp [Node.before, Statement.before, keywordFaults]
  | expression e => cases e <;> simp [Node.before, Expression.before, textFaults]
  | pattern p => cases p <;> simp [Node.before, Pattern.before]
  | member m =>
    cases m with
    | objectProperty key value computed shorthand method =>
      cases computed <;> cases key <;> simp [Node.before, Member.before, Expression.keyFaults]
    | objectMethod kind key params body computed shorthand generator isAsync =>
      cases kind <;> simp [Node.before, Member.before, MethodKind.faults, accessorFaults]
    | _ => simp [Node.before, Member.before]
  | declarator d => simp [Node.before]
  | countingHead head => cases head <;> simp [Node.before, ForInit.before, keywordFaults]
  | iterationHead loop head => cases head <;> simp [Node.before, ForInit.before, keywordFaults]
  | catchClause clause => simp [Node.before]

/-- A walk is stopped at the entry of a node only because it stands too deep. -/
theorem Node.stops_entry {n : Node} {limit depth : Nat} {error : CompileError}
    (h : Stops limit (n.entry depth) error) :
    error = .tooDeep limit ∧ limit < depth + n.levels := by
  cases n <;> simp_all [Stops, Node.entry, Node.levels, Event.error?]

theorem Expression.refusals_nameFaults (e : Expression) : Refusals e.nameFaults := by
  cases e <;> simp [Expression.nameFaults, textFaults]

/-- After the children of a node only two kinds of expressions are found to have a fault of the
messages. -/
theorem Expression.stops_after_shape_iff {e : Expression} {limit : Nat} {v : Message.Violation} :
    Passes limit e.before ∧ Stops limit e.after (.shape v) ↔ e.lateViolation? = some v := by
  cases e with
  | memberExpression object property computed =>
    have hname : ¬ Stops limit property.nameFaults (.shape v) := fun h =>
      nomatch property.refusals_nameFaults.refuses_of_stops h
    cases computed <;> simp [Expression.after, Expression.lateViolation?, hname]
  | updateExpression operator isPrefix argument =>
    simp [Expression.before, Expression.after, Expression.lateViolation?, stops_demand_iff,
      and_assoc]
  | sequenceExpression expressions =>
    simp [Expression.before, Expression.after, Expression.lateViolation?, stops_demand_iff]
  | _ => simp [Expression.after, Expression.lateViolation?]

/-- A walk is stopped with a fault of the messages at an expression, when it has gone past
everything inside the expression. -/
theorem Node.stopsAt_shape_iff {n : Node} {limit depth : Nat} {v : Message.Violation} :
    n.StopsAt limit depth (.shape v) ↔
      ∃ e, n = .expression e ∧ depth < limit ∧
        (∀ c ∈ e.children, c.Accepted ∧ depth + 1 + c.depth ≤ limit) ∧
        e.lateViolation? = some v := by
  -- What is found at the node before its children is never a fault of the messages.
  have hself : ¬ Stops limit (n.entry depth ++ n.before) (.shape v) := by
    intro h
    rcases stops_append_iff.mp h with hentry | ⟨_, hbefore⟩
    · exact nomatch (Node.stops_entry hentry).1
    · exact nomatch n.refusals_before.refuses_of_stops hbefore
  rw [StopsAt, or_iff_right hself]
  cases n with
  | expression e =>
    have hchildren (hd : depth < limit) :
        Passes limit (e.children.flatMap (trace (depth + 1))) ↔
          ∀ c ∈ e.children, c.Accepted ∧ depth + 1 + c.depth ≤ limit := by
      rw [passes_flatMap]
      exact forall₂_congr fun c _ => c.passes_trace_iff hd
    have hpasses : Passes limit ((Node.expression e).entry depth ++ (Node.expression e).before) ↔
        depth < limit ∧ Passes limit e.before := passes_level_cons
    rw [hpasses]
    constructor
    · rintro ⟨⟨hd, hbefore⟩, hpass, hafter⟩
      exact ⟨e, rfl, hd, (hchildren hd).mp hpass,
        Expression.stops_after_shape_iff.mp ⟨hbefore, hafter⟩⟩
    · rintro ⟨other, heq, hd, hpass, hv⟩
      cases heq
      obtain ⟨hbefore, hafter⟩ := (@Expression.stops_after_shape_iff e limit v).mpr hv
      exact ⟨⟨hd, hbefore⟩, (hchildren hd).mpr hpass, hafter⟩
  | _ => simp [Node.after]

end Tree

/-- A program is refused with a fault of the messages exactly when the walk over it comes to the end
of an update with an unknown operator, or of a sequence of fewer than two expressions. -/
theorem compile_internal_fault_iff (limit : Nat) (p : Program) (error : CompileError) :
    compile limit p = .error error ∧ error.isInputFault = false ↔
      ∃ e depth v, p.Completes limit e depth ∧ e.lateViolation? = some v ∧ error = .shape v := by
  rw [compile_eq, outcome_eq_error_iff, Program.stops_trace_iff]
  constructor
  · rintro ⟨⟨s, hs, n, depth, before, after, hinside, htrace, hbefore, hat⟩, herror⟩
    cases error with
    | shape v =>
      obtain ⟨e, rfl, hd, hchildren, hv⟩ := Node.stopsAt_shape_iff.mp hat
      exact ⟨e, depth, v, ⟨⟨s, hs, hinside⟩, ⟨before, after, htrace, hbefore⟩, hd, hchildren⟩, hv,
        rfl⟩
    | _ => cases herror
  · rintro ⟨e, depth, v, ⟨⟨s, hs, hinside⟩, ⟨before, after, htrace, hbefore⟩, hd, hchildren⟩, hv,
      rfl⟩
    exact ⟨⟨s, hs, .expression e, depth, before, after, hinside, htrace, hbefore,
      Node.stopsAt_shape_iff.mpr ⟨e, rfl, hd, hchildren, hv⟩⟩, rfl⟩

/-- An update with another operator than `++` and `--` is refused with a fault of the messages. -/
theorem compile_unknown_operator :
    compile defaultDepth
        ⟨[.expressionStatement (.updateExpression "+" false (.identifier "a"))]⟩ =
      .error (.shape ⟨.updateExpression, "operator", .unknownOperator "+"⟩) :=
  rfl

end ScriptWire
