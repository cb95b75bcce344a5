import ScriptWire.Proofs.Lowering.Reached

/-!
# Every sound message is compiled from a program

The other half of soundness: a message that is well-formed throughout, and has no arrow function or
index that trees do not have, is the message of an accepted program. The program is found from the
inside out, one node for each message.

## Main definitions

- `Message.Distinct` — variants that are told apart by the kinds of their messages
- `Message.Expressible` — a message holds nothing that trees have no place for

## Main results

- `Message.Reached.callExpression`, … — the message of each kind of expression is reached
- `Message.Choice.eq_of_parts` — a variant is determined by its message
- `Message.reached_of_sound` — sound messages are reached
- `exists_compile_eq_ok` — every well-formed message is what some program is compiled to
-/

namespace ScriptWire

open ScriptWire.Tree

namespace Message

/-- There is a tree for what the message itself holds: an arrow function is no generator, and an
index is a number. -/
def Expressible : {k : Kind} → Message k → Prop
  | _, .mk .arrowFunctionExpression (.cons (.plain type) _) =>
    type = (0 : Int32) ∨ type = (2 : Int32)
  | _, .mk .objectProperty (.cons (.set (.later (.here (.scalar index)))) _) =>
    Int.natAbs (Int64.toInt index) ≤ Nat.pow 2 53
  | _, .mk _ _ => True

namespace Reached

/-! ### Literals and names -/

theorem accepted_of_leaf {e : Expression} (he : e.Regular) (hc : e.children = []) :
    (Node.expression e).Accepted :=
  accepted_of he (by simp [Node.children, hc])

theorem identifier {slots : Slots (fields .identifier)} (h : slots.Meets Any.IsReached) :
    Reached (.mk .identifier slots) := by
  match slots, h with
  | .cons name .nil, ⟨mname, _⟩ =>
    obtain ⟨name, rfl, hne⟩ := mname.text
    exact ⟨.identifier name, accepted_of_leaf hne rfl, parts_expression _⟩

theorem numberLiteral {slots : Slots (fields .numberLiteral)} :
    Reached (.mk .numberLiteral slots) := by
  match slots with
  | .cons (.plain value) .nil =>
    exact ⟨.numericLiteral value, accepted_of_leaf trivial rfl, parts_expression _⟩

theorem bigIntLiteral {slots : Slots (fields .bigIntLiteral)} (h : slots.Meets Any.IsReached) :
    Reached (.mk .bigIntLiteral slots) := by
  match slots, h with
  | .cons value .nil, ⟨mvalue, _⟩ =>
    obtain ⟨value, rfl, hne⟩ := mvalue.text
    exact ⟨.bigIntLiteral value, accepted_of_leaf hne rfl, parts_expression _⟩

theorem stringLiteral {slots : Slots (fields .stringLiteral)} :
    Reached (.mk .stringLiteral slots) := by
  match slots with
  | .cons (.plain value) .nil =>
    exact ⟨.stringLiteral value, accepted_of_leaf trivial rfl, parts_expression _⟩

theorem regExpLiteral {slots : Slots (fields .regExpLiteral)} (h : slots.Meets Any.IsReached) :
    Reached (.mk .regExpLiteral slots) := by
  match slots, h with
  | .cons pattern (.cons (.plain flags) .nil), ⟨mpattern, _⟩ =>
    obtain ⟨pattern, rfl, hne⟩ := mpattern.text
    exact ⟨.regExpLiteral pattern flags, accepted_of_leaf hne rfl, parts_expression _⟩

theorem booleanLiteral {slots : Slots (fields .booleanLiteral)} :
    Reached (.mk .booleanLiteral slots) := by
  match slots with
  | .cons (.plain value) .nil =>
    exact ⟨.booleanLiteral value, accepted_of_leaf trivial rfl, parts_expression _⟩

theorem nullLiteral {slots : Slots (fields .nullLiteral)} : Reached (.mk .nullLiteral slots) := by
  match slots with
  | .nil => exact ⟨.nullLiteral, accepted_of_leaf trivial rfl, parts_expression _⟩

theorem thisExpression {slots : Slots (fields .thisExpression)} :
    Reached (.mk .thisExpression slots) := by
  match slots with
  | .nil => exact ⟨.thisExpression, accepted_of_leaf trivial rfl, parts_expression _⟩

theorem intrinsicIdentifier {slots : Slots (fields .intrinsicIdentifier)}
    (h : slots.Meets Any.IsReached) : Reached (.mk .intrinsicIdentifier slots) := by
  match slots, h with
  | .cons name .nil, ⟨mname, _⟩ =>
    obtain ⟨name, rfl, hne⟩ := mname.text
    exact ⟨.intrinsicIdentifier name, accepted_of_leaf hne rfl, parts_expression _⟩

/-! ### Operators -/

theorem assignmentExpression {slots : Slots (fields .assignmentExpression)}
    (h : slots.Meets Any.IsReached) : Reached (.mk .assignmentExpression slots) := by
  match slots, h with
  | .cons operator (.cons left (.cons right .nil)), ⟨moperator, mleft, mright, _⟩ =>
    obtain ⟨operator, rfl, hne⟩ := moperator.text
    obtain ⟨left, rfl, hleft⟩ := mleft.expression rfl
    obtain ⟨right, rfl, hright⟩ := mright.expression rfl
    refine ⟨.assignmentExpression operator left right, accepted_of hne ?_, parts_expression _⟩
    exact List.forall_mem_cons.mpr ⟨hleft, List.forall_mem_singleton.mpr hright⟩

theorem unaryExpression {slots : Slots (fields .unaryExpression)} (h : slots.Meets Any.IsReached) :
    Reached (.mk .unaryExpression slots) := by
  match slots, h with
  | .cons operator (.cons argument .nil), ⟨moperator, margument, _⟩ =>
    obtain ⟨operator, rfl, hne⟩ := moperator.text
    obtain ⟨argument, rfl, hargument⟩ := margument.expression rfl
    refine ⟨.unaryExpression operator true argument, accepted_of ⟨rfl, hne⟩ ?_,
      parts_expression _⟩
    exact List.forall_mem_singleton.mpr hargument

/-- A message has no place for the difference between operators; the plain ones are chosen. -/
theorem binaryExpression {slots : Slots (fields .binaryExpression)}
    (h : slots.Meets Any.IsReached) : Reached (.mk .binaryExpression slots) := by
  match slots, h with
  | .cons operator (.cons left (.cons right .nil)), ⟨moperator, mleft, mright, _⟩ =>
    obtain ⟨operator, rfl, hne⟩ := moperator.text
    obtain ⟨left, rfl, hleft⟩ := mleft.expression rfl
    obtain ⟨right, rfl, hright⟩ := mright.expression rfl
    refine ⟨.binaryExpression operator left right, accepted_of hne ?_, parts_expression _⟩
    exact List.forall_mem_cons.mpr ⟨hleft, List.forall_mem_singleton.mpr hright⟩

theorem updateExpression {slots : Slots (fields .updateExpression)}
    (h : slots.Meets Any.IsReached) : Reached (.mk .updateExpression slots) := by
  match slots, h with
  | .cons operator (.cons (.plain isPrefix) (.cons argument .nil)), ⟨moperator, _, margument, _⟩ =>
    obtain ⟨operator, rfl, hmem⟩ := moperator.oneOf
    obtain ⟨argument, rfl, hargument⟩ := margument.expression rfl
    refine ⟨.updateExpression operator isPrefix argument, accepted_of ?_ ?_, parts_expression _⟩
    · exact (List.mem_cons.mp hmem).imp_right List.mem_singleton.mp
    · exact List.forall_mem_singleton.mpr hargument

theorem yieldExpression {slots : Slots (fields .yieldExpression)} (h : slots.Meets Any.IsReached) :
    Reached (.mk .yieldExpression slots) := by
  match slots, h with
  | .cons argument .nil, ⟨margument, _⟩ =>
    obtain ⟨argument, rfl, hargument⟩ := margument.expression?
    refine ⟨.yieldExpression argument false, accepted_of rfl hargument, ?_⟩
    rw [Image.expression, Image.expression?_eq_map]
    exact parts_expression _

theorem awaitExpression {slots : Slots (fields .awaitExpression)} (h : slots.Meets Any.IsReached) :
    Reached (.mk .awaitExpression slots) := by
  match slots, h with
  | .cons argument .nil, ⟨margument, _⟩ =>
    obtain ⟨argument, rfl, hargument⟩ := margument.expression rfl
    refine ⟨.awaitExpression argument, accepted_of trivial ?_, parts_expression _⟩
    exact List.forall_mem_singleton.mpr hargument

theorem spreadElement {slots : Slots (fields .spreadElement)} (h : slots.Meets Any.IsReached) :
    Reached (.mk .spreadElement slots) := by
  match slots, h with
  | .cons argument .nil, ⟨margument, _⟩ =>
    obtain ⟨argument, rfl, hargument⟩ := margument.expression rfl
    refine ⟨.spreadElement argument, accepted_of trivial ?_, parts_expression _⟩
    exact List.forall_mem_singleton.mpr hargument

theorem ternaryExpression {slots : Slots (fields .ternaryExpression)}
    (h : slots.Meets Any.IsReached) : Reached (.mk .ternaryExpression slots) := by
  match slots, h with
  | .cons test (.cons consequent (.cons alternate .nil)), ⟨mtest, mconsequent, malternate, _⟩ =>
    obtain ⟨test, rfl, htest⟩ := mtest.expression rfl
    obtain ⟨consequent, rfl, hconsequent⟩ := mconsequent.expression rfl
    obtain ⟨alternate, rfl, halternate⟩ := malternate.expression rfl
    refine ⟨.conditionalExpression test consequent alternate, accepted_of trivial ?_,
      parts_expression _⟩
    simpa [Node.children, Expression.children] using ⟨htest, hconsequent, halternate⟩

theorem sequenceExpression {slots : Slots (fields .sequenceExpression)}
    (h : slots.Meets Any.IsReached) : Reached (.mk .sequenceExpression slots) := by
  match slots, h with
  | .cons expressions .nil, ⟨mexpressions, _⟩ =>
    obtain ⟨es, rfl, hseveral, hes⟩ := mexpressions.expressions
    refine ⟨.sequenceExpression es, accepted_of ?_ hes, ?_⟩
    · show 2 ≤ es.length
      by_contra hfew
      rw [listProblem?, if_pos (by simpa using hfew)] at hseveral
      cases hseveral
    · rw [Image.expression, Image.expressions_eq_map]
      exact parts_expression _

/-! ### Calls, functions and literals with parts -/

theorem callExpression {slots : Slots (fields .callExpression)} (h : slots.Meets Any.IsReached) :
    Reached (.mk .callExpression slots) := by
  match slots, h with
  | .cons callee (.cons arguments .nil), ⟨mcallee, marguments, _⟩ =>
    obtain ⟨callee, rfl, hcallee⟩ := mcallee.expression rfl
    obtain ⟨arguments, rfl, _, harguments⟩ := marguments.expressions
    refine ⟨.callExpression callee arguments, accepted_of trivial ?_, ?_⟩
    · exact List.forall_mem_cons.mpr ⟨hcallee, harguments⟩
    · rw [Image.expression, Image.expressions_eq_map]
      exact parts_expression _

theorem newExpression {slots : Slots (fields .newExpression)} (h : slots.Meets Any.IsReached) :
    Reached (.mk .newExpression slots) := by
  match slots, h with
  | .cons callee (.cons arguments .nil), ⟨mcallee, marguments, _⟩ =>
    obtain ⟨callee, rfl, hcallee⟩ := mcallee.expression rfl
    obtain ⟨arguments, rfl, _, harguments⟩ := marguments.expressions
    refine ⟨.newExpression callee arguments, accepted_of trivial ?_, ?_⟩
    · exact List.forall_mem_cons.mpr ⟨hcallee, harguments⟩
    · rw [Image.expression, Image.expressions_eq_map]
      exact parts_expression _

theorem memberExpression {slots : Slots (fields .memberExpression)}
    (h : slots.Meets Any.IsReached) : Reached (.mk .memberExpression slots) := by
  match slots, h with
  | .cons object (.cons property .nil), ⟨mobject, mproperty, _⟩ =>
    obtain ⟨object, rfl, hobject⟩ := mobject.expression rfl
    obtain ⟨property, rfl, hfault, hparts⟩ := mproperty.chosen
    match property, hfault, hparts with
    | .here (.scalar name), hfault, _ =>
      refine ⟨.memberExpression object (.identifier name) false,
        accepted_of (.inr ⟨name, rfl, ?_⟩) ?_, parts_expression _⟩
      · rintro rfl
        cases hfault
      · exact List.forall_mem_singleton.mpr hobject
    | .later (.here (.message m)), _, hparts =>
      obtain ⟨property, hproperty, rfl⟩ := hparts m.any (List.mem_singleton_self _)
      refine ⟨.memberExpression object property true, accepted_of (.inl rfl) ?_,
        parts_expression _⟩
      exact List.forall_mem_cons.mpr ⟨hobject, List.forall_mem_singleton.mpr hproperty⟩

theorem objectExpression {slots : Slots (fields .objectExpression)}
    (h : slots.Meets Any.IsReached) : Reached (.mk .objectExpression slots) := by
  match slots, h with
  | .cons members .nil, ⟨mmembers, _⟩ =>
    obtain ⟨_, rfl, _, hms⟩ := mmembers.list
    obtain ⟨members, hmembers, rfl⟩ := exists_map_eq hms
    refine ⟨.objectExpression members, accepted_of trivial ?_, ?_⟩
    · exact List.forall_mem_map.mpr hmembers
    · rw [Image.expression, Image.members_eq_map]
      exact parts_expression _

/-- The elements of an array are reached or holes. -/
theorem arrayExpression {slots : Slots (fields .arrayExpression)}
    (h : slots.Meets fun c => c.IsReached ∨ c = hole.any) :
    Reached (.mk .arrayExpression slots) := by
  match slots, h with
  | .cons elements .nil, ⟨melements, _⟩ =>
    obtain ⟨ms, rfl, _, hms⟩ := melements.list
    obtain ⟨elements, helements, rfl⟩ : ∃ elements : List (Option Expression),
        (∀ element ∈ elements, ∀ e ∈ element, (Node.expression e).Accepted) ∧
          elements.map (fun e => (e.map Image.expression).getD hole) = ms := by
      refine exists_map_eq fun m hm => ?_
      rcases hms m hm with ⟨e, he, rfl⟩ | heq
      · exact ⟨some e, by simpa using he, rfl⟩
      · exact ⟨none, by simp, (eq_of_heq (Sigma.mk.inj heq).2).symm⟩
    refine ⟨.arrayExpression elements, accepted_of trivial ?_, ?_⟩
    · simp only [Node.children, Expression.children, List.mem_flatMap, List.mem_map,
        Option.mem_toList]
      rintro _ ⟨element, helement, e, he, rfl⟩
      exact helements element helement e he
    · rw [Image.expression, Image.elements_eq_map]
      exact parts_expression _

theorem functionExpression {slots : Slots (fields .functionExpression)}
    (h : slots.Meets Any.IsReached) : Reached (.mk .functionExpression slots) := by
  match slots, h with
  | .cons type (.cons params (.cons body .nil)), ⟨mtype, mparams, mbody, _⟩ =>
    obtain ⟨type, rfl, hlow, hhigh⟩ := mtype.choice
    obtain ⟨params, rfl, hparams⟩ := mparams.parameters
    obtain ⟨body, rfl, hbody⟩ := mbody.statements
    refine ⟨.functionExpression none params body (isGenerator type) (isAsync type),
      accepted_of trivial (List.forall_mem_append.mpr ⟨hparams, hbody⟩), ?_⟩
    rw [Image.expression, Image.statements_eq_map, functionType_of_choice hlow hhigh]
    exact parts_expression _

/-- Only a block has the message of a block. -/
theorem eq_blockStatement {s : Statement}
    (h : (Image.statement s).variant?.map Variant.content = some (.message .blockStatement)) :
    ∃ body, s = .blockStatement body := by
  cases s with
  | blockStatement body => exact ⟨body, rfl⟩
  | forStatement init test update body =>
    cases init <;> cases test <;> cases update <;> cases h
  | _ => cases h

theorem arrowFunctionExpression {slots : Slots (fields .arrowFunctionExpression)}
    (h : slots.Meets Any.IsReached) (hx : (Message.mk .arrowFunctionExpression slots).Expressible) :
    Reached (.mk .arrowFunctionExpression slots) := by
  match slots, h, hx with
  | .cons (.plain type) (.cons params (.cons body .nil)), ⟨_, mparams, mbody, _⟩, hx =>
    have hchoice : Lowering.functionType false (isAsync type) = type := by
      rcases hx with rfl | rfl <;> decide
    obtain ⟨params, rfl, hparams⟩ := mparams.parameters
    obtain ⟨body, rfl, hfault, hparts⟩ := mbody.chosen
    match body, hfault, hparts with
    | .here (.message m), hfault, hparts =>
      obtain ⟨s, hs, rfl⟩ := hparts m.any (List.mem_singleton_self _)
      have hblock : partProblem? .block (Image.statement s) = none :=
        Option.map_eq_none_iff.mp hfault
      obtain ⟨body, rfl⟩ : ∃ body, s = .blockStatement body := by
        refine eq_blockStatement ?_
        by_contra hne
        simp [partProblem?, hne] at hblock
      refine ⟨.arrowFunctionExpression none params (.blockStatement body) false (isAsync type),
        accepted_of ⟨rfl, rfl⟩ ?_, ?_⟩
      · exact List.forall_mem_append.mpr ⟨hparams, (Node.accepted_iff.mp hs).2⟩
      · rw [Image.expression, hchoice]
        exact parts_expression _
    | .later (.here (.message m)), _, hparts =>
      obtain ⟨e, he, rfl⟩ := hparts m.any (List.mem_singleton_self _)
      refine ⟨.arrowFunctionExpression none params (.expression e) false (isAsync type),
        accepted_of ⟨rfl, rfl⟩ ?_, ?_⟩
      · exact List.forall_mem_append.mpr ⟨hparams, List.forall_mem_singleton.mpr he⟩
      · rw [Image.expression, hchoice]
        exact parts_expression _

/-! ### Members of object literals -/

theorem objectProperty {slots : Slots (fields .objectProperty)} (h : slots.Meets Any.IsReached)
    (hx : (Message.mk .objectProperty slots).Expressible) :
    Reached (.mk .objectProperty slots) := by
  match slots, h, hx with
  | .cons key (.cons value .nil), ⟨mkey, mvalue, _⟩, hx =>
    obtain ⟨value, rfl, hvalue⟩ := mvalue.expression rfl
    obtain ⟨key, rfl, _, hparts⟩ := mkey.chosen
    match key, hparts, hx with
    | .here (.scalar name), _, _ =>
      refine ⟨.objectProperty (.stringLiteral name) value false false false,
        accepted_of ⟨rfl, rfl, .inr rfl⟩ ?_, parts_objectField _⟩
      exact List.forall_mem_singleton.mpr hvalue
    | .later (.here (.scalar index)), _, hx =>
      obtain ⟨hkey, himage⟩ := isIndex_ofInt hx
      refine ⟨.objectProperty (.numericLiteral (.ofInt (Int64.toInt index))) value false false
        false, accepted_of ⟨rfl, rfl, .inr hkey⟩ ?_, ?_⟩
      · exact List.forall_mem_singleton.mpr hvalue
      · rw [Image.member, himage]
        exact parts_objectField _
    | .later (.later (.here (.message m))), hparts, _ =>
      obtain ⟨key, hkey, rfl⟩ := hparts m.any (List.mem_singleton_self _)
      refine ⟨.objectProperty key value true false false, accepted_of ⟨rfl, rfl, .inl rfl⟩ ?_,
        parts_objectField _⟩
      exact List.forall_mem_cons.mpr ⟨hkey, List.forall_mem_singleton.mpr hvalue⟩

theorem objectMethod {slots : Slots (fields .objectMethod)} (h : slots.Meets Any.IsReached) :
    Reached (.mk .objectMethod slots) := by
  match slots, h with
  | .cons (.plain name) (.cons type (.cons params (.cons body .nil))),
      ⟨_, mtype, mparams, mbody, _⟩ =>
    obtain ⟨type, rfl, hlow, hhigh⟩ := mtype.choice
    obtain ⟨params, rfl, hparams⟩ := mparams.parameters
    obtain ⟨body, rfl, hbody⟩ := mbody.statements
    refine ⟨.objectMethod .method (.stringLiteral name) params body false false (isGenerator type)
      (isAsync type), accepted_of ⟨rfl, rfl, rfl, trivial⟩ ?_, ?_⟩
    · exact List.forall_mem_append.mpr ⟨hparams, hbody⟩
    · rw [Image.member, Image.statements_eq_map, functionType_of_choice hlow hhigh]
      exact parts_objectField _

theorem objectGetter {slots : Slots (fields .objectGetter)} (h : slots.Meets Any.IsReached) :
    Reached (.mk .objectGetter slots) := by
  match slots, h with
  | .cons (.plain name) (.cons body .nil), ⟨_, mbody, _⟩ =>
    obtain ⟨body, rfl, hbody⟩ := mbody.statements
    refine ⟨.objectMethod .getter (.stringLiteral name) [] body false false false false,
      accepted_of ⟨rfl, rfl, rfl, rfl, rfl, rfl⟩ hbody, ?_⟩
    rw [Image.member, Image.statements_eq_map]
    exact parts_objectField _

theorem objectSetter {slots : Slots (fields .objectSetter)} (h : slots.Meets Any.IsReached) :
    Reached (.mk .objectSetter slots) := by
  match slots, h with
  | .cons (.plain name) (.cons param (.cons body .nil)), ⟨_, mparam, mbody, _⟩ =>
    obtain ⟨_, rfl, ⟨param, hparam, rfl⟩, _⟩ := mparam.required rfl
    obtain ⟨body, rfl, hbody⟩ := mbody.statements
    refine ⟨.objectMethod .setter (.stringLiteral name) [param] body false false false false,
      accepted_of ⟨rfl, rfl, rfl, rfl, rfl, rfl⟩ ?_, ?_⟩
    · exact List.forall_mem_cons.mpr ⟨hparam, hbody⟩
    · rw [Image.member, Image.statements_eq_map]
      exact parts_objectField _

end Reached

/-! ### Variants -/

/-- Every variant holds a message of its own kind. -/
structure Distinct (vs : List Variant) : Prop where
  message : ∀ v ∈ vs, ∃ k, v.content = .message k
  nodup : (vs.map Variant.content).Nodup

theorem Distinct.tail {v : Variant} {vs : List Variant} (h : Distinct (v :: vs)) : Distinct vs :=
  ⟨fun w hw => h.message w (List.mem_cons_of_mem v hw), (List.nodup_cons.mp h.nodup).2⟩

theorem Payload.exists_part {k : Kind} : {c : Content} → (payload : Payload c) → c = .message k →
    ∃ m : Message k, payload.parts = [m.any]
  | _, .scalar _, h => by cases h
  | _, .message m, h => by
    cases h
    exact ⟨m, rfl⟩

/-- A choice has one message, of the kind of a variant. -/
theorem Choice.exists_part : {vs : List Variant} → Distinct vs → (c : Choice vs) →
    ∃ v ∈ vs, ∃ (k : Kind) (m : Message k), v.content = .message k ∧ c.parts = [m.any]
  | v :: _, h, .here payload => by
    obtain ⟨k, hk⟩ := h.message v List.mem_cons_self
    obtain ⟨m, hm⟩ := payload.exists_part hk
    exact ⟨v, List.mem_cons_self, k, m, hk, hm⟩
  | _ :: _, h, .later c => by
    obtain ⟨w, hw, k, m, hk, hm⟩ := c.exists_part h.tail
    exact ⟨w, List.mem_cons_of_mem _ hw, k, m, hk, hm⟩

theorem Payload.eq_of_parts {k : Kind} : {c : Content} → {payload other : Payload c} →
    c = .message k → payload.parts = other.parts → payload = other
  | _, .scalar _, _, hc, _ => by cases hc
  | _, .message m, .message n, _, h => by
    have heq : m.any = n.any := List.singleton_inj.mp h
    rw [eq_of_heq (Sigma.mk.inj heq).2]

theorem Choice.parts_here_ne {v : Variant} {vs : List Variant} (hvs : Distinct (v :: vs))
    (payload : Payload v.content) (c : Choice vs) : payload.parts ≠ c.parts := by
  intro h
  obtain ⟨k, hk⟩ := hvs.message v List.mem_cons_self
  obtain ⟨m, hm⟩ := payload.exists_part hk
  obtain ⟨w, hw, l, n, hl, hn⟩ := c.exists_part hvs.tail
  have heq : m.any = n.any := List.singleton_inj.mp (hm.symm.trans (h.trans hn))
  have hkind : k = l := (Sigma.mk.inj heq).1
  refine (List.nodup_cons.mp hvs.nodup).1 ?_
  rw [hk, hkind, ← hl]
  exact List.mem_map_of_mem hw

/-- The kind of its message tells which variant was chosen. -/
theorem Choice.eq_of_parts : {vs : List Variant} → Distinct vs → {c d : Choice vs} →
    c.parts = d.parts → c = d
  | v :: _, hvs, .here payload, .here other, h => by
    obtain ⟨k, hk⟩ := hvs.message v List.mem_cons_self
    rw [Payload.eq_of_parts hk h]
  | v :: _, hvs, .here payload, .later d, h => by
    exact absurd h (Choice.parts_here_ne hvs payload d)
  | v :: _, hvs, .later c, .here other, h => by
    exact absurd h.symm (Choice.parts_here_ne hvs other c)
  | _ :: _, hvs, .later c, .later d, h => by
    rw [Choice.eq_of_parts hvs.tail h]

theorem Slots.eq_of_parts {name label : String} {r : Requirement} {vs : List Variant} {m : Any}
    {slots other : Slots [⟨name, label, .union vs, r⟩]} (hvs : Distinct vs)
    (hslots : slots.parts = [m]) (hother : other.parts = [m]) : slots = other := by
  match slots, other, hslots, hother with
  | .cons (.set c) .nil, .cons (.set d) .nil, hc, hd =>
    have hparts : c.parts = d.parts :=
      (List.append_nil _).symm.trans (hc.trans (hd.symm.trans (List.append_nil _)))
    rw [Choice.eq_of_parts hvs hparts]
  | .cons .unset .nil, _, hc, _ => cases hc
  | .cons (.set _) .nil, .cons .unset .nil, _, hd => cases hd

theorem Slots.Meets.exists_part {P : Any → Prop} {name label : String} {vs : List Variant}
    {slots : Slots [⟨name, label, .union vs, .given⟩]} (h : slots.Meets P) (hvs : Distinct vs) :
    ∃ v ∈ vs, ∃ (k : Kind) (m : Message k), v.content = .message k ∧ P m.any ∧
      slots.parts = [m.any] := by
  match slots, h with
  | .cons variant .nil, ⟨mvariant, _⟩ =>
    obtain ⟨c, rfl, _, hparts⟩ := mvariant.chosen
    obtain ⟨v, hv, k, m, hk, hm⟩ := c.exists_part hvs
    have hslots : c.parts ++ [] = [m.any] := (List.append_nil _).trans hm
    exact ⟨v, hv, k, m, hk, hparts m.any (hm ▸ List.mem_singleton_self _), hslots⟩

theorem distinct_statementVariants : Distinct statementVariants :=
  ⟨by simp, by decide⟩

theorem distinct_expressionVariants : Distinct expressionVariants :=
  ⟨by simp, by decide⟩

theorem distinct_memberVariants : Distinct memberVariants :=
  ⟨by simp, by decide⟩

/-- What may stand in a statement is reached as a statement. -/
theorem reached_statementVariants : ∀ v ∈ statementVariants, ∀ (k : Kind) (m : Message k),
    v.content = .message k → m.Reached →
      ∃ s, (Node.statement s).Accepted ∧ (Image.statement s).parts = [m.any] := by
  simp only [statementVariants, wrapped, List.forall_mem_cons]
  and_intros
  on_goal 15 => simp
  all_goals
    rintro k m ⟨⟩ hm
    exact hm

theorem reached_expressionVariants : ∀ v ∈ expressionVariants, ∀ (k : Kind) (m : Message k),
    v.content = .message k → m.Reached →
      ∃ e, (Node.expression e).Accepted ∧ (Image.expression e).parts = [m.any] := by
  simp only [expressionVariants, wrapped, List.forall_mem_cons]
  and_intros
  on_goal 26 => simp
  all_goals
    rintro k m ⟨⟩ hm
    exact hm

theorem reached_memberVariants : ∀ v ∈ memberVariants, ∀ (k : Kind) (m : Message k),
    v.content = .message k → m.Reached →
      ∃ x, (Node.member x).Accepted ∧ (Image.member x).parts = [m.any] := by
  simp only [memberVariants, List.forall_mem_cons]
  and_intros
  on_goal 5 => simp
  all_goals
    rintro k m ⟨⟩ hm
    exact hm

namespace Reached

theorem statement {slots : Slots (fields .statement)} (h : slots.Meets Any.IsReached) :
    Reached (.mk .statement slots) := by
  obtain ⟨v, hv, k, m, hk, hm, hparts⟩ := Slots.Meets.exists_part h distinct_statementVariants
  obtain ⟨s, hs, himage⟩ := reached_statementVariants v hv k m hk hm
  refine ⟨s, hs, ?_⟩
  match Image.statement s, himage with
  | .mk _ other, himage => rw [Slots.eq_of_parts distinct_statementVariants himage hparts]

theorem expression {slots : Slots (fields .expression)} (h : slots.Meets Any.IsReached) :
    Reached (.mk .expression slots) := by
  obtain ⟨v, hv, k, m, hk, hm, hparts⟩ := Slots.Meets.exists_part h distinct_expressionVariants
  obtain ⟨e, he, himage⟩ := reached_expressionVariants v hv k m hk hm
  refine ⟨e, he, ?_⟩
  match Image.expression e, himage with
  | .mk _ other, himage => rw [Slots.eq_of_parts distinct_expressionVariants himage hparts]

theorem objectField {slots : Slots (fields .objectField)} (h : slots.Meets Any.IsReached) :
    Reached (.mk .objectField slots) := by
  obtain ⟨v, hv, k, m, hk, hm, hparts⟩ := Slots.Meets.exists_part h distinct_memberVariants
  obtain ⟨x, hx, himage⟩ := reached_memberVariants v hv k m hk hm
  refine ⟨x, hx, ?_⟩
  match Image.member x, himage with
  | .mk _ other, himage => rw [Slots.eq_of_parts distinct_memberVariants himage hparts]

end Reached

/-! ### From the inside out -/

/-- A message is reached if its parts are. -/
theorem reached_of_parts {k : Kind} {slots : Slots (fields k)}
    (hvalid : (Message.mk k slots).violation? = none) (hx : (Message.mk k slots).Expressible)
    (hparts : ∀ c ∈ slots.parts, ¬ (k = .arrayExpression ∧ c = hole.any) → c.IsReached) :
    Reached (.mk k slots) := by
  by_cases harray : k = .arrayExpression
  · subst harray
    refine .arrayExpression (Slots.meets_of_valid hvalid fun c hc => ?_)
    by_cases hhole : c = hole.any
    · exact .inr hhole
    · exact .inl (hparts c hc fun h => hhole h.2)
  have hmeets : slots.Meets Any.IsReached :=
    Slots.meets_of_valid hvalid fun c hc => hparts c hc fun h => harray h.1
  cases k with
  | ast => exact .ast hmeets
  | parameter => exact .parameter hmeets
  | emptyStatement => exact .emptyStatement
  | blockStatement => exact .blockStatement hmeets
  | variableDeclarator => exact .variableDeclarator hmeets
  | variableDeclaration => exact .variableDeclaration hmeets
  | functionDeclaration => exact .functionDeclaration hmeets
  | returnStatement => exact .returnStatement hmeets
  | expressionStatement => exact .expressionStatement hmeets
  | ifStatement => exact .ifStatement hmeets
  | whileLoop => exact .whileLoop hmeets
  | doWhileLoop => exact .doWhileLoop hmeets
  | forLoop => exact .forLoop hmeets
  | forInLoop => exact .forInLoop hmeets
  | forOfLoop => exact .forOfLoop hmeets
  | catchClause => exact .catchClause hmeets
  | finallyClause => exact .finallyClause hmeets
  | tryStatement => exact .tryStatement hmeets
  | throwStatement => exact .throwStatement hmeets
  | statement => exact .statement hmeets
  | identifier => exact .identifier hmeets
  | numberLiteral => exact .numberLiteral
  | bigIntLiteral => exact .bigIntLiteral hmeets
  | stringLiteral => exact .stringLiteral
  | regExpLiteral => exact .regExpLiteral hmeets
  | booleanLiteral => exact .booleanLiteral
  | nullLiteral => exact .nullLiteral
  | thisExpression => exact .thisExpression
  | assignmentExpression => exact .assignmentExpression hmeets
  | objectProperty => exact .objectProperty hmeets hx
  | objectMethod => exact .objectMethod hmeets
  | objectGetter => exact .objectGetter hmeets
  | objectSetter => exact .objectSetter hmeets
  | objectField => exact .objectField hmeets
  | objectExpression => exact .objectExpression hmeets
  | arrayExpression => exact absurd rfl harray
  | functionExpression => exact .functionExpression hmeets
  | arrowFunctionExpression => exact .arrowFunctionExpression hmeets hx
  | callExpression => exact .callExpression hmeets
  | newExpression => exact .newExpression hmeets
  | memberExpression => exact .memberExpression hmeets
  | unaryExpression => exact .unaryExpression hmeets
  | binaryExpression => exact .binaryExpression hmeets
  | updateExpression => exact .updateExpression hmeets
  | yieldExpression => exact .yieldExpression hmeets
  | spreadElement => exact .spreadElement hmeets
  | intrinsicIdentifier => exact .intrinsicIdentifier hmeets
  | awaitExpression => exact .awaitExpression hmeets
  | ternaryExpression => exact .ternaryExpression hmeets
  | sequenceExpression => exact .sequenceExpression hmeets
  | expression => exact .expression hmeets

theorem reached_of_sound {m : Any} (h : Sound m)
    (hx : ∀ c : Any, c.Inside m → c.2.Expressible) : m.IsReached := by
  induction h with
  | @intro m valid _ ih =>
    obtain ⟨_, k, slots⟩ := m
    refine reached_of_parts valid (hx _ .refl) fun c hc hhole => ?_
    exact ih c hc hhole fun inner hinner => hx inner (.head hc hinner)

end Message

/-- A message is what some program is compiled to, under every limit that is large enough, if every
message inside it is well-formed but for holes in arrays, no arrow function is a generator, and
every index is at most `2 ^ 53` beside its sign. -/
theorem exists_compile_eq_ok (ast : Message .ast)
    (hvalid : ∀ m : Message.Any, m.Inside ast.any → m.2.violation? = none ∨ m = Message.hole.any)
    (hholes : ∀ m : Message.Any, m.Inside ast.any → Message.hole.any ∈ m.2.parts →
      m.1 = .arrayExpression)
    (hexpressible : ∀ m : Message.Any, m.Inside ast.any → m.2.Expressible) :
    ∃ (p : Program) (depth : Nat), ∀ limit, depth ≤ limit → compile limit p = .ok ast := by
  have hroot : ast.any ≠ Message.hole.any := by
    intro h
    cases (Sigma.mk.inj h).1
  have hsound := Message.Sound.of_inside hvalid hholes hroot
  obtain ⟨p, hp, rfl⟩ := Message.reached_of_sound hsound hexpressible
  refine ⟨p, p.depth, fun limit hlimit => ?_⟩
  exact compile_eq_ok_iff.mpr ⟨⟨hp, hlimit⟩, rfl⟩

/-- An array with a hole and an asynchronous arrow function, which gives an object with the largest
index that is allowed. -/
def sparseMessage : Message .ast :=
  Message.ast [Message.statement (Message.expressionStatement (Message.expression
    (Message.arrayExpression [Message.hole,
      Message.expression (Message.expressionArrow 2 [] (Message.expression
        (Message.objectExpression [Message.objectField
          (Message.indexedProperty 9007199254740992
            (Message.expression Message.nullLiteral))])))])))]

theorem exists_compile_eq_ok_sparse :
    ∃ (p : Program) (depth : Nat), ∀ limit, depth ≤ limit →
      compile limit p = .ok sparseMessage := by
  let Suited (m : Message.Any) : Prop := (m.2.violation? = none ∨ m = Message.hole.any) ∧
    (Message.hole.any ∈ m.2.parts → m.1 = .arrayExpression) ∧ m.2.Expressible
  -- Only the array has more than one part, or a hole for one.
  have step (m part : Message.Any) (hparts : m.2.parts = [part]) (hvalid : m.2.violation? = none)
      (hpart : part.2.violation? = none) (hx : m.2.Expressible)
      (h : ∀ inner : Message.Any, inner.Inside part → Suited inner) :
      ∀ inner : Message.Any, inner.Inside m → Suited inner := by
    refine Message.forall_inside_iff.mpr ⟨⟨.inl hvalid, fun hmem => ?_, hx⟩, ?_⟩
    · rw [hparts, List.mem_singleton] at hmem
      rw [← hmem] at hpart
      cases hpart
    · rw [hparts]
      exact List.forall_mem_singleton.mpr h
  have leaf (m : Message.Any) (hparts : m.2.parts = []) (hx : m.2.Expressible)
      (h : m.2.violation? = none ∨ m = Message.hole.any) :
      ∀ inner : Message.Any, inner.Inside m → Suited inner := by
    refine Message.forall_inside_iff.mpr ⟨⟨h, ?_, hx⟩, ?_⟩ <;> rw [hparts] <;>
      simp only [List.not_mem_nil, false_implies, implies_true]
  have harrow : ∀ m : Message.Any, m.Inside (Message.expression (Message.expressionArrow 2 []
      (Message.expression (Message.objectExpression [Message.objectField
        (Message.indexedProperty 9007199254740992
          (Message.expression Message.nullLiteral))])))).any → Suited m := by
    refine step _ _ rfl rfl rfl trivial ?_
    refine step _ _ rfl rfl rfl (.inr rfl) ?_
    refine step _ _ rfl rfl rfl trivial ?_
    refine step _ _ rfl rfl rfl trivial ?_
    refine step _ _ rfl rfl rfl trivial ?_
    refine step _ _ rfl rfl rfl (show Int.natAbs _ ≤ _ by decide) ?_
    refine step _ _ rfl rfl rfl trivial ?_
    exact leaf _ rfl trivial (.inl rfl)
  have harray : ∀ m : Message.Any, m.Inside sparseMessage.any → Suited m := by
    refine step _ _ rfl rfl rfl trivial ?_
    refine step _ _ rfl rfl rfl trivial ?_
    refine step _ _ rfl rfl rfl trivial ?_
    refine step _ _ rfl rfl rfl trivial ?_
    refine Message.forall_inside_iff.mpr ⟨⟨.inl rfl, fun _ => rfl, trivial⟩, ?_⟩
    refine List.forall_mem_cons.mpr ⟨leaf _ rfl trivial (.inr rfl), ?_⟩
    exact List.forall_mem_singleton.mpr harrow
  exact exists_compile_eq_ok sparseMessage (fun m hm => (harray m hm).1)
    (fun m hm => (harray m hm).2.1) fun m hm => (harray m hm).2.2

end ScriptWire
