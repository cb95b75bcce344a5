import ScriptWire.Proofs.Lowering.Image
import ScriptWire.Proofs.Message.Sound
import ScriptWire.Proofs.Tree.Grammar

/-!
# The messages of accepted nodes are sound

## Main definitions

- `Tree.Node.image` — the message of a node, with its kind

## Main results

- `Tree.Node.sound_image`, `Tree.Program.sound_image` — the messages of accepted nodes and programs
  are well-formed throughout
-/

namespace ScriptWire

namespace Tree

open Message (Sound)

/-- The message of a node, with its kind. -/
def Node.image : Node → Message.Any
  | .statement s => (Image.statement s).any
  | .expression e => (Image.expression e).any
  | .pattern p => (Image.parameter p).any
  | .member m => (Image.member m).any
  | .declarator d => (Image.declarator d).any
  | .countingHead head => (Image.head head).any
  | .iterationHead _ head => (Image.head head).any
  | .catchClause clause => (Image.catchClause clause).any

theorem keyword_range (word : String) :
    0 ≤ (Image.keyword word).toInt ∧ (Image.keyword word).toInt < 3 := by
  unfold Image.keyword
  split
  · decide
  · split <;> decide

theorem functionType_range (generator isAsync : Bool) :
    0 ≤ (Lowering.functionType generator isAsync).toInt ∧
      (Lowering.functionType generator isAsync).toInt < 4 := by
  cases generator <;> cases isAsync <;> decide

/-- The head of a loop over keys or elements has a message without a first value. -/
theorem ForInit.Bare.head_eq {head : ForInit} (h : head.Bare) :
    ∃ name, Image.head head = Message.variableDeclarator name none := by
  obtain ⟨kind, id, rfl, _⟩ := h
  exact ⟨Image.name id, rfl⟩

section Lists

variable {α : Type} {k : Message.Kind} {f : α → Message k}

theorem sound_of_mem_map {l : List α} (h : ∀ a ∈ l, Sound (f a).any) :
    ∀ m ∈ l.map f, Sound m.any :=
  List.forall_mem_map.mpr h

theorem sound_of_mem_option {o : Option α} (h : ∀ a, o = some a → Sound (f a).any) :
    ∀ m ∈ o.map f, Sound m.any := by
  intro m hm
  obtain ⟨a, ha, rfl⟩ := Option.map_eq_some_iff.mp hm
  exact h a ha

end Lists

/-- The message of a statement that follows its rule is sound if those of its children are. -/
theorem Statement.Regular.sound_image {s : Statement} (hs : s.Regular)
    (hc : ∀ c ∈ s.children, c.Regular) (ih : ∀ c ∈ s.children, Sound c.image) :
    Sound (Image.statement s).any := by
  cases s with
  | emptyStatement => exact Sound.emptyStatement.statement
  | blockStatement body =>
    simp only [Statement.children, List.forall_mem_map] at ih
    rw [Image.statement, Image.statements_eq_map]
    exact (Sound.blockStatement (sound_of_mem_map ih)).statement
  | expressionStatement e =>
    exact (Sound.expressionStatement (ih (.expression e) (by simp [Statement.children]))).statement
  | variableDeclaration kind declarations =>
    simp only [Statement.children, List.forall_mem_map] at ih
    rw [Image.statement, Image.declarators_eq_map]
    refine (Sound.variableDeclaration (keyword_range kind) ?_ (sound_of_mem_map ih)).statement
    simpa using hs.2
  | functionDeclaration id params body generator isAsync =>
    obtain ⟨name, rfl, hname⟩ := hs
    simp only [Statement.children, List.forall_mem_append, List.forall_mem_map] at ih
    rw [Image.statement, Image.statements_eq_map]
    exact (Sound.functionDeclaration hname (functionType_range _ _) (sound_of_mem_map ih.1)
      (sound_of_mem_map ih.2)).statement
  | returnStatement argument =>
    simp only [Statement.children, List.forall_mem_map, Option.mem_toList] at ih
    rw [Image.statement, Image.expression?_eq_map]
    exact (Sound.returnStatement (sound_of_mem_option ih)).statement
  | ifStatement test consequent alternate =>
    simp only [Statement.children, List.forall_mem_cons, List.forall_mem_map,
      Option.mem_toList] at ih
    rw [Image.statement, Image.statement?_eq_map]
    exact (Sound.ifStatement ih.1 ih.2.1 (sound_of_mem_option ih.2.2)).statement
  | whileStatement test body =>
    simp only [Statement.children, List.forall_mem_cons] at ih
    exact (Sound.whileLoop ih.1 ih.2.1).statement
  | doWhileStatement body test =>
    simp only [Statement.children, List.forall_mem_cons] at ih
    exact (Sound.doWhileLoop ih.1 ih.2.1).statement
  | forStatement init test update body =>
    obtain ⟨hinit, htest, hupdate⟩ := hs
    obtain ⟨init, rfl⟩ := Option.isSome_iff_exists.mp hinit
    obtain ⟨test, rfl⟩ := Option.isSome_iff_exists.mp htest
    obtain ⟨update, rfl⟩ := Option.isSome_iff_exists.mp hupdate
    simp only [Statement.children, List.forall_mem_append, List.forall_mem_map, Option.mem_toList,
      Option.some.injEq, forall_eq', List.forall_mem_singleton] at ih
    exact (Sound.forLoop ih.1.1.1 ih.1.1.2 ih.1.2 ih.2).statement
  | forInStatement left right body =>
    simp only [Statement.children, List.forall_mem_cons] at hc ih
    obtain ⟨name, hleft⟩ := ForInit.Bare.head_eq hc.1
    have hsound : Sound (Image.head left).any := ih.1
    rw [Image.statement, hleft]
    exact (Sound.forInLoop (hleft ▸ hsound) ih.2.1 ih.2.2.1).statement
  | forOfStatement left right body isAwait =>
    simp only [Statement.children, List.forall_mem_cons] at hc ih
    obtain ⟨name, hleft⟩ := ForInit.Bare.head_eq hc.1
    have hsound : Sound (Image.head left).any := ih.1
    rw [Image.statement, hleft]
    exact (Sound.forOfLoop (hleft ▸ hsound) ih.2.1 ih.2.2.1).statement
  | tryStatement block handler finalizer =>
    simp only [Statement.children, List.forall_mem_append, List.forall_mem_map, Option.mem_toList,
      List.mem_flatten] at ih
    rw [Image.statement, Image.statements_eq_map, Image.catchClause?_eq_map,
      Image.finallyClause?_eq_map]
    refine (Sound.tryStatement ?_ (sound_of_mem_map ih.1.1) (sound_of_mem_option ih.1.2)
      (sound_of_mem_option fun b hb => ?_)).statement
    · rw [Option.isSome_map, Option.isSome_map]
      exact hs
    · exact Sound.finallyClause (sound_of_mem_map fun s hs => ih.2 s ⟨b, hb, hs⟩)
  | throwStatement argument =>
    simp only [Statement.children, List.forall_mem_cons] at ih
    exact (Sound.throwStatement ih.1).statement
  | unsupported kind => exact hs.elim

/-- The message of an expression that follows its rule is sound if those of its children are. -/
theorem Expression.Regular.sound_image {e : Expression} (he : e.Regular)
    (ih : ∀ c ∈ e.children, Sound c.image) : Sound (Image.expression e).any := by
  cases e with
  | identifier name => exact (Sound.identifier he).expression
  | numericLiteral value => exact Sound.numberLiteral.expression
  | bigIntLiteral value => exact (Sound.bigIntLiteral he).expression
  | stringLiteral value => exact Sound.stringLiteral.expression
  | regExpLiteral pattern flags => exact (Sound.regExpLiteral he).expression
  | booleanLiteral value => exact Sound.booleanLiteral.expression
  | nullLiteral => exact Sound.nullLiteral.expression
  | thisExpression => exact Sound.thisExpression.expression
  | intrinsicIdentifier name => exact (Sound.intrinsicIdentifier he).expression
  | assignmentExpression operator left right =>
    simp only [Expression.children, List.forall_mem_cons] at ih
    exact (Sound.assignmentExpression he ih.1 ih.2.1).expression
  | objectExpression properties =>
    simp only [Expression.children, List.forall_mem_map] at ih
    rw [Image.expression, Image.members_eq_map]
    exact (Sound.objectExpression (sound_of_mem_map ih)).expression
  | arrayExpression elements =>
    rw [Image.expression, Image.elements_eq_map]
    refine (Sound.arrayExpression (List.forall_mem_map.mpr fun element hmem => ?_)).expression
    cases element with
    | none => exact .inr rfl
    | some e =>
      refine .inl (ih (.expression e) ?_)
      exact List.mem_flatMap.mpr ⟨some e, hmem, by simp⟩
  | functionExpression id params body generator isAsync =>
    simp only [Expression.children, List.forall_mem_append, List.forall_mem_map] at ih
    rw [Image.expression, Image.statements_eq_map]
    exact (Sound.functionExpression (functionType_range _ _) (sound_of_mem_map ih.1)
      (sound_of_mem_map ih.2)).expression
  | arrowFunctionExpression id params body generator isAsync =>
    simp only [Expression.children, List.forall_mem_append, List.forall_mem_map] at ih
    cases body with
    | blockStatement body =>
      simp only [ArrowBody.children, List.forall_mem_map] at ih
      rw [Image.expression, Image.arrow, Image.statements_eq_map]
      exact (Sound.blockArrow (functionType_range _ _) (sound_of_mem_map ih.1)
        (sound_of_mem_map ih.2)).expression
    | expression e =>
      simp only [ArrowBody.children, List.forall_mem_singleton] at ih
      exact (Sound.expressionArrow (functionType_range _ _) (sound_of_mem_map ih.1)
        ih.2).expression
  | callExpression callee arguments =>
    simp only [Expression.children, List.forall_mem_cons, List.forall_mem_map] at ih
    rw [Image.expression, Image.expressions_eq_map]
    exact (Sound.callExpression ih.1 (sound_of_mem_map ih.2)).expression
  | newExpression callee arguments =>
    simp only [Expression.children, List.forall_mem_cons, List.forall_mem_map] at ih
    rw [Image.expression, Image.expressions_eq_map]
    exact (Sound.newExpression ih.1 (sound_of_mem_map ih.2)).expression
  | memberExpression object property computed =>
    cases computed with
    | true =>
      simp only [Expression.children, List.forall_mem_cons, if_true] at ih
      exact (Sound.computedMember ih.1 ih.2.1).expression
    | false =>
      simp only [Expression.children, List.forall_mem_cons] at ih
      obtain h | ⟨name, rfl, hname⟩ := he
      · cases h
      · exact (Sound.namedMember ih.1 hname).expression
  | unaryExpression operator isPrefix argument =>
    simp only [Expression.children, List.forall_mem_cons] at ih
    exact (Sound.unaryExpression he.2 ih.1).expression
  | binaryExpression operator left right =>
    simp only [Expression.children, List.forall_mem_cons] at ih
    exact (Sound.binaryExpression he ih.1 ih.2.1).expression
  | logicalExpression operator left right =>
    simp only [Expression.children, List.forall_mem_cons] at ih
    exact (Sound.binaryExpression he ih.1 ih.2.1).expression
  | updateExpression operator isPrefix argument =>
    simp only [Expression.children, List.forall_mem_cons] at ih
    exact (Sound.updateExpression he ih.1).expression
  | yieldExpression argument delegate =>
    simp only [Expression.children, List.forall_mem_map, Option.mem_toList] at ih
    rw [Image.expression, Image.expression?_eq_map]
    exact (Sound.yieldExpression (sound_of_mem_option ih)).expression
  | awaitExpression argument =>
    simp only [Expression.children, List.forall_mem_cons] at ih
    exact (Sound.awaitExpression ih.1).expression
  | conditionalExpression test consequent alternate =>
    simp only [Expression.children, List.forall_mem_cons] at ih
    exact (Sound.ternaryExpression ih.1 ih.2.1 ih.2.2.1).expression
  | sequenceExpression expressions =>
    simp only [Expression.children, List.forall_mem_map] at ih
    rw [Image.expression, Image.expressions_eq_map]
    refine (Sound.sequenceExpression ?_ (sound_of_mem_map ih)).expression
    rw [List.length_map]
    exact he
  | spreadElement argument =>
    simp only [Expression.children, List.forall_mem_cons] at ih
    exact (Sound.spreadElement ih.1).expression
  | unsupported kind => exact he.elim

theorem Pattern.Regular.sound_image {p : Pattern} (hp : p.Regular) :
    Sound (Image.parameter p).any := by
  obtain ⟨name, rfl, hname⟩ := hp
  exact Sound.parameter hname

/-- The message of a member that follows its rule is sound if those of its children are. -/
theorem Member.Regular.sound_image {m : Member} (hm : m.Regular)
    (ih : ∀ c ∈ m.children, Sound c.image) : Sound (Image.member m).any := by
  cases m with
  | objectProperty key value computed shorthand method =>
    cases computed with
    | true =>
      simp only [Member.children, if_true, List.forall_mem_append, List.forall_mem_singleton] at ih
      exact (Sound.computedProperty ih.1 ih.2).objectField
    | false =>
      have hvalue : Sound (Image.expression value).any :=
        ih (.expression value) (by simp [Member.children])
      obtain ⟨_, _, h | hkey⟩ := hm
      · cases h
      · cases key with
        | numericLiteral number => exact (Sound.indexedProperty hvalue).objectField
        | _ => exact (Sound.namedProperty hvalue).objectField
  | objectMethod kind key params body computed shorthand generator isAsync =>
    simp only [Member.children, List.forall_mem_append, List.forall_mem_map] at ih
    obtain ⟨_, _, _, hkind⟩ := hm
    cases kind with
    | method =>
      rw [Image.member, Image.statements_eq_map]
      exact (Sound.objectMethod (functionType_range _ _) (sound_of_mem_map ih.1)
        (sound_of_mem_map ih.2)).objectField
    | getter =>
      rw [Image.member, Image.statements_eq_map]
      exact (Sound.objectGetter (sound_of_mem_map ih.2)).objectField
    | setter =>
      obtain ⟨p, rfl⟩ := List.length_eq_one_iff.mp hkind.2.2
      rw [Image.member, Image.statements_eq_map]
      exact (Sound.objectSetter (ih.1 p (by simp)) (sound_of_mem_map ih.2)).objectField
  | spreadElement argument => exact hm.elim
  | unsupported kind => exact hm.elim

namespace Node

theorem sound_image_declarator {d : Declarator}
    (hc : ∀ c ∈ (Node.declarator d).children, c.Regular)
    (ih : ∀ c ∈ (Node.declarator d).children, Sound c.image) :
    Sound (Image.declarator d).any := by
  obtain ⟨id, init⟩ := d
  simp only [children, List.forall_mem_cons, List.forall_mem_map, Option.mem_toList] at hc ih
  obtain ⟨name, rfl, hname⟩ := hc.1
  rw [Image.declarator, Image.expression?_eq_map]
  exact Sound.variableDeclarator hname (sound_of_mem_option ih.2)

/-- The message of an accepted node is well-formed throughout. -/
theorem sound_image {n : Node} (h : n.Accepted) : Sound n.image := by
  induction n using induction_on_children with
  | step n ih =>
    obtain ⟨hn, haccepted⟩ := accepted_iff.mp h
    have hc : ∀ c ∈ n.children, c.Regular := fun c hmem => (accepted_iff.mp (haccepted c hmem)).1
    have hs : ∀ c ∈ n.children, Sound c.image := fun c hmem => ih c hmem (haccepted c hmem)
    -- The induction gives the children as sound messages; their rules are needed for loop heads.
    cases n with
    | statement s => exact Statement.Regular.sound_image hn hc hs
    | expression e => exact Expression.Regular.sound_image hn hs
    | pattern p => exact Pattern.Regular.sound_image hn
    | member m => exact Member.Regular.sound_image hn hs
    | declarator d => exact sound_image_declarator hc hs
    | countingHead head =>
      obtain ⟨kind, d, rfl, _⟩ := hn
      exact hs (.declarator d) (by simp [children, ForInit.children])
    | iterationHead loop head =>
      obtain ⟨kind, id, rfl, _⟩ := hn
      exact hs (.declarator (.mk id none)) (by simp [children, ForInit.children])
    | catchClause clause =>
      obtain ⟨param, body⟩ := clause
      simp only [children, List.forall_mem_append, List.forall_mem_map, Option.mem_toList] at hs
      rw [image, Image.catchClause, Image.statements_eq_map]
      exact Sound.catchClause (sound_of_mem_option hs.1) (sound_of_mem_map hs.2)

end Node

/-- The message of an accepted program is well-formed throughout. -/
theorem Program.sound_image {p : Program} (h : p.Accepted) : Sound (Image.program p).any := by
  rw [Image.program, Image.statements_eq_map]
  exact Sound.ast (sound_of_mem_map fun s hs => Node.sound_image (h s hs))

end Tree

end ScriptWire
