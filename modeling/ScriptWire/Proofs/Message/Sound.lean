import ScriptWire.Proofs.Message.Part

/-!
# Messages that are well-formed throughout

A message is checked without its parts. A sound message is well-formed together with all the
messages inside it; only an array may have parts that are not, its holes.

## Main definitions

- `Message.Sound` — a message is well-formed throughout
- `Message.Slots.Sound`, `Message.Slot.Sound` — what fields must hold in a sound message

## Main results

- `Message.Sound.inside`, `Message.Sound.of_inside` — what soundness says of every message inside a
  sound one
- `Message.Sound.whileLoop`, … — the built messages are sound if their parts are
-/

namespace ScriptWire

namespace Message

/-- A message is well-formed, and so are its parts and theirs. An array may have holes. -/
inductive Sound : Any → Prop
  | intro {m : Any} (valid : m.2.violation? = none)
      (parts : ∀ c ∈ m.2.parts, ¬ (m.1 = .arrayExpression ∧ c = hole.any) → Sound c) : Sound m

namespace Sound

theorem valid {m : Any} (h : Sound m) : m.2.violation? = none := by
  cases h with
  | intro valid _ => exact valid

theorem parts {m : Any} (h : Sound m) :
    ∀ c ∈ m.2.parts, ¬ (m.1 = .arrayExpression ∧ c = hole.any) → Sound c := by
  cases h with
  | intro _ parts => exact parts

/-- The only part of a sound message is sound. -/
theorem only_part {outerKind k : Kind} {outer : Message outerKind} {m : Message k}
    (h : Sound outer.any) (hparts : outer.parts = [m.any]) (hkind : outerKind ≠ .arrayExpression) :
    Sound m.any := by
  refine h.parts m.any ?_ fun hc => hkind hc.1
  exact hparts ▸ List.mem_singleton_self _

/-- Inside a sound message every message is sound or a hole. -/
theorem inside {outer inner : Any} (h : Sound outer) (hi : inner.Inside outer) :
    Sound inner ∨ inner = hole.any := by
  induction hi with
  | refl => exact .inl h
  | @tail m c _ hmem ih =>
    rcases ih with hs | rfl
    · by_cases hc : m.1 = .arrayExpression ∧ c = hole.any
      · exact .inr hc.2
      · exact .inl (hs.parts _ hmem hc)
    · cases hmem

/-- A message is sound if every message inside it is well-formed or a hole in an array. -/
theorem of_inside {m : Any}
    (hvalid : ∀ c : Any, c.Inside m → c.2.violation? = none ∨ c = hole.any)
    (hholes : ∀ c : Any, c.Inside m → hole.any ∈ c.2.parts → c.1 = .arrayExpression)
    (hm : m ≠ hole.any) : Sound m := by
  refine .intro ((hvalid m .refl).resolve_right hm) fun c hc hnot => ?_
  refine of_inside ?_ ?_ ?_
  · intro inner hinner
    exact hvalid inner (.head hc hinner)
  · intro inner hinner
    exact hholes inner (.head hc hinner)
  · rintro rfl
    exact hnot ⟨hholes m .refl hc, rfl⟩
termination_by m.2.depth
decreasing_by exact depth_lt_of_mem_parts hc

end Sound

/-- What a field must hold in a sound message. -/
def Slot.Sound (name : String) (r : Requirement) (next : Bool) {shape : Shape} (slot : Slot shape) :
    Prop :=
  slot.fault? name r next = none ∧ ∀ c ∈ slot.parts, Message.Sound c

/-- What fields must hold in a sound message. -/
def Slots.Sound : {fs : List Field} → Slots fs → Prop
  | [], .nil => True
  | f :: _, .cons head tail => head.Sound f.name f.requirement tail.firstPresent ∧ tail.Sound

theorem Slots.Sound.fault?_eq_none :
    {fs : List Field} → {slots : Slots fs} → slots.Sound → slots.fault? = none
  | [], .nil, _ => rfl
  | _ :: _, .cons head tail, h => by
    obtain ⟨hhead, htail⟩ := h
    rw [Slots.fault?, hhead.1, htail.fault?_eq_none]
    rfl

theorem Slots.Sound.parts :
    {fs : List Field} → {slots : Slots fs} → slots.Sound → ∀ c ∈ slots.parts, Message.Sound c
  | [], .nil, _ => by simp [Slots.parts]
  | _ :: _, .cons head tail, h => by
    obtain ⟨hhead, htail⟩ := h
    rw [Slots.parts, List.forall_mem_append]
    exact ⟨hhead.2, htail.parts⟩

/-- A message whose fields hold what they must is sound. -/
theorem Sound.mk {k : Kind} {slots : Slots (fields k)} (h : slots.Sound) :
    Sound (Message.mk k slots).any := by
  refine .intro ?_ fun c hc _ => h.parts c hc
  simp [any, violation?, h.fault?_eq_none]

/-- A sound expression has its variant. -/
theorem Sound.isFilled_expression {m : Message .expression} (h : Sound m.any) :
    m.isFilled = true := by
  match m, h.valid with
  | .mk _ (.cons .unset .nil), hv => cases hv
  | .mk _ (.cons (.set choice) .nil), _ => rfl

/-- A sound statement has its variant. -/
theorem Sound.isFilled_statement {m : Message .statement} (h : Sound m.any) :
    m.isFilled = true := by
  match m, h.valid with
  | .mk _ (.cons .unset .nil), hv => cases hv
  | .mk _ (.cons (.set choice) .nil), _ => rfl

/-- A sound parameter has a name. -/
theorem Sound.isNamed_parameter {m : Message .parameter} (h : Sound m.any) : m.isNamed = true := by
  match m, h.valid with
  | .mk _ (.cons (.plain name) .nil), hv =>
    have hname : (name : String) ≠ "" := by
      rintro rfl
      cases hv
    simpa [isNamed, Slots.isNamed, Slot.isNamed] using hname

theorem Choice.fault?_here {v : Variant} {vs : List Variant} {payload : Payload v.content}
    (h : payload.problem? v.requirement = none) :
    (Choice.here payload : Choice (v :: vs)).fault? = none := by
  rw [Choice.fault?, h]
  rfl

theorem Payload.problem?_filled {m : Message .expression} (h : Sound m.any) :
    (Payload.message m).problem? .filled = none := by
  simp [Payload.problem?, partProblem?, h.isFilled_expression]

theorem Payload.problem?_nonEmpty {value : String} (h : value ≠ "") :
    (Payload.scalar value : Payload (.scalar .text)).problem? .nonEmpty = none := by
  simp [Payload.problem?, Scalar.problem?, h]

namespace Slot.Sound

variable {name : String} {next : Bool} {number : Nat} {k : Kind}

theorem text {value : String} (h : value ≠ "") :
    (Slot.plain value : Slot (.plain number .text)).Sound name .nonEmpty next := by
  refine ⟨?_, by simp [Slot.parts]⟩
  simp [Slot.fault?, Scalar.problem?, h]

theorem free {type : Scalar} {value : type.Carrier} :
    (Slot.plain value : Slot (.plain number type)).Sound name .free next := by
  refine ⟨?_, by simp [Slot.parts]⟩
  cases type <;> rfl

theorem choice {value : Int32} {count : Nat} (h : 0 ≤ value.toInt ∧ value.toInt < count) :
    (Slot.plain value : Slot (.plain number .choice)).Sound name (.known count) next := by
  refine ⟨?_, by simp [Slot.parts]⟩
  simp [Slot.fault?, Scalar.problem?, h]

theorem oneOf {value : String} {words : List String} (h : value ∈ words) :
    (Slot.plain value : Slot (.plain number .text)).Sound name (.oneOf words) next := by
  refine ⟨?_, by simp [Slot.parts]⟩
  simp [Slot.fault?, Scalar.problem?, h]

theorem present {r : Requirement} {m : Message k} (hr : partProblem? r m = none)
    (h : Message.Sound m.any) :
    (Slot.present m : Slot (.optional number k)).Sound name r next := by
  refine ⟨?_, by simpa [Slot.parts] using h⟩
  rw [Slot.fault?, hr]
  rfl

theorem absent {r : Requirement} (hr : absentProblem? r next = none) :
    (Slot.absent : Slot (.optional number k)).Sound name r next := by
  refine ⟨?_, by simp [Slot.parts]⟩
  rw [Slot.fault?, hr]
  rfl

theorem ofList {r : Requirement} {ms : List (Message k)} (hr : listProblem? r ms = none)
    (h : ∀ m ∈ ms, Message.Sound m.any) :
    (Slot.ofList ms : Slot (.repeated number k)).Sound name r next := by
  refine ⟨?_, by simpa using h⟩
  rw [Slot.ofList, Slot.fault?, Sequence.toList_ofList, hr]
  rfl

theorem set {r : Requirement} {vs : List Variant} {c : Choice vs} (hr : c.fault? = none)
    (h : ∀ m ∈ c.parts, Message.Sound m) :
    (Slot.set c : Slot (.union vs)).Sound name r next :=
  ⟨hr, h⟩

theorem expression {m : Message .expression} (h : Message.Sound m.any) :
    (Slot.present m : Slot (.optional number .expression)).Sound name .filled next :=
  present (by simp [partProblem?, h.isFilled_expression]) h

theorem statement {m : Message .statement} (h : Message.Sound m.any) :
    (Slot.present m : Slot (.optional number .statement)).Sound name .filled next :=
  present (by simp [partProblem?, h.isFilled_statement]) h

theorem expression? {m : Option (Message .expression)} (h : ∀ e ∈ m, Message.Sound e.any) :
    (Slot.ofOption m : Slot (.optional number .expression)).Sound name .filledIfGiven next := by
  cases m with
  | none => exact absent rfl
  | some e => exact present (by simp [partProblem?, (h e rfl).isFilled_expression]) (h e rfl)

theorem statement? {m : Option (Message .statement)} (h : ∀ s ∈ m, Message.Sound s.any) :
    (Slot.ofOption m : Slot (.optional number .statement)).Sound name .filledIfGiven next := by
  cases m with
  | none => exact absent rfl
  | some s => exact present (by simp [partProblem?, (h s rfl).isFilled_statement]) (h s rfl)

theorem list {ms : List (Message k)} (h : ∀ m ∈ ms, Message.Sound m.any) :
    (Slot.ofList ms : Slot (.repeated number k)).Sound name .free next :=
  ofList rfl h

theorem expressions {ms : List (Message .expression)} (h : ∀ e ∈ ms, Message.Sound e.any) :
    (Slot.ofList ms : Slot (.repeated number .expression)).Sound name .eachFilled next := by
  refine ofList ?_ h
  have hfilled : ms.all isFilled = true :=
    List.all_eq_true.mpr fun e he => (h e he).isFilled_expression
  simp [listProblem?, hfilled]

theorem severalExpressions {ms : List (Message .expression)} (hlength : 2 ≤ ms.length)
    (h : ∀ e ∈ ms, Message.Sound e.any) :
    (Slot.ofList ms : Slot (.repeated number .expression)).Sound name .severalFilled next := by
  refine ofList ?_ h
  have hfilled : ms.all isFilled = true :=
    List.all_eq_true.mpr fun e he => (h e he).isFilled_expression
  simp [listProblem?, hfilled, Nat.not_lt.mpr hlength]

theorem parameter? {m : Option (Message .parameter)} (h : ∀ p ∈ m, Message.Sound p.any) :
    (Slot.ofOption m : Slot (.optional number .parameter)).Sound name .namedIfGiven next := by
  cases m with
  | none => exact absent rfl
  | some p => exact present (by simp [partProblem?, (h p rfl).isNamed_parameter]) (h p rfl)

end Slot.Sound

namespace Sound

variable {k : Kind} {name operator : String} {type : Int32} {m : Message k}
  {test left right object property : Message .expression} {body : Message .statement}
  {argument value : Option (Message .expression)} {arguments : List (Message .expression)}
  {parameters : List (Message .parameter)} {block : List (Message .statement)}

theorem statement [Holds statementVariants k] [LawfulHolds statementVariants k] (h : Sound m.any) :
    Sound (Message.statement m).any := by
  refine .mk ⟨.set (LawfulHolds.fault?_choose m) ?_, trivial⟩
  rw [LawfulHolds.parts_choose]
  simpa using h

theorem expression [Holds expressionVariants k] [LawfulHolds expressionVariants k]
    (h : Sound m.any) : Sound (Message.expression m).any := by
  refine .mk ⟨.set (LawfulHolds.fault?_choose m) ?_, trivial⟩
  rw [LawfulHolds.parts_choose]
  simpa using h

theorem objectField [Holds memberVariants k] [LawfulHolds memberVariants k] (h : Sound m.any) :
    Sound (Message.objectField m).any := by
  refine .mk ⟨.set (LawfulHolds.fault?_choose m) ?_, trivial⟩
  rw [LawfulHolds.parts_choose]
  simpa using h

theorem ast (h : ∀ s ∈ block, Sound s.any) : Sound (Message.ast block).any :=
  .mk ⟨.list h, trivial⟩

theorem parameter (h : name ≠ "") : Sound (Message.parameter name).any :=
  .mk ⟨.text h, trivial⟩

theorem emptyStatement : Sound Message.emptyStatement.any :=
  .mk trivial

theorem blockStatement (h : ∀ s ∈ block, Sound s.any) : Sound (Message.blockStatement block).any :=
  .mk ⟨.list h, trivial⟩

theorem variableDeclarator (hn : name ≠ "") (hv : ∀ e ∈ value, Sound e.any) :
    Sound (Message.variableDeclarator name value).any :=
  .mk ⟨.text hn, .expression? hv, trivial⟩

theorem variableDeclaration {declarations : List (Message .variableDeclarator)}
    (ht : 0 ≤ type.toInt ∧ type.toInt < 3) (hne : declarations ≠ [])
    (hd : ∀ d ∈ declarations, Sound d.any) :
    Sound (Message.variableDeclaration type declarations).any :=
  .mk ⟨.choice ht, .ofList (by simp [listProblem?, hne]) hd, trivial⟩

theorem functionDeclaration (hn : name ≠ "") (ht : 0 ≤ type.toInt ∧ type.toInt < 4)
    (hp : ∀ p ∈ parameters, Sound p.any) (hb : ∀ s ∈ block, Sound s.any) :
    Sound (Message.functionDeclaration name type parameters block).any :=
  .mk ⟨.text hn, .choice ht, .list hp, .list hb, trivial⟩

theorem returnStatement (h : ∀ e ∈ argument, Sound e.any) :
    Sound (Message.returnStatement argument).any :=
  .mk ⟨.expression? h, trivial⟩

theorem expressionStatement (h : Sound test.any) : Sound (Message.expressionStatement test).any :=
  .mk ⟨.expression h, trivial⟩

theorem ifStatement {alternate : Option (Message .statement)} (ht : Sound test.any)
    (hb : Sound body.any) (ha : ∀ s ∈ alternate, Sound s.any) :
    Sound (Message.ifStatement test body alternate).any :=
  .mk ⟨.expression ht, .statement hb, .statement? ha, trivial⟩

theorem whileLoop (ht : Sound test.any) (hb : Sound body.any) :
    Sound (Message.whileLoop test body).any :=
  .mk ⟨.expression ht, .statement hb, trivial⟩

theorem doWhileLoop (hb : Sound body.any) (ht : Sound test.any) :
    Sound (Message.doWhileLoop body test).any :=
  .mk ⟨.statement hb, .expression ht, trivial⟩

theorem forLoop {init : Message .variableDeclarator} (hi : Sound init.any) (ht : Sound test.any)
    (hu : Sound right.any) (hb : Sound body.any) :
    Sound (Message.forLoop init test right body).any :=
  .mk ⟨.present rfl hi, .expression ht, .expression hu, .statement hb, trivial⟩

theorem forInLoop (hl : Sound (Message.variableDeclarator name none).any) (hr : Sound right.any)
    (hb : Sound body.any) :
    Sound (Message.forInLoop (Message.variableDeclarator name none) right body).any :=
  .mk ⟨.present rfl hl, .expression hr, .statement hb, trivial⟩

theorem forOfLoop (hl : Sound (Message.variableDeclarator name none).any) (hr : Sound right.any)
    (hb : Sound body.any) :
    Sound (Message.forOfLoop (Message.variableDeclarator name none) right body).any :=
  .mk ⟨.present rfl hl, .expression hr, .statement hb, trivial⟩

theorem catchClause {parameter : Option (Message .parameter)} (hp : ∀ p ∈ parameter, Sound p.any)
    (hb : ∀ s ∈ block, Sound s.any) : Sound (Message.catchClause parameter block).any :=
  .mk ⟨.parameter? hp, .list hb, trivial⟩

theorem finallyClause (h : ∀ s ∈ block, Sound s.any) : Sound (Message.finallyClause block).any :=
  .mk ⟨.list h, trivial⟩

theorem tryStatement {handler : Option (Message .catchClause)}
    {finalizer : Option (Message .finallyClause)}
    (hclause : handler.isSome = true ∨ finalizer.isSome = true) (hb : ∀ s ∈ block, Sound s.any)
    (hh : ∀ c ∈ handler, Sound c.any) (hf : ∀ c ∈ finalizer, Sound c.any) :
    Sound (Message.tryStatement block handler finalizer).any := by
  cases handler with
  | some c =>
    cases finalizer with
    | none => exact .mk ⟨.list hb, .present rfl (hh c rfl), .absent rfl, trivial⟩
    | some f => exact .mk ⟨.list hb, .present rfl (hh c rfl), .present rfl (hf f rfl), trivial⟩
  | none =>
    cases finalizer with
    | none => simp at hclause
    | some f => exact .mk ⟨.list hb, .absent rfl, .present rfl (hf f rfl), trivial⟩

theorem throwStatement (h : Sound test.any) : Sound (Message.throwStatement test).any :=
  .mk ⟨.expression h, trivial⟩

theorem identifier (h : name ≠ "") : Sound (Message.identifier name).any :=
  .mk ⟨.text h, trivial⟩

theorem numberLiteral {value : Binary64} : Sound (Message.numberLiteral value).any :=
  .mk ⟨.free, trivial⟩

theorem bigIntLiteral (h : name ≠ "") : Sound (Message.bigIntLiteral name).any :=
  .mk ⟨.text h, trivial⟩

theorem stringLiteral {value : String} : Sound (Message.stringLiteral value).any :=
  .mk ⟨.free, trivial⟩

theorem regExpLiteral {flags : String} (h : name ≠ "") :
    Sound (Message.regExpLiteral name flags).any :=
  .mk ⟨.text h, .free, trivial⟩

theorem booleanLiteral {value : Bool} : Sound (Message.booleanLiteral value).any :=
  .mk ⟨.free, trivial⟩

theorem nullLiteral : Sound Message.nullLiteral.any :=
  .mk trivial

theorem thisExpression : Sound Message.thisExpression.any :=
  .mk trivial

theorem intrinsicIdentifier (h : name ≠ "") : Sound (Message.intrinsicIdentifier name).any :=
  .mk ⟨.text h, trivial⟩

theorem assignmentExpression (ho : operator ≠ "") (hl : Sound left.any) (hr : Sound right.any) :
    Sound (Message.assignmentExpression operator left right).any :=
  .mk ⟨.text ho, .expression hl, .expression hr, trivial⟩

theorem namedProperty (h : Sound right.any) : Sound (Message.namedProperty name right).any :=
  .mk ⟨.set rfl (by simp [Choice.parts, Payload.parts]), .expression h, trivial⟩

theorem indexedProperty {index : Int64} (h : Sound right.any) :
    Sound (Message.indexedProperty index right).any :=
  .mk ⟨.set rfl (by simp [Choice.parts, Payload.parts]), .expression h, trivial⟩

theorem computedProperty (hk : Sound left.any) (hv : Sound right.any) :
    Sound (Message.computedProperty left right).any := by
  refine .mk ⟨.set ?_ (by simpa [Choice.parts, Payload.parts] using hk), .expression hv, trivial⟩
  exact Choice.fault?_here (Payload.problem?_filled hk)

theorem objectMethod (ht : 0 ≤ type.toInt ∧ type.toInt < 4) (hp : ∀ p ∈ parameters, Sound p.any)
    (hb : ∀ s ∈ block, Sound s.any) :
    Sound (Message.objectMethod name type parameters block).any :=
  .mk ⟨.free, .choice ht, .list hp, .list hb, trivial⟩

theorem objectGetter (h : ∀ s ∈ block, Sound s.any) :
    Sound (Message.objectGetter name block).any :=
  .mk ⟨.free, .list h, trivial⟩

theorem objectSetter {parameter : Message .parameter} (hp : Sound parameter.any)
    (hb : ∀ s ∈ block, Sound s.any) : Sound (Message.objectSetter name parameter block).any :=
  .mk ⟨.free, .present rfl hp, .list hb, trivial⟩

theorem objectExpression {members : List (Message .objectField)}
    (h : ∀ m ∈ members, Sound m.any) : Sound (Message.objectExpression members).any :=
  .mk ⟨.list h, trivial⟩

/-- The elements of an array are sound or holes. -/
theorem arrayExpression (h : ∀ e ∈ arguments, Sound e.any ∨ e = hole) :
    Sound (Message.arrayExpression arguments).any := by
  refine .intro rfl fun c hc hhole => ?_
  have hparts : (Message.arrayExpression arguments).parts = arguments.map any :=
    (List.append_nil _).trans (Slot.parts_ofList arguments)
  obtain ⟨e, he, rfl⟩ := List.mem_map.mp (hparts ▸ hc)
  rcases h e he with hs | rfl
  · exact hs
  · exact absurd ⟨rfl, rfl⟩ hhole

theorem functionExpression (ht : 0 ≤ type.toInt ∧ type.toInt < 4)
    (hp : ∀ p ∈ parameters, Sound p.any) (hb : ∀ s ∈ block, Sound s.any) :
    Sound (Message.functionExpression type parameters block).any :=
  .mk ⟨.choice ht, .list hp, .list hb, trivial⟩

theorem blockArrow (ht : 0 ≤ type.toInt ∧ type.toInt < 4) (hp : ∀ p ∈ parameters, Sound p.any)
    (hb : ∀ s ∈ block, Sound s.any) :
    Sound (Message.blockArrow type parameters
      (Message.statement (Message.blockStatement block))).any := by
  refine .mk ⟨.choice ht, .list hp, .set rfl ?_, trivial⟩
  simpa [Choice.parts, Payload.parts] using (Sound.blockStatement hb).statement

theorem expressionArrow (ht : 0 ≤ type.toInt ∧ type.toInt < 4)
    (hp : ∀ p ∈ parameters, Sound p.any) (hb : Sound right.any) :
    Sound (Message.expressionArrow type parameters right).any := by
  refine .mk ⟨.choice ht, .list hp, .set ?_ ?_, trivial⟩
  · exact Choice.fault?_here (Payload.problem?_filled hb)
  · simpa [Choice.parts, Payload.parts] using hb

theorem callExpression (hc : Sound left.any) (ha : ∀ e ∈ arguments, Sound e.any) :
    Sound (Message.callExpression left arguments).any :=
  .mk ⟨.expression hc, .expressions ha, trivial⟩

theorem newExpression (hc : Sound left.any) (ha : ∀ e ∈ arguments, Sound e.any) :
    Sound (Message.newExpression left arguments).any :=
  .mk ⟨.expression hc, .expressions ha, trivial⟩

theorem namedMember (ho : Sound object.any) (hn : name ≠ "") :
    Sound (Message.namedMember object name).any := by
  refine .mk ⟨.expression ho, .set ?_ (by simp [Choice.parts, Payload.parts]), trivial⟩
  exact Choice.fault?_here (Payload.problem?_nonEmpty hn)

theorem computedMember (ho : Sound object.any) (hp : Sound property.any) :
    Sound (Message.computedMember object property).any := by
  refine .mk ⟨.expression ho, .set ?_ (by simpa [Choice.parts, Payload.parts] using hp), trivial⟩
  exact Choice.fault?_here (Payload.problem?_filled hp)

theorem unaryExpression (ho : operator ≠ "") (ha : Sound right.any) :
    Sound (Message.unaryExpression operator right).any :=
  .mk ⟨.text ho, .expression ha, trivial⟩

theorem binaryExpression (ho : operator ≠ "") (hl : Sound left.any) (hr : Sound right.any) :
    Sound (Message.binaryExpression operator left right).any :=
  .mk ⟨.text ho, .expression hl, .expression hr, trivial⟩

theorem updateExpression {isPrefix : Bool} (ho : operator = "++" ∨ operator = "--")
    (ha : Sound right.any) : Sound (Message.updateExpression operator isPrefix right).any :=
  .mk ⟨.oneOf (by simpa using ho), .free, .expression ha, trivial⟩

theorem yieldExpression (h : ∀ e ∈ argument, Sound e.any) :
    Sound (Message.yieldExpression argument).any :=
  .mk ⟨.expression? h, trivial⟩

theorem spreadElement (h : Sound right.any) : Sound (Message.spreadElement right).any :=
  .mk ⟨.expression h, trivial⟩

theorem awaitExpression (h : Sound right.any) : Sound (Message.awaitExpression right).any :=
  .mk ⟨.expression h, trivial⟩

theorem ternaryExpression (ht : Sound test.any) (hc : Sound left.any) (ha : Sound right.any) :
    Sound (Message.ternaryExpression test left right).any :=
  .mk ⟨.expression ht, .expression hc, .expression ha, trivial⟩

theorem sequenceExpression (hlength : 2 ≤ arguments.length) (h : ∀ e ∈ arguments, Sound e.any) :
    Sound (Message.sequenceExpression arguments).any :=
  .mk ⟨.severalExpressions hlength h, trivial⟩

end Sound

/-- A message has the fault of its fields. -/
theorem violation?_of_fault {k : Kind} {slots : Slots (fields k)} {name : String}
    {problem : Problem} (h : slots.fault? = some (name, problem)) :
    (Message.mk k slots).violation? = some ⟨k, name, problem⟩ := by
  rw [violation?, h]
  rfl

theorem Slots.fault?_of_head {f : Field} {fs : List Field} {head : Slot f.shape} {tail : Slots fs}
    {problem : Problem}
    (h : head.fault? f.name f.requirement tail.firstPresent = some (f.name, problem)) :
    (Slots.cons head tail : Slots (f :: fs)).fault? = some (f.name, problem) := by
  rw [Slots.fault?, h]
  rfl

theorem violation?_updateExpression {operator : String} {isPrefix : Bool}
    {argument : Message .expression} (h : ¬ (operator = "++" ∨ operator = "--")) :
    (updateExpression operator isPrefix argument).violation? =
      some ⟨.updateExpression, "operator", .unknownOperator operator⟩ := by
  have hproblem : Scalar.problem? (.oneOf ["++", "--"]) .text operator =
      some (.unknownOperator operator) := by
    simp [Scalar.problem?, h]
  refine violation?_of_fault (Slots.fault?_of_head ?_)
  exact congrArg (Option.map _) hproblem

theorem violation?_sequenceExpression {parts : List (Message .expression)}
    (h : ¬ 2 ≤ parts.length) :
    (sequenceExpression parts).violation? =
      some ⟨.sequenceExpression, "expressions", .fewerThanTwo⟩ := by
  have hproblem : listProblem? .severalFilled (Sequence.ofList parts).toList =
      some .fewerThanTwo := by
    rw [Sequence.toList_ofList, listProblem?, if_pos (Nat.not_le.mp h)]
  refine violation?_of_fault (Slots.fault?_of_head ?_)
  exact congrArg (Option.map _) hproblem

end Message

end ScriptWire
