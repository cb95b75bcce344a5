import ScriptWire.Proofs.Binary64.Exact
import ScriptWire.Proofs.Lowering.Fidelity
import ScriptWire.Proofs.Message.Field

/-!
# Statements for messages

A message is reached if it is the message of an accepted node. The fields of a well-formed message
tell the node, once the messages in them are reached; here this is done for statements and for what
stands in them that is no expression.

## Main definitions

- `Message.Reached` — a message is the message of an accepted node, or its part

## Main results

- `Message.Slot.Meets.expression`, … — the nodes for the messages in a field
- `Message.Reached.whileLoop`, … — the message of each kind of statement is reached
-/

namespace ScriptWire

open ScriptWire.Tree

namespace Message

/-- The message is the one of an accepted node. The message of a variant is then what stands in the
statement, expression or member of the node. -/
def Reached : {k : Kind} → Message k → Prop
  | .ast, m => ∃ p : Program, p.Accepted ∧ Image.program p = m
  | .parameter, m => ∃ p, (Node.pattern p).Accepted ∧ Image.parameter p = m
  | .variableDeclarator, m => ∃ d, (Node.declarator d).Accepted ∧ Image.declarator d = m
  | .catchClause, m => ∃ c, (Node.catchClause c).Accepted ∧ Image.catchClause c = m
  | .finallyClause, m =>
    ∃ body : List Statement, (∀ s ∈ body, (Node.statement s).Accepted) ∧
      finallyClause (body.map Image.statement) = m
  | .statement, m => ∃ s, (Node.statement s).Accepted ∧ Image.statement s = m
  | .expression, m => ∃ e, (Node.expression e).Accepted ∧ Image.expression e = m
  | .objectField, m => ∃ x, (Node.member x).Accepted ∧ Image.member x = m
  | .emptyStatement, m | .blockStatement, m | .variableDeclaration, m | .functionDeclaration, m
  | .returnStatement, m | .expressionStatement, m | .ifStatement, m | .whileLoop, m
  | .doWhileLoop, m | .forLoop, m | .forInLoop, m | .forOfLoop, m | .tryStatement, m
  | .throwStatement, m =>
    ∃ s, (Node.statement s).Accepted ∧ (Image.statement s).parts = [m.any]
  | .objectProperty, m | .objectMethod, m | .objectGetter, m | .objectSetter, m =>
    ∃ x, (Node.member x).Accepted ∧ (Image.member x).parts = [m.any]
  | _, m => ∃ e, (Node.expression e).Accepted ∧ (Image.expression e).parts = [m.any]

/-- A message of some kind is reached. -/
def Any.IsReached (m : Any) : Prop :=
  m.2.Reached

section Lists

variable {α : Type} {k : Kind} {f : α → Message k} {P : α → Prop}

/-- Messages that each come from something come from a list. -/
theorem exists_map_eq {ms : List (Message k)} (h : ∀ m ∈ ms, ∃ a, P a ∧ f a = m) :
    ∃ l : List α, (∀ a ∈ l, P a) ∧ l.map f = ms := by
  induction ms with
  | nil => exact ⟨[], by simp, rfl⟩
  | cons m rest ih =>
    obtain ⟨⟨a, ha, rfl⟩, hrest⟩ := List.forall_mem_cons.mp h
    obtain ⟨l, hl, rfl⟩ := ih hrest
    exact ⟨a :: l, List.forall_mem_cons.mpr ⟨ha, hl⟩, rfl⟩

theorem exists_option_map_eq {o : Option (Message k)} (h : ∀ m ∈ o, ∃ a, P a ∧ f a = m) :
    ∃ a : Option α, (∀ b ∈ a, P b) ∧ a.map f = o := by
  cases o with
  | none => exact ⟨none, by simp, rfl⟩
  | some m =>
    obtain ⟨a, ha, rfl⟩ := h m rfl
    exact ⟨some a, by simpa using ha, rfl⟩

end Lists

section Words

theorem int32_cases {n : Int32} {count : Nat} (hlow : 0 ≤ n.toInt) (hhigh : n.toInt < count) :
    ∃ i : Nat, i < count ∧ n = Int32.ofNat i := by
  refine ⟨n.toInt.toNat, by omega, ?_⟩
  apply Int32.toInt_inj.mp
  have hrange := n.toInt_lt
  rw [Int32.toInt_ofNat_of_lt] <;> omega

theorem keyword_of_choice {n : Int32} (hlow : 0 ≤ n.toInt) (hhigh : n.toInt < (3 : Nat)) :
    IsKeyword (keyword n) ∧ Image.keyword (keyword n) = n := by
  obtain ⟨i, hi, rfl⟩ := int32_cases hlow hhigh
  have h : ∀ i < 3, IsKeyword (keyword (Int32.ofNat i)) ∧
      Image.keyword (keyword (Int32.ofNat i)) = Int32.ofNat i := by decide
  exact h i hi

theorem functionType_of_choice {n : Int32} (hlow : 0 ≤ n.toInt) (hhigh : n.toInt < (4 : Nat)) :
    Lowering.functionType (isGenerator n) (isAsync n) = n := by
  obtain ⟨i, hi, rfl⟩ := int32_cases hlow hhigh
  have h : ∀ i < 4, Lowering.functionType (isGenerator (Int32.ofNat i))
      (isAsync (Int32.ofNat i)) = Int32.ofNat i := by decide
  exact h i hi

theorem isIndex_ofInt {index : Int64} (h : index.toInt.natAbs ≤ Nat.pow 2 53) :
    isIndex (.ofInt index.toInt) = true ∧ Image.index (.ofInt index.toInt) = index := by
  have hlow := index.le_toInt
  have hhigh := index.toInt_lt
  rw [isIndex, Image.index, Binary64.toInt?_ofInt h]
  simp only [Nat.pow_eq, Nat.reducePow] at h hlow hhigh ⊢
  constructor
  · exact decide_eq_true (by omega)
  · rw [Int.min_eq_left (by omega), Int64.ofInt_toInt]

end Words

theorem accepted_of {n : Node} (hn : n.Regular) (hc : ∀ c ∈ n.children, c.Accepted) : n.Accepted :=
  Node.accepted_iff.mpr ⟨hn, hc⟩

/-! ### Fields whose messages are reached -/

namespace Slot.Meets

variable {name : String} {r : Requirement} {next : Bool} {number : Nat}

theorem expression {slot : Slot (.optional number .expression)}
    (h : slot.Meets Any.IsReached name r next) (hr : absentProblem? r next = some .missing) :
    ∃ e, slot = .present (Image.expression e) ∧ (Node.expression e).Accepted := by
  obtain ⟨_, rfl, ⟨e, he, rfl⟩, _⟩ := h.required hr
  exact ⟨e, rfl, he⟩

theorem statement {slot : Slot (.optional number .statement)}
    (h : slot.Meets Any.IsReached name r next) (hr : absentProblem? r next = some .missing) :
    ∃ s, slot = .present (Image.statement s) ∧ (Node.statement s).Accepted := by
  obtain ⟨_, rfl, ⟨s, hs, rfl⟩, _⟩ := h.required hr
  exact ⟨s, rfl, hs⟩

theorem expression? {slot : Slot (.optional number .expression)}
    (h : slot.Meets Any.IsReached name r next) :
    ∃ e : Option Expression, slot = .ofOption (e.map Image.expression) ∧
      ∀ c ∈ e.toList.map Node.expression, c.Accepted := by
  obtain ⟨m, rfl, hm⟩ := h.optional
  obtain ⟨e, he, rfl⟩ := exists_option_map_eq hm
  exact ⟨e, rfl, by simpa using he⟩

theorem statement? {slot : Slot (.optional number .statement)}
    (h : slot.Meets Any.IsReached name r next) :
    ∃ s : Option Statement, slot = .ofOption (s.map Image.statement) ∧
      ∀ c ∈ s.toList.map Node.statement, c.Accepted := by
  obtain ⟨m, rfl, hm⟩ := h.optional
  obtain ⟨s, hs, rfl⟩ := exists_option_map_eq hm
  exact ⟨s, rfl, by simpa using hs⟩

theorem statements {slot : Slot (.repeated number .statement)}
    (h : slot.Meets Any.IsReached name r next) :
    ∃ body : List Statement, slot = .ofList (body.map Image.statement) ∧
      ∀ c ∈ body.map Node.statement, c.Accepted := by
  obtain ⟨ms, rfl, _, hms⟩ := h.list
  obtain ⟨body, hbody, rfl⟩ := exists_map_eq hms
  exact ⟨body, rfl, List.forall_mem_map.mpr hbody⟩

theorem parameters {slot : Slot (.repeated number .parameter)}
    (h : slot.Meets Any.IsReached name r next) :
    ∃ params : List Pattern, slot = .ofList (params.map Image.parameter) ∧
      ∀ c ∈ params.map Node.pattern, c.Accepted := by
  obtain ⟨ms, rfl, _, hms⟩ := h.list
  obtain ⟨params, hparams, rfl⟩ := exists_map_eq hms
  exact ⟨params, rfl, List.forall_mem_map.mpr hparams⟩

theorem expressions {slot : Slot (.repeated number .expression)}
    (h : slot.Meets Any.IsReached name r next) :
    ∃ es : List Expression, slot = .ofList (es.map Image.expression) ∧
      listProblem? r (es.map Image.expression) = none ∧
      ∀ c ∈ es.map Node.expression, c.Accepted := by
  obtain ⟨ms, rfl, hr, hms⟩ := h.list
  obtain ⟨es, hes, rfl⟩ := exists_map_eq hms
  exact ⟨es, rfl, hr, List.forall_mem_map.mpr hes⟩

end Slot.Meets

/-! ### Clauses and bindings -/

namespace Reached

theorem parameter {slots : Slots (fields .parameter)} (h : slots.Meets Any.IsReached) :
    Reached (.mk .parameter slots) := by
  match slots, h with
  | .cons name .nil, ⟨mname, _⟩ =>
    obtain ⟨name, rfl, hne⟩ := mname.text
    exact ⟨.identifier name, accepted_of ⟨name, rfl, hne⟩ (by simp [Node.children]), rfl⟩

theorem variableDeclarator {slots : Slots (fields .variableDeclarator)}
    (h : slots.Meets Any.IsReached) : Reached (.mk .variableDeclarator slots) := by
  match slots, h with
  | .cons name (.cons value .nil), ⟨mname, mvalue, _⟩ =>
    obtain ⟨name, rfl, hne⟩ := mname.text
    obtain ⟨init, rfl, hinit⟩ := mvalue.expression?
    have hid : (Node.pattern (.identifier name)).Accepted :=
      accepted_of ⟨name, rfl, hne⟩ (by simp [Node.children])
    refine ⟨.mk (.identifier name) init, accepted_of trivial ?_, ?_⟩
    · exact List.forall_mem_cons.mpr ⟨hid, hinit⟩
    · rw [Image.declarator, Image.expression?_eq_map]
      rfl

theorem catchClause {slots : Slots (fields .catchClause)} (h : slots.Meets Any.IsReached) :
    Reached (.mk .catchClause slots) := by
  match slots, h with
  | .cons param (.cons body .nil), ⟨mparam, mbody, _⟩ =>
    obtain ⟨_, rfl, hm⟩ := mparam.optional
    obtain ⟨param, hparam, rfl⟩ := exists_option_map_eq hm
    obtain ⟨body, rfl, hbody⟩ := mbody.statements
    refine ⟨.mk param body, accepted_of trivial ?_, ?_⟩
    · exact List.forall_mem_append.mpr ⟨by simpa using hparam, hbody⟩
    · rw [Image.catchClause, Image.statements_eq_map]
      rfl

theorem finallyClause {slots : Slots (fields .finallyClause)} (h : slots.Meets Any.IsReached) :
    Reached (.mk .finallyClause slots) := by
  match slots, h with
  | .cons body .nil, ⟨mbody, _⟩ =>
    obtain ⟨body, rfl, hbody⟩ := mbody.statements
    exact ⟨body, List.forall_mem_map.mp hbody, rfl⟩

theorem ast {slots : Slots (fields .ast)} (h : slots.Meets Any.IsReached) :
    Reached (.mk .ast slots) := by
  match slots, h with
  | .cons body .nil, ⟨mbody, _⟩ =>
    obtain ⟨body, rfl, hbody⟩ := mbody.statements
    refine ⟨⟨body⟩, List.forall_mem_map.mp hbody, ?_⟩
    rw [Image.program, Image.statements_eq_map]
    rfl

/-! ### Statements -/

theorem emptyStatement {slots : Slots (fields .emptyStatement)} :
    Reached (.mk .emptyStatement slots) := by
  match slots with
  | .nil =>
    exact ⟨.emptyStatement, accepted_of trivial (by simp [Node.children, Statement.children]),
      parts_statement _⟩

theorem blockStatement {slots : Slots (fields .blockStatement)} (h : slots.Meets Any.IsReached) :
    Reached (.mk .blockStatement slots) := by
  match slots, h with
  | .cons body .nil, ⟨mbody, _⟩ =>
    obtain ⟨body, rfl, hbody⟩ := mbody.statements
    refine ⟨.blockStatement body, accepted_of trivial hbody, ?_⟩
    rw [Image.statement, Image.statements_eq_map]
    exact parts_statement _

theorem variableDeclaration {slots : Slots (fields .variableDeclaration)}
    (h : slots.Meets Any.IsReached) : Reached (.mk .variableDeclaration slots) := by
  match slots, h with
  | .cons kind (.cons declarations .nil), ⟨mkind, mdeclarations, _⟩ =>
    obtain ⟨kind, rfl, hlow, hhigh⟩ := mkind.choice
    obtain ⟨_, rfl, hne, hms⟩ := mdeclarations.list
    obtain ⟨declarations, haccepted, rfl⟩ := exists_map_eq hms
    obtain ⟨hword, hchoice⟩ := keyword_of_choice hlow hhigh
    refine ⟨.variableDeclaration (keyword kind) declarations, accepted_of ⟨hword, ?_⟩ ?_, ?_⟩
    · rintro rfl
      cases hne
    · exact List.forall_mem_map.mpr haccepted
    · rw [Image.statement, Image.declarators_eq_map, hchoice]
      exact parts_statement _

theorem functionDeclaration {slots : Slots (fields .functionDeclaration)}
    (h : slots.Meets Any.IsReached) : Reached (.mk .functionDeclaration slots) := by
  match slots, h with
  | .cons name (.cons type (.cons params (.cons body .nil))), ⟨mname, mtype, mparams, mbody, _⟩ =>
    obtain ⟨name, rfl, hne⟩ := mname.text
    obtain ⟨type, rfl, hlow, hhigh⟩ := mtype.choice
    obtain ⟨params, rfl, hparams⟩ := mparams.parameters
    obtain ⟨body, rfl, hbody⟩ := mbody.statements
    refine ⟨.functionDeclaration (some name) params body (isGenerator type) (isAsync type),
      accepted_of ⟨name, rfl, hne⟩ (List.forall_mem_append.mpr ⟨hparams, hbody⟩), ?_⟩
    rw [Image.statement, Image.statements_eq_map, functionType_of_choice hlow hhigh]
    exact parts_statement _

theorem returnStatement {slots : Slots (fields .returnStatement)} (h : slots.Meets Any.IsReached) :
    Reached (.mk .returnStatement slots) := by
  match slots, h with
  | .cons argument .nil, ⟨margument, _⟩ =>
    obtain ⟨argument, rfl, hargument⟩ := margument.expression?
    refine ⟨.returnStatement argument, accepted_of trivial hargument, ?_⟩
    rw [Image.statement, Image.expression?_eq_map]
    exact parts_statement _

theorem expressionStatement {slots : Slots (fields .expressionStatement)}
    (h : slots.Meets Any.IsReached) : Reached (.mk .expressionStatement slots) := by
  match slots, h with
  | .cons e .nil, ⟨me, _⟩ =>
    obtain ⟨e, rfl, he⟩ := me.expression rfl
    refine ⟨.expressionStatement e, accepted_of trivial ?_, parts_statement _⟩
    exact List.forall_mem_singleton.mpr he

theorem ifStatement {slots : Slots (fields .ifStatement)} (h : slots.Meets Any.IsReached) :
    Reached (.mk .ifStatement slots) := by
  match slots, h with
  | .cons test (.cons consequent (.cons alternate .nil)), ⟨mtest, mconsequent, malternate, _⟩ =>
    obtain ⟨test, rfl, htest⟩ := mtest.expression rfl
    obtain ⟨consequent, rfl, hconsequent⟩ := mconsequent.statement rfl
    obtain ⟨alternate, rfl, halternate⟩ := malternate.statement?
    refine ⟨.ifStatement test consequent alternate, accepted_of trivial ?_, ?_⟩
    · exact List.forall_mem_cons.mpr ⟨htest, List.forall_mem_cons.mpr ⟨hconsequent, halternate⟩⟩
    · rw [Image.statement, Image.statement?_eq_map]
      exact parts_statement _

theorem whileLoop {slots : Slots (fields .whileLoop)} (h : slots.Meets Any.IsReached) :
    Reached (.mk .whileLoop slots) := by
  match slots, h with
  | .cons test (.cons body .nil), ⟨mtest, mbody, _⟩ =>
    obtain ⟨test, rfl, htest⟩ := mtest.expression rfl
    obtain ⟨body, rfl, hbody⟩ := mbody.statement rfl
    refine ⟨.whileStatement test body, accepted_of trivial ?_, parts_statement _⟩
    exact List.forall_mem_cons.mpr ⟨htest, List.forall_mem_singleton.mpr hbody⟩

theorem doWhileLoop {slots : Slots (fields .doWhileLoop)} (h : slots.Meets Any.IsReached) :
    Reached (.mk .doWhileLoop slots) := by
  match slots, h with
  | .cons body (.cons test .nil), ⟨mbody, mtest, _⟩ =>
    obtain ⟨body, rfl, hbody⟩ := mbody.statement rfl
    obtain ⟨test, rfl, htest⟩ := mtest.expression rfl
    refine ⟨.doWhileStatement body test, accepted_of trivial ?_, parts_statement _⟩
    exact List.forall_mem_cons.mpr ⟨hbody, List.forall_mem_singleton.mpr htest⟩

/-- One variable is the head of a loop. -/
theorem accepted_countingHead {d : Declarator} (h : (Node.declarator d).Accepted) :
    (Node.countingHead (.variableDeclaration "var" [d])).Accepted :=
  accepted_of ⟨"var", d, rfl, .inl rfl⟩ (List.forall_mem_singleton.mpr h)

theorem forLoop {slots : Slots (fields .forLoop)} (h : slots.Meets Any.IsReached) :
    Reached (.mk .forLoop slots) := by
  match slots, h with
  | .cons init (.cons test (.cons update (.cons body .nil))), ⟨minit, mtest, mupdate, mbody, _⟩ =>
    obtain ⟨_, rfl, ⟨d, hd, rfl⟩, _⟩ := minit.required rfl
    obtain ⟨test, rfl, htest⟩ := mtest.expression rfl
    obtain ⟨update, rfl, hupdate⟩ := mupdate.expression rfl
    obtain ⟨body, rfl, hbody⟩ := mbody.statement rfl
    refine ⟨.forStatement (some (.variableDeclaration "var" [d])) (some test) (some update) body,
      accepted_of ⟨rfl, rfl, rfl⟩ ?_, parts_statement _⟩
    simpa [Node.children, Statement.children] using
      ⟨accepted_countingHead hd, htest, hupdate, hbody⟩

/-- The variable of a loop over keys or elements has no first value, and is the head of the loop. -/
theorem bareHead {number : Nat} {name : String} {next : Bool}
    {slot : Slot (.optional number .variableDeclarator)}
    (h : slot.Meets Any.IsReached name .bare next) (loop : String) :
    ∃ head, slot = .present (Image.head head) ∧ (Node.iterationHead loop head).Accepted := by
  obtain ⟨_, rfl, ⟨⟨id, init⟩, hd, rfl⟩, hbare⟩ := h.required rfl
  cases init with
  | some e => cases hbare
  | none =>
    refine ⟨.variableDeclaration "var" [.mk id none], rfl, ?_⟩
    exact accepted_of ⟨"var", id, rfl, .inl rfl⟩ (List.forall_mem_singleton.mpr hd)

theorem forInLoop {slots : Slots (fields .forInLoop)} (h : slots.Meets Any.IsReached) :
    Reached (.mk .forInLoop slots) := by
  match slots, h with
  | .cons left (.cons right (.cons body .nil)), ⟨mleft, mright, mbody, _⟩ =>
    obtain ⟨left, rfl, hleft⟩ := bareHead mleft "ForInStatement"
    obtain ⟨right, rfl, hright⟩ := mright.expression rfl
    obtain ⟨body, rfl, hbody⟩ := mbody.statement rfl
    refine ⟨.forInStatement left right body, accepted_of trivial ?_, parts_statement _⟩
    simpa [Node.children, Statement.children] using ⟨hleft, hright, hbody⟩

theorem forOfLoop {slots : Slots (fields .forOfLoop)} (h : slots.Meets Any.IsReached) :
    Reached (.mk .forOfLoop slots) := by
  match slots, h with
  | .cons left (.cons right (.cons body .nil)), ⟨mleft, mright, mbody, _⟩ =>
    obtain ⟨left, rfl, hleft⟩ := bareHead mleft "ForOfStatement"
    obtain ⟨right, rfl, hright⟩ := mright.expression rfl
    obtain ⟨body, rfl, hbody⟩ := mbody.statement rfl
    refine ⟨.forOfStatement left right body false, accepted_of rfl ?_, parts_statement _⟩
    simpa [Node.children, Statement.children] using ⟨hleft, hright, hbody⟩

theorem tryStatement {slots : Slots (fields .tryStatement)} (h : slots.Meets Any.IsReached) :
    Reached (.mk .tryStatement slots) := by
  match slots, h with
  | .cons block (.cons handler (.cons finalizer .nil)), ⟨mblock, mhandler, mfinalizer, _⟩ =>
    obtain ⟨block, rfl, hblock⟩ := mblock.statements
    obtain ⟨_, rfl, hm⟩ := mhandler.optional
    obtain ⟨handler, hhandler, rfl⟩ := exists_option_map_eq hm
    obtain ⟨_, rfl, hm⟩ := mfinalizer.optional
    obtain ⟨finalizer, hfinalizer, rfl⟩ := exists_option_map_eq hm
    have hclause : handler.isSome = true ∨ finalizer.isSome = true := by
      cases handler with
      | some clause => exact .inl rfl
      | none =>
        cases finalizer with
        | some body => exact .inr rfl
        | none => cases mhandler.1
    refine ⟨.tryStatement block handler finalizer, accepted_of hclause ?_, ?_⟩
    · refine List.forall_mem_append.mpr ⟨List.forall_mem_append.mpr ⟨hblock, ?_⟩, ?_⟩
      · simpa using hhandler
      · simp only [List.forall_mem_map, List.mem_flatten, Option.mem_toList]
        rintro statement ⟨body, hbody, hmem⟩
        exact hfinalizer body hbody statement hmem
    · rw [Image.statement, Image.statements_eq_map, Image.catchClause?_eq_map,
        Image.finallyClause?_eq_map]
      exact parts_statement _

theorem throwStatement {slots : Slots (fields .throwStatement)} (h : slots.Meets Any.IsReached) :
    Reached (.mk .throwStatement slots) := by
  match slots, h with
  | .cons argument .nil, ⟨margument, _⟩ =>
    obtain ⟨argument, rfl, hargument⟩ := margument.expression rfl
    refine ⟨.throwStatement argument, accepted_of trivial ?_, parts_statement _⟩
    exact List.forall_mem_singleton.mpr hargument

end Reached

end Message

end ScriptWire
