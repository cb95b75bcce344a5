import ScriptWire.Proofs.Estree.Readable
import ScriptWire.Proofs.Estree.Written

/-!
# Written trees are read back

## Main definitions

- `Tree.Part.place`, `Tree.Part.value`, `Tree.Part.written` — where a part stands in a document,
  what is read there, and what is written
- `Tree.Part.Reads` — a part is read back from what is written

## Main results

- `Tree.Part.reads` — every part that a document can hold is read back
- `Estree.readProgram_program` — and so is every program
-/

namespace ScriptWire

namespace Estree

open Document (Value)
open ScriptWire.Tree

section Writers

theorem statements_eq_map (body : List Statement) : statements body = body.map statement := by
  induction body with
  | nil => rfl
  | cons s rest ih => rw [statements, ih, List.map_cons]

theorem statement?_eq (s : Option Statement) : statement? s = s.elim .null statement := by
  cases s <;> rfl

theorem block?_eq (body : Option (List Statement)) :
    block? body = body.elim .null fun b => block (statements b) := by
  cases body <;> rfl

theorem declarators_eq_map (ds : List Declarator) : declarators ds = ds.map declarator := by
  induction ds with
  | nil => rfl
  | cons d rest ih => rw [declarators, ih, List.map_cons]

theorem forInit?_eq (head : Option ForInit) : forInit? head = head.elim .null forInit := by
  cases head <;> rfl

theorem expressions_eq_map (es : List Expression) : expressions es = es.map expression := by
  induction es with
  | nil => rfl
  | cons e rest ih => rw [expressions, ih, List.map_cons]

theorem expression?_eq (e : Option Expression) : expression? e = e.elim .null expression := by
  cases e <;> rfl

theorem expressions?_eq_map (es : List (Option Expression)) :
    expressions? es = es.map expression? := by
  induction es with
  | nil => rfl
  | cons e rest ih => rw [expressions?, ih, List.map_cons]

theorem patterns_eq_map (ps : List Pattern) : patterns ps = ps.map pattern := by
  induction ps with
  | nil => rfl
  | cons p rest ih => rw [patterns, ih, List.map_cons]

theorem pattern?_eq (p : Option Pattern) : pattern? p = p.elim .null pattern := by
  cases p <;> rfl

theorem catchClause?_eq (clause : Option CatchClause) :
    catchClause? clause = clause.elim .null fun c => catchClause? (some c) := by
  cases clause <;> rfl

theorem members_eq_map (ms : List Member) : members ms = ms.map member := by
  induction ms with
  | nil => rfl
  | cons m rest ih => rw [members, ih, List.map_cons]

theorem nameOf_eq (id : Option String) :
    nameOf id = id.elim .null fun name => record [("name", .string name)] := by
  cases id <;> rfl

theorem statement_eq_object (s : Statement) : ∃ members, statement s = .object members := by
  cases s <;> exact ⟨_, rfl⟩

/-- A written expression is a node of the kind of the expression. -/
theorem expression_eq_node (e : Expression) :
    ∃ members, expression e = node e.kind members ∧ "type" ∉ Document.keys members := by
  cases e <;> exact ⟨_, rfl, by simp [Document.keys]⟩

theorem expression_eq_object (e : Expression) : ∃ members, expression e = .object members := by
  obtain ⟨members, he, _⟩ := expression_eq_node e
  exact ⟨_, he⟩

theorem pattern_eq_object (p : Pattern) : ∃ members, pattern p = .object members := by
  cases p <;> exact ⟨_, rfl⟩

theorem forInit_eq_object (head : ForInit) : ∃ members, forInit head = .object members := by
  cases head with
  | variableDeclaration kind declarations => exact ⟨_, rfl⟩
  | expression e => exact expression_eq_object e

theorem catchClause?_eq_object (clause : CatchClause) :
    ∃ members, catchClause? (some clause) = .object members := by
  cases clause
  exact ⟨_, rfl⟩

end Writers

end Estree

namespace Tree

open Estree

namespace Part

/-- The place of a document at which a part stands. -/
@[reducible]
def place : Part → Place
  | .statement _ => statementPlace
  | .expression _ => expressionPlace
  | .pattern _ => patternPlace
  | .member _ => .node .member
  | .declarator _ => .record .declarator
  | .loopHead _ => .loopHead
  | .catchClause _ => .record .catchClause
  | .arrowBody _ => .arrowBody

/-- What is read at the place of a part. -/
@[reducible]
def value : (n : Part) → n.place.Result
  | .statement s => s
  | .expression e => e
  | .pattern p => p
  | .member m => m
  | .declarator d => d
  | .loopHead head => head
  | .catchClause clause => clause
  | .arrowBody body => body

/-- The document of a part. -/
def written : Part → Document.Value
  | .statement s => Estree.statement s
  | .expression e => Estree.expression e
  | .pattern p => Estree.pattern p
  | .member m => Estree.member m
  | .declarator d => Estree.declarator d
  | .loopHead head => Estree.forInit head
  | .catchClause clause => Estree.catchClause? (some clause)
  | .arrowBody body => Estree.arrowBody body

/-- A part is read back from its document. -/
def Reads (n : Part) : Prop :=
  ∀ bare : Bool, readValue bare n.place n.written = .ok n.value

end Part

section Parts

variable {bare : Bool}

theorem readValue_statements {body : List Statement} (h : ∀ s ∈ body, (Part.statement s).Reads) :
    readValue bare (.list statementPlace) (.array (statements body)) = .ok body := by
  rw [statements_eq_map]
  exact readValue_list fun s hs => h s hs bare

theorem readValue_expressions {es : List Expression} (h : ∀ e ∈ es, (Part.expression e).Reads) :
    readValue bare (.list expressionPlace) (.array (expressions es)) = .ok es := by
  rw [expressions_eq_map]
  exact readValue_list fun e he => h e he bare

theorem readValue_patterns {ps : List Pattern} (h : ∀ p ∈ ps, (Part.pattern p).Reads) :
    readValue bare (.list patternPlace) (.array (patterns ps)) = .ok ps := by
  rw [patterns_eq_map]
  exact readValue_list fun p hp => h p hp bare

theorem readValue_members {ms : List Member} (h : ∀ m ∈ ms, (Part.member m).Reads) :
    readValue bare (.list (.node .member)) (.array (members ms)) = .ok ms := by
  rw [members_eq_map]
  exact readValue_list fun m hm => h m hm bare

theorem readValue_declarators {ds : List Declarator} (h : ∀ d ∈ ds, (Part.declarator d).Reads) :
    readValue bare (.list (.record .declarator)) (.array (declarators ds)) = .ok ds := by
  rw [declarators_eq_map]
  exact readValue_list fun d hd => h d hd bare

theorem readValue_statement? {s : Option Statement}
    (h : ∀ a, s = some a → (Part.statement a).Reads) :
    readValue bare (.optional statementPlace) (statement? s) = .ok s := by
  rw [statement?_eq]
  exact readValue_optional statement_eq_object fun a ha => h a ha bare

theorem readValue_expression? {e : Option Expression}
    (h : ∀ a, e = some a → (Part.expression a).Reads) :
    readValue bare (.optional expressionPlace) (expression? e) = .ok e := by
  rw [expression?_eq]
  exact readValue_optional expression_eq_object fun a ha => h a ha bare

theorem readValue_pattern? {p : Option Pattern} (h : ∀ a, p = some a → (Part.pattern a).Reads) :
    readValue bare (.optional patternPlace) (pattern? p) = .ok p := by
  rw [pattern?_eq]
  exact readValue_optional pattern_eq_object fun a ha => h a ha bare

theorem readValue_forInit? {head : Option ForInit}
    (h : ∀ a, head = some a → (Part.loopHead a).Reads) :
    readValue bare (.optional .loopHead) (forInit? head) = .ok head := by
  rw [forInit?_eq]
  exact readValue_optional forInit_eq_object fun a ha => h a ha bare

theorem readValue_catchClause? {clause : Option CatchClause}
    (h : ∀ a, clause = some a → (Part.catchClause a).Reads) :
    readValue bare (.optional (.record .catchClause)) (catchClause? clause) = .ok clause := by
  rw [catchClause?_eq]
  exact readValue_optional catchClause?_eq_object fun a ha => h a ha bare

theorem readValue_elements {es : List (Option Expression)}
    (h : ∀ e ∈ es, ∀ a, e = some a → (Part.expression a).Reads) :
    readValue bare (.list (.optional expressionPlace)) (.array (expressions? es)) = .ok es := by
  rw [expressions?_eq_map]
  exact readValue_list fun e he => readValue_expression? (h e he)

theorem readValue_block {body : List Statement} (h : ∀ s ∈ body, (Part.statement s).Reads) :
    readValue bare (.record .block) (block (statements body)) = .ok body :=
  -- The directives are left out, so none stand in front of the statements.
  readValue_record ⟨(body, [], ()), ⟨rfl, readValue_statements h, rfl, rfl⟩, rfl⟩

theorem readValue_block? {body : Option (List Statement)}
    (h : ∀ b, body = some b → ∀ s ∈ b, (Part.statement s).Reads) :
    readValue bare (.optional (.record .block)) (block? body) = .ok body := by
  rw [block?_eq]
  exact readValue_optional (fun _ => ⟨_, rfl⟩) fun b hb => readValue_block (h b hb)

theorem readValue_nameOf (id : Option String) :
    readValue bare (.optional (.record .identifier)) (nameOf id) = .ok id := by
  rw [nameOf_eq]
  refine readValue_optional (fun _ => ⟨_, rfl⟩) fun name _ => ?_
  exact readValue_record ⟨(name, ()), ⟨rfl, readValue_text name, rfl⟩, rfl⟩

end Parts

theorem Statement.reads {s : Statement} (hs : (Part.statement s).Foreign)
    (ih : ∀ c ∈ s.contents, c.Reads) : (Part.statement s).Reads := by
  intro bare
  rw [Part.written]
  cases s with
  | emptyStatement => exact readValue_node rfl ⟨(), rfl, rfl⟩
  | blockStatement body =>
    simp only [Statement.contents, List.forall_mem_map] at ih
    exact readValue_node rfl ⟨(body, [], ()), ⟨rfl, readValue_statements ih, rfl, rfl⟩, rfl⟩
  | expressionStatement e =>
    simp only [Statement.contents, List.forall_mem_singleton] at ih
    exact readValue_node rfl ⟨(e, ()), ⟨rfl, ih false, rfl⟩, rfl⟩
  | variableDeclaration kind declarations =>
    simp only [Statement.contents, List.forall_mem_map] at ih
    exact readValue_node rfl ⟨(kind, declarations, ()),
      ⟨rfl, readValue_text kind, rfl, readValue_declarators ih, rfl⟩, rfl⟩
  | functionDeclaration id params body generator isAsync =>
    simp only [Statement.contents, List.forall_mem_append, List.forall_mem_map] at ih
    exact readValue_node rfl ⟨(id, params, body, generator, isAsync, ()),
      ⟨rfl, readValue_nameOf id, rfl, readValue_patterns ih.1, rfl, readValue_block ih.2, rfl,
        readValue_flag generator, rfl, readValue_flag isAsync, rfl⟩, rfl⟩
  | returnStatement argument =>
    simp only [Statement.contents, List.forall_mem_map, Option.mem_toList] at ih
    exact readValue_node rfl ⟨(argument, ()), ⟨rfl, readValue_expression? ih, rfl⟩, rfl⟩
  | ifStatement test consequent alternate =>
    simp only [Statement.contents, List.forall_mem_cons, List.forall_mem_map,
      Option.mem_toList] at ih
    exact readValue_node rfl ⟨(test, consequent, alternate, ()),
      ⟨rfl, ih.1 false, rfl, ih.2.1 false, rfl, readValue_statement? ih.2.2, rfl⟩, rfl⟩
  | whileStatement test body =>
    simp only [Statement.contents, List.forall_mem_cons] at ih
    exact readValue_node rfl ⟨(test, body, ()), ⟨rfl, ih.1 false, rfl, ih.2.1 false, rfl⟩, rfl⟩
  | doWhileStatement body test =>
    simp only [Statement.contents, List.forall_mem_cons] at ih
    exact readValue_node rfl ⟨(body, test, ()), ⟨rfl, ih.1 false, rfl, ih.2.1 false, rfl⟩, rfl⟩
  | forStatement init test update body =>
    simp only [Statement.contents, List.forall_mem_append, List.forall_mem_map, Option.mem_toList,
      List.forall_mem_singleton] at ih
    obtain ⟨⟨⟨hinit, htest⟩, hupdate⟩, hbody⟩ := ih
    exact readValue_node rfl ⟨(init, test, update, body, ()),
      ⟨rfl, readValue_forInit? hinit, rfl, readValue_expression? htest, rfl,
        readValue_expression? hupdate, rfl, hbody false, rfl⟩, rfl⟩
  | forInStatement left right body =>
    simp only [Statement.contents, List.forall_mem_cons] at ih
    exact readValue_node rfl ⟨(left, right, body, ()),
      ⟨rfl, ih.1 false, rfl, ih.2.1 false, rfl, ih.2.2.1 false, rfl⟩, rfl⟩
  | forOfStatement left right body isAwait =>
    simp only [Statement.contents, List.forall_mem_cons] at ih
    exact readValue_node rfl ⟨(left, right, body, isAwait, ()),
      ⟨rfl, ih.1 false, rfl, ih.2.1 false, rfl, ih.2.2.1 false, rfl, readValue_flag isAwait, rfl⟩,
      rfl⟩
  | tryStatement body handler finalizer =>
    simp only [Statement.contents, List.forall_mem_append, List.forall_mem_map, Option.mem_toList,
      List.mem_flatten] at ih
    obtain ⟨⟨hbody, hhandler⟩, hfinalizer⟩ := ih
    exact readValue_node rfl ⟨(body, handler, finalizer, ()),
      ⟨rfl, readValue_block hbody, rfl, readValue_catchClause? hhandler, rfl,
        readValue_block? fun b hb s hs => hfinalizer s ⟨b, hb, hs⟩, rfl⟩, rfl⟩
  | throwStatement argument =>
    simp only [Statement.contents, List.forall_mem_singleton] at ih
    exact readValue_node rfl ⟨(argument, ()), ⟨rfl, ih false, rfl⟩, rfl⟩
  | unsupported kind => exact readValue_foreign hs

theorem Expression.reads {e : Expression} (he : (Part.expression e).Foreign)
    (hfinite : (Part.expression e).Finite) (ih : ∀ c ∈ e.contents, c.Reads) :
    (Part.expression e).Reads := by
  intro bare
  rw [Part.written]
  cases e with
  | identifier name => exact readValue_node rfl ⟨(name, ()), ⟨rfl, readValue_text name, rfl⟩, rfl⟩
  | numericLiteral value =>
    exact readValue_node rfl ⟨(value, ()), ⟨rfl, readValue_number hfinite, rfl⟩, rfl⟩
  | bigIntLiteral value =>
    exact readValue_node rfl ⟨(value, ()), ⟨rfl, readValue_text value, rfl⟩, rfl⟩
  | stringLiteral value =>
    exact readValue_node rfl ⟨(value, ()), ⟨rfl, readValue_text value, rfl⟩, rfl⟩
  | regExpLiteral pattern flags =>
    exact readValue_node rfl ⟨(pattern, flags, ()),
      ⟨rfl, readValue_text pattern, rfl, readValue_text flags, rfl⟩, rfl⟩
  | booleanLiteral value =>
    exact readValue_node rfl ⟨(value, ()), ⟨rfl, readValue_flag value, rfl⟩, rfl⟩
  | nullLiteral => exact readValue_node rfl ⟨(), rfl, rfl⟩
  | thisExpression => exact readValue_node rfl ⟨(), rfl, rfl⟩
  | intrinsicIdentifier name =>
    exact readValue_node rfl ⟨(name, ()), ⟨rfl, readValue_text name, rfl⟩, rfl⟩
  | assignmentExpression operator left right =>
    simp only [Expression.contents, List.forall_mem_cons] at ih
    exact readValue_node rfl ⟨(operator, left, right, ()),
      ⟨rfl, readValue_text operator, rfl, ih.1 false, rfl, ih.2.1 false, rfl⟩, rfl⟩
  | objectExpression properties =>
    simp only [Expression.contents, List.forall_mem_map] at ih
    exact readValue_node rfl ⟨(properties, ()), ⟨rfl, readValue_members ih, rfl⟩, rfl⟩
  | arrayExpression elements =>
    simp only [Expression.contents, List.mem_flatMap, List.mem_map, Option.mem_toList] at ih
    exact readValue_node rfl ⟨(elements, ()),
      ⟨rfl, readValue_elements fun o ho e he => ih _ ⟨o, ho, e, he, rfl⟩, rfl⟩, rfl⟩
  | functionExpression id params body generator isAsync =>
    simp only [Expression.contents, List.forall_mem_append, List.forall_mem_map] at ih
    exact readValue_node rfl ⟨(id, params, body, generator, isAsync, ()),
      ⟨rfl, readValue_nameOf id, rfl, readValue_patterns ih.1, rfl, readValue_block ih.2, rfl,
        readValue_flag generator, rfl, readValue_flag isAsync, rfl⟩, rfl⟩
  | arrowFunctionExpression id params body generator isAsync =>
    simp only [Expression.contents, List.forall_mem_append, List.forall_mem_map,
      List.forall_mem_singleton] at ih
    exact readValue_node rfl ⟨(id, params, body, generator, isAsync, ()),
      ⟨rfl, readValue_nameOf id, rfl, readValue_patterns ih.1, rfl, ih.2 false, rfl,
        readValue_flag generator, rfl, readValue_flag isAsync, rfl⟩, rfl⟩
  | callExpression callee arguments =>
    simp only [Expression.contents, List.forall_mem_cons, List.forall_mem_map] at ih
    exact readValue_node rfl ⟨(callee, arguments, ()),
      ⟨rfl, ih.1 false, rfl, readValue_expressions ih.2, rfl⟩, rfl⟩
  | newExpression callee arguments =>
    simp only [Expression.contents, List.forall_mem_cons, List.forall_mem_map] at ih
    exact readValue_node rfl ⟨(callee, arguments, ()),
      ⟨rfl, ih.1 false, rfl, readValue_expressions ih.2, rfl⟩, rfl⟩
  | memberExpression object property computed =>
    simp only [Expression.contents, List.forall_mem_cons] at ih
    exact readValue_node rfl ⟨(object, property, computed, ()),
      ⟨rfl, ih.1 false, rfl, ih.2.1 false, rfl, readValue_flag computed, rfl⟩, rfl⟩
  | unaryExpression operator isPrefix argument =>
    simp only [Expression.contents, List.forall_mem_singleton] at ih
    exact readValue_node rfl ⟨(operator, isPrefix, argument, ()),
      ⟨rfl, readValue_text operator, rfl, readValue_flag isPrefix, rfl, ih false, rfl⟩, rfl⟩
  | binaryExpression operator left right =>
    simp only [Expression.contents, List.forall_mem_cons] at ih
    exact readValue_node rfl ⟨(operator, left, right, ()),
      ⟨rfl, readValue_text operator, rfl, ih.1 false, rfl, ih.2.1 false, rfl⟩, rfl⟩
  | logicalExpression operator left right =>
    simp only [Expression.contents, List.forall_mem_cons] at ih
    exact readValue_node rfl ⟨(operator, left, right, ()),
      ⟨rfl, readValue_text operator, rfl, ih.1 false, rfl, ih.2.1 false, rfl⟩, rfl⟩
  | updateExpression operator isPrefix argument =>
    simp only [Expression.contents, List.forall_mem_singleton] at ih
    exact readValue_node rfl ⟨(operator, isPrefix, argument, ()),
      ⟨rfl, readValue_text operator, rfl, readValue_flag isPrefix, rfl, ih false, rfl⟩, rfl⟩
  | yieldExpression argument delegate =>
    simp only [Expression.contents, List.forall_mem_map, Option.mem_toList] at ih
    exact readValue_node rfl ⟨(argument, delegate, ()),
      ⟨rfl, readValue_expression? ih, rfl, readValue_flag delegate, rfl⟩, rfl⟩
  | awaitExpression argument =>
    simp only [Expression.contents, List.forall_mem_singleton] at ih
    exact readValue_node rfl ⟨(argument, ()), ⟨rfl, ih false, rfl⟩, rfl⟩
  | conditionalExpression test consequent alternate =>
    simp only [Expression.contents, List.forall_mem_cons] at ih
    exact readValue_node rfl ⟨(test, consequent, alternate, ()),
      ⟨rfl, ih.1 false, rfl, ih.2.1 false, rfl, ih.2.2.1 false, rfl⟩, rfl⟩
  | sequenceExpression expressions =>
    simp only [Expression.contents, List.forall_mem_map] at ih
    exact readValue_node rfl ⟨(expressions, ()), ⟨rfl, readValue_expressions ih, rfl⟩, rfl⟩
  | spreadElement argument =>
    simp only [Expression.contents, List.forall_mem_singleton] at ih
    exact readValue_node rfl ⟨(argument, ()), ⟨rfl, ih false, rfl⟩, rfl⟩
  | unsupported kind => exact readValue_foreign he

theorem Pattern.reads {p : Pattern} (hp : (Part.pattern p).Foreign)
    (ih : ∀ c ∈ p.contents, c.Reads) : (Part.pattern p).Reads := by
  intro bare
  rw [Part.written]
  cases p with
  | identifier name => exact readValue_node rfl ⟨(name, ()), ⟨rfl, readValue_text name, rfl⟩, rfl⟩
  | assignmentPattern left right =>
    simp only [Pattern.contents, List.forall_mem_cons] at ih
    exact readValue_node rfl ⟨(left, right, ()), ⟨rfl, ih.1 false, rfl, ih.2.1 false, rfl⟩, rfl⟩
  | restElement argument =>
    simp only [Pattern.contents, List.forall_mem_singleton] at ih
    exact readValue_node rfl ⟨(argument, ()), ⟨rfl, ih false, rfl⟩, rfl⟩
  | objectPattern => exact readValue_node rfl ⟨(), rfl, rfl⟩
  | arrayPattern => exact readValue_node rfl ⟨(), rfl, rfl⟩
  | unsupported kind => exact readValue_foreign hp

theorem Member.reads {m : Member} (hm : (Part.member m).Foreign)
    (ih : ∀ c ∈ m.contents, c.Reads) : (Part.member m).Reads := by
  intro bare
  rw [Part.written]
  cases m with
  | objectProperty key value computed shorthand method =>
    simp only [Member.contents, List.forall_mem_cons] at ih
    exact readValue_node rfl ⟨(key, value, computed, shorthand, method, ()),
      ⟨rfl, ih.1 false, rfl, ih.2.1 false, rfl, readValue_flag computed, rfl,
        readValue_flag shorthand, rfl, readValue_flag method, rfl⟩, rfl⟩
  | objectMethod kind key params body computed shorthand generator isAsync =>
    simp only [Member.contents, List.forall_mem_cons, List.forall_mem_append,
      List.forall_mem_map] at ih
    obtain ⟨hkey, hparams, hbody⟩ := ih
    exact readValue_node rfl
      ⟨(kind, key, params, body, computed, shorthand, generator, isAsync, ()),
      ⟨rfl, readValue_methodKind kind, rfl, hkey false, rfl, readValue_patterns hparams, rfl,
        readValue_block hbody, rfl, readValue_flag computed, rfl, readValue_flag shorthand, rfl,
        readValue_flag generator, rfl, readValue_flag isAsync, rfl⟩, rfl⟩
  | spreadElement argument =>
    simp only [Member.contents, List.forall_mem_singleton] at ih
    exact readValue_node rfl ⟨(argument, ()), ⟨rfl, ih false, rfl⟩, rfl⟩
  | unsupported kind => exact readValue_foreign hm

theorem Declarator.reads {d : Declarator} (ih : ∀ c ∈ (Part.declarator d).contents, c.Reads) :
    (Part.declarator d).Reads := by
  intro bare
  obtain ⟨id, init⟩ := d
  simp only [Part.contents, List.forall_mem_cons, List.forall_mem_map, Option.mem_toList] at ih
  exact readValue_record ⟨(id, init, ()),
    ⟨rfl, ih.1 bare, rfl, readValue_expression? ih.2, rfl⟩, rfl⟩

theorem CatchClause.reads {clause : CatchClause}
    (ih : ∀ c ∈ (Part.catchClause clause).contents, c.Reads) : (Part.catchClause clause).Reads := by
  intro bare
  obtain ⟨param, body⟩ := clause
  simp only [Part.contents, List.forall_mem_append, List.forall_mem_map, Option.mem_toList] at ih
  exact readValue_record ⟨(param, body, ()),
    ⟨rfl, readValue_pattern? ih.1, rfl, readValue_block ih.2, rfl⟩, rfl⟩

/-- An expression has the kind of another level only if it has no shape of its own. -/
theorem Expression.kind_ne {e : Expression} {kind : String} (hkind : kind ∉ Level.expression.known)
    (h : e ≠ .unsupported kind) : e.kind ≠ kind := by
  intro heq
  subst heq
  cases e with
  | unsupported kind => exact h rfl
  | _ => exact hkind (of_decide_eq_true rfl)

section Choices

variable {bare : Bool} {place : Place} {kind : String}

/-- A place that looks for one kind of node reads every other expression as an expression. -/
theorem readValue_otherwise {e : Expression} {f : Expression → place.Result} (hkind : e.kind ≠ kind)
    (h : (Part.expression e).Reads)
    (hplan : ∀ members, hasKind kind members = false →
      place.objectPlan bare members = (Place.objectPlan bare expressionPlace members).map f) :
    readValue bare place (expression e) = .ok (f e) := by
  obtain ⟨members, hwritten, htype⟩ := expression_eq_node e
  have hread := h bare
  have hother :
      hasKind kind (Document.ofMembers (("type", .string e.kind) :: members)) = false := by
    rw [hasKind, lookup?_type htype]
    exact decide_eq_false hkind
  have hmap : readValue bare place (node e.kind members) =
      (readValue bare expressionPlace (node e.kind members)).map f :=
    readValue_object_map place expressionPlace (hplan _ hother)
  rw [Part.written, hwritten] at hread
  rw [hwritten, hmap, hread]
  rfl

end Choices

theorem ForInit.reads {head : ForInit} (hhead : (Part.loopHead head).Foreign)
    (ih : ∀ c ∈ head.contents, c.Reads) : (Part.loopHead head).Reads := by
  intro bare
  cases head with
  | variableDeclaration kind declarations =>
    simp only [ForInit.contents, List.forall_mem_map] at ih
    refine readValue_named .loopHead
      (declarationForm.map fun d => .variableDeclaration d.kind d.declarations) true (by decide)
      (by decide) (fun htype => ?_) ⟨(kind, declarations, ()),
      ⟨rfl, readValue_text kind, rfl, readValue_declarators ih, rfl⟩, rfl⟩
    rw [Place.objectPlan, if_pos (hasKind_iff.mpr htype)]
  | expression e =>
    simp only [ForInit.contents, List.forall_mem_singleton] at ih
    refine readValue_otherwise (e.kind_ne (by decide) hhead) ih fun members hother => ?_
    simp only [Place.objectPlan, hother, Bool.false_eq_true, if_false]

theorem ArrowBody.reads {body : ArrowBody} (hbody : (Part.arrowBody body).Foreign)
    (ih : ∀ c ∈ body.contents, c.Reads) : (Part.arrowBody body).Reads := by
  intro bare
  cases body with
  | blockStatement body =>
    simp only [ArrowBody.contents, List.forall_mem_map] at ih
    refine readValue_named .arrowBody (blockForm.map .blockStatement) true (by decide) (by decide)
      (fun htype => ?_) ⟨(body, [], ()), ⟨rfl, readValue_statements ih, rfl, rfl⟩, rfl⟩
    rw [Place.objectPlan, if_pos (hasKind_iff.mpr htype)]
  | expression e =>
    simp only [ArrowBody.contents, List.forall_mem_singleton] at ih
    refine readValue_otherwise (e.kind_ne (by decide) hbody) ih fun members hother => ?_
    simp only [Place.objectPlan, hother, Bool.false_eq_true, if_false]

/-- A part is read back if it has only foreign kinds and finite numbers throughout. -/
theorem Part.reads {n : Part} (hforeign : n.Every Foreign) (hfinite : n.Every Finite) :
    n.Reads := by
  induction n using induction_on_contents with
  | step n ih =>
    obtain ⟨hn, hbelow⟩ := every_iff.mp hforeign
    obtain ⟨hnumber, hnumbers⟩ := every_iff.mp hfinite
    have hc : ∀ c ∈ n.contents, c.Reads := fun c hmem => ih c hmem (hbelow c hmem) (hnumbers c hmem)
    cases n with
    | statement s => exact Statement.reads hn hc
    | expression e => exact Expression.reads hn hnumber hc
    | pattern p => exact Pattern.reads hn hc
    | member m => exact Member.reads hn hc
    | declarator d => exact Declarator.reads hc
    | loopHead head => exact ForInit.reads hn hc
    | catchClause clause => exact CatchClause.reads hc
    | arrowBody body => exact ArrowBody.reads hn hc

end Tree

namespace Estree

open ScriptWire.Tree

/-- The document of a program is read back, with and without the type of a root, if unknown
constructs have foreign kinds and numbers are finite. -/
theorem readProgram_program {p : Program} (hforeign : p.Every Part.Foreign)
    (hfinite : p.Every Part.Finite) :
    readProgram (program p) = .ok p ∧ readProgram (typedProgram p) = .ok p ∧
      readDocument (typedProgram p) = .ok p := by
  have hbody : ∀ s ∈ p.body, (Part.statement s).Reads := fun s hs =>
    Part.reads (hforeign s hs) (hfinite s hs)
  have huntyped : readValue true (.record .block) (program p) = .ok p.body := readValue_block hbody
  have htyped : readValue true (.record .block) (typedProgram p) = .ok p.body :=
    readValue_named (.record .block) blockForm true (by decide) (by decide) (fun _ => rfl)
      ⟨(p.body, [], ()), ⟨rfl, readValue_statements hbody, rfl, rfl⟩, rfl⟩
  have hroot : programValue (typedProgram p) = .ok (typedProgram p) := by
    rw [typedProgram, node, record, programValue]
    simp [lookup?_type, Document.keys]
  refine ⟨?_, ?_, ?_⟩
  · rw [readProgram, huntyped]
    rfl
  · rw [readProgram, htyped]
    rfl
  · rw [readDocument, hroot]
    simp only [bind, Except.bind]
    rw [readProgram, htyped]
    rfl

theorem readProgram_program_loop :
    let p : Program := ⟨[.forStatement (some (.expression (.unsupported "Super"))) none none
      (.unsupported "DebuggerStatement")]⟩
    p.Every Part.Foreign ∧ p.Every Part.Finite ∧
      readProgram (program p) = .ok p ∧ readProgram (typedProgram p) = .ok p ∧
        readDocument (typedProgram p) = .ok p := by
  intro p
  have hsuper : "Super" ∉ Level.expression.known := by decide
  have hdebugger : "DebuggerStatement" ∉ Level.statement.known := by decide
  have hforeign : p.Every Part.Foreign :=
    List.forall_mem_singleton.mpr <| Part.every_iff.mpr ⟨trivial,
      List.forall_mem_cons.mpr ⟨
        Part.every_iff.mpr ⟨by simp [Part.Foreign], List.forall_mem_singleton.mpr <|
          Part.every_of_leaf rfl hsuper⟩,
        List.forall_mem_singleton.mpr <| Part.every_of_leaf rfl hdebugger⟩⟩
  have hfinite : p.Every Part.Finite :=
    List.forall_mem_singleton.mpr <| Part.every_iff.mpr ⟨trivial,
      List.forall_mem_cons.mpr ⟨
        Part.every_iff.mpr ⟨trivial, List.forall_mem_singleton.mpr <|
          Part.every_of_leaf rfl trivial⟩,
        List.forall_mem_singleton.mpr <| Part.every_of_leaf rfl trivial⟩⟩
  exact ⟨hforeign, hfinite, readProgram_program hforeign hfinite⟩

end Estree

end ScriptWire
