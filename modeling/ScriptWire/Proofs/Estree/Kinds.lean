import ScriptWire.Proofs.Estree.Origin
import Mathlib.Data.List.Basic

/-!
# The kinds of nodes

A node is of the kind that its document names, and is written with that kind as its type. Only a
kind that the level does not know gives a node without a shape.

## Main definitions

- `Estree.HasType`, `Estree.Names` — a value names a kind
- `Tree.Part.kind?` — the kind of a part, if it has one

## Main results

- `Estree.names_of_node` — a node is read from a value that names its kind
- `Estree.hasType_written`, `Estree.written_within` — a part is written with its kind, inside of
  what is written for the parts around it
- `Estree.readValue_kind` — all of this for everything that is read
-/

namespace ScriptWire

namespace Tree

/-- The kind of a part. Declarators and catch clauses have none. -/
def Part.kind? : Part → Option String
  | .statement s => some s.kind
  | .expression e => some e.kind
  | .pattern p => some p.kind
  | .member m => some m.kind
  | .loopHead head => some head.kind
  | .arrowBody (.blockStatement _) => some "BlockStatement"
  | .arrowBody (.expression e) => some e.kind
  | .declarator _ => none
  | .catchClause _ => none

end Tree

namespace Estree

open Document (Value lookup? keys ofMembers)
open ScriptWire.Tree

/-- The kind of a node. -/
def Level.kind : (level : Level) → level.Node → String
  | .statement, s => s.kind
  | .expression, e => e.kind
  | .pattern, p => p.kind
  | .member, m => m.kind

/-- The value is an object of the given type. -/
def HasType (v : Value) (kind : String) : Prop :=
  ∃ members, v = .object members ∧ lookup? "type" members = some (.string kind)

/-- The value is an object of the given type, or an array that starts with it. -/
def Names (v : Value) (kind : String) : Prop :=
  HasType v kind ∨ ∃ items, v = .array (.string kind :: items)

variable {bare : Bool} {v : Value} {level : Level} {kind : String}

section Reading

theorem Level.kind?_part (n : level.Node) : (level.part n).kind? = some (level.kind n) := by
  cases level <;> rfl

theorem Level.kind_unsupported (kind : String) : level.kind (level.unsupported kind) = kind := by
  cases level <;> rfl

theorem build_statementForms : ∀ f ∈ statementForms, ∀ full,
    (f.2.build full).kind = f.1 ∧ ∀ kind, f.2.build full ≠ .unsupported kind := by
  refine List.forall_iff_forall_mem.mp
    ⟨?_, ?_, ?_, ?_, ?_, ?_, ?_, ?_, ?_, ?_, ?_, ?_, ?_, ?_⟩
  all_goals
    intro full
    refine ⟨rfl, ?_⟩
    intro kind h
    cases h

theorem build_patternForms : ∀ f ∈ patternForms, ∀ full,
    (f.2.build full).kind = f.1 ∧ ∀ kind, f.2.build full ≠ .unsupported kind := by
  refine List.forall_iff_forall_mem.mp ⟨?_, ?_, ?_, ?_, ?_⟩
  all_goals
    intro full
    refine ⟨rfl, ?_⟩
    intro kind h
    cases h

theorem build_memberForms : ∀ f ∈ memberForms, ∀ full,
    (f.2.build full).kind = f.1 ∧ ∀ kind, f.2.build full ≠ .unsupported kind := by
  refine List.forall_iff_forall_mem.mp ⟨?_, ?_, ?_⟩
  all_goals
    intro full
    refine ⟨rfl, ?_⟩
    intro kind h
    cases h

/-- A form makes nodes of its own kind, with a shape. -/
theorem Level.build_form {form : Form level.Node} (h : level.form? kind = some form)
    (full : Full form.entries) :
    level.kind (form.build full) = kind ∧ ∀ k, form.build full ≠ level.unsupported k := by
  have hmem := Level.mem_forms h
  cases level with
  | statement => exact build_statementForms _ hmem full
  | expression => exact build_expressionForms _ hmem full
  | pattern => exact build_patternForms _ hmem full
  | member => exact build_memberForms _ hmem full

/-- A node is read from a value that names its kind. -/
theorem names_of_node (level : Level) {n : level.Node}
    (h : readValue bare (.node level) v = .ok n) : Names v (level.kind n) := by
  rcases object_or_array_of_readValue rfl h with ⟨members, rfl⟩ | ⟨items, rfl⟩
  · obtain ⟨kind, htype, ⟨_, rfl⟩ | ⟨form, full, hform, _, rfl⟩⟩ := readValue_node_object h
    · rw [Level.kind_unsupported]
      exact .inl ⟨members, rfl, htype⟩
    · rw [(Level.build_form hform full).1]
      exact .inl ⟨members, rfl, htype⟩
  · obtain ⟨kind, rest, form, full, rfl, hform, _, rfl⟩ := readValue_node_array h
    rw [(Level.build_form hform full).1]
    exact .inr ⟨rest, rfl⟩

/-- A node without a shape is read from an object of a type that the level does not know. -/
theorem readValue_unsupported_iff :
    readValue bare (.node level) v = .ok (level.unsupported kind) ↔
      HasType v kind ∧ kind ∉ level.known := by
  constructor
  · intro h
    have hname := names_of_node level h
    rw [Level.kind_unsupported] at hname
    rcases hname with ⟨members, rfl, htype⟩ | ⟨items, rfl⟩
    · obtain ⟨kind', htype', ⟨hknown, _⟩ | ⟨form, full, hform, _, hbuild⟩⟩ :=
        readValue_node_object h
      · obtain rfl : kind = kind' := by
          rw [htype] at htype'
          cases htype'
          rfl
        exact ⟨⟨members, rfl, htype⟩, hknown⟩
      · exact absurd hbuild.symm ((Level.build_form hform full).2 kind)
    · obtain ⟨_, _, form, full, _, hform, _, hbuild⟩ := readValue_node_array h
      exact absurd hbuild.symm ((Level.build_form hform full).2 kind)
  · rintro ⟨⟨members, rfl, htype⟩, hknown⟩
    exact readValue_unknown htype hknown

/-- A part that has a kind is read from a value that names it. -/
theorem names_of_place {n : Part} (h : readValue bare n.place v = .ok n.value)
    (hkind : n.kind? = some kind) : Names v kind := by
  cases n with
  | statement s =>
    cases hkind
    exact names_of_node .statement h
  | expression e =>
    cases hkind
    exact names_of_node .expression h
  | pattern p =>
    cases hkind
    exact names_of_node .pattern h
  | member m =>
    cases hkind
    exact names_of_node .member h
  | loopHead head =>
    rcases readValue_loopHead_eq_ok h with ⟨members, d, rfl, hnamed, _, rfl⟩ | ⟨e, he, rfl⟩
    · cases hkind
      exact .inl ⟨members, rfl, hasKind_iff.mp hnamed⟩
    · cases hkind
      exact names_of_node .expression he
  | arrowBody body =>
    rcases readValue_arrowBody_eq_ok h with ⟨members, b, rfl, hnamed, _, rfl⟩ | ⟨e, he, rfl⟩
    · cases hkind
      exact .inl ⟨members, rfl, hasKind_iff.mp hnamed⟩
    · cases hkind
      exact names_of_node .expression he
  | declarator d => cases hkind
  | catchClause clause => cases hkind

end Reading

section Writing

variable {members : List (String × Value)} {items : List Value} {x : Value}

theorem hasType_node (h : "type" ∉ keys members) : HasType (node kind members) kind :=
  ⟨_, rfl, lookup?_type h⟩

theorem hasType_statement (s : Statement) : HasType (statement s) s.kind := by
  cases s <;> exact hasType_node (by simp [keys])

theorem hasType_expression (e : Expression) : HasType (expression e) e.kind := by
  obtain ⟨members, he, htype⟩ := expression_eq_node e
  exact he ▸ hasType_node htype

/-- A part that has a kind is written with it as its type. -/
theorem hasType_written {n : Part} (hkind : n.kind? = some kind) : HasType n.written kind := by
  cases n with
  | statement s =>
    cases hkind
    exact hasType_statement s
  | expression e =>
    cases hkind
    exact hasType_expression e
  | pattern p =>
    cases hkind
    cases p <;> exact hasType_node (by simp [keys])
  | member m =>
    cases hkind
    cases m <;> exact hasType_node (by simp [keys])
  | loopHead head =>
    cases hkind
    cases head with
    | variableDeclaration kind declarations => exact hasType_node (by simp [keys])
    | expression e => exact hasType_expression e
  | arrowBody body =>
    cases body with
    | blockStatement b =>
      cases hkind
      exact hasType_node (by simp [keys])
    | expression e =>
      cases hkind
      exact hasType_expression e
  | declarator d => cases hkind
  | catchClause clause => cases hkind

/-- The value of a member stands in the object. -/
theorem within_member (key : String) (h : lookup? key members.reverse = some x) :
    x.Within (record members) := by
  rw [← Document.lookup?_ofMembers] at h
  exact .single (List.mem_map_of_mem (Document.mem_of_lookup? h))

theorem within_item (key : String) (h : lookup? key members.reverse = some (.array items))
    (hx : x ∈ items) : x.Within (record members) :=
  (within_member key h).tail hx

theorem mem_statements {body : List Statement} {s : Statement} (hs : s ∈ body) :
    statement s ∈ statements body := by
  rw [statements_eq_map]
  exact List.mem_map_of_mem hs

theorem mem_expressions {es : List Expression} {e : Expression} (he : e ∈ es) :
    expression e ∈ expressions es := by
  rw [expressions_eq_map]
  exact List.mem_map_of_mem he

theorem mem_patterns {ps : List Pattern} {p : Pattern} (hp : p ∈ ps) :
    pattern p ∈ patterns ps := by
  rw [patterns_eq_map]
  exact List.mem_map_of_mem hp

theorem mem_declarators {ds : List Declarator} {d : Declarator} (hd : d ∈ ds) :
    declarator d ∈ declarators ds := by
  rw [declarators_eq_map]
  exact List.mem_map_of_mem hd

theorem within_block {body : List Statement} {s : Statement} (hs : s ∈ body)
    (h : (block (statements body)).Within x) : (statement s).Within x :=
  Relation.ReflTransGen.trans h (within_item "body" rfl (mem_statements hs))

/-- What stands right below a statement is written inside of it. -/
theorem written_statement (s : Statement) : ∀ c ∈ s.contents, c.written.Within (statement s) := by
  cases s with
  | emptyStatement => exact List.forall_mem_nil _
  | blockStatement body =>
    exact List.forall_mem_map.mpr fun s hs => within_item "body" rfl (mem_statements hs)
  | expressionStatement e => exact List.forall_mem_singleton.mpr (within_member "expression" rfl)
  | variableDeclaration kind declarations =>
    exact List.forall_mem_map.mpr fun d hd => within_item "declarations" rfl (mem_declarators hd)
  | functionDeclaration id params body generator isAsync =>
    refine Part.forall_function (fun p hp => ?_) fun s hs => ?_
    · exact within_item "params" rfl (mem_patterns hp)
    · exact within_block hs (within_member "body" rfl)
  | returnStatement argument =>
    refine forall_mem_toList_map ?_
    rintro e rfl
    exact within_member "argument" rfl
  | ifStatement test consequent alternate =>
    refine List.forall_mem_cons.mpr ⟨within_member "test" rfl, List.forall_mem_cons.mpr
      ⟨within_member "consequent" rfl, forall_mem_toList_map ?_⟩⟩
    rintro s rfl
    exact within_member "alternate" rfl
  | whileStatement test body =>
    exact Part.forall_pair (within_member "test" rfl) (within_member "body" rfl)
  | doWhileStatement body test =>
    exact Part.forall_pair (within_member "body" rfl) (within_member "test" rfl)
  | forStatement init test update body =>
    refine List.forall_mem_append.mpr ⟨List.forall_mem_append.mpr ⟨List.forall_mem_append.mpr
      ⟨forall_mem_toList_map ?_, forall_mem_toList_map ?_⟩, forall_mem_toList_map ?_⟩,
      List.forall_mem_singleton.mpr (within_member "body" rfl)⟩
    · rintro head rfl
      exact within_member "init" rfl
    · rintro e rfl
      exact within_member "test" rfl
    · rintro e rfl
      exact within_member "update" rfl
  | forInStatement left right body =>
    exact List.forall_mem_cons.mpr ⟨within_member "left" rfl,
      Part.forall_pair (within_member "right" rfl) (within_member "body" rfl)⟩
  | forOfStatement left right body isAwait =>
    exact List.forall_mem_cons.mpr ⟨within_member "left" rfl,
      Part.forall_pair (within_member "right" rfl) (within_member "body" rfl)⟩
  | tryStatement body handler finalizer =>
    refine List.forall_mem_append.mpr ⟨List.forall_mem_append.mpr
      ⟨List.forall_mem_map.mpr fun s hs => within_block hs (within_member "block" rfl),
        forall_mem_toList_map ?_⟩, List.forall_mem_map.mpr fun s hs => ?_⟩
    · rintro clause rfl
      exact within_member "handler" rfl
    · obtain ⟨b, hb, hmem⟩ := List.mem_flatten.mp hs
      obtain rfl := Option.mem_toList.mp hb
      exact within_block hmem (within_member "finalizer" rfl)
  | throwStatement argument => exact List.forall_mem_singleton.mpr (within_member "argument" rfl)
  | unsupported kind => exact List.forall_mem_nil _

/-- What stands right below an expression is written inside of it. -/
theorem written_expression (e : Expression) :
    ∀ c ∈ e.contents, c.written.Within (expression e) := by
  cases e with
  | assignmentExpression operator left right =>
    exact Part.forall_pair (within_member "left" rfl) (within_member "right" rfl)
  | objectExpression properties =>
    refine List.forall_mem_map.mpr fun m hm => within_item "properties" rfl ?_
    rw [members_eq_map]
    exact List.mem_map_of_mem hm
  | arrayExpression elements =>
    refine List.forall_mem_flatMap.mpr fun element helement => forall_mem_toList_map ?_
    rintro e rfl
    refine within_item "elements" rfl ?_
    rw [expressions?_eq_map]
    exact List.mem_map_of_mem helement
  | functionExpression id params body generator isAsync =>
    refine Part.forall_function (fun p hp => ?_) fun s hs => ?_
    · exact within_item "params" rfl (mem_patterns hp)
    · exact within_block hs (within_member "body" rfl)
  | arrowFunctionExpression id params body generator isAsync =>
    exact List.forall_mem_append.mpr
      ⟨List.forall_mem_map.mpr fun p hp => within_item "params" rfl (mem_patterns hp),
        List.forall_mem_singleton.mpr (within_member "body" rfl)⟩
  | callExpression callee arguments =>
    exact List.forall_mem_cons.mpr ⟨within_member "callee" rfl,
      List.forall_mem_map.mpr fun e he => within_item "arguments" rfl (mem_expressions he)⟩
  | newExpression callee arguments =>
    exact List.forall_mem_cons.mpr ⟨within_member "callee" rfl,
      List.forall_mem_map.mpr fun e he => within_item "arguments" rfl (mem_expressions he)⟩
  | memberExpression object property computed =>
    exact Part.forall_pair (within_member "object" rfl) (within_member "property" rfl)
  | unaryExpression operator isPrefix argument =>
    exact List.forall_mem_singleton.mpr (within_member "argument" rfl)
  | binaryExpression operator left right =>
    exact Part.forall_pair (within_member "left" rfl) (within_member "right" rfl)
  | logicalExpression operator left right =>
    exact Part.forall_pair (within_member "left" rfl) (within_member "right" rfl)
  | updateExpression operator isPrefix argument =>
    exact List.forall_mem_singleton.mpr (within_member "argument" rfl)
  | yieldExpression argument delegate =>
    refine forall_mem_toList_map ?_
    rintro e rfl
    exact within_member "argument" rfl
  | awaitExpression argument =>
    exact List.forall_mem_singleton.mpr (within_member "argument" rfl)
  | conditionalExpression test consequent alternate =>
    exact List.forall_mem_cons.mpr ⟨within_member "test" rfl,
      Part.forall_pair (within_member "consequent" rfl) (within_member "alternate" rfl)⟩
  | sequenceExpression parts =>
    exact List.forall_mem_map.mpr fun e he => within_item "expressions" rfl (mem_expressions he)
  | spreadElement argument =>
    exact List.forall_mem_singleton.mpr (within_member "argument" rfl)
  | _ => exact List.forall_mem_nil _

theorem written_pattern (p : Pattern) : ∀ c ∈ p.contents, c.written.Within (pattern p) := by
  cases p with
  | assignmentPattern left right =>
    exact Part.forall_pair (within_member "left" rfl) (within_member "right" rfl)
  | restElement argument => exact List.forall_mem_singleton.mpr (within_member "argument" rfl)
  | _ => exact List.forall_mem_nil _

theorem written_member (m : Member) : ∀ c ∈ m.contents, c.written.Within (member m) := by
  cases m with
  | objectProperty key value computed shorthand method =>
    exact Part.forall_pair (within_member "key" rfl) (within_member "value" rfl)
  | objectMethod kind key params body computed shorthand generator isAsync =>
    refine List.forall_mem_cons.mpr ⟨within_member "key" rfl,
      Part.forall_function (fun p hp => ?_) fun s hs => ?_⟩
    · exact within_item "params" rfl (mem_patterns hp)
    · exact within_block hs (within_member "body" rfl)
  | spreadElement argument => exact List.forall_mem_singleton.mpr (within_member "argument" rfl)
  | unsupported kind => exact List.forall_mem_nil _

/-- One step: what stands right below a part is written inside of it. -/
theorem written_contents (n : Part) : ∀ c ∈ n.contents, c.written.Within n.written := by
  cases n with
  | statement s => exact written_statement s
  | expression e => exact written_expression e
  | pattern p => exact written_pattern p
  | member m => exact written_member m
  | declarator d =>
    obtain ⟨id, init⟩ := d
    refine List.forall_mem_cons.mpr ⟨within_member "id" rfl, forall_mem_toList_map ?_⟩
    rintro e rfl
    exact within_member "init" rfl
  | catchClause clause =>
    obtain ⟨param, body⟩ := clause
    refine List.forall_mem_append.mpr ⟨forall_mem_toList_map ?_, List.forall_mem_map.mpr ?_⟩
    · rintro p rfl
      exact within_member "param" rfl
    · exact fun s hs => within_block hs (within_member "body" rfl)
  | loopHead head =>
    cases head with
    | variableDeclaration kind declarations =>
      exact List.forall_mem_map.mpr fun d hd => within_item "declarations" rfl (mem_declarators hd)
    -- The head is written as the expression itself.
    | expression e => exact List.forall_mem_singleton.mpr .refl
  | arrowBody body =>
    cases body with
    | blockStatement b =>
      exact List.forall_mem_map.mpr fun s hs => within_item "body" rfl (mem_statements hs)
    | expression e => exact List.forall_mem_singleton.mpr .refl

/-- What stands anywhere inside of a part is written inside of it. -/
theorem written_within {inner outer : Part} (h : inner.Within outer) :
    inner.written.Within outer.written := by
  induction h with
  | refl => exact .refl
  | tail _ hc ih => exact Relation.ReflTransGen.trans ih (written_contents _ _ hc)

end Writing

/-- The part is the statement or the literal that is made for a directive. -/
def ForDirective (v : Value) (n : Part) : Prop :=
  ∃ (bare : Bool) (words : String),
    readValue bare (.record .directive) v = .ok words ∧ n = .statement (directiveStatement words) ∨
    readValue bare (.record .directiveLiteral) v = .ok words ∧
      n = .expression (.stringLiteral words)

/-- A part of the kind is what is read from a value inside the given one that names the kind, or it
is made for a directive there. -/
def KindFrom (v : Value) (n : Part) (kind : String) : Prop :=
  ∃ u : Value, u.Within v ∧
    (Names u kind ∧ (∃ bare, readValue bare n.place u = .ok n.value) ∨ ForDirective u n)

theorem Origin.kindFrom {n : Part} (h : Origin v n) (hkind : n.kind? = some kind) :
    KindFrom v n kind := by
  obtain ⟨u, hu, hread⟩ := h
  refine ⟨u, hu, ?_⟩
  cases hread with
  | place hplace => exact .inl ⟨names_of_place hplace hkind, _, hplace⟩
  | directive hwords => exact .inr ⟨_, _, .inl ⟨hwords, rfl⟩⟩
  | directiveLiteral hwords => exact .inr ⟨_, _, .inr ⟨hwords, rfl⟩⟩

/-- An object of a kind that the level knows is refused exactly if it is malformed. -/
theorem error_iff_malformed {members : List (String × Value)} {form : Form level.Node}
    (htype : lookup? "type" members = some (.string kind))
    (hform : level.form? kind = some form) :
    (∃ fault, readValue bare (.node level) (.object members) = .error fault) ↔
      Malformed false members form.entries := by
  rw [readValue_known htype hform]
  have hnames := level.nodup_names _ (Level.mem_forms hform)
  rcases fill_cases form hnames false members with ⟨full, hfull, _, hgood⟩ | ⟨hfault, hbad⟩
  · rw [hfull]
    constructor
    · rintro ⟨fault, h⟩
      cases h
    · exact fun h => absurd h hgood
  · exact ⟨fun _ => hbad, fun _ => hfault⟩

/-- So is an array that starts with such a kind, if it has more items than the form has parts or is
malformed. -/
theorem error_iff_malformedItems {items : List Value} {form : Form level.Node}
    (hform : level.form? kind = some form) :
    (∃ fault, readValue bare (.node level) (.array (.string kind :: items)) = .error fault) ↔
      form.entries.length < items.length ∨ MalformedItems false items form.entries := by
  rw [readValue_array_known hform]
  rcases readParts_cases false form.title form.entries.length form.entries 0 items with
    ⟨full, hfull, _, hgood⟩ | ⟨⟨fault, hfault⟩, hbad⟩
  · rw [hfull]
    by_cases hextra : form.entries.length < items.length
    · simp [bind, Except.bind, hextra]
    · simp [bind, Except.bind, hextra, hgood, pure, Except.pure]
  · rw [hfault]
    exact ⟨fun _ => .inr hbad, fun _ => ⟨fault, rfl⟩⟩

/-- Unknown kinds, and only they, give nodes without a shape: a value is read as such a node exactly
if it is an object of a type that the level does not know. An object or an array of a kind that the
level knows is refused exactly if its body is malformed. And a node that is read from an object is
of the type of the object, is written with this type, and so is everything inside of it. -/
theorem readValue_kind (level : Level) (bare : Bool) (v : Value) :
    (∀ kind, readValue bare (.node level) v = .ok (level.unsupported kind) ↔
      HasType v kind ∧ kind ∉ level.known) ∧
    (∀ kind ∈ level.known, ∃ form, level.form? kind = some form ∧
      (∀ members, v = .object members → lookup? "type" members = some (.string kind) →
        ((∃ fault, readValue bare (.node level) v = .error fault) ↔
          Malformed false members form.entries)) ∧
      ∀ items, v = .array (.string kind :: items) →
        ((∃ fault, readValue bare (.node level) v = .error fault) ↔
          form.entries.length < items.length ∨ MalformedItems false items form.entries)) ∧
    ∀ kind n, HasType v kind → readValue bare (.node level) v = .ok n →
      level.kind n = kind ∧ HasType (level.part n).written kind ∧
        ∀ m k, m.Within (level.part n) → m.kind? = some k →
          HasType m.written k ∧ m.written.Within (level.part n).written ∧ KindFrom v m k := by
  refine ⟨fun kind => readValue_unsupported_iff, fun kind hknown => ?_, fun kind n htype h => ?_⟩
  · obtain ⟨form, hform⟩ := Level.exists_form hknown
    refine ⟨form, hform, ?_, ?_⟩
    · rintro members rfl htype
      exact error_iff_malformed htype hform
    · rintro items rfl
      exact error_iff_malformedItems hform
  · have hkind : level.kind n = kind := by
      obtain ⟨members, rfl, hmembers⟩ := htype
      rcases names_of_node level h with ⟨members', heq, htype'⟩ | ⟨items, heq⟩
      · cases heq
        rw [hmembers] at htype'
        cases htype'
        rfl
      · cases heq
    refine ⟨hkind, hasType_written (hkind ▸ Level.kind?_part n), fun m k hm hk => ?_⟩
    have horigin := every_origin v bare (.node level) n h _ (List.mem_singleton_self _) m hm
    exact ⟨hasType_written hk, written_within hm, horigin.kindFrom hk⟩

/-- An expression of a known kind with one of an unknown kind inside. -/
def awaitedImport : Value :=
  .object [("argument", .object [("source", .null), ("type", .string "ImportExpression")]),
    ("type", .string "AwaitExpression")]

theorem readValue_kind_awaitedImport :
    readValue false expressionPlace awaitedImport =
        .ok (.awaitExpression (.unsupported "ImportExpression")) ∧
      HasType (expression (.unsupported "ImportExpression")) "ImportExpression" ∧
      (expression (.unsupported "ImportExpression")).Within
        (expression (.awaitExpression (.unsupported "ImportExpression"))) ∧
      KindFrom awaitedImport (.expression (.unsupported "ImportExpression"))
        "ImportExpression" := by
  have hread : readValue false expressionPlace awaitedImport =
      .ok (.awaitExpression (.unsupported "ImportExpression")) := rfl
  obtain ⟨-, -, hkinds⟩ := readValue_kind .expression false awaitedImport
  obtain ⟨-, -, hinside⟩ := hkinds "AwaitExpression" _ ⟨_, rfl, rfl⟩ hread
  exact ⟨hread, hinside (.expression (.unsupported "ImportExpression")) "ImportExpression"
    (.single List.mem_cons_self) rfl⟩

end Estree

end ScriptWire
