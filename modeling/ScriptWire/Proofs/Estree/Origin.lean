import ScriptWire.Proofs.Estree.Filled
import ScriptWire.Proofs.Estree.RoundTrip
import ScriptWire.Proofs.Estree.Sound

/-!
# Where the parts of a tree are read from

Every part of a tree that is read from a document is itself what is read from a value inside of it.
Directives are the exception: a statement and an expression are made for each of them.

## Main definitions

- `Document.Value.Within` — one value stands somewhere inside another
- `Estree.Place.parts` — the parts of a tree in what is read at a place
- `Estree.ReadFrom` — a part is what is read from a value

## Main results

- `Estree.readValue_node_object`, `Estree.readValue_node_array` — how a node is read
- `Estree.every_origin` — every part of what is read from a value is read from a value inside it
-/

namespace ScriptWire

namespace Document

/-- The values right inside a value. -/
def Value.children : Value → List Value
  | .array items => items
  | .object members => members.map Prod.snd
  | _ => []

/-- One value stands inside another, or is the other. -/
def Value.Within (inner outer : Value) : Prop :=
  Relation.ReflTransGen (fun v u => u ∈ v.children) outer inner

theorem Value.sizeOf_lt_of_mem_children {u v : Value} (h : u ∈ v.children) :
    sizeOf u < sizeOf v := by
  cases v with
  | array items =>
    have hlt := List.sizeOf_lt_of_mem (show u ∈ items from h)
    simp only [Value.array.sizeOf_spec]
    omega
  | object members =>
    obtain ⟨⟨key, w⟩, hmem, rfl⟩ := List.mem_map.mp h
    have hlt := List.sizeOf_lt_of_mem hmem
    simp only [Value.object.sizeOf_spec, Prod.mk.sizeOf_spec] at hlt ⊢
    omega
  | _ => cases h

/-- What holds of a value when it holds of the values right inside it holds of every value. -/
theorem Value.induction_on_children {P : Value → Prop}
    (step : ∀ v : Value, (∀ u ∈ v.children, P u) → P v) (v : Value) : P v :=
  step v fun u _ => induction_on_children step u
termination_by sizeOf v
decreasing_by exact sizeOf_lt_of_mem_children ‹_›

end Document

namespace Estree

open Document (Value lookup? keys)
open ScriptWire.Tree

section Parts

/-- A node as a part. -/
@[simp]
def Level.part : (level : Level) → level.Node → Part
  | .statement, s => .statement s
  | .expression, e => .expression e
  | .pattern, p => .pattern p
  | .member, m => .member m

/-- The parts of a tree in what is read at a place. -/
@[simp]
def Place.parts : (place : Place) → place.Result → List Part
  | .optional place, part => part.toList.flatMap place.parts
  | .list place, items => items.flatMap place.parts
  | .node level, n => [level.part n]
  | .record .block, body => body.map .statement
  | .record .directive, words => [.statement (directiveStatement words)]
  | .record .directiveLiteral, words => [.expression (.stringLiteral words)]
  | .record .identifier, _ => []
  | .record .declaration, d => d.declarations.map .declarator
  | .record .declarator, d => [.declarator d]
  | .record .catchClause, clause => [.catchClause clause]
  | .loopHead, head => [.loopHead head]
  | .arrowBody, body => [.arrowBody body]
  | .text, _ => []
  | .flag, _ => []
  | .number, _ => []
  | .methodKind, _ => []

/-- The parts of a tree in what fills a form. -/
@[simp]
def Full.parts : (es : List Entry) → Full es → List Part
  | [], _ => []
  | e :: es, (x, full) => e.place.parts x ++ Full.parts es full

theorem contents_statementForms : ∀ f ∈ statementForms, ∀ full : Full f.2.entries,
    (f.2.build full).contents ⊆ Full.parts f.2.entries full := by
  refine List.forall_iff_forall_mem.mp ⟨?_, ?_, ?_, ?_, ?_, ?_, ?_, ?_, ?_, ?_, ?_, ?_, ?_, ?_⟩
  · exact fun _ => List.nil_subset _
  · rintro ⟨body, directives, _⟩ c hc
    -- The directives come first in the block, and last in its form.
    simp only [Statement.contents, blockForm, Form.map, List.map_append, List.mem_append] at hc
    simpa [blockForm, Form.map, List.map_eq_flatMap] using hc.symm
  · rintro ⟨expression, _⟩ c hc
    simpa [Statement.contents, List.map_eq_flatMap] using hc
  · rintro ⟨kind, declarations, _⟩ c hc
    simpa [Statement.contents, declarationForm, Form.map, List.map_eq_flatMap] using hc
  · rintro ⟨id, params, body, generator, isAsync, _⟩ c hc
    simpa [Statement.contents, functionEntries, List.map_eq_flatMap] using hc
  · rintro ⟨argument, _⟩ c hc
    simpa [Statement.contents, List.map_eq_flatMap] using hc
  · rintro ⟨test, consequent, alternate, _⟩ c hc
    simpa [Statement.contents, List.map_eq_flatMap] using hc
  · rintro ⟨test, body, _⟩ c hc
    simpa [Statement.contents, List.map_eq_flatMap] using hc
  · rintro ⟨body, test, _⟩ c hc
    simpa [Statement.contents, List.map_eq_flatMap] using hc
  · rintro ⟨init, test, update, body, _⟩ c hc
    simpa [Statement.contents, List.map_eq_flatMap] using hc
  · rintro ⟨left, right, body, _⟩ c hc
    simpa [Statement.contents, List.map_eq_flatMap] using hc
  · rintro ⟨left, right, body, isAwait, _⟩ c hc
    simpa [Statement.contents, List.map_eq_flatMap] using hc
  · rintro ⟨block, handler, finalizer, _⟩ c hc
    simpa [Statement.contents, eq_comm] using hc
  · rintro ⟨argument, _⟩ c hc
    simpa [Statement.contents, List.map_eq_flatMap] using hc

theorem contents_expressionForms : ∀ f ∈ expressionForms, ∀ full : Full f.2.entries,
    (f.2.build full).contents ⊆ Full.parts f.2.entries full := by
  refine List.forall_iff_forall_mem.mp
    ⟨?_, ?_, ?_, ?_, ?_, ?_, ?_, ?_, ?_, ?_, ?_, ?_, ?_, ?_, ?_, ?_, ?_, ?_, ?_, ?_, ?_, ?_, ?_,
      ?_, ?_, ?_⟩
  · exact fun _ => List.nil_subset _
  · exact fun _ => List.nil_subset _
  · exact fun _ => List.nil_subset _
  · exact fun _ => List.nil_subset _
  · exact fun _ => List.nil_subset _
  · exact fun _ => List.nil_subset _
  · exact fun _ => List.nil_subset _
  · exact fun _ => List.nil_subset _
  · exact fun _ => List.nil_subset _
  · rintro ⟨operator, left, right, _⟩ c hc
    simpa [Expression.contents, operandEntries, List.map_eq_flatMap] using hc
  · rintro ⟨properties, _⟩ c hc
    simpa [Expression.contents, List.map_eq_flatMap] using hc
  · rintro ⟨elements, _⟩ c hc
    simpa [Expression.contents, List.map_eq_flatMap] using hc
  · rintro ⟨id, params, body, generator, isAsync, _⟩ c hc
    simpa [Expression.contents, functionEntries, List.map_eq_flatMap] using hc
  · rintro ⟨id, params, body, generator, isAsync, _⟩ c hc
    simpa [Expression.contents, List.map_eq_flatMap] using hc
  · rintro ⟨callee, arguments, _⟩ c hc
    simpa [Expression.contents, callEntries, List.map_eq_flatMap] using hc
  · rintro ⟨callee, arguments, _⟩ c hc
    simpa [Expression.contents, callEntries, List.map_eq_flatMap] using hc
  · rintro ⟨object, property, computed, _⟩ c hc
    simpa [Expression.contents, List.map_eq_flatMap] using hc
  · rintro ⟨operator, isPrefix, argument, _⟩ c hc
    simpa [Expression.contents, List.map_eq_flatMap] using hc
  · rintro ⟨operator, left, right, _⟩ c hc
    simpa [Expression.contents, operandEntries, List.map_eq_flatMap] using hc
  · rintro ⟨operator, left, right, _⟩ c hc
    simpa [Expression.contents, operandEntries, List.map_eq_flatMap] using hc
  · rintro ⟨operator, isPrefix, argument, _⟩ c hc
    simpa [Expression.contents, List.map_eq_flatMap] using hc
  · rintro ⟨argument, delegate, _⟩ c hc
    simpa [Expression.contents, List.map_eq_flatMap] using hc
  · rintro ⟨argument, _⟩ c hc
    simpa [Expression.contents, List.map_eq_flatMap] using hc
  · rintro ⟨test, consequent, alternate, _⟩ c hc
    simpa [Expression.contents, List.map_eq_flatMap] using hc
  · rintro ⟨expressions, _⟩ c hc
    simpa [Expression.contents, List.map_eq_flatMap] using hc
  · rintro ⟨argument, _⟩ c hc
    simpa [Expression.contents, List.map_eq_flatMap] using hc

theorem contents_patternForms : ∀ f ∈ patternForms, ∀ full : Full f.2.entries,
    (f.2.build full).contents ⊆ Full.parts f.2.entries full := by
  refine List.forall_iff_forall_mem.mp ⟨?_, ?_, ?_, ?_, ?_⟩
  · exact fun _ => List.nil_subset _
  · rintro ⟨left, right, _⟩ c hc
    simpa [Pattern.contents, List.map_eq_flatMap] using hc
  · rintro ⟨argument, _⟩ c hc
    simpa [Pattern.contents, List.map_eq_flatMap] using hc
  · exact fun _ => List.nil_subset _
  · exact fun _ => List.nil_subset _

theorem contents_memberForms : ∀ f ∈ memberForms, ∀ full : Full f.2.entries,
    (f.2.build full).contents ⊆ Full.parts f.2.entries full := by
  refine List.forall_iff_forall_mem.mp ⟨?_, ?_, ?_⟩
  · rintro ⟨key, value, computed, shorthand, method, _⟩ c hc
    simpa [Member.contents, List.map_eq_flatMap] using hc
  · rintro ⟨kind, key, params, body, computed, shorthand, generator, isAsync, _⟩ c hc
    simpa [Member.contents, List.map_eq_flatMap] using hc
  · rintro ⟨argument, _⟩ c hc
    simpa [Member.contents, List.map_eq_flatMap] using hc

/-- What stands right below a node is among the parts that its form was filled with. -/
theorem Level.contents_form {level : Level} {kind : String} {form : Form level.Node}
    (h : level.form? kind = some form) (full : Full form.entries) :
    (level.part (form.build full)).contents ⊆ Full.parts form.entries full := by
  have hmem := Level.mem_forms h
  cases level with
  | statement => exact contents_statementForms _ hmem full
  | expression => exact contents_expressionForms _ hmem full
  | pattern => exact contents_patternForms _ hmem full
  | member => exact contents_memberForms _ hmem full

theorem Place.parts_of_blank {place : Place} {x : place.Result} (h : place.blank x = true) :
    place.parts x = [] := by
  cases place with
  | flag => rfl
  | optional place =>
    obtain rfl := Option.isNone_iff_eq_none.mp h
    rfl
  | list place =>
    obtain rfl := List.isEmpty_iff.mp h
    rfl
  | _ => cases h

end Parts

section Inversion

variable {bare : Bool} {level : Level} {kind : String} {form : Form level.Node}
variable {members : List (String × Value)} {items : List Value}

theorem Level.exists_form (h : kind ∈ level.known) : ∃ form, level.form? kind = some form := by
  rw [level.known_eq_kinds] at h
  obtain ⟨f, hf, rfl⟩ := List.mem_map.mp h
  cases hform : level.form? f.1 with
  | some form => exact ⟨form, rfl⟩
  | none => exact absurd rfl (bne_iff_ne.mp (List.lookup_eq_none_iff.mp hform f hf))

/-- An object of a kind that the level knows is read by filling the form of the kind. -/
theorem readValue_known (htype : lookup? "type" members = some (.string kind))
    (hform : level.form? kind = some form) :
    readValue bare (.node level) (.object members) = do
      let row ← readMembers false form.entries (Row.empty form.entries) members
      let parts ← row.complete form.entries
      return form.build parts := by
  rw [readValue, Place.objectPlan, Level.objectPlan]
  simp only [htype, hform, if_pos (Level.mem_known hform)]

/-- An object of a kind that the level does not know is read as a node without a shape. -/
theorem readValue_unknown (htype : lookup? "type" members = some (.string kind))
    (h : kind ∉ level.known) :
    readValue bare (.node level) (.object members) = .ok (level.unsupported kind) := by
  rw [readValue, Place.objectPlan, Level.objectPlan]
  simp only [htype, if_neg h]

/-- A node is read from an object that names its kind: as a node without a shape if the level does
not know the kind, and by filling the form of the kind otherwise. -/
theorem readValue_node_object {n : level.Node}
    (h : readValue bare (.node level) (.object members) = .ok n) :
    ∃ kind, lookup? "type" members = some (.string kind) ∧
      (kind ∉ level.known ∧ n = level.unsupported kind ∨
        ∃ form full, level.form? kind = some form ∧ Filled false members form.entries full ∧
          n = form.build full) := by
  obtain ⟨kind, htype⟩ : ∃ kind, lookup? "type" members = some (.string kind) := by
    rw [readValue, Place.objectPlan, Level.objectPlan.eq_def] at h
    cases htype : lookup? "type" members with
    | none =>
      rw [htype] at h
      cases h
    | some t =>
      rw [htype] at h
      cases t with
      | string kind => exact ⟨kind, rfl⟩
      | _ => cases h
  refine ⟨kind, htype, ?_⟩
  by_cases hknown : kind ∈ level.known
  · obtain ⟨form, hform⟩ := Level.exists_form hknown
    have hnames := level.nodup_names _ (Level.mem_forms hform)
    rw [readValue_known htype hform] at h
    rcases fill_cases form hnames false members with
      ⟨full, hfull, hfilled, _⟩ | ⟨⟨fault, hfault⟩, _⟩
    · exact .inr ⟨form, full, hform, hfilled, Except.ok.inj (h.symm.trans hfull)⟩
    · cases hfault.symm.trans h
  · rw [readValue_unknown htype hknown] at h
    exact .inl ⟨hknown, (Except.ok.inj h).symm⟩

/-- An array is read by filling the form of the kind that its first item names. -/
theorem readValue_array_known (hform : level.form? kind = some form) (items : List Value) :
    readValue bare (.node level) (.array (.string kind :: items)) = do
      let (parts, extra) ← readParts false form.title form.entries.length form.entries 0 items
      if extra then .error (excess false items.length form.entries.length)
      else return form.build parts := by
  rw [readValue, Place.arrayPlan, List.head?_cons, Level.arrayPlan]
  simp only [hform]

/-- Reading the parts of a form from an array, all of which has to be used. -/
theorem readParts_eq_ok {α : Type} {form : Form α} {inner : Bool} {count : Nat} {x : α}
    (h : (do
      let (parts, extra) ← readParts inner form.title form.entries.length form.entries 0 items
      if extra then .error (excess bare count form.entries.length)
      else return form.build parts) = .ok x) :
    ∃ full, Taken inner form.entries items full ∧ x = form.build full := by
  rcases readParts_cases inner form.title form.entries.length form.entries 0 items with
    ⟨full, hfull, htaken, _⟩ | ⟨⟨fault, hfault⟩, _⟩
  · refine ⟨full, htaken, ?_⟩
    rw [hfull] at h
    by_cases hextra : form.entries.length < items.length
    · simp [bind, Except.bind, hextra] at h
    · simp only [bind, Except.bind, hextra, decide_false, Bool.false_eq_true, if_false] at h
      exact (Except.ok.inj h).symm
  · rw [hfault] at h
    cases h

theorem readValue_node_array {n : level.Node}
    (h : readValue bare (.node level) (.array items) = .ok n) :
    ∃ kind rest form full, items = .string kind :: rest ∧ level.form? kind = some form ∧
      Taken false form.entries rest full ∧ n = form.build full := by
  obtain ⟨kind, rest, form, rfl, hform⟩ : ∃ kind rest form,
      items = .string kind :: rest ∧ level.form? kind = some form := by
    rw [readValue, Place.arrayPlan, Level.arrayPlan.eq_def] at h
    cases items with
    | nil => cases h
    | cons first rest =>
      cases first with
      | string kind =>
        cases hform : level.form? kind with
        | none =>
          simp only [List.head?_cons, hform] at h
          cases h
        | some form => exact ⟨kind, rest, form, rfl, hform⟩
      | _ => cases h
  rw [readValue_array_known hform] at h
  obtain ⟨full, htaken, rfl⟩ := readParts_eq_ok h
  exact ⟨kind, rest, form, full, rfl, hform, htaken, rfl⟩

theorem readValue_record_object {r : Record} {x : r.Result}
    (h : readValue bare (.record r) (.object members) = .ok x) :
    ∃ full, Filled bare members r.form.entries full ∧ x = r.form.build full := by
  rw [readValue] at h
  rcases fill_cases r.form r.nodup_names bare members with
    ⟨full, hfull, hfilled, _⟩ | ⟨⟨fault, hfault⟩, _⟩
  · exact ⟨full, hfilled, Except.ok.inj (h.symm.trans hfull)⟩
  · cases hfault.symm.trans h

theorem readValue_record_array {r : Record} {x : r.Result}
    (h : readValue bare (.record r) (.array items) = .ok x) :
    ∃ full, Taken bare r.form.entries items full ∧ x = r.form.build full := by
  rw [readValue] at h
  exact readParts_eq_ok h

/-- Where a plan for an array is that of another place with one more step, so is what is read. -/
theorem readValue_array_map (place other : Place) {f : other.Result → place.Result}
    (h : place.arrayPlan bare items.head? = (other.arrayPlan bare items.head?).map f) :
    readValue bare place (.array items) = (readValue bare other (.array items)).map f := by
  rw [readValue, readValue, h]
  cases other.arrayPlan bare items.head? with
  | give result => rfl
  | each item gather =>
    simp only [ArrayPlan.map]
    cases readItems bare item items <;> rfl
  | fill form inner =>
    simp only [ArrayPlan.map, Form.map]
    cases readParts inner form.title form.entries.length form.entries 0 items with
    | error fault => rfl
    | ok r =>
      simp only [bind, Except.bind]
      split <;> rfl
  | fillRest form =>
    simp only [ArrayPlan.map, Form.map]
    cases items with
    | nil => rfl
    | cons first rest =>
      simp only
      cases readParts false form.title form.entries.length form.entries 0 rest with
      | error fault => rfl
      | ok r =>
        simp only [bind, Except.bind]
        split <;> rfl

variable {v : Value}

/-- Only objects and arrays are read at the place. -/
def Place.compound : Place → Bool
  | .list _ => true
  | .node _ => true
  | .record _ => true
  | .loopHead => true
  | .arrowBody => true
  | _ => false

theorem object_or_array_of_readValue {place : Place} (hplace : place.compound = true)
    {x : place.Result} (h : readValue bare place v = .ok x) :
    (∃ members, v = .object members) ∨ ∃ items, v = .array items := by
  cases v with
  | object members => exact .inl ⟨members, rfl⟩
  | array items => exact .inr ⟨items, rfl⟩
  | _ =>
    simp only [readValue] at h
    cases place with
    | list place => cases h
    | node level => cases h
    | record r => cases h
    | loopHead => cases h
    | arrowBody => cases h
    | _ => cases hplace

theorem readValue_optional_eq_ok {place : Place} {part : Option place.Result}
    (h : readValue bare (.optional place) v = .ok part) :
    part = none ∨ ∃ x, readValue bare place v = .ok x ∧ some x = part := by
  cases v with
  | object members =>
    rw [readValue_object_map (.optional place) place rfl] at h
    exact .inr (map_eq_ok.mp h)
  | array items =>
    rw [readValue_array_map (.optional place) place rfl] at h
    exact .inr (map_eq_ok.mp h)
  | null =>
    simp only [readValue] at h
    exact .inl (Except.ok.inj h).symm
  | _ =>
    simp only [readValue] at h ⊢
    exact .inr (map_eq_ok.mp h)

/-- The first part of a loop is a declaration that names itself so, or an expression. -/
theorem readValue_loopHead_eq_ok {head : ForInit} (h : readValue bare .loopHead v = .ok head) :
    (∃ members d, v = .object members ∧ hasKind "VariableDeclaration" members = true ∧
      readValue true (.record .declaration) v = .ok d ∧
        .variableDeclaration d.kind d.declarations = head) ∨
    ∃ e, readValue bare expressionPlace v = .ok e ∧ .expression e = head := by
  rcases object_or_array_of_readValue rfl h with ⟨members, rfl⟩ | ⟨items, rfl⟩
  · by_cases hkind : hasKind "VariableDeclaration" members = true
    · rw [readValue_object_map .loopHead (.record .declaration) (if_pos hkind)] at h
      obtain ⟨d, hd⟩ := map_eq_ok.mp h
      exact .inl ⟨members, d, rfl, hkind, hd⟩
    · have hplan : Place.loopHead.objectPlan bare members =
          (expressionPlace.objectPlan bare members).map .expression := if_neg hkind
      rw [readValue_object_map .loopHead expressionPlace hplan] at h
      exact .inr (map_eq_ok.mp h)
  · rw [readValue_array_map .loopHead expressionPlace rfl] at h
    exact .inr (map_eq_ok.mp h)

/-- The body of an arrow function is a block that names itself so, or an expression. -/
theorem readValue_arrowBody_eq_ok {body : ArrowBody} (h : readValue bare .arrowBody v = .ok body) :
    (∃ members b, v = .object members ∧ hasKind "BlockStatement" members = true ∧
      readValue true (.record .block) v = .ok b ∧ .blockStatement b = body) ∨
    ∃ e, readValue bare expressionPlace v = .ok e ∧ .expression e = body := by
  rcases object_or_array_of_readValue rfl h with ⟨members, rfl⟩ | ⟨items, rfl⟩
  · by_cases hkind : hasKind "BlockStatement" members = true
    · rw [readValue_object_map .arrowBody (.record .block) (if_pos hkind)] at h
      obtain ⟨b, hb⟩ := map_eq_ok.mp h
      exact .inl ⟨members, b, rfl, hkind, hb⟩
    · have hplan : Place.arrowBody.objectPlan bare members =
          (expressionPlace.objectPlan bare members).map .expression := if_neg hkind
      rw [readValue_object_map .arrowBody expressionPlace hplan] at h
      exact .inr (map_eq_ok.mp h)
  · rw [readValue_array_map .arrowBody expressionPlace rfl] at h
    exact .inr (map_eq_ok.mp h)

end Inversion

section Origin

variable {bare : Bool} {v : Value} {place : Place}

/-- A part is what is read from a value at its place, or what is made for a directive there. -/
inductive ReadFrom (v : Value) : Part → Prop
  | place {n : Part} {bare : Bool} (h : readValue bare n.place v = .ok n.value) : ReadFrom v n
  | directive {words : String} {bare : Bool}
    (h : readValue bare (.record .directive) v = .ok words) :
    ReadFrom v (.statement (directiveStatement words))
  | directiveLiteral {words : String} {bare : Bool}
    (h : readValue bare (.record .directiveLiteral) v = .ok words) :
    ReadFrom v (.expression (.stringLiteral words))

/-- A part is made in one step from a value: it belongs to what is read from a value right inside,
or it is read from the value itself and the parts below it are made in this way. -/
inductive Made (v : Value) : Part → Prop
  | inside {u : Value} {bare : Bool} {place : Place} {x : place.Result} {c : Part}
    (hu : u ∈ v.children) (h : readValue bare place u = .ok x) (hc : c ∈ place.parts x) : Made v c
  | here {c : Part} (h : ReadFrom v c) (hc : ∀ d ∈ c.contents, Made v d) : Made v c

theorem Filled.made {members : List (String × Value)} {es : List Entry} {full : Full es}
    (h : Filled bare members es full) (hes : ∀ e ∈ es, e.blank = true) :
    ∀ c ∈ Full.parts es full, Made (.object members) c := by
  induction es with
  | nil => exact List.forall_mem_nil _
  | cons e es ih =>
    obtain ⟨x, full⟩ := full
    obtain ⟨hpart, hrest⟩ := h
    obtain ⟨he, hes⟩ := List.forall_mem_cons.mp hes
    refine List.forall_mem_append.mpr ⟨fun c hc => ?_, ih hrest hes⟩
    rcases hpart with ⟨u, hu, hread⟩ | ⟨_, habsent⟩
    · exact .inside (List.mem_map_of_mem hu) hread hc
    · have hblank := (Bool.and_eq_true_iff.mp he).1
      rw [habsent] at hblank
      rw [Place.parts_of_blank hblank] at hc
      cases hc

theorem Taken.made {items : List Value} {es : List Entry} {full : Full es}
    (h : Taken bare es items full) (hes : ∀ e ∈ es, e.blank = true) (hv : items ⊆ v.children) :
    ∀ c ∈ Full.parts es full, Made v c := by
  induction es generalizing items with
  | nil => exact List.forall_mem_nil _
  | cons e es ih =>
    obtain ⟨x, full⟩ := full
    obtain ⟨he, hes⟩ := List.forall_mem_cons.mp hes
    cases items with
    | nil =>
      obtain ⟨hcut, hrest⟩ := h
      refine List.forall_mem_append.mpr ⟨fun c hc => ?_, ih hrest hes hv⟩
      have hblank := (Bool.and_eq_true_iff.mp he).2
      rw [hcut] at hblank
      rw [Place.parts_of_blank hblank] at hc
      cases hc
    | cons u items =>
      obtain ⟨hread, hrest⟩ := h
      obtain ⟨hu, hitems⟩ := List.cons_subset.mp hv
      exact List.forall_mem_append.mpr ⟨fun c hc => .inside hu hread hc, ih hrest hes hitems⟩

theorem made_node {level : Level} {n : level.Node} (h : readValue bare (.node level) v = .ok n)
    (hcontents : ∀ c ∈ (level.part n).contents, Made v c) : Made v (level.part n) := by
  cases level <;> exact .here (.place h) hcontents

/-- A node is made from the value that it is read from. -/
theorem made_of_node {level : Level} {n : level.Node}
    (h : readValue bare (.node level) v = .ok n) : Made v (level.part n) := by
  refine made_node h ?_
  rcases object_or_array_of_readValue rfl h with ⟨members, rfl⟩ | ⟨items, rfl⟩
  · obtain ⟨kind, _, ⟨_, rfl⟩ | ⟨form, full, hform, hfilled, rfl⟩⟩ := readValue_node_object h
    · cases level <;> exact List.forall_mem_nil _
    · intro c hc
      exact hfilled.made (level.blank_entries _ (Level.mem_forms hform)) c
        (Level.contents_form hform full hc)
  · obtain ⟨kind, rest, form, full, rfl, hform, htaken, rfl⟩ := readValue_node_array h
    have hchildren : rest ⊆ (Value.array (.string kind :: rest)).children :=
      List.subset_cons_self _ rest
    intro c hc
    exact htaken.made (level.blank_entries _ (Level.mem_forms hform)) hchildren c
      (Level.contents_form hform full hc)

/-- The parts of a record are those that its form was filled with, or are read from the same value
and have these below them. -/
theorem made_of_form {r : Record} {full : Full r.form.entries}
    (h : readValue bare (.record r) v = .ok (r.form.build full))
    (hfull : ∀ c ∈ Full.parts r.form.entries full, Made v c) :
    ∀ c ∈ (Place.record r).parts (r.form.build full), Made v c := by
  cases r with
  | block =>
    obtain ⟨body, directives, _⟩ := full
    intro c hc
    refine hfull c ?_
    simp only [Record.form, blockForm, Place.parts, List.map_append, List.mem_append] at hc
    simpa [Record.form, blockForm, List.map_eq_flatMap] using hc.symm
  | directive =>
    obtain ⟨text, _⟩ := full
    refine List.forall_mem_singleton.mpr (.here (.directive h) ?_)
    exact List.forall_mem_singleton.mpr (hfull _ List.mem_cons_self)
  | directiveLiteral =>
    exact List.forall_mem_singleton.mpr (.here (.directiveLiteral h) (List.forall_mem_nil _))
  | identifier => exact List.forall_mem_nil _
  | declaration =>
    obtain ⟨kind, declarations, _⟩ := full
    intro c hc
    refine hfull c ?_
    simpa [Record.form, declarationForm, List.map_eq_flatMap] using hc
  | declarator =>
    obtain ⟨id, init, _⟩ := full
    refine List.forall_mem_singleton.mpr (.here (.place h) fun c hc => hfull c ?_)
    simpa [Record.form, declaratorForm, Part.contents, List.map_eq_flatMap] using hc
  | catchClause =>
    obtain ⟨param, body, _⟩ := full
    refine List.forall_mem_singleton.mpr (.here (.place h) fun c hc => hfull c ?_)
    simpa [Record.form, catchClauseForm, Part.contents, List.map_eq_flatMap] using hc

theorem made_of_record {r : Record} {x : r.Result} (h : readValue bare (.record r) v = .ok x) :
    ∀ c ∈ (Place.record r).parts x, Made v c := by
  rcases object_or_array_of_readValue rfl h with ⟨members, rfl⟩ | ⟨items, rfl⟩
  · obtain ⟨full, hfilled, rfl⟩ := readValue_record_object h
    exact made_of_form h (hfilled.made r.blank_entries)
  · obtain ⟨full, htaken, rfl⟩ := readValue_record_array h
    exact made_of_form h (htaken.made r.blank_entries (List.Subset.refl items))

theorem readItems_mem {items : List Value} {xs : List place.Result}
    (h : readItems bare place items = .ok xs) :
    ∀ x ∈ xs, ∃ u ∈ items, readValue bare place u = .ok x := by
  induction items generalizing xs with
  | nil =>
    rw [readItems] at h
    cases h
    exact List.forall_mem_nil _
  | cons u rest ih =>
    rw [readItems] at h
    obtain ⟨x, hx, hrest⟩ := bind_eq_ok.mp h
    obtain ⟨xs', hxs', heq⟩ := bind_eq_ok.mp hrest
    cases heq
    rw [List.forall_mem_cons]
    refine ⟨⟨u, List.mem_cons_self, hx⟩, fun y hy => ?_⟩
    obtain ⟨w, hw, hread⟩ := ih hxs' y hy
    exact ⟨w, List.mem_cons_of_mem u hw, hread⟩

/-- One step: the parts of what is read from a value are made from it. -/
theorem made_of_readValue {x : place.Result} (h : readValue bare place v = .ok x) :
    ∀ c ∈ place.parts x, Made v c := by
  induction place with
  | optional place ih =>
    rcases readValue_optional_eq_ok h with rfl | ⟨y, hy, rfl⟩
    · exact List.forall_mem_nil _
    · simpa using ih hy
  | list place =>
    rcases object_or_array_of_readValue rfl h with ⟨members, rfl⟩ | ⟨items, rfl⟩
    · rw [readValue] at h
      cases h
    · rw [readValue] at h
      obtain ⟨xs, hxs, heq⟩ := bind_eq_ok.mp h
      cases heq
      intro c hc
      obtain ⟨y, hy, hc⟩ := List.mem_flatMap.mp hc
      obtain ⟨u, hu, hread⟩ := readItems_mem hxs y hy
      exact .inside hu hread hc
  | node level => exact List.forall_mem_singleton.mpr (made_of_node h)
  | record r => exact made_of_record h
  | loopHead =>
    refine List.forall_mem_singleton.mpr (.here (.place h) ?_)
    rcases readValue_loopHead_eq_ok h with ⟨_, d, _, _, hd, rfl⟩ | ⟨e, he, rfl⟩
    · exact made_of_record hd
    · exact List.forall_mem_singleton.mpr (made_of_node he)
  | arrowBody =>
    refine List.forall_mem_singleton.mpr (.here (.place h) ?_)
    rcases readValue_arrowBody_eq_ok h with ⟨_, b, _, _, hb, rfl⟩ | ⟨e, he, rfl⟩
    · exact made_of_record hb
    · exact List.forall_mem_singleton.mpr (made_of_node he)
  | _ => exact List.forall_mem_nil _

/-- A part is read from a value that stands in the given one. -/
def Origin (v : Value) (c : Part) : Prop :=
  ∃ u : Value, u.Within v ∧ ReadFrom u c

/-- Every part of what is read from a value, at any depth, is read from a value inside it. -/
theorem every_origin (v : Value) : ∀ (bare : Bool) (place : Place) (x : place.Result),
    readValue bare place v = .ok x → ∀ c ∈ place.parts x, c.Every (Origin v) := by
  induction v using Value.induction_on_children with
  | step v ih =>
    intro bare place x h c hc
    have hmade := made_of_readValue h c hc
    -- Only the first case goes down in the value; in the second the parts below share it.
    clear h hc
    induction hmade with
    | inside hu h hc =>
      intro inner hinner
      obtain ⟨u, hwithin, hread⟩ := ih _ hu _ _ _ h _ hc inner hinner
      exact ⟨u, .head hu hwithin, hread⟩
    | here h _ hcontents => exact Part.every_iff.mpr ⟨⟨v, .refl, h⟩, hcontents⟩

end Origin

end Estree

end ScriptWire
