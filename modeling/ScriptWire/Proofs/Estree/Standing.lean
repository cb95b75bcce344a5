import ScriptWire.Proofs.Estree.Written

/-!
# Where values stand in a document

The kind of an object method is the one value whose members the reader counts. What is done with any
other object depends on what its type is reported as, and no part of a form is read at a place where
such a kind could stand, except the kind of a method itself.

## Main definitions

- `Estree.readerNames` — the names that the reader knows
- `Estree.Standing` — where a value stands, seen from the kinds of object methods
- `Estree.Standing.admits` — a value that stands there may be read at a place

## Main results

- `Estree.Place.objectPlan_congr`, `Estree.Place.arrayPlan_congr` — plans depend on what a type is
  reported as
- `Estree.Place.admits_objectPlan`, `Estree.Place.admits_arrayPlan` — plans read values at places
  where they may be read
-/

namespace ScriptWire

namespace Estree

open Document (Value lookup?)
open ScriptWire.Tree

/-- The names of members that the reader knows. -/
def readerNames : List String :=
  ["type", "program", "body", "directives", "value", "name", "kind", "declarations", "id", "init",
    "test", "consequent", "alternate", "update", "block", "handler", "finalizer", "param", "params",
    "generator", "async", "await", "pattern", "flags", "operator", "properties", "elements",
    "callee", "arguments", "object", "property", "computed", "shorthand", "method", "prefix",
    "delegate", "argument", "expression", "expressions", "key", "left", "right"]

/-- Where a value stands, seen from the kinds of object methods. -/
inductive Standing
  /-- The value is the document, or that of a member. -/
  | plain
  /-- The value is an item of an array. -/
  | item
  /-- The value is the kind of an object method. -/
  | methodKind
  /-- The value is that of the only member of such a kind. -/
  | methodUnit
deriving DecidableEq

/-- Where the value of a member stands. -/
def Standing.ofMember (outer : Standing) (members : List (String × Value)) (key : String) :
    Standing :=
  if outer = .methodKind ∧ members.length = 1 then .methodUnit
  else if key = "kind" ∧ hasKind "ObjectMethod" members = true then .methodKind
  else .plain

/-- Where an item of an array stands, by the items in front of it. An object method may be written
as an array of its name, its kind and its other parts. It is then itself an item of an array, since
the members of an object literal are. -/
def Standing.ofItem : Standing → List Value → Standing
  | .item, [.string word] => if word = "ObjectMethod" then .methodKind else .item
  | _, _ => .item

variable {bare : Bool} {place : Place} {v : Value} {members others : List (String × Value)}

section Plans

theorem found_eq_string_iff {word : String} : found v = .string word ↔ v = .string word := by
  cases v <;> simp [found]

/-- Two values that are reported alike are the same, unless both are no strings. -/
theorem eq_or_not_string_of_map_found {a b : Option Value} (h : a.map found = b.map found) :
    a = b ∨ ∃ x y, a = some x ∧ b = some y ∧ found x = found y ∧
      (∀ word, x ≠ .string word) ∧ ∀ word, y ≠ .string word := by
  cases a with
  | none => exact .inl (Option.map_eq_none_iff.mp h.symm).symm
  | some x =>
    obtain ⟨y, rfl, hfound⟩ := Option.map_eq_some_iff.mp h.symm
    have hstring (word : String) : x = .string word ↔ y = .string word := by
      rw [← found_eq_string_iff, ← found_eq_string_iff, hfound]
    by_cases hx : ∃ word, x = .string word
    · obtain ⟨word, rfl⟩ := hx
      exact .inl (congrArg some ((hstring word).mp rfl).symm)
    · refine .inr ⟨x, y, rfl, rfl, hfound.symm, fun word hword => hx ⟨word, hword⟩, ?_⟩
      exact fun word hword => hx ⟨word, (hstring word).mpr hword⟩

theorem Level.objectPlan_of_not_string (level : Level) (htype : lookup? "type" members = some v)
    (hv : ∀ word, v ≠ .string word) :
    level.objectPlan members = .give (.error (.type (found v) "variant identifier")) := by
  rw [Level.objectPlan.eq_def, htype]
  cases v with
  | string word => exact absurd rfl (hv word)
  | _ => rfl

theorem hasKind_of_not_string {kind : String} (htype : lookup? "type" members = some v)
    (hv : ∀ word, v ≠ .string word) : hasKind kind members = false := by
  rw [Bool.eq_false_iff, ne_eq, hasKind_iff, htype]
  exact fun h => hv kind (Option.some.inj h)

theorem Level.arrayPlan_of_not_string (level : Level) (hv : ∀ word, v ≠ .string word) :
    level.arrayPlan (some v) = .give (.error (.type (found v) "variant identifier")) := by
  cases v with
  | string word => exact absurd rfl (hv word)
  | _ => rfl

/-- The plan for a node depends on what its type is reported as. -/
theorem Level.objectPlan_congr (level : Level)
    (h : (lookup? "type" members).map found = (lookup? "type" others).map found) :
    level.objectPlan members = level.objectPlan others := by
  rcases eq_or_not_string_of_map_found h with heq | ⟨x, y, hx, hy, hfound, hxs, hys⟩
  · rw [Level.objectPlan.eq_def, Level.objectPlan.eq_def, heq]
  · rw [level.objectPlan_of_not_string hx hxs, level.objectPlan_of_not_string hy hys, hfound]

theorem hasKind_congr (kind : String)
    (h : (lookup? "type" members).map found = (lookup? "type" others).map found) :
    hasKind kind members = hasKind kind others := by
  rcases eq_or_not_string_of_map_found h with heq | ⟨x, y, hx, hy, _, hxs, hys⟩
  · rw [hasKind.eq_def, hasKind.eq_def, heq]
  · rw [hasKind_of_not_string hx hxs, hasKind_of_not_string hy hys]

theorem Level.arrayPlan_congr (level : Level) {first second : Option Value}
    (h : first.map found = second.map found) : level.arrayPlan first = level.arrayPlan second := by
  rcases eq_or_not_string_of_map_found h with heq | ⟨x, y, rfl, rfl, hfound, hxs, hys⟩
  · rw [heq]
  · rw [level.arrayPlan_of_not_string hxs, level.arrayPlan_of_not_string hys, hfound]

/-- No kind of method is read at the place, nor inside of what is read there. -/
def Place.plain : Place → Bool
  | .methodKind => false
  | .optional place => place.plain
  | .list place => place.plain
  | _ => true

theorem Place.objectPlan_congr (hplain : place.plain = true)
    (h : (lookup? "type" members).map found = (lookup? "type" others).map found) :
    place.objectPlan bare members = place.objectPlan bare others := by
  induction place with
  | optional place ih => rw [Place.objectPlan, Place.objectPlan, ih hplain]
  | node level => exact level.objectPlan_congr h
  | loopHead =>
    rw [Place.objectPlan, Place.objectPlan, hasKind_congr _ h, Level.objectPlan_congr _ h]
  | arrowBody =>
    rw [Place.objectPlan, Place.objectPlan, hasKind_congr _ h, Level.objectPlan_congr _ h]
  | methodKind => cases hplain
  | _ => rfl

theorem Place.arrayPlan_congr {first second : Option Value}
    (h : first.map found = second.map found) :
    place.arrayPlan bare first = place.arrayPlan bare second := by
  induction place with
  | optional place ih => rw [Place.arrayPlan, Place.arrayPlan, ih]
  | node level => exact level.arrayPlan_congr h
  | loopHead => rw [Place.arrayPlan, Place.arrayPlan, Level.arrayPlan_congr _ h]
  | arrowBody => rw [Place.arrayPlan, Place.arrayPlan, Level.arrayPlan_congr _ h]
  | _ => rfl

end Plans

section Standings

/-- Objects are refused at the place, whatever their members. -/
def Place.refusesObjects : Place → Bool
  | .text => true
  | .flag => true
  | .number => true
  | .list _ => true
  | .optional place => place.refusesObjects
  | _ => false

/-- The place is that of a member of an object literal. -/
def Place.isMember : Place → Bool
  | .node .member => true
  | .optional place => place.isMember
  | _ => false

/-- A value that stands as told may be read at the place. -/
def Standing.admits : Standing → Place → Bool
  | .plain, place => place.plain && !place.isMember
  | .item, place => place.plain
  | .methodKind, .methodKind => true
  | .methodKind, place => place.plain && place.refusesObjects
  | .methodUnit, _ => false

theorem Standing.admits_methodKind_iff : Standing.admits .methodKind place = true ↔
    place = .methodKind ∨ place.plain = true ∧ place.refusesObjects = true := by
  cases place <;> simp [Standing.admits, Place.plain, Place.refusesObjects]

theorem Standing.admits_optional {s : Standing} (h : s.admits (.optional place) = true) :
    s.admits place = true := by
  cases s with
  | methodKind =>
    rcases Standing.admits_methodKind_iff.mp h with heq | hplace
    · cases heq
    · exact Standing.admits_methodKind_iff.mpr (.inr hplace)
  | _ => exact h

theorem Standing.plain_of_admits {s : Standing} (h : s.admits place = true) :
    s = .methodKind ∧ place = .methodKind ∨ place.plain = true := by
  cases s with
  | plain => exact .inr (Bool.and_eq_true_iff.mp h).1
  | item => exact .inr h
  | methodKind => exact (Standing.admits_methodKind_iff.mp h).imp (And.intro rfl) And.left
  | methodUnit => cases h

/-- The value of a member of an object that is read as a form may be read at the place of the part
with its name. -/
def Entry.Admits (members : List (String × Value)) (e : Entry) : Prop :=
  e.name ∈ readerNames ∧
    ∀ s : Standing, s ≠ .methodKind → (s.ofMember members e.name).admits e.place = true

/-- The parts of nodes have names that the reader knows, and only one part is a kind of method. -/
theorem Level.admits_forms (level : Level) : ∀ f ∈ level.forms, ∀ e ∈ f.2.entries,
    e.name ∈ readerNames ∧
      (if e.name = "kind" ∧ f.1 = "ObjectMethod" then Standing.methodKind else .plain).admits
        e.place = true := by
  cases level <;> decide

/-- The parts of records have names that the reader knows, and none is a kind of method. -/
theorem Record.admits_form (r : Record) : ∀ e ∈ r.form.entries,
    e.name ∈ readerNames ∧ Standing.plain.admits e.place = true ∧
      (e.name = "kind" → e.place.refusesObjects = true) := by
  cases r <;> decide

theorem Standing.ofMember_of_ne {s : Standing} (h : s ≠ .methodKind)
    (members : List (String × Value)) (key : String) :
    s.ofMember members key =
      if key = "kind" ∧ hasKind "ObjectMethod" members = true then .methodKind else .plain := by
  rw [Standing.ofMember, if_neg fun hs => h hs.1]

theorem Standing.ofItem_cases (s : Standing) (front : List Value) :
    s.ofItem front = .item ∨ s.ofItem front = .methodKind ∧ front = [.string "ObjectMethod"] := by
  rw [Standing.ofItem.eq_def]
  split
  · next word =>
    by_cases hword : word = "ObjectMethod"
    · exact .inr ⟨if_pos hword, by rw [hword]⟩
    · exact .inl (if_neg hword)
  · exact .inl rfl

theorem Standing.ofItem_cons (s : Standing) (kind : String) (front : List Value) :
    s.ofItem (.string kind :: front) =
      if s = .item ∧ front.length = 0 ∧ kind = "ObjectMethod" then .methodKind else .item := by
  cases s <;> cases front <;> simp [Standing.ofItem]

theorem Level.admits_form {level : Level} {kind : String} {form : Form level.Node}
    (hform : level.form? kind = some form) (htype : lookup? "type" members = some (.string kind)) :
    ∀ e ∈ form.entries, e.Admits members := by
  intro e he
  obtain ⟨hname, hplace⟩ := level.admits_forms _ (Level.mem_forms hform) e he
  refine ⟨hname, fun s hs => ?_⟩
  have hkind : hasKind "ObjectMethod" members = decide (kind = "ObjectMethod") := by
    rw [hasKind, htype]
  rw [Standing.ofMember_of_ne hs, hkind]
  simpa only [decide_eq_true_eq] using hplace

theorem Record.admits_entries (r : Record) (members : List (String × Value)) :
    ∀ e ∈ r.form.entries, e.Admits members := by
  intro e he
  obtain ⟨hname, hplain, hkind⟩ := r.admits_form e he
  refine ⟨hname, fun s hs => ?_⟩
  rw [Standing.ofMember_of_ne hs]
  split
  · next h =>
    have hplace := (Bool.and_eq_true_iff.mp hplain).1
    exact Standing.admits_methodKind_iff.mpr (.inr ⟨hplace, hkind h.1⟩)
  · exact hplain

/-- The plan reads no member of an object at a place where it may not be read. -/
def ObjectPlan.Admits {α : Type} (members : List (String × Value)) : ObjectPlan α → Prop
  | .give _ => True
  | .fill form _ => ∀ e ∈ form.entries, e.Admits members

theorem ObjectPlan.Admits.map {α β : Type} {plan : ObjectPlan α} (h : plan.Admits members)
    (f : α → β) : (plan.map f).Admits members := by
  cases plan with
  | give result => trivial
  | fill form inner => exact h

theorem Level.admits_objectPlan (level : Level) (members : List (String × Value)) :
    (level.objectPlan members).Admits members := by
  rw [Level.objectPlan.eq_def]
  split
  · trivial
  · next kind htype =>
    split
    · split
      · next form hform => exact Level.admits_form hform htype
      · trivial
    · trivial
  · trivial

theorem Place.admits_objectPlan (bare : Bool) (hplain : place.plain = true)
    (members : List (String × Value)) :
    (place.objectPlan bare members).Admits members := by
  induction place with
  | optional place ih => exact (ih hplain).map some
  | node level => exact level.admits_objectPlan members
  | record r => exact r.admits_entries members
  | loopHead =>
    rw [Place.objectPlan]
    split
    · exact Record.declaration.admits_entries members
    · exact (Level.admits_objectPlan .expression members).map _
  | arrowBody =>
    rw [Place.objectPlan]
    split
    · exact Record.block.admits_entries members
    · exact (Level.admits_objectPlan .expression members).map _
  | methodKind => cases hplain
  | _ => trivial

/-- The same for an array that stands as told, with the given first item. In a record that is
written as an array, nothing is known of the second item, so either the first takes no strings or
the second takes no objects. -/
def ArrayPlan.Admits {α : Type} (s : Standing) (first : Option Value) : ArrayPlan α → Prop
  | .give _ => True
  | .each place _ => place.plain = true
  | .fill form _ =>
    (∀ e ∈ form.entries, e.place.plain = true) ∧
      ∀ e ∈ form.entries[0]?, ∀ e' ∈ form.entries[1]?,
        e.place.refusesObjects = false ∨ e'.place.refusesObjects = true
  | .fillRest form =>
    ∃ kind, first = some (.string kind) ∧ ∀ i, ∀ e ∈ form.entries[i]?,
      (if s = .item ∧ i = 0 ∧ kind = "ObjectMethod" then Standing.methodKind else .item).admits
        e.place = true

theorem ArrayPlan.Admits.map {α β : Type} {s : Standing} {first : Option Value}
    {plan : ArrayPlan α} (h : plan.Admits s first) (f : α → β) : (plan.map f).Admits s first := by
  cases plan with
  | give result => trivial
  | each place gather => exact h
  | fill form inner => exact h
  | fillRest form => exact h

/-- The kind of a method is the first part of its form, and only items of arrays are methods. -/
theorem Level.admits_parts {level : Level} {s : Standing} (h : s.admits (.node level) = true) :
    ∀ f ∈ level.forms, ∀ i, ∀ e ∈ f.2.entries[i]?,
      (if s = .item ∧ i = 0 ∧ f.1 = "ObjectMethod" then Standing.methodKind else .item).admits
        e.place = true := by
  -- With the index beside it, a part is one of finitely many, and the tables can be gone through.
  have hindex : ∀ f ∈ level.forms, ∀ p ∈ f.2.entries.zipIdx,
      (if s = .item ∧ p.2 = 0 ∧ f.1 = "ObjectMethod" then Standing.methodKind else .item).admits
        p.1.place = true := by
    revert h
    cases level <;> cases s <;> decide
  intro f hf i e he
  exact hindex f hf (e, i) (List.mk_mem_zipIdx_iff_getElem?.mpr he)

theorem Level.admits_arrayPlan (level : Level) {s : Standing}
    (h : s.admits (.node level) = true) (first : Option Value) :
    (level.arrayPlan first).Admits s first := by
  rw [Level.arrayPlan.eq_def]
  split
  · trivial
  · next kind =>
    split
    · next form hform => exact ⟨kind, rfl, Level.admits_parts h _ (Level.mem_forms hform)⟩
    · trivial
  · trivial

theorem Record.admits_parts (r : Record) : ∀ e ∈ r.form.entries[0]?, ∀ e' ∈ r.form.entries[1]?,
    e.place.refusesObjects = false ∨ e'.place.refusesObjects = true := by
  cases r <;> decide

theorem Place.admits_arrayPlan (bare : Bool) {s : Standing} (h : s.admits place = true)
    (first : Option Value) : (place.arrayPlan bare first).Admits s first := by
  induction place with
  | optional place ih => exact (ih (Standing.admits_optional h)).map some
  | list place =>
    rcases Standing.plain_of_admits h with ⟨_, hplace⟩ | hplain
    · cases hplace
    · exact hplain
  | node level => exact level.admits_arrayPlan h first
  | record r =>
    exact ⟨fun e he => (Bool.and_eq_true_iff.mp (r.admits_form e he).2.1).1, r.admits_parts⟩
  | loopHead =>
    have hplace : s.admits expressionPlace = true := by cases s <;> exact h
    exact (Level.expression.admits_arrayPlan hplace first).map _
  | arrowBody =>
    have hplace : s.admits expressionPlace = true := by cases s <;> exact h
    exact (Level.expression.admits_arrayPlan hplace first).map _
  | _ => trivial

end Standings

end Estree

end ScriptWire
