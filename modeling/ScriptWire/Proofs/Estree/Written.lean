import ScriptWire.Estree.Writer
import ScriptWire.Proofs.Estree.Filling
import Mathlib.Data.List.Nodup

/-!
# Reading written objects

Objects are written with the parts of their form in order, and stored in the order of the keys. They
are read back when every part is.

## Main definitions

- `Estree.Listed` — members are the parts of a form, in order

## Main results

- `Estree.Level.known_eq_kinds` — a level knows the kinds that it has forms for, and no others
- `Estree.readValue_record`, `Estree.readValue_node` — a written record and a written node are read
- `Estree.readValue_list`, `Estree.readValue_optional` — lists and optional parts are read
-/

namespace ScriptWire

namespace Estree

open Document (Value lookup? keys Ascending ofMembers)

variable {bare inner : Bool} {members : List (String × Value)}

/-- Members are the parts of a form, in order. Parts at the end may be left out. -/
def Listed (bare : Bool) : (es : List Entry) → List (String × Value) → Full es → Prop
  | [], members, _ => members = []
  | e :: es, [], (x, full) => e.ifAbsent = some x ∧ Listed bare es [] full
  | e :: es, (key, v) :: members, (x, full) =>
    key = e.name ∧ readValue bare e.place v = .ok x ∧ Listed bare es members full

/-- The keys of parts in order are names of the form, in order. -/
theorem Listed.keys_prefix : {es : List Entry} → {members : List (String × Value)} →
    {full : Full es} → Listed bare es members full → keys members <+: es.map Entry.name
  | [], _, _, h => by
    cases h
    exact List.nil_prefix
  | _ :: _, [], _, _ => List.nil_prefix
  | _ :: _, (key, v) :: members, (_, _), h => by
    obtain ⟨rfl, _, hrest⟩ := h
    exact (List.prefix_cons_inj _).mpr hrest.keys_prefix

/-- Parts in order are given by any members among which their names have the same values. -/
theorem Listed.supplied {stored : List (String × Value)} :
    {es : List Entry} → {members : List (String × Value)} → {full : Full es} →
      Listed bare es members full → (∀ member ∈ members, lookup? member.1 stored = some member.2) →
        (∀ e ∈ es, e.name ∉ keys members → lookup? e.name stored = none) →
          (es.map Entry.name).Nodup → Supplied bare stored es full
  | [], _, _, _, _, _, _ => trivial
  | e :: es, [], (x, full), h, hfound, habsent, hnodup => by
    obtain ⟨hpart, hrest⟩ := h
    rw [List.map_cons, List.nodup_cons] at hnodup
    have hnone : lookup? e.name stored = none := habsent e List.mem_cons_self List.not_mem_nil
    refine ⟨by rw [hnone]; exact hpart, hrest.supplied hfound ?_ hnodup.2⟩
    exact fun other hmem => habsent other (List.mem_cons_of_mem e hmem)
  | e :: es, (key, v) :: members, (x, full), h, hfound, habsent, hnodup => by
    obtain ⟨rfl, hpart, hrest⟩ := h
    rw [List.map_cons, List.nodup_cons] at hnodup
    have hsome : lookup? e.name stored = some v := hfound (e.name, v) List.mem_cons_self
    refine ⟨by rw [hsome]; exact hpart, hrest.supplied ?_ ?_ hnodup.2⟩
    · exact fun member hmem => hfound member (List.mem_cons_of_mem _ hmem)
    · intro other hmem hkey
      refine habsent other (List.mem_cons_of_mem e hmem) ?_
      rw [keys, List.map_cons, List.mem_cons, not_or]
      refine ⟨?_, hkey⟩
      intro hname
      exact hnodup.1 (List.mem_map.mpr ⟨other, hmem, hname⟩)

/-- Parts in order are given by the stored form of their object, after further members that no part
has the name of. -/
theorem Listed.supplied_ofMembers {es : List Entry} {full : Full es}
    (h : Listed bare es members full) (hnames : (es.map Entry.name).Nodup)
    (first : List (String × Value)) (hfirst : ∀ e ∈ es, e.name ∉ keys first) :
    Supplied bare (ofMembers (first ++ members)) es full := by
  have hkeys : (keys members.reverse).Nodup := by
    rw [keys, List.map_reverse, List.nodup_reverse]
    exact hnames.sublist h.keys_prefix.sublist
  have hlookup (k : String) : lookup? k (ofMembers (first ++ members)) =
      (lookup? k members.reverse).or (lookup? k first.reverse) := by
    rw [Document.lookup?_ofMembers, List.reverse_append, Document.lookup?_append]
  refine h.supplied (fun member hmem => ?_) (fun e hmem hkey => ?_) hnames
  · have hfound := Document.lookup?_eq_some_of_mem hkeys (List.mem_reverse.mpr hmem)
    rw [hlookup, hfound, Option.some_or]
  · have hnone : lookup? e.name members.reverse = none := by
      rw [Document.lookup?_eq_none_iff, keys, List.map_reverse, List.mem_reverse]
      exact hkey
    rw [hlookup, hnone, Option.none_or, Document.lookup?_eq_none_iff, keys, List.map_reverse,
      List.mem_reverse]
    exact hfirst e hmem

theorem readValue_fill (place : Place) (form : Form place.Result) (full : Full form.entries)
    (hplan : place.objectPlan bare members = .fill form inner)
    (hnames : (form.entries.map Entry.name).Nodup) (hkeys : Ascending members)
    (h : Supplied inner members form.entries full) :
    readValue bare place (.object members) = .ok (form.build full) := by
  rw [readValue, hplan]
  exact fill_of_supplied hnames hkeys h

theorem readValue_record {r : Record} {result : r.Result}
    (h : ∃ full, Listed bare r.form.entries members full ∧ r.form.build full = result) :
    readValue bare (.record r) (record members) = .ok result := by
  obtain ⟨full, hlisted, rfl⟩ := h
  refine readValue_fill _ _ _ rfl r.nodup_names (Document.ascending_ofMembers members) ?_
  exact hlisted.supplied_ofMembers r.nodup_names [] fun _ _ => List.not_mem_nil

theorem hasKind_iff {kind : String} :
    hasKind kind members = true ↔ lookup? "type" members = some (.string kind) := by
  rw [hasKind.eq_def]
  cases lookup? "type" members with
  | none => simp
  | some t => cases t <;> simp

theorem lookup?_type {kind : String} (h : "type" ∉ keys members) :
    lookup? "type" (ofMembers (("type", .string kind) :: members)) = some (.string kind) := by
  have hnone : lookup? "type" members.reverse = none := by
    rw [Document.lookup?_eq_none_iff, keys, List.map_reverse, List.mem_reverse]
    exact h
  rw [Document.lookup?_ofMembers, List.reverse_cons, Document.lookup?_append, hnone]
  rfl

/-- An object that names its kind is read by filling a form where its place plans so. -/
theorem readValue_named (place : Place) (form : Form place.Result) (inner : Bool) {kind : String}
    {result : place.Result} (hnames : (form.entries.map Entry.name).Nodup)
    (hother : ∀ e ∈ form.entries, e.name ∉ ["type"])
    (hplan : lookup? "type" (ofMembers (("type", .string kind) :: members)) = some (.string kind) →
      place.objectPlan bare (ofMembers (("type", .string kind) :: members)) = .fill form inner)
    (h : ∃ full, Listed inner form.entries members full ∧ form.build full = result) :
    readValue bare place (node kind members) = .ok result := by
  obtain ⟨full, hlisted, rfl⟩ := h
  have htype : "type" ∉ keys members := by
    intro hkey
    obtain ⟨e, he, hname⟩ := List.mem_map.mp (hlisted.keys_prefix.subset hkey)
    exact hother e he (hname ▸ List.mem_singleton_self _)
  exact readValue_fill _ _ _ (hplan (lookup?_type htype)) hnames (Document.ascending_ofMembers _)
    (hlisted.supplied_ofMembers hnames [("type", .string kind)] hother)

/-- No part of a node has the name under which its kind stands. -/
theorem Level.type_not_mem (level : Level) :
    ∀ f ∈ level.forms, ∀ e ∈ f.2.entries, e.name ∉ ["type"] := by
  cases level <;> decide

theorem Level.mem_forms {level : Level} {kind : String} {form : Form level.Node}
    (h : level.form? kind = some form) : (kind, form) ∈ level.forms := by
  obtain ⟨before, after, hforms, _⟩ := List.lookup_eq_some_iff.mp h
  rw [hforms]
  exact List.mem_append_right before List.mem_cons_self

/-- The kinds that a level knows are those that it has forms for. -/
theorem Level.known_eq_kinds (level : Level) : level.known = level.kinds := by
  cases level <;> rfl

theorem Level.mem_known {level : Level} {kind : String} {form : Form level.Node}
    (h : level.form? kind = some form) : kind ∈ level.known := by
  rw [level.known_eq_kinds]
  exact List.mem_map_of_mem (Level.mem_forms h)

/-- A node of a kind that its level knows is read back if its parts are. -/
theorem readValue_node {level : Level} {kind : String} {form : Form level.Node} {n : level.Node}
    (hform : level.form? kind = some form)
    (h : ∃ full, Listed false form.entries members full ∧ form.build full = n) :
    readValue bare (.node level) (node kind members) = .ok n := by
  have hmem := Level.mem_forms hform
  refine readValue_named (.node level) form false (level.nodup_names _ hmem)
    (level.type_not_mem _ hmem) ?_ h
  intro htype
  rw [Place.objectPlan, Level.objectPlan]
  simp only [htype, hform, if_pos (Level.mem_known hform)]

/-- A node of a kind that its level does not know is read as such. -/
theorem readValue_foreign {level : Level} {kind : String} (h : kind ∉ level.known) :
    readValue bare (.node level) (node kind []) = .ok (level.unsupported kind) := by
  have htype : lookup? "type" (ofMembers [("type", .string kind)]) = some (.string kind) :=
    lookup?_type List.not_mem_nil
  rw [node, record, readValue, Place.objectPlan, Level.objectPlan]
  simp only [htype, if_neg h]

/-- Where a plan is that of another place with one more step, so is what is read. -/
theorem readValue_object_map (place other : Place) {f : other.Result → place.Result}
    (h : place.objectPlan bare members = (other.objectPlan inner members).map f) :
    readValue bare place (.object members) = (readValue inner other (.object members)).map f := by
  rw [readValue, readValue, h]
  cases other.objectPlan inner members with
  | give result => rfl
  | fill form deeper =>
    simp only [ObjectPlan.map, Form.map]
    cases readMembers deeper form.entries (Row.empty form.entries) members with
    | error fault => rfl
    | ok row =>
      simp only [bind, Except.bind]
      cases Row.complete form.entries row <;> rfl

section Scalars

theorem readValue_text (text : String) : readValue bare .text (.string text) = .ok text := by
  simp [readValue, Place.scalar]

theorem readValue_flag (flag : Bool) : readValue bare .flag (.boolean flag) = .ok flag := by
  simp [readValue, Place.scalar]

theorem readValue_number {x : Binary64} (h : x.isFinite = true) :
    readValue bare .number (number x) = .ok x := by
  rw [number, if_pos h]
  simp [readValue, Place.scalar]

theorem readValue_methodKind (kind : Tree.MethodKind) :
    readValue bare .methodKind (.string (methodWord kind)) = .ok kind := by
  have hword : methodOfWord (methodWord kind) = .ok kind := by cases kind <;> rfl
  simp [readValue, Place.scalar, hword]

end Scalars

section Places

variable {place : Place} {write : place.Result → Value}

theorem readValue_optional (hobject : ∀ x, ∃ members, write x = .object members)
    {part : Option place.Result} (h : ∀ x ∈ part, readValue bare place (write x) = .ok x) :
    readValue bare (.optional place) (part.elim .null write) = .ok part := by
  cases part with
  | none => simp [readValue, Place.scalar]
  | some x =>
    obtain ⟨members, hx⟩ := hobject x
    have hread := h x rfl
    rw [hx] at hread
    rw [Option.elim_some, hx, readValue_object_map (.optional place) place rfl, hread]
    rfl

theorem readItems_map {parts : List place.Result}
    (h : ∀ x ∈ parts, readValue bare place (write x) = .ok x) :
    readItems bare place (parts.map write) = .ok parts := by
  induction parts with
  | nil => rw [List.map_nil, readItems]; rfl
  | cons x rest ih =>
    rw [List.forall_mem_cons] at h
    rw [List.map_cons, readItems, h.1, ih h.2]
    rfl

theorem readValue_list {parts : List place.Result}
    (h : ∀ x ∈ parts, readValue bare place (write x) = .ok x) :
    readValue bare (.list place) (.array (parts.map write)) = .ok parts := by
  rw [readValue, Place.arrayPlan]
  simp only [readItems_map h]
  rfl

end Places

end Estree

end ScriptWire
