import ScriptWire.Proofs.Document.Bounded
import ScriptWire.Proofs.Estree.Readable
import ScriptWire.Proofs.Estree.Written

/-!
# What is read from a document

A rule that trees are built up along holds of whatever is read from a document, with as many levels
as the document has arrays and objects inside each other: every node takes up at least one of them.

## Main definitions

- `Estree.Place.Sound` — what is read at a place follows a rule for parts
- `Estree.Form.Sound` — a form makes nodes that follow one rule of parts that follow another

## Main results

- `Estree.readsSound_of_bounded` — what is read from a value follows the rule
- `Estree.ensures_read_rule` — so does a program that is read from a text
- `Estree.ensures_read` — a program that is read from a text follows the rules for documents
-/

namespace ScriptWire

namespace Estree

open Document (Value)
open ScriptWire.Tree

/-- What is read at a place follows a rule for parts. -/
def Place.Sound (P : Part → Prop) : (place : Place) → place.Result → Prop
  | .text, _ => True
  | .flag, _ => True
  | .number, x => x.isFinite = true
  | .methodKind, _ => True
  | .optional place, part => ∀ x, part = some x → place.Sound P x
  | .list place, parts => ∀ x ∈ parts, place.Sound P x
  | .node .statement, s => P (.statement s)
  | .node .expression, e => P (.expression e)
  | .node .pattern, p => P (.pattern p)
  | .node .member, m => P (.member m)
  | .record .block, body => ∀ s ∈ body, P (.statement s)
  -- A directive has the levels of the statement that it stands for.
  | .record .directive, words => P (.statement (directiveStatement words))
  | .record .directiveLiteral, words => P (.expression (.stringLiteral words))
  | .record .identifier, _ => True
  | .record .declaration, d => ∀ x ∈ d.declarations, P (.declarator x)
  | .record .declarator, d => P (.declarator d)
  | .record .catchClause, clause => P (.catchClause clause)
  | .loopHead, head => P (.loopHead head)
  | .arrowBody, body => P (.arrowBody body)

theorem Place.Sound.imp {P Q : Part → Prop} (h : ∀ n, P n → Q n) {place : Place}
    {x : place.Result} (hx : place.Sound P x) : place.Sound Q x := by
  induction place with
  | text => trivial
  | flag => trivial
  | number => exact hx
  | methodKind => trivial
  | optional place ih => exact fun y hy => ih (hx y hy)
  | list place ih => exact fun y hy => ih (hx y hy)
  | node level => cases level <;> exact h _ hx
  | record r =>
    cases r with
    | block => exact fun s hs => h _ (hx s hs)
    | identifier => trivial
    | declaration => exact fun d hd => h _ (hx d hd)
    | _ => exact h _ hx
  | loopHead => exact h _ hx
  | arrowBody => exact h _ hx

/-- All parts of a form are sound. -/
def Full.Sound (P : Part → Prop) : (es : List Entry) → Full es → Prop
  | [], _ => True
  | e :: es, (x, full) => e.place.Sound P x ∧ Full.Sound P es full

/-- The parts of a form that were read so far are sound. -/
def Row.Sound (P : Part → Prop) : (es : List Entry) → Row es → Prop
  | [], _ => True
  | e :: es, (part, row) => (∀ x, part = some x → e.place.Sound P x) ∧ Row.Sound P es row

/-- What is taken for a part that is left out is sound. -/
def Entry.Sound (P : Part → Prop) (e : Entry) : Prop :=
  (∀ x, e.ifAbsent = some x → e.place.Sound P x) ∧ ∀ x, e.ifCut = some x → e.place.Sound P x

/-- A form makes nodes that follow one rule of parts that follow another. -/
structure Form.Sound (P Q : Part → Prop) (place : Place) (form : Form place.Result) : Prop where
  entries : ∀ e ∈ form.entries, e.Sound P
  build : ∀ full, Full.Sound P form.entries full → place.Sound Q (form.build full)

/-- A part without anything inside. -/
def Place.blank : (place : Place) → place.Result → Bool
  | .flag, _ => true
  | .optional _, part => part.isNone
  | .list _, parts => parts.isEmpty
  | _, _ => false

theorem Place.sound_of_blank {P : Part → Prop} {place : Place} {x : place.Result}
    (h : place.blank x = true) : place.Sound P x := by
  cases place with
  | flag => trivial
  | optional place =>
    obtain rfl := Option.isNone_iff_eq_none.mp h
    exact nofun
  | list place =>
    obtain rfl := List.isEmpty_iff.mp h
    exact List.forall_mem_nil _
  | _ => cases h

/-- Only parts without anything inside are taken for parts that are left out. -/
def Entry.blank (e : Entry) : Bool :=
  e.ifAbsent.all e.place.blank && e.ifCut.all e.place.blank

theorem Entry.sound_of_blank {P : Part → Prop} {e : Entry} (h : e.blank = true) : e.Sound P := by
  obtain ⟨habsent, hcut⟩ := Bool.and_eq_true_iff.mp h
  constructor
  · intro x hx
    rw [hx] at habsent
    exact Place.sound_of_blank habsent
  · intro x hx
    rw [hx] at hcut
    exact Place.sound_of_blank hcut

theorem Level.blank_entries (level : Level) :
    ∀ f ∈ level.forms, ∀ e ∈ f.2.entries, e.blank = true := by
  cases level <;> decide

theorem Record.blank_entries (r : Record) : ∀ e ∈ r.form.entries, e.blank = true := by
  cases r <;> decide

theorem Level.sound_entries {P : Part → Prop} (level : Level) :
    ∀ f ∈ level.forms, ∀ e ∈ f.2.entries, e.Sound P :=
  fun f hf e he => Entry.sound_of_blank (level.blank_entries f hf e he)

section Forms

variable {α : Type} {part : α → Part} {P : Part → Prop}

theorem forall_mem_toList_map {x : Option α} (h : ∀ a, x = some a → P (part a)) :
    ∀ c ∈ x.toList.map part, P c :=
  List.forall_mem_map.mpr fun a ha => h a (Option.mem_toList.mp ha)

/-- The directives of a block stand in front of its statements. -/
theorem sound_blockForm {body : List Statement} {directives : List String}
    (hdirectives : ∀ text ∈ directives, P (.statement (directiveStatement text)))
    (hbody : ∀ s ∈ body, P (.statement s)) :
    ∀ s ∈ directives.map directiveStatement ++ body, P (.statement s) :=
  List.forall_mem_append.mpr ⟨List.forall_mem_map.mpr hdirectives, hbody⟩

end Forms

section Rule

variable {R : Nat → Part → Prop} (rule : Rule Part.Readable R) {levels : Nat}

include rule

theorem sound_statementForms : ∀ f ∈ statementForms, ∀ full,
    Full.Sound (R levels) f.2.entries full → R (levels + 1) (.statement (f.2.build full)) := by
  refine List.forall_iff_forall_mem.mp
    ⟨?_, ?_, ?_, ?_, ?_, ?_, ?_, ?_, ?_, ?_, ?_, ?_, ?_, ?_⟩
  · exact fun _ _ => rule.leaf rfl ⟨trivial, trivial⟩
  · rintro ⟨body, directives, _⟩ ⟨hbody, hdirectives, _⟩
    exact rule.step ⟨trivial, trivial⟩
      (List.forall_mem_map.mpr (sound_blockForm hdirectives hbody))
  · rintro ⟨expression, _⟩ ⟨hexpression, _⟩
    exact rule.step ⟨trivial, trivial⟩ (List.forall_mem_singleton.mpr hexpression)
  · rintro ⟨kind, declarations, _⟩ ⟨_, hdeclarations, _⟩
    exact rule.step ⟨trivial, trivial⟩ (List.forall_mem_map.mpr hdeclarations)
  · rintro ⟨id, params, body, generator, isAsync, _⟩ ⟨_, hparams, hbody, _⟩
    exact rule.step ⟨trivial, trivial⟩ (Part.forall_function hparams hbody)
  · rintro ⟨argument, _⟩ ⟨hargument, _⟩
    exact rule.step ⟨trivial, trivial⟩ (forall_mem_toList_map hargument)
  · rintro ⟨test, consequent, alternate, _⟩ ⟨htest, hconsequent, halternate, _⟩
    exact rule.step ⟨trivial, trivial⟩ (List.forall_mem_cons.mpr ⟨htest,
      List.forall_mem_cons.mpr ⟨hconsequent, forall_mem_toList_map halternate⟩⟩)
  · rintro ⟨test, body, _⟩ ⟨htest, hbody, _⟩
    exact rule.step ⟨trivial, trivial⟩ (Part.forall_pair htest hbody)
  · rintro ⟨body, test, _⟩ ⟨hbody, htest, _⟩
    exact rule.step ⟨trivial, trivial⟩ (Part.forall_pair hbody htest)
  · rintro ⟨init, test, update, body, _⟩ ⟨hinit, htest, hupdate, hbody, _⟩
    refine rule.step ⟨trivial, trivial⟩ (List.forall_mem_append.mpr
      ⟨List.forall_mem_append.mpr ⟨List.forall_mem_append.mpr ⟨?_, ?_⟩, ?_⟩, ?_⟩)
    · exact forall_mem_toList_map hinit
    · exact forall_mem_toList_map htest
    · exact forall_mem_toList_map hupdate
    · exact List.forall_mem_singleton.mpr hbody
  · rintro ⟨left, right, body, _⟩ ⟨hleft, hright, hbody, _⟩
    exact rule.step ⟨trivial, trivial⟩
      (List.forall_mem_cons.mpr ⟨hleft, Part.forall_pair hright hbody⟩)
  · rintro ⟨left, right, body, isAwait, _⟩ ⟨hleft, hright, hbody, _⟩
    exact rule.step ⟨trivial, trivial⟩
      (List.forall_mem_cons.mpr ⟨hleft, Part.forall_pair hright hbody⟩)
  · rintro ⟨block, handler, finalizer, _⟩ ⟨hblock, hhandler, hfinalizer, _⟩
    refine rule.step ⟨trivial, trivial⟩ (List.forall_mem_append.mpr
      ⟨List.forall_mem_append.mpr ⟨?_, ?_⟩, ?_⟩)
    · exact List.forall_mem_map.mpr hblock
    · exact forall_mem_toList_map hhandler
    · refine List.forall_mem_map.mpr fun s hs => ?_
      obtain ⟨body, hbody, hmem⟩ := List.mem_flatten.mp hs
      exact hfinalizer body (Option.mem_toList.mp hbody) s hmem
  · rintro ⟨argument, _⟩ ⟨hargument, _⟩
    exact rule.step ⟨trivial, trivial⟩ (List.forall_mem_singleton.mpr hargument)

theorem sound_expressionForms : ∀ f ∈ expressionForms, ∀ full,
    Full.Sound (R levels) f.2.entries full → R (levels + 1) (.expression (f.2.build full)) := by
  refine List.forall_iff_forall_mem.mp
    ⟨?_, ?_, ?_, ?_, ?_, ?_, ?_, ?_, ?_, ?_, ?_, ?_, ?_, ?_, ?_, ?_, ?_, ?_, ?_, ?_, ?_, ?_, ?_, ?_,
      ?_, ?_⟩
  · exact fun _ _ => rule.leaf rfl ⟨trivial, trivial⟩
  · rintro ⟨value, _⟩ ⟨hvalue, _⟩
    exact rule.leaf rfl ⟨trivial, hvalue⟩
  · exact fun _ _ => rule.leaf rfl ⟨trivial, trivial⟩
  · exact fun _ _ => rule.leaf rfl ⟨trivial, trivial⟩
  · exact fun _ _ => rule.leaf rfl ⟨trivial, trivial⟩
  · exact fun _ _ => rule.leaf rfl ⟨trivial, trivial⟩
  · exact fun _ _ => rule.leaf rfl ⟨trivial, trivial⟩
  · exact fun _ _ => rule.leaf rfl ⟨trivial, trivial⟩
  · exact fun _ _ => rule.leaf rfl ⟨trivial, trivial⟩
  · rintro ⟨operator, left, right, _⟩ ⟨_, hleft, hright, _⟩
    exact rule.step ⟨trivial, trivial⟩ (Part.forall_pair hleft hright)
  · rintro ⟨properties, _⟩ ⟨hproperties, _⟩
    exact rule.step ⟨trivial, trivial⟩ (List.forall_mem_map.mpr hproperties)
  · rintro ⟨elements, _⟩ ⟨helements, _⟩
    refine rule.step ⟨trivial, trivial⟩ (List.forall_mem_flatMap.mpr fun e he => ?_)
    exact forall_mem_toList_map (helements e he)
  · rintro ⟨id, params, body, generator, isAsync, _⟩ ⟨_, hparams, hbody, _⟩
    exact rule.step ⟨trivial, trivial⟩ (Part.forall_function hparams hbody)
  · rintro ⟨id, params, body, generator, isAsync, _⟩ ⟨_, hparams, hbody, _⟩
    exact rule.step ⟨trivial, trivial⟩ (List.forall_mem_append.mpr
      ⟨List.forall_mem_map.mpr hparams, List.forall_mem_singleton.mpr hbody⟩)
  · rintro ⟨callee, arguments, _⟩ ⟨hcallee, harguments, _⟩
    exact rule.step ⟨trivial, trivial⟩
      (List.forall_mem_cons.mpr ⟨hcallee, List.forall_mem_map.mpr harguments⟩)
  · rintro ⟨callee, arguments, _⟩ ⟨hcallee, harguments, _⟩
    exact rule.step ⟨trivial, trivial⟩
      (List.forall_mem_cons.mpr ⟨hcallee, List.forall_mem_map.mpr harguments⟩)
  · rintro ⟨object, property, computed, _⟩ ⟨hobject, hproperty, _⟩
    exact rule.step ⟨trivial, trivial⟩ (Part.forall_pair hobject hproperty)
  · rintro ⟨operator, isPrefix, argument, _⟩ ⟨_, _, hargument, _⟩
    exact rule.step ⟨trivial, trivial⟩ (List.forall_mem_singleton.mpr hargument)
  · rintro ⟨operator, left, right, _⟩ ⟨_, hleft, hright, _⟩
    exact rule.step ⟨trivial, trivial⟩ (Part.forall_pair hleft hright)
  · rintro ⟨operator, left, right, _⟩ ⟨_, hleft, hright, _⟩
    exact rule.step ⟨trivial, trivial⟩ (Part.forall_pair hleft hright)
  · rintro ⟨operator, isPrefix, argument, _⟩ ⟨_, _, hargument, _⟩
    exact rule.step ⟨trivial, trivial⟩ (List.forall_mem_singleton.mpr hargument)
  · rintro ⟨argument, delegate, _⟩ ⟨hargument, _⟩
    exact rule.step ⟨trivial, trivial⟩ (forall_mem_toList_map hargument)
  · rintro ⟨argument, _⟩ ⟨hargument, _⟩
    exact rule.step ⟨trivial, trivial⟩ (List.forall_mem_singleton.mpr hargument)
  · rintro ⟨test, consequent, alternate, _⟩ ⟨htest, hconsequent, halternate, _⟩
    exact rule.step ⟨trivial, trivial⟩
      (List.forall_mem_cons.mpr ⟨htest, Part.forall_pair hconsequent halternate⟩)
  · rintro ⟨expressions, _⟩ ⟨hexpressions, _⟩
    exact rule.step ⟨trivial, trivial⟩ (List.forall_mem_map.mpr hexpressions)
  · rintro ⟨argument, _⟩ ⟨hargument, _⟩
    exact rule.step ⟨trivial, trivial⟩ (List.forall_mem_singleton.mpr hargument)

theorem sound_patternForms : ∀ f ∈ patternForms, ∀ full,
    Full.Sound (R levels) f.2.entries full → R (levels + 1) (.pattern (f.2.build full)) := by
  refine List.forall_iff_forall_mem.mp ⟨?_, ?_, ?_, ?_, ?_⟩
  · exact fun _ _ => rule.leaf rfl ⟨trivial, trivial⟩
  · rintro ⟨left, right, _⟩ ⟨hleft, hright, _⟩
    exact rule.step ⟨trivial, trivial⟩ (Part.forall_pair hleft hright)
  · rintro ⟨argument, _⟩ ⟨hargument, _⟩
    exact rule.step ⟨trivial, trivial⟩ (List.forall_mem_singleton.mpr hargument)
  · exact fun _ _ => rule.leaf rfl ⟨trivial, trivial⟩
  · exact fun _ _ => rule.leaf rfl ⟨trivial, trivial⟩

theorem sound_memberForms : ∀ f ∈ memberForms, ∀ full,
    Full.Sound (R levels) f.2.entries full → R (levels + 1) (.member (f.2.build full)) := by
  refine List.forall_iff_forall_mem.mp ⟨?_, ?_, ?_⟩
  · rintro ⟨key, value, computed, shorthand, method, _⟩ ⟨hkey, hvalue, _⟩
    exact rule.step ⟨trivial, trivial⟩ (Part.forall_pair hkey hvalue)
  · rintro ⟨kind, key, params, body, computed, shorthand, generator, isAsync, _⟩
      ⟨_, hkey, hparams, hbody, _⟩
    exact rule.step ⟨trivial, trivial⟩
      (List.forall_mem_cons.mpr ⟨hkey, Part.forall_function hparams hbody⟩)
  · rintro ⟨argument, _⟩ ⟨hargument, _⟩
    exact rule.step ⟨trivial, trivial⟩ (List.forall_mem_singleton.mpr hargument)

theorem Level.sound_form {level : Level} {kind : String} {form : Form level.Node}
    (h : level.form? kind = some form) :
    Form.Sound (R levels) (R (levels + 1)) (.node level) form := by
  have hmem := Level.mem_forms h
  refine ⟨level.sound_entries _ hmem, fun full hfull => ?_⟩
  cases level with
  | statement => exact sound_statementForms rule _ hmem full hfull
  | expression => exact sound_expressionForms rule _ hmem full hfull
  | pattern => exact sound_patternForms rule _ hmem full hfull
  | member => exact sound_memberForms rule _ hmem full hfull

theorem Record.sound_form (r : Record) :
    Form.Sound (R levels) (R (levels + 1)) (.record r) r.form := by
  constructor
  · exact fun e he => Entry.sound_of_blank (r.blank_entries e he)
  · cases r with
    | block =>
      rintro ⟨body, directives, _⟩ ⟨hbody, hdirectives, _⟩
      exact fun s hs => rule.more (sound_blockForm hdirectives hbody s hs)
    | directive =>
      rintro ⟨text, _⟩ ⟨htext, _⟩
      exact rule.step ⟨trivial, trivial⟩ (List.forall_mem_singleton.mpr htext)
    | directiveLiteral => exact fun _ _ => rule.leaf rfl ⟨trivial, trivial⟩
    | identifier => exact fun _ _ => trivial
    | declaration =>
      rintro ⟨kind, declarations, _⟩ ⟨_, hdeclarations, _⟩
      exact fun d hd => rule.more (hdeclarations d hd)
    | declarator =>
      rintro ⟨id, init, _⟩ ⟨hid, hinit, _⟩
      exact rule.step ⟨trivial, trivial⟩
        (List.forall_mem_cons.mpr ⟨hid, forall_mem_toList_map hinit⟩)
    | catchClause =>
      rintro ⟨param, body, _⟩ ⟨hparam, hbody, _⟩
      exact rule.step ⟨trivial, trivial⟩
        (List.forall_mem_append.mpr ⟨forall_mem_toList_map hparam, List.forall_mem_map.mpr hbody⟩)

end Rule

/-- A form makes expressions of its own kind, with a shape. -/
theorem build_expressionForms : ∀ f ∈ expressionForms, ∀ full,
    (f.2.build full).kind = f.1 ∧ ∀ kind, f.2.build full ≠ .unsupported kind := by
  refine List.forall_iff_forall_mem.mp
    ⟨?_, ?_, ?_, ?_, ?_, ?_, ?_, ?_, ?_, ?_, ?_, ?_, ?_, ?_, ?_, ?_, ?_, ?_, ?_, ?_, ?_, ?_, ?_,
      ?_, ?_, ?_⟩
  all_goals
    intro full
    refine ⟨rfl, ?_⟩
    intro kind h
    cases h

theorem Form.Sound.map {P Q : Part → Prop} {place : Place} (other : Place)
    {form : Form other.Result} (h : Form.Sound P Q other form) {f : other.Result → place.Result}
    (hf : ∀ full, other.Sound Q (form.build full) → place.Sound Q (f (form.build full))) :
    Form.Sound P Q place (form.map f) :=
  ⟨h.entries, fun full hfull => hf full (h.build full hfull)⟩

/-- What a plan for an object gives follows one rule if the parts follow another. -/
def ObjectPlan.Sound (P Q : Part → Prop) (place : Place) : ObjectPlan place.Result → Prop
  | .give result => Ensures result (place.Sound Q)
  | .fill form _ => Form.Sound P Q place form

/-- The same for an array. -/
def ArrayPlan.Sound (P Q : Part → Prop) (place : Place) : ArrayPlan place.Result → Prop
  | .give result => Ensures result (place.Sound Q)
  | .each item gather => ∀ items, (∀ x ∈ items, item.Sound P x) → place.Sound Q (gather items)
  | .fill form _ => Form.Sound P Q place form
  | .fillRest form => Form.Sound P Q place form

theorem ObjectPlan.Sound.map {P Q : Part → Prop} {place other : Place}
    {plan : ObjectPlan other.Result} (h : plan.Sound P Q other) {f : other.Result → place.Result}
    (hf : ∀ x, other.Sound Q x → place.Sound Q (f x)) : (plan.map f).Sound P Q place := by
  cases plan with
  | give result => exact Ensures.map h hf
  | fill form inner => exact Form.Sound.map other h fun _ => hf _

theorem ArrayPlan.Sound.map {P Q : Part → Prop} {place other : Place}
    {plan : ArrayPlan other.Result} (h : plan.Sound P Q other) {f : other.Result → place.Result}
    (hf : ∀ x, other.Sound Q x → place.Sound Q (f x)) : (plan.map f).Sound P Q place := by
  cases plan with
  | give result => exact Ensures.map h hf
  | each item gather => exact fun items hitems => hf _ (h items hitems)
  | fill form inner => exact Form.Sound.map other h fun _ => hf _
  | fillRest form => exact Form.Sound.map other h fun _ => hf _

section Plans

variable {R : Nat → Part → Prop} (rule : Rule Part.Readable R) {levels : Nat}
variable {level : Level} {members : List (String × Value)} {first : Option Value}

include rule

theorem Level.sound_unsupported {kind : String} (h : kind ∉ level.known) :
    (Place.node level).Sound (R (levels + 1)) (level.unsupported kind) := by
  cases level <;> exact rule.leaf rfl ⟨h, trivial⟩

theorem Level.sound_objectPlan :
    (level.objectPlan members).Sound (R levels) (R (levels + 1)) (.node level) := by
  rw [Level.objectPlan.eq_def]
  split
  · exact .error
  · split
    · split
      · exact Level.sound_form rule ‹_›
      · exact .error
    · exact .ok (Level.sound_unsupported rule ‹_›)
  · exact .error

theorem Level.sound_arrayPlan :
    (level.arrayPlan first).Sound (R levels) (R (levels + 1)) (.node level) := by
  rw [Level.arrayPlan.eq_def]
  split
  · exact .error
  · split
    · exact Level.sound_form rule ‹_›
    · exact .error
  · exact .error

section Otherwise

-- A place that looks for one kind of node takes every other expression. Expressions with a shape
-- are not mistaken for an unknown one of that kind, and an unknown one is of another kind.
variable {place : Place} {kind : String} {f : Expression → place.Result}

theorem sound_otherwise_form {form : Form Expression} {found : String}
    (hform : Level.expression.form? found = some form)
    (hf : ∀ e, R (levels + 1) (.expression e) → e ≠ .unsupported kind →
      place.Sound (R (levels + 1)) (f e)) :
    Form.Sound (R levels) (R (levels + 1)) place (form.map f) := by
  refine Form.Sound.map expressionPlace (Level.sound_form rule hform) fun full hfull => ?_
  exact hf _ hfull ((build_expressionForms _ (Level.mem_forms hform) full).2 kind)

theorem sound_otherwise_object (hother : hasKind kind members = false)
    (hf : ∀ e, R (levels + 1) (.expression e) → e ≠ .unsupported kind →
      place.Sound (R (levels + 1)) (f e)) :
    ((Level.objectPlan .expression members).map f).Sound (R levels) (R (levels + 1)) place := by
  rw [hasKind.eq_def] at hother
  rw [Level.objectPlan.eq_def]
  split
  · exact .error
  · next found htype =>
    rw [htype] at hother
    split
    · split
      · exact sound_otherwise_form rule ‹_› hf
      · exact .error
    · have hsound : expressionPlace.Sound (R (levels + 1)) (Level.unsupported .expression found) :=
        Level.sound_unsupported rule ‹_›
      refine .ok (hf _ hsound ?_)
      rintro ⟨⟩
      exact of_decide_eq_false hother rfl
  · exact .error

theorem sound_otherwise_array
    (hf : ∀ e, R (levels + 1) (.expression e) → e ≠ .unsupported kind →
      place.Sound (R (levels + 1)) (f e)) :
    ((Level.arrayPlan .expression first).map f).Sound (R levels) (R (levels + 1)) place := by
  rw [Level.arrayPlan.eq_def]
  split
  · exact .error
  · split
    · exact sound_otherwise_form rule ‹_› hf
    · exact .error
  · exact .error

theorem sound_loopHead {e : Expression} (he : R levels (.expression e))
    (hkind : e ≠ .unsupported "VariableDeclaration") :
    Place.loopHead.Sound (R levels) (.expression e) :=
  rule.flat rfl ⟨hkind, trivial⟩ (List.forall_mem_singleton.mpr he)

theorem sound_arrowBody {e : Expression} (he : R levels (.expression e))
    (hkind : e ≠ .unsupported "BlockStatement") :
    Place.arrowBody.Sound (R levels) (.expression e) :=
  rule.flat rfl ⟨hkind, trivial⟩ (List.forall_mem_singleton.mpr he)

end Otherwise

theorem Place.sound_objectPlan (levels : Nat) (bare : Bool) (members : List (String × Value))
    (place : Place) :
    (place.objectPlan bare members).Sound (R levels) (R (levels + 1)) place := by
  induction place with
  | optional place ih =>
    refine ObjectPlan.Sound.map ih fun x hx => ?_
    rintro _ ⟨⟩
    exact hx
  | node level => exact Level.sound_objectPlan rule
  | record r => exact Record.sound_form rule r
  | loopHead =>
    rw [Place.objectPlan]
    split
    · refine Form.Sound.map (.record .declaration) (Record.sound_form rule .declaration) ?_
      intro full hfull
      exact rule.flat rfl ⟨trivial, trivial⟩ (List.forall_mem_map.mpr hfull)
    · next hother =>
      exact sound_otherwise_object rule (Bool.eq_false_iff.mpr hother)
        fun e => sound_loopHead rule
  | arrowBody =>
    rw [Place.objectPlan]
    split
    · refine Form.Sound.map (.record .block) (Record.sound_form rule .block) ?_
      intro full hfull
      exact rule.flat rfl ⟨trivial, trivial⟩ (List.forall_mem_map.mpr hfull)
    · next hother =>
      exact sound_otherwise_object rule (Bool.eq_false_iff.mpr hother)
        fun e => sound_arrowBody rule
  | methodKind => exact Ensures.trivial
  | _ => exact Ensures.error

theorem Place.sound_arrayPlan (levels : Nat) (bare : Bool) (first : Option Value) (place : Place) :
    (place.arrayPlan bare first).Sound (R levels) (R (levels + 1)) place := by
  induction place with
  | optional place ih =>
    refine ArrayPlan.Sound.map ih fun x hx => ?_
    rintro _ ⟨⟩
    exact hx
  | list place => exact fun items hitems x hx => (hitems x hx).imp fun _ => rule.more
  | node level => exact Level.sound_arrayPlan rule
  | record r => exact Record.sound_form rule r
  | loopHead => exact sound_otherwise_array rule fun e => sound_loopHead rule
  | arrowBody => exact sound_otherwise_array rule fun e => sound_arrowBody rule
  | _ => exact Ensures.error

omit rule in
/-- A value without others inside is read as something without parts. -/
theorem Place.ensures_scalar {P : Part → Prop} {v : Value} (hv : v.Bounded 0) (place : Place) :
    Ensures (place.scalar v) (place.Sound P) := by
  induction place with
  | number =>
    cases hv with
    | integer h => exact .ok h
    | float h => exact .ok h
    | _ => exact .error
  | optional place ih =>
    cases hv with
    | null => exact .ok fun _ h => nomatch h
    | _ =>
      refine Ensures.map ih fun x hx => ?_
      rintro _ ⟨⟩
      exact hx
  | text => exact Ensures.trivial
  | flag => exact Ensures.trivial
  | methodKind => exact Ensures.trivial
  | _ => cases v <;> exact .error

end Plans

section Rows

variable {P : Part → Prop}

theorem Row.sound_empty : (es : List Entry) → Row.Sound P es (Row.empty es)
  | [] => trivial
  | _ :: es => ⟨(fun _ h => nomatch h), Row.sound_empty es⟩

theorem Row.Sound.put {key : String} : {es : List Entry} → {row : Row es} → {spot : Spot es} →
    spot? es key = some spot → Row.Sound P es row → ∀ x, spot.place.Sound P x →
      Row.Sound P es (spot.put x row)
  | [], _, _, hspot, _, _, _ => nomatch hspot
  | e :: es, (part, row), spot, hspot, hrow, x, hx => by
    rw [spot?] at hspot
    split at hspot
    · cases hspot
      refine ⟨?_, hrow.2⟩
      rintro _ ⟨⟩
      exact hx
    · obtain ⟨inner, hinner, rfl⟩ := Option.map_eq_some_iff.mp hspot
      exact ⟨hrow.1, Row.Sound.put hinner hrow.2 x hx⟩

/-- What is taken for parts that are left out keeps a row sound. -/
theorem Row.ensures_complete : (es : List Entry) → (∀ e ∈ es, e.Sound P) → (row : Row es) →
    Row.Sound P es row → Ensures (row.complete es) (Full.Sound P es)
  | [], _, _, _ => .ok trivial
  | e :: es, hes, (part, row), hrow => by
    obtain ⟨he, hes⟩ := List.forall_mem_cons.mp hes
    have hpart : ∀ x, (part <|> e.ifAbsent) = some x → e.place.Sound P x := by
      cases part with
      | none => exact he.1
      | some y => exact hrow.1
    have hrest := Row.ensures_complete es hes row hrow.2
    rw [Row.complete]
    split
    · exact .error
    · split
      · exact .error
      · exact .ok ⟨hpart _ ‹_›, hrest _ ‹_›⟩

theorem ensures_cut (title : String) (total : Nat) : (es : List Entry) → (∀ e ∈ es, e.Sound P) →
    (index : Nat) → Ensures (cut title total es index) (Full.Sound P es)
  | [], _, _ => .ok trivial
  | e :: es, hes, index => by
    obtain ⟨he, hes⟩ := List.forall_mem_cons.mp hes
    have hrest := ensures_cut title total es hes (index + 1)
    rw [cut]
    split
    · exact .error
    · split
      · exact .error
      · exact .ok ⟨he.2 _ ‹_›, hrest _ ‹_›⟩

end Rows

section Reading

variable {bare : Bool} {P : Part → Prop}

/-- Whatever is read from a value follows a rule for parts. -/
def ReadsSound (P : Part → Prop) (v : Value) : Prop :=
  ∀ (bare : Bool) (place : Place), Ensures (readValue bare place v) (place.Sound P)

theorem ensures_readItems {place : Place} {items : List Value}
    (h : ∀ v ∈ items, ReadsSound P v) :
    Ensures (readItems bare place items) fun parts => ∀ x ∈ parts, place.Sound P x := by
  induction items with
  | nil =>
    rw [readItems]
    exact .pure (List.forall_mem_nil _)
  | cons v rest ih =>
    obtain ⟨hv, hrest⟩ := List.forall_mem_cons.mp h
    rw [readItems]
    refine (hv bare place).bind fun x hx => (ih hrest).bind fun parts hparts => ?_
    exact .pure (List.forall_mem_cons.mpr ⟨hx, hparts⟩)

theorem ensures_readParts {title : String} {total index : Nat} {es : List Entry}
    (hes : ∀ e ∈ es, e.Sound P) {items : List Value} (h : ∀ v ∈ items, ReadsSound P v) :
    Ensures (readParts bare title total es index items) fun r => Full.Sound P es r.1 := by
  induction items generalizing es index with
  | nil =>
    rw [readParts]
    exact (ensures_cut title total es hes index).bind fun full hfull => .pure hfull
  | cons v rest ih =>
    obtain ⟨hv, hrest⟩ := List.forall_mem_cons.mp h
    cases es with
    | nil =>
      rw [readParts]
      exact .pure trivial
    | cons e es =>
      obtain ⟨_, hes⟩ := List.forall_mem_cons.mp hes
      rw [readParts]
      refine (hv bare e.place).bind fun x hx => (ih hes hrest).bind fun parts hparts => ?_
      exact .pure ⟨hx, hparts⟩

theorem ensures_readMembers {es : List Entry} {members : List (String × Value)}
    (h : ∀ m ∈ members, ReadsSound P m.2) {row : Row es} (hrow : Row.Sound P es row) :
    Ensures (readMembers bare es row members) (Row.Sound P es) := by
  induction members generalizing row with
  | nil =>
    rw [readMembers]
    exact .pure hrow
  | cons member rest ih =>
    obtain ⟨hv, hrest⟩ := List.forall_mem_cons.mp h
    obtain ⟨key, v⟩ := member
    rw [readMembers]
    split
    · exact ih hrest hrow
    · next spot hspot =>
      exact (hv bare spot.place).bind fun x hx => ih hrest (Row.Sound.put hspot hrow x hx)

theorem readsSound_of_scalar {v : Value} (hv : v.Bounded 0)
    (hscalar : ∀ bare place, readValue bare place v = place.scalar v) : ReadsSound P v := by
  intro bare place
  rw [hscalar]
  exact place.ensures_scalar hv

variable {R : Nat → Part → Prop} (rule : Rule Part.Readable R) {levels : Nat}

include rule

/-- What is read from a value follows the rule, with as many levels as the value has. -/
theorem readsSound_of_bounded {v : Value} (hv : v.Bounded levels) : ReadsSound (R levels) v := by
  induction hv with
  | @array levels items hitems ih =>
    intro bare place
    have hplan := Place.sound_arrayPlan rule levels bare items.head? place
    rw [readValue]
    revert hplan
    cases place.arrayPlan bare items.head? with
    | give result => exact id
    | each item gather =>
      intro hgather
      exact (ensures_readItems ih).bind fun parts hparts => .pure (hgather parts hparts)
    | fill form inner =>
      intro hform
      refine (ensures_readParts hform.entries ih).bind fun r hr => ?_
      exact .ite (fun _ => .error) fun _ => .pure (hform.build _ hr)
    | fillRest form =>
      intro hform
      cases items with
      | nil => exact .error
      | cons v rest =>
        obtain ⟨_, hrest⟩ := List.forall_mem_cons.mp ih
        refine (ensures_readParts hform.entries hrest).bind fun r hr => ?_
        exact .ite (fun _ => .error) fun _ => .pure (hform.build _ hr)
  | @object levels members hmembers ih =>
    intro bare place
    have hplan := Place.sound_objectPlan rule levels bare members place
    rw [readValue]
    revert hplan
    cases place.objectPlan bare members with
    | give result => exact id
    | fill form inner =>
      intro hform
      refine (ensures_readMembers ih (Row.sound_empty _)).bind fun row hrow => ?_
      refine (Row.ensures_complete _ hform.entries row hrow).bind fun full hfull => ?_
      exact .pure (hform.build full hfull)
  | null => exact readsSound_of_scalar .null fun _ _ => by simp only [readValue]
  | boolean b => exact readsSound_of_scalar (.boolean b) fun _ _ => by simp only [readValue]
  | integer h => exact readsSound_of_scalar (.integer h) fun _ _ => by simp only [readValue]
  | float h => exact readsSound_of_scalar (.float h) fun _ _ => by simp only [readValue]
  | string text => exact readsSound_of_scalar (.string text) fun _ _ => by simp only [readValue]

theorem ensures_readProgram {v : Value} (hv : v.Bounded levels) :
    Ensures (readProgram v) fun p => ∀ s ∈ p.body, R levels (.statement s) :=
  (readsSound_of_bounded rule hv true (.record .block)).bind fun _ hbody => .pure hbody

omit rule in
theorem ensures_programValue {root : Value} (hroot : root.Bounded levels) :
    Ensures (programValue root) (Value.Bounded levels) := by
  cases hroot with
  | @object levels members hmembers =>
    rw [programValue]
    split
    · split
      · exact .ok (Document.bounded_of_lookup? hmembers ‹_›).more
      · exact .error
    · exact .ok (.object hmembers)
    · exact .error
    · exact .error
  | _ => exact .error

/-- What is read from the text of a document follows the rule, with the levels that documents may
have. -/
theorem ensures_read_rule (source : String) :
    Ensures (read source) fun p => ∀ s ∈ p.body, R Document.nestingLimit (.statement s) := by
  refine (Document.ensures_parse source).mapError.bind fun root hroot => ?_
  exact (ensures_programValue hroot).bind fun v hv => (ensures_readProgram rule hv).mapError

omit rule in
/-- A tree that is read from the text of a document can be written. -/
theorem ensures_read (source : String) : Ensures (read source) fun p => p.Every Part.Readable :=
  ensures_read_rule (.every Part.Readable) source

end Reading

end Estree

end ScriptWire
