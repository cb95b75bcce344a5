import ScriptWire.Proofs.Estree.Standing
import Mathlib.Logic.Relation

/-!
# Members that the reader does not know

Tools add members of their own to the nodes of a document. The reader knows a fixed list of names,
and a member of any other name can be put into any object without a change of the result or of the
fault. The kind of an object method is the exception: there an object is a word with nothing after
it, so its members are counted, and the value of its only member has to be empty.

## Main definitions

- `Estree.Inserted` — one member of another name is put into one object, at any depth

## Main results

- `Estree.readValue_of_inserted` — what is read at a place does not change
- `Estree.readDocument_of_inserted` — nor what is read from a document, after any number of steps
-/

namespace ScriptWire

namespace Estree

open Document (Value lookup?)
open ScriptWire.Tree

/-- One member of a name that the reader does not know is put into one object of a document, at any
depth. The condition `Open` tells by its place and its members which objects may be chosen. -/
inductive Inserted (Open : Standing → List (String × Value) → Prop) :
    Standing → Value → Value → Prop
  | here {s : Standing} {members : List (String × Value)} (key : String) (value : Value)
      (hkey : key ∉ readerNames) (hopen : Open s members) :
      Inserted Open s (.object members) (.object (Document.insert key value members))
  | member {s : Standing} {key : String} {v w : Value} (before after : List (String × Value))
      (h : Inserted Open (s.ofMember (before ++ (key, v) :: after) key) v w) :
      Inserted Open s (.object (before ++ (key, v) :: after))
        (.object (before ++ (key, w) :: after))
  | item {s : Standing} {v w : Value} (before after : List Value)
      (h : Inserted Open (s.ofItem before) v w) :
      Inserted Open s (.array (before ++ v :: after)) (.array (before ++ w :: after))

/-- The object is not the kind of an object method. -/
def NoMethodKind (s : Standing) (_members : List (String × Value)) : Prop :=
  s ≠ .methodKind

/-- The object is not the kind of an object method, and not the empty value of its only member. -/
def NoMethodWord (s : Standing) (members : List (String × Value)) : Prop :=
  s ≠ .methodKind ∧ (s = .methodUnit → members ≠ [])

variable {bare : Bool} {place : Place} {v w : Value} {key : String}
variable {members others before after : List (String × Value)}

section Lookup

theorem Inserted.found_eq {Open : Standing → List (String × Value) → Prop} {s : Standing}
    (h : Inserted Open s v w) : found v = found w := by
  cases h <;> rfl

/-- Under every name the same is found, as far as one looks, if a value takes the place of one that
looks the same. -/
theorem map_lookup?_replace {β : Type} (f : Value → β) (k key : String)
    (before after : List (String × Value)) (h : key = k → f v = f w) :
    (lookup? k (before ++ (key, v) :: after)).map f =
      (lookup? k (before ++ (key, w) :: after)).map f := by
  rw [Document.lookup?_append, Document.lookup?_append, lookup?, lookup?]
  cases lookup? k before with
  | some x => rfl
  | none =>
    by_cases hkey : key = k
    · rw [if_pos hkey, if_pos hkey]
      exact congrArg some (h hkey)
    · rw [if_neg hkey, if_neg hkey]

theorem lookup?_insert_of_not_mem {k : String} (hkey : key ∉ readerNames) (hk : k ∈ readerNames)
    (value : Value) (members : List (String × Value)) :
    lookup? k (Document.insert key value members) = lookup? k members := by
  have hne : key ≠ k := by
    rintro rfl
    exact hkey hk
  rw [Document.lookup?_insert, if_neg hne]

end Lookup

section Reading

theorem readValue_of_refusesObjects (h : place.refusesObjects = true) :
    readValue bare place (.object members) = .error (.type .map place.expected) := by
  induction place with
  | optional place ih =>
    rw [readValue_object_map (.optional place) place rfl, ih h]
    rfl
  | node level => cases h
  | record r => cases h
  | loopHead => cases h
  | arrowBody => cases h
  | methodKind => cases h
  | _ =>
    rw [readValue]
    rfl

/-- Where objects are not refused, strings are, unless they can be kinds of methods. -/
theorem readValue_string (bare : Bool) (hplain : place.plain = true)
    (h : place.refusesObjects = false) (word : String) :
    readValue bare place (.string word) = .error (.type (.string word) place.expected) := by
  have hscalar : place.scalar (.string word) = .error (.type (.string word) place.expected) := by
    induction place with
    | optional place ih =>
      simp only [Place.scalar, ih hplain h]
      rfl
    | node level => rfl
    | record r => rfl
    | loopHead => rfl
    | arrowBody => rfl
    | methodKind => cases hplain
    | _ => cases h
  simp only [readValue, hscalar]

theorem readMembers_cons_of_not_mem {es : List Entry} (hkey : key ∉ es.map Entry.name)
    (row : Row es) (v : Value) (rest : List (String × Value)) :
    readMembers bare es row ((key, v) :: rest) = readMembers bare es row rest := by
  rw [readMembers, spot?_of_not_mem hkey]

theorem readMembers_cons_congr {es : List Entry} {rest rest' : List (String × Value)}
    (h : ∀ row, readMembers bare es row rest = readMembers bare es row rest') (row : Row es)
    (member : String × Value) :
    readMembers bare es row (member :: rest) = readMembers bare es row (member :: rest') := by
  obtain ⟨k, u⟩ := member
  rw [readMembers, readMembers]
  cases spot? es k with
  | none => exact h row
  | some spot => simp only [h]

/-- A member of a name that no part has is passed over, wherever it is put. -/
theorem readMembers_insert {es : List Entry} (hkey : key ∉ es.map Entry.name) (value : Value)
    (row : Row es) :
    readMembers bare es row (Document.insert key value members) =
      readMembers bare es row members := by
  induction members generalizing row with
  | nil => exact readMembers_cons_of_not_mem hkey row value []
  | cons member rest ih =>
    rw [Document.insert]
    by_cases hlt : key < member.1
    · rw [if_pos hlt, readMembers_cons_of_not_mem hkey]
    · rw [if_neg hlt]
      by_cases heq : key = member.1
      · rw [if_pos heq, readMembers_cons_of_not_mem hkey,
          readMembers_cons_of_not_mem (heq ▸ hkey)]
      · rw [if_neg heq]
        exact readMembers_cons_congr ih row member

theorem readMembers_replace {es : List Entry} (after : List (String × Value))
    (h : ∀ e ∈ es, e.name = key → readValue bare e.place v = readValue bare e.place w)
    (row : Row es) :
    readMembers bare es row (before ++ (key, v) :: after) =
      readMembers bare es row (before ++ (key, w) :: after) := by
  induction before generalizing row with
  | nil =>
    rw [List.nil_append, List.nil_append, readMembers, readMembers]
    cases hspot : spot? es key with
    | none => rfl
    | some spot =>
      obtain ⟨e, he, hname, hplace⟩ := exists_entry_of_spot? hspot
      have hread := h e he hname
      rw [hplace] at hread
      simp only [hread]
  | cons member before ih => exact readMembers_cons_congr ih row member

variable {front back : List Value}

theorem readItems_replace (back : List Value)
    (h : (∃ xs, readItems bare place front = .ok xs) →
      readValue bare place v = readValue bare place w) :
    readItems bare place (front ++ v :: back) = readItems bare place (front ++ w :: back) := by
  induction front with
  | nil =>
    have hread := h ⟨[], by rw [readItems]; rfl⟩
    rw [List.nil_append, List.nil_append, readItems, readItems, hread]
  | cons u front ih =>
    rw [List.cons_append, List.cons_append, readItems, readItems]
    cases hu : readValue bare place u with
    | error fault => rfl
    | ok x =>
      rw [ih ?_]
      rintro ⟨xs, hxs⟩
      exact h ⟨x :: xs, by rw [readItems, hu, hxs]; rfl⟩

theorem readParts_replace {title : String} {total : Nat} (back : List Value) {es : List Entry}
    (h : ∀ e ∈ es[front.length]?, readValue bare e.place v = readValue bare e.place w)
    (index : Nat) :
    readParts bare title total es index (front ++ v :: back) =
      readParts bare title total es index (front ++ w :: back) := by
  induction front generalizing es index with
  | nil =>
    rw [List.nil_append, List.nil_append]
    cases es with
    | nil => rw [readParts, readParts]
    | cons e es =>
      rw [readParts, readParts, h e rfl]
  | cons u front ih =>
    rw [List.cons_append, List.cons_append]
    cases es with
    | nil => rw [readParts, readParts]
    | cons e es =>
      rw [readParts, readParts, ih h (index + 1)]

/-- What is read from an object is decided by its plan and by the parts of the form, if any. -/
theorem readValue_object_congr
    (hplan : place.objectPlan bare members = place.objectPlan bare others)
    (h : ∀ form inner, place.objectPlan bare members = .fill form inner → ∀ row,
      readMembers inner form.entries row members = readMembers inner form.entries row others) :
    readValue bare place (.object members) = readValue bare place (.object others) := by
  rw [readValue, readValue, ← hplan]
  cases hfill : place.objectPlan bare members with
  | give result => rfl
  | fill form inner => simp only [h form inner hfill]

/-- A member of a name that the reader does not know can be put into an object. -/
theorem readValue_insert (hplain : place.plain = true) (hkey : key ∉ readerNames) (value : Value)
    (members : List (String × Value)) :
    readValue bare place (.object members) =
      readValue bare place (.object (Document.insert key value members)) := by
  have htype := lookup?_insert_of_not_mem (k := "type") hkey (by decide) value members
  refine readValue_object_congr (Place.objectPlan_congr hplain (by rw [htype])) ?_
  intro form inner hfill row
  have hadmits := Place.admits_objectPlan bare hplain members
  rw [hfill] at hadmits
  symm
  refine readMembers_insert (fun hmem => ?_) value row
  obtain ⟨e, he, rfl⟩ := List.mem_map.mp hmem
  exact hkey (hadmits e he).1

theorem readValue_member {s : Standing} (hs : s ≠ .methodKind) (hplain : place.plain = true)
    (hfound : found v = found w) (before after : List (String × Value))
    (h : ∀ inner part, (s.ofMember (before ++ (key, v) :: after) key).admits part = true →
      readValue inner part v = readValue inner part w) :
    readValue bare place (.object (before ++ (key, v) :: after)) =
      readValue bare place (.object (before ++ (key, w) :: after)) := by
  have htype := map_lookup?_replace found "type" key before after fun _ => hfound
  refine readValue_object_congr (Place.objectPlan_congr hplain htype) ?_
  intro form inner hfill row
  have hadmits := Place.admits_objectPlan bare hplain (before ++ (key, v) :: after)
  rw [hfill] at hadmits
  refine readMembers_replace after (fun e he hname => ?_) row
  exact h inner e.place (hname ▸ (hadmits e he).2 s hs)

theorem readValue_array_congr {items items' : List Value}
    (hlength : items.length = items'.length)
    (hplan : place.arrayPlan bare items.head? = place.arrayPlan bare items'.head?)
    (heach : ∀ item gather, place.arrayPlan bare items.head? = .each item gather →
      readItems bare item items = readItems bare item items')
    (hfill : ∀ form inner, place.arrayPlan bare items.head? = .fill form inner →
      readParts inner form.title form.entries.length form.entries 0 items =
        readParts inner form.title form.entries.length form.entries 0 items')
    (hrest : ∀ form, place.arrayPlan bare items.head? = .fillRest form →
      readParts false form.title form.entries.length form.entries 0 items.tail =
        readParts false form.title form.entries.length form.entries 0 items'.tail) :
    readValue bare place (.array items) = readValue bare place (.array items') := by
  rw [readValue, readValue, ← hplan]
  cases hall : place.arrayPlan bare items.head? with
  | give result => rfl
  | each item gather => simp only [heach item gather hall]
  | fill form inner => simp only [hfill form inner hall, hlength]
  | fillRest form =>
    have hparts := hrest form hall
    cases items with
    | nil =>
      cases items' with
      | nil => rfl
      | cons u' back' => cases hlength
    | cons u back =>
      cases items' with
      | nil => cases hlength
      | cons u' back' =>
        simp only [List.tail_cons] at hparts
        have hcount : back.length = back'.length := Nat.succ.inj hlength
        simp only [hparts, hcount]

variable {s : Standing}

/-- In a list, an item that could be the kind of a method comes after a string, which is refused at
every place that takes objects. -/
theorem readItems_item (hplain : place.plain = true) (front back : List Value)
    (h : ∀ inner part, (s.ofItem front).admits part = true →
      readValue inner part v = readValue inner part w) :
    readItems bare place (front ++ v :: back) = readItems bare place (front ++ w :: back) := by
  apply readItems_replace back
  rintro ⟨xs, hxs⟩
  apply h bare place
  rcases s.ofItem_cases front with hs | ⟨hs, rfl⟩
  · rw [hs]
    exact hplain
  · rw [hs]
    refine Standing.admits_methodKind_iff.mpr (.inr ⟨hplain, ?_⟩)
    by_contra hrefuses
    rw [readItems, readValue_string bare hplain (Bool.eq_false_iff.mpr hrefuses)] at hxs
    cases hxs

theorem readParts_item {title : String} {total : Nat} {es : List Entry}
    (hplain : ∀ e ∈ es, e.place.plain = true)
    (hsecond : ∀ e ∈ es[0]?, ∀ e' ∈ es[1]?,
      e.place.refusesObjects = false ∨ e'.place.refusesObjects = true)
    (front back : List Value)
    (h : ∀ inner part, (s.ofItem front).admits part = true →
      readValue inner part v = readValue inner part w) :
    readParts bare title total es 0 (front ++ v :: back) =
      readParts bare title total es 0 (front ++ w :: back) := by
  rcases s.ofItem_cases front with hs | ⟨hs, rfl⟩
  · refine readParts_replace back (fun e he => h bare e.place ?_) 0
    rw [hs]
    exact hplain e (List.mem_of_getElem? he)
  -- The item comes second, after a string. The first part refuses the string if it takes objects,
  -- and the second part refuses objects if the first does not.
  · by_cases hfirst : ∃ e ∈ es[0]?, e.place.refusesObjects = false
    · obtain ⟨e, he, hrefuses⟩ := hfirst
      obtain ⟨es', rfl⟩ : ∃ es', es = e :: es' := by
        cases es with
        | nil => cases he
        | cons other es' => exact ⟨es', by cases he; rfl⟩
      have hstring := readValue_string bare (hplain e List.mem_cons_self) hrefuses "ObjectMethod"
      rw [List.singleton_append, List.singleton_append, readParts, readParts, hstring]
      rfl
    · refine readParts_replace back (fun e' he' => h bare e'.place ?_) 0
      rw [hs]
      refine Standing.admits_methodKind_iff.mpr (.inr ⟨hplain e' (List.mem_of_getElem? he'), ?_⟩)
      obtain ⟨e, he⟩ : ∃ e, es[0]? = some e := by
        cases es with
        | nil => cases he'
        | cons e es' => exact ⟨e, rfl⟩
      exact (hsecond e he e' he').resolve_left fun hrefuses => hfirst ⟨e, he, hrefuses⟩

theorem readValue_item (hplace : s.admits place = true) (hfound : found v = found w)
    (front back : List Value)
    (h : ∀ inner part, (s.ofItem front).admits part = true →
      readValue inner part v = readValue inner part w) :
    readValue bare place (.array (front ++ v :: back)) =
      readValue bare place (.array (front ++ w :: back)) := by
  have hhead : (front ++ v :: back).head?.map found = (front ++ w :: back).head?.map found := by
    cases front with
    | nil => exact congrArg some hfound
    | cons u front => rfl
  have hadmits := Place.admits_arrayPlan bare hplace (front ++ v :: back).head?
  refine readValue_array_congr (by simp) (Place.arrayPlan_congr hhead) ?_ ?_ ?_
  · intro item gather hplan
    rw [hplan] at hadmits
    exact readItems_item hadmits front back h
  · intro form inner hplan
    rw [hplan] at hadmits
    exact readParts_item hadmits.1 hadmits.2 front back h
  · intro form hplan
    rw [hplan] at hadmits
    obtain ⟨kind, hkind, hparts⟩ := hadmits
    cases front with
    | nil => rfl
    | cons u front =>
      obtain rfl : u = .string kind := Option.some.inj hkind
      refine readParts_replace back (fun e he => h false e.place ?_) 0
      rw [Standing.ofItem_cons]
      exact hparts front.length e he

end Reading

section Insertion

variable {s : Standing}

theorem methodOfObject_of_length_ne (h : members.length ≠ 1) :
    methodOfObject members = .error .severalNames := by
  rw [methodOfObject.eq_def]
  split
  · exact absurd rfl h
  · rfl

/-- The value of the only member of a method's kind stays empty, or stays not empty. -/
theorem methodOfObject_of_inserted {word : String} (h : Inserted NoMethodWord .methodUnit v w) :
    methodOfObject [(word, v)] = methodOfObject [(word, w)] := by
  rw [methodOfObject, methodOfObject]
  cases h with
  | @here _ members key value hkey hopen =>
    cases members with
    | nil => exact absurd rfl (hopen.2 rfl)
    | cons member rest =>
      have hne : ∃ first more, Document.insert key value (member :: rest) = first :: more := by
        rw [Document.insert]
        split
        · exact ⟨_, _, rfl⟩
        · split <;> exact ⟨_, _, rfl⟩
      obtain ⟨first, more, hinsert⟩ := hne
      rw [hinsert]
      rfl
  | member before after h => cases before <;> rfl
  | item before after h => rfl

theorem methodOfObject_member (before after : List (String × Value))
    (h : Inserted NoMethodWord
      (Standing.methodKind.ofMember (before ++ (key, v) :: after) key) v w) :
    methodOfObject (before ++ (key, v) :: after) =
      methodOfObject (before ++ (key, w) :: after) := by
  have hlength : (before ++ (key, v) :: after).length = (before ++ (key, w) :: after).length := by
    simp
  by_cases hone : (before ++ (key, v) :: after).length = 1
  · obtain ⟨rfl, rfl⟩ : before = [] ∧ after = [] := by
      simp only [List.length_append, List.length_cons] at hone
      exact ⟨List.length_eq_zero_iff.mp (by omega), List.length_eq_zero_iff.mp (by omega)⟩
    exact methodOfObject_of_inserted h
  · rw [methodOfObject_of_length_ne hone, methodOfObject_of_length_ne (hlength ▸ hone)]

/-- A member of a name that the reader does not know makes no difference at any place where a value
may be read. -/
theorem readValue_of_inserted (h : Inserted NoMethodWord s v w) :
    ∀ bare place, s.admits place = true → readValue bare place v = readValue bare place w := by
  induction h with
  | @here s members key value hkey hopen =>
    intro bare place hplace
    rcases Standing.plain_of_admits hplace with ⟨hs, _⟩ | hplain
    · exact absurd hs hopen.1
    · exact readValue_insert hplain hkey value members
  | @member s key v w before after hinner ih =>
    intro bare place hplace
    -- The kind of a method is a word and has no plan, so its members are looked at directly.
    by_cases hs : s = .methodKind
    · subst hs
      rcases Standing.admits_methodKind_iff.mp hplace with rfl | ⟨_, hrefuses⟩
      · rw [readValue, readValue]
        exact methodOfObject_member before after hinner
      · rw [readValue_of_refusesObjects hrefuses, readValue_of_refusesObjects hrefuses]
    · rcases Standing.plain_of_admits hplace with ⟨heq, _⟩ | hplain
      · exact absurd heq hs
      · exact readValue_member hs hplain hinner.found_eq before after ih
  | @item s v w front back hinner ih =>
    intro bare place hplace
    exact readValue_item hplace hinner.found_eq front back ih

theorem readProgram_of_inserted (h : Inserted NoMethodWord .plain v w) :
    readProgram v = readProgram w := by
  rw [readProgram, readProgram, readValue_of_inserted h true (.record .block) rfl]

theorem readDocument_file (h : lookup? "type" members = some (.string "File")) :
    readDocument (.object members) = ((lookup? "program" members).map readProgram).elim
      (.error .noProgram) (Except.mapError ReadError.fault) := by
  rw [readDocument, programValue, h]
  cases lookup? "program" members <;> rfl

theorem readDocument_program (h : lookup? "type" members = some (.string "Program")) :
    readDocument (.object members) = (readProgram (.object members)).mapError .fault := by
  rw [readDocument, programValue, h]
  rfl

theorem readDocument_root {kind : String} (h : lookup? "type" members = some (.string kind))
    (hfile : kind ≠ "File") (hprogram : kind ≠ "Program") :
    readDocument (.object members) = .error (.root kind) := by
  rw [readDocument, programValue, h]
  -- `hfile` and `hprogram` rule out the two cases in front.
  simp only [bind, Except.bind]

theorem readDocument_untyped (h : ∀ kind, lookup? "type" members ≠ some (.string kind)) :
    readDocument (.object members) = .error .untyped := by
  rw [readDocument, programValue]
  cases htype : lookup? "type" members with
  | none => rfl
  | some t =>
    cases t with
    | string kind => exact absurd htype (h kind)
    | _ => rfl

/-- The document depends on what its type is reported as, on the program in it and on the program
that it is. -/
theorem readDocument_congr
    (htype : (lookup? "type" members).map found = (lookup? "type" others).map found)
    (hprogram : (lookup? "program" members).map readProgram =
      (lookup? "program" others).map readProgram)
    (hroot : readProgram (.object members) = readProgram (.object others)) :
    readDocument (.object members) = readDocument (.object others) := by
  have hstring (kind : String) : lookup? "type" members = some (.string kind) ↔
      lookup? "type" others = some (.string kind) := by
    rcases eq_or_not_string_of_map_found htype with heq | ⟨x, y, hx, hy, _, hxs, hys⟩
    · rw [heq]
    · rw [hx, hy]
      constructor
      · exact fun h => absurd (Option.some.inj h) (hxs kind)
      · exact fun h => absurd (Option.some.inj h) (hys kind)
  by_cases htyped : ∃ kind, lookup? "type" members = some (.string kind)
  · obtain ⟨kind, hkind⟩ := htyped
    have hkind' := (hstring kind).mp hkind
    by_cases hfile : kind = "File"
    · subst hfile
      rw [readDocument_file hkind, readDocument_file hkind', hprogram]
    · by_cases hname : kind = "Program"
      · subst hname
        rw [readDocument_program hkind, readDocument_program hkind', hroot]
      · rw [readDocument_root hkind hfile hname, readDocument_root hkind' hfile hname]
  · have hnone : ∀ kind, lookup? "type" members ≠ some (.string kind) :=
      fun kind hkind => htyped ⟨kind, hkind⟩
    rw [readDocument_untyped hnone,
      readDocument_untyped fun kind hkind => hnone kind ((hstring kind).mpr hkind)]

/-- One step. -/
theorem readDocument_of_step (h : Inserted NoMethodWord .plain v w) :
    readDocument v = readDocument w := by
  have hroot := readProgram_of_inserted h
  cases h with
  | @here _ members key value hkey hopen =>
    refine readDocument_congr ?_ ?_ hroot
    · rw [lookup?_insert_of_not_mem hkey (by decide)]
    · rw [lookup?_insert_of_not_mem hkey (by decide)]
  | @member _ key v w before after hinner =>
    refine readDocument_congr ?_ ?_ hroot
    · exact map_lookup?_replace found "type" key before after fun _ => hinner.found_eq
    · refine map_lookup?_replace readProgram "program" key before after ?_
      rintro rfl
      exact readProgram_of_inserted hinner
  | item front back hinner => rfl

end Insertion

/-- Members of names that the reader does not know can be put into the objects of a document, at any
depth and any number of them, and the document gives the same program or the same fault. Left out
are the objects that are kinds of object methods, and the empty object as the value of their only
member. -/
theorem readDocument_of_inserted {v w : Value}
    (h : Relation.ReflTransGen (Inserted NoMethodWord .plain) v w) :
    readDocument v = readDocument w ∧
      ∀ source source', Document.parse source = .ok v → Document.parse source' = .ok w →
        read source = read source' := by
  have hsame : readDocument v = readDocument w := by
    induction h with
    | refl => rfl
    | tail _ hstep ih => exact ih.trans (readDocument_of_step hstep)
  refine ⟨hsame, ?_⟩
  intro source source' hv hw
  rw [read, read, hv, hw]
  exact hsame

/-- A getter, the kind of which is written as an object. -/
def getterMember (word further : List (String × Value)) : Value :=
  .object ([("body", .object [("body", .array [])]),
    ("key", .object [("name", .string "a"), ("type", .string "Identifier")]),
    ("kind", .object [("get", .object word)])] ++ further ++
    [("params", .array []), ("type", .string "ObjectMethod")])

/-- A document with an object literal that has one member. -/
def literalDocument (member : Value) (further : List (String × Value)) : Value :=
  .object (("body", .array [.object [
    ("expression", .object
      [("properties", .array [member]), ("type", .string "ObjectExpression")]),
    ("type", .string "ExpressionStatement")]]) :: further ++ [("type", .string "Program")])

/-- The program of such a document with a getter. -/
def getterProgram : Program :=
  ⟨[.expressionStatement (.objectExpression
    [.objectMethod .getter (.identifier "a") [] [] false false false false])]⟩

theorem Inserted.literalDocument {Open : Standing → List (String × Value) → Prop}
    {v w : Value} (h : Inserted Open .item v w) (further : List (String × Value)) :
    Inserted Open .plain (literalDocument v further) (literalDocument w further) := by
  refine .member [] (further ++ [("type", .string "Program")]) (.item [] [] ?_)
  refine .member [] [("type", .string "ExpressionStatement")] ?_
  refine .member [] [("type", .string "ObjectExpression")] (.item [] [] ?_)
  exact h

theorem readDocument_of_inserted_getter :
    readDocument (literalDocument (getterMember [] []) []) = .ok getterProgram ∧
      readDocument (literalDocument (getterMember [] [("loc", .object [("line", .integer 1)])])
        [("comments", .array [])]) = .ok getterProgram := by
  have hroot : Inserted NoMethodWord .plain (literalDocument (getterMember [] []) [])
      (literalDocument (getterMember [] []) [("comments", .array [])]) :=
    .here "comments" (.array []) (by decide) ⟨by decide, by decide⟩
  have hmethod : Inserted NoMethodWord .item (getterMember [] [])
      (getterMember [] [("loc", .object [("line", .integer 1)])]) :=
    .here "loc" (.object [("line", .integer 1)]) (by decide) ⟨by decide, by decide⟩
  have hread : readDocument (literalDocument (getterMember [] []) []) = .ok getterProgram := rfl
  have hsame := (readDocument_of_inserted
    (.tail (.single hroot) (hmethod.literalDocument [("comments", .array [])]))).1
  exact ⟨hread, hsame ▸ hread⟩

/-- The value of the only member of a method's kind has to be empty, so no member can be put
there. -/
theorem readDocument_methodUnit :
    Inserted NoMethodKind .plain (literalDocument (getterMember [] []) [])
        (literalDocument (getterMember [("loc", .integer 1)] []) []) ∧
      readDocument (literalDocument (getterMember [] []) []) = .ok getterProgram ∧
      readDocument (literalDocument (getterMember [("loc", .integer 1)] []) []) =
        .error (.fault (.type .map "unit")) := by
  have hword : Inserted NoMethodKind .item (getterMember [] [])
      (getterMember [("loc", .integer 1)] []) := by
    refine .member [("body", .object [("body", .array [])]),
      ("key", .object [("name", .string "a"), ("type", .string "Identifier")])]
      [("params", .array []), ("type", .string "ObjectMethod")] (.member [] [] ?_)
    exact .here "loc" (.integer 1) (by decide) (by decide : Standing.methodUnit ≠ .methodKind)
  exact ⟨hword.literalDocument [], rfl, rfl⟩

end Estree

end ScriptWire
