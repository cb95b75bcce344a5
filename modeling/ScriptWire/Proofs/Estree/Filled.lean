import ScriptWire.Proofs.Ensures
import ScriptWire.Proofs.Estree.Filling

/-!
# What forms are filled with

A form is filled from an object or an array, or it is not, and both can be seen from the parts one
by one. Objects may have several members of one name here, the last of which counts.

## Main definitions

- `Estree.Filled`, `Estree.Taken` — where the parts of a form come from
- `Estree.Malformed`, `Estree.MalformedItems` — some part cannot be read, or is missing

## Main results

- `Estree.fill_cases` — a form is filled from an object, or the object is malformed
- `Estree.readParts_cases` — the same for an array
-/

namespace ScriptWire

namespace Estree

open Document (Value keys)

variable {bare : Bool} {key : String} {v : Value} {members seen rest : List (String × Value)}

section Objects

/-- What is known of a part of a form when some members were read. -/
def Entry.Read (bare : Bool) (seen : List (String × Value)) (e : Entry) :
    Option e.place.Result → Prop
  | none => e.name ∉ keys seen
  | some x => ∃ v, (e.name, v) ∈ seen ∧ readValue bare e.place v = .ok x

/-- The same for all parts of a form. -/
def Row.Reads (bare : Bool) (seen : List (String × Value)) : (es : List Entry) → Row es → Prop
  | [], _ => True
  | e :: es, (part, row) => e.Read bare seen part ∧ Row.Reads bare seen es row

theorem Row.reads_empty : (es : List Entry) → Row.Reads bare [] es (Row.empty es)
  | [] => trivial
  | _ :: es => ⟨List.not_mem_nil, Row.reads_empty es⟩

theorem Entry.Read.more {e : Entry} {part : Option e.place.Result} (h : e.Read bare seen part)
    (hkey : key ≠ e.name) (v : Value) : e.Read bare (seen ++ [(key, v)]) part := by
  cases part with
  | none =>
    show e.name ∉ (seen ++ [(key, v)]).map Prod.fst
    rw [List.map_append, List.mem_append, not_or]
    exact ⟨h, by simpa using Ne.symm hkey⟩
  | some x =>
    obtain ⟨u, hu, hread⟩ := h
    exact ⟨u, List.mem_append_left _ hu, hread⟩

theorem Row.Reads.skip {es : List Entry} {row : Row es} (h : Row.Reads bare seen es row)
    (hkey : key ∉ es.map Entry.name) (v : Value) : Row.Reads bare (seen ++ [(key, v)]) es row := by
  induction es with
  | nil => trivial
  | cons e es ih =>
    rw [List.map_cons, List.mem_cons, not_or] at hkey
    exact ⟨h.1.more hkey.1 v, ih h.2 hkey.2⟩

theorem Row.Reads.put {es : List Entry} {row : Row es} {spot : Spot es}
    (h : Row.Reads bare seen es row) (hnames : (es.map Entry.name).Nodup)
    (hspot : spot? es key = some spot) {x : spot.place.Result}
    (hread : readValue bare spot.place v = .ok x) :
    Row.Reads bare (seen ++ [(key, v)]) es (spot.put x row) := by
  induction es with
  | nil => cases hspot
  | cons e es ih =>
    rw [List.map_cons, List.nodup_cons] at hnames
    rw [spot?] at hspot
    by_cases hname : e.name = key
    · rw [if_pos hname] at hspot
      cases hspot
      have hmem : (e.name, v) ∈ seen ++ [(key, v)] := by simp [hname]
      exact ⟨⟨v, hmem, hread⟩, h.2.skip (hname ▸ hnames.1) v⟩
    · rw [if_neg hname, Option.map_eq_some_iff] at hspot
      obtain ⟨inner, hinner, rfl⟩ := hspot
      exact ⟨h.1.more (Ne.symm hname) v, ih h.2 hnames.2 hinner hread⟩

/-- Each part is read from a member of its name, or there is none. -/
theorem reads_of_readMembers {es : List Entry} (hnames : (es.map Entry.name).Nodup)
    {row row' : Row es} (h : Row.Reads bare seen es row)
    (hread : readMembers bare es row rest = .ok row') : Row.Reads bare (seen ++ rest) es row' := by
  induction rest generalizing seen row with
  | nil =>
    rw [readMembers] at hread
    cases hread
    rwa [List.append_nil]
  | cons member rest ih =>
    obtain ⟨key, v⟩ := member
    rw [readMembers] at hread
    rw [List.append_cons]
    cases hspot : spot? es key with
    | none =>
      rw [hspot] at hread
      exact ih (h.skip (spot?_eq_none hspot) v) hread
    | some spot =>
      rw [hspot] at hread
      obtain ⟨x, hx, hrest⟩ := bind_eq_ok.mp hread
      exact ih (h.put hnames hspot hx) hrest

/-- The place of the part with a name is found under it. -/
theorem exists_spot? {es : List Entry} (hnames : (es.map Entry.name).Nodup) {e : Entry}
    (he : e ∈ es) : ∃ spot, spot? es e.name = some spot ∧ spot.place = e.place := by
  induction es with
  | nil => cases he
  | cons other es ih =>
    rw [List.map_cons, List.nodup_cons] at hnames
    rw [spot?]
    rcases List.mem_cons.mp he with rfl | hmem
    · exact ⟨_, if_pos rfl, rfl⟩
    · have hne : other.name ≠ e.name := by
        intro hname
        exact hnames.1 (List.mem_map.mpr ⟨e, hmem, hname.symm⟩)
      obtain ⟨spot, hspot, hplace⟩ := ih hnames.2 hmem
      exact ⟨_, by rw [if_neg hne, hspot]; rfl, hplace⟩

/-- The members are read if each that has the name of a part can be read as that part. -/
theorem exists_readMembers_iff (bare : Bool) {es : List Entry}
    (hnames : (es.map Entry.name).Nodup) (row : Row es) (members : List (String × Value)) :
    (∃ row', readMembers bare es row members = .ok row') ↔
      ∀ e ∈ es, ∀ v, (e.name, v) ∈ members → ∃ x, readValue bare e.place v = .ok x := by
  induction members generalizing row with
  | nil =>
    rw [readMembers]
    constructor
    · intro _ e he v hv
      cases hv
    · exact fun _ => ⟨row, rfl⟩
  | cons member rest ih =>
    obtain ⟨key, v⟩ := member
    rw [readMembers]
    cases hspot : spot? es key with
    | none =>
      have hkey := spot?_eq_none hspot
      rw [ih]
      refine forall₂_congr fun e he => forall_congr' fun u => ?_
      have hne : e.name ≠ key := by
        rintro rfl
        exact hkey (List.mem_map.mpr ⟨e, he, rfl⟩)
      simp [hne]
    | some spot =>
      obtain ⟨e, he, hname, hplace⟩ := exists_entry_of_spot? hspot
      constructor
      · rintro ⟨row', hread⟩
        obtain ⟨x, hx, hrest⟩ := bind_eq_ok.mp hread
        intro other hother u hu
        rcases List.mem_cons.mp hu with heq | hmem
        · obtain ⟨hkey, rfl⟩ := Prod.mk.inj heq
          obtain ⟨spot', hspot', hplace'⟩ := exists_spot? hnames hother
          rw [hkey, hspot] at hspot'
          cases hspot'
          rw [← hplace']
          exact ⟨x, hx⟩
        · exact (ih _).mp ⟨row', hrest⟩ other hother u hmem
      · intro h
        have hv : ∃ x, readValue bare e.place v = .ok x :=
          h e he v (by rw [hname]; exact List.mem_cons_self)
        rw [hplace] at hv
        obtain ⟨x, hx⟩ := hv
        have hrest : ∃ row', readMembers bare es (spot.put x row) rest = .ok row' :=
          (ih _).mpr fun other hother u hu => h other hother u (List.mem_cons_of_mem _ hu)
        obtain ⟨row', hrow'⟩ := hrest
        exact ⟨row', bind_eq_ok.mpr ⟨x, hx, hrow'⟩⟩

/-- Each part of a form is read from a member of its name, or taken because there is none. -/
def Filled (bare : Bool) (members : List (String × Value)) : (es : List Entry) → Full es → Prop
  | [], _ => True
  | e :: es, (x, full) =>
    ((∃ v, (e.name, v) ∈ members ∧ readValue bare e.place v = .ok x) ∨
      e.name ∉ keys members ∧ e.ifAbsent = some x) ∧ Filled bare members es full

/-- Some part of a form cannot be read from a member of its name, or is missing. -/
def Malformed (bare : Bool) (members : List (String × Value)) (es : List Entry) : Prop :=
  ∃ e ∈ es, (∃ v, (e.name, v) ∈ members ∧ ∀ x, readValue bare e.place v ≠ .ok x) ∨
    e.name ∉ keys members ∧ e.ifAbsent = none

theorem Row.Reads.complete_cases {es : List Entry} {row : Row es}
    (h : Row.Reads bare members es row) :
    (∃ full, row.complete es = .ok full ∧ Filled bare members es full ∧
      ∀ e ∈ es, e.name ∉ keys members → e.ifAbsent ≠ none) ∨
    (∃ fault, row.complete es = .error fault) ∧
      ∃ e ∈ es, e.name ∉ keys members ∧ e.ifAbsent = none := by
  induction es with
  | nil => exact .inl ⟨(), rfl, trivial, List.forall_mem_nil _⟩
  | cons e es ih =>
    obtain ⟨part, row⟩ := row
    obtain ⟨hpart, hrow⟩ := h
    rw [Row.complete]
    cases htaken : part <|> e.ifAbsent with
    | none =>
      obtain ⟨rfl, habsent⟩ : part = none ∧ e.ifAbsent = none := by
        cases part with
        | none => exact ⟨rfl, htaken⟩
        | some x => cases htaken
      exact .inr ⟨⟨_, rfl⟩, e, List.mem_cons_self, hpart, habsent⟩
    | some x =>
      rcases ih hrow with ⟨full, hfull, hfilled, hall⟩ | ⟨⟨fault, hfault⟩, e', he', hmissing⟩
      · refine .inl ⟨(x, full), by simp only [hfull], ⟨?_, hfilled⟩, ?_⟩
        · cases part with
          | none => exact .inr ⟨hpart, htaken⟩
          | some y =>
            cases htaken
            exact .inl hpart
        · rw [List.forall_mem_cons]
          refine ⟨fun hname habsent => ?_, hall⟩
          cases part with
          | none =>
            rw [habsent] at htaken
            cases htaken
          | some y =>
            obtain ⟨v, hv, _⟩ := hpart
            exact hname (List.mem_map_of_mem hv)
      · exact .inr ⟨⟨fault, by simp only [hfault]⟩, e', List.mem_cons_of_mem e he', hmissing⟩

/-- A form is filled from the members of an object, unless they are malformed. -/
theorem fill_cases {α : Type} (form : Form α) (hnames : (form.entries.map Entry.name).Nodup)
    (bare : Bool) (members : List (String × Value)) :
    (∃ full, (do
        let row ← readMembers bare form.entries (Row.empty form.entries) members
        let parts ← row.complete form.entries
        return form.build parts) = .ok (form.build full) ∧
      Filled bare members form.entries full ∧ ¬ Malformed bare members form.entries) ∨
    (∃ fault, (do
        let row ← readMembers bare form.entries (Row.empty form.entries) members
        let parts ← row.complete form.entries
        return form.build parts) = .error fault) ∧ Malformed bare members form.entries := by
  have hiff := exists_readMembers_iff bare hnames (Row.empty form.entries) members
  cases hread : readMembers bare form.entries (Row.empty form.entries) members with
  -- The fault is that of the first bad member, but there being one does not depend on the order.
  | error fault =>
    refine .inr ⟨⟨fault, rfl⟩, ?_⟩
    by_contra hgood
    rw [hread] at hiff
    obtain ⟨row', hrow'⟩ := hiff.mpr fun e he v hv => by
      by_contra hnone
      exact hgood ⟨e, he, .inl ⟨v, hv, fun x hx => hnone ⟨x, hx⟩⟩⟩
    cases hrow'
  | ok row =>
    have hparts := hiff.mp ⟨row, hread⟩
    have hreads : Row.Reads bare members form.entries row :=
      reads_of_readMembers hnames (Row.reads_empty form.entries) hread
    rcases hreads.complete_cases with
      ⟨full, hfull, hfilled, hall⟩ | ⟨⟨fault, hfault⟩, e, he, hmissing⟩
    · refine .inl ⟨full, bind_eq_ok.mpr ⟨row, rfl, bind_eq_ok.mpr ⟨full, hfull, rfl⟩⟩, hfilled, ?_⟩
      rintro ⟨e, he, ⟨v, hv, hbad⟩ | ⟨hname, habsent⟩⟩
      · obtain ⟨x, hx⟩ := hparts e he v hv
        exact hbad x hx
      · exact hall e he hname habsent
    · refine .inr ⟨⟨fault, ?_⟩, e, he, .inr hmissing⟩
      show (row.complete form.entries >>= fun parts => pure (form.build parts)) = _
      rw [hfault]
      rfl

end Objects

section Arrays

/-- Each part of a form is read from the item in its place, or filled in once the items end. -/
def Taken (bare : Bool) : (es : List Entry) → List Value → Full es → Prop
  | [], _, _ => True
  | e :: es, [], (x, full) => e.ifCut = some x ∧ Taken bare es [] full
  | e :: es, v :: items, (x, full) => readValue bare e.place v = .ok x ∧ Taken bare es items full

/-- Some part of a form cannot be read from the item in its place, or the items end before a part
that must be there. -/
def MalformedItems (bare : Bool) (items : List Value) (es : List Entry) : Prop :=
  ∃ (i : Nat) (e : Entry), es[i]? = some e ∧
    ((∃ v, items[i]? = some v ∧ ∀ x, readValue bare e.place v ≠ .ok x) ∨
      items[i]? = none ∧ e.ifCut = none)

theorem malformedItems_cons {e : Entry} {es : List Entry} {v : Value} {items : List Value} :
    MalformedItems bare (v :: items) (e :: es) ↔
      (∀ x, readValue bare e.place v ≠ .ok x) ∨ MalformedItems bare items es := by
  constructor
  · rintro ⟨i, e', he', hbad⟩
    cases i with
    | zero =>
      cases he'
      rcases hbad with ⟨u, hu, hread⟩ | ⟨hnone, _⟩
      · cases hu
        exact .inl hread
      · cases hnone
    | succ i => exact .inr ⟨i, e', he', hbad⟩
  · rintro (hread | ⟨i, hi⟩)
    · exact ⟨0, e, rfl, .inl ⟨v, rfl, hread⟩⟩
    · exact ⟨i + 1, hi⟩

theorem malformedItems_nil {es : List Entry} :
    MalformedItems bare [] es ↔ ∃ e ∈ es, e.ifCut = none := by
  constructor
  · rintro ⟨i, e, he, ⟨v, hv, _⟩ | ⟨_, hcut⟩⟩
    · cases hv
    · exact ⟨e, List.mem_of_getElem? he, hcut⟩
  · rintro ⟨e, he, hcut⟩
    obtain ⟨i, hi⟩ := List.mem_iff_getElem?.mp he
    exact ⟨i, e, hi, .inr ⟨rfl, hcut⟩⟩

theorem cut_cases (title : String) (total : Nat) (es : List Entry) (index : Nat) :
    (∃ full, cut title total es index = .ok full ∧ Taken bare es [] full ∧
      ¬ ∃ e ∈ es, e.ifCut = none) ∨
    (∃ fault, cut title total es index = .error fault) ∧ ∃ e ∈ es, e.ifCut = none := by
  induction es generalizing index with
  | nil =>
    refine .inl ⟨(), rfl, trivial, ?_⟩
    rintro ⟨e, he, _⟩
    cases he
  | cons e es ih =>
    rw [cut]
    cases hcut : e.ifCut with
    | none => exact .inr ⟨⟨_, rfl⟩, e, List.mem_cons_self, hcut⟩
    | some x =>
      rcases ih (index + 1) with ⟨full, hfull, htaken, hall⟩ | ⟨⟨fault, hfault⟩, e', he', hnone⟩
      · refine .inl ⟨(x, full), by simp only [hfull], ⟨hcut, htaken⟩, ?_⟩
        rintro ⟨other, hother, hnone⟩
        rcases List.mem_cons.mp hother with rfl | hmem
        · rw [hcut] at hnone
          cases hnone
        · exact hall ⟨other, hmem, hnone⟩
      · exact .inr ⟨⟨fault, by simp only [hfault]⟩, e', List.mem_cons_of_mem e he', hnone⟩

/-- A form is filled from the items of an array, unless they are malformed. Whether items are left
over is told as well. -/
theorem readParts_cases (bare : Bool) (title : String) (total : Nat) (es : List Entry) (index : Nat)
    (items : List Value) :
    (∃ full, readParts bare title total es index items =
        .ok (full, decide (es.length < items.length)) ∧
      Taken bare es items full ∧ ¬ MalformedItems bare items es) ∨
    (∃ fault, readParts bare title total es index items = .error fault) ∧
      MalformedItems bare items es := by
  induction items generalizing es index with
  | nil =>
    rw [readParts, malformedItems_nil]
    rcases cut_cases title total es index with ⟨full, hfull, htaken⟩ | ⟨⟨fault, hfault⟩, hbad⟩
    · exact .inl ⟨full, by rw [hfull]; rfl, htaken⟩
    · exact .inr ⟨⟨fault, by rw [hfault]; rfl⟩, hbad⟩
  | cons v items ih =>
    cases es with
    | nil =>
      rw [readParts]
      refine .inl ⟨(), by simp; rfl, trivial, ?_⟩
      rintro ⟨i, e, he, _⟩
      cases he
    | cons e es =>
      rw [readParts, malformedItems_cons]
      cases hread : readValue bare e.place v with
      | error fault =>
        refine .inr ⟨⟨fault, rfl⟩, .inl ?_⟩
        intro x hx
        cases hx
      | ok x =>
        rcases ih es (index + 1) with ⟨full, hfull, htaken, hgood⟩ | ⟨⟨fault, hfault⟩, hbad⟩
        · refine .inl ⟨(x, full), ?_, ⟨hread, htaken⟩, ?_⟩
          · refine bind_eq_ok.mpr ⟨x, rfl, bind_eq_ok.mpr ⟨_, hfull, ?_⟩⟩
            simp
            rfl
          · rintro (hnone | hbad)
            · exact hnone x rfl
            · exact hgood hbad
        · refine .inr ⟨⟨fault, ?_⟩, .inr hbad⟩
          rw [hfault]
          rfl

end Arrays

end Estree

end ScriptWire
