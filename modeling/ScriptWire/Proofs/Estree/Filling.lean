import ScriptWire.Estree.Reader
import ScriptWire.Proofs.Document.Members

/-!
# Filling forms

The members of an object are visited in the order of their keys, whatever the order of the parts of
a form. What a form is filled with depends only on the value of each name.

## Main definitions

- `Estree.Supplied` — members give all parts of a form
- `Estree.Pending` — the same, when some parts were read before

## Main results

- `Estree.readMembers_of_pending` — the loop over members ends with all parts
- `Estree.fill_of_supplied` — a form is filled from an object that gives all its parts
-/

namespace ScriptWire

namespace Estree

open Document (Value lookup? keys Ascending)

variable {bare : Bool} {members rest : List (String × Value)}

/-- A part of a form, by the value that was found under its name. -/
def Entry.Supplied (bare : Bool) (e : Entry) (found : Option Value) (x : e.place.Result) : Prop :=
  match found with
  | some v => readValue bare e.place v = .ok x
  | none => e.ifAbsent = some x

/-- The members of an object give all parts of a form. -/
def Supplied (bare : Bool) (members : List (String × Value)) : (es : List Entry) → Full es → Prop
  | [], _ => True
  | e :: es, (x, full) =>
    e.Supplied bare (lookup? e.name members) x ∧ Supplied bare members es full

/-- The members of an object give the parts of a form that were not read before, and no others. -/
def Pending (bare : Bool) (members : List (String × Value)) :
    (es : List Entry) → Row es → Full es → Prop
  | [], _, _ => True
  | e :: es, (some y, row), (x, full) =>
    (y = x ∧ lookup? e.name members = none) ∧ Pending bare members es row full
  | e :: es, (none, row), (x, full) =>
    e.Supplied bare (lookup? e.name members) x ∧ Pending bare members es row full

theorem Supplied.pending : {es : List Entry} → {full : Full es} → Supplied bare members es full →
    Pending bare members es (Row.empty es) full
  | [], _, _ => trivial
  | _ :: _, (_, _), h => ⟨h.1, h.2.pending⟩

/-- A member that no part has the name of changes nothing. -/
theorem Pending.skip {key : String} {v : Value} :
    {es : List Entry} → {row : Row es} → {full : Full es} → key ∉ es.map Entry.name →
      Pending bare ((key, v) :: rest) es row full → Pending bare rest es row full
  | [], _, _, _, _ => trivial
  | e :: es, (part, row), (x, full), hkey, h => by
    rw [List.map_cons, List.mem_cons, not_or] at hkey
    have hlookup := Document.lookup?_cons_of_ne hkey.1 v rest
    cases part with
    | none =>
      obtain ⟨hpart, hrest⟩ := h
      exact ⟨hlookup ▸ hpart, hrest.skip hkey.2⟩
    | some y =>
      obtain ⟨hpart, hrest⟩ := h
      exact ⟨⟨hpart.1, hlookup ▸ hpart.2⟩, hrest.skip hkey.2⟩

theorem spot?_eq_none {key : String} : {es : List Entry} → spot? es key = none →
    key ∉ es.map Entry.name
  | [], _ => List.not_mem_nil
  | e :: es, h => by
    rw [spot?] at h
    by_cases hname : e.name = key
    · rw [if_pos hname] at h
      cases h
    · rw [if_neg hname, Option.map_eq_none_iff] at h
      rw [List.map_cons, List.mem_cons, not_or]
      exact ⟨Ne.symm hname, spot?_eq_none h⟩

theorem spot?_of_not_mem {key : String} {es : List Entry}
    (h : key ∉ es.map Entry.name) : spot? es key = none := by
  induction es with
  | nil => rfl
  | cons e es ih =>
    rw [List.map_cons, List.mem_cons, not_or] at h
    rw [spot?, if_neg (Ne.symm h.1), ih h.2]
    rfl

/-- The place of a spot is that of the part with its name. -/
theorem exists_entry_of_spot? {key : String} {es : List Entry} {spot : Spot es}
    (h : spot? es key = some spot) :
    ∃ e ∈ es, e.name = key ∧ e.place = spot.place := by
  induction es with
  | nil => cases h
  | cons e es ih =>
    rw [spot?] at h
    by_cases hname : e.name = key
    · rw [if_pos hname] at h
      cases h
      exact ⟨e, List.mem_cons_self, hname, rfl⟩
    · rw [if_neg hname, Option.map_eq_some_iff] at h
      obtain ⟨spot, hspot, rfl⟩ := h
      obtain ⟨other, hmem, hother⟩ := ih hspot
      exact ⟨other, List.mem_cons_of_mem e hmem, hother⟩

/-- A member that a part has the name of is read and put there. -/
theorem Pending.put {key : String} {v : Value} (hrest : key ∉ keys rest) :
    {es : List Entry} → {row : Row es} → {full : Full es} → {spot : Spot es} →
      (es.map Entry.name).Nodup → spot? es key = some spot →
        Pending bare ((key, v) :: rest) es row full →
          ∃ x, readValue bare spot.place v = .ok x ∧ Pending bare rest es (spot.put x row) full
  | [], _, _, _, _, hspot, _ => by cases hspot
  | e :: es, (part, row), (x, full), spot, hnodup, hspot, h => by
    rw [List.map_cons, List.nodup_cons] at hnodup
    rw [spot?] at hspot
    by_cases hname : e.name = key
    · rw [if_pos hname] at hspot
      cases hspot
      have hfound : lookup? e.name ((key, v) :: rest) = some v := by
        rw [lookup?, if_pos hname.symm]
      have hgone : lookup? e.name rest = none := by
        rw [hname]
        exact Document.lookup?_eq_none_iff.mpr hrest
      -- The part was not read before, since then no member would be left for it.
      cases part with
      | none =>
        obtain ⟨hpart, hothers⟩ := h
        rw [hfound] at hpart
        exact ⟨x, hpart, ⟨rfl, hgone⟩, hothers.skip (hname ▸ hnodup.1)⟩
      | some y =>
        obtain ⟨⟨_, hnone⟩, _⟩ := h
        rw [hfound] at hnone
        cases hnone
    · rw [if_neg hname, Option.map_eq_some_iff] at hspot
      obtain ⟨inner, hinner, rfl⟩ := hspot
      have hlookup := Document.lookup?_cons_of_ne (Ne.symm hname) v rest
      cases part with
      | none =>
        obtain ⟨hpart, hothers⟩ := h
        obtain ⟨y, hread, hput⟩ := hothers.put hrest hnodup.2 hinner
        exact ⟨y, hread, hlookup ▸ hpart, hput⟩
      | some y =>
        obtain ⟨hpart, hothers⟩ := h
        obtain ⟨z, hread, hput⟩ := hothers.put hrest hnodup.2 hinner
        exact ⟨z, hread, ⟨hpart.1, hlookup ▸ hpart.2⟩, hput⟩

/-- Without further members, the parts that were not read are what is taken for them. -/
theorem Pending.complete : {es : List Entry} → {row : Row es} → {full : Full es} →
    Pending bare [] es row full → row.complete es = .ok full
  | [], _, (), _ => rfl
  | e :: es, (none, row), (x, full), h => by
    have habsent : e.ifAbsent = some x := h.1
    simp [Row.complete, habsent, h.2.complete]
  | e :: es, (some y, row), (x, full), h => by
    simp [Row.complete, h.1.1, h.2.complete]

/-- The loop over members ends with all parts, if they give those that were not read before. -/
theorem readMembers_of_pending {es : List Entry} {full : Full es}
    (hnames : (es.map Entry.name).Nodup)
    (hkeys : (keys members).Nodup) {row : Row es} (h : Pending bare members es row full) :
    (readMembers bare es row members >>= Row.complete es) = .ok full := by
  induction members generalizing row with
  | nil =>
    rw [readMembers]
    exact h.complete
  | cons member rest ih =>
    obtain ⟨key, v⟩ := member
    obtain ⟨hkey, hrest⟩ := List.nodup_cons.mp hkeys
    rw [readMembers]
    cases hspot : spot? es key with
    | none => exact ih hrest (h.skip (spot?_eq_none hspot))
    | some spot =>
      obtain ⟨x, hread, hput⟩ := h.put hkey hnames hspot
      simp only [hread]
      exact ih hrest hput

theorem Level.nodup_names (level : Level) :
    ∀ f ∈ level.forms, (f.2.entries.map Entry.name).Nodup := by
  cases level <;> decide

theorem Record.nodup_names (r : Record) : (r.form.entries.map Entry.name).Nodup := by
  cases r <;> decide

/-- A form is filled from members that give all its parts. -/
theorem fill_of_supplied {α : Type} {form : Form α} (hnames : (form.entries.map Entry.name).Nodup)
    (hkeys : Ascending members) {full : Full form.entries}
    (h : Supplied bare members form.entries full) :
    (do
      let row ← readMembers bare form.entries (Row.empty form.entries) members
      let parts ← row.complete form.entries
      return form.build parts) = .ok (form.build full) := by
  have hfull := readMembers_of_pending hnames hkeys.nodup h.pending
  rw [← bind_assoc, hfull]
  rfl

end Estree

end ScriptWire
