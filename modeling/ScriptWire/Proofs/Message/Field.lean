import ScriptWire.Proofs.Message.Part

/-!
# What a well-formed message holds in its fields

The requirements of the schema are read the other way round: from a field that has no fault follows
what stands in it. The messages in the field are known to have a property, which is handed on.

## Main definitions

- `Message.Slots.Meets`, `Message.Slot.Meets` — fields that have no fault, and whose messages have a
  property

## Main results

- `Message.Slots.meets_iff` — the fields of a message meet the schema one by one
- `Message.Slot.Meets.required`, … — what a field holds
-/

namespace ScriptWire

namespace Message

variable {P : Any → Prop}

/-- A field has no fault, and the messages in it have a property. -/
def Slot.Meets (P : Any → Prop) (name : String) (r : Requirement) (next : Bool) {shape : Shape}
    (slot : Slot shape) : Prop :=
  slot.fault? name r next = none ∧ ∀ c ∈ slot.parts, P c

/-- Fields have no fault, and the messages in them have a property. -/
def Slots.Meets (P : Any → Prop) : {fs : List Field} → Slots fs → Prop
  | [], .nil => True
  | f :: _, .cons head tail => head.Meets P f.name f.requirement tail.firstPresent ∧ tail.Meets P

theorem Slots.meets_iff :
    {fs : List Field} → {slots : Slots fs} →
      (slots.Meets P ↔ slots.fault? = none ∧ ∀ c ∈ slots.parts, P c)
  | [], .nil => by simp [Slots.Meets, Slots.fault?, Slots.parts]
  | _ :: _, .cons head tail => by
    rw [Slots.Meets, Slot.Meets, Slots.meets_iff, Slots.fault?, Slots.parts,
      List.forall_mem_append, Option.orElse_eq_orElse, Option.orElse_eq_or, Option.or_eq_none_iff]
    constructor
    · rintro ⟨⟨hhead, hparts⟩, htail, hrest⟩
      exact ⟨⟨hhead, htail⟩, hparts, hrest⟩
    · rintro ⟨⟨hhead, htail⟩, hparts, hrest⟩
      exact ⟨⟨hhead, hparts⟩, htail, hrest⟩

theorem Slots.meets_of_valid {k : Kind} {slots : Slots (fields k)}
    (hvalid : (Message.mk k slots).violation? = none) (hparts : ∀ c ∈ slots.parts, P c) :
    slots.Meets P := by
  rw [violation?, Option.map_eq_none_iff] at hvalid
  exact Slots.meets_iff.mpr ⟨hvalid, hparts⟩

namespace Slot.Meets

variable {name : String} {r : Requirement} {next : Bool} {number : Nat} {k : Kind}

theorem text {slot : Slot (.plain number .text)} (h : slot.Meets P name .nonEmpty next) :
    ∃ value : String, slot = .plain value ∧ value ≠ "" := by
  match slot, h with
  | .plain value, ⟨hfault, _⟩ =>
    refine ⟨value, rfl, ?_⟩
    rintro rfl
    cases hfault

theorem oneOf {slot : Slot (.plain number .text)} {words : List String}
    (h : slot.Meets P name (.oneOf words) next) :
    ∃ value : String, slot = .plain value ∧ value ∈ words := by
  match slot, h with
  | .plain value, ⟨hfault, _⟩ =>
    refine ⟨value, rfl, ?_⟩
    by_contra hvalue
    simp [Slot.fault?, Scalar.problem?, hvalue] at hfault

theorem choice {slot : Slot (.plain number .choice)} {count : Nat}
    (h : slot.Meets P name (.known count) next) :
    ∃ value : Int32, slot = .plain value ∧ 0 ≤ value.toInt ∧ value.toInt < count := by
  match slot, h with
  | .plain value, ⟨hfault, _⟩ =>
    refine ⟨value, rfl, ?_⟩
    by_contra hvalue
    simp [Slot.fault?, Scalar.problem?, hvalue] at hfault

/-- A field that must not be without a message has one. -/
theorem required {slot : Slot (.optional number k)} (h : slot.Meets P name r next)
    (hr : absentProblem? r next = some .missing) :
    ∃ m : Message k, slot = .present m ∧ P m.any ∧ partProblem? r m = none := by
  match slot, h with
  | .absent, ⟨hfault, _⟩ =>
    rw [Slot.fault?, hr] at hfault
    cases hfault
  | .present m, ⟨hfault, hparts⟩ =>
    rw [Slot.fault?, Option.map_eq_none_iff] at hfault
    exact ⟨m, rfl, hparts m.any (List.mem_singleton_self _), hfault⟩

theorem optional {slot : Slot (.optional number k)} (h : slot.Meets P name r next) :
    ∃ m : Option (Message k), slot = .ofOption m ∧ ∀ e ∈ m, P e.any := by
  match slot, h with
  | .absent, _ => exact ⟨none, rfl, by simp⟩
  | .present m, ⟨_, hparts⟩ =>
    refine ⟨some m, rfl, ?_⟩
    rintro _ ⟨⟩
    exact hparts m.any (List.mem_singleton_self _)

theorem list {slot : Slot (.repeated number k)} (h : slot.Meets P name r next) :
    ∃ ms : List (Message k), slot = .ofList ms ∧ listProblem? r ms = none ∧
      ∀ m ∈ ms, P m.any := by
  match slot, h with
  | .repeated ms, ⟨hfault, hparts⟩ =>
    rw [Slot.fault?, Option.map_eq_none_iff] at hfault
    refine ⟨ms.toList, ?_, hfault, fun m hm => hparts m.any (List.mem_map_of_mem hm)⟩
    rw [Slot.ofList, Sequence.ofList_toList]

theorem chosen {vs : List Variant} {slot : Slot (.union vs)} (h : slot.Meets P name .given next) :
    ∃ c : Choice vs, slot = .set c ∧ c.fault? = none ∧ ∀ m ∈ c.parts, P m := by
  match slot, h with
  | .unset, ⟨hfault, _⟩ => cases hfault
  | .set c, ⟨hfault, hparts⟩ => exact ⟨c, rfl, hfault, hparts⟩

end Slot.Meets

end Message

end ScriptWire
