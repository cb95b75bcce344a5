import ScriptWire.Message.Build
import Mathlib.Data.List.Basic
import Mathlib.Logic.Relation

/-!
# The messages inside a message

## Main definitions

- `Message.Any` — a message with its kind
- `Message.parts` — the messages that stand in the fields of a message
- `Message.Any.Inside` — one message stands somewhere inside another
- `Message.LawfulHolds` — a variant that asks nothing of the message which it holds

## Main results

- `Message.depth_le_iff` — a message is one level deeper than its deepest part
-/

namespace ScriptWire

namespace Message

/-- A message of some kind. -/
abbrev Any : Type :=
  Σ k : Kind, Message k

/-- A message with its kind. -/
def any {k : Kind} (m : Message k) : Any :=
  ⟨k, m⟩

/-- The messages in the contents of a variant. -/
def Payload.parts {c : Content} : Payload c → List Any
  | .scalar _ => []
  | .message m => [m.any]

/-- The messages in the chosen variant. -/
def Choice.parts {vs : List Variant} : Choice vs → List Any
  | .here payload => payload.parts
  | .later choice => choice.parts

/-- The messages in a field. -/
def Slot.parts {shape : Shape} : Slot shape → List Any
  | .plain _ => []
  | .absent => []
  | .present m => [m.any]
  | .repeated ms => ms.toList.map any
  | .unset => []
  | .set choice => choice.parts

/-- The messages in fields. -/
def Slots.parts {fs : List Field} : Slots fs → List Any
  | .nil => []
  | .cons head tail => head.parts ++ tail.parts

/-- The messages that stand in the fields of a message. -/
def parts {k : Kind} : Message k → List Any
  | .mk _ slots => slots.parts

/-- One message stands inside another, or is the other. -/
def Any.Inside (inner outer : Any) : Prop :=
  Relation.ReflTransGen (fun m c => c ∈ m.2.parts) outer inner

/-- What holds of every message inside another holds of the other and inside its parts. -/
theorem forall_inside_iff {P : Any → Prop} {outer : Any} :
    (∀ m : Any, m.Inside outer → P m) ↔
      P outer ∧ ∀ c ∈ outer.2.parts, ∀ m : Any, m.Inside c → P m := by
  constructor
  · intro h
    exact ⟨h outer .refl, fun c hc m hm => h m (.head hc hm)⟩
  · rintro ⟨houter, hparts⟩ m hm
    rcases Relation.ReflTransGen.cases_head hm with rfl | ⟨c, hc, hrest⟩
    · exact houter
    · exact hparts c hc m hrest

/-! ### The depth of a message and those of its parts -/

theorem Payload.depth_le_iff {c : Content} {payload : Payload c} {bound : Nat} :
    payload.depth ≤ bound ↔ ∀ m ∈ payload.parts, m.2.depth < bound := by
  cases payload with
  | scalar value => simp [depth, parts]
  | message m =>
    rw [depth, parts, List.forall_mem_singleton]
    exact Nat.add_one_le_iff

theorem Choice.depth_le_iff {bound : Nat} : {vs : List Variant} → {c : Choice vs} →
    (c.depth ≤ bound ↔ ∀ m ∈ c.parts, m.2.depth < bound)
  | _, .here _ => Payload.depth_le_iff
  | _, .later c => Choice.depth_le_iff (c := c)

theorem Sequence.depth_le_iff {k : Kind} {bound : Nat} :
    {ms : Sequence k} → (ms.depth ≤ bound ↔ ∀ m ∈ ms.toList, m.depth < bound)
  | .nil => by simp [depth, toList]
  | .cons m rest => by
    rw [depth, toList, Nat.max_le, List.forall_mem_cons, depth_le_iff, Nat.add_one_le_iff]

theorem Slot.depth_le_iff {shape : Shape} {slot : Slot shape} {bound : Nat} :
    slot.depth ≤ bound ↔ ∀ m ∈ slot.parts, m.2.depth < bound := by
  cases slot with
  | present m =>
    rw [depth, parts, List.forall_mem_singleton]
    exact Nat.add_one_le_iff
  | repeated ms =>
    rw [depth, parts, Sequence.depth_le_iff, List.forall_mem_map]
    rfl
  | set c => exact Choice.depth_le_iff
  | _ => simp [depth, parts]

theorem Slots.depth_le_iff {bound : Nat} : {fs : List Field} → {slots : Slots fs} →
    (slots.depth ≤ bound ↔ ∀ m ∈ slots.parts, m.2.depth < bound)
  | _, .nil => by simp [depth, parts]
  | _, .cons head tail => by
    rw [depth, parts, Nat.max_le, List.forall_mem_append, Slot.depth_le_iff, depth_le_iff]

/-- A bound on the depth of a message is a bound on its parts. -/
theorem depth_le_iff {k : Kind} {outer : Message k} {bound : Nat} :
    outer.depth ≤ bound ↔ ∀ m ∈ outer.parts, m.2.depth < bound := by
  cases outer with
  | mk k slots => exact Slots.depth_le_iff

theorem depth_lt_of_mem_parts {k : Kind} {outer : Message k} {m : Any} (h : m ∈ outer.parts) :
    m.2.depth < outer.depth :=
  depth_le_iff.mp (Nat.le_refl _) m h

@[simp]
theorem Sequence.toList_ofList {k : Kind} (ms : List (Message k)) :
    (Sequence.ofList ms).toList = ms := by
  induction ms with
  | nil => rfl
  | cons m rest ih => rw [Sequence.ofList, Sequence.toList, ih]

theorem Sequence.ofList_toList {k : Kind} : (ms : Sequence k) → Sequence.ofList ms.toList = ms
  | .nil => rfl
  | .cons m rest => by rw [Sequence.toList, Sequence.ofList, ofList_toList rest]

@[simp]
theorem Slot.parts_ofList {number : Nat} {k : Kind} (ms : List (Message k)) :
    (Slot.ofList ms : Slot (.repeated number k)).parts = ms.map any := by
  rw [Slot.ofList, Slot.parts, Sequence.toList_ofList]

/-- The variant for messages of a kind holds the message and asks nothing of it. -/
class LawfulHolds (vs : List Variant) (k : Kind) [Holds vs k] : Prop where
  parts_choose : ∀ m : Message k, (Holds.choose m : Choice vs).parts = [m.any]
  fault?_choose : ∀ m : Message k, (Holds.choose m : Choice vs).fault? = none

instance LawfulHolds.first {title name : String} {number : Nat} {k : Kind} {vs : List Variant} :
    LawfulHolds (⟨title, name, number, .message k, .free⟩ :: vs) k where
  parts_choose _ := rfl
  fault?_choose _ := rfl

instance (priority := low) LawfulHolds.next {v : Variant} {vs : List Variant} {k : Kind}
    [Holds vs k] [LawfulHolds vs k] : LawfulHolds (v :: vs) k where
  parts_choose m := @LawfulHolds.parts_choose vs k _ _ m
  fault?_choose m := @LawfulHolds.fault?_choose vs k _ _ m

variable {k : Kind}

theorem parts_statement [Holds statementVariants k] [LawfulHolds statementVariants k]
    (m : Message k) : (statement m).parts = [m.any] := by
  change (Holds.choose m : Choice statementVariants).parts ++ [] = [m.any]
  rw [LawfulHolds.parts_choose, List.append_nil]

theorem parts_expression [Holds expressionVariants k] [LawfulHolds expressionVariants k]
    (m : Message k) : (expression m).parts = [m.any] := by
  change (Holds.choose m : Choice expressionVariants).parts ++ [] = [m.any]
  rw [LawfulHolds.parts_choose, List.append_nil]

theorem parts_objectField [Holds memberVariants k] [LawfulHolds memberVariants k]
    (m : Message k) : (objectField m).parts = [m.any] := by
  change (Holds.choose m : Choice memberVariants).parts ++ [] = [m.any]
  rw [LawfulHolds.parts_choose, List.append_nil]

end Message

end ScriptWire
