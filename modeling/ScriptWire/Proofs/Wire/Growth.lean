import ScriptWire.Proofs.Ensures
import ScriptWire.Proofs.Wire.Scalar

/-!
# How messages grow

A message that is read is not much longer than the bytes that it is read from, however these are
written: numbers may take up more bytes than they need, fields may be repeated and unknown fields
are skipped, all of which makes the bytes longer. Only a negative choice may be written shorter than
the encoder does, with half of the bytes. Nor is a message deeper than the reader allows.

## Main definitions

- `Wire.Measure` — the depth of a part of a message, and the number of its bytes
- `Wire.Measure.Grows` — what becomes of a measure as bytes are read
- `Wire.Contained` — a reader of messages keeps them within these bounds

## Main results

- `Wire.length_varint_le_iff` — how many bytes a number has
- `Wire.grows_mergeFields` — what the loop over the fields of a message keeps
- `Wire.depth_le_of_decodeAs`, `Wire.length_encode_le_of_decodeAs` — the bounds on what is read
-/

namespace ScriptWire

namespace Wire

open Message

/-! ### The lengths of numbers -/

theorem length_varint_pos (n : Nat) : 0 < (varint n).length :=
  List.length_pos_iff.mpr (varint_ne_nil n)

theorem length_varint_of_le {n : Nat} (h : 128 ≤ n) :
    (varint n).length = (varint (n / 128)).length + 1 := by
  rw [varint_of_le h, List.length_cons]

/-- Each byte of a number has seven of its bits. -/
theorem length_varint_le_iff {n k : Nat} (hk : 0 < k) :
    (varint n).length ≤ k ↔ n < Nat.pow 128 k := by
  induction k generalizing n with
  | zero => cases hk
  | succ k ih =>
    have hpow : Nat.pow 128 (k + 1) = Nat.pow 128 k * 128 := rfl
    have hbase : 0 < Nat.pow 128 k := Nat.pow_pos (by decide)
    by_cases hn : n < 128
    · rw [varint_of_lt hn, List.length_singleton]
      omega
    · have hlength := length_varint_of_le (Nat.le_of_not_lt hn)
      have hpos := length_varint_pos (n / 128)
      by_cases hzero : k = 0
      · subst hzero
        simp only [Nat.zero_add, Nat.pow_eq, Nat.pow_one]
        omega
      · have hrest := ih (n := n / 128) (Nat.pos_of_ne_zero hzero)
        omega

theorem lt_pow_length_varint (n : Nat) : n < Nat.pow 128 (varint n).length :=
  (length_varint_le_iff (length_varint_pos n)).mp (Nat.le_refl _)

theorem length_varint_mono {m n : Nat} (h : m ≤ n) : (varint m).length ≤ (varint n).length :=
  (length_varint_le_iff (length_varint_pos n)).mpr (Nat.lt_of_le_of_lt h (lt_pow_length_varint n))

theorem length_varint_add (a b : Nat) :
    (varint (a + b)).length ≤ (varint a).length + (varint b).length := by
  have ha := lt_pow_length_varint a
  have hb := lt_pow_length_varint b
  have hpos := length_varint_pos a
  have two_le {k : Nat} (hk : 0 < k) : 2 ≤ Nat.pow 128 k :=
    Nat.le_trans (by decide) (Nat.pow_le_pow_right (by decide) hk)
  rw [length_varint_le_iff (by omega), Nat.pow_eq, Nat.pow_add]
  calc a + b < 128 ^ (varint a).length + 128 ^ (varint b).length := Nat.add_lt_add ha hb
    _ ≤ 128 ^ (varint a).length * 128 ^ (varint b).length :=
      Nat.add_le_mul (two_le hpos) (two_le (length_varint_pos b))

/-- A number that is read takes up at least the bytes that it is written with. -/
theorem length_varint_of_readGroups {limit n : Nat} {bytes rest : Bytes}
    (h : readGroups limit bytes = some (n, rest)) :
    (varint n).length + rest.length ≤ bytes.length := by
  induction limit generalizing bytes n with
  | zero => cases h
  | succ limit ih =>
    cases bytes with
    | nil => cases h
    | cons b bytes =>
      rw [readGroups] at h
      by_cases hb : b.toNat < 128
      · rw [if_pos hb] at h
        split at h
        · cases h
        · cases h
          rw [varint_of_lt hb, List.length_singleton, List.length_cons]
          omega
      · rw [if_neg hb] at h
        split at h
        · cases h
        · next m after hmore =>
          cases h
          have hrest := ih hmore
          have hbyte : b.toNat < 256 := UInt8.toNat_lt b
          rw [List.length_cons]
          by_cases hn : b.toNat - 128 + 128 * m < 128
          · have hpos := length_varint_pos m
            rw [varint_of_lt hn, List.length_singleton]
            omega
          · have hdiv : (b.toNat - 128 + 128 * m) / 128 = m := by omega
            rw [length_varint_of_le (Nat.le_of_not_lt hn), hdiv]
            omega

theorem length_varint_of_takeVarint {n : Nat} {bytes rest : Bytes}
    (h : takeVarint bytes = .ok (n, rest)) : (varint n).length + rest.length ≤ bytes.length := by
  rw [takeVarint] at h
  split at h
  · next hread =>
    cases h
    exact length_varint_of_readGroups hread
  · cases h

theorem WireType.code_of_ofCode? {n : Nat} {type : WireType} (h : WireType.ofCode? n = some type) :
    type.code = n := by
  unfold WireType.ofCode? at h
  split at h <;> cases h <;> rfl

/-- A key that is read takes up at least the bytes that it is written with. -/
theorem length_key_of_readKey {k : Key} {bytes rest : Bytes} (h : readKey bytes = .ok (k, rest)) :
    (key k.number k.type).length + rest.length ≤ bytes.length := by
  obtain ⟨⟨n, after⟩, htake, h⟩ := bind_eq_ok.mp h
  dsimp only at h
  split at h
  · cases h
  · split at h
    · cases h
    · next type htype =>
      split at h
      · cases h
      · cases h
        have hlength := length_varint_of_takeVarint htake
        have hcode : 8 * (n / 8) + type.code = n := by
          rw [WireType.code_of_ofCode? htype]
          exact Nat.div_add_mod n 8
        rwa [key, hcode]

/-! ### The lengths of plain values -/

theorem textBytes_of_readText {bytes : Bytes} {s : String} (h : readText bytes = .ok s) :
    textBytes s = bytes := by
  rw [readText] at h
  split at h
  · next text hread =>
    cases h
    rw [String.fromUTF8?] at hread
    split at hread
    · cases hread
      rfl
    · cases hread
  · cases h

theorem takeBytes_eq_ok {count : Nat} {bytes taken rest : Bytes}
    (h : takeBytes count bytes = .ok (taken, rest)) :
    taken.length = count ∧ count + rest.length = bytes.length := by
  rw [takeBytes] at h
  split at h
  · cases h
  · cases h
    rw [List.length_take, List.length_drop]
    omega

/-- A choice is a word of half the length. A negative one, which the encoder extends to ten bytes,
has at least five of them. -/
theorem length_varint_choice (n : Nat) :
    (varint n.toUInt32.toInt32.toInt64.toUInt64.toNat).length ≤ 2 * (varint n).length := by
  have hword : n.toUInt32.toInt32.toInt64.toUInt64.toNat =
      ((BitVec.ofNat 32 n).signExtend 64).toNat := rfl
  rw [hword]
  by_cases hsign : (BitVec.ofNat 32 n).msb = true
  · have hlarge : 2 ^ 31 ≤ n % 2 ^ 32 := by
      rw [BitVec.msb_eq_decide, decide_eq_true_iff, BitVec.toNat_ofNat] at hsign
      exact hsign
    have hfive : ¬ (varint n).length ≤ 4 := by
      rw [length_varint_le_iff (by decide), Nat.not_lt]
      exact Nat.le_trans (by decide) (Nat.le_trans hlarge (Nat.mod_le _ _))
    have hten : (varint ((BitVec.ofNat 32 n).signExtend 64).toNat).length ≤ 10 := by
      rw [length_varint_le_iff (by decide)]
      exact Nat.lt_trans (BitVec.isLt _) (by decide)
    omega
  · have hvalue : ((BitVec.ofNat 32 n).signExtend 64).toNat ≤ n := by
      rw [BitVec.toNat_signExtend, if_neg hsign, BitVec.toNat_setWidth, BitVec.toNat_ofNat]
      exact Nat.le_trans (Nat.mod_le _ _) (Nat.mod_le _ _)
    have hle := length_varint_mono hvalue
    omega

theorem expectWire_eq_ok {got expected : WireType} {u : Unit}
    (h : expectWire got expected = .ok u) : got = expected := by
  rw [expectWire] at h
  split at h
  · assumption
  · cases h

/-- A plain value that is read takes up at least half of the bytes that it is written with. -/
theorem length_scalarBytes_of_readScalar {type : Scalar} {value : type.Carrier}
    {bytes rest : Bytes} (h : readScalar type bytes = .ok (value, rest)) :
    (scalarBytes type value).length + 2 * rest.length ≤ 2 * bytes.length := by
  cases type with
  | text =>
    obtain ⟨⟨count, after⟩, hcount, h⟩ := bind_eq_ok.mp h
    obtain ⟨⟨taken, last⟩, htaken, h⟩ := bind_eq_ok.mp h
    obtain ⟨s, htext, h⟩ := bind_eq_ok.mp h
    cases h
    have hnumber := length_varint_of_takeVarint hcount
    obtain ⟨rfl, hlength⟩ := takeBytes_eq_ok htaken
    rw [scalarBytes, delimited, List.length_append, textBytes_of_readText htext]
    omega
  | flag =>
    obtain ⟨⟨n, after⟩, hn, h⟩ := bind_eq_ok.mp h
    cases h
    have hnumber := length_varint_of_takeVarint hn
    have hpos := length_varint_pos n
    have hone : (varint (n != 0).toNat).length ≤ 1 := by
      rw [length_varint_le_iff (by decide)]
      cases n != 0 <;> decide
    rw [scalarBytes]
    omega
  | choice =>
    obtain ⟨⟨n, after⟩, hn, h⟩ := bind_eq_ok.mp h
    cases h
    have hnumber := length_varint_of_takeVarint hn
    have hchoice := length_varint_choice n
    rw [scalarBytes]
    omega
  | index =>
    obtain ⟨⟨n, after⟩, hn, h⟩ := bind_eq_ok.mp h
    cases h
    have hnumber := length_varint_of_takeVarint hn
    have hvalue : n.toUInt64.toInt64.toUInt64.toNat ≤ n := Nat.mod_le n (2 ^ 64)
    have hle := length_varint_mono hvalue
    rw [scalarBytes]
    omega
  | double =>
    obtain ⟨⟨taken, after⟩, htaken, h⟩ := bind_eq_ok.mp h
    cases h
    obtain ⟨-, hlength⟩ := takeBytes_eq_ok htaken
    rw [scalarBytes, length_word64]
    omega

theorem readField_eq_ok {wire : WireType} {type : Scalar} {value : type.Carrier}
    {bytes rest : Bytes} (h : readField wire type bytes = .ok (value, rest)) :
    wire = scalarWire type ∧ readScalar type bytes = .ok (value, rest) := by
  obtain ⟨_, hwire, hread⟩ := bind_eq_ok.mp h
  exact ⟨expectWire_eq_ok hwire, hread⟩

/-! ### Fields -/

/-- The depth of a part of a message, and the number of bytes that it is written with. -/
structure Measure where
  depth : Nat
  size : Nat

/-- A part of a message takes in a field, whose key has `header` bytes, from the bytes after the
key. If it was no deeper than the budget, it is no deeper afterwards, and it is longer by at most
twice the bytes that were read. -/
def Measure.Grows (budget header : Nat) (before after : Measure) (bytes rest : Bytes) : Prop :=
  (before.depth ≤ budget → after.depth ≤ budget) ∧
    after.size + 2 * rest.length ≤ before.size + 2 * (header + bytes.length)

/-- A reader of messages, in a field that may have the given depth, makes messages no deeper than
that, and longer by at most twice the bytes that it reads. -/
def Contained (merge : Merge) (budget : Nat) : Prop :=
  ∀ (k : Kind) (m next : Message k) (bytes rest : Bytes), merge k m bytes = .ok (next, rest) →
    (m.depth ≤ budget - 1 → next.depth + 1 ≤ budget) ∧
      (delimited (encode next)).length + 2 * rest.length ≤
        (delimited (encode m)).length + 2 * bytes.length

namespace Measure

/-- The measure of what a variant holds, if it holds anything. -/
def ofPayload (number : Nat) {c : Content} : Option (Payload c) → Measure
  | none => ⟨0, 0⟩
  | some payload => ⟨payload.depth, (encodePayload number payload).length⟩

/-- The measure of the chosen variant, if there is one. -/
def ofChoice {vs : List Variant} : Option (Choice vs) → Measure
  | none => ⟨0, 0⟩
  | some choice => ⟨choice.depth, (encodeChoice choice).length⟩

/-- The measure of a field. -/
def ofSlot {shape : Shape} (slot : Slot shape) : Measure :=
  ⟨slot.depth, (encodeSlot slot).length⟩

/-- The measure of fields. -/
def ofSlots {fs : List Field} (slots : Slots fs) : Measure :=
  ⟨slots.depth, (encodeSlots slots).length⟩

/-- The measure of a message. -/
def ofMessage {k : Kind} (m : Message k) : Measure :=
  ⟨m.depth, (encode m).length⟩

end Measure

theorem depth_slotsEmpty : (fs : List Field) → (Slots.empty fs).depth = 0
  | [] => rfl
  | f :: fs => by
    have hhead : (Slot.empty f.shape).depth = 0 := by cases f.shape <;> rfl
    rw [Slots.empty, Slots.depth, hhead, depth_slotsEmpty fs]
    rfl

theorem encodeSlots_empty : (fs : List Field) → encodeSlots (Slots.empty fs) = []
  | [] => rfl
  | f :: fs => by
    have hhead : encodeSlot (Slot.empty f.shape) = [] := by
      cases f.shape with
      | plain number type => cases type <;> rfl
      | optional number k => rfl
      | repeated number k => rfl
      | union vs => rfl
    rw [Slots.empty, encodeSlots, hhead, encodeSlots_empty fs]
    rfl

theorem depth_empty (k : Kind) : (Message.empty k).depth = 0 :=
  depth_slotsEmpty (fields k)

theorem encode_empty (k : Kind) : encode (Message.empty k) = [] :=
  encodeSlots_empty (fields k)

section Fields

variable {merge : Merge} {budget : Nat} {bytes rest : Bytes}

/-- A message in a field grows with the bytes of the field. -/
theorem Contained.mergeChild (h : Contained merge budget) {type : WireType} {k : Kind}
    {m next : Message k} (hmerge : mergeChild merge type k m bytes = .ok (next, rest))
    (number : Nat) :
    (m.depth ≤ budget - 1 → next.depth + 1 ≤ budget) ∧
      (messageField number (encode next)).length + 2 * rest.length ≤
        (messageField number (encode m)).length + 2 * bytes.length ∧
      type = .delimited := by
  obtain ⟨_, hwire, hread⟩ := bind_eq_ok.mp hmerge
  obtain ⟨hdepth, hsize⟩ := h k m next bytes rest hread
  refine ⟨hdepth, ?_, expectWire_eq_ok hwire⟩
  simp only [messageField, List.length_append]
  omega

/-- So does a message that was not there before: its key is charged twice, which covers the empty
length in front of the message that is put in. -/
theorem Contained.mergeChild_empty (h : Contained merge budget) {type : WireType} {k : Kind}
    {next : Message k}
    (hmerge : Wire.mergeChild merge type k (Message.empty k) bytes = .ok (next, rest))
    (number : Nat) :
    next.depth + 1 ≤ budget ∧
      (messageField number (encode next)).length + 2 * rest.length ≤
        2 * ((key number type).length + bytes.length) := by
  obtain ⟨hdepth, hsize, rfl⟩ := h.mergeChild hmerge number
  have hkey : 0 < (key number .delimited).length := length_varint_pos _
  have hlength : (varint 0).length = 1 := by rw [varint_of_lt (by decide), List.length_singleton]
  rw [depth_empty] at hdepth
  refine ⟨hdepth (Nat.zero_le _), ?_⟩
  rw [encode_empty] at hsize
  simp only [messageField, delimited, List.length_append, List.length_nil, hlength] at hsize ⊢
  omega

theorem grows_mergePayload (h : Contained merge budget) {key : Key} {c : Content}
    {current : Option (Payload c)} {payload : Payload c}
    (hmerge : mergePayload merge key.type c current bytes = .ok (payload, rest)) :
    Measure.Grows budget (Wire.key key.number key.type).length
      (.ofPayload key.number current) (.ofPayload key.number (some payload)) bytes rest := by
  obtain ⟨number, type⟩ := key
  cases c with
  | scalar scalar =>
    obtain ⟨⟨value, after⟩, hread, hvalue⟩ := bind_eq_ok.mp hmerge
    cases hvalue
    obtain ⟨rfl, hscalar⟩ := readField_eq_ok hread
    have hsize := length_scalarBytes_of_readScalar hscalar
    refine ⟨fun _ => Nat.zero_le budget, ?_⟩
    simp only [Measure.ofPayload, encodePayload, scalarField, List.length_append]
    omega
  | message k =>
    obtain ⟨⟨m, after⟩, hchild, hpayload⟩ := bind_eq_ok.mp hmerge
    cases hpayload
    cases current with
    | none =>
      obtain ⟨hdepth, hsize⟩ := h.mergeChild_empty hchild number
      refine ⟨fun _ => hdepth, ?_⟩
      simpa only [Measure.ofPayload, encodePayload, Nat.zero_add] using hsize
    | some before =>
      obtain ⟨old⟩ := before
      obtain ⟨hdepth, hsize, rfl⟩ := h.mergeChild hchild number
      constructor
      · simp only [Measure.ofPayload, Payload.depth, Payload.messageOr] at hdepth ⊢
        omega
      · simp only [Measure.ofPayload, encodePayload, Payload.messageOr] at hsize ⊢
        omega

theorem grows_mergeChoice? (h : Contained merge budget) {key : Key} :
    {vs : List Variant} → {current : Option (Choice vs)} → {choice : Choice vs} →
    mergeChoice? merge key vs current bytes = some (.ok (choice, rest)) →
    Measure.Grows budget (Wire.key key.number key.type).length
      (.ofChoice current) (.ofChoice (some choice)) bytes rest
  | [], _, _, hmerge => by cases hmerge
  | v :: vs, current, choice, hmerge => by
    rw [mergeChoice?] at hmerge
    split at hmerge
    · next hnumber =>
      obtain ⟨⟨payload, after⟩, hpayload, hchoice⟩ := map_eq_ok.mp (Option.some.inj hmerge)
      cases hchoice
      obtain ⟨hdepth, hsize⟩ := grows_mergePayload h hpayload
      -- What the first variant held is part of the old choice, or nothing.
      have hfirst : (Measure.ofPayload key.number (firstPayload? current)).depth ≤
            (Measure.ofChoice current).depth ∧
          (Measure.ofPayload key.number (firstPayload? current)).size ≤
            (Measure.ofChoice current).size := by
        rw [← hnumber]
        rcases current with - | ⟨old⟩ | ⟨later⟩
        · exact ⟨Nat.le_refl _, Nat.le_refl _⟩
        · exact ⟨Nat.le_refl _, Nat.le_refl _⟩
        · exact ⟨Nat.zero_le _, Nat.zero_le _⟩
      constructor
      · intro hbudget
        exact hdepth (Nat.le_trans hfirst.1 hbudget)
      · simp only [Measure.ofChoice, Measure.ofPayload, encodeChoice, hnumber] at hsize hfirst ⊢
        omega
    · obtain ⟨result, hresult, hmap⟩ := Option.map_eq_some_iff.mp hmerge
      obtain ⟨⟨later, after⟩, rfl, hchoice⟩ := map_eq_ok.mp hmap
      cases hchoice
      obtain ⟨hdepth, hsize⟩ := grows_mergeChoice? h hresult
      have hlater : (Measure.ofChoice (laterChoice? current)).depth ≤
            (Measure.ofChoice current).depth ∧
          (Measure.ofChoice (laterChoice? current)).size ≤ (Measure.ofChoice current).size := by
        rcases current with - | ⟨old⟩ | ⟨old⟩
        · exact ⟨Nat.le_refl _, Nat.le_refl _⟩
        · exact ⟨Nat.zero_le _, Nat.zero_le _⟩
        · exact ⟨Nat.le_refl _, Nat.le_refl _⟩
      constructor
      · intro hbudget
        exact hdepth (Nat.le_trans hlater.1 hbudget)
      · simp only [Measure.ofChoice, encodeChoice] at hsize hlater ⊢
        omega

theorem depth_push {k : Kind} (m : Message k) :
    (ms : Sequence k) → (ms.push m).depth = max ms.depth (m.depth + 1)
  | .nil => by simp only [Sequence.push, Sequence.depth]; omega
  | .cons n rest => by simp only [Sequence.push, Sequence.depth, depth_push m rest]; omega

theorem encodeSequence_push (number : Nat) {k : Kind} (m : Message k) : (ms : Sequence k) →
    encodeSequence number (ms.push m) =
      encodeSequence number ms ++ messageField number (encode m)
  | .nil => by simp only [Sequence.push, encodeSequence, List.append_nil, List.nil_append]
  | .cons n rest => by
    simp only [Sequence.push, encodeSequence, encodeSequence_push number m rest, List.append_assoc]

/-- A field takes in what has its number. -/
theorem eq_ok_of_numbered {α β : Type} {own wanted : Nat} {f : α → β} {b : β}
    {reading : Except DecodeError (α × Bytes)}
    (h : (if own = wanted then some (reading.map fun (a, rest) => (f a, rest)) else none) =
      some (.ok (b, rest))) :
    own = wanted ∧ ∃ a, reading = .ok (a, rest) ∧ f a = b := by
  split at h
  · next hown =>
    obtain ⟨⟨a, after⟩, hreading, hpair⟩ := map_eq_ok.mp (Option.some.inj h)
    cases hpair
    exact ⟨hown, a, hreading, rfl⟩
  · cases h

theorem grows_mergeSlot? (h : Contained merge budget) {key : Key} {shape : Shape}
    {slot next : Slot shape} (hmerge : mergeSlot? merge key slot bytes = some (.ok (next, rest))) :
    Measure.Grows budget (Wire.key key.number key.type).length (.ofSlot slot) (.ofSlot next)
      bytes rest := by
  obtain ⟨wanted, wire⟩ := key
  cases slot with
  | @plain number type old =>
    obtain ⟨rfl, value, hread, rfl⟩ := eq_ok_of_numbered (f := Slot.plain) hmerge
    obtain ⟨rfl, hscalar⟩ := readField_eq_ok hread
    have hsize := length_scalarBytes_of_readScalar hscalar
    refine ⟨fun _ => Nat.zero_le budget, ?_⟩
    simp only [Measure.ofSlot, encodeSlot]
    split
    · simp only [List.length_nil]
      omega
    · simp only [scalarField, List.length_append]
      omega
  | @absent number k =>
    obtain ⟨rfl, m, hchild, rfl⟩ := eq_ok_of_numbered (f := Slot.present) hmerge
    obtain ⟨hdepth, hsize⟩ := h.mergeChild_empty hchild number
    refine ⟨fun _ => hdepth, ?_⟩
    simp only [Measure.ofSlot, encodeSlot, List.length_nil] at hsize ⊢
    omega
  | @present number k old =>
    obtain ⟨rfl, m, hchild, rfl⟩ := eq_ok_of_numbered (f := Slot.present) hmerge
    obtain ⟨hdepth, hsize, rfl⟩ := h.mergeChild hchild number
    constructor
    · simp only [Measure.ofSlot, Slot.depth]
      omega
    · simp only [Measure.ofSlot, encodeSlot]
      omega
  | @repeated number k ms =>
    obtain ⟨rfl, m, hchild, rfl⟩ :=
      eq_ok_of_numbered (f := fun m => Slot.repeated (ms.push m)) hmerge
    obtain ⟨hdepth, hsize⟩ := h.mergeChild_empty hchild number
    constructor
    · simp only [Measure.ofSlot, Slot.depth, depth_push]
      omega
    · simp only [Measure.ofSlot, encodeSlot, encodeSequence_push, List.length_append] at hsize ⊢
      omega
  | unset =>
    obtain ⟨result, hresult, hmap⟩ := Option.map_eq_some_iff.mp hmerge
    obtain ⟨⟨choice, after⟩, rfl, hslot⟩ := map_eq_ok.mp hmap
    cases hslot
    exact grows_mergeChoice? h hresult
  | set old =>
    obtain ⟨result, hresult, hmap⟩ := Option.map_eq_some_iff.mp hmerge
    obtain ⟨⟨choice, after⟩, rfl, hslot⟩ := map_eq_ok.mp hmap
    cases hslot
    exact grows_mergeChoice? h hresult

theorem grows_mergeSlots? (h : Contained merge budget) {owner : Kind} {key : Key} :
    {fs : List Field} → {slots next : Slots fs} →
    mergeSlots? merge owner key slots bytes = some (.ok (next, rest)) →
    Measure.Grows budget (Wire.key key.number key.type).length (.ofSlots slots) (.ofSlots next)
      bytes rest
  | [], .nil, _, hmerge => by cases hmerge
  | f :: fs, .cons head tail, next, hmerge => by
    rw [mergeSlots?] at hmerge
    split at hmerge
    · next slot after hslot =>
      cases hmerge
      obtain ⟨hdepth, hsize⟩ := grows_mergeSlot? h hslot
      constructor
      · simp only [Measure.ofSlots, Measure.ofSlot, Slots.depth] at hdepth ⊢
        omega
      · simp only [Measure.ofSlots, Measure.ofSlot, encodeSlots, List.length_append] at hsize ⊢
        omega
    · cases hmerge
    · obtain ⟨result, hresult, hmap⟩ := Option.map_eq_some_iff.mp hmerge
      obtain ⟨⟨slots, after⟩, rfl, hslots⟩ := map_eq_ok.mp hmap
      cases hslots
      obtain ⟨hdepth, hsize⟩ := grows_mergeSlots? h hresult
      constructor
      · simp only [Measure.ofSlots, Slots.depth] at hdepth ⊢
        omega
      · simp only [Measure.ofSlots, encodeSlots, List.length_append] at hsize ⊢
        omega

end Fields

/-! ### Messages -/

section Skipping

variable {bytes rest : Bytes}

/-- What is left of a group that is skipped is no longer than its bytes, if that holds of the fields
in it. -/
theorem length_le_of_skipGroup {skip : Key → Bytes → Except DecodeError Bytes} {number fuel : Nat}
    (hskip : ∀ key bytes rest, skip key bytes = .ok rest → rest.length ≤ bytes.length)
    (h : skipGroup skip number fuel bytes = .ok rest) : rest.length ≤ bytes.length := by
  induction fuel generalizing bytes with
  | zero => cases h
  | succ fuel ih =>
    obtain ⟨⟨key, after⟩, hkey, h⟩ := bind_eq_ok.mp h
    have hread := length_key_of_readKey hkey
    dsimp only at h
    split at h
    · split at h
      · cases h
        omega
      · cases h
    · obtain ⟨last, hfield, hmore⟩ := bind_eq_ok.mp h
      have hafter := hskip key after last hfield
      have hlast := ih hmore
      omega

theorem length_le_of_skipField {budget : Nat} {key : Key}
    (h : skipField budget key bytes = .ok rest) : rest.length ≤ bytes.length := by
  induction budget generalizing key bytes rest with
  | zero => cases h
  | succ budget ih =>
    rw [skipField] at h
    split at h
    · obtain ⟨⟨n, after⟩, hn, h⟩ := bind_eq_ok.mp h
      cases h
      exact Nat.le_of_add_left_le (length_varint_of_takeVarint hn)
    · obtain ⟨⟨taken, after⟩, htaken, h⟩ := bind_eq_ok.mp h
      cases h
      exact Nat.le_of_add_left_le (Nat.le_of_eq (takeBytes_eq_ok htaken).2)
    · obtain ⟨⟨taken, after⟩, htaken, h⟩ := bind_eq_ok.mp h
      cases h
      exact Nat.le_of_add_left_le (Nat.le_of_eq (takeBytes_eq_ok htaken).2)
    · obtain ⟨⟨count, middle⟩, hcount, h⟩ := bind_eq_ok.mp h
      obtain ⟨⟨taken, after⟩, htaken, h⟩ := bind_eq_ok.mp h
      cases h
      have hnumber := length_varint_of_takeVarint hcount
      have hlength := (takeBytes_eq_ok htaken).2
      show after.length ≤ bytes.length
      omega
    · exact length_le_of_skipGroup (fun _ _ _ => ih) h
    · cases h

end Skipping

section Messages

variable {merge : Merge} {budget : Nat} {k : Kind} {m next : Message k} {bytes rest : Bytes}

/-- A field is put into a message, or skipped. -/
theorem grows_mergeField (h : Contained merge budget)
    (hmerge : mergeField merge budget m bytes = .ok (next, rest)) :
    Measure.Grows budget 0 (.ofMessage m) (.ofMessage next) bytes rest := by
  obtain ⟨_, slots⟩ := m
  obtain ⟨⟨key, after⟩, hkey, hmerge⟩ := bind_eq_ok.mp hmerge
  have hread := length_key_of_readKey hkey
  dsimp only at hmerge
  split at hmerge
  · next result hslots =>
    obtain ⟨⟨made, last⟩, rfl, hmade⟩ := bind_eq_ok.mp hmerge
    cases hmade
    obtain ⟨hdepth, hsize⟩ := grows_mergeSlots? h hslots
    refine ⟨hdepth, ?_⟩
    simp only [Measure.ofSlots, Measure.ofMessage, encode] at hsize ⊢
    omega
  · obtain ⟨last, hskip, hmade⟩ := bind_eq_ok.mp hmerge
    cases hmade
    have hlast := length_le_of_skipField hskip
    exact ⟨id, by omega⟩

/-- The loop over the fields of a message ends at the given place, and keeps to the bounds. -/
theorem grows_mergeFields (h : Contained merge budget) {limit fuel : Nat}
    (hmerge : mergeFields merge budget limit fuel m bytes = .ok (next, rest)) :
    Measure.Grows budget 0 (.ofMessage m) (.ofMessage next) bytes rest ∧ rest.length = limit := by
  induction fuel generalizing m bytes with
  | zero =>
    rw [mergeFields] at hmerge
    split at hmerge
    · cases hmerge
      exact ⟨⟨id, by omega⟩, ‹_›⟩
    · cases hmerge
  | succ fuel ih =>
    rw [mergeFields] at hmerge
    split at hmerge
    · obtain ⟨⟨middle, after⟩, hfield, hmore⟩ := bind_eq_ok.mp hmerge
      obtain ⟨hdepth, hsize⟩ := grows_mergeField h hfield
      obtain ⟨⟨hdepth', hsize'⟩, hlimit⟩ := ih hmore
      exact ⟨⟨fun hm => hdepth' (hdepth hm), by omega⟩, hlimit⟩
    · split at hmerge
      · cases hmerge
        exact ⟨⟨id, by omega⟩, ‹_›⟩
      · cases hmerge

end Messages

/-- The reader of messages keeps them within the bounds: each level of messages takes one from its
budget. -/
theorem contained_mergeMessage (budget : Nat) : Contained (mergeMessage budget) budget := by
  induction budget with
  | zero =>
    intro k m next bytes rest hmerge
    cases hmerge
  | succ budget ih =>
    intro k m next bytes rest hmerge
    obtain ⟨⟨count, after⟩, hcount, hmerge⟩ := bind_eq_ok.mp hmerge
    have hnumber := length_varint_of_takeVarint hcount
    dsimp only at hmerge
    split at hmerge
    · cases hmerge
    · obtain ⟨⟨hdepth, hsize⟩, hlimit⟩ := grows_mergeFields ih hmerge
      simp only [Measure.ofMessage] at hdepth hsize
      constructor
      · intro hm
        have hnext := hdepth (by omega)
        omega
      · -- The message gets longer by at most twice the bytes of the field, and the number of its
        -- bytes by at most twice the number of those.
        have hgrown : (encode next).length ≤ (encode m).length + count + count := by omega
        have hlonger := length_varint_mono hgrown
        have hsplit := length_varint_add ((encode m).length + count) count
        have hsplit' := length_varint_add (encode m).length count
        simp only [delimited, List.length_append]
        omega

section Decoding

variable {k : Kind} {bytes : Bytes} {m : Message k}

theorem grows_decodeAs (h : decodeAs k bytes = .ok m) :
    Measure.Grows nestingBudget 0 (.ofMessage (Message.empty k)) (.ofMessage m) bytes [] := by
  obtain ⟨⟨made, rest⟩, hmerge, hmade⟩ := bind_eq_ok.mp h
  cases hmade
  obtain ⟨hgrows, hlimit⟩ := grows_mergeFields (contained_mergeMessage nestingBudget) hmerge
  obtain rfl := List.length_eq_zero_iff.mp hlimit
  exact hgrows

/-- No message that is read is deeper than the reader allows. -/
theorem depth_le_of_decodeAs (h : decodeAs k bytes = .ok m) : m.depth ≤ nestingBudget := by
  refine (grows_decodeAs h).1 ?_
  simp only [Measure.ofMessage, depth_empty]
  exact Nat.zero_le _

/-- A message that is read is written with at most twice the bytes. -/
theorem length_encode_le_of_decodeAs (h : decodeAs k bytes = .ok m) :
    (encode m).length ≤ 2 * bytes.length := by
  have hsize := (grows_decodeAs h).2
  simp only [Measure.ofMessage, encode_empty, List.length_nil] at hsize
  omega

end Decoding

end Wire

end ScriptWire
