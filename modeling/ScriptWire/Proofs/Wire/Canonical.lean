import ScriptWire.Proofs.Interface.Published
import ScriptWire.Proofs.Wire.Intake
import ScriptWire.Proofs.Wire.Scalar
import ScriptWire.Wire.Encoder

/-!
# The encoding follows the published interface

A message is turned into a record by the names of its fields, and the serialization of that record
under the published declarations has the bytes of the encoder.

## Main definitions

- `Message.record` — the entries of a message by name

## Main results

- `Wire.serialize_record` — encoding is serialization under the published interface
-/

namespace ScriptWire

namespace Message

/-- A plain value by its meaning. -/
def Scalar.value : (type : Scalar) → type.Carrier → Interface.Value
  | .text, (s : String) => .text s
  | .flag, (b : Bool) => .flag b
  | .choice, (n : Int32) => .integer n.toInt
  | .index, (n : Int64) => .integer n.toInt
  | .double, (x : Binary64) => .double x

mutual

/-- The entries of a message by name. -/
def record {k : Kind} : Message k → Interface.Record
  | .mk _ slots => slots.record

/-- The entries of the fields of a message. -/
def Slots.record : {fs : List Field} → Slots fs → Interface.Record
  | [], .nil => []
  | f :: _, .cons head tail => head.entries f.name ++ tail.record

/-- The entries of a field with a name. A field that is not set has none. -/
def Slot.entries (name : String) {shape : Shape} : Slot shape → Interface.Record
  | @Slot.plain _ type value => [(name, type.value value)]
  | .absent => []
  | .present m => [(name, .message m.record)]
  | .repeated ms => ms.entries name
  | .unset => []
  | .set choice => choice.entries

/-- The entries of a list, one for each message. -/
def Sequence.entries (name : String) {k : Kind} : Sequence k → Interface.Record
  | .nil => []
  | .cons m rest => (name, .message m.record) :: rest.entries name

/-- The entry of the chosen variant, which has a name of its own. -/
def Choice.entries : {vs : List Variant} → Choice vs → Interface.Record
  | v :: _, .here payload => [(v.name, payload.value)]
  | _ :: _, .later choice => choice.entries

/-- What a variant holds as a value. -/
def Payload.value {c : Content} : Payload c → Interface.Value
  | @Payload.scalar type value => type.value value
  | .message m => .message m.record

end

end Message

namespace Wire

open Message Interface

/-! ### Numbers, words and keys -/

theorem continued_cons (d : Nat) {rest : List Nat} (h : rest ≠ []) :
    continued (d :: rest) = (UInt8.ofNat d ||| 0x80) :: continued rest := by
  cases rest with
  | nil => exact absurd rfl h
  | cons e rest => rfl

theorem ofNat_or_high_bit {d : Nat} (h : d < 128) :
    UInt8.ofNat d ||| 0x80 = (d + 128).toUInt8 := by
  have hor : 128 + d = 128 ||| d := Nat.two_pow_add_eq_or_of_lt (i := 7) h 1
  apply UInt8.toNat_inj.mp
  rw [UInt8.toNat_or, toNat_toUInt8 (show d < 256 by omega),
    toNat_toUInt8 (show d + 128 < 256 by omega)]
  show d ||| 128 = d + 128
  rw [Nat.or_comm]
  omega

theorem continued_digits (n : Nat) (h : 0 < n) : continued (Nat.digits 128 n) = varint n := by
  induction n using Nat.strong_induction_on with
  | _ n ih =>
    rw [Nat.digits_def' (by decide) h]
    by_cases hn : n < 128
    · rw [Nat.div_eq_of_lt hn, Nat.digits_zero, Nat.mod_eq_of_lt hn, varint_of_lt hn]
      rfl
    · have hrest : 0 < n / 128 := by omega
      have hne : Nat.digits 128 (n / 128) ≠ [] := Nat.digits_ne_nil_iff_ne_zero.mpr (by omega)
      rw [continued_cons _ hne, ih (n / 128) (by omega) hrest,
        varint_of_le (show 128 ≤ n by omega), ofNat_or_high_bit (Nat.mod_lt n (by decide))]

theorem base128_eq_varint (n : Nat) : base128 n = varint n := by
  by_cases hn : n = 0
  · subst hn
    rw [base128, if_pos rfl, varint_of_lt (by decide)]
    rfl
  · rw [base128, if_neg hn, continued_digits n (by omega)]

theorem counted_eq_delimited (bytes : Bytes) : counted bytes = delimited bytes := by
  rw [counted, delimited, base128_eq_varint]

theorem fixed64_eq_word64 (w : UInt64) : fixed64 w = word64 w.toNat := by
  have hlow : w.toUInt8 = (w.toNat % 256).toUInt8 := by
    apply UInt8.toNat_inj.mp
    rw [UInt64.toNat_toUInt8, toNat_toUInt8 (by omega)]
  have hbyte (s : UInt64) (i : Nat) (hs : s.toNat % 64 = 8 * i) :
      (w >>> s).toUInt8 = (w.toNat / Nat.pow 256 i % 256).toUInt8 := by
    have hpow : 2 ^ (8 * i) = Nat.pow 256 i := by
      rw [Nat.pow_mul]
      rfl
    apply UInt8.toNat_inj.mp
    rw [UInt64.toNat_toUInt8, toNat_toUInt8 (by omega), UInt64.toNat_shiftRight, hs,
      Nat.shiftRight_eq_div_pow, hpow]
  simp only [fixed64, word64, List.range, List.range.loop, List.map]
  rw [hbyte 8 1 rfl, hbyte 16 2 rfl, hbyte 24 3 rfl, hbyte 32 4 rfl, hbyte 40 5 rfl, hbyte 48 6 rfl,
    hbyte 56 7 rfl, hlow, show Nat.pow 256 0 = 1 from rfl, Nat.div_one]

theorem twosComplement_toInt (n : Int64) : twosComplement n.toInt = n.toUInt64.toNat := by
  have hsigned : n.toInt = if 2 * n.toUInt64.toNat < 2 ^ 64 then (n.toUInt64.toNat : Int)
      else n.toUInt64.toNat - (2 ^ 64 : Nat) := BitVec.toInt_eq_toNat_cond n.toBitVec
  have hlt : n.toUInt64.toNat < 2 ^ 64 := UInt64.toNat_lt _
  rw [twosComplement, hsigned]
  simp only [Nat.pow_eq]
  split <;> omega

theorem key_eq (number : Nat) (framing : Framing) (type : WireType)
    (h : framing.code = type.code) : base128 (number <<< 3 ||| framing.code) = key number type := by
  have hlt : type.code < 2 ^ 3 := type.code_lt
  rw [h, base128_eq_varint, key, ← Nat.shiftLeft_add_eq_or_of_lt hlt, Nat.shiftLeft_eq]
  congr 1
  omega

/-! ### Agreement of the schema with the declarations -/

/-- A declared type suits what a field or a variant holds. -/
def suits : FieldType → Content → Bool
  | .string, .scalar .text => true
  | .bool, .scalar .flag => true
  | .int64, .scalar .index => true
  | .double, .scalar .double => true
  | .named name, .scalar .choice => decide (name ∈ published.enumerations)
  | .named name, .message k => decide (name = k.name)
  | _, _ => false

/-- A message declares a field with a name, as it is to occur, and under the same number. -/
def declares (type : MessageType) (occurrence : Occurrence) (name : String) (number : Nat)
    (content : Content) : Bool :=
  (type.field? name).any fun f =>
    decide (f.1 = occurrence) && decide (f.2.number = number) && suits f.2.type content

/-- A message declares a field of the schema, or all of its variants. -/
def declaresShape (type : MessageType) (name : String) : Shape → Bool
  | .plain number scalar => declares type .single name number (.scalar scalar)
  | .optional number k => declares type .single name number (.message k)
  | .repeated number k => declares type .repeated name number (.message k)
  | .union vs => vs.all fun v => declares type .alternative v.name v.number v.content

/-- Every kind is published, with all the fields of the schema. -/
theorem published_declares (k : Kind) :
    (published.message? k.name).any
      (fun type => (fields k).all fun f => declaresShape type f.name f.shape) = true := by
  cases k <;> decide

/-- The numbers of the fields of a kind ascend. -/
theorem pairwise_allNumbers (k : Kind) : (allNumbers (fields k)).Pairwise (· < ·) := by
  cases k <;> decide

theorem field?_of_declares {type : MessageType} {occurrence : Occurrence} {name : String}
    {number : Nat} {content : Content} (h : declares type occurrence name number content = true) :
    ∃ field : Declaration, type.field? name = some (occurrence, field) ∧ field.number = number ∧
      suits field.type content = true := by
  rw [declares, Option.any_eq_true_iff_get] at h
  obtain ⟨hsome, h⟩ := h
  simp only [Bool.and_eq_true, decide_eq_true_eq] at h
  obtain ⟨⟨hoccurrence, hnumber⟩, hsuits⟩ := h
  refine ⟨((type.field? name).get hsome).2, ?_, hnumber, hsuits⟩
  rw [← hoccurrence]
  exact (Option.some_get hsome).symm

theorem message?_name (k : Kind) :
    ∃ type : MessageType, published.message? k.name = some type ∧
      ∀ f ∈ fields k, declaresShape type f.name f.shape = true := by
  have h := published_declares k
  rw [Option.any_eq_true] at h
  obtain ⟨type, htype, hall⟩ := h
  exact ⟨type, htype, List.all_eq_true.mp hall⟩

/-! ### Chunks in order -/

/-- Chunks that stand in the order of their numbers, which are among the given ones, and that have
the given bytes together. -/
def Yields (result : Option (List Chunk)) (ns : List Nat) (bytes : Bytes) : Prop :=
  ∃ chunks : List Chunk, result = some chunks ∧ (∀ c ∈ chunks, c.number ∈ ns) ∧
    chunks.Pairwise (fun a b => a.number ≤ b.number) ∧ chunks.flatMap Chunk.bytes = bytes

theorem Yields.nil (ns : List Nat) : Yields (some []) ns [] :=
  ⟨[], rfl, by simp, .nil, rfl⟩

theorem Yields.append {first more : Option (List Chunk)} {ns ms ks : List Nat} {a b : Bytes}
    (hfirst : Yields first ns a) (hmore : Yields more ms b) (hns : ns ⊆ ks) (hms : ms ⊆ ks)
    (hle : ∀ n ∈ ns, ∀ m ∈ ms, n ≤ m) :
    Yields (first.bind fun xs => more.map fun ys => xs ++ ys) ks (a ++ b) := by
  obtain ⟨xs, rfl, hxs, hsortedx, rfl⟩ := hfirst
  obtain ⟨ys, rfl, hys, hsortedy, rfl⟩ := hmore
  refine ⟨xs ++ ys, rfl, ?_, ?_, List.flatMap_append⟩
  · intro c hc
    rcases List.mem_append.mp hc with hc | hc
    · exact hns (hxs c hc)
    · exact hms (hys c hc)
  · exact List.pairwise_append.mpr
      ⟨hsortedx, hsortedy, fun x hx y hy => hle _ (hxs x hx) _ (hys y hy)⟩

theorem Yields.mono {result : Option (List Chunk)} {ns ks : List Nat} {bytes : Bytes}
    (h : Yields result ns bytes) (hsub : ns ⊆ ks) : Yields result ks bytes := by
  obtain ⟨chunks, hresult, hnumbers, hrest⟩ := h
  exact ⟨chunks, hresult, fun c hc => hsub (hnumbers c hc), hrest⟩

/-- Chunks that are in order are arranged as they stand. -/
theorem Yields.arranged {result : Option (List Chunk)} {ns : List Nat} {bytes : Bytes}
    (h : Yields result ns bytes) : result.map arrange = some bytes := by
  obtain ⟨chunks, rfl, -, hsorted, rfl⟩ := h
  have horder : chunks.Pairwise fun a b => decide (a.number ≤ b.number) = true := by
    simpa using hsorted
  rw [Option.map_some, arrange, List.mergeSort_of_pairwise horder]

theorem recordChunks_append (type : MessageType) (a b : Record) :
    recordChunks published type (a ++ b) =
      (recordChunks published type a).bind fun xs =>
        (recordChunks published type b).map fun ys => xs ++ ys := by
  induction a with
  | nil => simp [recordChunks]
  | cons entry rest ih =>
    obtain ⟨name, value⟩ := entry
    rw [List.cons_append, recordChunks, recordChunks, ih]
    rcases type.field? name with - | ⟨occurrence, field⟩
    · rfl
    simp only [Option.bind_some]
    rcases contents published field.type value with - | ⟨framing, bytes⟩
    · rfl
    cases recordChunks published type rest with
    | none => rfl
    | some xs =>
      cases recordChunks published type b with
      | none => rfl
      | some ys => by_cases homits : omits occurrence value <;> simp [homits]

/-! ### Contents of fields -/

/-- Contents that are written as the given field under every number. -/
def Writes (result : Option (Framing × Bytes)) (field : Nat → Bytes) : Prop :=
  ∃ framing bytes, result = some (framing, bytes) ∧
    ∀ number, (Chunk.of number framing bytes).bytes = field number

theorem Writes.of_code {framing : Framing} (type : WireType) (h : framing.code = type.code)
    (bytes : Bytes) : Writes (some (framing, bytes)) fun number => key number type ++ bytes := by
  refine ⟨framing, bytes, rfl, fun number => ?_⟩
  rw [Chunk.of, key_eq number framing type h]

theorem utf8_eq_textBytes (s : String) :
    s.toList.flatMap String.utf8EncodeChar = textBytes s := by
  have hbytes : s.toList.utf8Encode = s.toByteArray := by simp
  rw [textBytes, String.toUTF8_eq_toByteArray, ← hbytes]
  simp [List.utf8Encode]

theorem bits_and_eq_zero (w : UInt64) :
    (w &&& 0x7fffffffffffffff == 0) = (w.toNat % Nat.pow 2 63 == 0) := by
  have hand : (w &&& 0x7fffffffffffffff).toNat = w.toNat % Nat.pow 2 63 := by
    rw [UInt64.toNat_and]
    exact Nat.and_two_pow_sub_one_eq_mod w.toNat 63
  rw [← hand, Bool.eq_iff_iff, beq_iff_eq, beq_iff_eq, ← UInt64.toNat_inj]
  rfl

theorem isDefault_value (type : Scalar) (value : type.Carrier) :
    (type.value value).isDefault = isDefault type value := by
  cases type with
  | text =>
    show String.isEmpty value = decide (value = "")
    rw [Bool.eq_iff_iff, decide_eq_true_iff, String.isEmpty_iff]
  | flag => rfl
  | choice =>
    show (Int32.toInt value == 0) = decide (value = 0)
    rw [Bool.eq_iff_iff, decide_eq_true_iff, beq_iff_eq, ← Int32.toInt_inj]
    rfl
  | index =>
    show (Int64.toInt value == 0) = decide (value = 0)
    rw [Bool.eq_iff_iff, decide_eq_true_iff, beq_iff_eq, ← Int64.toInt_inj]
    rfl
  | double => exact bits_and_eq_zero (Binary64.bits value)

theorem writes_scalar {declared : FieldType} {type : Scalar} (value : type.Carrier)
    (h : suits declared (.scalar type) = true) :
    Writes (contents published declared (type.value value)) fun number =>
      scalarField number type value := by
  cases type with
  | text =>
    cases declared <;> simp only [suits, Bool.false_eq_true] at h
    simp only [Scalar.value, contents, utf8_eq_textBytes, counted_eq_delimited]
    exact .of_code .delimited rfl _
  | flag =>
    cases declared <;> simp only [suits, Bool.false_eq_true] at h
    simp only [Scalar.value, contents, base128_eq_varint]
    exact .of_code .varint rfl _
  | choice =>
    cases declared <;> simp only [suits, Bool.false_eq_true, decide_eq_true_eq] at h
    simp only [Scalar.value, contents, if_pos h, base128_eq_varint, ← Int32.toInt_toInt64,
      twosComplement_toInt]
    exact .of_code .varint rfl _
  | index =>
    cases declared <;> simp only [suits, Bool.false_eq_true] at h
    simp only [Scalar.value, contents, base128_eq_varint, twosComplement_toInt]
    exact .of_code .varint rfl _
  | double =>
    cases declared <;> simp only [suits, Bool.false_eq_true] at h
    simp only [Scalar.value, contents, fixed64_eq_word64]
    exact .of_code .fixed64 rfl _

theorem writes_message {k : Kind} {bytes : Bytes} {value : Value} {declared : FieldType}
    (h : suits declared (.message k) = true)
    (hvalue : contents published (.named k.name) value = some (.counted, delimited bytes)) :
    Writes (contents published declared value) fun number => messageField number bytes := by
  cases declared with
  | named name =>
    simp only [suits, decide_eq_true_eq] at h
    rw [h, hvalue]
    exact .of_code .delimited rfl _
  | _ => simp [suits] at h

/-- An entry is written under the declared number, unless it is left out. -/
theorem yields_entry {type : MessageType} {occurrence : Occurrence} {name : String} {number : Nat}
    {content : Content} {value : Value} {field : Nat → Bytes}
    (h : declares type occurrence name number content = true)
    (hvalue : ∀ declared, suits declared content = true →
      Writes (contents published declared value) field) :
    Yields (recordChunks published type [(name, value)]) [number]
      (if omits occurrence value then [] else field number) := by
  obtain ⟨declaration, hfield, rfl, hsuits⟩ := field?_of_declares h
  obtain ⟨framing, bytes, hcontents, hbytes⟩ := hvalue declaration.type hsuits
  have hchunk : Chunk.of declaration.number framing bytes =
      ⟨declaration.number, field declaration.number⟩ := by
    rw [← hbytes]
    rfl
  simp only [recordChunks, hfield, hcontents, Option.bind_some, Option.map_some, hchunk]
  split
  · exact .nil _
  · exact ⟨_, rfl, by simp, List.pairwise_singleton _ _, by simp⟩

mutual

/-- A message inside another is written as its own bytes after their number. -/
theorem contents_message : {k : Kind} → (m : Message k) →
    contents published (.named k.name) (.message m.record) =
      some (.counted, delimited (encode m))
  | k, .mk _ slots => by
    obtain ⟨type, htype, hdeclared⟩ := message?_name k
    have hyields := yields_slots slots hdeclared (pairwise_allNumbers k)
    obtain ⟨chunks, hchunks, harranged⟩ := Option.map_eq_some_iff.mp hyields.arranged
    rw [record, contents, htype, Option.bind_some, hchunks, Option.map_some, harranged,
      counted_eq_delimited, encode]

/-- The fields of a message have ascending numbers, so their chunks are in order. -/
theorem yields_slots {type : MessageType} : {fs : List Field} → (slots : Slots fs) →
    (∀ f ∈ fs, declaresShape type f.name f.shape = true) → (allNumbers fs).Pairwise (· < ·) →
    Yields (recordChunks published type slots.record) (allNumbers fs) (encodeSlots slots)
  | [], .nil, _, _ => .nil _
  | f :: fs, .cons head tail, hdeclared, hascending => by
    rw [allNumbers, List.flatMap_cons, List.pairwise_append] at hascending
    obtain ⟨-, htail, hlt⟩ := hascending
    have hhead := yields_slot head f.name (hdeclared f List.mem_cons_self)
    have hrest := yields_slots tail (fun g hg => hdeclared g (List.mem_cons_of_mem f hg)) htail
    rw [Slots.record, recordChunks_append, encodeSlots]
    exact hhead.append hrest (List.subset_append_left _ _) (List.subset_append_right _ _)
      fun n hn m hm => Nat.le_of_lt (hlt n hn m hm)

theorem yields_slot {type : MessageType} : {shape : Shape} → (slot : Slot shape) →
    (name : String) → declaresShape type name shape = true →
    Yields (recordChunks published type (slot.entries name)) (numbers shape) (encodeSlot slot)
  | .plain number scalar, .plain value, name, h => by
    have hyields := yields_entry h fun declared hsuits => writes_scalar value hsuits
    rw [omits, isDefault_value] at hyields
    exact hyields
  | .optional number k, .absent, name, h => .nil _
  | .optional number k, .present m, name, h =>
    yields_entry h fun declared hsuits => writes_message hsuits (contents_message m)
  | .repeated number k, .repeated ms, name, h => yields_sequence ms name h
  | .union vs, .unset, name, h => .nil _
  | .union vs, .set choice, name, h => yields_choice choice (List.all_eq_true.mp h)

theorem yields_sequence {type : MessageType} {number : Nat} : {k : Kind} → (ms : Sequence k) →
    (name : String) → declares type .repeated name number (.message k) = true →
    Yields (recordChunks published type (ms.entries name)) [number] (encodeSequence number ms)
  | k, .nil, name, h => .nil _
  | k, .cons m rest, name, h => by
    have hfirst := yields_entry h fun declared hsuits =>
      writes_message hsuits (contents_message m)
    have hmore := yields_sequence rest name h
    have happend := recordChunks_append type [(name, .message m.record)] (rest.entries name)
    rw [Sequence.entries, encodeSequence, ← List.singleton_append, happend]
    -- Both have the one number, and the order of chunks with the same number is kept.
    exact hfirst.append hmore (List.Subset.refl _) (List.Subset.refl _) (by simp)

theorem yields_choice {type : MessageType} : {vs : List Variant} → (choice : Choice vs) →
    (∀ v ∈ vs, declares type .alternative v.name v.number v.content = true) →
    Yields (recordChunks published type choice.entries) (vs.map Variant.number)
      (encodeChoice choice)
  | v :: vs, .here payload, h => by
    have hyields := yields_entry (h v List.mem_cons_self) fun declared hsuits =>
      writes_payload payload hsuits
    exact hyields.mono (by simp)
  | v :: vs, .later choice, h => by
    have hyields := yields_choice choice fun w hw => h w (List.mem_cons_of_mem v hw)
    exact hyields.mono (List.subset_cons_self _ _)

theorem writes_payload {declared : FieldType} : {c : Content} → (payload : Payload c) →
    suits declared c = true →
    Writes (contents published declared payload.value) fun number => encodePayload number payload
  | .scalar _, .scalar value, h => writes_scalar value h
  | .message _, .message m, h => writes_message h (contents_message m)

end

/-- The bytes of every message are the canonical serialization, under the published declarations, of
its entries by name. Fields stand in the order of the published numbers; a plain field is left out
exactly when it is empty, false or zero of either sign; and an alternative that is set is always
written. -/
theorem serialize_record {k : Kind} (m : Message k) :
    serialize published k.name m.record = some (encode m) := by
  obtain ⟨k, slots⟩ := m
  obtain ⟨type, htype, hdeclared⟩ := message?_name k
  have hyields := yields_slots slots hdeclared (pairwise_allNumbers k)
  obtain ⟨chunks, hchunks, harranged⟩ := Option.map_eq_some_iff.mp hyields.arranged
  simp [serialize, htype, record, hchunks, harranged, encode]

end Wire

end ScriptWire
