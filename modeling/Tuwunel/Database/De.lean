import Mathlib
import Tuwunel.Database.Ser

/-!
# The record deserializer

`from_slice` reads a flat tuple back with a cursor: the input, the position, the number of
records started and the tuple's length.  Each element starts a record, which steps over the
separator once a record has been started (and not when the input ran out before the tuple
did), and then the element's type decides how much it reads:

* a string reads up to the next `SEP` and must be UTF-8;
* an integer reads eight raw bytes, separator or not;
* a byte slice reads everything left;
* an `Option` reads `None` when no byte is left or the next byte is `SEP`, and otherwise reads
  its payload from the same position.

`Deserializer.finished` is the check a debug build makes afterwards, that at most one trailing
separator is left unread; a release build returns the value without it.

A `Some` is told from a `None` only by its payload's first byte, so a payload written starting
with `SEP` reads as `None` (`deserializeField_option_of_sep`).  Every other tuple of the kinds
the codec handles reads back whole (`from_slice_serialize_to_vec`).
-/

namespace Tuwunel
namespace Database

open BigEndian

/-- The field types `from_slice` decodes, by the `deserialize_*` call each makes. -/
inductive FieldType
  | str
  | u64
  | i64
  | bytes
  | option (inner : FieldType)
  deriving DecidableEq

/-- The errors `from_slice` returns on these types. -/
inductive Error
  /-- The `Utf8Error` of `str_from_bytes`. -/
  | utf8
  /-- `Error::SerdeDe` with its message. -/
  | serdeDe (message : String)
  /-- serde's `invalid_length` when the elements run out before the tuple's length. -/
  | invalidLength (index : Nat)
  deriving DecidableEq

/-- `Deserializer`: the input, the position, the records started and the expected length. -/
structure Deserializer where
  buf : List UInt8
  pos : Nat
  /-- `rec`, a name Lean keeps for the recursor. -/
  records : Nat
  seq : Nat
  deriving DecidableEq

namespace Deserializer

/-- `Deserializer::record_start`: step over the separator once a record has been started,
unless the input ran out before the tuple did. -/
def recordStart (de : Deserializer) : Deserializer :=
  let started := de.pos ≠ 0 ∨ 0 < de.records
  let incomplete := de.buf.length ≤ de.pos ∧ de.records < de.seq
  { de with
    pos := de.pos + (if started ∧ ¬ incomplete then 1 else 0)
    records := de.records + 1 }

/-- `Deserializer::record_next`: the bytes up to the next separator. -/
def recordNext (de : Deserializer) : List UInt8 × Deserializer :=
  let record := (de.buf.drop de.pos).takeWhile (· != SEP)
  (record, { de with pos := de.pos + record.length })

/-- `Deserializer::record_trail`: every byte left. -/
def recordTrail (de : Deserializer) : List UInt8 × Deserializer :=
  let record := de.buf.drop de.pos
  (record, { de with pos := de.pos + record.length })

/-- The eight bytes `deserialize_u64` and `deserialize_i64` take, when eight are left. -/
def readWord (de : Deserializer) : Option (Nat × Deserializer) :=
  let bytes := (de.buf.drop de.pos).take 8
  if bytes.length = 8 then some (fromBeBytes bytes, { de with pos := de.pos + 8 }) else none

/-- The test of `deserialize_option`: no byte left, or the separator. -/
def atNone (de : Deserializer) : Bool := de.buf[de.pos]?.all (· == SEP)

/-- `Deserializer::finished`: nothing left but at most one separator. -/
def finished (de : Deserializer) : Bool :=
  de.buf.length - de.pos == 0 || (de.buf.length - de.pos == 1 && de.buf[de.pos]? == some SEP)

end Deserializer

/-- The `deserialize_*` call of a field type. -/
def deserializeField : FieldType → Deserializer → Except Error (Field × Deserializer)
  | .str, de =>
      let (record, de) := de.recordNext
      if valid : Utf8.Valid record then .ok (.str ⟨record, valid⟩, de) else .error .utf8
  | .u64, de =>
      match de.readWord with
      | some (value, de) => .ok (.u64 value, de)
      | none => .error (.serdeDe "u64 buffer underflow")
  | .i64, de =>
      match de.readWord with
      | some (value, de) => .ok (.i64 (asI64 value), de)
      | none => .error (.serdeDe "i64 buffer underflow")
  | .bytes, de =>
      let (record, de) := de.recordTrail
      .ok (.bytes record, de)
  | .option inner, de =>
      if de.atNone then .ok (.none, de)
      else
        match deserializeField inner de with
        | .ok (value, de) => .ok (.some value, de)
        | .error error => .error error

/-- `SeqAccess::next_element_seed`: nothing once both the input and the tuple are done. -/
def nextElement (type : FieldType) (de : Deserializer) :
    Except Error (Option Field × Deserializer) :=
  if de.buf.length ≤ de.pos ∧ de.seq ≤ de.records then .ok (none, de)
  else
    match deserializeField type de.recordStart with
    | .ok (field, de) => .ok (some field, de)
    | .error error => .error error

/-- The tuple visitor: one element per field type, `index` counting the elements read. -/
def visitTuple (index : Nat) : List FieldType → Deserializer →
    Except Error (List Field × Deserializer)
  | [], de => .ok ([], de)
  | type :: types, de =>
      match nextElement type de with
      | .ok (some field, de) =>
          match visitTuple (index + 1) types de with
          | .ok (fields, de) => .ok (field :: fields, de)
          | .error error => .error error
      | .ok (none, _) => .error (.invalidLength index)
      | .error error => .error error

/-- `deserialize_tuple` on a fresh cursor: the fields and the cursor they leave. -/
def deserializeTuple (types : List FieldType) (buf : List UInt8) :
    Except Error (List Field × Deserializer) :=
  visitTuple 0 types ⟨buf, 0, 0, types.length⟩

/-- `from_slice` for a tuple type. -/
def fromSlice (types : List FieldType) (buf : List UInt8) : Except Error (List Field) :=
  (deserializeTuple types buf).map Prod.fst

/-! ## Reading a field back -/

/-- `field` is a value of `type`, in the range of its Rust type. -/
def Field.hasType : Field → FieldType → Bool
  | .str _, .str => true
  | .u64 value, .u64 => value ≤ u64Max
  | .i64 value, .i64 => i64Min ≤ value && value ≤ i64Max
  | .bytes _, .bytes => true
  | .none, .option _ => true
  | .some value, .option inner => value.hasType inner
  | _, _ => false

/-- Every `Some` in the field is written starting with a byte other than `SEP`. -/
def Field.someOpens : Field → Bool
  | .some value => value.encode.head?.any (· != SEP) && value.someOpens
  | _ => true

/-- A field type whose read stops at the next separator: any but a byte slice. -/
def FieldType.bounded : FieldType → Bool
  | .bytes => false
  | .option inner => inner.bounded
  | _ => true

namespace Deserializer

theorem drop_pos (pre bytes : List UInt8) (records seq : Nat) :
    (Deserializer.buf ⟨pre ++ bytes, pre.length, records, seq⟩).drop pre.length = bytes :=
  List.drop_left

theorem getElem?_pos (pre bytes : List UInt8) : (pre ++ bytes)[pre.length]? = bytes.head? := by
  rw [List.getElem?_append_right (le_refl _), Nat.sub_self, List.head?_eq_getElem?]

/-- A record stops at the separator that follows it. -/
theorem takeWhile_record {record rest : List UInt8} (free : SEP ∉ record)
    (boundary : rest.head?.all (· == SEP)) : (record ++ rest).takeWhile (· != SEP) = record := by
  rw [List.takeWhile_append_of_pos fun byte member => by
    simpa using fun same : byte = SEP => free (same ▸ member)]
  cases rest with
  | nil => simp
  | cons byte rest =>
      simp only [List.head?_cons, Option.all_some, beq_iff_eq] at boundary
      simp [boundary]

end Deserializer

theorem sep_not_mem_str (value : Utf8.Str) : SEP ∉ value.1 :=
  Utf8.ff_not_mem_of_valid value.2

/-- A field read where it was written comes back, and the cursor moves past its bytes. -/
theorem deserializeField_encode {field : Field} {type : FieldType} (typed : field.hasType type)
    (opens : field.someOpens) (pre rest : List UInt8) (boundary : rest.head?.all (· == SEP))
    (last : type.bounded ∨ rest = []) (records seq : Nat) :
    deserializeField type ⟨pre ++ field.encode ++ rest, pre.length, records, seq⟩ =
      .ok (field, ⟨pre ++ field.encode ++ rest, pre.length + field.encode.length, records, seq⟩) := by
  induction field generalizing type with
  | str value =>
      cases type with
      | str =>
          have record := Deserializer.takeWhile_record (sep_not_mem_str value) boundary
          simp only [deserializeField, Deserializer.recordNext, Field.encode, List.append_assoc,
            List.drop_left, record, dif_pos value.2]
      | _ => simp [Field.hasType] at typed
  | u64 value =>
      cases type with
      | u64 =>
          have fits : value < 256 ^ 8 := lt_of_le_u64Max (by simpa [Field.hasType] using typed)
          simp only [deserializeField, Deserializer.readWord, Field.encode, List.append_assoc,
            List.drop_left, List.take_left' (length_toBeBytes 8 value), length_toBeBytes,
            if_pos, fromBeBytes_toBeBytes, Nat.mod_eq_of_lt fits]
      | _ => simp [Field.hasType] at typed
  | i64 value =>
      cases type with
      | i64 =>
          obtain ⟨low, high⟩ : i64Min ≤ value ∧ value ≤ i64Max := by
            simpa [Field.hasType] using typed
          have bits : asU64 value < 256 ^ 8 := asU64_lt value
          simp only [deserializeField, Deserializer.readWord, Field.encode, List.append_assoc,
            List.drop_left, List.take_left' (length_toBeBytes 8 _), length_toBeBytes, if_pos,
            fromBeBytes_toBeBytes, Nat.mod_eq_of_lt bits, asI64_asU64 low high]
      | _ => simp [Field.hasType] at typed
  | bytes value =>
      cases type with
      | bytes =>
          have empty : rest = [] := by simpa [FieldType.bounded] using last
          subst empty
          simp [deserializeField, Deserializer.recordTrail, Field.encode]
      | _ => simp [Field.hasType] at typed
  | none =>
      cases type with
      | option inner =>
          have atNone : Deserializer.atNone
              ⟨pre ++ Field.none.encode ++ rest, pre.length, records, seq⟩ := by
            simpa [Deserializer.atNone, Field.encode, Deserializer.getElem?_pos] using boundary
          rw [deserializeField, if_pos atNone]
          simp [Field.encode]
      | _ => simp [Field.hasType] at typed
  | some value ih =>
      cases type with
      | option inner =>
          simp only [Field.hasType] at typed
          simp only [Field.someOpens, Bool.and_eq_true] at opens
          obtain ⟨first, opens⟩ := opens
          -- the payload's first byte is no separator, so the option reads `Some`
          have atSome : Deserializer.atNone
              ⟨pre ++ (Field.some value).encode ++ rest, pre.length, records, seq⟩ = false := by
            obtain ⟨byte, bytes, written⟩ : ∃ byte bytes, value.encode = byte :: bytes := by
              cases encoded : value.encode with
              | nil => simp [encoded] at first
              | cons byte bytes => exact ⟨byte, bytes, rfl⟩
            simp only [written, Option.any_some, List.head?_cons] at first
            simpa [Deserializer.atNone, Field.encode, written, List.append_assoc,
              Deserializer.getElem?_pos] using first
          simp only [deserializeField, atSome, Bool.false_eq_true, if_false]
          rw [show (Field.some value).encode = value.encode from rfl,
            ih typed opens (by simpa [FieldType.bounded] using last)]
      | _ => simp [Field.hasType] at typed
  | interfix => cases type <;> simp [Field.hasType] at typed

/-! ## Reading a tuple back -/

namespace Deserializer

theorem recordStart_first (buf : List UInt8) (seq : Nat) :
    (⟨buf, 0, 0, seq⟩ : Deserializer).recordStart = ⟨buf, 0, 1, seq⟩ := by
  simp [recordStart]

/-- After the first record, starting one steps over the separator in front of it. -/
theorem recordStart_of_lt {de : Deserializer} (started : 0 < de.records)
    (inside : de.pos < de.buf.length) :
    de.recordStart = { de with pos := de.pos + 1, records := de.records + 1 } := by
  have stepped : (de.pos ≠ 0 ∨ 0 < de.records) ∧ ¬ (de.buf.length ≤ de.pos ∧ de.records < de.seq) :=
    ⟨Or.inr started, fun ⟨done, _⟩ => absurd done (Nat.not_le.mpr inside)⟩
  simp only [recordStart, if_pos stepped]

end Deserializer

theorem head?_flatMap_encode (fields : List Field) :
    (fields.flatMap fun field => SEP :: field.encode).head?.all (· == SEP) := by
  cases fields <;> simp

/-- Only the last field may read to the end of the input. -/
theorem bounded_or_last {fields : List Field} {type : FieldType} {types : List FieldType}
    (lengths : fields.length = types.length)
    (bounded : ∀ other ∈ (type :: types).dropLast, other.bounded) :
    type.bounded ∨ (fields.flatMap fun field => SEP :: field.encode) = [] := by
  cases fields with
  | nil => simp
  | cons =>
      cases types with
      | nil => simp at lengths
      | cons => exact Or.inl (bounded type (by simp))

theorem bounded_tail {type : FieldType} {types : List FieldType}
    (bounded : ∀ other ∈ (type :: types).dropLast, other.bounded) :
    ∀ other ∈ types.dropLast, other.bounded := by
  intro other member
  apply bounded other
  cases types with
  | nil => simp at member
  | cons next types =>
      rw [List.dropLast_cons_cons]
      exact List.mem_cons_of_mem _ member

theorem nextElement_of_read {type : FieldType} {de de' : Deserializer} {field : Field}
    (pending : de.pos < de.buf.length ∨ de.records < de.seq)
    (read : deserializeField type de.recordStart = .ok (field, de')) :
    nextElement type de = .ok (some field, de') := by
  have more : ¬ (de.buf.length ≤ de.pos ∧ de.seq ≤ de.records) := by omega
  rw [nextElement, if_neg more, read]

theorem visitTuple_cons_of_next {index : Nat} {type : FieldType} {types : List FieldType}
    {de de' : Deserializer} {field : Field} (next : nextElement type de = .ok (some field, de'))
    {fields : List Field} {final : Deserializer}
    (rest : visitTuple (index + 1) types de' = .ok (fields, final)) :
    visitTuple index (type :: types) de = .ok (field :: fields, final) := by
  rw [visitTuple, next]
  simp only [rest]

/-- The elements after the first, each behind its separator, read back with the cursor ending
at the end of the input. -/
theorem visitTuple_encode (index : Nat) {fields : List Field} {types : List FieldType}
    (typed : List.Forall₂ (fun field type => field.hasType type ∧ field.someOpens) fields types)
    (bounded : ∀ type ∈ types.dropLast, type.bounded) (pre : List UInt8) {records : Nat}
    (started : 0 < records) :
    let buf := pre ++ fields.flatMap fun field => SEP :: field.encode
    visitTuple index types ⟨buf, pre.length, records, records + types.length⟩ =
      .ok (fields, ⟨buf, buf.length, records + types.length, records + types.length⟩) := by
  induction typed generalizing index pre records with
  | nil => simp [visitTuple]
  | @cons field type fields types fieldTyped restTyped ih =>
      obtain ⟨hasType, opens⟩ := fieldTyped
      intro buf
      have last := bounded_or_last restTyped.length_eq bounded
      -- the separator in front of the field is stepped over, then the field is read
      have shape : buf = (pre ++ [SEP]) ++ field.encode ++
          fields.flatMap fun field => SEP :: field.encode := by
        simp [buf]
      have read := deserializeField_encode hasType opens (pre ++ [SEP]) _
        (head?_flatMap_encode fields) last (records + 1) (records + (types.length + 1))
      have separator : (pre ++ [SEP]).length = pre.length + 1 := by simp
      rw [← shape, separator] at read
      have next : nextElement type ⟨buf, pre.length, records, records + (types.length + 1)⟩ =
          .ok (some field, ⟨buf, pre.length + 1 + field.encode.length, records + 1,
            records + (types.length + 1)⟩) := by
        apply nextElement_of_read (Or.inr (by simp only; omega))
        rw [Deserializer.recordStart_of_lt started (by simp [buf])]
        exact read
      have later := ih (index + 1) (bounded_tail bounded) (pre ++ SEP :: field.encode)
        (Nat.add_pos_right records Nat.one_pos)
      have bufEq : buf = (pre ++ SEP :: field.encode) ++
          fields.flatMap fun field => SEP :: field.encode := by
        simp [buf]
      have posEq : pre.length + 1 + field.encode.length = (pre ++ SEP :: field.encode).length := by
        simp
        omega
      have seqEq : records + (types.length + 1) = records + 1 + types.length := by omega
      refine visitTuple_cons_of_next next ?_
      rw [List.length_cons, bufEq, posEq, seqEq]
      exact later

/-- A tuple of the codec's kinds reads back from its bytes, the cursor at the end of them. -/
theorem deserializeTuple_serializeToVec {fields : List Field} {types : List FieldType}
    (typed : List.Forall₂ (fun field type => field.hasType type ∧ field.someOpens) fields types)
    (bounded : ∀ type ∈ types.dropLast, type.bounded) :
    deserializeTuple types (serializeToVec fields) =
      .ok (fields, ⟨serializeToVec fields, (serializeToVec fields).length, types.length,
        types.length⟩) := by
  cases typed with
  | nil => rfl
  | @cons field type fields types fieldTyped restTyped =>
      obtain ⟨hasType, opens⟩ := fieldTyped
      -- the first element starts no separator; the rest follow `visitTuple_encode`
      have read := deserializeField_encode hasType opens [] _ (head?_flatMap_encode fields)
        (bounded_or_last restTyped.length_eq bounded) 1 (types.length + 1)
      simp only [List.nil_append, List.length_nil, Nat.zero_add] at read
      have next : nextElement type
          ⟨field.encode ++ fields.flatMap fun field => SEP :: field.encode, 0, 0,
            types.length + 1⟩ =
          .ok (some field, ⟨field.encode ++ fields.flatMap fun field => SEP :: field.encode,
            field.encode.length, 1, types.length + 1⟩) := by
        apply nextElement_of_read (Or.inr (Nat.succ_pos _))
        rw [Deserializer.recordStart_first]
        exact read
      have later := visitTuple_encode 1 restTyped (bounded_tail bounded) field.encode Nat.one_pos
      rw [Nat.add_comm 1 types.length] at later
      rw [serializeToVec_cons, deserializeTuple, List.length_cons]
      exact visitTuple_cons_of_next next later

/-- `from_slice` reads a tuple of the codec's kinds back from `serialize_to_vec` and leaves
nothing unread, when no `Some` payload is written starting with `SEP` and only the last field
may be a byte slice. -/
theorem from_slice_serialize_to_vec (fields : List Field) (types : List FieldType)
    (typed : List.Forall₂ (fun field type => field.hasType type ∧ field.someOpens) fields types)
    (bounded : ∀ type ∈ types.dropLast, type.bounded) :
    fromSlice types (serializeToVec fields) = .ok fields ∧
      ∃ de, deserializeTuple types (serializeToVec fields) = .ok (fields, de) ∧ de.finished := by
  have read := deserializeTuple_serializeToVec typed bounded
  refine ⟨by rw [fromSlice, read]; rfl, _, read, ?_⟩
  simp [Deserializer.finished]

/-- A record in the shape of the source's keys: a count, an optional event id, a signed count and
a trailing byte slice holding the separator byte. -/
def sampleRecord : List Field :=
  [.u64 1717171717, .some (.str ⟨[0x24, 0x65, 0x76, 0x74], by decide⟩), .i64 (-5), .bytes [0xFF, 0]]

/-- The types `sampleRecord` is read back as. -/
def sampleTypes : List FieldType := [.u64, .option .str, .i64, .bytes]

theorem from_slice_serialize_to_vec_sampleRecord :
    List.Forall₂ (fun field type => field.hasType type ∧ field.someOpens) sampleRecord sampleTypes ∧
      (∀ type ∈ sampleTypes.dropLast, type.bounded) ∧
      (fromSlice sampleTypes (serializeToVec sampleRecord) = .ok sampleRecord ∧
        ∃ de, deserializeTuple sampleTypes (serializeToVec sampleRecord) = .ok (sampleRecord, de) ∧
          de.finished) :=
  ⟨by decide, by decide, from_slice_serialize_to_vec sampleRecord sampleTypes (by decide) (by decide)⟩

/-! ## `Some` against `None` -/

/-- An option at a separator reads `None` and moves nowhere. -/
theorem deserializeField_option_of_sep {inner : FieldType} {de : Deserializer}
    (atSep : de.buf[de.pos]? = some SEP) : deserializeField (.option inner) de = .ok (.none, de) := by
  have atNone : de.atNone := by simp [Deserializer.atNone, atSep]
  rw [deserializeField, if_pos atNone]

/-- A one-field tuple holding `Some` of a payload written starting with `SEP` reads back as
`None`. -/
theorem fromSlice_some_of_head_sep {payload : Field} (inner : FieldType)
    (opensWithSep : payload.encode.head? = some SEP) :
    fromSlice [.option inner] (serializeToVec [.some payload]) = .ok [.none] := by
  have written : serializeToVec [.some payload] = payload.encode := by
    simp [serializeToVec_cons, Field.encode]
  have atSep : (payload.encode)[0]? = some SEP := by
    rwa [← List.head?_eq_getElem?]
  have next : nextElement (.option inner) ⟨payload.encode, 0, 0, 1⟩ =
      .ok (some .none, ⟨payload.encode, 0, 1, 1⟩) := by
    apply nextElement_of_read (Or.inr Nat.one_pos)
    rw [Deserializer.recordStart_first]
    exact deserializeField_option_of_sep atSep
  rw [fromSlice, deserializeTuple, written, List.length_singleton,
    visitTuple_cons_of_next next (rfl : visitTuple 1 [] _ = .ok ([], _))]
  rfl

/-- The tuple `(Some(0xFF00_0000_0000_0000u64), "a")`: its bytes, and the `None` and the string of
seven zero bytes `from_slice` reads from them, two bytes left unread; and `Some(-1i64)`, which
reads as `None` too. -/
theorem option_integer_leading_ff_misread :
    (Field.some (.u64 0xFF00000000000000)).hasType (.option .u64) ∧
      (Field.some (.i64 (-1))).hasType (.option .i64) ∧
      serializeToVec [.some (.u64 0xFF00000000000000), .str ⟨[0x61], by decide⟩] =
        [0xFF, 0, 0, 0, 0, 0, 0, 0, 0xFF, 0x61] ∧
      deserializeTuple [.option .u64, .str] [0xFF, 0, 0, 0, 0, 0, 0, 0, 0xFF, 0x61] =
        .ok ([.none, .str ⟨[0, 0, 0, 0, 0, 0, 0], by decide⟩],
          ⟨[0xFF, 0, 0, 0, 0, 0, 0, 0, 0xFF, 0x61], 8, 2, 2⟩) ∧
      (⟨[0xFF, 0, 0, 0, 0, 0, 0, 0, 0xFF, 0x61], 8, 2, 2⟩ : Deserializer).finished = false ∧
      fromSlice [.option .i64] (serializeToVec [.some (.i64 (-1))]) = .ok [.none] :=
  ⟨by decide, by decide, by decide, by decide, by decide,
    fromSlice_some_of_head_sep .i64 (by decide)⟩

end Database
end Tuwunel
