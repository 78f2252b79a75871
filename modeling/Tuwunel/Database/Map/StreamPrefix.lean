import Tuwunel.Library.PrefixScan
import Tuwunel.Database.De

/-!
# Prefix streams

A `Map` is one column of the store, by the entries RocksDB iterates in ascending key order.
`stream_prefix_raw` serializes a prefix tuple, seeks to the first key not below it and reads on
while the keys start with it.

A prefix tuple ends in `Interfix`, so its bytes are every field followed by `SEP`.  A string
never holds `SEP` and an integer is eight bytes, so a key starts with those bytes exactly when
its leading fields are the prefix's (`serialize_key_prefix_scan`); the scan then returns the
entries whose keys decode to such fields, in order (`PrefixScan.takeWhile_dropWhile_eq_filter`).
-/

namespace Tuwunel
namespace Database

open BigEndian

/-- `Map`: a column's entries, keys in ascending order. -/
structure Map where
  entries : List (List UInt8 × List UInt8)
  ascending : entries.Pairwise fun entry other => entry.1 < other.1

namespace Map

/-- `raw_stream_from`: the entries from the first key not below `start` on. -/
def rawStreamFrom (map : Map) (start : List UInt8) : List (List UInt8 × List UInt8) :=
  map.entries.dropWhile fun entry => decide (entry.1 < start)

/-- `stream_prefix_raw`: the entries from the serialized prefix on, while their keys start
with it. -/
def streamPrefixRaw (map : Map) (fields : List Field) : List (List UInt8 × List UInt8) :=
  let key := serializeKey fields
  (map.rawStreamFrom key).takeWhile fun entry => key.isPrefixOf entry.1

/-- `stream_prefix`: those entries with their keys read as `types`, the values left raw. -/
def streamPrefix (map : Map) (types : List FieldType) (fields : List Field) :
    List (Except Error (List Field × List UInt8)) :=
  (map.streamPrefixRaw fields).map fun entry => (fromSlice types entry.1).map fun key => (key, entry.2)

end Map

/-! ## Keys against prefixes -/

/-- The types a key field may have here: strings and the two integer types. -/
def FieldType.scalar : FieldType → Bool
  | .str | .u64 | .i64 => true
  | _ => false

/-- Whether a key reads, as `types`, to fields starting with `leading`. -/
def leadsWith (types : List FieldType) (leading : List Field) (key : List UInt8) : Bool :=
  match fromSlice types key with
  | .ok fields => fields.take leading.length == leading
  | .error _ => false

/-- Separators written before each field are the separators written after each field, moved
by one. -/
theorem flatMap_sep_shift (fields : List Field) (tail : List UInt8) :
    (fields.flatMap fun field => SEP :: field.encode) ++ SEP :: tail =
      SEP :: ((fields.flatMap fun field => field.encode ++ [SEP]) ++ tail) := by
  induction fields with
  | nil => rfl
  | cons field fields ih => simp [ih]

/-- The bytes of a tuple that goes on after `front`: each field of `front` with a separator
after it, then the rest. -/
theorem serializeKey_append (front : List Field) {back : List Field} (nonempty : back ≠ []) :
    serializeKey (front ++ back) =
      (front.flatMap fun field => field.encode ++ [SEP]) ++ serializeKey back := by
  obtain ⟨next, rest, rfl⟩ := List.exists_cons_of_ne_nil nonempty
  cases front with
  | nil => rfl
  | cons field front =>
      have shifted := flatMap_sep_shift front (next.encode ++ rest.flatMap fun field =>
        SEP :: field.encode)
      simp only [serializeKey, List.cons_append, serializeToVec_cons, List.flatMap_append,
        List.flatMap_cons, List.flatMap_cons] at shifted ⊢
      simp [shifted]

/-- The bytes of a prefix tuple: each field with a separator after it. -/
theorem serializeKey_interfix (fields : List Field) :
    serializeKey (fields ++ [.interfix]) = fields.flatMap fun field => field.encode ++ [SEP] := by
  rw [serializeKey_append fields (List.cons_ne_nil _ _)]
  simp [serializeKey, serializeToVec_cons, Field.encode]

/-- Two scalar fields of one type are equal when their bytes are. -/
theorem encode_injective {field other : Field} {type : FieldType} (scalar : type.scalar)
    (typed : field.hasType type) (typed' : other.hasType type) (same : field.encode = other.encode) :
    field = other := by
  cases type with
  | str =>
      cases field <;> cases other <;> simp [Field.hasType] at typed typed'
      exact congrArg Field.str (Subtype.ext same)
  | u64 =>
      cases field <;> cases other <;> simp [Field.hasType] at typed typed'
      exact congrArg Field.u64 (toBeBytes_injective (lt_of_le_u64Max typed)
        (lt_of_le_u64Max typed') same)
  | i64 =>
      cases field <;> cases other <;> simp [Field.hasType] at typed typed'
      rename_i value value'
      have bits := toBeBytes_injective (asU64_lt value) (asU64_lt value') same
      rw [← asI64_asU64 typed.1 typed.2, ← asI64_asU64 typed'.1 typed'.2, bits]
  | _ => simp [FieldType.scalar] at scalar

/-- Integers are matched as eight bytes, separator included or not. -/
theorem word_record_prefix_iff (value value' : Nat) (back back' : List UInt8) :
    toBeBytes 8 value ++ [SEP] ++ back <+: toBeBytes 8 value' ++ [SEP] ++ back' ↔
      toBeBytes 8 value = toBeBytes 8 value' ∧ back <+: back' := by
  rw [List.append_assoc, List.append_assoc,
    PrefixScan.append_prefix_append_iff (by simp), List.singleton_append, List.singleton_append,
    List.cons_prefix_cons]
  simp

/-- One record of a prefix tuple against one record of a key, fields of one scalar type. -/
theorem record_prefix_iff {field other : Field} {type : FieldType} (scalar : type.scalar)
    (typed : field.hasType type) (typed' : other.hasType type) (back back' : List UInt8) :
    field.encode ++ [SEP] ++ back <+: other.encode ++ [SEP] ++ back' ↔
      field = other ∧ back <+: back' := by
  have bytes : field.encode ++ [SEP] ++ back <+: other.encode ++ [SEP] ++ back' ↔
      field.encode = other.encode ∧ back <+: back' := by
    cases type with
    | str =>
        -- strings end at the separator, which neither holds
        cases field <;> cases other <;> simp [Field.hasType] at typed typed'
        simp only [Field.encode, List.append_assoc, List.singleton_append]
        exact PrefixScan.append_cons_prefix_append_cons_iff (sep_not_mem_str _) (sep_not_mem_str _)
    | u64 =>
        cases field <;> cases other <;> simp [Field.hasType] at typed typed'
        exact word_record_prefix_iff _ _ back back'
    | i64 =>
        cases field <;> cases other <;> simp [Field.hasType] at typed typed'
        exact word_record_prefix_iff _ _ back back'
    | _ => simp [FieldType.scalar] at scalar
  rw [bytes]
  constructor
  · rintro ⟨same, longer⟩
    exact ⟨encode_injective scalar typed typed' same, longer⟩
  · rintro ⟨rfl, longer⟩
    exact ⟨rfl, longer⟩

/-- A prefix tuple's records lead a key's records exactly when the fields agree. -/
theorem records_prefix_iff {leading fields : List Field} {types : List FieldType}
    (scalar : ∀ type ∈ types, type.scalar)
    (leadingTyped : List.Forall₂ (fun field type => field.hasType type) leading types)
    (typed : List.Forall₂ (fun field type => field.hasType type) fields types) (rest : List UInt8) :
    (leading.flatMap fun field => field.encode ++ [SEP]) <+:
        (fields.flatMap fun field => field.encode ++ [SEP]) ++ rest ↔ leading = fields := by
  induction leadingTyped generalizing fields with
  | nil =>
      cases typed
      simp
  | @cons field type leading types fieldTyped restTyped ih =>
      cases typed with
      | @cons other _ fields _ otherTyped fieldsTyped =>
          simp only [List.flatMap_cons, List.append_assoc]
          rw [← List.append_assoc field.encode, ← List.append_assoc other.encode,
            record_prefix_iff (scalar type (by simp)) fieldTyped otherTyped,
            ih (fun other member => scalar other (by simp [member])) fieldsTyped, List.cons_eq_cons]

/-- A prefix tuple's key leads the key of a longer tuple of the same scalar types exactly when
the longer tuple starts with the prefix's fields. -/
theorem serializeKey_prefix_iff {types : List FieldType} (scalar : ∀ type ∈ types, type.scalar)
    {leading : List Field}
    (leadingTyped : List.Forall₂ (fun field type => field.hasType type) leading
      (types.take leading.length))
    (shorter : leading.length < types.length) {fields : List Field}
    (typed : List.Forall₂ (fun field type => field.hasType type) fields types) :
    serializeKey (leading ++ [.interfix]) <+: serializeKey fields ↔
      fields.take leading.length = leading := by
  have rest : fields.drop leading.length ≠ [] := by
    rw [Ne, List.drop_eq_nil_iff, typed.length_eq]
    omega
  rw [serializeKey_interfix, ← List.take_append_drop leading.length fields,
    serializeKey_append _ rest, List.take_append_drop,
    records_prefix_iff (fun type member => scalar type (List.mem_of_mem_take member)) leadingTyped
      (List.forall₂_take leading.length typed), eq_comm]

theorem someOpens_of_scalar {field : Field} {type : FieldType} (scalar : type.scalar)
    (typed : field.hasType type) : field.someOpens := by
  cases field with
  | some value => cases type <;> simp [Field.hasType, FieldType.scalar] at typed scalar
  | _ => rfl

theorem bounded_of_scalar {type : FieldType} (scalar : type.scalar) : type.bounded := by
  cases type <;> simp [FieldType.scalar, FieldType.bounded] at scalar ⊢

/-- Scalar fields read back from their key. -/
theorem fromSlice_serializeKey_of_scalar {types : List FieldType}
    (scalar : ∀ type ∈ types, type.scalar) {fields : List Field}
    (typed : List.Forall₂ (fun field type => field.hasType type) fields types) :
    fromSlice types (serializeKey fields) = .ok fields := by
  have opens : List.Forall₂ (fun field type => field.hasType type ∧ field.someOpens) fields
      types := by
    induction typed with
    | nil => exact .nil
    | @cons field type fields types hasType _ ih =>
        exact .cons ⟨hasType, someOpens_of_scalar (scalar type (by simp)) hasType⟩
          (ih fun other member => scalar other (by simp [member]))
  rw [fromSlice, serializeKey, deserializeTuple_serializeToVec opens fun type member =>
    bounded_of_scalar (scalar type (List.mem_of_mem_dropLast member))]
  rfl

/-- Over fields of matching scalar types, a prefix tuple's key (ending in `Interfix`) leads the
key of a longer tuple exactly when the tuple starts with the prefix's fields; so
`stream_prefix_raw` over a column of such keys returns, in key order, exactly the entries whose
keys read back to fields starting with the prefix's. -/
theorem serialize_key_prefix_scan (types : List FieldType) (scalar : ∀ type ∈ types, type.scalar)
    (leading : List Field)
    (leadingTyped : List.Forall₂ (fun field type => field.hasType type) leading
      (types.take leading.length))
    (shorter : leading.length < types.length) :
    (∀ fields, List.Forall₂ (fun field type => field.hasType type) fields types →
      (serializeKey (leading ++ [.interfix]) <+: serializeKey fields ↔
        fields.take leading.length = leading)) ∧
      ∀ map : Map, (∀ entry ∈ map.entries, ∃ fields,
          List.Forall₂ (fun field type => field.hasType type) fields types ∧
            entry.1 = serializeKey fields) →
        map.streamPrefixRaw (leading ++ [.interfix]) =
            map.entries.filter (fun entry => leadsWith types leading entry.1) ∧
          (map.streamPrefixRaw (leading ++ [.interfix])).Pairwise
            fun entry other => entry.1 < other.1 := by
  refine ⟨fun fields typed => serializeKey_prefix_iff scalar leadingTyped shorter typed, ?_⟩
  intro map keys
  have scan : map.streamPrefixRaw (leading ++ [.interfix]) = map.entries.filter
      fun entry => (serializeKey (leading ++ [.interfix])).isPrefixOf entry.1 :=
    PrefixScan.takeWhile_dropWhile_eq_filter Prod.fst _ map.ascending
  -- on every key of the column, starting with the prefix's bytes is starting with its fields
  have agree : ∀ entry ∈ map.entries,
      (serializeKey (leading ++ [.interfix])).isPrefixOf entry.1 = leadsWith types leading entry.1 := by
    intro entry member
    obtain ⟨fields, typed, key⟩ := keys entry member
    rw [key, leadsWith, fromSlice_serializeKey_of_scalar scalar typed, Bool.eq_iff_iff,
      List.isPrefixOf_iff_prefix, serializeKey_prefix_iff scalar leadingTyped shorter typed]
    simp
  rw [scan, List.filter_congr agree]
  exact ⟨rfl, map.ascending.filter _⟩

/-- The event id `$evt:example.com` of the source's backoff-record test. -/
def sampleEventId : Utf8.Str :=
  ⟨[0x24, 0x65, 0x76, 0x74, 0x3A, 0x65, 0x78, 0x61, 0x6D, 0x70, 0x6C, 0x65, 0x2E, 0x63, 0x6F,
    0x6D], by decide⟩

/-- The longer id `$evt:example.computer`, which shares its bytes with `sampleEventId`. -/
def longerEventId : Utf8.Str :=
  ⟨[0x24, 0x65, 0x76, 0x74, 0x3A, 0x65, 0x78, 0x61, 0x6D, 0x70, 0x6C, 0x65, 0x2E, 0x63, 0x6F,
    0x6D, 0x70, 0x75, 0x74, 0x65, 0x72], by decide⟩

theorem serialize_key_prefix_scan_eventId :
    (∀ type ∈ [FieldType.str, .u64], type.scalar) ∧
      List.Forall₂ (fun field type => field.hasType type) [Field.str sampleEventId]
        ([FieldType.str, .u64].take 1) ∧
      [Field.str sampleEventId].length < [FieldType.str, .u64].length ∧
      ((∀ fields, List.Forall₂ (fun field type => field.hasType type) fields [.str, .u64] →
        (serializeKey ([Field.str sampleEventId] ++ [.interfix]) <+: serializeKey fields ↔
          fields.take 1 = [Field.str sampleEventId])) ∧
        ∀ map : Map, (∀ entry ∈ map.entries, ∃ fields,
            List.Forall₂ (fun field type => field.hasType type) fields [.str, .u64] ∧
              entry.1 = serializeKey fields) →
          map.streamPrefixRaw ([Field.str sampleEventId] ++ [.interfix]) =
              map.entries.filter (fun entry =>
                leadsWith [.str, .u64] [Field.str sampleEventId] entry.1) ∧
            (map.streamPrefixRaw ([Field.str sampleEventId] ++ [.interfix])).Pairwise
              fun entry other => entry.1 < other.1) :=
  ⟨by decide, by decide, by decide,
    serialize_key_prefix_scan [.str, .u64] (by decide) [.str sampleEventId] (by decide) (by decide)⟩

/-- The trailing separator keeps the longer id out of the scan. -/
example : (serializeKey [.str sampleEventId, .interfix]).isPrefixOf
    (serializeKey [.str longerEventId, .u64 7]) = false := by
  decide

end Database
end Tuwunel
