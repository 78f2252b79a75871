import Tuwunel.Library.BigEndian
import Tuwunel.Library.Utf8
import Tuwunel.Core.Numbers

/-!
# The record serializer

The database's compact codec writes a flat tuple as its fields' bytes with `SEP` between them:
no type tags and no lengths.  Strings and byte slices are written as they are, integers as their
eight big-endian bytes, `None` as nothing, `Some(v)` as `v`, and the `Interfix` marker as
nothing, so that a prefix tuple ending in `Interfix` ends in a separator.

`Serializer` keeps what the source's does when the build has no debug assertions: the output and
the `sep` flag.  Each tuple element starts a record, which writes the separator once a record
has been started, and sets the flag again afterwards, so every element but the first is preceded
by exactly one separator (`serializeToVec_cons`).
-/

namespace Tuwunel
namespace Database

open BigEndian

/-- `SEP`, the record separator. -/
def SEP : UInt8 := 0xFF

/-- A field of a flat tuple, by the serializer call its `Serialize` impl makes. -/
inductive Field
  /-- `serialize_str`: a string or a Matrix identifier, by its UTF-8 bytes. -/
  | str (value : Utf8.Str)
  | u64 (value : Nat)
  | i64 (value : Int)
  /-- `serialize_bytes`: a `&[u8]`. -/
  | bytes (value : List UInt8)
  | none
  | some (value : Field)
  /-- The `Interfix` marker, through `serialize_unit_struct`. -/
  | interfix
  deriving DecidableEq

/-- `Serializer`: the bytes written so far and whether a record has been started. -/
structure Serializer where
  out : List UInt8
  sep : Bool

namespace Serializer

/-- `Serializer::write`. -/
def write (serializer : Serializer) (buf : List UInt8) : Serializer :=
  { serializer with out := serializer.out ++ buf }

/-- `Serializer::record_start`: the separator before every record but the first. -/
def recordStart (serializer : Serializer) : Serializer :=
  if serializer.sep then { serializer.write [SEP] with sep := true }
  else { serializer with sep := true }

/-- A field's `Serialize` impl run on the serializer. -/
def serializeField (serializer : Serializer) : Field → Serializer
  | .str value => { serializer.write value.1 with sep := true }
  | .u64 value => { serializer.write (toBeBytes 8 value) with sep := false }
  | .i64 value => { serializer.write (toBeBytes 8 (asU64 value)) with sep := false }
  | .bytes value => { serializer.write value with sep := true }
  | .none => serializer
  | .some value => serializer.serializeField value
  -- `set_finalized` only records the marker in debug builds
  | .interfix => serializer

/-- `SerializeTuple::serialize_element`. -/
def serializeElement (serializer : Serializer) (field : Field) : Serializer :=
  { serializer.recordStart.serializeField field with sep := true }

end Serializer

/-- `serialize_to_vec` of a tuple: `serialize_tuple` on a fresh serializer, then each element. -/
def serializeToVec (fields : List Field) : List UInt8 :=
  (fields.foldl Serializer.serializeElement ⟨[], false⟩).out

/-- `serialize_key`: the same bytes, in a key buffer. -/
def serializeKey (fields : List Field) : List UInt8 := serializeToVec fields

/-! ## The bytes of a tuple -/

/-- The bytes a field writes. -/
def Field.encode : Field → List UInt8
  | .str value => value.1
  | .u64 value => toBeBytes 8 value
  | .i64 value => toBeBytes 8 (asU64 value)
  | .bytes value => value
  | .none => []
  | .some value => value.encode
  | .interfix => []

namespace Serializer

theorem out_serializeField (serializer : Serializer) (field : Field) :
    (serializer.serializeField field).out = serializer.out ++ field.encode := by
  induction field with
  | some value ih => exact ih
  | _ => simp [serializeField, write, Field.encode]

/-- Once a record is started, each element writes a separator and then its bytes. -/
theorem foldl_serializeElement (out : List UInt8) (fields : List Field) :
    fields.foldl serializeElement ⟨out, true⟩ =
      ⟨out ++ fields.flatMap fun field => SEP :: field.encode, true⟩ := by
  induction fields generalizing out with
  | nil => simp
  | cons field fields ih =>
      rw [List.foldl_cons, serializeElement, recordStart, if_pos rfl]
      simp only [out_serializeField, write]
      rw [ih]
      simp

end Serializer

theorem serializeToVec_nil : serializeToVec [] = [] := rfl

theorem serializeToVec_cons (field : Field) (fields : List Field) :
    serializeToVec (field :: fields) =
      field.encode ++ fields.flatMap fun field => SEP :: field.encode := by
  rw [serializeToVec, List.foldl_cons]
  have first : Serializer.serializeElement ⟨[], false⟩ field = ⟨field.encode, true⟩ := by
    simp [Serializer.serializeElement, Serializer.recordStart, Serializer.out_serializeField]
  rw [first, Serializer.foldl_serializeElement]

end Database
end Tuwunel
