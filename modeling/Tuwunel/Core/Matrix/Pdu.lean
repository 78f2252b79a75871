import Tuwunel.Library.BigEndian
import Tuwunel.Core.Numbers

/-!
# PDU keys

A PDU is stored under its room's shortroomid and its `Count`.  `RawId::from(Id)` packs them: the
room's eight bytes and then the count's, with an eight-byte zero marker between them when the
count is backfilled.  `Id::from(RawId)` unpacks the two words and classifies the count by the
sign of its bits, so the variant is not read from the layout.

`Count::cmp` compares signed values, where `Normal(0)` and `Backfilled(0)` are both zero, while
`Eq` is derived per variant.  Away from zero the key is an order embedding of the count and
decodes back to it (`pdu_id_order_embedding`); zero breaks both
(`pdu_id_zero_count_breaks`).
-/

namespace Tuwunel
namespace Pdu

open BigEndian

/-- `ShortRoomId`, the `u64` standing for a room. -/
abbrev ShortRoomId := Nat

/-- `Direction` of a scan. -/
inductive Direction
  | forward
  | backward
  deriving DecidableEq, Repr

/-- `Count`: where a PDU sits in its room's timeline. -/
inductive Count
  | normal (count : Nat)
  | backfilled (count : Int)
  deriving DecidableEq, Repr

namespace Count

/-- `Count::from_signed`. -/
def fromSigned (signed : Int) : Count :=
  if signed ≤ 0 then backfilled signed else normal signed.toNat

/-- `Count::from_unsigned`. -/
def fromUnsigned (unsigned : Nat) : Count := fromSigned (asI64 unsigned)

/-- `Count::into_unsigned`. -/
def intoUnsigned : Count → Nat
  | normal count => count
  | backfilled count => asU64 count

/-- `Count::into_signed`. -/
def intoSigned : Count → Int
  | normal count => asI64 count
  | backfilled count => count

/-- `impl Ord for Count`. -/
def cmp (count other : Count) : Ordering := compare count.intoSigned other.intoSigned

/-- `Count::saturating_add`: within the variant, saturating at its integer's bounds. -/
def saturatingAdd (count : Count) (add : Nat) : Count :=
  match count with
  | normal count => normal (Tuwunel.saturatingAdd count add)
  | backfilled count => backfilled (saturatingAddI64 count (asI64 add))

/-- `Count::saturating_sub`. -/
def saturatingSub (count : Count) (sub : Nat) : Count :=
  match count with
  | normal count => normal (count - sub)
  | backfilled count => backfilled (saturatingSubI64 count (asI64 sub))

/-- `Count::saturating_inc`: one step in the direction of a scan. -/
def saturatingInc (count : Count) : Direction → Count
  | .forward => count.saturatingAdd 1
  | .backward => count.saturatingSub 1

/-- `impl Default for Count`. -/
instance : Inhabited Count := ⟨normal 0⟩

/-- `Count::min`. -/
def min : Count := backfilled i64Min

/-- `Count::max`. -/
def max : Count := normal i64Max

/-- The documented ranges: `Normal` up to `i64::MAX`, `Backfilled` from `i64::MIN` to zero. -/
def Valid : Count → Prop
  | normal count => count ≤ i64Max
  | backfilled count => i64Min ≤ count ∧ count ≤ 0

instance : DecidablePred Valid := fun count =>
  match count with
  | normal _ => inferInstanceAs (Decidable (_ ≤ _))
  | backfilled _ => inferInstanceAs (Decidable (_ ∧ _))

end Count

/-- `Id`: a PDU's room and count. -/
structure Id where
  shortroomid : ShortRoomId
  count : Count
  deriving DecidableEq, Repr

/-- `RawId`: the packed key, sixteen bytes for a normal count and twenty-four for a backfilled
one. -/
inductive RawId
  | normal (raw : List UInt8)
  | backfilled (raw : List UInt8)
  deriving DecidableEq

namespace RawId

/-- `RawId::as_bytes`. -/
def asBytes : RawId → List UInt8
  | normal raw => raw
  | backfilled raw => raw

/-- `RawId::shortroomid`: the first word. -/
def shortroomid : RawId → List UInt8
  | normal raw => raw.take 8
  | backfilled raw => raw.take 8

/-- `RawId::count`: the second word, or the third behind the marker. -/
def count : RawId → List UInt8
  | normal raw => (raw.drop 8).take 8
  | backfilled raw => (raw.drop 16).take 8

/-- `From<Id> for RawId`. -/
def ofId (id : Id) : RawId :=
  match id.count with
  | .normal count => normal (toBeBytes 8 id.shortroomid ++ toBeBytes 8 count)
  | .backfilled count =>
      backfilled (toBeBytes 8 id.shortroomid ++ toBeBytes 8 0 ++ toBeBytes 8 (asU64 count))

end RawId

/-- `From<RawId> for Id`. -/
def Id.ofRawId (raw : RawId) : Id :=
  ⟨fromBeBytes raw.shortroomid, .fromUnsigned (fromBeBytes raw.count)⟩

/-- `RawId::pdu_count`. -/
def RawId.pduCount (raw : RawId) : Count := (Id.ofRawId raw).count

/-! ## Counts and their bits -/

namespace Count

theorem fromSigned_of_pos {signed : Int} (positive : 0 < signed) :
    fromSigned signed = normal signed.toNat := by
  rw [fromSigned, if_neg (by omega)]

theorem fromSigned_of_nonpos {signed : Int} (nonpos : signed ≤ 0) :
    fromSigned signed = backfilled signed := by
  rw [fromSigned, if_pos nonpos]

theorem intoSigned_normal {count : Nat} (valid : (normal count).Valid) :
    (normal count).intoSigned = count :=
  asI64_of_le valid

theorem Valid.intoUnsigned_lt {count : Count} (valid : count.Valid) :
    count.intoUnsigned < 2 ^ 64 := by
  cases count with
  | normal count =>
      have fits : count ≤ i64Max := valid
      unfold i64Max at fits
      simp only [intoUnsigned]
      omega
  | backfilled count => exact asU64_lt count

/-- A valid count away from zero comes back from its bits. -/
theorem fromUnsigned_intoUnsigned {count : Count} (valid : count.Valid)
    (nonzero : count.intoSigned ≠ 0) : fromUnsigned count.intoUnsigned = count := by
  cases count with
  | normal count =>
      have signed : asI64 count = count := asI64_of_le valid
      rw [intoSigned, signed] at nonzero
      rw [intoUnsigned, fromUnsigned, signed, fromSigned_of_pos (by omega), Int.toNat_natCast]
  | backfilled count =>
      obtain ⟨low, nonpos⟩ := valid
      have negative : count < 0 := by
        simp only [intoSigned] at nonzero
        omega
      have bits := asU64_of_neg low negative
      have above : i64Max < asU64 count := by
        unfold i64Max
        unfold i64Min at low
        omega
      have signed : asI64 (asU64 count) = count := by
        rw [asI64_of_gt above (asU64_lt count), bits]
        ring
      rw [intoUnsigned, fromUnsigned, signed, fromSigned_of_nonpos nonpos]

theorem intoSigned_pos {count : Nat} (valid : (normal count).Valid)
    (nonzero : (normal count).intoSigned ≠ 0) : 0 < (normal count).intoSigned := by
  rw [intoSigned_normal valid] at nonzero ⊢
  omega

theorem intoSigned_neg {count : Int} (valid : (backfilled count).Valid)
    (nonzero : (backfilled count).intoSigned ≠ 0) : (backfilled count).intoSigned < 0 :=
  lt_of_le_of_ne valid.2 nonzero

/-- On valid counts away from zero the signed value tells the counts apart: `Normal` ones are
positive and `Backfilled` ones negative. -/
theorem intoSigned_inj {count other : Count} (valid : count.Valid) (valid' : other.Valid)
    (nonzero : count.intoSigned ≠ 0) (nonzero' : other.intoSigned ≠ 0) :
    count.intoSigned = other.intoSigned ↔ count = other := by
  constructor
  · intro same
    cases count with
    | normal count =>
        cases other with
        | normal other =>
            rw [intoSigned_normal valid, intoSigned_normal valid'] at same
            rw [Int.ofNat_inj.mp same]
        | backfilled other =>
            have positive := intoSigned_pos valid nonzero
            have negative := intoSigned_neg valid' nonzero'
            omega
    | backfilled count =>
        cases other with
        | normal other =>
            have negative := intoSigned_neg valid nonzero
            have positive := intoSigned_pos valid' nonzero'
            omega
        | backfilled other =>
            simp only [intoSigned] at same
            rw [same]
  · rintro rfl
    rfl

/-- The bytes of a key after the room's word: the count's word, behind the zero marker when the
count is backfilled. -/
def keySuffix : Count → List UInt8
  | normal count => toBeBytes 8 count
  | backfilled count => toBeBytes 8 0 ++ toBeBytes 8 (asU64 count)

/-- The zero marker sorts a backfilled count before every positive normal one. -/
theorem keySuffix_backfilled_lt {count : Nat} (positive : 0 < count) (fits : count < 256 ^ 8)
    (signed : Int) : (backfilled signed).keySuffix < (normal count).keySuffix := by
  have marker : toBeBytes 8 0 < toBeBytes 8 count :=
    (toBeBytes_lt_toBeBytes_iff (by norm_num) fits).mpr positive
  have ordered := append_lt_append_of_lt marker (by simp) (toBeBytes 8 (asU64 signed)) []
  rwa [List.append_nil] at ordered

/-- Away from zero, byte order on what follows the room's word is the signed order. -/
theorem keySuffix_lt_keySuffix_iff {count other : Count} (valid : count.Valid)
    (valid' : other.Valid) (nonzero : count.intoSigned ≠ 0) (nonzero' : other.intoSigned ≠ 0) :
    count.keySuffix < other.keySuffix ↔ count.intoSigned < other.intoSigned := by
  cases count with
  | normal count =>
      rw [intoSigned_normal valid] at nonzero ⊢
      have fits : count < 2 ^ 64 := valid.intoUnsigned_lt
      cases other with
      | normal other =>
          rw [intoSigned_normal valid']
          simp only [keySuffix]
          rw [toBeBytes_lt_toBeBytes_iff fits valid'.intoUnsigned_lt]
          omega
      | backfilled other =>
          -- a positive count against a negative one: neither order holds
          have negative : other < 0 := by
            simp only [intoSigned] at nonzero'
            exact lt_of_le_of_ne valid'.2 nonzero'
          have ordered := keySuffix_backfilled_lt (by omega) fits other
          simp only [intoSigned]
          constructor
          · intro lower
            exact absurd ordered (List.lt_asymm lower)
          · intro lower
            omega
  | backfilled count =>
      have negative : count < 0 := lt_of_le_of_ne valid.2 nonzero
      cases other with
      | normal other =>
          rw [intoSigned_normal valid'] at nonzero' ⊢
          have fits : other < 2 ^ 64 := valid'.intoUnsigned_lt
          have ordered := keySuffix_backfilled_lt (by omega) fits count
          simp only [intoSigned]
          constructor
          · intro _
            omega
          · intro _
            exact ordered
      | backfilled other =>
          have negative' : other < 0 := lt_of_le_of_ne valid'.2 nonzero'
          have bits := asU64_of_neg valid.1 negative
          have bits' := asU64_of_neg valid'.1 negative'
          simp only [keySuffix, intoSigned]
          rw [append_lt_append_iff, toBeBytes_lt_toBeBytes_iff (asU64_lt count) (asU64_lt other)]
          omega

/-! ## One step of a scan -/

theorem saturatingInc_forward_normal {count : Nat} (valid : (normal count).Valid) :
    (normal count).saturatingInc .forward = normal (count + 1) := by
  have fits : count + 1 ≤ u64Max := by
    have below : count ≤ i64Max := valid
    unfold i64Max at below
    unfold u64Max
    omega
  rw [saturatingInc, saturatingAdd, Tuwunel.saturatingAdd_of_le fits]

/-- A backfilled count steps forward within its variant, from `Backfilled(0)` to `Backfilled(1)`
too. -/
theorem saturatingInc_forward_backfilled {count : Int} (valid : (backfilled count).Valid) :
    (backfilled count).saturatingInc .forward = backfilled (count + 1) := by
  obtain ⟨low, nonpos⟩ := valid
  rw [saturatingInc, saturatingAdd, asI64_of_le (by unfold i64Max; norm_num)]
  unfold saturatingAddI64
  unfold i64Min at low ⊢
  unfold i64Max
  congr 1
  omega

@[simp] theorem saturatingInc_backward_normal (count : Nat) :
    (normal count).saturatingInc .backward = normal (count - 1) := rfl

theorem saturatingInc_backward_backfilled {count : Int} (valid : (backfilled count).Valid)
    (above : i64Min < count) :
    (backfilled count).saturatingInc .backward = backfilled (count - 1) := by
  have nonpos : count ≤ 0 := valid.2
  rw [saturatingInc, saturatingSub, asI64_of_le (by unfold i64Max; norm_num)]
  unfold saturatingSubI64
  unfold i64Min at above ⊢
  unfold i64Max
  congr 1
  omega

/-- Forward from a count off the zero crossing, the seek suffix is the first above `count`. -/
theorem not_keySuffix_lt_saturatingInc_forward {count other : Count} (valid : count.Valid)
    (notMinusOne : count ≠ backfilled (-1)) (notZero : count ≠ backfilled 0)
    (valid' : other.Valid) (nonzero' : other.intoSigned ≠ 0) :
    ¬ other.keySuffix < (count.saturatingInc .forward).keySuffix ↔
      count.intoSigned < other.intoSigned := by
  cases count with
  | normal count =>
      rw [saturatingInc_forward_normal valid, intoSigned_normal valid]
      have fits : count + 1 < 256 ^ 8 := by
        have below : count ≤ i64Max := valid
        unfold i64Max at below
        omega
      cases other with
      | normal other =>
          have fits' : other < 2 ^ 64 := valid'.intoUnsigned_lt
          rw [intoSigned_normal valid']
          simp only [keySuffix]
          rw [toBeBytes_lt_toBeBytes_iff fits' fits]
          omega
      | backfilled other =>
          -- every backfilled key sorts below a normal one, and every backfilled count too
          have lower := keySuffix_backfilled_lt (Nat.succ_pos count) fits other
          have negative := intoSigned_neg valid' nonzero'
          simp only [intoSigned] at negative ⊢
          constructor
          · intro notLower
            exact absurd lower notLower
          · intro above
            omega
  | backfilled count =>
      have minusTwo : count ≤ -2 := by
        have nonpos : count ≤ 0 := valid.2
        have notMinusOne : count ≠ -1 := by
          rintro rfl
          exact notMinusOne rfl
        have notZero : count ≠ 0 := by
          rintro rfl
          exact notZero rfl
        omega
      have valid'' : (backfilled (count + 1)).Valid := ⟨by have := valid.1; omega, by omega⟩
      have nonzero'' : (backfilled (count + 1)).intoSigned ≠ 0 := by
        simp only [intoSigned]
        omega
      rw [saturatingInc_forward_backfilled valid,
        keySuffix_lt_keySuffix_iff valid' valid'' nonzero' nonzero'']
      simp only [intoSigned]
      omega

/-- Back from a count off the zero crossing and off `Count::min`, the seek suffix is the last
below `count`. -/
theorem not_saturatingInc_backward_lt_keySuffix {count other : Count} (valid : count.Valid)
    (notZero : count ≠ normal 0) (notOne : count ≠ normal 1) (notMin : count ≠ backfilled i64Min)
    (valid' : other.Valid) (nonzero' : other.intoSigned ≠ 0) :
    ¬ (count.saturatingInc .backward).keySuffix < other.keySuffix ↔
      other.intoSigned < count.intoSigned := by
  cases count with
  | normal count =>
      have two : 2 ≤ count := by
        have notZero : count ≠ 0 := by
          rintro rfl
          exact notZero rfl
        have notOne : count ≠ 1 := by
          rintro rfl
          exact notOne rfl
        omega
      have valid'' : (normal (count - 1)).Valid := by
        have below : count ≤ i64Max := valid
        show count - 1 ≤ i64Max
        omega
      have nonzero'' : (normal (count - 1)).intoSigned ≠ 0 := by
        rw [intoSigned_normal valid'']
        omega
      rw [saturatingInc_backward_normal, keySuffix_lt_keySuffix_iff valid'' valid' nonzero'' nonzero',
        intoSigned_normal valid'', intoSigned_normal valid]
      omega
  | backfilled count =>
      have above : i64Min < count := lt_of_le_of_ne valid.1 fun same => notMin (same ▸ rfl)
      have nonpos : count ≤ 0 := valid.2
      have valid'' : (backfilled (count - 1)).Valid := ⟨by omega, by omega⟩
      have nonzero'' : (backfilled (count - 1)).intoSigned ≠ 0 := by
        simp only [intoSigned]
        omega
      rw [saturatingInc_backward_backfilled valid above,
        keySuffix_lt_keySuffix_iff valid'' valid' nonzero'' nonzero']
      simp only [intoSigned]
      omega

end Count

/-- `Count::to_be_bytes`: the bits of `into_unsigned`, which do not tell the variant. -/
def Count.toBeBytes (count : Count) : List UInt8 := BigEndian.toBeBytes 8 count.intoUnsigned

/-! ## Keys -/

namespace RawId

theorem asBytes_ofId (id : Id) :
    (ofId id).asBytes = toBeBytes 8 id.shortroomid ++ id.count.keySuffix := by
  obtain ⟨shortroomid, count⟩ := id
  cases count <;> simp [ofId, asBytes, Count.keySuffix]

theorem shortroomid_ofId (id : Id) : (ofId id).shortroomid = toBeBytes 8 id.shortroomid := by
  obtain ⟨shortroomid, count⟩ := id
  cases count <;> simp [ofId, RawId.shortroomid, List.take_left']

theorem count_ofId (id : Id) : (ofId id).count = toBeBytes 8 id.count.intoUnsigned := by
  obtain ⟨shortroomid, count⟩ := id
  cases count with
  | normal count =>
      simp only [ofId, RawId.count, Count.intoUnsigned]
      rw [List.drop_left' (length_toBeBytes 8 _), List.take_of_length_le (by simp)]
  | backfilled count =>
      simp only [ofId, RawId.count, Count.intoUnsigned]
      rw [List.drop_left' (by simp), List.take_of_length_le (by simp)]

/-- Keys of a smaller shortroomid sort before every key of a larger one. -/
theorem asBytes_ofId_lt_of_shortroomid_lt {id other : Id} (fits : other.shortroomid ≤ u64Max)
    (lower : id.shortroomid < other.shortroomid) : (ofId id).asBytes < (ofId other).asBytes := by
  have rooms : toBeBytes 8 id.shortroomid < toBeBytes 8 other.shortroomid :=
    (toBeBytes_lt_toBeBytes_iff (lower.trans (lt_of_le_u64Max fits)) (lt_of_le_u64Max fits)).mpr
      lower
  rw [asBytes_ofId, asBytes_ofId]
  exact append_lt_append_of_lt rooms (by simp) _ _

/-- A `Normal(0)` key is a prefix of every backfilled key of its room, so sorts before them all,
though `Count::cmp` puts `Normal(0)` above every backfilled count. -/
theorem asBytes_normal_zero_lt (shortroomid : ShortRoomId) (count : Int) :
    (ofId ⟨shortroomid, .normal 0⟩).asBytes < (ofId ⟨shortroomid, .backfilled count⟩).asBytes := by
  rw [asBytes_ofId, asBytes_ofId, append_lt_append_iff]
  apply lt_of_prefix_of_ne (List.prefix_append _ _)
  intro same
  have lengths := congrArg List.length same
  simp at lengths

end RawId

/-- Unpacking a key gives the room back, and the count as its bits classify it. -/
theorem Id.ofRawId_ofId (id : Id) (roomFits : id.shortroomid ≤ u64Max) (valid : id.count.Valid) :
    Id.ofRawId (RawId.ofId id) = ⟨id.shortroomid, .fromUnsigned id.count.intoUnsigned⟩ := by
  have room : id.shortroomid < 256 ^ 8 := lt_of_le_u64Max roomFits
  have count : id.count.intoUnsigned < 256 ^ 8 := valid.intoUnsigned_lt
  rw [Id.ofRawId, RawId.shortroomid_ofId, RawId.count_ofId, fromBeBytes_toBeBytes,
    fromBeBytes_toBeBytes, Nat.mod_eq_of_lt room, Nat.mod_eq_of_lt count]

/-- The count a stored key reads back is the count it was written with. -/
theorem RawId.pduCount_ofId {id : Id} (roomFits : id.shortroomid ≤ u64Max) (valid : id.count.Valid)
    (nonzero : id.count.intoSigned ≠ 0) : (RawId.ofId id).pduCount = id.count := by
  rw [RawId.pduCount, Id.ofRawId_ofId id roomFits valid, Count.fromUnsigned_intoUnsigned valid nonzero]

/-! ## The key as an order embedding -/

/-- Away from the count zero, a PDU key decodes back to its id and orders as `Count::cmp` within
a room, and `Count::cmp` is `Equal` only on equal counts; keys of a smaller room sort first,
whatever the counts. -/
theorem pdu_id_order_embedding (shortroomid : ShortRoomId) (roomFits : shortroomid ≤ u64Max)
    (count other : Count) (valid : count.Valid) (valid' : other.Valid)
    (nonzero : count.intoSigned ≠ 0) (nonzero' : other.intoSigned ≠ 0) :
    Id.ofRawId (RawId.ofId ⟨shortroomid, count⟩) = ⟨shortroomid, count⟩ ∧
      (count.cmp other = .lt ↔
        (RawId.ofId ⟨shortroomid, count⟩).asBytes < (RawId.ofId ⟨shortroomid, other⟩).asBytes) ∧
      (count.cmp other = .eq ↔ count = other) ∧
      ∀ room : ShortRoomId, room ≤ u64Max → shortroomid < room → ∀ count' other' : Count,
        (RawId.ofId ⟨shortroomid, count'⟩).asBytes < (RawId.ofId ⟨room, other'⟩).asBytes := by
  refine ⟨?_, ?_, ?_, ?_⟩
  · rw [Id.ofRawId_ofId _ roomFits valid, Count.fromUnsigned_intoUnsigned valid nonzero]
  · rw [Count.cmp, compare_lt_iff_lt, RawId.asBytes_ofId, RawId.asBytes_ofId,
      append_lt_append_iff, Count.keySuffix_lt_keySuffix_iff valid valid' nonzero nonzero']
  · rw [Count.cmp, compare_eq_iff_eq, Count.intoSigned_inj valid valid' nonzero nonzero']
  · intro room fits lower count' other'
    exact RawId.asBytes_ofId_lt_of_shortroomid_lt fits lower

theorem pdu_id_order_embedding_sample :
    (1 : ShortRoomId) ≤ u64Max ∧ (Count.normal 5).Valid ∧ (Count.backfilled (-3)).Valid ∧
      (Count.normal 5).intoSigned ≠ 0 ∧ (Count.backfilled (-3)).intoSigned ≠ 0 ∧
      (Id.ofRawId (RawId.ofId ⟨1, .normal 5⟩) = ⟨1, .normal 5⟩ ∧
        ((Count.normal 5).cmp (.backfilled (-3)) = .lt ↔
          (RawId.ofId ⟨1, .normal 5⟩).asBytes < (RawId.ofId ⟨1, .backfilled (-3)⟩).asBytes) ∧
        ((Count.normal 5).cmp (.backfilled (-3)) = .eq ↔ Count.normal 5 = .backfilled (-3)) ∧
        ∀ room : ShortRoomId, room ≤ u64Max → 1 < room → ∀ count' other' : Count,
          (RawId.ofId ⟨1, count'⟩).asBytes < (RawId.ofId ⟨room, other'⟩).asBytes) :=
  ⟨by decide, by decide, by decide, by decide, by decide,
    pdu_id_order_embedding 1 (by decide) (.normal 5) (.backfilled (-3)) (by decide) (by decide)
      (by decide) (by decide)⟩

/-- At zero, in any room: `Normal(0)` decodes as `Backfilled(0)`, `Backfilled(-1)` is below
`Normal(0)` under `Count::cmp` but above it in bytes, and `Count::cmp` calls the two zeros equal. -/
theorem pdu_id_zero_count_breaks :
    (Count.normal 0).Valid ∧ (Count.backfilled (-1)).Valid ∧ (Count.backfilled 0).Valid ∧
      Id.ofRawId (RawId.ofId ⟨1, .normal 0⟩) = ⟨1, .backfilled 0⟩ ∧
      Count.cmp (.backfilled (-1)) (.normal 0) = .lt ∧
      (RawId.ofId ⟨1, .normal 0⟩).asBytes < (RawId.ofId ⟨1, .backfilled (-1)⟩).asBytes ∧
      Count.cmp (.normal 0) (.backfilled 0) = .eq ∧ Count.normal 0 ≠ .backfilled 0 :=
  ⟨by decide, by decide, by decide, by decide, by decide, RawId.asBytes_normal_zero_lt 1 (-1),
    by decide, by decide⟩

end Pdu
end Tuwunel
