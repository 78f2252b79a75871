import Tuwunel.Library.PrefixScan
import Tuwunel.Core.Matrix.Pdu

/-!
# Relations

`add_relation` writes a relation between two normal counts under the sixteen-byte key of the
target's count and the relating count.  `get_relations` seeks to the target's word followed by the
bits of the token moved one step in the scan's direction, and reads on while the keys begin with
the target's word.

A scan is the filter of the target's relations by the bits of its start (`getRelations_forward`,
`getRelations_backward`).  The relating counts are normal, so their bits lie below `2 ^ 63`, and
with no token, a positive token, or a forward token of `0` or `-1` the scans are exact
(`relations_pages_exact`).  A backfilled token's bits are `2 ^ 64` plus the count: forward from
`-2` or below, and backward from `0` or below, the start lies above every relation of the target,
so the first scan yields nothing and the second everything (`relations_backfilled_token_misses`).
-/

namespace Tuwunel
namespace Relations

open BigEndian PrefixScan Pdu

/-- The key of a relation: the target's count, then the relating count. -/
def relationKey (row : Nat × Nat) : List UInt8 := toBeBytes 8 row.1 ++ toBeBytes 8 row.2

/-- `add_relation`: the relation written between two normal counts, as (target, relating);
relations with backfilled PDUs are not written. -/
def addRelation (fromCount toCount : Count) : Option (Nat × Nat) :=
  match fromCount, toCount with
  | .normal fromCount, .normal toCount => some (toCount, fromCount)
  | _, _ => none

/-- `tofrom_relation`: its relations under their keys, in ascending key order. -/
structure Column where
  rows : List (Nat × Nat)
  ascending : rows.Pairwise fun row row' => relationKey row < relationKey row'

variable {α : Type}

/-- The count a scan of `get_relations` starts from: the token moved one step in the scan's
direction, or without one `Count::max` backward and `Count::default` forward. -/
def startCount (fromCount : Option Count) (dir : Direction) : Count :=
  match fromCount, dir with
  | some fromCount, dir => fromCount.saturatingInc dir
  | none, .backward => Count.max
  | none, .forward => default

/-- What `get_relations` yields for a relating count: the count with the PDU fetched under it,
when the fetch succeeds. -/
def fetchRelated (fetch : RawId → Option α) (shortroomid : ShortRoomId) (count : Count) :
    Option (Count × α) :=
  (fetch (RawId.ofId ⟨shortroomid, count⟩)).map fun pdu => (count, pdu)

/-- `get_relations`: the relating count is read back from the key's second word. -/
def getRelations (column : Column) (fetch : RawId → Option α) (shortroomid : ShortRoomId)
    (target : Count) (fromCount : Option Count) (dir : Direction) : List (Count × α) :=
  let target := target.toBeBytes
  let start := target ++ (startCount fromCount dir).toBeBytes
  let scanned := match dir with
    | .backward => column.rows.reverse.dropWhile fun row => decide (start < relationKey row)
    | .forward => column.rows.dropWhile fun row => decide (relationKey row < start)
  (scanned.takeWhile fun row => target.isPrefixOf (relationKey row)).filterMap fun row =>
    fetchRelated fetch shortroomid (.fromUnsigned (fromBeBytes (((relationKey row).drop 8).take 8)))

/-! ## Scans are filters by the start's bits -/

/-- The relations `add_relation` writes from valid counts: a target in the normal range and a
relating count from one on. -/
def Stored (row : Nat × Nat) : Prop := row.1 ≤ i64Max ∧ 1 ≤ row.2 ∧ row.2 ≤ i64Max

instance : DecidablePred Stored := fun _ => inferInstanceAs (Decidable (_ ∧ _ ∧ _))

theorem stored_of_addRelation {fromCount toCount : Count} {row : Nat × Nat}
    (valid : fromCount.Valid) (valid' : toCount.Valid) (positive : 0 < fromCount.intoSigned)
    (written : addRelation fromCount toCount = some row) : Stored row := by
  cases fromCount with
  | backfilled => simp [addRelation] at written
  | normal fromCount =>
      cases toCount with
      | backfilled => simp [addRelation] at written
      | normal toCount =>
          simp only [addRelation, Option.some.injEq] at written
          subst written
          rw [Count.intoSigned_normal valid] at positive
          exact ⟨valid', by omega, valid⟩

theorem i64Max_lt_word : i64Max < 256 ^ 8 := by
  decide

/-- A stored key reads back as its relating count. -/
theorem fromUnsigned_relationKey {row : Nat × Nat} (stored : Stored row) :
    Count.fromUnsigned (fromBeBytes (((relationKey row).drop 8).take 8)) = .normal row.2 := by
  obtain ⟨_, positive, fits⟩ := stored
  have read : fromBeBytes (((relationKey row).drop 8).take 8) = row.2 := by
    rw [relationKey, List.drop_left' (length_toBeBytes 8 _),
      List.take_of_length_le (by simp [length_toBeBytes]), fromBeBytes_toBeBytes,
      Nat.mod_eq_of_lt (lt_of_le_of_lt fits i64Max_lt_word)]
  have nonzero : (Count.normal row.2).intoSigned ≠ 0 := by
    rw [Count.intoSigned_normal fits]
    omega
  rw [read]
  exact @Count.fromUnsigned_intoUnsigned (.normal row.2) fits nonzero

section Keep

variable {target bound : Nat} {row : Nat × Nat}

/-- The prefix test of a scan holds exactly on the target's relations. -/
theorem isPrefixOf_relationKey_iff (valid : target ≤ i64Max) (stored : Stored row) :
    (toBeBytes 8 target).isPrefixOf (relationKey row) ↔ row.1 = target := by
  rw [relationKey, List.isPrefixOf_iff_prefix,
    toBeBytes_prefix_toBeBytes_append_iff (lt_of_le_of_lt valid i64Max_lt_word)
      (lt_of_le_of_lt stored.1 i64Max_lt_word), eq_comm]

/-- The forward scan from `bound` keeps a stored row exactly when it is the target's and its
relating count is at least `bound`. -/
theorem forward_keeps_iff (valid : target ≤ i64Max) (stored : Stored row)
    (fits : bound < 2 ^ 64) :
    (!decide (relationKey row < toBeBytes 8 target ++ toBeBytes 8 bound) &&
        (toBeBytes 8 target).isPrefixOf (relationKey row)) =
      decide (row.1 = target ∧ bound ≤ row.2) := by
  have prefixed := isPrefixOf_relationKey_iff valid stored
  by_cases room : row.1 = target
  · have above : ¬ relationKey row < toBeBytes 8 target ++ toBeBytes 8 bound ↔ bound ≤ row.2 := by
      rw [relationKey, room, append_lt_append_iff,
        toBeBytes_lt_toBeBytes_iff (lt_of_le_of_lt stored.2.2 i64Max_lt_word) fits, Nat.not_lt]
    simp only [prefixed.mpr room, room, ← above, Bool.and_true, true_and, decide_not]
  · simp [room, Bool.eq_false_iff.mpr (mt prefixed.mp room)]

/-- The reverse scan from `bound` keeps a stored row exactly when it is the target's and its
relating count is at most `bound`. -/
theorem backward_keeps_iff (valid : target ≤ i64Max) (stored : Stored row)
    (fits : bound < 2 ^ 64) :
    (!decide (toBeBytes 8 target ++ toBeBytes 8 bound < relationKey row) &&
        (toBeBytes 8 target).isPrefixOf (relationKey row)) =
      decide (row.1 = target ∧ row.2 ≤ bound) := by
  have prefixed := isPrefixOf_relationKey_iff valid stored
  by_cases room : row.1 = target
  · have below : ¬ toBeBytes 8 target ++ toBeBytes 8 bound < relationKey row ↔ row.2 ≤ bound := by
      rw [relationKey, room, append_lt_append_iff,
        toBeBytes_lt_toBeBytes_iff fits (lt_of_le_of_lt stored.2.2 i64Max_lt_word), Nat.not_lt]
    simp only [prefixed.mpr room, room, ← below, Bool.and_true, true_and, decide_not]
  · simp [room, Bool.eq_false_iff.mpr (mt prefixed.mp room)]

end Keep

section Scan

variable (column : Column) (stored : ∀ row ∈ column.rows, Stored row) (fetch : RawId → Option α)
  (shortroomid : ShortRoomId) {target : Nat} (valid : target ≤ i64Max)

/-- What the scans yield of the target's relations, oldest first. -/
def related (rows : List (Nat × Nat)) : List (Count × α) :=
  rows.filterMap fun row => fetchRelated fetch shortroomid (.normal row.2)

include stored valid in
/-- Forward, `get_relations` yields the target's relations from the start's bits on. -/
theorem getRelations_forward {fromCount : Option Count}
    (fits : (startCount fromCount .forward).intoUnsigned < 2 ^ 64) :
    getRelations column fetch shortroomid (.normal target) fromCount .forward =
      related fetch shortroomid (column.rows.filter fun row =>
        row.1 = target ∧ (startCount fromCount .forward).intoUnsigned ≤ row.2) := by
  simp only [getRelations, Count.toBeBytes, Count.intoUnsigned.eq_1]
  rw [takeWhile_dropWhile_eq_filter_from relationKey (List.prefix_append _ _)
      column.ascending,
    List.filter_congr fun row member => forward_keeps_iff valid (stored row member) fits, related]
  apply List.filterMap_congr
  intro row member
  rw [fromUnsigned_relationKey (stored row (List.mem_of_mem_filter member))]

include stored valid in
/-- Backward, `get_relations` yields the target's relations up to the start's bits, newest
first. -/
theorem getRelations_backward {fromCount : Option Count}
    (fits : (startCount fromCount .backward).intoUnsigned < 2 ^ 64) :
    getRelations column fetch shortroomid (.normal target) fromCount .backward =
      (related fetch shortroomid (column.rows.filter fun row =>
        row.1 = target ∧ row.2 ≤ (startCount fromCount .backward).intoUnsigned)).reverse := by
  simp only [getRelations, Count.toBeBytes, Count.intoUnsigned.eq_1]
  rw [takeWhile_dropWhile_eq_filter_from_rev relationKey (List.prefix_append _ _)
      (List.pairwise_reverse.mpr column.ascending), List.filter_reverse,
    List.filter_congr fun row member => backward_keeps_iff valid (stored row member) fits, related,
    List.filterMap_reverse]
  refine congrArg List.reverse (List.filterMap_congr fun row member => ?_)
  rw [fromUnsigned_relationKey (stored row (List.mem_of_mem_filter member))]

include stored in
/-- The target's relations lie in ascending order of their relating counts. -/
theorem target_rows_ascending (target : Nat) :
    (column.rows.filter fun row => row.1 = target).Pairwise fun row row' => row.2 < row'.2 := by
  apply (column.ascending.filter _).imp_of_mem
  intro row row' member member' lower
  have fits := (stored row (List.mem_of_mem_filter member)).2.2
  have fits' := (stored row' (List.mem_of_mem_filter member')).2.2
  have room : row.1 = row'.1 := by
    have inRoom := (List.mem_filter.mp member).2
    have inRoom' := (List.mem_filter.mp member').2
    simp only [decide_eq_true_eq] at inRoom inRoom'
    rw [inRoom, inRoom']
  rwa [relationKey, relationKey, room, append_lt_append_iff,
    toBeBytes_lt_toBeBytes_iff (lt_of_le_of_lt fits i64Max_lt_word)
      (lt_of_le_of_lt fits' i64Max_lt_word)] at lower

end Scan

/-! ## Tokens -/

/-- Forward from a token of `-1` or more, the start's bits are the token plus one. -/
theorem startCount_forward_token {token : Int} (low : -1 ≤ token) (high : token ≤ i64Max) :
    ((startCount (some (Count.fromSigned token)) .forward).intoUnsigned : Int) = token + 1 := by
  unfold i64Max at high
  rcases le_or_gt token 0 with nonpos | positive
  · -- `0` and `-1` are backfilled, and step to `Backfilled(1)` and `Backfilled(0)`
    have valid : (Count.backfilled token).Valid := ⟨by unfold i64Min; omega, nonpos⟩
    simp only [startCount, Count.fromSigned_of_nonpos nonpos,
      Count.saturatingInc_forward_backfilled valid, Count.intoUnsigned]
    exact asU64_of_nonneg (by omega) (by omega)
  · have valid : (Count.normal token.toNat).Valid := by
      show token.toNat ≤ i64Max
      unfold i64Max
      omega
    simp only [startCount, Count.fromSigned_of_pos positive, Count.saturatingInc_forward_normal valid,
      Count.intoUnsigned]
    omega

/-- Backward from a positive token, the start's bits are the token minus one. -/
theorem startCount_backward_token {token : Int} (positive : 0 < token) :
    ((startCount (some (Count.fromSigned token)) .backward).intoUnsigned : Int) = token - 1 := by
  simp only [startCount, Count.fromSigned_of_pos positive, Count.saturatingInc_backward_normal,
    Count.intoUnsigned]
  omega

/-- With no token, a positive token, or a forward token of `0` or `-1`, `get_relations` yields
exactly the target's relations past the token, oldest first forward and newest first backward,
and never a relation of another target; the target's relations lie in ascending order. -/
theorem relations_pages_exact (column : Column) (stored : ∀ row ∈ column.rows, Stored row)
    (fetch : RawId → Option α) (shortroomid : ShortRoomId) {target : Nat}
    (valid : target ≤ i64Max) :
    (∀ token : Int, -1 ≤ token → token ≤ i64Max →
      getRelations column fetch shortroomid (.normal target) (some (.fromSigned token)) .forward =
        related fetch shortroomid (column.rows.filter fun row => row.1 = target ∧ token < row.2)) ∧
    getRelations column fetch shortroomid (.normal target) none .forward =
      related fetch shortroomid (column.rows.filter fun row => row.1 = target) ∧
    (∀ token : Int, 0 < token → token ≤ i64Max →
      getRelations column fetch shortroomid (.normal target) (some (.fromSigned token)) .backward =
        (related fetch shortroomid
          (column.rows.filter fun row => row.1 = target ∧ row.2 < token)).reverse) ∧
    getRelations column fetch shortroomid (.normal target) none .backward =
      (related fetch shortroomid (column.rows.filter fun row => row.1 = target)).reverse ∧
    (column.rows.filter fun row => row.1 = target).Pairwise fun row row' => row.2 < row'.2 := by
  refine ⟨?_, ?_, ?_, ?_, target_rows_ascending column stored target⟩
  · intro token low high
    have bits := startCount_forward_token low high
    unfold i64Max at high
    rw [getRelations_forward column stored fetch shortroomid valid (by omega)]
    congr 1
    refine List.filter_congr fun row _ => decide_eq_decide.mpr (and_congr_right fun _ => ?_)
    omega
  · -- without a token the scan starts at `Count::default`, below every relation
    rw [getRelations_forward column stored fetch shortroomid valid (by decide)]
    congr 1
    have bits : (startCount none .forward).intoUnsigned = 0 := rfl
    exact List.filter_congr fun row _ => by simp [bits]
  · intro token positive high
    have bits := startCount_backward_token positive
    unfold i64Max at high
    rw [getRelations_backward column stored fetch shortroomid valid (by omega)]
    congr 2
    refine List.filter_congr fun row _ => decide_eq_decide.mpr (and_congr_right fun _ => ?_)
    omega
  · -- without a token the reverse scan starts at `Count::max`, above every relation
    rw [getRelations_backward column stored fetch shortroomid valid (by decide)]
    congr 2
    refine List.filter_congr fun row member => ?_
    have below := (stored row member).2.2
    simp [startCount, Count.max, Count.intoUnsigned, below]


/-- Two relations of the target `Normal(5)` and one of `Normal(6)`. -/
def sampleRelations : Column := ⟨[(5, 3), (5, 7), (6, 2)], by decide⟩

theorem relations_pages_exact_sample :
    (∀ row ∈ sampleRelations.rows, Stored row) ∧ (5 : Nat) ≤ i64Max ∧
      ((∀ token : Int, -1 ≤ token → token ≤ i64Max →
        getRelations sampleRelations (fun _ => some ()) 1 (.normal 5) (some (.fromSigned token))
            .forward =
          related (fun _ => some ()) 1
            (sampleRelations.rows.filter fun row => row.1 = 5 ∧ token < row.2)) ∧
      getRelations sampleRelations (fun _ => some ()) 1 (.normal 5) none .forward =
        related (fun _ => some ()) 1 (sampleRelations.rows.filter fun row => row.1 = 5) ∧
      (∀ token : Int, 0 < token → token ≤ i64Max →
        getRelations sampleRelations (fun _ => some ()) 1 (.normal 5) (some (.fromSigned token))
            .backward =
          (related (fun _ => some ()) 1
            (sampleRelations.rows.filter fun row => row.1 = 5 ∧ row.2 < token)).reverse) ∧
      getRelations sampleRelations (fun _ => some ()) 1 (.normal 5) none .backward =
        (related (fun _ => some ()) 1
          (sampleRelations.rows.filter fun row => row.1 = 5)).reverse ∧
      (sampleRelations.rows.filter fun row => row.1 = 5).Pairwise fun row row' => row.2 < row'.2) :=
  ⟨by decide, by decide,
    relations_pages_exact sampleRelations (by decide) (fun _ => some ()) 1 (by decide)⟩

example : getRelations sampleRelations (fun _ => some ()) 1 (.normal 5) (some (.normal 3))
    .forward = [(.normal 7, ())] := by
  decide +kernel

/-! ## Backfilled tokens -/

/-- One relation of the target `Normal(5)`, from `Normal(7)`. -/
def singleRelation : Column := ⟨[(5, 7)], by decide⟩

/-- The tokens `-2` and `0` miss: forward from `Backfilled(-2)` nothing comes back though `7` is
above `-2`, and backward from `Backfilled(0)` the relation comes back though `7` is not below
`0`. -/
theorem relations_backfilled_token_misses :
    (∀ row ∈ singleRelation.rows, Stored row) ∧
      Count.fromSigned (-2) = .backfilled (-2) ∧ Count.fromSigned 0 = .backfilled 0 ∧
      getRelations singleRelation (fun _ => some ()) 1 (.normal 5) (some (.backfilled (-2)))
        .forward = [] ∧
      (Count.backfilled (-2)).intoSigned < (Count.normal 7).intoSigned ∧
      getRelations singleRelation (fun _ => some ()) 1 (.normal 5) (some (.backfilled 0))
        .backward = [(.normal 7, ())] ∧
      ¬ (Count.normal 7).intoSigned < (Count.backfilled 0).intoSigned :=
  ⟨by decide, by decide, by decide, by decide +kernel, by decide, by decide +kernel, by decide⟩

end Relations
end Tuwunel
