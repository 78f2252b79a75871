import Tuwunel.Library.BigEndian
import Tuwunel.Service.Rooms.StateCompressor

/-!
# The statediff row

`save_statediff` writes a diff as one value with no lengths in it: the parent's eight bytes (zero
for none), the added entries, sixteen bytes each in ascending order, and, only when something is
removed, eight zero bytes and then the removed entries.  `get_statediff` reads the parent word and
then walks sixteen-byte windows: in add mode a window that starts with eight zero bytes is the
sentinel, and the walk moves on by eight bytes and switches to removed entries.

An entry is the pair of its two words, as the model of the compressor keeps it;
`compressedBytes` is `compress_state_event`'s array and `parseCompressedStateEvent` reads a window
back.  The walk is written on the bytes from the offset `i` on, so it recurses on a shorter list.

An entry whose shortstatekey is zero would read as the sentinel, and a parent of zero reads as no
parent: away from those two values the row reads back as the diff (`get_statediff_save_statediff`).
-/

namespace Tuwunel
namespace StateCompressor

open BigEndian

/-- Both words of an entry are `u64`s. -/
def CompressedStateEvent.Fits (event : CompressedStateEvent) : Prop :=
  (ofLex event).1 ≤ u64Max ∧ (ofLex event).2 ≤ u64Max

instance (event : CompressedStateEvent) : Decidable event.Fits :=
  inferInstanceAs (Decidable (_ ∧ _))

/-- The sixteen bytes of `compress_state_event`. -/
def compressedBytes (event : CompressedStateEvent) : List UInt8 :=
  toBeBytes 8 (ofLex event).1 ++ toBeBytes 8 (ofLex event).2

/-- `parse_compressed_state_event` on a sixteen-byte window. -/
def parseCompressedStateEvent (window : List UInt8) : CompressedStateEvent :=
  compressStateEvent (fromBeBytes (window.take 8)) (fromBeBytes (window.drop 8))

/-- The `while let` loop of `get_statediff`, on the bytes from its offset on. -/
def readEntries (addMode : Bool) (added removed : CompressedState) (rest : List UInt8) :
    CompressedState × CompressedState :=
  if 16 ≤ rest.length then
    let window := rest.take 16
    if addMode ∧ (toBeBytes 8 0).isPrefixOf window then
      readEntries false added removed (rest.drop 8)
    else if addMode then
      readEntries addMode (insert (parseCompressedStateEvent window) added) removed (rest.drop 16)
    else
      readEntries addMode added (insert (parseCompressedStateEvent window) removed) (rest.drop 16)
  else (added, removed)
termination_by rest.length
decreasing_by all_goals simp only [List.length_drop]; omega

/-- `get_statediff`, on the value of the row. -/
def getStatediff (value : List UInt8) : StateDiff :=
  let parent := fromBeBytes (value.take 8)
  let (added, removed) := readEntries true ∅ ∅ (value.drop 8)
  { parent := if parent = 0 then none else some parent, added := added, removed := removed }

/-- `save_statediff`: the value written for `diff`, the sets iterated in ascending order. -/
def saveStatediff (diff : StateDiff) : List UInt8 :=
  toBeBytes 8 (diff.parent.getD 0) ++ (diff.added.sort (· ≤ ·)).flatMap compressedBytes ++
    if diff.removed.Nonempty then
      toBeBytes 8 0 ++ (diff.removed.sort (· ≤ ·)).flatMap compressedBytes
    else []

/-! ## One window at a time -/

@[simp]
theorem length_compressedBytes (event : CompressedStateEvent) :
    (compressedBytes event).length = 16 := by
  simp [compressedBytes]

theorem take_compressedBytes (event : CompressedStateEvent) (rest : List UInt8) :
    (compressedBytes event ++ rest).take 16 = compressedBytes event :=
  List.take_left' (length_compressedBytes event)

theorem drop_compressedBytes (event : CompressedStateEvent) (rest : List UInt8) :
    (compressedBytes event ++ rest).drop 16 = rest :=
  List.drop_left' (length_compressedBytes event)

theorem parseCompressedStateEvent_compressedBytes {event : CompressedStateEvent}
    (fits : event.Fits) : parseCompressedStateEvent (compressedBytes event) = event := by
  have keyBelow : (ofLex event).1 < 256 ^ 8 := lt_of_le_u64Max fits.1
  have idBelow : (ofLex event).2 < 256 ^ 8 := lt_of_le_u64Max fits.2
  simp only [parseCompressedStateEvent, compressedBytes, List.take_left' (length_toBeBytes 8 _),
    List.drop_left' (length_toBeBytes 8 _), fromBeBytes_toBeBytes, Nat.mod_eq_of_lt keyBelow,
    Nat.mod_eq_of_lt idBelow, compressStateEvent]
  rfl

/-- An entry opens with the sentinel exactly when its shortstatekey is zero. -/
theorem isPrefixOf_compressedBytes {event : CompressedStateEvent} (fits : event.Fits) :
    (toBeBytes 8 0).isPrefixOf (compressedBytes event) = decide ((ofLex event).1 = 0) := by
  have keyBelow : (ofLex event).1 < 256 ^ 8 := lt_of_le_u64Max fits.1
  rw [Bool.eq_iff_iff, List.isPrefixOf_iff_prefix, List.prefix_iff_eq_take, length_toBeBytes,
    compressedBytes, List.take_left' (length_toBeBytes 8 _), decide_eq_true_iff]
  constructor
  · intro same
    exact (toBeBytes_injective (by norm_num) keyBelow same).symm
  · intro zero
    rw [zero]

theorem readEntries_of_lt {addMode : Bool} {added removed : CompressedState} {rest : List UInt8}
    (short : rest.length < 16) : readEntries addMode added removed rest = (added, removed) := by
  rw [readEntries, if_neg (by omega)]

/-- In add mode an entry with a nonzero shortstatekey is added. -/
theorem readEntries_added (added removed : CompressedState) {event : CompressedStateEvent}
    (fits : event.Fits) (keyNonzero : (ofLex event).1 ≠ 0) (rest : List UInt8) :
    readEntries true added removed (compressedBytes event ++ rest) =
      readEntries true (insert event added) removed rest := by
  rw [readEntries, if_pos (by simp), take_compressedBytes]
  dsimp only
  rw [isPrefixOf_compressedBytes fits, drop_compressedBytes,
    parseCompressedStateEvent_compressedBytes fits]
  simp [keyNonzero]

/-- After the sentinel every entry is removed. -/
theorem readEntries_removed (added removed : CompressedState) {event : CompressedStateEvent}
    (fits : event.Fits) (rest : List UInt8) :
    readEntries false added removed (compressedBytes event ++ rest) =
      readEntries false added (insert event removed) rest := by
  rw [readEntries, if_pos (by simp), take_compressedBytes]
  dsimp only
  rw [drop_compressedBytes, parseCompressedStateEvent_compressedBytes fits]
  simp

/-- The sentinel switches to removed entries, when an entry follows it. -/
theorem readEntries_sentinel (added removed : CompressedState) {rest : List UInt8}
    (entry : 8 ≤ rest.length) :
    readEntries true added removed (toBeBytes 8 0 ++ rest) = readEntries false added removed rest := by
  have window : 16 ≤ (toBeBytes 8 0 ++ rest).length := by simp; omega
  have opens : (toBeBytes 8 0).isPrefixOf ((toBeBytes 8 0 ++ rest).take 16) := by
    rw [List.isPrefixOf_iff_prefix, List.take_append, List.take_of_length_le (by simp)]
    exact List.prefix_append _ _
  rw [readEntries, if_pos window]
  dsimp only
  rw [if_pos ⟨rfl, opens⟩, List.drop_left' (length_toBeBytes 8 0)]

/-! ## Runs of entries -/

theorem readEntries_addedRun (added removed : CompressedState) {events : List CompressedStateEvent}
    (valid : ∀ event ∈ events, event.Fits ∧ (ofLex event).1 ≠ 0) (rest : List UInt8) :
    readEntries true added removed (events.flatMap compressedBytes ++ rest) =
      readEntries true (added ∪ events.toFinset) removed rest := by
  induction events generalizing added with
  | nil => simp
  | cons event events ih =>
      obtain ⟨fits, keyNonzero⟩ := valid event (by simp)
      rw [List.flatMap_cons, List.append_assoc, readEntries_added added removed fits keyNonzero,
        ih _ fun other member => valid other (by simp [member]), List.toFinset_cons,
        Finset.union_insert, Finset.insert_union]

theorem readEntries_removedRun (added removed : CompressedState) {events : List CompressedStateEvent}
    (fits : ∀ event ∈ events, event.Fits) (rest : List UInt8) :
    readEntries false added removed (events.flatMap compressedBytes ++ rest) =
      readEntries false added (removed ∪ events.toFinset) rest := by
  induction events generalizing removed with
  | nil => simp
  | cons event events ih =>
      rw [List.flatMap_cons, List.append_assoc, readEntries_removed added removed (fits event (by simp)),
        ih _ fun other member => fits other (by simp [member]), List.toFinset_cons,
        Finset.union_insert, Finset.insert_union]

/-- The entries after the parent word read back as the two sets. -/
theorem readEntries_saveStatediff (diff : StateDiff)
    (addedValid : ∀ event ∈ diff.added, event.Fits ∧ (ofLex event).1 ≠ 0)
    (removedFit : ∀ event ∈ diff.removed, event.Fits) :
    readEntries true ∅ ∅ ((saveStatediff diff).drop 8) = (diff.added, diff.removed) := by
  have sortedAdded : ∀ event ∈ diff.added.sort (· ≤ ·), event.Fits ∧ (ofLex event).1 ≠ 0 :=
    fun event member => addedValid event ((Finset.mem_sort _).mp member)
  have sortedRemoved : ∀ event ∈ diff.removed.sort (· ≤ ·), event.Fits :=
    fun event member => removedFit event ((Finset.mem_sort _).mp member)
  rw [saveStatediff, List.append_assoc, List.drop_left' (length_toBeBytes 8 _),
    readEntries_addedRun _ _ sortedAdded, Finset.sort_toFinset, Finset.empty_union]
  split
  · -- the sentinel, then the removed entries up to the end of the row
    next nonempty =>
      obtain ⟨event, member⟩ := nonempty
      have entry : 8 ≤ ((diff.removed.sort (· ≤ ·)).flatMap compressedBytes).length := by
        have held : event ∈ diff.removed.sort (· ≤ ·) := (Finset.mem_sort _).mpr member
        obtain ⟨front, back, split⟩ := List.append_of_mem held
        simp only [split, List.flatMap_append, List.flatMap_cons, List.length_append,
          length_compressedBytes]
        omega
      rw [readEntries_sentinel _ _ entry, ← List.append_nil (List.flatMap _ _),
        readEntries_removedRun _ _ sortedRemoved, Finset.sort_toFinset, Finset.empty_union,
        readEntries_of_lt (by simp)]
  · next empty =>
      rw [Finset.not_nonempty_iff_eq_empty] at empty
      rw [readEntries_of_lt (by simp), empty]

/-! ## The row -/

theorem parentWord_saveStatediff {diff : StateDiff}
    (parentValid : ∀ parent ∈ diff.parent, parent ≠ 0 ∧ parent ≤ u64Max) :
    fromBeBytes ((saveStatediff diff).take 8) = diff.parent.getD 0 := by
  have fits : diff.parent.getD 0 < 256 ^ 8 := by
    cases parent : diff.parent with
    | none => simp
    | some parent' => exact lt_of_le_u64Max (parentValid parent' parent).2
  rw [saveStatediff, List.append_assoc, List.take_left' (length_toBeBytes 8 _),
    fromBeBytes_toBeBytes, Nat.mod_eq_of_lt fits]

/-- A statediff row reads back as the diff written, when the parent is not zero, no added entry
has a zero shortstatekey, and every word fits in a `u64`. -/
theorem get_statediff_save_statediff (diff : StateDiff)
    (parentValid : ∀ parent ∈ diff.parent, parent ≠ 0 ∧ parent ≤ u64Max)
    (addedValid : ∀ event ∈ diff.added, event.Fits ∧ (ofLex event).1 ≠ 0)
    (removedFit : ∀ event ∈ diff.removed, event.Fits) :
    getStatediff (saveStatediff diff) = diff := by
  unfold getStatediff
  rw [parentWord_saveStatediff parentValid, readEntries_saveStatediff diff addedValid removedFit]
  obtain ⟨parent, added, removed⟩ := diff
  cases parent with
  | none => rfl
  | some parent => simp [(parentValid parent rfl).1]

/-- A diff with a parent, two added entries and one removed entry. -/
def sampleDiff : StateDiff :=
  ⟨some 3, {toLex (1, 7), toLex (2, 9)}, {toLex (1, 4)}⟩

theorem get_statediff_save_statediff_sampleDiff :
    (∀ parent ∈ sampleDiff.parent, parent ≠ 0 ∧ parent ≤ u64Max) ∧
      (∀ event ∈ sampleDiff.added, event.Fits ∧ (ofLex event).1 ≠ 0) ∧
      (∀ event ∈ sampleDiff.removed, event.Fits) ∧
      getStatediff (saveStatediff sampleDiff) = sampleDiff :=
  ⟨by decide, by decide, by decide,
    get_statediff_save_statediff sampleDiff (by decide) (by decide) (by decide)⟩

end StateCompressor
end Tuwunel
