import Mathlib

/-!
# Prefix scans over sorted keys

A sorted store answers a prefix query by seeking to the first key not below the prefix and
reading on while the keys extend it.  On keys in strictly ascending lexicographic order this
returns exactly the keys that extend the prefix, in order (`takeWhile_dropWhile_eq_filter`):
a key extending the prefix is not below it, and a key between the prefix and a key extending it
extends it too (`prefix_of_between`).

The second half compares keys made of records: records of a fixed width, or records closed by a
separator they never contain, are matched record by record (`append_prefix_append_iff`,
`append_cons_prefix_append_cons_iff`).
-/

namespace PrefixScan

section Order

variable {α : Type*} [LT α]

/-- A key that is not below a prefix, and is below a key extending the prefix, extends it. -/
theorem prefix_of_between {key : List α} :
    ∀ {leading longer : List α}, ¬ key < leading → key < longer → leading <+: longer →
      leading <+: key
  | [], _, _, _, _ => List.nil_prefix
  | first :: leading, longer, above, below, extended => by
      obtain ⟨rest, rfl⟩ := extended
      cases key with
      | nil => exact absurd (List.nil_lt_cons _ _) above
      | cons byte key =>
          rw [List.cons_append, List.cons_lt_cons_iff] at below
          rw [List.cons_lt_cons_iff, not_or, not_and] at above
          rcases below with lower | ⟨rfl, lower⟩
          · exact absurd lower above.1
          · exact List.cons_prefix_cons.mpr
              ⟨rfl, prefix_of_between (above.2 rfl) lower (List.prefix_append _ _)⟩

/-- A key below a prefix is below every key extending it. -/
theorem lt_extension_of_lt {key : List α} :
    ∀ {leading start : List α}, key < leading → leading <+: start → key < start
  | [], _, below, _ => absurd below (List.not_lt_nil _)
  | first :: leading, start, below, extended => by
      obtain ⟨rest, rfl⟩ := extended
      cases key with
      | nil => exact List.nil_lt_cons _ _
      | cons byte key =>
          rw [List.cons_lt_cons_iff] at below
          rw [List.cons_append, List.cons_lt_cons_iff]
          rcases below with lower | ⟨rfl, lower⟩
          · exact Or.inl lower
          · exact Or.inr ⟨rfl, lt_extension_of_lt lower (List.prefix_append _ _)⟩

variable [DecidableEq α] [Std.Irrefl (α := α) (· < ·)] [Trans (α := α) (· < ·) (· < ·) (· < ·)]
variable {β : Type*} (key : β → List α) [DecidableRel (α := List α) (· < ·)]

/-- Seeking to `leading` and reading while the keys extend it, over keys in ascending order,
returns the entries whose keys extend it. -/
theorem takeWhile_dropWhile_eq_filter (leading : List α) {entries : List β}
    (ascending : entries.Pairwise fun entry other => key entry < key other) :
    (entries.dropWhile fun entry => decide (key entry < leading)).takeWhile
        (fun entry => leading.isPrefixOf (key entry)) =
      entries.filter fun entry => leading.isPrefixOf (key entry) := by
  induction entries with
  | nil => rfl
  | cons entry entries ih =>
      obtain ⟨later, ascending⟩ := List.pairwise_cons.mp ascending
      by_cases below : key entry < leading
      · -- a key below the prefix does not extend it
        have outside : ¬ leading <+: key entry := fun extended => extended.le below
        simp [below, outside, ih ascending]
      · -- from here on no key is below the prefix
        have rest : (entries.dropWhile fun entry => decide (key entry < leading)) = entries := by
          cases entries with
          | nil => rfl
          | cons next entries =>
              have above : ¬ key next < leading := fun lower =>
                below (List.lt_trans (later next (by simp)) lower)
              exact List.dropWhile_cons_of_neg (by simpa using above)
        rw [rest] at ih
        by_cases extended : leading <+: key entry
        · simp [below, extended, ih ascending]
        · -- a key that stops the scan is below every later key, which cannot extend the prefix
          have none : ∀ other ∈ entries, ¬ leading <+: key other := fun other member longer =>
            extended (prefix_of_between below (later other member) longer)
          have dropped : entries.filter (fun entry => leading.isPrefixOf (key entry)) = [] :=
            List.filter_eq_nil_iff.mpr fun other member => by simpa using none other member
          simp [below, extended, dropped]

end Order

/-- Reading on while a test holds returns every entry that passes it, when no entry passes it
after one that fails it: a scan that stops at a bound on sorted entries. -/
theorem takeWhile_eq_filter_of_pairwise {β : Type*} {passes : β → Bool} {entries : List β}
    (closed : entries.Pairwise fun entry later => passes later → passes entry) :
    entries.takeWhile passes = entries.filter passes := by
  induction entries with
  | nil => rfl
  | cons entry entries ih =>
      obtain ⟨later, closed⟩ := List.pairwise_cons.mp closed
      by_cases first : passes entry
      · simp [first, ih closed]
      · -- the scan stops here, and nothing after the entry passes
        have none : entries.filter passes = [] :=
          List.filter_eq_nil_iff.mpr fun other member passed => first (later other member passed)
        simp [first, none]

/-! ## Seeks from inside a prefix -/

section Seek

-- The bytes of a key have no `LinearOrder` instance; a strict order that is trichotomous is
-- what the reverse seek needs to place the key that stops it below `start`.
variable {α : Type*} [LT α] [DecidableEq α] [Std.Irrefl (α := α) (· < ·)]
  [Trans (α := α) (· < ·) (· < ·) (· < ·)] [Std.Trichotomous (α := α) (· < ·)]
variable {β : Type*} (key : β → List α) [DecidableRel (α := List α) (· < ·)]

omit [Std.Irrefl (α := α) (· < ·)] [Std.Trichotomous (α := α) (· < ·)] in
/-- Seeking to `start`, a key extending `leading`, and reading on while the keys extend
`leading`, over keys in ascending order, returns the entries from `start` on that extend it. -/
theorem takeWhile_dropWhile_eq_filter_from {leading start : List α}
    (extended : leading <+: start) {entries : List β}
    (ascending : entries.Pairwise fun entry other => key entry < key other) :
    (entries.dropWhile fun entry => decide (key entry < start)).takeWhile
        (fun entry => leading.isPrefixOf (key entry)) =
      entries.filter fun entry => !decide (key entry < start) && leading.isPrefixOf (key entry) := by
  induction entries with
  | nil => rfl
  | cons entry entries ih =>
      obtain ⟨later, ascending⟩ := List.pairwise_cons.mp ascending
      by_cases below : key entry < start
      · simp [below, ih ascending]
      · -- from here on no key is below the seek key
        have above : ∀ other ∈ entries, ¬ key other < start := fun other member lower =>
          below (List.lt_trans (later other member) lower)
        have rest : (entries.dropWhile fun entry => decide (key entry < start)) = entries := by
          cases entries with
          | nil => rfl
          | cons next entries => exact List.dropWhile_cons_of_neg (by simpa using above next (by simp))
        have kept : (entries.filter fun entry => !decide (key entry < start) &&
            leading.isPrefixOf (key entry)) =
              entries.filter fun entry => leading.isPrefixOf (key entry) :=
          List.filter_congr fun other member => by simp [above other member]
        rw [rest, kept] at ih
        by_cases inside : leading <+: key entry
        · simp [below, inside, kept, ih ascending]
        · -- the key that stops the scan lies above `leading`, so every later key lies above its
          -- extensions
          have notBelow : ¬ key entry < leading := fun lower =>
            below (lt_extension_of_lt lower extended)
          have none : ∀ other ∈ entries, ¬ leading <+: key other := fun other member longer =>
            inside (prefix_of_between notBelow (later other member) longer)
          have dropped : entries.filter (fun entry => !decide (key entry < start) &&
              leading.isPrefixOf (key entry)) = [] :=
            List.filter_eq_nil_iff.mpr fun other member => by simpa using fun _ => none other member
          simp [below, inside, dropped]

/-- Seeking back to `start`, a key extending `leading`, and reading on while the keys extend
`leading`, over keys in descending order, returns the entries up to `start` that extend it. -/
theorem takeWhile_dropWhile_eq_filter_from_rev {leading start : List α}
    (extended : leading <+: start) {entries : List β}
    (descending : entries.Pairwise fun entry other => key other < key entry) :
    (entries.dropWhile fun entry => decide (start < key entry)).takeWhile
        (fun entry => leading.isPrefixOf (key entry)) =
      entries.filter fun entry => !decide (start < key entry) && leading.isPrefixOf (key entry) := by
  induction entries with
  | nil => rfl
  | cons entry entries ih =>
      obtain ⟨later, descending⟩ := List.pairwise_cons.mp descending
      by_cases above : start < key entry
      · simp [above, ih descending]
      · -- from here on no key is above the seek key
        have below : ∀ other ∈ entries, ¬ start < key other := fun other member higher =>
          above (List.lt_trans higher (later other member))
        have rest : (entries.dropWhile fun entry => decide (start < key entry)) = entries := by
          cases entries with
          | nil => rfl
          | cons next entries => exact List.dropWhile_cons_of_neg (by simpa using below next (by simp))
        have kept : (entries.filter fun entry => !decide (start < key entry) &&
            leading.isPrefixOf (key entry)) =
              entries.filter fun entry => leading.isPrefixOf (key entry) :=
          List.filter_congr fun other member => by simp [below other member]
        rw [rest, kept] at ih
        by_cases inside : leading <+: key entry
        · simp [above, inside, kept, ih descending]
        · -- the key that stops the scan lies between the later keys and `start`, so a later key
          -- extending `leading` would make it extend `leading` too
          have lower : key entry < start :=
            Std.lt_of_le_of_ne above fun same => inside (same ▸ extended)
          have none : ∀ other ∈ entries, ¬ leading <+: key other := fun other member longer =>
            inside (prefix_of_between
              (fun lowest => longer.le (List.lt_trans (later other member) lowest)) lower extended)
          have dropped : entries.filter (fun entry => !decide (start < key entry) &&
              leading.isPrefixOf (key entry)) = [] :=
            List.filter_eq_nil_iff.mpr fun other member => by simpa using fun _ => none other member
          simp [above, inside, dropped]

end Seek

/-! ## Keys made of records -/

section Records

variable {α : Type*}

/-- Records of one width are matched first, whatever follows them. -/
theorem append_prefix_append_iff {front front' back back' : List α}
    (sameLength : front.length = front'.length) :
    front ++ back <+: front' ++ back' ↔ front = front' ∧ back <+: back' := by
  constructor
  · intro extended
    have same : front = front' := by
      have taken := (extended.take front.length).eq_of_length (by simp [sameLength])
      simpa [List.take_left', sameLength] using taken
    subst same
    exact ⟨rfl, (List.prefix_append_right_inj front).mp extended⟩
  · rintro ⟨rfl, extended⟩
    exact (List.prefix_append_right_inj front).mpr extended

/-- Records closed by a separator they never contain are matched first. -/
theorem append_cons_prefix_append_cons_iff [DecidableEq α] {sep : α} {front front' back back' : List α}
    (free : sep ∉ front) (free' : sep ∉ front') :
    front ++ sep :: back <+: front' ++ sep :: back' ↔ front = front' ∧ back <+: back' := by
  constructor
  · intro extended
    -- the first separator sits at the record's length on both sides
    have sameLength : front.length = front'.length := by
      rcases Nat.lt_trichotomy front.length front'.length with shorter | same | longer
      · have mismatch := extended.getElem (show front.length < (front ++ sep :: back).length by simp)
        simp [List.getElem_append_right, List.getElem_append_left shorter] at mismatch
        exact absurd (mismatch ▸ List.getElem_mem shorter) free'
      · exact same
      · have mismatch := extended.getElem
          (show front'.length < (front ++ sep :: back).length by simp; omega)
        simp [List.getElem_append_right, List.getElem_append_left longer] at mismatch
        exact absurd (mismatch.symm ▸ List.getElem_mem longer) free
    have matched := (append_prefix_append_iff sameLength).mp extended
    exact ⟨matched.1, List.cons_prefix_cons.mp matched.2 |>.2⟩
  · rintro ⟨rfl, extended⟩
    exact (List.prefix_append_right_inj front).mpr (List.cons_prefix_cons.mpr ⟨rfl, extended⟩)

end Records

end PrefixScan
