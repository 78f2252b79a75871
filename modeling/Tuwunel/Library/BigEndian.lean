import Mathlib

/-!
# Big-endian words

`toBeBytes width value` is the `width` low bytes of `value`, most significant first, as
`to_be_bytes` writes a fixed-width unsigned integer; `fromBeBytes` reads any byte string back as a
number.  A word of a value below `256 ^ width` reads back as the value (`fromBeBytes_toBeBytes`)
and every byte string of length `width` is such a word (`toBeBytes_fromBeBytes`).

Byte strings compare lexicographically, as a sorted key-value store orders its keys.  On words of
one width that is the order of the numbers (`toBeBytes_lt_toBeBytes_iff`); `append_lt_append_iff`
`append_lt_append_of_lt` and `lt_of_prefix_of_ne` say how keys made of several words compare.
-/

namespace BigEndian

/-- The `width` low bytes of `value`, most significant first. -/
def toBeBytes : Nat → Nat → List UInt8
  | 0, _ => []
  | width + 1, value => UInt8.ofNat (value / 256 ^ width) :: toBeBytes width value

/-- A byte string read as a big-endian number. -/
def fromBeBytes : List UInt8 → Nat
  | [] => 0
  | byte :: bytes => byte.toNat * 256 ^ bytes.length + fromBeBytes bytes

@[simp]
theorem toNat_ofNat (value : Nat) : (UInt8.ofNat value).toNat = value % 256 := by
  simp

@[simp]
theorem length_toBeBytes (width value : Nat) : (toBeBytes width value).length = width := by
  induction width with
  | zero => rfl
  | succ width ih => simp [toBeBytes, ih]

theorem fromBeBytes_lt (bytes : List UInt8) : fromBeBytes bytes < 256 ^ bytes.length := by
  induction bytes with
  | nil => simp [fromBeBytes]
  | cons byte bytes ih =>
      have digit : byte.toNat < 256 := byte.toNat_lt
      calc fromBeBytes (byte :: bytes)
          = byte.toNat * 256 ^ bytes.length + fromBeBytes bytes := rfl
        _ < byte.toNat * 256 ^ bytes.length + 256 ^ bytes.length := by omega
        _ = (byte.toNat + 1) * 256 ^ bytes.length := by ring
        _ ≤ 256 * 256 ^ bytes.length := Nat.mul_le_mul_right _ digit
        _ = 256 ^ (byte :: bytes).length := by rw [List.length_cons, pow_succ, mul_comm]

theorem fromBeBytes_append (front back : List UInt8) :
    fromBeBytes (front ++ back) = fromBeBytes front * 256 ^ back.length + fromBeBytes back := by
  induction front with
  | nil => simp [fromBeBytes]
  | cons byte front ih =>
      simp only [List.cons_append, fromBeBytes, ih, List.length_append, pow_add]
      ring

/-- Only the value modulo `256 ^ width` reaches the word. -/
theorem toBeBytes_mod (width value : Nat) :
    toBeBytes width (value % 256 ^ width) = toBeBytes width value := by
  induction width generalizing value with
  | zero => rfl
  | succ width ih =>
      have digit : value % 256 ^ (width + 1) / 256 ^ width = value / 256 ^ width % 256 := by
        rw [Nat.mod_pow_succ, Nat.add_mul_div_left _ _ (by positivity),
          Nat.div_eq_of_lt (Nat.mod_lt _ (by positivity)), zero_add]
      have lower : value % 256 ^ (width + 1) % 256 ^ width = value % 256 ^ width :=
        Nat.mod_mod_of_dvd _ (pow_dvd_pow 256 (Nat.le_succ width))
      simp only [toBeBytes, digit]
      congr 1
      · exact UInt8.toNat.inj (by simp)
      · rw [← ih (value % 256 ^ (width + 1)), lower, ih]

@[simp]
theorem fromBeBytes_toBeBytes (width value : Nat) :
    fromBeBytes (toBeBytes width value) = value % 256 ^ width := by
  induction width with
  | zero => simp [toBeBytes, fromBeBytes, Nat.mod_one]
  | succ width ih =>
      simp only [toBeBytes, fromBeBytes, length_toBeBytes, ih, toNat_ofNat]
      rw [Nat.mod_pow_succ]
      ring

theorem toBeBytes_fromBeBytes (bytes : List UInt8) :
    toBeBytes bytes.length (fromBeBytes bytes) = bytes := by
  induction bytes with
  | nil => rfl
  | cons byte bytes ih =>
      have below := fromBeBytes_lt bytes
      have digit : (byte.toNat * 256 ^ bytes.length + fromBeBytes bytes) / 256 ^ bytes.length =
          byte.toNat := by
        rw [Nat.add_comm, Nat.add_mul_div_right _ _ (by positivity), Nat.div_eq_of_lt below,
          zero_add]
      have rest : (byte.toNat * 256 ^ bytes.length + fromBeBytes bytes) % 256 ^ bytes.length =
          fromBeBytes bytes := by
        rw [Nat.mul_comm, Nat.mul_add_mod, Nat.mod_eq_of_lt below]
      simp only [List.length_cons, toBeBytes, fromBeBytes, digit, UInt8.ofNat_toNat]
      rw [← toBeBytes_mod, rest, ih]

theorem toBeBytes_injective {width first second : Nat} (firstFits : first < 256 ^ width)
    (secondFits : second < 256 ^ width) (same : toBeBytes width first = toBeBytes width second) :
    first = second := by
  have read := congrArg fromBeBytes same
  rwa [fromBeBytes_toBeBytes, fromBeBytes_toBeBytes, Nat.mod_eq_of_lt firstFits,
    Nat.mod_eq_of_lt secondFits] at read

/-- A key starts with a word exactly when its own first word is that word. -/
theorem toBeBytes_prefix_toBeBytes_append_iff {width first second : Nat}
    (firstFits : first < 256 ^ width) (secondFits : second < 256 ^ width) (rest : List UInt8) :
    toBeBytes width first <+: toBeBytes width second ++ rest ↔ first = second := by
  constructor
  · intro extended
    have taken := List.prefix_iff_eq_take.mp extended
    rw [length_toBeBytes, List.take_left' (length_toBeBytes width _)] at taken
    exact toBeBytes_injective firstFits secondFits taken
  · rintro rfl
    exact List.prefix_append _ _

/-- The top byte of a word, and the word of the value below it. -/
theorem toBeBytes_succ_mod (width value : Nat) :
    toBeBytes (width + 1) value =
      UInt8.ofNat (value / 256 ^ width) :: toBeBytes width (value % 256 ^ width) := by
  rw [toBeBytes, toBeBytes_mod]

/-- On words of one width, byte order is the order of the values. -/
theorem toBeBytes_lt_toBeBytes_iff {width first second : Nat} (firstFits : first < 256 ^ width)
    (secondFits : second < 256 ^ width) :
    toBeBytes width first < toBeBytes width second ↔ first < second := by
  induction width generalizing first second with
  | zero => simp_all
  | succ width ih =>
      -- split each value into its top digit and the rest, and compare digit first
      have positive : 0 < 256 ^ width := by positivity
      have firstTop : first / 256 ^ width < 256 := by
        rw [Nat.div_lt_iff_lt_mul positive, ← pow_succ']; exact firstFits
      have secondTop : second / 256 ^ width < 256 := by
        rw [Nat.div_lt_iff_lt_mul positive, ← pow_succ']; exact secondFits
      have digits : UInt8.ofNat (first / 256 ^ width) < UInt8.ofNat (second / 256 ^ width) ↔
          first / 256 ^ width < second / 256 ^ width := by
        rw [UInt8.lt_iff_toNat_lt, toNat_ofNat, toNat_ofNat,
          Nat.mod_eq_of_lt firstTop, Nat.mod_eq_of_lt secondTop]
      have sameDigit : UInt8.ofNat (first / 256 ^ width) = UInt8.ofNat (second / 256 ^ width) ↔
          first / 256 ^ width = second / 256 ^ width := by
        rw [← UInt8.toNat_inj, toNat_ofNat, toNat_ofNat,
          Nat.mod_eq_of_lt firstTop, Nat.mod_eq_of_lt secondTop]
      rw [toBeBytes_succ_mod width first, toBeBytes_succ_mod width second, List.cons_lt_cons_iff,
        digits, sameDigit, ih (Nat.mod_lt _ positive) (Nat.mod_lt _ positive)]
      have split := Nat.div_add_mod first (256 ^ width)
      have split' := Nat.div_add_mod second (256 ^ width)
      have firstLow := Nat.mod_lt first positive
      have secondLow := Nat.mod_lt second positive
      constructor
      · rintro (lower | ⟨same, lower⟩)
        · exact Nat.lt_of_div_lt_div lower
        · rw [← split, ← split', same]
          omega
      · intro lower
        rcases lt_trichotomy (first / 256 ^ width) (second / 256 ^ width) with top | top | top
        · exact Or.inl top
        · refine Or.inr ⟨top, ?_⟩
          rw [← split, ← split', top] at lower
          omega
        · exact absurd lower (Nat.lt_asymm (Nat.lt_of_div_lt_div top))

/-! ## Keys of several words -/

section Order

variable {α : Type*} [LT α]

theorem append_lt_append_iff [Std.Irrefl (α := α) (· < ·)] (front : List α) {left right : List α} :
    front ++ left < front ++ right ↔ left < right := by
  induction front with
  | nil => rfl
  | cons head front ih =>
      simp only [List.cons_append, List.cons_lt_cons_iff, ih, true_and, Std.Irrefl.irrefl head,
        false_or]

/-- Keys that differ within a common length compare there, whatever follows. -/
theorem append_lt_append_of_lt {front front' : List α} (lower : front < front')
    (sameLength : front.length = front'.length) (back back' : List α) :
    front ++ back < front' ++ back' := by
  induction front generalizing front' with
  | nil =>
      cases front' with
      | nil => exact absurd lower (List.not_lt_nil _)
      | cons => simp at sameLength
  | cons head front ih =>
      cases front' with
      | nil => simp at sameLength
      | cons head' front' =>
          rw [List.cons_lt_cons_iff] at lower
          rw [List.cons_append, List.cons_append, List.cons_lt_cons_iff]
          rcases lower with lower | ⟨same, lower⟩
          · exact Or.inl lower
          · exact Or.inr ⟨same, ih lower (by simpa using sameLength)⟩

/-- A key sorts before every longer key it is a prefix of. -/
theorem lt_of_prefix_of_ne {key longer : List α} (leading : key <+: longer) (ne : key ≠ longer) :
    key < longer := by
  obtain ⟨rest, rfl⟩ := leading
  cases rest with
  | nil => simp at ne
  | cons byte rest =>
      induction key with
      | nil => exact List.nil_lt_cons byte rest
      | cons head key ih =>
          rw [List.cons_append, List.cons_lt_cons_iff]
          exact Or.inr ⟨rfl, ih (by simp)⟩

end Order

end BigEndian
