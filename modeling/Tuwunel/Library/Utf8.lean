import Mathlib

/-!
# Well-formed UTF-8

The byte sequences that decode as UTF-8 (the well-formed sequences of the Unicode standard, which
excludes overlong forms, surrogates and code points past `U+10FFFF`), checked by the usual
automaton: a lead byte fixes the ranges its continuation bytes must fall in, and `validFrom`
consumes them before the next lead byte.

No byte of a well-formed sequence is `0xFF` (`ff_not_mem_of_valid`), which is what lets a
record format use that byte as a separator after strings.

The bytes `String.utf8EncodeChar` writes for a character are one sequence the automaton accepts
(`validFrom_utf8EncodeChar`), so a string's bytes are well formed (`ofString`).
-/

namespace Utf8

/-- The ranges of the continuation bytes a lead byte asks for, or `none` for a byte that cannot
start a sequence. -/
def leadRanges (lead : UInt8) : Option (List (UInt8 × UInt8)) :=
  if lead ≤ 0x7F then some []
  else if 0xC2 ≤ lead ∧ lead ≤ 0xDF then some [(0x80, 0xBF)]
  else if lead = 0xE0 then some [(0xA0, 0xBF), (0x80, 0xBF)]
  else if lead = 0xED then some [(0x80, 0x9F), (0x80, 0xBF)]
  else if 0xE1 ≤ lead ∧ lead ≤ 0xEF then some [(0x80, 0xBF), (0x80, 0xBF)]
  else if lead = 0xF0 then some [(0x90, 0xBF), (0x80, 0xBF), (0x80, 0xBF)]
  else if lead = 0xF4 then some [(0x80, 0x8F), (0x80, 0xBF), (0x80, 0xBF)]
  else if 0xF1 ≤ lead ∧ lead ≤ 0xF3 then some [(0x80, 0xBF), (0x80, 0xBF), (0x80, 0xBF)]
  else none

/-- The automaton: `pending` are the ranges the current sequence still needs. -/
def validFrom : List (UInt8 × UInt8) → List UInt8 → Bool
  | [], [] => true
  | [], lead :: rest =>
      match leadRanges lead with
      | some ranges => validFrom ranges rest
      | none => false
  | (low, high) :: pending, byte :: rest => low ≤ byte && byte ≤ high && validFrom pending rest
  | _ :: _, [] => false

/-- Well-formed UTF-8. -/
def Valid (bytes : List UInt8) : Prop := validFrom [] bytes = true

instance : DecidablePred Valid := fun _ => inferInstanceAs (Decidable (_ = _))

example : Valid [0x61, 0xC3, 0xA9] ∧ ¬ Valid [0xC0, 0x80] ∧ ¬ Valid [0xED, 0xA0, 0x80] ∧
    ¬ Valid [0xF4, 0x90, 0x80, 0x80] := by
  decide

/-- A byte string with its well-formedness, as a `&str` is. -/
abbrev Str := { bytes : List UInt8 // Valid bytes }

set_option maxRecDepth 4096 in
/-- No range a lead byte asks for reaches `0xFF`, and `0xFF` is no lead byte. -/
theorem leadRanges_bounded (lead : UInt8) :
    (leadRanges lead).all (fun ranges => lead != 0xFF && ranges.all fun range => range.2 < 0xFF) := by
  -- all 256 bytes, as the elements of `Fin 256` under the byte
  cases lead with
  | ofBitVec lead =>
      cases lead with
      | ofFin lead =>
          revert lead
          decide

theorem ff_not_mem_of_validFrom {pending : List (UInt8 × UInt8)}
    (bounded : ∀ range ∈ pending, range.2 < 0xFF) {bytes : List UInt8}
    (valid : validFrom pending bytes = true) : (0xFF : UInt8) ∉ bytes := by
  induction bytes generalizing pending with
  | nil => simp
  | cons byte rest ih =>
      cases pending with
      | nil =>
          simp only [validFrom] at valid
          split at valid
          · next ranges found =>
              have bounds := leadRanges_bounded byte
              rw [found] at bounds
              simp only [Option.all_some, Bool.and_eq_true, bne_iff_ne, List.all_eq_true,
                decide_eq_true_eq] at bounds
              rw [List.mem_cons, not_or]
              exact ⟨Ne.symm bounds.1, ih bounds.2 valid⟩
          · cases valid
      | cons range pending =>
          obtain ⟨low, high⟩ := range
          simp only [validFrom, Bool.and_eq_true, decide_eq_true_eq] at valid
          obtain ⟨⟨-, below⟩, valid⟩ := valid
          have highBound := bounded (low, high) (by simp)
          rw [List.mem_cons, not_or]
          refine ⟨fun same => ?_, ih (fun other member => bounded other (by simp [member])) valid⟩
          rw [← same] at below
          exact UInt8.lt_irrefl _ (UInt8.lt_of_le_of_lt below highBound)

theorem ff_not_mem_of_valid {bytes : List UInt8} (valid : Valid bytes) : (0xFF : UInt8) ∉ bytes :=
  ff_not_mem_of_validFrom (by simp) valid

/-! ## The encoding of a string -/


/-- A lead byte's ranges, by the value of the byte. -/
theorem leadRanges_eq (lead : UInt8) :
    leadRanges lead =
      if lead.toNat ≤ 0x7F then some []
      else if 0xC2 ≤ lead.toNat ∧ lead.toNat ≤ 0xDF then some [(0x80, 0xBF)]
      else if lead.toNat = 0xE0 then some [(0xA0, 0xBF), (0x80, 0xBF)]
      else if lead.toNat = 0xED then some [(0x80, 0x9F), (0x80, 0xBF)]
      else if 0xE1 ≤ lead.toNat ∧ lead.toNat ≤ 0xEF then some [(0x80, 0xBF), (0x80, 0xBF)]
      else if lead.toNat = 0xF0 then some [(0x90, 0xBF), (0x80, 0xBF), (0x80, 0xBF)]
      else if lead.toNat = 0xF4 then some [(0x80, 0x8F), (0x80, 0xBF), (0x80, 0xBF)]
      else if 0xF1 ≤ lead.toNat ∧ lead.toNat ≤ 0xF3 then
        some [(0x80, 0xBF), (0x80, 0xBF), (0x80, 0xBF)]
      else none := by
  simp only [leadRanges, UInt8.le_iff_toNat_le, UInt8.ext_iff]
  rfl

/-- The continuation bytes of a sequence, each in the range the lead byte asks for, take the
automaton back to its start. -/
theorem validFrom_continuations : ∀ {ranges : List (UInt8 × UInt8)} {bytes : List UInt8},
    List.Forall₂ (fun range byte => range.1 ≤ byte ∧ byte ≤ range.2) ranges bytes →
    ∀ rest, validFrom ranges (bytes ++ rest) = validFrom [] rest
  | _, _, .nil, _ => rfl
  | (_, _) :: _, _ :: _, .cons within continuing, rest => by
      simp [validFrom, within.1, within.2, validFrom_continuations continuing rest]

theorem validFrom_sequence {lead : UInt8} {ranges : List (UInt8 × UInt8)}
    (found : leadRanges lead = some ranges) {bytes : List UInt8}
    (within : List.Forall₂ (fun range byte => range.1 ≤ byte ∧ byte ≤ range.2) ranges bytes)
    (rest : List UInt8) : validFrom [] (lead :: bytes ++ rest) = validFrom [] rest := by
  rw [List.cons_append, validFrom, found]
  exact validFrom_continuations within rest

/-- A byte `String.utf8EncodeChar` writes, `n` below `0x100`, within a range. -/
theorem within_ofNat {n : Nat} (small : n < 0x100) {low high : UInt8}
    (above : low.toNat ≤ n) (below : n ≤ high.toNat) : low ≤ UInt8.ofNat n ∧ UInt8.ofNat n ≤ high := by
  simp only [UInt8.le_iff_toNat_le, UInt8.toNat_ofNat', Nat.reducePow, Nat.mod_eq_of_lt small]
  exact ⟨above, below⟩

/-- A continuation byte, `10` and six bits of the scalar value. -/
theorem within_continuation (n : Nat) :
    (0x80 : UInt8) ≤ UInt8.ofNat (n % 64 + 0x80) ∧ UInt8.ofNat (n % 64 + 0x80) ≤ 0xBF :=
  within_ofNat (by omega) (by simp) (by simp; omega)

theorem toNat_ofNat_lead {n : Nat} (small : n < 0x100) : (UInt8.ofNat n).toNat = n := by
  simp only [UInt8.toNat_ofNat', Nat.reducePow, Nat.mod_eq_of_lt small]

/-- The bytes `String.utf8EncodeChar` writes for a character take the automaton from its start
back to its start: the lead byte's class follows from the scalar value's range, and excluding the
surrogates keeps the second byte after `ED` below `A0`. -/
theorem validFrom_utf8EncodeChar (c : Char) (rest : List UInt8) :
    validFrom [] (String.utf8EncodeChar c ++ rest) = validFrom [] rest := by
  have scalar : c.val.toNat < 0xD800 ∨ (0xDFFF < c.val.toNat ∧ c.val.toNat < 0x110000) := c.valid
  unfold String.utf8EncodeChar
  generalize c.val.toNat = v at *
  dsimp only
  split_ifs with one two three
  · -- one byte: ASCII
    have found : leadRanges (UInt8.ofNat v) = some [] := by
      rw [leadRanges_eq, toNat_ofNat_lead (by omega), if_pos one]
    exact validFrom_sequence found .nil rest
  · -- two bytes: a lead in `C2`–`DF`
    have found : leadRanges (UInt8.ofNat (v / 64 % 32 + 0xC0)) = some [(0x80, 0xBF)] := by
      rw [leadRanges_eq, toNat_ofNat_lead (by omega), if_neg (by omega), if_pos (by omega)]
    exact validFrom_sequence found (.cons (within_continuation v) .nil) rest
  · -- three bytes: `E0` asks for a second byte from `A0`, `ED` for one below `A0`
    have low := within_continuation v
    rw [List.cons_append]
    by_cases e0 : v < 0x1000
    · have found : leadRanges (UInt8.ofNat (v / 4096 % 16 + 0xE0)) =
          some [(0xA0, 0xBF), (0x80, 0xBF)] := by
        rw [leadRanges_eq, toNat_ofNat_lead (by omega), if_neg (by omega), if_neg (by omega),
          if_pos (by omega)]
      exact validFrom_sequence found
        (.cons (within_ofNat (by omega) (by simp; omega) (by simp; omega)) (.cons low .nil)) rest
    by_cases ed : v / 4096 = 13
    · have found : leadRanges (UInt8.ofNat (v / 4096 % 16 + 0xE0)) =
          some [(0x80, 0x9F), (0x80, 0xBF)] := by
        rw [leadRanges_eq, toNat_ofNat_lead (by omega), if_neg (by omega), if_neg (by omega),
          if_neg (by omega), if_pos (by omega)]
      exact validFrom_sequence found
        (.cons (within_ofNat (by omega) (by simp) (by simp; omega)) (.cons low .nil)) rest
    · have found : leadRanges (UInt8.ofNat (v / 4096 % 16 + 0xE0)) =
          some [(0x80, 0xBF), (0x80, 0xBF)] := by
        rw [leadRanges_eq, toNat_ofNat_lead (by omega), if_neg (by omega), if_neg (by omega),
          if_neg (by omega), if_neg (by omega), if_pos (by omega)]
      exact validFrom_sequence found (.cons (within_continuation (v / 64)) (.cons low .nil)) rest
  · -- four bytes: `F0` asks for a second byte from `90`, `F4` for one below `90`
    have low := within_continuation v
    have middle := within_continuation (v / 64)
    rw [List.cons_append]
    by_cases f0 : v < 0x40000
    · have found : leadRanges (UInt8.ofNat (v / 262144 % 8 + 0xF0)) =
          some [(0x90, 0xBF), (0x80, 0xBF), (0x80, 0xBF)] := by
        rw [leadRanges_eq, toNat_ofNat_lead (by omega), if_neg (by omega), if_neg (by omega),
          if_neg (by omega), if_neg (by omega), if_neg (by omega), if_pos (by omega)]
      exact validFrom_sequence found
        (.cons (within_ofNat (by omega) (by simp; omega) (by simp; omega))
          (.cons middle (.cons low .nil))) rest
    by_cases f4 : 0x100000 ≤ v
    · have found : leadRanges (UInt8.ofNat (v / 262144 % 8 + 0xF0)) =
          some [(0x80, 0x8F), (0x80, 0xBF), (0x80, 0xBF)] := by
        rw [leadRanges_eq, toNat_ofNat_lead (by omega), if_neg (by omega), if_neg (by omega),
          if_neg (by omega), if_neg (by omega), if_neg (by omega), if_neg (by omega),
          if_pos (by omega)]
      exact validFrom_sequence found
        (.cons (within_ofNat (by omega) (by simp) (by simp; omega))
          (.cons middle (.cons low .nil))) rest
    · have found : leadRanges (UInt8.ofNat (v / 262144 % 8 + 0xF0)) =
          some [(0x80, 0xBF), (0x80, 0xBF), (0x80, 0xBF)] := by
        rw [leadRanges_eq, toNat_ofNat_lead (by omega), if_neg (by omega), if_neg (by omega),
          if_neg (by omega), if_neg (by omega), if_neg (by omega), if_neg (by omega),
          if_neg (by omega), if_pos (by omega)]
      exact validFrom_sequence found
        (.cons (within_continuation (v / 4096)) (.cons middle (.cons low .nil))) rest

/-- The encoding of any list of characters is well formed. -/
theorem valid_flatMap_utf8EncodeChar (chars : List Char) :
    Valid (chars.flatMap String.utf8EncodeChar) := by
  induction chars with
  | nil => rfl
  | cons c chars ih =>
      unfold Valid at ih ⊢
      rw [List.flatMap_cons, validFrom_utf8EncodeChar]
      exact ih

/-- A string's bytes, as `as_bytes` gives them. -/
def ofString (s : String) : Str :=
  ⟨s.toList.flatMap String.utf8EncodeChar, valid_flatMap_utf8EncodeChar _⟩

/-- They are the bytes the string is stored as. -/
theorem ofString_eq_toByteArray (s : String) : (ofString s).1 = s.toByteArray.data.toList := by
  rw [← String.utf8Encode_toList]
  simp [ofString, List.utf8Encode]

example : (ofString "@bob:h").1 = [0x40, 0x62, 0x6F, 0x62, 0x3A, 0x68] := by decide

end Utf8
