import Mathlib
import Tuwunel.Core.Identifiers
import Tuwunel.Core.Matrix.Pdu

/-!
# Space summaries and pagination tokens

A space's summary holds its room's `m.space.child` events.  `get_parent_children_via` reads them
as the children of the room, each with the servers to reach it through, and keeps only suggested
children when `suggested_only` is set.  A summary whose join rule is one Ruma cannot serialize is
left out of a response (`is_summary_serializable`).

A hierarchy response that fills its page carries a `PaginationToken`: the short ids of the rooms
returned so far, the limit, the depth and `suggested_only`, written as
`ids_limit_depth_suggested` with the ids joined by commas.  `FromStr` splits at the underscores
and then at the commas, and drops an id that does not parse.  It reads back what `Display` writes
wherever the numbers fit their types (`fromStr_fmt`).

Strings are read as their characters: `str::split(c)` is `List.splitOn c` on them.
-/

namespace Tuwunel
namespace Spaces

open Pdu (ShortRoomId)

/-- `JoinRuleSummary`, by its rule.  The rooms a restricted rule allows are read by the
accessibility check, which the summary lookup decides. -/
inductive JoinRuleSummary
  | invite
  | knock
  | «private»
  | restricted
  | knockRestricted
  | «public»
  /-- `_Custom`: a rule Ruma does not know. -/
  | custom (rule : String)
  deriving DecidableEq, Repr

/-- The fields of an `m.space.child` event that `get_parent_children_via` reads. -/
structure ChildEvent where
  stateKey : RoomId
  suggested : Bool
  via : List ServerName
  deriving DecidableEq, Repr

/-- `SpaceHierarchyParentSummary`: the room's summary and its child events, kept raw and
deserialized on reading (`none` where that fails). -/
structure ParentSummary where
  roomId : RoomId
  joinRule : JoinRuleSummary
  childrenState : List (Option ChildEvent)
  deriving DecidableEq, Repr

/-- `SpaceHierarchyRoomsChunk`. -/
structure RoomsChunk where
  roomId : RoomId
  joinRule : JoinRuleSummary
  childrenState : List (Option ChildEvent)
  deriving DecidableEq, Repr

/-- `Accessibility` of a room to the requester. -/
inductive Accessibility
  | accessible (summary : ParentSummary)
  | inaccessible
  deriving DecidableEq, Repr

/-- `Identifier`: who the accessibility check is made for. -/
inductive Identifier
  | userId (user : UserId)
  | serverName (server : ServerName)
  deriving DecidableEq, Repr

/-- The errors of a hierarchy request. -/
inductive Error
  /-- `Request(InvalidParam(..))`. -/
  | invalidParam (message : String)
  /-- `Request(Forbidden(..))`. -/
  | forbidden (message : String)
  /-- `Request(NotFound(..))`. -/
  | notFound (message : String)
  /-- Any other error of the summary lookup. -/
  | other (message : String)
  deriving DecidableEq, Repr

/-- `get_parent_children_via`: the children that deserialize, with the servers to reach them
through; only the suggested ones under `suggested_only`. -/
def getParentChildrenVia (parent : ParentSummary) (suggestedOnly : Bool) :
    List (RoomId × List ServerName) :=
  parent.childrenState.filterMap fun raw => raw.bind fun child =>
    if child.suggested || !suggestedOnly then some (child.stateKey, child.via) else none

/-- `summary_to_chunk`. -/
def summaryToChunk (summary : ParentSummary) : RoomsChunk :=
  ⟨summary.roomId, summary.joinRule, summary.childrenState⟩

/-- `is_summary_serializable`: every join rule but a custom one. -/
def isSummarySerializable (summary : ParentSummary) : Bool :=
  match summary.joinRule with
  | .custom _ => false
  | _ => true

/-! ## Pagination tokens -/

/-- `js_int::MAX_SAFE_UINT`, the largest `UInt`. -/
def maxSafeUInt : Nat := 2 ^ 53 - 1

/-- The sign `from_str` accepts before the digits of an unsigned number. -/
def stripPlus : List Char → List Char
  | '+' :: rest => rest
  | chars => chars

/-- `u64::from_str`: an optional `+` and then at least one ASCII digit, at most `u64::MAX`. -/
def u64FromStr (chars : List Char) : Option Nat :=
  let digits := stripPlus chars
  if digits ≠ [] ∧ digits.all Char.isDigit ∧ Nat.ofDigitChars 10 digits 0 ≤ u64Max then
    some (Nat.ofDigitChars 10 digits 0)
  else none

/-- `UInt::from_str`: a `u64` no larger than `MAX_SAFE_UINT`. -/
def uintFromStr (chars : List Char) : Option Nat :=
  (u64FromStr chars).filter (· ≤ maxSafeUInt)

/-- `PaginationToken`. -/
structure PaginationToken where
  /-- The rooms returned so far, by short id. -/
  shortRoomIds : List ShortRoomId
  limit : Nat
  maxDepth : Nat
  suggestedOnly : Bool
  deriving DecidableEq, Repr

namespace PaginationToken

/-- The closure of `from_str`: four fields between underscores, the ids split at commas with the
ones that do not parse dropped, and `true` or `false` last. -/
def pagTok (value : List Char) : Option PaginationToken :=
  match value.splitOn '_' with
  | ids :: limit :: maxDepth :: slice :: rest =>
      (uintFromStr limit).bind fun limit =>
        (uintFromStr maxDepth).bind fun maxDepth =>
          (if rest = [] then
              (if slice = "true".toList then some true
              else if slice = "false".toList then some false else none)
            else none).map fun suggestedOnly =>
            ⟨(ids.splitOn ',').filterMap u64FromStr, limit, maxDepth, suggestedOnly⟩
  | _ => none

/-- `PaginationToken::from_str`. -/
def fromStr (value : String) : Except Error PaginationToken :=
  match pagTok value.toList with
  | some token => .ok token
  | none => .error (.invalidParam "invalid token")

/-- `<PaginationToken as Display>::fmt`. -/
def fmt (token : PaginationToken) : String :=
  ",".intercalate (token.shortRoomIds.map toString) ++ "_" ++ toString token.limit ++ "_" ++
    toString token.maxDepth ++ "_" ++ toString token.suggestedOnly

/-- The numbers of a token fit the types `from_str` reads them as. -/
structure Fits (token : PaginationToken) : Prop where
  ids : ∀ id ∈ token.shortRoomIds, id ≤ u64Max
  limit : token.limit ≤ maxSafeUInt
  maxDepth : token.maxDepth ≤ maxSafeUInt

end PaginationToken

/-! ## Reading back what is written -/

theorem not_plus_of_isDigit {c : Char} (digit : c.isDigit) : c ≠ '+' := by
  rintro rfl
  simp at digit

/-- `u64::from_str` reads a decimal `u64` back. -/
theorem u64FromStr_toDigits {n : Nat} (fits : n ≤ u64Max) : u64FromStr (Nat.toDigits 10 n) = some n := by
  have digits : ∀ c ∈ Nat.toDigits 10 n, c.isDigit := fun _ member =>
    Nat.isDigit_of_mem_toDigits (by decide) (by decide) member
  -- the first character is a digit, so there is no sign to strip
  have unsigned : stripPlus (Nat.toDigits 10 n) = Nat.toDigits 10 n := by
    cases written : Nat.toDigits 10 n with
    | nil => exact absurd written Nat.toDigits_ne_nil
    | cons c rest =>
        have : c ≠ '+' := not_plus_of_isDigit (digits c (by simp [written]))
        simp [stripPlus, this]
  simp only [u64FromStr, unsigned, Nat.ofDigitChars_ten_toDigits]
  rw [if_pos ⟨Nat.toDigits_ne_nil, List.all_eq_true.mpr fun c member => digits c member, fits⟩]

theorem uintFromStr_toDigits {n : Nat} (fits : n ≤ maxSafeUInt) :
    uintFromStr (Nat.toDigits 10 n) = some n := by
  have fitsU64 : n ≤ u64Max := le_trans fits (by decide)
  simp [uintFromStr, u64FromStr_toDigits fitsU64, fits]

theorem comma_not_mem_toDigits (n : Nat) : ',' ∉ Nat.toDigits 10 n := fun member => by
  simpa using Nat.isDigit_of_mem_toDigits (by decide) (by decide) member

/-- A character of lists joined by a separator is the separator or a character of one of them. -/
theorem mem_intercalate_singleton {α : Type} {separator c : α} {parts : List (List α)}
    (member : c ∈ [separator].intercalate parts) : c = separator ∨ ∃ part ∈ parts, c ∈ part := by
  induction parts with
  | nil => simp [List.intercalate_nil] at member
  | cons part parts ih =>
      cases parts with
      | nil =>
          rw [List.intercalate_singleton] at member
          exact .inr ⟨part, List.mem_singleton_self _, member⟩
      | cons part' parts =>
          rw [List.intercalate_cons_cons] at member
          rcases List.mem_append.mp member with member | member
          · rcases List.mem_append.mp member with member | member
            · exact .inr ⟨part, List.mem_cons_self, member⟩
            · exact .inl (List.mem_singleton.mp member)
          · rcases ih member with same | ⟨other, otherMember, inOther⟩
            · exact .inl same
            · exact .inr ⟨other, List.mem_cons_of_mem _ otherMember, inOther⟩

/-- The ids' field holds digits and commas only. -/
theorem underscore_not_mem_ids (ids : List Nat) :
    '_' ∉ [','].intercalate (ids.map (Nat.toDigits 10)) := fun member => by
  rcases mem_intercalate_singleton member with comma | ⟨part, partMember, inPart⟩
  · exact absurd comma (by decide)
  · obtain ⟨id, _, rfl⟩ := List.mem_map.mp partMember
    exact Nat.underscore_not_in_toDigits inPart

/-- The ids read back from their field: each parses, and an empty field gives no ids. -/
theorem filterMap_splitOn_ids {ids : List Nat} (fits : ∀ id ∈ ids, id ≤ u64Max) :
    (([','].intercalate (ids.map (Nat.toDigits 10))).splitOn ',').filterMap u64FromStr = ids := by
  cases ids with
  | nil => rfl
  | cons id ids =>
      rw [List.splitOn_intercalate ',' (fun part member => by
          obtain ⟨id, _, rfl⟩ := List.mem_map.mp member
          exact comma_not_mem_toDigits id) (by simp),
        List.filterMap_map]
      exact (List.filterMap_congr fun id member => by
        simpa using u64FromStr_toDigits (fits id member)).trans List.filterMap_some

/-- The token's text, as characters: its four fields joined by underscores. -/
theorem toList_fmt (token : PaginationToken) :
    token.fmt.toList = ['_'].intercalate
      [[','].intercalate (token.shortRoomIds.map (Nat.toDigits 10)), Nat.toDigits 10 token.limit,
        Nat.toDigits 10 token.maxDepth, (toString token.suggestedOnly).toList] := by
  simp [PaginationToken.fmt, String.toList_intercalate, List.intercalate_cons_cons, Function.comp_def]

/-- `from_str` reads back the token `Display` writes, where its numbers fit their types. -/
theorem fromStr_fmt {token : PaginationToken} (fits : token.Fits) :
    PaginationToken.fromStr token.fmt = .ok token := by
  have fields : token.fmt.toList.splitOn '_' =
      [[','].intercalate (token.shortRoomIds.map (Nat.toDigits 10)), Nat.toDigits 10 token.limit,
        Nat.toDigits 10 token.maxDepth, (toString token.suggestedOnly).toList] := by
    rw [toList_fmt]
    refine List.splitOn_intercalate '_' (fun part member => ?_) (by simp)
    simp only [List.mem_cons, List.not_mem_nil, or_false] at member
    rcases member with rfl | rfl | rfl | rfl
    · exact underscore_not_mem_ids _
    · exact Nat.underscore_not_in_toDigits
    · exact Nat.underscore_not_in_toDigits
    · cases token.suggestedOnly <;> decide
  simp only [PaginationToken.fromStr, PaginationToken.pagTok, fields,
    uintFromStr_toDigits fits.limit, uintFromStr_toDigits fits.maxDepth,
    filterMap_splitOn_ids fits.ids, Option.bind_some, if_true]
  -- `Display` writes the flag as `true` or `false`
  obtain ⟨ids, limit, maxDepth, suggestedOnly⟩ := token
  cases suggestedOnly <;>
    simp [show (toString true).toList = "true".toList from rfl,
      show (toString false).toList = "false".toList from rfl]

end Spaces
end Tuwunel
