import Mathlib
import Tuwunel.Core.Identifiers

/-!
# Pruning forward extremities

`select` chooses which of a room's classified forward extremities survive.  It sorts the
candidates into four vectors by class: own-server leaves, which always survive; live leaves, of
which the most droppable are dropped up to the goal; and dangling and already-referenced leaves,
which are swept for free.  When no own leaf exists the drop stops one short of the whole live set,
and when nothing else survives one swept leaf is popped back, a referenced one first.

`select_keeps_promises` states what the survivors and the summary then are, for every list of
candidates and every goal.  The live leaves are sorted by `drop_order`, a lexicographic order
(`dropOrder_eq_compare_rank`); `sort_unstable_by` is modelled by a merge sort, and nothing below
depends on how it orders ties.
-/

namespace Tuwunel
namespace State
namespace Prune

/-- `PruneSummary`. -/
structure PruneSummary where
  before : Nat
  after : Nat
  dangling : Nat
  referenced : Nat
  message : Nat
  state : Nat
  deriving DecidableEq, Repr

/-- `Live`: what ranks a live leaf for dropping. -/
structure Live where
  state : Bool
  redacted : Bool
  ownerOnline : Bool
  count : PduCount
  deriving DecidableEq, Repr

/-- `Class`. -/
inductive Class
  | dangling
  | referenced
  | own
  | live (scored : Live)
  deriving DecidableEq, Repr

/-- `Candidate`. -/
structure Candidate (Id : Type*) where
  id : Id
  «class» : Class
  deriving DecidableEq, Repr

/-- `drop_order`: message before state, redacted before intact, reachable owner before
unreachable, oldest before newest. -/
def dropOrder (a b : Live) : Ordering :=
  (compare a.state b.state).then ((compare b.redacted a.redacted).then
    ((compare b.ownerOnline a.ownerOnline).then (compare a.count b.count)))

variable {Id : Type*}

/-- The four vectors the candidates are sorted into. -/
structure Buckets (Id : Type*) where
  own : List Id
  live : List (Live × Id)
  dangling : List Id
  referenced : List Id

/-- One turn of the loop over the candidates: push the id to its class's vector. -/
def Buckets.push (buckets : Buckets Id) (candidate : Candidate Id) : Buckets Id :=
  match candidate.class with
  | .own => { buckets with own := buckets.own ++ [candidate.id] }
  | .dangling => { buckets with dangling := buckets.dangling ++ [candidate.id] }
  | .referenced => { buckets with referenced := buckets.referenced ++ [candidate.id] }
  | .live scored => { buckets with live := buckets.live ++ [(scored, candidate.id)] }

/-- The order `sort_unstable_by(drop_order)` sorts by: `a` may come before `b`. -/
def dropsBefore (a b : Live × Id) : Bool := decide (dropOrder a.1 b.1 ≠ .gt)

/-- The fallback on empty survivors, `referenced.pop().or_else(|| dangling.pop())` pushed to them:
the survivors, the referenced and the dangling leaves after it. -/
def keepSwept (survivors referenced dangling : List Id) : List Id × List Id × List Id :=
  if survivors.isEmpty then
    match referenced.getLast?, dangling.getLast? with
    | some id, _ => ([id], referenced.dropLast, dangling)
    | none, some id => ([id], referenced, dangling.dropLast)
    | none, none => (survivors, referenced, dangling)
  else (survivors, referenced, dangling)

/-- `select`: the survivors and the summary. -/
def select (candidates : List (Candidate Id)) (goal : Nat) : List Id × PruneSummary :=
  let before := candidates.length
  let buckets := candidates.foldl Buckets.push ⟨[], [], [], []⟩
  let live := buckets.live.mergeSort dropsBefore
  -- keep one live leaf when no own leaf would survive
  let floor := if buckets.own.isEmpty then 1 else 0
  let dropLive := min goal (live.length - floor)
  let message := ((live.take dropLive).filter fun entry => !entry.1.state).length
  let state := dropLive - message
  let survivors := buckets.own ++ (live.drop dropLive).map Prod.snd
  let kept := keepSwept survivors buckets.referenced buckets.dangling
  (kept.1, ⟨before, kept.1.length, kept.2.2.length, kept.2.1.length, message, state⟩)

/-! ## Drop order -/

/-- What `drop_order` compares, lexicographically: state, intact, unreachable owner, count. -/
def Live.rank (live : Live) : Bool ×ₗ Bool ×ₗ Bool ×ₗ PduCount :=
  toLex (live.state, toLex (!live.redacted, toLex (!live.ownerOnline, live.count)))

theorem compare_not_not (x y : Bool) : compare (!x) (!y) = compare y x := by
  cases x <;> cases y <;> rfl

theorem dropOrder_eq_compare_rank (a b : Live) : dropOrder a b = compare a.rank b.rank := by
  rw [dropOrder, ← compare_not_not a.redacted, ← compare_not_not a.ownerOnline]
  rfl

theorem dropsBefore_iff {a b : Live × Id} : dropsBefore a b ↔ a.1.rank ≤ b.1.rank := by
  rw [dropsBefore, decide_eq_true_iff, dropOrder_eq_compare_rank, Ne, compare_gt_iff_gt, not_lt]

theorem dropsBefore_trans (a b c : Live × Id) (first : dropsBefore a b) (second : dropsBefore b c) :
    dropsBefore a c :=
  dropsBefore_iff.mpr ((dropsBefore_iff.mp first).trans (dropsBefore_iff.mp second))

theorem dropsBefore_total (a b : Live × Id) : dropsBefore a b || dropsBefore b a := by
  rcases le_total a.1.rank b.1.rank with forward | backward
  · simp [dropsBefore_iff.mpr forward]
  · simp [dropsBefore_iff.mpr backward]

/-! ## The classes -/

/-- The own-server candidates' ids, in order. -/
def ownIds (candidates : List (Candidate Id)) : List Id :=
  candidates.filterMap fun candidate => match candidate.class with
    | .own => some candidate.id
    | _ => none

/-- The live candidates with their scores, in order. -/
def liveEntries (candidates : List (Candidate Id)) : List (Live × Id) :=
  candidates.filterMap fun candidate => match candidate.class with
    | .live scored => some (scored, candidate.id)
    | _ => none

/-- The dangling candidates' ids, in order. -/
def danglingIds (candidates : List (Candidate Id)) : List Id :=
  candidates.filterMap fun candidate => match candidate.class with
    | .dangling => some candidate.id
    | _ => none

/-- The referenced candidates' ids, in order. -/
def referencedIds (candidates : List (Candidate Id)) : List Id :=
  candidates.filterMap fun candidate => match candidate.class with
    | .referenced => some candidate.id
    | _ => none

/-- The loop fills each vector with its class's candidates, in order. -/
theorem foldl_push (candidates : List (Candidate Id)) (buckets : Buckets Id) :
    candidates.foldl Buckets.push buckets =
      ⟨buckets.own ++ ownIds candidates, buckets.live ++ liveEntries candidates,
        buckets.dangling ++ danglingIds candidates,
        buckets.referenced ++ referencedIds candidates⟩ := by
  induction candidates generalizing buckets with
  | nil => simp [ownIds, liveEntries, danglingIds, referencedIds]
  | cons candidate rest ih =>
      obtain ⟨id, cls⟩ := candidate
      rw [List.foldl_cons, ih]
      cases cls <;> simp [Buckets.push, ownIds, liveEntries, danglingIds, referencedIds]

/-- Every candidate is in exactly one class. -/
theorem ids_perm (candidates : List (Candidate Id)) :
    (candidates.map Candidate.id).Perm (ownIds candidates ++
      (liveEntries candidates).map Prod.snd ++ danglingIds candidates ++ referencedIds candidates) := by
  classical
  rw [List.perm_iff_count]
  intro x
  induction candidates with
  | nil => simp [ownIds, liveEntries, danglingIds, referencedIds]
  | cons candidate rest ih =>
      obtain ⟨id, cls⟩ := candidate
      simp only [List.count_append] at ih ⊢
      cases cls <;>
        simp [ownIds, liveEntries, danglingIds, referencedIds, List.count_cons] at ih ⊢ <;> omega

/-! ## The fallback -/

theorem keepSwept_of_ne_nil {survivors : List Id} (nonempty : survivors ≠ [])
    (referenced dangling : List Id) :
    keepSwept survivors referenced dangling = (survivors, referenced, dangling) := by
  simp [keepSwept, List.isEmpty_iff, nonempty]

/-- On empty survivors the fallback moves one id from the referenced leaves, or else from the
dangling ones, to the survivors. -/
theorem keepSwept_nil (referenced dangling : List Id) :
    (keepSwept [] referenced dangling).1.length + (keepSwept [] referenced dangling).2.1.length +
        (keepSwept [] referenced dangling).2.2.length = referenced.length + dangling.length ∧
      (referenced ++ dangling ≠ [] → ∃ id, (keepSwept [] referenced dangling).1 = [id] ∧
        (referenced ≠ [] → id ∈ referenced) ∧ (referenced = [] → id ∈ dangling)) ∧
      (referenced ++ dangling = [] → (keepSwept [] referenced dangling).1 = []) := by
  unfold keepSwept
  simp only [List.isEmpty_nil, if_true]
  split
  · next id last =>
    -- a referenced leaf is popped
    have member : id ∈ referenced := List.mem_of_getLast? last
    have positive : 0 < referenced.length := List.length_pos_of_mem member
    refine ⟨by simp only [List.length_dropLast, List.length_singleton]; omega,
      fun _ => ⟨id, rfl, fun _ => member, fun empty => absurd (empty ▸ member) List.not_mem_nil⟩,
      fun empty => absurd (List.append_eq_nil_iff.mp empty).1 (List.ne_nil_of_mem member)⟩
  · next id noReferenced last =>
    -- no referenced leaf: a dangling one is popped
    have empty : referenced = [] := List.getLast?_eq_none_iff.mp noReferenced
    have member : id ∈ dangling := List.mem_of_getLast? last
    have positive : 0 < dangling.length := List.length_pos_of_mem member
    refine ⟨by simp only [List.length_dropLast, List.length_singleton]; omega,
      fun _ => ⟨id, rfl, fun present => absurd empty present, fun _ => member⟩,
      fun none => absurd (List.append_eq_nil_iff.mp none).2 (List.ne_nil_of_mem member)⟩
  · next noReferenced noDangling =>
    have empty : referenced = [] := List.getLast?_eq_none_iff.mp noReferenced
    have emptyDangling : dangling = [] := List.getLast?_eq_none_iff.mp noDangling
    subst empty emptyDangling
    exact ⟨rfl, fun absurdity => absurd rfl absurdity, fun _ => rfl⟩

/-! ## What `select` promises -/

/-- The live candidates in drop order. -/
def sortedLive (candidates : List (Candidate Id)) : List (Live × Id) :=
  (liveEntries candidates).mergeSort dropsBefore

/-- How many live candidates `select` drops. -/
def dropLive (candidates : List (Candidate Id)) (goal : Nat) : Nat :=
  min goal ((sortedLive candidates).length - if (ownIds candidates).isEmpty then 1 else 0)

theorem select_eq (candidates : List (Candidate Id)) (goal : Nat) :
    select candidates goal =
      ((keepSwept (ownIds candidates ++
            ((sortedLive candidates).drop (dropLive candidates goal)).map Prod.snd)
          (referencedIds candidates) (danglingIds candidates)).1,
        ⟨candidates.length,
          (keepSwept (ownIds candidates ++
            ((sortedLive candidates).drop (dropLive candidates goal)).map Prod.snd)
            (referencedIds candidates) (danglingIds candidates)).1.length,
          (keepSwept (ownIds candidates ++
            ((sortedLive candidates).drop (dropLive candidates goal)).map Prod.snd)
            (referencedIds candidates) (danglingIds candidates)).2.2.length,
          (keepSwept (ownIds candidates ++
            ((sortedLive candidates).drop (dropLive candidates goal)).map Prod.snd)
            (referencedIds candidates) (danglingIds candidates)).2.1.length,
          (((sortedLive candidates).take (dropLive candidates goal)).filter
            fun entry => !entry.1.state).length,
          dropLive candidates goal - (((sortedLive candidates).take (dropLive candidates goal)).filter
            fun entry => !entry.1.state).length⟩) := by
  simp only [select, foldl_push, List.nil_append]
  rfl

/-- What `select` promises about its survivors and summary, given the live candidates it drops
and those it keeps. -/
structure Promises (candidates : List (Candidate Id)) (goal : Nat) (dropped kept : List (Live × Id))
    (survivors : List Id) (summary : PruneSummary) : Prop where
  /-- The live candidates are the dropped ones and the kept ones. -/
  split : (dropped ++ kept).Perm (liveEntries candidates)
  /-- As many are dropped as the goal asks, short of the whole live set when no candidate is
  own. -/
  dropCount : dropped.length =
    min goal ((liveEntries candidates).length - if ownIds candidates = [] then 1 else 0)
  /-- A dropped candidate precedes or ties every kept one in `drop_order`. -/
  dropsFirst : ∀ drop ∈ dropped, ∀ keep ∈ kept, dropOrder drop.1 keep.1 ≠ .gt
  /-- The survivors are candidates' ids. -/
  subperm : survivors.Subperm (candidates.map Candidate.id)
  /-- Every own candidate survives. -/
  keepsOwn : (ownIds candidates).Subperm survivors
  /-- Some candidate survives exactly when there are candidates. -/
  nonempty : survivors ≠ [] ↔ candidates ≠ []
  /-- When an own or live candidate survives, the own and kept live ones are the survivors. -/
  ownOrLive : ownIds candidates ++ kept.map Prod.snd ≠ [] →
    survivors = ownIds candidates ++ kept.map Prod.snd
  /-- Otherwise one swept candidate survives, a referenced one when there is one. -/
  swept : ownIds candidates ++ kept.map Prod.snd = [] → candidates ≠ [] →
    ∃ id, survivors = [id] ∧ (referencedIds candidates ≠ [] → id ∈ referencedIds candidates) ∧
      (referencedIds candidates = [] → id ∈ danglingIds candidates)
  /-- The summary accounts for every candidate. -/
  accounts : summary.before =
    summary.after + summary.dangling + summary.referenced + summary.message + summary.state
  /-- `message` counts the dropped candidates that are not state events. -/
  message : summary.message = (dropped.filter fun entry => !entry.1.state).length

theorem length_sortedLive (candidates : List (Candidate Id)) :
    (sortedLive candidates).length = (liveEntries candidates).length :=
  List.length_mergeSort _

theorem dropLive_le (candidates : List (Candidate Id)) (goal : Nat) :
    dropLive candidates goal ≤ (liveEntries candidates).length := by
  rw [← length_sortedLive]
  unfold dropLive
  omega

/-- With no own candidate the floor leaves a live candidate, if there is one. -/
theorem dropLive_lt {candidates : List (Candidate Id)} (noOwn : ownIds candidates = [])
    (live : 0 < (liveEntries candidates).length) (goal : Nat) :
    dropLive candidates goal < (liveEntries candidates).length := by
  unfold dropLive
  simp only [noOwn, List.isEmpty_nil, if_true, length_sortedLive]
  omega

/-- The live candidates in drop order, split at the drop count: together they are the live
candidates, the first part has the length asked, and it precedes the rest in drop order. -/
theorem sortedLive_split (candidates : List (Candidate Id)) (goal : Nat) :
    ((sortedLive candidates).take (dropLive candidates goal) ++
        (sortedLive candidates).drop (dropLive candidates goal)).Perm (liveEntries candidates) ∧
      ((sortedLive candidates).take (dropLive candidates goal)).length =
        min goal ((liveEntries candidates).length - if ownIds candidates = [] then 1 else 0) ∧
      ∀ drop ∈ (sortedLive candidates).take (dropLive candidates goal),
        ∀ keep ∈ (sortedLive candidates).drop (dropLive candidates goal),
          dropOrder drop.1 keep.1 ≠ .gt := by
  have ordered : (sortedLive candidates).Pairwise fun a b => dropsBefore a b :=
    List.pairwise_mergeSort dropsBefore_trans dropsBefore_total _
  refine ⟨?_, ?_, ?_⟩
  · rw [List.take_append_drop]
    exact List.mergeSort_perm _ _
  · rw [List.length_take, length_sortedLive, min_eq_left (dropLive_le candidates goal), dropLive,
      length_sortedLive]
    simp [List.isEmpty_iff]
  · intro drop dropping keep keeping
    rw [← List.take_append_drop (dropLive candidates goal) (sortedLive candidates),
      List.pairwise_append] at ordered
    exact of_decide_eq_true (ordered.2.2 drop dropping keep keeping)

theorem length_eq_classes (candidates : List (Candidate Id)) :
    candidates.length = (ownIds candidates).length + (liveEntries candidates).length +
      (danglingIds candidates).length + (referencedIds candidates).length := by
  simpa [Nat.add_assoc] using (ids_perm candidates).length_eq

/-- The dropped message candidates and the dropped state candidates make up the drop count. -/
theorem message_add_state (candidates : List (Candidate Id)) (goal : Nat) :
    (((sortedLive candidates).take (dropLive candidates goal)).filter
        fun entry => !entry.1.state).length +
      (dropLive candidates goal - (((sortedLive candidates).take (dropLive candidates goal)).filter
        fun entry => !entry.1.state).length) = dropLive candidates goal :=
  Nat.add_sub_cancel' ((List.length_filter_le _ _).trans (List.length_take_le _ _))

/-- For every list of candidates and every goal, `select` keeps its promises. -/
theorem select_keeps_promises (candidates : List (Candidate Id)) (goal : Nat) :
    ∃ dropped kept, Promises candidates goal dropped kept (select candidates goal).1
      (select candidates goal).2 := by
  obtain ⟨split, dropCount, dropsFirst⟩ := sortedLive_split candidates goal
  have classes := length_eq_classes candidates
  have within := dropLive_le candidates goal
  have dropSplit := message_add_state candidates goal
  have keptLength : ((sortedLive candidates).drop (dropLive candidates goal)).length =
      (liveEntries candidates).length - dropLive candidates goal := by
    rw [List.length_drop, length_sortedLive]
  refine ⟨(sortedLive candidates).take (dropLive candidates goal),
    (sortedLive candidates).drop (dropLive candidates goal), ?_⟩
  rw [select_eq]
  by_cases survive : ownIds candidates ++
      ((sortedLive candidates).drop (dropLive candidates goal)).map Prod.snd = []
  · -- no own candidate survives, and then the floor leaves no live one unless there is none
    obtain ⟨noOwn, noKept⟩ := List.append_eq_nil_iff.mp survive
    have noOwnLength : (ownIds candidates).length = 0 := by rw [noOwn]; rfl
    have noLive : (liveEntries candidates).length = 0 := by
      by_contra present
      have short := dropLive_lt noOwn (Nat.pos_of_ne_zero present) goal
      have drained := List.drop_eq_nil_iff.mp (List.map_eq_nil_iff.mp noKept)
      rw [length_sortedLive] at drained
      omega
    have sweptLength : (referencedIds candidates ++ danglingIds candidates).length =
        candidates.length := by
      rw [List.length_append]
      omega
    obtain ⟨lengths, popped, none⟩ := keepSwept_nil (referencedIds candidates) (danglingIds candidates)
    rw [survive]
    by_cases swept : referencedIds candidates ++ danglingIds candidates = []
    · -- no candidate at all
      have nothing : candidates = [] := by
        rw [← List.length_eq_zero_iff, ← sweptLength, swept, List.length_nil]
      rw [none swept] at lengths ⊢
      refine ⟨split, dropCount, dropsFirst, List.nil_subperm, noOwn ▸ List.nil_subperm,
        ⟨fun present => absurd rfl present, fun present => absurd nothing present⟩,
        fun present => absurd survive present, fun _ present => absurd nothing present, ?_, rfl⟩
      simp only [List.length_nil] at lengths ⊢
      omega
    · -- one swept candidate is popped back
      obtain ⟨id, single, fromReferenced, fromDangling⟩ := popped swept
      have something : candidates ≠ [] := by
        rw [← List.length_pos_iff, ← sweptLength]
        exact List.length_pos_iff.mpr swept
      have listed : id ∈ candidates.map Candidate.id := by
        apply (ids_perm candidates).symm.subset
        by_cases referenced : referencedIds candidates = []
        · simp [fromDangling referenced]
        · simp [fromReferenced referenced]
      rw [single] at lengths ⊢
      refine ⟨split, dropCount, dropsFirst, List.singleton_subperm_iff.mpr listed,
        noOwn ▸ List.nil_subperm, ⟨fun _ => something, fun _ => List.cons_ne_nil _ _⟩,
        fun present => absurd survive present,
        fun _ _ => ⟨id, rfl, fromReferenced, fromDangling⟩, ?_, rfl⟩
      simp only [List.length_singleton] at lengths ⊢
      omega
  · -- the own candidates and the kept live ones survive
    rw [keepSwept_of_ne_nil survive]
    have keptIds : (((sortedLive candidates).drop (dropLive candidates goal)).map Prod.snd).Subperm
        ((liveEntries candidates).map Prod.snd) :=
      ((List.drop_sublist _ _).map Prod.snd).subperm.trans
        ((List.mergeSort_perm _ _).map Prod.snd).subperm
    have whole : (ownIds candidates ++ (liveEntries candidates).map Prod.snd).Subperm
        (candidates.map Candidate.id) :=
      ((List.sublist_append_left _ _).trans (List.sublist_append_left _ _)).subperm.trans
        (ids_perm candidates).symm.subperm
    have something : candidates ≠ [] := by
      intro empty
      apply survive
      simp [ownIds, sortedLive, liveEntries, empty]
    refine ⟨split, dropCount, dropsFirst, ((List.subperm_append_left _).mpr keptIds).trans whole,
      (List.sublist_append_left _ _).subperm, ⟨fun _ => something, fun _ => survive⟩,
      fun _ => rfl, fun empty => absurd empty survive, ?_, rfl⟩
    simp only [List.length_append, List.length_map]
    omega

/-- `prune_forward_extremities` replaces the extremities by `select`'s survivors.  The candidates
`classify_extremities` returns are the extremities in whatever order its concurrent lookups
complete in, so pruning keeps only extremities it was given. -/
theorem select_subset_of_perm {candidates : List (Candidate Id)} {extremities : List Id}
    (classified : (candidates.map Candidate.id).Perm extremities) (goal : Nat) :
    (select candidates goal).1 ⊆ extremities := by
  obtain ⟨_, _, promises⟩ := select_keeps_promises candidates goal
  exact List.Subset.trans promises.subperm.subset classified.subset

end Prune
end State
end Tuwunel
