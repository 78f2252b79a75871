import Mathlib
import Tuwunel.Library.KeyValue
import Tuwunel.Library.SetDelta
import Tuwunel.Core.Identifiers
import Tuwunel.Core.Numbers

/-!
# The state compressor

A room state is a set of compressed entries, `(shortstatekey, shorteventid)` pairs.  The rows of
`shortstatehash_statediff` store each state as a diff on a parent state; loading a state replays
the chain of parents (through `stateinfo_cache`) into a stack of frames, each holding the full
state at its layer, and `save_state_from_diff` writes a new diff, folding it into the layer below
while the stack is too deep or the diff too large.

Stacks are listed top frame first: the source's `Vec` reversed, so `last` is the head and `pop`
the tail.

`Stack` is the stack the stored diffs give a shortstatehash.  A load returns it whenever the cache
holds only such stacks, and keeps the cache so (`loadWithin_of_stack`).  `Replays` says each frame
is a minimal delta on the frame below; on such a stack every branch of `save_state_from_diff`
writes a diff that rebuilds the requested state on top of at most three frames
(`saveStateFromDiff_spec`), since folding a minimal diff into its parent's keeps it minimal and
keeps its result (`SetDelta.apply_merge`).
-/

namespace Tuwunel
namespace StateCompressor

open KeyValue

/-- `CompressedStateEvent`: the shortstatekey's eight big-endian bytes, then the shorteventid's,
so byte order is the lexicographic order of the pair. -/
abbrev CompressedStateEvent := ShortStateKey ×ₗ ShortEventId

/-- The order a `BTreeSet` of entries iterates in, as `Finset.sort` needs it. -/
instance : IsTrans CompressedStateEvent (· ≤ ·) := inferInstance

instance : Std.Antisymm fun a b : CompressedStateEvent => a ≤ b := inferInstance

instance : Std.Total fun a b : CompressedStateEvent => a ≤ b := inferInstance

/-- `CompressedState`, a `BTreeSet` of entries. -/
abbrev CompressedState := Finset CompressedStateEvent

/-- `compress_state_event`. -/
def compressStateEvent (shortstatekey : ShortStateKey) (shorteventid : ShortEventId) :
    CompressedStateEvent :=
  toLex (shortstatekey, shorteventid)

/-- Whether an entry's bytes start with those of `shortstatekey`. -/
def startsWith (event : CompressedStateEvent) (shortstatekey : ShortStateKey) : Bool :=
  (ofLex event).1 == shortstatekey

/-- `StateDiff`: a state as a delta on its parent; a base layer has none. -/
structure StateDiff where
  parent : Option ShortStateHash
  added : CompressedState
  removed : CompressedState
  deriving DecidableEq

/-- `ShortStateInfo`, one frame of a loaded stack. -/
structure ShortStateInfo where
  shortstatehash : ShortStateHash
  fullState : CompressedState
  added : CompressedState
  removed : CompressedState
  deriving DecidableEq

/-- `StateInfoLruCache`: loaded stacks by shortstatehash. -/
abbrev StateInfoLruCache := Table ShortStateHash (List ShortStateInfo)

/-- The state compressor's `Service`: the `shortstatehash_statediff` rows and the cache. -/
structure Service where
  shortstatehashStatediff : Table ShortStateHash StateDiff
  stateinfoCache : StateInfoLruCache

/-- `new_shortstatehash_info`, loading the parent's stack with `loadParent`: the stack and the
cache the parent's load leaves. -/
def newShortstatehashInfo (statediffs : Table ShortStateHash StateDiff)
    (loadParent : StateInfoLruCache → ShortStateHash →
      Option (List ShortStateInfo) × StateInfoLruCache)
    (cache : StateInfoLruCache) (shortstatehash : ShortStateHash) :
    Option (List ShortStateInfo) × StateInfoLruCache :=
  match statediffs.get shortstatehash with
  -- `get_statediff` fails to find the row
  | none => (none, cache)
  | some ⟨none, added, removed⟩ => (some [⟨shortstatehash, added, added, removed⟩], cache)
  | some ⟨some parent, added, removed⟩ =>
      match loadParent cache parent with
      | (some (top :: stack), cache) =>
          (some (⟨shortstatehash, (top.fullState ∪ added) \ removed, added, removed⟩ :: top :: stack),
            cache)
      -- the parent's error, or `expect("at least one frame")` on an empty stack
      | (_, cache) => (none, cache)

/-- `load_shortstatehash_info`, with `fuel` for its recursion along parents. -/
def loadWithin (statediffs : Table ShortStateHash StateDiff) :
    Nat → StateInfoLruCache → ShortStateHash → Option (List ShortStateInfo) × StateInfoLruCache
  | 0, cache, _ => (none, cache)
  | fuel + 1, cache, shortstatehash =>
      match cache.get shortstatehash with
      | some stack => (some stack, cache)
      | none =>
          match newShortstatehashInfo statediffs (loadWithin statediffs fuel) cache shortstatehash with
          | (some stack, cache) => (some stack, cache.put shortstatehash stack)
          | (none, cache) => (none, cache)

/-- `load_shortstatehash_info`.  The source follows parents without a bound; a parent is
allocated before its child, so has a smaller shortstatehash, and the shortstatehash bounds the
number of layers (`Stack.length_le`). -/
def Service.loadShortstatehashInfo (service : Service) (shortstatehash : ShortStateHash) :
    Option (List ShortStateInfo) × Service :=
  let (stack, cache) := loadWithin service.shortstatehashStatediff (shortstatehash + 1)
    service.stateinfoCache shortstatehash
  (stack, { service with stateinfoCache := cache })

/-- The two loops of `save_state_from_diff` that fold a diff into its parent's. -/
def mergeIntoParent (parent : ShortStateInfo) (statediffnew statediffremoved : CompressedState) :
    CompressedState × CompressedState :=
  -- a removal the parent added is forgotten, any other is removed from below
  let (parentNew, parentRemoved) :=
    SetDelta.cancel (statediffremoved.sort (· ≤ ·)) (parent.added, parent.removed)
  -- an addition the parent removed is forgotten, any other is added
  let (parentRemoved, parentNew) :=
    SetDelta.cancel (statediffnew.sort (· ≤ ·)) (parentRemoved, parentNew)
  (parentNew, parentRemoved)

/-- `save_state_from_diff`: the `shortstatehash_statediff` rows once the diff of `shortstatehash`
is written on the stack `parentStates`, or `none` where a `checked!` operation overflows. -/
def saveStateFromDiff (statediffs : Table ShortStateHash StateDiff)
    (shortstatehash : ShortStateHash) (statediffnew statediffremoved : CompressedState)
    (diffToSibling : Nat) (parentStates : List ShortStateInfo) :
    Option (Table ShortStateHash StateDiff) := do
  let diffsum ← checkedAdd statediffnew.card statediffremoved.card
  match parentStates with
  | [] => pure (statediffs.put shortstatehash ⟨none, statediffnew, statediffremoved⟩)
  | parent :: parents =>
      if (parent :: parents).length > 3 then
        -- too many layers: fold into the parent and go deeper
        let (parentNew, parentRemoved) := mergeIntoParent parent statediffnew statediffremoved
        saveStateFromDiff statediffs shortstatehash parentNew parentRemoved diffsum parents
      else
        let parentDiff ← checkedAdd parent.added.card parent.removed.card
        let square ← checkedMul diffsum diffsum
        let bound ← checkedMul (← checkedMul 2 diffToSibling) parentDiff
        if square ≥ bound then
          -- diff too big: replace the layer above
          let (parentNew, parentRemoved) := mergeIntoParent parent statediffnew statediffremoved
          saveStateFromDiff statediffs shortstatehash parentNew parentRemoved diffsum parents
        else
          pure (statediffs.put shortstatehash
            ⟨some parent.shortstatehash, statediffnew, statediffremoved⟩)

/-! ## The stack a state is stored as -/

/-- `Stack statediffs shortstatehash stack`: replaying the stored diffs from `shortstatehash`
down its parents gives `stack`. -/
inductive Stack (statediffs : Table ShortStateHash StateDiff) :
    ShortStateHash → List ShortStateInfo → Prop
  | base {shortstatehash : ShortStateHash} {added removed : CompressedState} :
      statediffs.get shortstatehash = some ⟨none, added, removed⟩ →
      Stack statediffs shortstatehash [⟨shortstatehash, added, added, removed⟩]
  | layer {shortstatehash parent : ShortStateHash} {added removed : CompressedState}
      {top : ShortStateInfo} {stack : List ShortStateInfo} :
      statediffs.get shortstatehash = some ⟨some parent, added, removed⟩ →
      Stack statediffs parent (top :: stack) →
      Stack statediffs shortstatehash
        (⟨shortstatehash, (top.fullState ∪ added) \ removed, added, removed⟩ :: top :: stack)

namespace Stack

variable {statediffs : Table ShortStateHash StateDiff}

theorem functional {shortstatehash : ShortStateHash} {stack other : List ShortStateInfo}
    (stacked : Stack statediffs shortstatehash stack)
    (stacked' : Stack statediffs shortstatehash other) : stack = other := by
  induction stacked generalizing other with
  | base stored =>
      cases stacked' with
      | base stored' => simp_all
      | layer stored' _ => simp_all
  | layer stored _ ih =>
      cases stacked' with
      | base stored' => simp_all
      | layer stored' parentStack' =>
          rw [stored] at stored'
          obtain ⟨rfl, rfl, rfl⟩ : _ ∧ _ ∧ _ := by simpa using stored'
          cases ih parentStack'
          rfl

/-- A stored state's stack starts with its own frame. -/
theorem head {shortstatehash : ShortStateHash} {stack : List ShortStateInfo}
    (stacked : Stack statediffs shortstatehash stack) :
    ∃ frame rest, stack = frame :: rest ∧ frame.shortstatehash = shortstatehash := by
  cases stacked with
  | base => exact ⟨_, _, rfl, rfl⟩
  | layer => exact ⟨_, _, rfl, rfl⟩

theorem isSome {shortstatehash : ShortStateHash} {stack : List ShortStateInfo}
    (stacked : Stack statediffs shortstatehash stack) : (statediffs.get shortstatehash).isSome := by
  cases stacked with
  | base stored => simp [stored]
  | layer stored => simp [stored]

/-- The frames under a stack's top are the stack of the state below. -/
theorem suffix {shortstatehash : ShortStateHash} {stack kept : List ShortStateInfo}
    {top : ShortStateInfo} {rest : List ShortStateInfo}
    (stacked : Stack statediffs shortstatehash stack) (suffix : kept <:+ stack)
    (kept_eq : kept = top :: rest) : Stack statediffs top.shortstatehash kept := by
  induction stacked with
  | base stored =>
      rcases List.suffix_cons_iff.mp suffix with whole | below
      · subst kept_eq
        cases whole
        exact .base stored
      · simp_all
  | layer stored parentStack ih =>
      rcases List.suffix_cons_iff.mp suffix with whole | below
      · subst kept_eq
        cases whole
        exact .layer stored parentStack
      · exact ih below

/-- A diff written at a shortstatehash that was free leaves every stored stack as it was. -/
theorem put_fresh {shortstatehash key : ShortStateHash} {stack : List ShortStateInfo}
    (stacked : Stack statediffs shortstatehash stack) (fresh : statediffs.get key = none)
    (diff : StateDiff) : Stack (statediffs.put key diff) shortstatehash stack := by
  have distinct : ∀ {other : ShortStateHash} {d : StateDiff},
      statediffs.get other = some d → other ≠ key := by
    rintro other d stored rfl
    simp [fresh] at stored
  induction stacked with
  | base stored => exact .base (by rw [Table.get_put_of_ne _ _ (distinct stored)]; exact stored)
  | layer stored _ ih =>
      exact .layer (by rw [Table.get_put_of_ne _ _ (distinct stored)]; exact stored) ih

/-- Where every parent is smaller than its child, a shortstatehash bounds its stack. -/
theorem length_le
    (parentLt : ∀ shortstatehash diff parent, statediffs.get shortstatehash = some diff →
      diff.parent = some parent → parent < shortstatehash)
    {shortstatehash : ShortStateHash} {stack : List ShortStateInfo}
    (stacked : Stack statediffs shortstatehash stack) : stack.length ≤ shortstatehash + 1 := by
  induction stacked with
  | base => simp
  | @layer shortstatehash parent added removed top stack stored _ ih =>
      have smaller := parentLt shortstatehash _ parent stored rfl
      simp only [List.length_cons] at ih ⊢
      exact Nat.succ_le_succ (ih.trans smaller)

end Stack

/-- A cache that holds only the stacks the stored diffs give. -/
def Coherent (statediffs : Table ShortStateHash StateDiff) (cache : StateInfoLruCache) : Prop :=
  ∀ shortstatehash stack, cache.get shortstatehash = some stack →
    Stack statediffs shortstatehash stack

namespace Coherent

variable {statediffs : Table ShortStateHash StateDiff} {cache : StateInfoLruCache}

theorem empty : Coherent statediffs Table.empty := by
  intro shortstatehash stack cached
  simp at cached

theorem put (coherent : Coherent statediffs cache) {shortstatehash : ShortStateHash}
    {stack : List ShortStateInfo} (stacked : Stack statediffs shortstatehash stack) :
    Coherent statediffs (cache.put shortstatehash stack) := by
  intro other found cached
  by_cases same : other = shortstatehash
  · subst same
    simp only [Table.get_put_self, Option.some.injEq] at cached
    exact cached ▸ stacked
  · rw [Table.get_put_of_ne _ _ same] at cached
    exact coherent other found cached

/-- Evicting an entry keeps a cache coherent. -/
theorem remove (coherent : Coherent statediffs cache) (shortstatehash : ShortStateHash) :
    Coherent statediffs (cache.remove shortstatehash) := by
  intro other found cached
  by_cases same : other = shortstatehash
  · simp [same] at cached
  · rw [Table.get_remove_of_ne _ same] at cached
    exact coherent other found cached

theorem put_fresh (coherent : Coherent statediffs cache) {key : ShortStateHash}
    (fresh : statediffs.get key = none) (diff : StateDiff) :
    Coherent (statediffs.put key diff) cache :=
  fun shortstatehash stack cached => (coherent shortstatehash stack cached).put_fresh fresh diff

end Coherent

section Load

variable {statediffs : Table ShortStateHash StateDiff}

theorem newShortstatehashInfo_base {shortstatehash : ShortStateHash}
    {added removed : CompressedState}
    (stored : statediffs.get shortstatehash = some ⟨none, added, removed⟩)
    (loadParent : StateInfoLruCache → ShortStateHash →
      Option (List ShortStateInfo) × StateInfoLruCache) (cache : StateInfoLruCache) :
    newShortstatehashInfo statediffs loadParent cache shortstatehash =
      (some [⟨shortstatehash, added, added, removed⟩], cache) := by
  simp [newShortstatehashInfo, stored]

theorem newShortstatehashInfo_layer {shortstatehash parent : ShortStateHash}
    {added removed : CompressedState}
    (stored : statediffs.get shortstatehash = some ⟨some parent, added, removed⟩)
    {loadParent : StateInfoLruCache → ShortStateHash →
      Option (List ShortStateInfo) × StateInfoLruCache} {cache cache' : StateInfoLruCache}
    {top : ShortStateInfo} {stack : List ShortStateInfo}
    (loaded : loadParent cache parent = (some (top :: stack), cache')) :
    newShortstatehashInfo statediffs loadParent cache shortstatehash =
      (some (⟨shortstatehash, (top.fullState ∪ added) \ removed, added, removed⟩ :: top :: stack),
        cache') := by
  simp [newShortstatehashInfo, stored, loaded]

/-- A load that misses the cache computes the stack and caches it. -/
theorem loadWithin_miss {fuel : Nat} {cache cache' : StateInfoLruCache}
    {shortstatehash : ShortStateHash} {stack : List ShortStateInfo}
    (miss : cache.get shortstatehash = none)
    (computed : newShortstatehashInfo statediffs (loadWithin statediffs fuel) cache shortstatehash =
      (some stack, cache')) :
    loadWithin statediffs (fuel + 1) cache shortstatehash =
      (some stack, cache'.put shortstatehash stack) := by
  simp [loadWithin, miss, computed]

/-- With fuel for every layer, a load from a coherent cache returns the stored stack and leaves
the cache coherent: the induction follows the stack down its parents. -/
theorem loadWithin_of_stack {shortstatehash : ShortStateHash} {stack : List ShortStateInfo}
    (stacked : Stack statediffs shortstatehash stack) {fuel : Nat} (enough : stack.length ≤ fuel)
    {cache : StateInfoLruCache} (coherent : Coherent statediffs cache) :
    ∃ cache', loadWithin statediffs fuel cache shortstatehash = (some stack, cache') ∧
      Coherent statediffs cache' := by
  obtain ⟨fuel, rfl⟩ : ∃ rest, fuel = rest + 1 := by
    obtain ⟨frame, rest, rfl, -⟩ := stacked.head
    exact ⟨fuel - 1, by simp only [List.length_cons] at enough; omega⟩
  cases hit : cache.get shortstatehash with
  | some cached =>
      -- a hit returns the cached stack, which is the stored one
      refine ⟨cache, ?_, coherent⟩
      rw [stacked.functional (coherent shortstatehash cached hit)]
      simp [loadWithin, hit]
  | none =>
      induction stacked generalizing fuel cache with
      | base stored =>
          exact ⟨_, loadWithin_miss hit (newShortstatehashInfo_base stored _ cache),
            coherent.put (.base stored)⟩
      | @layer shortstatehash parent added removed top stack stored parentStack ih =>
          simp only [List.length_cons] at enough
          obtain ⟨cache', loaded, coherent'⟩ : ∃ cache', loadWithin statediffs fuel cache parent =
              (some (top :: stack), cache') ∧ Coherent statediffs cache' := by
            obtain ⟨fuel, rfl⟩ : ∃ rest, fuel = rest + 1 := ⟨fuel - 1, by omega⟩
            cases parentHit : cache.get parent with
            | some cached =>
                refine ⟨cache, ?_, coherent⟩
                rw [parentStack.functional (coherent parent cached parentHit)]
                simp [loadWithin, parentHit]
            | none => exact ih coherent fuel (by simp only [List.length_cons]; omega) parentHit
          exact ⟨_, loadWithin_miss hit (newShortstatehashInfo_layer stored loaded),
            coherent'.put (.layer stored parentStack)⟩

/-- Where parents are smaller than their children, the service's load of a stored state returns
its stack and keeps the cache coherent. -/
theorem loadShortstatehashInfo_of_stack {service : Service}
    (parentLt : ∀ shortstatehash diff parent,
      service.shortstatehashStatediff.get shortstatehash = some diff →
      diff.parent = some parent → parent < shortstatehash)
    (coherent : Coherent service.shortstatehashStatediff service.stateinfoCache)
    {shortstatehash : ShortStateHash} {stack : List ShortStateInfo}
    (stacked : Stack service.shortstatehashStatediff shortstatehash stack) :
    ∃ cache, service.loadShortstatehashInfo shortstatehash =
        (some stack, { service with stateinfoCache := cache }) ∧
      Coherent service.shortstatehashStatediff cache := by
  obtain ⟨cache, loaded, coherent'⟩ :=
    loadWithin_of_stack stacked (stacked.length_le parentLt) coherent
  exact ⟨cache, by simp [Service.loadShortstatehashInfo, loaded], coherent'⟩

end Load

/-! ## Writing a diff -/

/-- The full state under a stack's top frame: nothing under a base layer. -/
def below : List ShortStateInfo → CompressedState
  | [] => ∅
  | frame :: _ => frame.fullState

/-- Each frame of a stack is a minimal delta on the frame below, and holds that delta's
result as its full state. -/
def Replays : List ShortStateInfo → Prop
  | [] => True
  | frame :: stack => SetDelta.Minimal (below stack) frame.added frame.removed ∧
      frame.fullState = SetDelta.apply (below stack) frame.added frame.removed ∧ Replays stack

theorem Replays.of_suffix {stack kept : List ShortStateInfo} (replays : Replays stack)
    (suffix : kept <:+ stack) : Replays kept := by
  induction stack with
  | nil => rw [List.suffix_nil.mp suffix]; trivial
  | cons frame stack ih =>
      rcases List.suffix_cons_iff.mp suffix with whole | below
      · exact whole ▸ replays
      · exact ih replays.2.2 below

/-- The two loops fold the diff into the parent's as `SetDelta.merge` does. -/
theorem mergeIntoParent_eq (parent : ShortStateInfo) (statediffnew statediffremoved : CompressedState) :
    mergeIntoParent parent statediffnew statediffremoved =
      SetDelta.merge parent.added parent.removed statediffnew statediffremoved := by
  simp [mergeIntoParent, SetDelta.merge, SetDelta.cancel_eq (Finset.sort_nodup _ _),
    Finset.sort_toFinset]

/-- Folding a minimal diff into a replaying parent gives a minimal diff on the frame below with
the same result. -/
theorem merge_replays {parent : ShortStateInfo} {parents : List ShortStateInfo}
    {statediffnew statediffremoved : CompressedState} (replays : Replays (parent :: parents))
    (minimal : SetDelta.Minimal parent.fullState statediffnew statediffremoved) :
    SetDelta.Minimal (below parents) (mergeIntoParent parent statediffnew statediffremoved).1
        (mergeIntoParent parent statediffnew statediffremoved).2 ∧
      SetDelta.apply (below parents) (mergeIntoParent parent statediffnew statediffremoved).1
          (mergeIntoParent parent statediffnew statediffremoved).2 =
        SetDelta.apply parent.fullState statediffnew statediffremoved := by
  obtain ⟨lower, full, -⟩ := replays
  rw [mergeIntoParent_eq]
  rw [full] at minimal ⊢
  exact ⟨SetDelta.merge_minimal lower minimal, SetDelta.apply_merge lower minimal⟩

/-- What one call of `save_state_from_diff` does: a new base layer, a diff stacked on a parent
with fewer than three frames under it, or the diff folded into the parent and written deeper. -/
theorem saveStateFromDiff_cases {statediffs statediffs' : Table ShortStateHash StateDiff}
    {shortstatehash : ShortStateHash} {statediffnew statediffremoved : CompressedState}
    {diffToSibling : Nat} {parentStates : List ShortStateInfo}
    (saved : saveStateFromDiff statediffs shortstatehash statediffnew statediffremoved
      diffToSibling parentStates = some statediffs') :
    (parentStates = [] ∧
        statediffs' = statediffs.put shortstatehash ⟨none, statediffnew, statediffremoved⟩) ∨
      (∃ parent parents, parentStates = parent :: parents ∧ parents.length < 3 ∧
        statediffs' = statediffs.put shortstatehash
          ⟨some parent.shortstatehash, statediffnew, statediffremoved⟩) ∨
      (∃ parent parents diffsum, parentStates = parent :: parents ∧
        saveStateFromDiff statediffs shortstatehash
          (mergeIntoParent parent statediffnew statediffremoved).1
          (mergeIntoParent parent statediffnew statediffremoved).2 diffsum parents =
            some statediffs') := by
  unfold saveStateFromDiff at saved
  cases summed : checkedAdd statediffnew.card statediffremoved.card with
  | none => simp [summed] at saved
  | some diffsum =>
      simp only [summed, Option.bind_eq_bind, Option.bind_some] at saved
      cases parentStates with
      | nil =>
          simp only [Option.pure_def, Option.some.injEq] at saved
          exact .inl ⟨rfl, saved.symm⟩
      | cons parent parents =>
          simp only [List.length_cons] at saved
          split at saved
          · exact .inr (.inr ⟨parent, parents, diffsum, rfl, saved⟩)
          · rename_i shallow
            simp only [Option.bind_eq_some_iff] at saved
            obtain ⟨parentDiff, -, square, -, factor, -, bound, -, written⟩ := saved
            split at written
            · exact .inr (.inr ⟨parent, parents, diffsum, rfl, written⟩)
            · simp only [Option.pure_def, Option.some.injEq] at written
              exact .inr (.inl ⟨parent, parents, rfl, by omega, written.symm⟩)

/-- Every branch of `save_state_from_diff` on a replaying stack writes at `shortstatehash` a
minimal diff on a suffix of at most three frames, with the result of the requested diff. -/
theorem saveStateFromDiff_spec {statediffs statediffs' : Table ShortStateHash StateDiff}
    {shortstatehash : ShortStateHash} {statediffnew statediffremoved : CompressedState}
    {diffToSibling : Nat} {parentStates : List ShortStateInfo} (replays : Replays parentStates)
    (minimal : SetDelta.Minimal (below parentStates) statediffnew statediffremoved)
    (saved : saveStateFromDiff statediffs shortstatehash statediffnew statediffremoved
      diffToSibling parentStates = some statediffs') :
    ∃ kept added removed, kept <:+ parentStates ∧ kept.length ≤ 3 ∧
      SetDelta.Minimal (below kept) added removed ∧
      SetDelta.apply (below kept) added removed =
        SetDelta.apply (below parentStates) statediffnew statediffremoved ∧
      statediffs' = statediffs.put shortstatehash
        ⟨kept.head?.map (·.shortstatehash), added, removed⟩ := by
  induction parentStates generalizing statediffnew statediffremoved diffToSibling with
  | nil =>
      rcases saveStateFromDiff_cases saved with ⟨-, rfl⟩ | ⟨_, _, stacked, -⟩ | ⟨_, _, _, stacked, -⟩
      · exact ⟨[], statediffnew, statediffremoved, List.suffix_refl _, by simp, minimal, rfl, rfl⟩
      · cases stacked
      · cases stacked
  | cons parent parents ih =>
      rcases saveStateFromDiff_cases saved with
        ⟨stacked, -⟩ | ⟨_, _, stacked, shallow, rfl⟩ | ⟨_, _, diffsum, stacked, merged⟩
      · cases stacked
      · -- stacked on the parent
        obtain ⟨rfl, rfl⟩ := List.cons.inj stacked
        exact ⟨parent :: parents, statediffnew, statediffremoved, List.suffix_refl _,
          by simp only [List.length_cons]; omega, minimal, rfl, rfl⟩
      · -- folded into the parent: the merged diff is minimal one frame down, with the same result
        obtain ⟨rfl, rfl⟩ := List.cons.inj stacked
        obtain ⟨mergedMinimal, mergedApply⟩ := merge_replays replays minimal
        obtain ⟨kept, added, removed, suffix, short, keptMinimal, keptApply, rfl⟩ :=
          ih replays.2.2 mergedMinimal merged
        refine ⟨kept, added, removed, suffix.trans (List.suffix_cons _ _), short, keptMinimal, ?_,
          rfl⟩
        rw [keptApply, mergedApply]
        rfl

/-- The diff `save_state_from_diff` writes at a free shortstatehash, on the stack of a stored
state or on none, gives the new state a stack of at most four frames that replays to the
requested state; its parent, if any, is stored. -/
theorem stack_saveStateFromDiff {statediffs statediffs' : Table ShortStateHash StateDiff}
    {shortstatehash : ShortStateHash} {statediffnew statediffremoved : CompressedState}
    {diffToSibling : Nat} {parentStates : List ShortStateInfo}
    (fresh : statediffs.get shortstatehash = none)
    (loaded : parentStates = [] ∨ ∃ previous, Stack statediffs previous parentStates)
    (replays : Replays parentStates)
    (minimal : SetDelta.Minimal (below parentStates) statediffnew statediffremoved)
    (saved : saveStateFromDiff statediffs shortstatehash statediffnew statediffremoved
      diffToSibling parentStates = some statediffs') :
    ∃ diff, statediffs' = statediffs.put shortstatehash diff ∧
      (∀ parent, diff.parent = some parent → (statediffs.get parent).isSome) ∧
      ∃ frame rest, Stack statediffs' shortstatehash (frame :: rest) ∧ rest.length ≤ 3 ∧
        Replays (frame :: rest) ∧
        frame.fullState = SetDelta.apply (below parentStates) statediffnew statediffremoved := by
  obtain ⟨kept, added, removed, suffix, short, keptMinimal, keptApply, rfl⟩ :=
    saveStateFromDiff_spec replays minimal saved
  have keptReplays := replays.of_suffix suffix
  cases kept with
  | nil =>
      -- a base layer, which removes nothing
      have noRemoved := keptMinimal.removed_eq_empty
      subst noRemoved
      refine ⟨_, rfl, by simp, _, [], .base (Table.get_put_self _ _ _), by simp,
        ⟨keptMinimal, keptMinimal.apply_empty.symm, trivial⟩, ?_⟩
      rw [← keptApply]
      exact keptMinimal.apply_empty.symm
  | cons top rest =>
      have topStack : Stack statediffs top.shortstatehash (top :: rest) := by
        rcases loaded with rfl | ⟨previous, stacked⟩
        · simp at suffix
        · exact stacked.suffix suffix rfl
      refine ⟨_, rfl, fun parent named => ?_, _, top :: rest,
        .layer (Table.get_put_self _ _ _) (topStack.put_fresh fresh _), short,
        ⟨keptMinimal, rfl, keptReplays⟩, keptApply⟩
      simp only [List.head?_cons, Option.map_some, Option.some.injEq] at named
      exact named ▸ topStack.isSome

end StateCompressor
end Tuwunel
