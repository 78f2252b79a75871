import Mathlib
import Tuwunel.Service.Rooms.EventHandler.StateLocalBuild.Discover

/-!
# The recursive specification of the local state walk

What the walk computes, stated without the walk: the state after an event of its frontier is
what the loaders give (`committedState`, `memoizedState`).  The state after a held event is its
own gated fold over the state before it.  The state before an event is the state after its one
prev, or the state resolution of the states after all of its prevs (`combine`).

`SpecAfter` is this recursion as a relation, so that it is stated for any graph; its
derivations are finite, and it relates each event to at most one map (`SpecAfter.unique`).
-/

namespace Tuwunel
namespace EventHandler

variable (services : LocalServices)

/-- The state before an event from the states after its prevs: the one map of a single prev,
their state resolution otherwise. -/
def combine (prevs : List EventId) (afters : List StateIds) : Option StateIds :=
  match prevs, afters with
  | [_], [after] => some after
  | _, _ => services.stateResolution afters

/-- `After(x)`: the state after an event, by its class. -/
inductive SpecAfter : EventId → StateIds → Prop
  | committed {eventId : EventId} {shortstatehash : ShortStateHash} {state : StateIds} :
      services.pduShortstatehash eventId = some shortstatehash →
      committedState services eventId shortstatehash = some state → SpecAfter eventId state
  | memoized {eventId : EventId} {state : StateIds} :
      services.pduShortstatehash eventId = none → services.resolvedStateExists eventId = true →
      memoizedState services eventId = .ok state → SpecAfter eventId state
  | held {eventId : EventId} {pdu : Pdu} {afters : List StateIds} {before : StateIds} :
      services.Held eventId pdu → pdu.prevEvents.length = afters.length →
      (∀ {prev after}, (prev, after) ∈ pdu.prevEvents.zip afters → SpecAfter prev after) →
      combine services pdu.prevEvents afters = some before →
      SpecAfter eventId (foldOwnState services pdu before)

/-- `Before(x)`, and `Spec` of a list of prevs: the states after the prevs, combined. -/
def SpecBefore (prevs : List EventId) (before : StateIds) : Prop :=
  ∃ afters, List.Forall₂ (SpecAfter services) prevs afters ∧ combine services prevs afters = some before

variable {services}

theorem combine_of_ne_singleton {prevs : List EventId} (several : ∀ prev, prevs ≠ [prev])
    (afters : List StateIds) : combine services prevs afters = services.stateResolution afters := by
  unfold combine
  split
  · exact absurd rfl (several _)
  · rfl

/-- Lists related pointwise to the same list, by a relation functional on it, are equal. -/
theorem forall₂_eq_of_unique {α β : Type} {R : α → β → Prop} :
    ∀ {keys : List α} {values values' : List β},
      List.Forall₂ (fun key value => ∀ value', R key value' → value = value') keys values →
      List.Forall₂ R keys values' → values = values'
  | _, _, _, .nil, .nil => rfl
  | _, _, _, .cons unique rest, .cons related rest' => by
      rw [unique _ related, forall₂_eq_of_unique rest rest']

/-- The state after an event is unique: the classes exclude one another, and a held event's
prevs have unique states after them, by induction on the derivation. -/
theorem SpecAfter.unique {eventId : EventId} {state state' : StateIds}
    (first : SpecAfter services eventId state) (second : SpecAfter services eventId state') :
    state = state' := by
  induction first generalizing state' with
  | committed found loaded =>
      cases second with
      | committed found' loaded' =>
          rw [found, Option.some.injEq] at found'
          subst found'
          exact Option.some.inj (loaded.symm.trans loaded')
      | memoized unhashed _ _ => simp [found] at unhashed
      | held held' _ _ _ => simp [found, LocalServices.Held] at held'
  | memoized unhashed memo loaded =>
      cases second with
      | committed found' _ => simp [unhashed] at found'
      | memoized _ _ loaded' => exact Except.ok.inj (loaded.symm.trans loaded')
      | held held' _ _ _ => simp [memo, LocalServices.Held] at held'
  | held held length _ combined afterUnique =>
      cases second with
      | committed found' _ => simp [held.1] at found'
      | memoized _ memo' _ => simp [held.2.1] at memo'
      | held held' length' afters' combined' =>
          -- one pdu, so one list of prevs, whose states after agree pairwise
          have same : _ = _ := Option.some.inj (held.2.2.symm.trans held'.2.2)
          subst same
          have agree := forall₂_eq_of_unique
            (List.forall₂_iff_zip.mpr ⟨length, fun member _ other => afterUnique member other⟩)
            (List.forall₂_iff_zip.mpr ⟨length', afters'⟩)
          subst agree
          rw [Option.some.inj (combined.symm.trans combined')]

/-- The state before a list of prevs is unique. -/
theorem SpecBefore.unique {prevs : List EventId} {before before' : StateIds}
    (first : SpecBefore services prevs before) (second : SpecBefore services prevs before') :
    before = before' := by
  obtain ⟨afters, related, combined⟩ := first
  obtain ⟨afters', related', combined'⟩ := second
  have agree : afters = afters' :=
    forall₂_eq_of_unique
      (related.imp fun _ _ after _ after' => SpecAfter.unique after after') related'
  subst agree
  exact Option.some.inj (combined.symm.trans combined')

end EventHandler
end Tuwunel
