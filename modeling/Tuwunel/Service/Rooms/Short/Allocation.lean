import Tuwunel.Library.StepRun
import Tuwunel.Service.Rooms.Short

/-!
# Short ids are a bijection under concurrency

From consistent columns, every interleaving of short-id calls, cancellations and other callers of
`next_count` keeps the columns consistent (`Short.Consistent`) and keeps what each call has read
current (`Task.Current`).  A read that found a short id stays right because a forward row, once
written, is never rewritten (`Store.Extends`); the read under the lock stays right because only
the lock's holder writes the identity's row (`Interleaving.guarded_step`).  So every call that
returned, returned the short id its identity has now, and the columns are injective across the
three kinds and inverse to their reverse columns.
-/

namespace Tuwunel
namespace Short

open KeyValue Interleaving

variable {EventId Key Digest : Type} [DecidableEq EventId] [DecidableEq Key] [DecidableEq Digest]

/-- What a call has read is still so: a read that found a short id, a return, and the read under
the lock. -/
def Task.Current (store : Store EventId Key Digest) (task : Task EventId Key Digest) : Prop :=
  match task.phase with
  | .got (some short) | .done short _ => store.lookup task.request.identity = some short
  | .regot found => store.lookup task.request.identity = found
  | _ => True

/-- Every short id of `store` is still in `store'`. -/
def Store.Extends (store store' : Store EventId Key Digest) : Prop :=
  ∀ identity short, store.lookup identity = some short → store'.lookup identity = some short

omit [DecidableEq EventId] [DecidableEq Key] [DecidableEq Digest] in
/-- A read that found a short id or a return stays current while the rows stay, and the read under
the lock while the locked row stays. -/
theorem Task.Current.of_extends {store store' : Store EventId Key Digest}
    {task : Task EventId Key Digest} (current : task.Current store) (kept : store.Extends store')
    (guarded : ∀ key ∈ task.phase.holds task.request.identity, store'.lookup key = store.lookup key) :
    task.Current store' := by
  obtain ⟨request, phase⟩ := task
  cases phase with
  | got found =>
      cases found with
      | some short => exact kept _ _ current
      | none => trivial
  | done short existed => exact kept _ _ current
  | regot found =>
      exact (guarded request.identity (by simp [Phase.holds])).trans current
  | _ => trivial

section Poll

variable {store : Store EventId Key Digest} {task : Task EventId Key Digest}

/-- A poll keeps every short id: `create_*` writes only at an identity its read under the lock
found without one. -/
theorem Task.advance_extends (current : task.Current store) :
    store.Extends (task.advance store).1 := by
  intro identity short found
  obtain ⟨request, phase⟩ := task
  cases phase with
  | regot found' =>
      cases found' with
      | some short' => exact found
      | none =>
          have absent : store.lookup request.identity = none := current
          rcases request.create_cases store with ⟨_, -, created⟩ | ⟨_, -, unchanged, -⟩
          · have distinct : identity ≠ request.identity := fun same => by
              rw [same, absent] at found
              cases found
            simp [Task.advance, created, distinct, found]
          · simp [Task.advance, unchanged, found]
  | got found' => cases found' <;> exact found
  | _ => exact found

/-- A poll keeps the columns consistent. -/
theorem Task.advance_consistent (consistent : Consistent store) (current : task.Current store) :
    Consistent (task.advance store).1 := by
  obtain ⟨request, phase⟩ := task
  cases phase with
  | regot found =>
      cases found with
      | some short => exact consistent
      | none =>
          rcases request.create_cases store with ⟨counter, drawn, created⟩ |
            ⟨counter, later, unchanged, -⟩
          · simp only [Task.advance, created]
            exact consistent.allocate current drawn
          · simp only [Task.advance, unchanged]
            exact consistent.withCounter later
  | got found => cases found <;> exact consistent
  | _ => exact consistent

/-- What a poll has read is current after it. -/
theorem Task.advance_current (current : task.Current store) :
    ({ task with phase := (task.advance store).2 } : Task EventId Key Digest).Current
      (task.advance store).1 := by
  obtain ⟨request, phase⟩ := task
  cases phase with
  | start =>
      -- the read's result is what the column holds now
      cases found : store.lookup request.identity with
      | none => simp [Task.advance, Task.Current, found]
      | some short => simp [Task.advance, Task.Current, found]
  | got found =>
      cases found with
      | none => trivial
      | some short => exact current
  | lock => exact rfl
  | regot found =>
      cases found with
      | some short => exact current
      | none =>
          show Task.Current (request.create store).1 ⟨request, (request.create store).2⟩
          rcases request.create_cases store with ⟨_, -, created⟩ |
            ⟨_, -, -, failed | panicked⟩
          · rw [created]
            simp [Task.Current]
          · rw [failed]
            trivial
          · rw [panicked]
            trivial
  | _ => exact current

end Poll

/-! ## Every reachable configuration -/

/-- The locks are exclusive, the columns consistent, and what each call read is current. -/
structure Sound (config : Config (Store EventId Key Digest) (Task EventId Key Digest)) : Prop where
  exclusive : Exclusive program config.tasks
  consistent : Consistent config.shared
  tasks : ∀ (index : Nat) (task : Task EventId Key Digest), config.tasks[index]? = some task →
    task.Current config.shared

/-- Calls not polled yet, over consistent columns. -/
theorem sound_initial {store : Store EventId Key Digest} (consistent : Consistent store)
    {tasks : List (Task EventId Key Digest)} (fresh : ∀ task ∈ tasks, task.phase = .start) :
    Sound ⟨store, tasks⟩ where
  exclusive := exclusive_of_holds_nil fun task member => by
    simp [program, fresh task member, Phase.holds]
  consistent := consistent
  tasks index task found := by
    simp [Task.Current, fresh task (List.mem_of_getElem? found)]

/-- What a step does to the columns: a poll of a call whose reads are current, or another caller
of `next_count`. -/
theorem Sound.step_shared {config config' : Config (Store EventId Key Digest) (Task EventId Key Digest)}
    (sound : Sound config) {action : Action TwoPhaseCounter.Action}
    (stepped : Interleaving.step program config action = some config') :
    Consistent config'.shared ∧ config.shared.Extends config'.shared := by
  cases action with
  | poll index =>
      obtain ⟨task, found, -, -, rfl⟩ := step_poll stepped
      have current := sound.tasks index task found
      exact ⟨Task.advance_consistent sound.consistent current, Task.advance_extends current⟩
  | cancel index =>
      obtain ⟨-, -, -, rfl⟩ := step_cancel stepped
      exact ⟨sound.consistent, fun _ _ found => found⟩
  | env action =>
      obtain ⟨shared, moved, rfl⟩ := step_env stepped
      obtain rfl := Option.some.inj moved
      refine ⟨?_, fun identity short found => by simpa using found⟩
      rw [Store.other_eq]
      exact sound.consistent.withCounter (config.shared.dispatched_le_other action)

theorem Sound.step {config config' : Config (Store EventId Key Digest) (Task EventId Key Digest)}
    (sound : Sound config) {action : Action TwoPhaseCounter.Action}
    (stepped : Interleaving.step program config action = some config') : Sound config' := by
  obtain ⟨consistent, kept⟩ := sound.step_shared stepped
  refine ⟨exclusive_step program_disciplined sound.exclusive stepped, consistent,
    fun index task' found' => ?_⟩
  obtain ⟨task, found, polled | dropped | other⟩ := lookup_step stepped found'
  · obtain ⟨-, shared, rfl⟩ := polled
    rw [shared]
    exact Task.advance_current (sound.tasks index task found)
  · obtain ⟨-, -, rfl⟩ := dropped
    trivial
  · -- a call the step did not poll: its rows stay, and so does the row of the lock it holds
    obtain ⟨distinct, rfl⟩ := other
    exact (sound.tasks index task' found).of_extends kept fun key held =>
      guarded_step program_guards sound.exclusive found held distinct stepped

/-- Every configuration an interleaving reaches from consistent columns is sound. -/
theorem sound_run {store : Store EventId Key Digest} (consistent : Consistent store)
    {tasks : List (Task EventId Key Digest)} (fresh : ∀ task ∈ tasks, task.phase = .start)
    {actions : List (Action TwoPhaseCounter.Action)}
    {final : Config (Store EventId Key Digest) (Task EventId Key Digest)}
    (ran : StepRun.run (Interleaving.step program) ⟨store, tasks⟩ actions = some final) :
    Sound final :=
  StepRun.run_invariant Sound (fun _ _ _ sound stepped => sound.step stepped)
    (sound_initial consistent fresh) ran

/-- From consistent columns, in every configuration that an interleaving of short-id calls (a
`multi_get_or_create_shorteventid` call being one call per event id), cancellations, failures of
`write_statediff` and other callers of `next_count` reaches: two calls that returned gave the same
short id exactly when they were for the same identity, of the same kind; and each forward column is
inverse to its reverse column. -/
theorem short_id_allocation_bijective {store : Store EventId Key Digest}
    (consistent : Consistent store) {tasks : List (Task EventId Key Digest)}
    (fresh : ∀ task ∈ tasks, task.phase = .start) {actions : List (Action TwoPhaseCounter.Action)}
    {final : Config (Store EventId Key Digest) (Task EventId Key Digest)}
    (ran : StepRun.run (Interleaving.step program) ⟨store, tasks⟩ actions = some final) :
    (∀ (index index' : Nat) (task task' : Task EventId Key Digest) short short' existed existed',
        final.tasks[index]? = some task → final.tasks[index']? = some task' →
        task.phase = .done short existed → task'.phase = .done short' existed' →
        (task.request.identity = task'.request.identity ↔ short = short')) ∧
      Table.Inverse final.shared.eventidShorteventid final.shared.shorteventidEventid ∧
      Table.Inverse final.shared.statekeyShortstatekey final.shared.shortstatekeyStatekey := by
  have sound := sound_run consistent fresh ran
  refine ⟨fun index index' task task' short short' existed existed' found found' done done' => ?_,
    sound.consistent.events, sound.consistent.stateKeys⟩
  -- each returned short id is the one its identity holds now
  have holds : final.shared.lookup task.request.identity = some short := by
    have current := sound.tasks index task found
    simpa [Task.Current, done] using current
  have holds' : final.shared.lookup task'.request.identity = some short' := by
    have current := sound.tasks index' task' found'
    simpa [Task.Current, done'] using current
  constructor
  · intro same
    rw [same, holds'] at holds
    exact (Option.some.inj holds).symm
  · intro same
    rw [same] at holds
    exact sound.consistent.injective _ _ _ holds holds'

/-- Two `get_or_create_shorteventid` calls for one event id, a batch of it and another, a state
key, and two calls for one state hash, the first failing in `write_statediff`. -/
def racingCalls : List (Task Nat Nat Nat) :=
  [getOrCreateShorteventid 1, getOrCreateShorteventid 1] ++ multiGetOrCreateShorteventid [1, 2] ++
    [getOrCreateShortstatekey 1, getOrCreateShortstatehash 1 (fun _ => false),
      getOrCreateShortstatehash 1 (fun _ => true)]

/-- The first two calls both miss before either locks; then the others, one after another. -/
def racingRun : List (Action TwoPhaseCounter.Action) :=
  [.poll 0, .poll 1, .poll 0, .poll 1, .poll 0, .poll 0, .poll 1, .poll 1] ++
    List.replicate 2 (.poll 2) ++ List.replicate 4 (.poll 3) ++ List.replicate 4 (.poll 4) ++
      List.replicate 4 (.poll 5) ++ List.replicate 4 (.poll 6)

theorem short_id_allocation_bijective_racing :
    ∃ final, StepRun.run (Interleaving.step program) ⟨Store.empty (TwoPhaseCounter.State.new 0),
        racingCalls⟩ racingRun = some final ∧
      final.tasks.map Task.phase =
        [.done 1 false, .done 1 true, .done 1 true, .done 2 false, .done 3 false, .failed,
          .done 5 false] ∧
      (∀ (index index' : Nat) (task task' : Task Nat Nat Nat) short short' existed existed',
          final.tasks[index]? = some task → final.tasks[index']? = some task' →
          task.phase = .done short existed → task'.phase = .done short' existed' →
          (task.request.identity = task'.request.identity ↔ short = short')) ∧
      Table.Inverse final.shared.eventidShorteventid final.shared.shorteventidEventid ∧
      Table.Inverse final.shared.statekeyShortstatekey final.shared.shortstatekeyStatekey := by
  -- the counter retires permits through a binary search, which only the kernel evaluates
  have phases : (StepRun.run (Interleaving.step program)
      ⟨Store.empty (TwoPhaseCounter.State.new 0), racingCalls⟩ racingRun).map
        (fun final => final.tasks.map Task.phase) =
      some [.done 1 false, .done 1 true, .done 1 true, .done 2 false, .done 3 false, .failed,
        .done 5 false] := by
    decide +kernel
  obtain ⟨final, ran, listed⟩ := Option.map_eq_some_iff.mp phases
  exact ⟨final, ran, listed,
    short_id_allocation_bijective (Consistent.empty _) (by decide) ran⟩

end Short
end Tuwunel
