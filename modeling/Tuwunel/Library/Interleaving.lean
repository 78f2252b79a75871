import Mathlib
import Tuwunel.Library.StepRun

/-!
# Tasks interleaved at their awaits, under keyed locks

Asynchronous tasks share a state `σ`, and each is in a local state `τ` that says at which await it
is suspended and what it has read so far.  A `Program` says of a local state which lock key the
task awaits before it can go on (`awaits`), which keys it holds (`holds`), whether it can still be
polled (`live`), and what a poll does: the code from that await to the next one, run at once on
the shared state (`resume`).  A live task may instead be dropped at its await (`cancel`), and the
environment may change the shared state (`env`: a clock).  A poll of a task that awaits a key some
other task holds does not happen.

Three rules rest on laws of the program alone.  Locks stay exclusive (`exclusive_step`) when a
poll takes at most the key it awaited and a dropped task holds nothing.  What a key guards changes
only in steps of the key's holder (`guarded_step`) when a poll writes only under keys it holds or
takes: a value a task read under a lock stays current while it holds the lock.  When every task
awaits only keys of a higher level than the keys it holds, no tasks wait for one another in a
cycle (`waitsFor_acyclic`).
-/

namespace Interleaving

/-- Tasks with local states `τ` over a shared state `σ`, with lock keys `κ` and events `ε` of the
environment. -/
structure Program (σ τ κ ε : Type*) where
  /-- The key the task waits for before its next poll, if any. -/
  awaits : τ → Option κ
  /-- The keys the task holds. -/
  holds : τ → List κ
  /-- The task can still be polled or dropped. -/
  live : τ → Bool
  /-- A poll: the code up to the next await, and the shared state it leaves. -/
  resume : σ → τ → σ × τ
  /-- The task dropped at its await. -/
  cancel : τ → τ
  /-- An event of the environment. -/
  env : σ → ε → Option σ

/-- The shared state and the tasks, numbered by position. -/
structure Config (σ τ : Type*) where
  shared : σ
  tasks : List τ

/-- The scheduler's choices. -/
inductive Action (ε : Type*)
  | poll (task : Nat)
  | cancel (task : Nat)
  | env (event : ε)

variable {σ τ κ ε : Type*} (P : Program σ τ κ ε)

/-- A lookup in a list with one entry replaced. -/
theorem getElem?_set_eq_some_cases {list : List τ} {index other : Nat} {value found : τ}
    (lookup : (list.set index value)[other]? = some found) :
    (other = index ∧ found = value) ∨ (other ≠ index ∧ list[other]? = some found) := by
  rw [List.getElem?_set] at lookup
  split_ifs at lookup with same
  · exact .inl ⟨same.symm, (Option.some.inj lookup).symm⟩
  · exact .inr ⟨Ne.symm same, lookup⟩

section Step

variable [DecidableEq κ]

/-- No task but `self` holds `key`. -/
def free (tasks : List τ) (self : Nat) (key : κ) : Bool :=
  tasks.zipIdx.all fun entry => entry.2 == self || !(P.holds entry.1).contains key

theorem free_iff {tasks : List τ} {self : Nat} {key : κ} :
    free P tasks self key = true ↔
      ∀ other task, tasks[other]? = some task → other ≠ self → key ∉ P.holds task := by
  simp only [free, List.all_eq_true, Bool.or_eq_true, beq_iff_eq, Bool.not_eq_true',
    List.contains_eq_mem, decide_eq_false_iff_not, Prod.forall, List.mem_zipIdx_iff_getElem?]
  constructor
  · intro all other task lookup distinct
    exact (all task other lookup).resolve_left distinct
  · intro all task other lookup
    by_cases same : other = self
    · exact .inl same
    · exact .inr (all other task lookup same)

/-- One choice of the scheduler; `none` when it cannot be taken. -/
def step (config : Config σ τ) : Action ε → Option (Config σ τ)
  | .poll index =>
      match config.tasks[index]? with
      | some task =>
          if P.live task && (P.awaits task).all (free P config.tasks index) then
            some ⟨(P.resume config.shared task).1,
              config.tasks.set index (P.resume config.shared task).2⟩
          else none
      | none => none
  | .cancel index =>
      match config.tasks[index]? with
      | some task =>
          if P.live task then some ⟨config.shared, config.tasks.set index (P.cancel task)⟩
          else none
      | none => none
  | .env event => (P.env config.shared event).map fun shared => ⟨shared, config.tasks⟩

variable {P} {config config' : Config σ τ}

theorem step_poll {index : Nat} (stepped : step P config (.poll index) = some config') :
    ∃ task, config.tasks[index]? = some task ∧ P.live task = true ∧
      (∀ key, P.awaits task = some key → free P config.tasks index key = true) ∧
      config' = ⟨(P.resume config.shared task).1,
        config.tasks.set index (P.resume config.shared task).2⟩ := by
  simp only [step] at stepped
  split at stepped
  · rename_i task lookup
    split_ifs at stepped with ready
    obtain ⟨live, awaited⟩ := Bool.and_eq_true_iff.mp ready
    refine ⟨task, lookup, live, fun key awaits => ?_, (Option.some.inj stepped).symm⟩
    simpa [awaits] using awaited
  · cases stepped

theorem step_cancel {index : Nat} (stepped : step P config (.cancel index) = some config') :
    ∃ task, config.tasks[index]? = some task ∧ P.live task = true ∧
      config' = ⟨config.shared, config.tasks.set index (P.cancel task)⟩ := by
  simp only [step] at stepped
  split at stepped
  · rename_i task lookup
    split_ifs at stepped with live
    exact ⟨task, lookup, live, (Option.some.inj stepped).symm⟩
  · cases stepped

theorem step_env {event : ε} (stepped : step P config (.env event) = some config') :
    ∃ shared, P.env config.shared event = some shared ∧ config' = ⟨shared, config.tasks⟩ := by
  obtain ⟨shared, changed, rfl⟩ := Option.map_eq_some_iff.mp stepped
  exact ⟨shared, changed, rfl⟩

/-- After a step, a task is the one polled with the state it left, the one dropped, or one the
step did not poll. -/
theorem lookup_step {action : Action ε} (stepped : step P config action = some config')
    {index : Nat} {task' : τ} (found' : config'.tasks[index]? = some task') :
    ∃ task, config.tasks[index]? = some task ∧
      ((action = .poll index ∧ config'.shared = (P.resume config.shared task).1 ∧
          task' = (P.resume config.shared task).2) ∨
        (action = .cancel index ∧ config'.shared = config.shared ∧ task' = P.cancel task) ∨
        (action ≠ .poll index ∧ task' = task)) := by
  cases action with
  | poll polled =>
      obtain ⟨task, found, -, -, rfl⟩ := step_poll stepped
      rcases getElem?_set_eq_some_cases found' with ⟨rfl, rfl⟩ | ⟨away, old⟩
      · exact ⟨task, found, .inl ⟨rfl, rfl, rfl⟩⟩
      · exact ⟨task', old, .inr (.inr ⟨fun same => away (Action.poll.inj same).symm, rfl⟩)⟩
  | cancel cancelled =>
      obtain ⟨task, found, -, rfl⟩ := step_cancel stepped
      rcases getElem?_set_eq_some_cases found' with ⟨rfl, rfl⟩ | ⟨-, old⟩
      · exact ⟨task, found, .inr (.inl ⟨rfl, rfl, rfl⟩)⟩
      · exact ⟨task', old, .inr (.inr ⟨fun same => (by cases same), rfl⟩)⟩
  | env event =>
      obtain ⟨shared, -, rfl⟩ := step_env stepped
      exact ⟨task', found', .inr (.inr ⟨fun same => (by cases same), rfl⟩)⟩

end Step

/-! ## Exclusive locks -/

section Exclusive

/-- No key is held by two tasks. -/
def Exclusive (tasks : List τ) : Prop :=
  ∀ (index other : Nat) (task task' : τ) (key : κ), tasks[index]? = some task →
    tasks[other]? = some task' → key ∈ P.holds task → key ∈ P.holds task' → index = other

/-- A poll takes at most the key it awaited, and a dropped task holds nothing. -/
structure Disciplined : Prop where
  resume_holds : ∀ shared task key, key ∈ P.holds (P.resume shared task).2 →
    key ∈ P.holds task ∨ P.awaits task = some key
  cancel_holds : ∀ task, P.holds (P.cancel task) = []

variable {P}

theorem exclusive_of_holds_nil {tasks : List τ} (idle : ∀ task ∈ tasks, P.holds task = []) :
    Exclusive P tasks := by
  intro index _ task _ key lookup _ held
  rw [idle task (List.mem_of_getElem? lookup)] at held
  cases held

/-- Replacing one task by one that holds at most its old keys and a key nobody else holds keeps
the locks exclusive. -/
theorem Exclusive.set {tasks : List τ} (exclusive : Exclusive P tasks) {index : Nat}
    {task task' : τ} (lookup : tasks[index]? = some task)
    (taken : ∀ key ∈ P.holds task', key ∈ P.holds task ∨
      ∀ other held, tasks[other]? = some held → other ≠ index → key ∉ P.holds held) :
    Exclusive P (tasks.set index task') := by
  -- a key of the replaced task is either one it held or one no other task holds
  have fresh : ∀ key ∈ P.holds task', ∀ other held, tasks[other]? = some held →
      other ≠ index → key ∉ P.holds held := by
    intro key mine other held found distinct theirs
    rcases taken key mine with old | nobody
    · exact distinct (exclusive other index held task key found lookup theirs old)
    · exact nobody other held found distinct theirs
  intro first second held held' key found found' mine theirs
  rcases getElem?_set_eq_some_cases found with ⟨rfl, rfl⟩ | ⟨away, old⟩ <;>
    rcases getElem?_set_eq_some_cases found' with ⟨rfl, rfl⟩ | ⟨away', old'⟩
  · rfl
  · exact absurd theirs (fresh key mine second held' old' away')
  · exact absurd mine (fresh key theirs first held old away)
  · exact exclusive first second held held' key old old' mine theirs

variable [DecidableEq κ] {config config' : Config σ τ}

theorem exclusive_step (disciplined : Disciplined P) (exclusive : Exclusive P config.tasks)
    {action : Action ε} (stepped : step P config action = some config') :
    Exclusive P config'.tasks := by
  cases action with
  | poll index =>
      obtain ⟨task, lookup, -, ready, rfl⟩ := step_poll stepped
      refine exclusive.set lookup fun key held => ?_
      rcases disciplined.resume_holds config.shared task key held with old | awaited
      · exact .inl old
      · exact .inr ((free_iff P).mp (ready key awaited))
  | cancel index =>
      obtain ⟨task, lookup, -, rfl⟩ := step_cancel stepped
      refine exclusive.set lookup fun key held => ?_
      rw [disciplined.cancel_holds] at held
      cases held
  | env event =>
      obtain ⟨shared, -, rfl⟩ := step_env stepped
      exact exclusive

/-- Locks stay exclusive along every run. -/
theorem exclusive_run (disciplined : Disciplined P) {actions : List (Action ε)}
    (exclusive : Exclusive P config.tasks)
    (ran : StepRun.run (step P) config actions = some config') : Exclusive P config'.tasks :=
  StepRun.run_invariant (fun config => Exclusive P config.tasks)
    (fun _ _ _ exclusive stepped => exclusive_step disciplined exclusive stepped) exclusive ran

end Exclusive

/-! ## What a lock guards -/

section Guarded

variable {β : κ → Type*} (view : σ → (key : κ) → β key)

/-- A poll changes what a key guards only when it holds or takes the key, and the environment
changes nothing a key guards. -/
structure Guards : Prop where
  resume_view : ∀ shared task key, view (P.resume shared task).1 key ≠ view shared key →
    key ∈ P.holds task ∨ P.awaits task = some key
  env_view : ∀ shared event shared', P.env shared event = some shared' →
    ∀ key, view shared' key = view shared key

variable {P view} [DecidableEq κ] {config config' : Config σ τ}

/-- While a task holds a key, no step of another task or of the environment changes what the key
guards. -/
theorem guarded_step (guards : Guards P view) (exclusive : Exclusive P config.tasks)
    {holder : Nat} {task : τ} {key : κ} (lookup : config.tasks[holder]? = some task)
    (held : key ∈ P.holds task) {action : Action ε} (other : action ≠ .poll holder)
    (stepped : step P config action = some config') :
    view config'.shared key = view config.shared key := by
  cases action with
  | poll index =>
      obtain ⟨polled, found, -, ready, rfl⟩ := step_poll stepped
      have distinct : holder ≠ index := fun same => other (same ▸ rfl)
      by_contra changed
      rcases guards.resume_view config.shared polled key changed with holds | awaited
      · exact distinct (exclusive holder index task polled key lookup found held holds)
      · exact (free_iff P).mp (ready key awaited) holder task lookup distinct held
  | cancel index =>
      obtain ⟨_, _, _, rfl⟩ := step_cancel stepped
      rfl
  | env event =>
      obtain ⟨shared, changed, rfl⟩ := step_env stepped
      exact guards.env_view _ _ _ changed key

end Guarded

/-! ## No cycle of waiting tasks -/

section Waiting

/-- Task `waiter` is live and awaits a key that task `holder` holds. -/
def WaitsFor (tasks : List τ) (waiter holder : Nat) : Prop :=
  waiter ≠ holder ∧ ∃ (waiting holding : τ) (key : κ), tasks[waiter]? = some waiting ∧
    tasks[holder]? = some holding ∧ P.live waiting = true ∧ P.awaits waiting = some key ∧
    key ∈ P.holds holding

/-- Keys are taken in increasing `level`: a task awaits only a key above every key it holds. -/
def Ordered (level : κ → Nat) : Prop :=
  ∀ task key, P.awaits task = some key → ∀ held ∈ P.holds task, level held < level key

variable {P} {level : κ → Nat}

/-- Along a chain of waiting tasks, the awaited keys rise in level. -/
theorem WaitsFor.level_lt (ordered : Ordered P level) {tasks : List τ} {waiter holder : Nat}
    (chain : Relation.TransGen (WaitsFor P tasks) waiter holder) {waiting holding : τ}
    {key key' : κ} (found : tasks[waiter]? = some waiting) (awaits : P.awaits waiting = some key)
    (found' : tasks[holder]? = some holding) (awaits' : P.awaits holding = some key') :
    level key < level key' := by
  induction chain generalizing holding key' with
  | single edge =>
      obtain ⟨-, waiting₀, holding₀, key₀, found₀, found₀', -, awaits₀, held⟩ := edge
      obtain rfl := Option.some.inj (found.symm.trans found₀)
      obtain rfl := Option.some.inj (found'.symm.trans found₀')
      obtain rfl := Option.some.inj (awaits.symm.trans awaits₀)
      exact ordered holding key' awaits' key held
  | tail chain edge ih =>
      -- the last waiter awaits a key the last holder holds, below what that holder awaits
      obtain ⟨-, middle, holding₀, key₀, found₀, found₀', -, awaits₀, held⟩ := edge
      obtain rfl := Option.some.inj (found'.symm.trans found₀')
      exact Nat.lt_trans (ih found₀ awaits₀) (ordered holding key' awaits' key₀ held)

/-- When keys are taken in increasing level, no tasks wait for one another in a cycle. -/
theorem waitsFor_acyclic (ordered : Ordered P level) (tasks : List τ) (index : Nat) :
    ¬ Relation.TransGen (WaitsFor P tasks) index index := by
  intro cycle
  obtain ⟨_, ⟨-, waiting, _, key, found, -, -, awaits, -⟩, -⟩ :=
    Relation.TransGen.head'_iff.mp cycle
  exact Nat.lt_irrefl _ (WaitsFor.level_lt ordered cycle found awaits found awaits)

end Waiting

end Interleaving
