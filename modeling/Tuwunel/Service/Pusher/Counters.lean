import Mathlib
import Tuwunel.Core.Numbers
import Tuwunel.Library.KeyValue
import Tuwunel.Library.Interleaving

/-!
# Unread counters

`append_pdu_for_user` counts a notifying event in `userroomid_notificationcount` and a highlighting
one in `userroomid_highlightcount`: in the user's main row of the room, or for an event in a thread
in the thread's row, never both.  Each count reads the row and writes one more, holding the room
and user's lock in `notification_increment_mutex` or `highlight_increment_mutex`.  A read receipt
resets counts through `reset_notification_counts_for_thread`: `reset_notification_counts` and
`reset_thread_notification_counts` write zero to one row of both columns, and
`clear_all_thread_notification_counts` deletes the thread rows of both.  Only the notification
column's writes take its lock.

Each call is a task of an `Interleaving.Program` over the two columns of one user in one room;
the two mutexes are its locks.  A column's serial meaning is `Op.effect` folded over an order of
the calls.  Every write of the notification column holds or takes its lock, so that column is the
fold over the order of its writes (`notification_counts_linearize`).  The highlight column is
reset without its lock, and a reset that lands between an increment's read and write is lost
(`highlight_reset_lost`).
-/

namespace Tuwunel
namespace Pusher

open KeyValue

variable {Root : Type}

/-- The two counter columns, each with its `MutexMap` of increment locks. -/
inductive Column
  /-- `userroomid_notificationcount`, locked by `notification_increment_mutex`. -/
  | notification
  /-- `userroomid_highlightcount`, locked by `highlight_increment_mutex`. -/
  | highlight
  deriving DecidableEq, Repr

/-- The counter rows of one user in one room, by thread root: `none` is the main row
`(user, room)`, `some root` the row `(user, room, root)`. -/
structure Counts (Root : Type) where
  /-- `userroomid_notificationcount`. -/
  notificationcount : Table (Option Root) Nat
  /-- `userroomid_highlightcount`. -/
  highlightcount : Table (Option Root) Nat

namespace Counts

/-- A column's rows. -/
def column (counts : Counts Root) : Column → Table (Option Root) Nat
  | .notification => counts.notificationcount
  | .highlight => counts.highlightcount

/-- Replace a column's rows. -/
def setColumn (counts : Counts Root) : Column → Table (Option Root) Nat → Counts Root
  | .notification, table => { counts with notificationcount := table }
  | .highlight, table => { counts with highlightcount := table }

@[simp]
theorem column_notification (counts : Counts Root) :
    counts.column .notification = counts.notificationcount := rfl

@[simp]
theorem column_highlight (counts : Counts Root) :
    counts.column .highlight = counts.highlightcount := rfl

@[simp]
theorem setColumn_notification (counts : Counts Root) (table : Table (Option Root) Nat) :
    counts.setColumn .notification table = { counts with notificationcount := table } := rfl

@[simp]
theorem setColumn_highlight (counts : Counts Root) (table : Table (Option Root) Nat) :
    counts.setColumn .highlight table = { counts with highlightcount := table } := rfl

@[simp]
theorem column_setColumn (counts : Counts Root) (column column' : Column)
    (table : Table (Option Root) Nat) :
    (counts.setColumn column table).column column' =
      if column' = column then table else counts.column column' := by
  cases column <;> cases column' <;> rfl

end Counts

/-- The read of `increment` and `increment_thread`: the row's count, `0` when there is none. -/
def readCount (table : Table (Option Root) Nat) (row : Option Root) : Nat :=
  (table.get row).getD 0

namespace Counts

/-- The deletes of `clear_all_thread_notification_counts`: every thread row of both columns, the
`Interfix` prefix leaving the main row. -/
def clearAllThreadNotificationCounts (counts : Counts Root) : Counts Root :=
  ⟨counts.notificationcount.removeIf Option.isSome, counts.highlightcount.removeIf Option.isSome⟩

end Counts

/-- A counter operation of the pusher service. -/
inductive Op (Root : Type)
  /-- An increment of a column's row, under the column's lock. -/
  | increment (column : Column) (row : Option Root)
  /-- A reset of a row to zero. -/
  | reset (row : Option Root)
  /-- The sweep of the thread rows. -/
  | clearThreads
  deriving DecidableEq, Repr

/-- `increment_notificationcount`. -/
def incrementNotificationcount : Op Root := .increment .notification none

/-- `increment_highlightcount`. -/
def incrementHighlightcount : Op Root := .increment .highlight none

/-- `increment_thread_notificationcount`. -/
def incrementThreadNotificationcount (root : Root) : Op Root :=
  .increment .notification (some root)

/-- `increment_thread_highlightcount`. -/
def incrementThreadHighlightcount (root : Root) : Op Root := .increment .highlight (some root)

/-- `reset_notification_counts`. -/
def resetNotificationCounts : Op Root := .reset none

/-- `reset_thread_notification_counts`. -/
def resetThreadNotificationCounts (root : Root) : Op Root := .reset (some root)

/-- `clear_all_thread_notification_counts`. -/
def clearAllThreadNotificationCounts : Op Root := .clearThreads

/-- The lock an operation takes: an increment its column's, a reset and the sweep the
notification column's, for the writes of that column. -/
def Op.lock : Op Root → Column
  | .increment column _ => column
  | .reset _ | .clearThreads => .notification

/-- The increments of `append_pdu_for_user` once the push rules decided `notify` and `highlight`,
in `join4`'s order: the main row's for an event in no thread, the thread row's otherwise. -/
def appendPduForUser (notify highlight : Bool) (threadRoot : Option Root) : List (Op Root) :=
  let mainNotify := if notify && threadRoot.isNone then [incrementNotificationcount] else []
  let mainHighlight := if highlight && threadRoot.isNone then [incrementHighlightcount] else []
  let threadNotify :=
    ((threadRoot.filter fun _ => notify).map incrementThreadNotificationcount).toList
  let threadHighlight :=
    ((threadRoot.filter fun _ => highlight).map incrementThreadHighlightcount).toList
  mainNotify ++ threadNotify ++ mainHighlight ++ threadHighlight

/-- Each count lands in exactly one row, the event's thread's or the main row. -/
theorem appendPduForUser_eq (notify highlight : Bool) (threadRoot : Option Root) :
    appendPduForUser notify highlight threadRoot =
      (if notify then [.increment .notification threadRoot] else []) ++
        if highlight then [.increment .highlight threadRoot] else [] := by
  cases notify <;> cases highlight <;> cases threadRoot <;>
    simp [appendPduForUser, incrementNotificationcount, incrementHighlightcount,
      incrementThreadNotificationcount, incrementThreadHighlightcount, Option.filter]

/-- `ReceiptThread`; every kind but `Main` and `Thread` takes the unthreaded path. -/
inductive ReceiptThread (Root : Type)
  | unthreaded
  | main
  | thread (root : Root)

/-- The receipt thread whose reset writes `row`: `Main` for the main row, `Thread` for a
thread's. -/
def ReceiptThread.ofRow : Option Root → ReceiptThread Root
  | none => .main
  | some root => .thread root

/-- `reset_notification_counts_for_thread`: the resets a receipt runs, in order. -/
def resetNotificationCountsForThread : ReceiptThread Root → List (Op Root)
  | .main => [resetNotificationCounts]
  | .thread root => [resetThreadNotificationCounts root]
  | .unthreaded => [resetNotificationCounts, clearAllThreadNotificationCounts]

theorem resetNotificationCountsForThread_ofRow (row : Option Root) :
    resetNotificationCountsForThread (.ofRow row) = [.reset row] := by
  cases row <;> rfl

/-- Where a call is. -/
inductive Phase
  /-- Before its next operation, awaiting the operation's lock. -/
  | ready
  /-- In an increment, holding the column's lock, with the count `old` read. -/
  | read (old : Nat)
  /-- Dropped at an await. -/
  | cancelled
  deriving DecidableEq, Repr

/-- A call: its operations in order, how many have run, and where it is. -/
structure Task (Root : Type) where
  ops : List (Op Root)
  done : Nat
  phase : Phase

namespace Task

/-- A call not polled yet. -/
def fresh (ops : List (Op Root)) : Task Root := ⟨ops, 0, .ready⟩

/-- The operation the call runs next. -/
def current (task : Task Root) : Option (Op Root) := task.ops[task.done]?

/-- The call has operations left and was not dropped. -/
def live (task : Task Root) : Bool := task.phase != .cancelled && task.done < task.ops.length

/-- The lock the call awaits. -/
def awaits (task : Task Root) : Option Column :=
  match task.phase with
  | .ready => task.current.map Op.lock
  | _ => none

/-- The lock the call holds: its guard `_lock`, between an increment's read and write. -/
def holds (task : Task Root) : List Column :=
  match task.phase with
  | .read _ => (task.current.map Op.lock).toList
  | _ => []

end Task

/-- The operations of call `index` among `effects`, in order. -/
def effectsOf (effects : List (Nat × Op Root)) (index : Nat) : List (Op Root) :=
  effects.filterMap fun effect => if effect.1 = index then some effect.2 else none

theorem effectsOf_concat (effects : List (Nat × Op Root)) (index other : Nat) (op : Op Root) :
    effectsOf (effects ++ [(index, op)]) other =
      effectsOf effects other ++ if index = other then [op] else [] := by
  by_cases same : index = other <;> simp [effectsOf, same]

section Writes

variable [DecidableEq Root]

/-- The write of `increment` and `increment_thread`: one more than what was read, saturating. -/
def writeCount (table : Table (Option Root) Nat) (row : Option Root) (old : Nat) :
    Table (Option Root) Nat :=
  table.put row (saturatingAdd old 1)

@[simp]
theorem readCount_put_self (table : Table (Option Root) Nat) (row : Option Root) (count : Nat) :
    readCount (table.put row count) row = count := by
  simp [readCount]

@[simp]
theorem get_writeCount_self (table : Table (Option Root) Nat) (row : Option Root) (old : Nat) :
    (writeCount table row old).get row = some (saturatingAdd old 1) := by
  simp [writeCount]

/-- `increment` and `increment_thread` with nothing between their read and their write. -/
def increment (table : Table (Option Root) Nat) (row : Option Root) : Table (Option Root) Nat :=
  writeCount table row (readCount table row)

namespace Counts

/-- The writes of `reset_notification_counts` (`none`) and `reset_thread_notification_counts`:
zero in the row of both columns. -/
def reset (counts : Counts Root) (row : Option Root) : Counts Root :=
  ⟨counts.notificationcount.put row 0, counts.highlightcount.put row 0⟩

@[simp]
theorem reset_notificationcount (counts : Counts Root) (row : Option Root) :
    (counts.reset row).notificationcount = counts.notificationcount.put row 0 := rfl

@[simp]
theorem reset_highlightcount (counts : Counts Root) (row : Option Root) :
    (counts.reset row).highlightcount = counts.highlightcount.put row 0 := rfl

end Counts

/-- What an operation does to a column when nothing runs beside it. -/
def Op.effect (column : Column) : Op Root → Table (Option Root) Nat → Table (Option Root) Nat
  | .increment column' row, table =>
      if column' = column then Pusher.increment table row else table
  | .reset row, table => table.put row 0
  | .clearThreads, table => table.removeIf Option.isSome

/-- A column after operations run one after another, in order. -/
def serial (column : Column) (ops : List (Op Root)) (table : Table (Option Root) Nat) :
    Table (Option Root) Nat :=
  ops.foldl (fun table op => op.effect column table) table

@[simp]
theorem serial_nil (column : Column) (table : Table (Option Root) Nat) :
    serial column ([] : List (Op Root)) table = table := rfl

theorem serial_concat (column : Column) (ops : List (Op Root)) (op : Op Root)
    (table : Table (Option Root) Nat) :
    serial column (ops ++ [op]) table = op.effect column (serial column ops table) := by
  simp [serial, List.foldl_append]

namespace Task

/-- A poll of the call: the operation's code to its next await.  An increment reads when it has
the lock and writes at the next poll; a reset and the sweep write at once. -/
def advance (counts : Counts Root) (task : Task Root) : Counts Root × Task Root :=
  match task.phase, task.current with
  | .ready, some (.increment column row) =>
      (counts, { task with phase := .read (readCount (counts.column column) row) })
  | .read old, some (.increment column row) =>
      (counts.setColumn column (writeCount (counts.column column) row old),
        { task with done := task.done + 1, phase := .ready })
  | .ready, some (.reset row) => (counts.reset row, { task with done := task.done + 1 })
  | .ready, some .clearThreads =>
      (counts.clearAllThreadNotificationCounts, { task with done := task.done + 1 })
  | _, _ => (counts, task)

end Task

/-- The counter calls of one user in one room, interleaved at their awaits. -/
def program : Interleaving.Program (Counts Root) (Task Root) Column Empty where
  awaits := Task.awaits
  holds := Task.holds
  live := Task.live
  resume counts task := task.advance counts
  cancel task := { task with phase := .cancelled }
  env _ event := event.elim

/-! ## What a poll does -/

namespace Task

/-- A poll reads an increment's row, writes it, writes a reset or the sweep, or does nothing. -/
theorem advance_cases (counts : Counts Root) (task : Task Root) :
    (∃ column row, task.phase = .ready ∧ task.current = some (.increment column row) ∧
      task.advance counts =
        (counts, { task with phase := .read (readCount (counts.column column) row) })) ∨
    (∃ column row old, task.phase = .read old ∧ task.current = some (.increment column row) ∧
      task.advance counts =
        (counts.setColumn column (writeCount (counts.column column) row old),
          { task with done := task.done + 1, phase := .ready })) ∨
    (∃ row, task.phase = .ready ∧ task.current = some (.reset row) ∧
      task.advance counts = (counts.reset row, { task with done := task.done + 1 })) ∨
    (task.phase = .ready ∧ task.current = some .clearThreads ∧
      task.advance counts =
        (counts.clearAllThreadNotificationCounts, { task with done := task.done + 1 })) ∨
    task.advance counts = (counts, task) := by
  unfold advance
  split
  · exact .inl ⟨_, _, ‹_›, ‹_›, rfl⟩
  · exact .inr (.inl ⟨_, _, _, ‹_›, ‹_›, rfl⟩)
  · exact .inr (.inr (.inl ⟨_, ‹_›, ‹_›, rfl⟩))
  · exact .inr (.inr (.inr (.inl ⟨‹_›, ‹_›, rfl⟩)))
  · exact .inr (.inr (.inr (.inr rfl)))

@[simp]
theorem advance_ops (counts : Counts Root) (task : Task Root) :
    (task.advance counts).2.ops = task.ops := by
  rcases advance_cases counts task with ⟨_, _, _, _, advanced⟩ | ⟨_, _, _, _, _, advanced⟩ |
    ⟨_, _, _, advanced⟩ | ⟨_, _, advanced⟩ | advanced <;> rw [advanced]

end Task

/-- What each lock guards: the notification lock the notification column, the highlight lock
nothing, since the resets write the highlight column without it. -/
def Counts.guarded (counts : Counts Root) : Column → Table (Option Root) Nat
  | .notification => counts.notificationcount
  | .highlight => Table.empty

theorem program_disciplined :
    Interleaving.Disciplined
      (program : Interleaving.Program (Counts Root) (Task Root) Column Empty) where
  resume_holds counts task column held := by
    rcases Task.advance_cases counts task with ⟨column', row, ready, current, advanced⟩ |
      ⟨column', row, old, read, current, advanced⟩ | ⟨row, ready, current, advanced⟩ |
      ⟨ready, current, advanced⟩ | advanced
    · -- the increment takes its column's lock at this poll
      simp only [Task.current] at current
      simp [program, advanced, Task.holds, Task.current, current, Op.lock] at held
      simp [program, Task.awaits, ready, Task.current, current, Op.lock, held]
    · simp [program, advanced, Task.holds] at held
    · simp [program, advanced, Task.holds, ready] at held
    · simp [program, advanced, Task.holds, ready] at held
    · simpa [program, advanced] using Or.inl held
  cancel_holds _ := rfl

theorem program_guards :
    Interleaving.Guards (program : Interleaving.Program (Counts Root) (Task Root) Column Empty)
      Counts.guarded where
  resume_view counts task column changed := by
    rcases Task.advance_cases counts task with ⟨_, _, _, _, advanced⟩ |
      ⟨column', row, old, read, current, advanced⟩ | ⟨row, ready, current, advanced⟩ |
      ⟨ready, current, advanced⟩ | advanced
    · simp [program, advanced] at changed
    · cases column <;> cases column' <;>
        simp_all [program, Counts.guarded, Counts.setColumn, Task.holds, Op.lock]
    · cases column <;> simp_all [program, Counts.guarded, Counts.reset, Task.awaits, Op.lock]
    · cases column <;> simp_all [program, Counts.guarded, Task.awaits, Op.lock]
    · simp [program, advanced] at changed
  env_view _ event := event.elim

/-! ## The notification column is linearizable -/

namespace Task

variable {counts : Counts Root} {task : Task Root}

/-- A poll leaves the notification column alone, or applies to it the serial effect of the
call's current operation, which then counts as done; an increment's write does so because its
read is still current. -/
theorem advance_effect (unchanged : ∀ old row, task.phase = .read old →
      task.current = some (.increment .notification row) →
      old = readCount counts.notificationcount row) :
    ((task.advance counts).2.done = task.done ∧
        (task.advance counts).1.notificationcount = counts.notificationcount) ∨
      ∃ op, task.current = some op ∧ (task.advance counts).2.done = task.done + 1 ∧
        (task.advance counts).1.notificationcount =
          op.effect .notification counts.notificationcount := by
  rcases advance_cases counts task with ⟨column, row, -, -, advanced⟩ |
    ⟨column, row, old, read, current, advanced⟩ | ⟨row, -, current, advanced⟩ |
    ⟨-, current, advanced⟩ | advanced
  · exact .inl (by simp [advanced])
  · refine .inr ⟨_, current, by simp [advanced], ?_⟩
    cases column with
    | notification =>
        have fresh := unchanged old row read current
        simp [advanced, Counts.setColumn, Counts.column, Op.effect, increment, fresh]
    | highlight => simp [advanced, Counts.setColumn, Op.effect]
  · exact .inr ⟨_, current, by simp [advanced], by simp [advanced, Counts.reset, Op.effect]⟩
  · exact .inr ⟨_, current, by simp [advanced],
      by simp [advanced, Counts.clearAllThreadNotificationCounts, Op.effect]⟩
  · exact .inl (by simp [advanced])

/-- After a poll, a call between its read and write of the notification column read what is
there. -/
theorem advance_unchanged (unchanged : ∀ old row, task.phase = .read old →
      task.current = some (.increment .notification row) →
      old = readCount counts.notificationcount row) (old : Nat) (row : Option Root)
    (read : (task.advance counts).2.phase = .read old)
    (current : (task.advance counts).2.current = some (.increment .notification row)) :
    old = readCount (task.advance counts).1.notificationcount row := by
  rcases advance_cases counts task with ⟨column, row', -, current', advanced⟩ |
    ⟨_, _, _, _, _, advanced⟩ | ⟨_, ready, _, advanced⟩ | ⟨ready, _, advanced⟩ | advanced
  · -- the read of this poll: its column is the notification column
    simp only [advanced, Task.current] at read current
    simp only [Task.current] at current'
    rw [current'] at current
    obtain ⟨rfl, rfl⟩ : column = .notification ∧ row' = row := by simpa using current
    simpa [advanced, Counts.column] using read.symm
  all_goals simp_all

end Task

/-- A run so far against `effects`, the order in which its calls' operations took effect on the
notification column: the column is their serial fold from `start`, each call's effects are its
first operations, and a call between an increment's read and write of the column read what is
still there. -/
structure Linearized (start : Table (Option Root) Nat)
    (config : Interleaving.Config (Counts Root) (Task Root)) (effects : List (Nat × Op Root)) :
    Prop where
  exclusive : Interleaving.Exclusive program config.tasks
  serial : config.shared.notificationcount = serial .notification (effects.map Prod.snd) start
  taken : ∀ (index : Nat) (task : Task Root), config.tasks[index]? = some task →
    effectsOf effects index = task.ops.take task.done
  unchanged : ∀ (index : Nat) (task : Task Root) old row, config.tasks[index]? = some task →
    task.phase = .read old →
    task.current = some (.increment .notification row) →
    old = readCount config.shared.notificationcount row

theorem linearized_fresh (counts : Counts Root) (calls : List (List (Op Root))) :
    Linearized counts.notificationcount ⟨counts, calls.map Task.fresh⟩ [] where
  exclusive := Interleaving.exclusive_of_holds_nil fun task fresh => by
    obtain ⟨ops, -, rfl⟩ := List.mem_map.mp fresh
    rfl
  serial := rfl
  taken index task found := by
    rw [List.getElem?_map, Option.map_eq_some_iff] at found
    obtain ⟨ops, -, rfl⟩ := found
    simp [effectsOf, Task.fresh]
  unchanged index task old row found read := by
    rw [List.getElem?_map, Option.map_eq_some_iff] at found
    obtain ⟨ops, -, rfl⟩ := found
    cases read

variable {start : Table (Option Root) Nat}
  {config config' : Interleaving.Config (Counts Root) (Task Root)}
  {effects : List (Nat × Op Root)}

/-- One step keeps a run linearized, with the polled call's operation appended when it took
effect. -/
theorem Linearized.step (linearized : Linearized start config effects)
    {action : Interleaving.Action Empty}
    (stepped : Interleaving.step program config action = some config') :
    ∃ effects', Linearized start config' effects' := by
  have exclusive := Interleaving.exclusive_step program_disciplined linearized.exclusive stepped
  -- a call that is not polled holds the notification lock, so what it read stays
  have kept : ∀ (index : Nat) (task : Task Root) old row, action ≠ .poll index →
      config.tasks[index]? = some task → task.phase = .read old →
      task.current = some (.increment .notification row) →
      old = readCount config'.shared.notificationcount row := by
    intro index task old row other found read current
    have held : Column.notification ∈ program.holds task := by
      simp [program, Task.holds, read, current, Op.lock]
    have guarded :=
      Interleaving.guarded_step program_guards linearized.exclusive found held other stepped
    simp only [Counts.guarded] at guarded
    rw [guarded]
    exact linearized.unchanged index task old row found read current
  cases action with
  | poll index =>
      obtain ⟨task, found, -, -, configEq⟩ := Interleaving.step_poll stepped
      have shared : config'.shared = (task.advance config.shared).1 := by rw [configEq]; rfl
      have unchanged : ∀ (other : Nat) (task' : Task Root) old row,
          config'.tasks[other]? = some task' → task'.phase = .read old →
          task'.current = some (.increment .notification row) →
          old = readCount config'.shared.notificationcount row := by
        intro other task' old row found' read current
        obtain ⟨task₀, found₀, ⟨same, -, rfl⟩ | ⟨cancelled, -⟩ | ⟨away, rfl⟩⟩ :=
          Interleaving.lookup_step stepped found'
        · obtain rfl := Interleaving.Action.poll.inj same
          obtain rfl := Option.some.inj (found.symm.trans found₀)
          rw [shared]
          exact Task.advance_unchanged (linearized.unchanged _ task · · found) old row read current
        · cases cancelled
        · exact kept other task' old row away found₀ read current
      rcases Task.advance_effect (linearized.unchanged index task · · found) with
        ⟨sameDone, sameColumn⟩ | ⟨op, current, nextDone, effected⟩
      · -- the poll read, or did nothing
        refine ⟨effects, exclusive, by rw [shared, sameColumn]; exact linearized.serial,
          fun other task' found' => ?_, unchanged⟩
        obtain ⟨task₀, found₀, ⟨same, -, rfl⟩ | ⟨cancelled, -⟩ | ⟨-, rfl⟩⟩ :=
          Interleaving.lookup_step stepped found'
        · obtain rfl := Interleaving.Action.poll.inj same
          obtain rfl := Option.some.inj (found.symm.trans found₀)
          simp [program, sameDone, linearized.taken _ task found]
        · cases cancelled
        · exact linearized.taken other task' found₀
      · -- the poll wrote: its operation takes effect now
        refine ⟨effects ++ [(index, op)], exclusive, ?_, fun other task' found' => ?_, unchanged⟩
        · rw [shared, effected, linearized.serial, List.map_append, List.map_cons, List.map_nil,
            serial_concat]
        obtain ⟨task₀, found₀, ⟨same, -, rfl⟩ | ⟨cancelled, -⟩ | ⟨away, rfl⟩⟩ :=
          Interleaving.lookup_step stepped found'
        · obtain rfl := Interleaving.Action.poll.inj same
          obtain rfl := Option.some.inj (found.symm.trans found₀)
          simp only [Task.current] at current
          rw [effectsOf_concat, linearized.taken _ task found, if_pos rfl]
          simp [program, nextDone, List.take_add_one, current]
        · cases cancelled
        · rw [effectsOf_concat, if_neg fun same => away (by rw [same]), List.append_nil]
          exact linearized.taken other task' found₀
  | cancel index =>
      obtain ⟨task, found, -, configEq⟩ := Interleaving.step_cancel stepped
      refine ⟨effects, exclusive, by rw [configEq]; exact linearized.serial,
        fun other task' found' => ?_, fun other task' old row found' read current => ?_⟩
      · obtain ⟨task₀, found₀, ⟨same, -⟩ | ⟨-, -, rfl⟩ | ⟨-, rfl⟩⟩ :=
          Interleaving.lookup_step stepped found'
        · cases same
        · exact linearized.taken other task₀ found₀
        · exact linearized.taken other task' found₀
      · obtain ⟨task₀, found₀, ⟨same, -⟩ | ⟨-, -, rfl⟩ | ⟨away, rfl⟩⟩ :=
          Interleaving.lookup_step stepped found'
        · cases same
        · cases read
        · exact kept other task' old row away found₀ read current
  | env event => exact event.elim

theorem Linearized.run (linearized : Linearized start config effects)
    {actions : List (Interleaving.Action Empty)}
    (ran : StepRun.run (Interleaving.step program) config actions = some config') :
    ∃ effects', Linearized start config' effects' :=
  StepRun.run_invariant (fun config => ∃ effects, Linearized start config effects)
    (fun _ _ _ ⟨_, linearized⟩ stepped => linearized.step stepped) ⟨effects, linearized⟩ ran

/-- The calls' operations never change along a run. -/
theorem ops_run {calls : List (List (Op Root))} (initial : ∀ (index : Nat) (task : Task Root),
      config.tasks[index]? = some task → calls[index]? = some task.ops)
    {actions : List (Interleaving.Action Empty)}
    (ran : StepRun.run (Interleaving.step program) config actions = some config') :
    ∀ (index : Nat) (task : Task Root), config'.tasks[index]? = some task →
      calls[index]? = some task.ops := by
  refine StepRun.run_invariant (fun config => ∀ (index : Nat) (task : Task Root),
    config.tasks[index]? = some task → calls[index]? = some task.ops) ?_ initial ran
  intro config action config' kept stepped index task' found'
  obtain ⟨task, found, ⟨-, -, rfl⟩ | ⟨-, -, rfl⟩ | ⟨-, rfl⟩⟩ :=
    Interleaving.lookup_step stepped found'
  · simpa [program] using kept index task found
  · exact kept index task found
  · exact kept index task' found

/-- Counter calls run from their start in any interleaving: the notification column is the serial
fold, from where it started, of the calls' operations in the order they took effect, and each
call's operations among them are the ones it has finished, in its own order. -/
theorem notification_counts_linearize (counts : Counts Root) (calls : List (List (Op Root)))
    {actions : List (Interleaving.Action Empty)}
    {final : Interleaving.Config (Counts Root) (Task Root)}
    (ran : StepRun.run (Interleaving.step program) ⟨counts, calls.map Task.fresh⟩ actions =
      some final) :
    ∃ effects : List (Nat × Op Root),
      final.shared.notificationcount =
        serial .notification (effects.map Prod.snd) counts.notificationcount ∧
      ∀ (index : Nat) (task : Task Root), final.tasks[index]? = some task →
        calls[index]? = some task.ops ∧ effectsOf effects index = task.ops.take task.done := by
  obtain ⟨effects, linearized⟩ := (linearized_fresh counts calls).run ran
  have ops : ∀ (index : Nat) (task : Task Root), final.tasks[index]? = some task →
      calls[index]? = some task.ops := ops_run (fun index task found => by
    rw [List.getElem?_map, Option.map_eq_some_iff] at found
    obtain ⟨ops, listed, rfl⟩ := found
    exact listed) ran
  exact ⟨effects, linearized.serial, fun index task found =>
    ⟨ops index task found, linearized.taken index task found⟩⟩

/-- A notified event and an unthreaded receipt, with the receipt's resets awaiting the
increment's lock. -/
theorem notification_counts_linearize_receipt :
    ∃ final, StepRun.run (Interleaving.step program)
        ⟨⟨Table.empty, Table.empty⟩, ([[incrementNotificationcount],
          resetNotificationCountsForThread .unthreaded] : List (List (Op String))).map Task.fresh⟩
        [.poll 0, .poll 0, .poll 1, .poll 1] = some final ∧
      ∃ effects : List (Nat × Op String),
        final.shared.notificationcount = serial .notification (effects.map Prod.snd) Table.empty ∧
        ∀ (index : Nat) (task : Task String), final.tasks[index]? = some task →
          ([[incrementNotificationcount], resetNotificationCountsForThread .unthreaded] :
              List (List (Op String)))[index]? = some task.ops ∧
            effectsOf effects index = task.ops.take task.done := by
  obtain ⟨final, ran⟩ : ∃ final, StepRun.run (Interleaving.step program)
      ⟨⟨Table.empty, Table.empty⟩, ([[incrementNotificationcount],
        resetNotificationCountsForThread .unthreaded] : List (List (Op String))).map Task.fresh⟩
      [.poll 0, .poll 0, .poll 1, .poll 1] = some final := ⟨_, rfl⟩
  exact ⟨final, ran, notification_counts_linearize _ _ ran⟩

/-- A highlighting event's increment reads the row, a receipt's reset writes zero to it without
the highlight lock, and the increment writes one more than the count it read: the reset is lost. -/
theorem highlight_reset_lost (counts : Counts Root) (row : Option Root)
    (counted : 0 < readCount counts.highlightcount row) :
    ∃ final, StepRun.run (Interleaving.step program)
        ⟨counts, (appendPduForUser true true row).map (fun op => Task.fresh [op]) ++
          [Task.fresh (resetNotificationCountsForThread (.ofRow row))]⟩
        [.poll 1, .poll 2, .poll 1, .poll 0, .poll 0] = some final ∧
      (∀ task ∈ final.tasks, task.live = false) ∧
      final.shared.highlightcount.get row =
        some (saturatingAdd (readCount counts.highlightcount row) 1) ∧
      ∀ order, order.Perm [.increment .notification row, .increment .highlight row, .reset row] →
        (serial .highlight order counts.highlightcount).get row ≠
          final.shared.highlightcount.get row := by
  rw [appendPduForUser_eq, resetNotificationCountsForThread_ofRow]
  -- the increment reads, the reset writes zero, the increment writes what it read plus one
  simp [StepRun.run_cons, Interleaving.step, program, Task.advance, Task.current, Task.fresh,
    Task.live, Task.awaits, Task.holds, Interleaving.free, Op.lock]
  intro order reordered
  -- every serial order ends at zero or one
  have above := one_lt_saturatingAdd counted
  have one : saturatingAdd 0 1 = 1 := saturatingAdd_of_le (by decide)
  have listed := List.mem_permutations.mpr reordered
  simp only [List.permutations, List.permutationsAux_cons, List.permutationsAux_nil,
    List.foldr_cons, List.foldr_nil, List.permutationsAux2_snd_nil, List.permutationsAux2_snd_cons,
    List.append_nil, id_eq, List.cons_append, List.nil_append, List.mem_cons, List.not_mem_nil,
    or_false] at listed
  rcases listed with rfl | rfl | rfl | rfl | rfl | rfl <;>
    simp [serial, Op.effect, increment, one] <;> omega

/-- A user's main rows in a room: five unread highlights. -/
def fiveHighlights : Counts String := ⟨Table.empty, Table.empty.put none 5⟩

theorem highlight_reset_lost_fiveHighlights :
    0 < readCount fiveHighlights.highlightcount none ∧
      ∃ final, StepRun.run (Interleaving.step program)
          ⟨fiveHighlights, (appendPduForUser true true none).map (fun op => Task.fresh [op]) ++
            [Task.fresh (resetNotificationCountsForThread (.ofRow none))]⟩
          [.poll 1, .poll 2, .poll 1, .poll 0, .poll 0] = some final ∧
        (∀ task ∈ final.tasks, task.live = false) ∧
        final.shared.highlightcount.get none =
          some (saturatingAdd (readCount fiveHighlights.highlightcount none) 1) ∧
        ∀ order,
          order.Perm [.increment .notification none, .increment .highlight none, .reset none] →
          (serial .highlight order fiveHighlights.highlightcount).get none ≠
            final.shared.highlightcount.get none := by
  have counted : 0 < readCount fiveHighlights.highlightcount none := by decide
  exact ⟨counted, highlight_reset_lost fiveHighlights none counted⟩

end Writes

end Pusher
end Tuwunel
