import Mathlib

/-!
# Programs that read a store

A `Query κ ν α` reads a store keyed by `κ` with values `ν`, one key at a time, and returns an
`α`: the free monad over one operation, `fetch`.  `run` answers its reads from a lookup, and
`reads` lists the keys a run reads, in order.

`ReadsWithin keys q` says that whatever the answers, every key `q` reads satisfies `keys`.  It
is proved from a rule per constructor and a rule for `bind`, for plain programs and for programs
that can fail (`ExceptT`); `ReadsWithin.mem_reads` turns it into a statement about every run.
-/

/-- A program reading a store keyed by `κ` with values `ν`, returning an `α`. -/
inductive Query (κ ν α : Type)
  /-- Return without reading. -/
  | pure (result : α)
  /-- Read `key`, and continue with what is stored there. -/
  | fetch (key : κ) (next : Option ν → Query κ ν α)

namespace Query

variable {κ ν α β ε : Type}

/-- Run `query`, then `rest` on its result. -/
def bind : Query κ ν α → (α → Query κ ν β) → Query κ ν β
  | .pure result, rest => rest result
  | .fetch key next, rest => .fetch key fun value => (next value).bind rest

instance : Monad (Query κ ν) where
  pure := .pure
  bind := bind

/-- Read one key. -/
def get (key : κ) : Query κ ν (Option ν) := .fetch key .pure

/-- The result when each read of a key is answered by `lookup`. -/
def run (lookup : κ → Option ν) : Query κ ν α → α
  | .pure result => result
  | .fetch key next => (next (lookup key)).run lookup

/-- The keys a run reads, in order, when each read is answered by `lookup`. -/
def reads (lookup : κ → Option ν) : Query κ ν α → List κ
  | .pure _ => []
  | .fetch key next => key :: (next (lookup key)).reads lookup

@[simp]
theorem pure_eq (result : α) : (Pure.pure result : Query κ ν α) = .pure result := rfl

@[simp]
theorem bind_eq (query : Query κ ν α) (rest : α → Query κ ν β) : query >>= rest = query.bind rest :=
  rfl

@[simp]
theorem pure_bind (result : α) (rest : α → Query κ ν β) : (Query.pure result).bind rest = rest result :=
  rfl

@[simp]
theorem run_pure (lookup : κ → Option ν) (result : α) : (Query.pure result).run lookup = result :=
  rfl

@[simp]
theorem run_fetch (lookup : κ → Option ν) (key : κ) (next : Option ν → Query κ ν α) :
    (Query.fetch key next).run lookup = (next (lookup key)).run lookup := rfl

@[simp]
theorem run_get (lookup : κ → Option ν) (key : κ) : (get key).run lookup = lookup key := rfl

@[simp]
theorem run_bind (lookup : κ → Option ν) (query : Query κ ν α) (rest : α → Query κ ν β) :
    (query.bind rest).run lookup = (rest (query.run lookup)).run lookup := by
  induction query with
  | pure result => rfl
  | fetch key next ih => exact ih (lookup key)

@[simp]
theorem run_map (lookup : κ → Option ν) (f : α → β) (query : Query κ ν α) :
    (f <$> query).run lookup = f (query.run lookup) :=
  run_bind lookup query _

theorem reads_bind (lookup : κ → Option ν) (query : Query κ ν α) (rest : α → Query κ ν β) :
    (query.bind rest).reads lookup = query.reads lookup ++ (rest (query.run lookup)).reads lookup := by
  induction query with
  | pure result => rfl
  | fetch key next ih => simp [bind, reads, ih]

/-! ## Which keys a program reads -/

/-- Whatever the answers, every key `query` reads satisfies `keys`. -/
inductive ReadsWithin (keys : κ → Prop) : Query κ ν α → Prop
  | pure (result : α) : ReadsWithin keys (.pure result)
  | fetch {key : κ} {next : Option ν → Query κ ν α} (allowed : keys key)
      (continues : ∀ value, ReadsWithin keys (next value)) : ReadsWithin keys (.fetch key next)

variable {keys : κ → Prop}

theorem ReadsWithin.bind {query : Query κ ν α} {rest : α → Query κ ν β}
    (first : ReadsWithin keys query) (next : ∀ result, ReadsWithin keys (rest result)) :
    ReadsWithin keys (query.bind rest) := by
  induction first with
  | pure result => exact next result
  | fetch allowed _ ih => exact .fetch allowed ih

theorem ReadsWithin.get {key : κ} (allowed : keys key) :
    ReadsWithin keys (get key : Query κ ν (Option ν)) :=
  .fetch allowed fun _ => .pure _

theorem ReadsWithin.map {query : Query κ ν α} (f : α → β) (within : ReadsWithin keys query) :
    ReadsWithin keys (f <$> query) :=
  within.bind fun _ => .pure _

/-- Every run reads only keys in the set. -/
theorem ReadsWithin.mem_reads {query : Query κ ν α} (within : ReadsWithin keys query)
    (lookup : κ → Option ν) {key : κ} (read : key ∈ query.reads lookup) : keys key := by
  induction within with
  | pure => cases read
  | fetch allowed _ ih =>
      rcases List.mem_cons.mp read with rfl | later
      · exact allowed
      · exact ih _ later

/-! ## Programs that can fail -/

/-- A read that cannot fail. -/
def lift (query : Query κ ν α) : ExceptT ε (Query κ ν) α := ExceptT.lift query

@[simp]
theorem run_exceptPure (lookup : κ → Option ν) (result : α) :
    (ExceptT.run (Pure.pure result : ExceptT ε (Query κ ν) α)).run lookup = .ok result := rfl

@[simp]
theorem run_exceptThrow (lookup : κ → Option ν) (error : ε) :
    (ExceptT.run (throw error : ExceptT ε (Query κ ν) α)).run lookup = .error error := rfl

@[simp]
theorem run_lift (lookup : κ → Option ν) (query : Query κ ν α) :
    (ExceptT.run (lift query : ExceptT ε (Query κ ν) α)).run lookup = .ok (query.run lookup) := by
  simp [lift, ExceptT.lift, ExceptT.run, ExceptT.mk, Functor.map]

theorem run_exceptBind (lookup : κ → Option ν) (first : ExceptT ε (Query κ ν) α)
    (rest : α → ExceptT ε (Query κ ν) β) :
    (ExceptT.run (first >>= rest)).run lookup =
      match (ExceptT.run first).run lookup with
      | .ok result => (ExceptT.run (rest result)).run lookup
      | .error error => .error error := by
  show (ExceptT.bind first rest).run.run lookup = _
  simp only [ExceptT.bind, ExceptT.run, ExceptT.mk, ExceptT.bindCont, bind_eq, run_bind]
  cases Query.run lookup first <;> rfl

@[simp]
theorem run_liftExcept (lookup : κ → Option ν) (result : Except ε α) :
    (ExceptT.run (liftExcept result : ExceptT ε (Query κ ν) α)).run lookup = result := by
  cases result <;> rfl

theorem ReadsWithin.exceptPure (result : α) :
    ReadsWithin keys (ExceptT.run (Pure.pure result : ExceptT ε (Query κ ν) α)) :=
  .pure _

theorem ReadsWithin.exceptThrow (error : ε) :
    ReadsWithin keys (ExceptT.run (throw error : ExceptT ε (Query κ ν) α)) :=
  .pure _

theorem ReadsWithin.ofExcept (result : Except ε α) :
    ReadsWithin keys (ExceptT.run (liftExcept result : ExceptT ε (Query κ ν) α)) := by
  cases result <;> exact .pure _

/-- After a step that cannot read, only the values it can give matter. -/
theorem ReadsWithin.ofExceptBind {result : Except ε α} {rest : α → ExceptT ε (Query κ ν) β}
    (next : ∀ value, result = .ok value → ReadsWithin keys (ExceptT.run (rest value))) :
    ReadsWithin keys (ExceptT.run (liftExcept result >>= rest)) := by
  cases result with
  | error error => exact .pure _
  | ok value => exact next value rfl

theorem ReadsWithin.lift {query : Query κ ν α} (within : ReadsWithin keys query) :
    ReadsWithin keys (ExceptT.run (Query.lift query : ExceptT ε (Query κ ν) α)) :=
  within.bind fun _ => .pure _

theorem ReadsWithin.exceptBind {first : ExceptT ε (Query κ ν) α}
    {rest : α → ExceptT ε (Query κ ν) β} (reads : ReadsWithin keys (ExceptT.run first))
    (next : ∀ result, ReadsWithin keys (ExceptT.run (rest result))) :
    ReadsWithin keys (ExceptT.run (first >>= rest)) := by
  show ReadsWithin keys (ExceptT.bind first rest).run
  refine reads.bind fun result => ?_
  cases result with
  | ok result => exact next result
  | error error => exact .pure _

end Query
