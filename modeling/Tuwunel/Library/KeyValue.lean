import Mathlib

/-!
# Tables of a key-value store

A table maps each key to at most one value; `put` overwrites and `remove` deletes.  The simp set
below evaluates any chain of writes at a key, which is how every proof about stored rows reads
the store.
-/

namespace KeyValue

/-- A table: each key holds at most one value. -/
def Table (κ ν : Type*) := κ → Option ν

namespace Table

variable {κ ν : Type*}

/-- The table with no rows. -/
def empty : Table κ ν := fun _ => none

/-- The value stored at `key`. -/
def get (table : Table κ ν) (key : κ) : Option ν := table key

/-- Whether a row is stored at `key`. -/
def contains (table : Table κ ν) (key : κ) : Bool := (table.get key).isSome

/-- Delete every row whose key satisfies `doomed`: a scan that deletes as it goes. -/
def removeIf (table : Table κ ν) (doomed : κ → Bool) : Table κ ν :=
  fun key => if doomed key then none else table key

@[simp]
theorem get_empty (key : κ) : (empty : Table κ ν).get key = none := rfl

theorem get_removeIf (table : Table κ ν) (doomed : κ → Bool) (key : κ) :
    (table.removeIf doomed).get key = if doomed key then none else table.get key := rfl

theorem contains_iff (table : Table κ ν) (key : κ) :
    table.contains key = true ↔ ∃ value, table.get key = some value := by
  simp [contains, Option.isSome_iff_exists]

@[ext]
theorem ext {table table' : Table κ ν} (same : ∀ key, table.get key = table'.get key) :
    table = table' :=
  funext same

variable [DecidableEq κ]

/-- Store `value` at `key`, replacing what was there. -/
def put (table : Table κ ν) (key : κ) (value : ν) : Table κ ν :=
  fun other => if other = key then some value else table other

/-- Delete the row at `key`, if any. -/
def remove (table : Table κ ν) (key : κ) : Table κ ν :=
  fun other => if other = key then none else table other

@[simp]
theorem get_put_self (table : Table κ ν) (key : κ) (value : ν) :
    (table.put key value).get key = some value := by
  simp [get, put]

@[simp]
theorem get_put_of_ne (table : Table κ ν) {key other : κ} (value : ν) (distinct : other ≠ key) :
    (table.put key value).get other = table.get other := by
  simp [get, put, distinct]

@[simp]
theorem get_remove_self (table : Table κ ν) (key : κ) : (table.remove key).get key = none := by
  simp [get, remove]

@[simp]
theorem get_remove_of_ne (table : Table κ ν) {key other : κ} (distinct : other ≠ key) :
    (table.remove key).get other = table.get other := by
  simp [get, remove, distinct]

theorem get_put (table : Table κ ν) (key other : κ) (value : ν) :
    (table.put key value).get other = if other = key then some value else table.get other := rfl

theorem get_remove (table : Table κ ν) (key other : κ) :
    (table.remove key).get other = if other = key then none else table.get other := rfl

/-- Collecting an indexed list of distinct keys, counted from `start`, stores each key's index. -/
theorem get_foldl_put_zipIdx :
    ∀ {keys : List κ}, keys.Nodup → ∀ (start : Nat) (table : Table κ Nat) (key : κ),
      (keys.zipIdx start |>.foldl (fun table entry => table.put entry.1 entry.2) table).get key =
        if key ∈ keys then some (keys.idxOf key + start) else table.get key
  | [], _, _, _, _ => by simp
  | first :: keys, distinct, start, table, key => by
      rw [List.nodup_cons] at distinct
      rw [List.zipIdx_cons, List.foldl_cons, get_foldl_put_zipIdx distinct.2]
      by_cases later : key ∈ keys
      · have other : first ≠ key := fun same => distinct.1 (same ▸ later)
        simp only [later, if_true, List.mem_cons, or_true, List.idxOf_cons_ne _ other,
          Option.some.injEq]
        omega
      · by_cases here : key = first
        · subst here
          simp [later]
        · simp [later, here]

section Inverse

variable {ν : Type*} [DecidableEq ν]

/-- Two tables each of which undoes the other: a forward column and its reverse index. -/
def Inverse (forward : Table κ ν) (reverse : Table ν κ) : Prop :=
  ∀ key value, forward.get key = some value ↔ reverse.get value = some key

/-- A pair whose key and value are both unused keeps two tables inverse. -/
theorem Inverse.put {forward : Table κ ν} {reverse : Table ν κ} (inverse : Inverse forward reverse)
    {key : κ} {value : ν} (absent : forward.get key = none)
    (unused : ∀ other, forward.get other ≠ some value) :
    Inverse (forward.put key value) (reverse.put value key) := by
  intro other found
  by_cases sameKey : other = key
  · subst sameKey
    by_cases sameValue : found = value
    · simp [sameValue]
    · -- the old reverse index cannot name `key`, which had no row
      have unnamed : reverse.get found ≠ some other := fun named => by
        simp [(inverse other found).mpr named] at absent
      simp [Ne.symm sameValue, sameValue, unnamed]
  · by_cases sameValue : found = value
    · subst sameValue
      simp [sameKey, Ne.symm sameKey, unused other]
    · simp [sameKey, sameValue, inverse other found]

end Inverse

end Table

end KeyValue
