import Mathlib

/-!
# Reachability along partial successor lists

A graph whose nodes may be unknown: `next x` is the list of successors of a known node and `none`
for a node the graph does not hold.  An edge may lead to an unknown node, which then ends every
path through it.  `Reach next blocked x y` says that a path of one or more edges leads from `x`
to `y` without entering a node of `blocked`.

The rules here are the ones a search over such a graph needs: a set closed under the successors
of its members contains everything reachable (`Reach.mem_of_closed`); a graph that only learns
new nodes keeps every path (`Reach.grow`), and adds none out of a node all of whose descendants
it already knew (`Reach.of_grow`); and blocking a node without successors removes only that
node (`reach_singleton_iff`).
-/

namespace Reachability

variable {α : Type*}

/-- A path of one or more edges from `x` to `y` whose nodes after `x` are not blocked. -/
inductive Reach (next : α → Option (List α)) (blocked : Set α) : α → α → Prop
  | edge {x y : α} {ys : List α} :
      next x = some ys → y ∈ ys → y ∉ blocked → Reach next blocked x y
  | tail {x y z : α} {zs : List α} :
      Reach next blocked x y → next y = some zs → z ∈ zs → z ∉ blocked → Reach next blocked x z

/-- Every node on a path from `x` is known: the graph holds the successors of each of them. -/
def Closed (next : α → Option (List α)) (blocked : Set α) (x : α) : Prop :=
  (next x).isSome ∧ ∀ y, Reach next blocked x y → (next y).isSome

/-- `next'` knows every node `next` knows, with the same successors. -/
def Grows (next next' : α → Option (List α)) : Prop :=
  ∀ x ys, next x = some ys → next' x = some ys

variable {next next' : α → Option (List α)} {blocked : Set α}

theorem Reach.not_blocked {x y : α} (path : Reach next blocked x y) : y ∉ blocked := by
  cases path with
  | edge _ _ free => exact free
  | tail _ _ _ free => exact free

/-- The induction rule of a search: a set holding every unblocked successor of `x` and of each
of its own members holds every node reachable from `x`. -/
theorem Reach.mem_of_closed {s : Set α} {x y : α}
    (start : ∀ ys, next x = some ys → ∀ y ∈ ys, y ∉ blocked → y ∈ s)
    (closed : ∀ y ∈ s, ∀ zs, next y = some zs → ∀ z ∈ zs, z ∉ blocked → z ∈ s)
    (path : Reach next blocked x y) : y ∈ s := by
  induction path with
  | edge known member free => exact start _ known _ member free
  | tail _ known member free ih => exact closed _ ih _ known _ member free

theorem Grows.refl (next : α → Option (List α)) : Grows next next := fun _ _ known => known

theorem Grows.trans {next'' : α → Option (List α)} (first : Grows next next')
    (second : Grows next' next'') : Grows next next'' :=
  fun x ys known => second x ys (first x ys known)

/-- Learning new nodes keeps every path. -/
theorem Reach.grow (grows : Grows next next') {x y : α} (path : Reach next blocked x y) :
    Reach next' blocked x y := by
  induction path with
  | edge known member free => exact .edge (grows _ _ known) member free
  | tail _ known member free ih => exact .tail ih (grows _ _ known) member free

/-- Out of a closed node, a graph that learns new nodes has no new paths. -/
theorem Reach.of_grow (grows : Grows next next') {x y : α} (closed : Closed next blocked x)
    (path : Reach next' blocked x y) : Reach next blocked x y := by
  induction path with
  | @edge y ys known member free =>
      obtain ⟨old, oldKnown⟩ := Option.isSome_iff_exists.mp closed.1
      have same : old = ys := by simpa [grows _ _ oldKnown] using known
      exact .edge oldKnown (same ▸ member) free
  | @tail y z zs _ known member free ih =>
      obtain ⟨old, oldKnown⟩ := Option.isSome_iff_exists.mp (closed.2 y ih)
      have same : old = zs := by simpa [grows _ _ oldKnown] using known
      exact .tail ih oldKnown (same ▸ member) free

theorem reach_iff_of_grow (grows : Grows next next') {x y : α} (closed : Closed next blocked x) :
    Reach next' blocked x y ↔ Reach next blocked x y :=
  ⟨Reach.of_grow grows closed, Reach.grow grows⟩

/-- A closed node stays closed, over the same paths, in a graph that learns new nodes. -/
theorem Closed.grow (grows : Grows next next') {x : α} (closed : Closed next blocked x) :
    Closed next' blocked x := by
  refine ⟨?_, fun y path => ?_⟩
  · obtain ⟨ys, known⟩ := Option.isSome_iff_exists.mp closed.1
    simp [grows _ _ known]
  · obtain ⟨zs, known⟩ := Option.isSome_iff_exists.mp (closed.2 y (path.of_grow grows closed))
    simp [grows _ _ known]

/-- Blocking a node without successors removes that node from the reachable ones, and nothing
else. -/
theorem reach_singleton_iff {c x y : α} (sink : ∀ zs, next c = some zs → zs = []) :
    Reach next {c} x y ↔ Reach next ∅ x y ∧ y ≠ c := by
  constructor
  · intro path
    refine ⟨?_, path.not_blocked⟩
    induction path with
    | edge known member _ => exact .edge known member (Set.notMem_empty _)
    | tail _ known member _ ih => exact .tail ih known member (Set.notMem_empty _)
  · rintro ⟨path, other⟩
    induction path with
    | edge known member _ => exact .edge known member other
    | @tail y z zs _ known member _ ih =>
        -- the path cannot pass through `c`: it has no successor to continue by
        have middle : y ≠ c := by
          rintro rfl
          simp [sink zs known] at member
        exact .tail (ih middle) known member other

end Reachability
