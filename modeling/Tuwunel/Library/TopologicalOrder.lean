import Mathlib

/-!
# Least topological orders

A vertex of `keys` depends on those of its `deps` that are among `keys`; a dependency outside
`keys` is no edge.  `SortedFrom done order` says that each vertex of `order` comes after its
dependencies, `done` having been placed before it, and `GreedyFrom rank done order` that `order`
is what picking, at every step, the available vertex of least rank gives, until none is left:
Kahn's algorithm with a priority queue.

A greedy run places no vertex twice and keeps dependencies first (`GreedyFrom.sortedFrom`); when
the dependencies form no cycle it places every vertex (`GreedyFrom.complete`); and, the ranks
being distinct, it is the lexicographically least of the topological orders (`GreedyFrom.map_le`):
where another order first differs from it, that order places a vertex which was available to the
greedy run too, and the greedy run took one of smaller rank.
-/

namespace TopologicalOrder

variable {α : Type*} (keys : List α) (deps : α → List α)

/-- Every dependency of `vertex` among `keys` is in `done`. -/
def Ready (done : List α) (vertex : α) : Prop :=
  ∀ dep ∈ deps vertex, dep ∈ keys → dep ∈ done

/-- `vertex` may be placed right after `done`. -/
def Available (done : List α) (vertex : α) : Prop :=
  vertex ∈ keys ∧ vertex ∉ done ∧ Ready keys deps done vertex

/-- Each vertex of the order is ready when it is placed. -/
def SortedFrom : List α → List α → Prop
  | _, [] => True
  | done, vertex :: rest => Ready keys deps done vertex ∧ SortedFrom (done ++ [vertex]) rest

/-- The greedy run: each vertex placed is the available one of least rank, and the run stops only
when no vertex is available. -/
def GreedyFrom {β : Type*} [LinearOrder β] (rank : α → β) : List α → List α → Prop
  | done, [] => ∀ vertex, ¬ Available keys deps done vertex
  | done, vertex :: rest =>
      Available keys deps done vertex ∧
        (∀ other, Available keys deps done other → rank vertex ≤ rank other) ∧
        GreedyFrom rank (done ++ [vertex]) rest

/-- `vertex` depends on `dep`, both among `keys`. -/
def DependsOn (vertex dep : α) : Prop :=
  vertex ∈ keys ∧ dep ∈ keys ∧ dep ∈ deps vertex

/-- No vertex depends on itself through a chain of dependencies. -/
def Acyclic : Prop :=
  ∀ vertex, ¬ Relation.TransGen (DependsOn keys deps) vertex vertex

variable {keys deps}

theorem Ready.mono {done done' : List α} {vertex : α} (ready : Ready keys deps done vertex)
    (grown : ∀ placed ∈ done, placed ∈ done') : Ready keys deps done' vertex :=
  fun dep member present => grown dep (ready dep member present)

theorem Ready.append {done : List α} {vertex : α} (ready : Ready keys deps done vertex)
    (more : List α) : Ready keys deps (done ++ more) vertex :=
  ready.mono fun _ placed => List.mem_append_left more placed

/-- In an order that places dependencies first, a present dependency of a vertex was placed
before it: in `done`, or earlier in the order. -/
theorem SortedFrom.mem_of_dep : ∀ {done front back : List α} {vertex : α},
    SortedFrom keys deps done (front ++ vertex :: back) →
      ∀ dep ∈ deps vertex, dep ∈ keys → dep ∈ done ++ front
  | _, [], _, _, sorted, dep, needed, present => by
      simpa using sorted.1 dep needed present
  | _, _ :: _, _, _, sorted, dep, needed, present => by
      simpa using SortedFrom.mem_of_dep sorted.2 dep needed present

/-- An order places dependencies first when, wherever it is split at a vertex, the vertex's
present dependencies lie in `done` or in front of it. -/
theorem SortedFrom.of_split :
    ∀ {done order : List α}, (∀ front vertex back, order = front ++ vertex :: back →
      Ready keys deps (done ++ front) vertex) → SortedFrom keys deps done order
  | _, [], _ => trivial
  | done, vertex :: rest, placed =>
      ⟨by simpa using placed [] vertex rest rfl, SortedFrom.of_split fun front later back split => by
        simpa using placed (vertex :: front) later back (by rw [split]; rfl)⟩

/-- In such an order without repeats, a present dependency comes at a smaller index. -/
theorem SortedFrom.idxOf_lt [DecidableEq α] {order : List α}
    (sorted : SortedFrom keys deps [] order) (distinct : order.Nodup) {vertex dep : α}
    (placed : vertex ∈ order) (needed : dep ∈ deps vertex) (present : dep ∈ keys) :
    order.idxOf dep < order.idxOf vertex := by
  obtain ⟨front, back, rfl⟩ := List.append_of_mem placed
  have before : dep ∈ front := by simpa using sorted.mem_of_dep dep needed present
  have fresh : vertex ∉ front := fun member =>
    (List.nodup_append.mp distinct).2.2 vertex member vertex List.mem_cons_self rfl
  rw [List.idxOf_append_of_mem before, List.idxOf_append_of_notMem fresh, List.idxOf_cons_self]
  simpa using List.idxOf_lt_length_of_mem before

/-- Without cycles, following dependencies among finitely many vertices comes to an end. -/
theorem Acyclic.wellFounded (acyclic : Acyclic keys deps) :
    WellFounded (flip (DependsOn keys deps)) := by
  -- the transitive closure is a strict order, well founded on the finite set of keys
  have strict : IsStrictOrder α (Relation.TransGen (flip (DependsOn keys deps))) :=
    { irrefl := fun vertex cycle => acyclic vertex (Relation.transGen_swap.mp cycle)
      trans := fun _ _ _ => Relation.TransGen.trans }
  have onKeys := Set.wellFoundedOn_iff.mp
    ((List.finite_toSet keys).wellFoundedOn (r := Relation.TransGen (flip (DependsOn keys deps))))
  exact Subrelation.wf (fun {_ _} edge => ⟨.single edge, edge.2.1, edge.1⟩) onKeys

/-! ## Greedy runs -/

section Greedy

variable {β : Type*} [LinearOrder β] {rank : α → β}

theorem GreedyFrom.sortedFrom :
    ∀ {done order : List α}, GreedyFrom keys deps rank done order →
      SortedFrom keys deps done order
  | _, [], _ => trivial
  | _, _ :: _, ⟨available, _, rest⟩ => ⟨available.2.2, rest.sortedFrom⟩

theorem GreedyFrom.mem_keys :
    ∀ {done order : List α}, GreedyFrom keys deps rank done order →
      ∀ vertex ∈ order, vertex ∈ keys
  | _, [], _ => by simp
  | _, _ :: _, ⟨available, _, rest⟩ => by
      simpa [available.1] using rest.mem_keys

/-- A greedy run places no vertex placed before it. -/
theorem GreedyFrom.fresh :
    ∀ {done order : List α}, GreedyFrom keys deps rank done order →
      ∀ vertex ∈ order, vertex ∉ done
  | _, [], _ => by simp
  | _, _ :: _, ⟨available, _, rest⟩ => by
      rintro vertex (_ | ⟨_, later⟩)
      · exact available.2.1
      · exact fun placed => rest.fresh vertex later (List.mem_append_left _ placed)

theorem GreedyFrom.nodup :
    ∀ {done order : List α}, GreedyFrom keys deps rank done order → order.Nodup
  | _, [], _ => List.nodup_nil
  | _, vertex :: _, ⟨_, _, rest⟩ =>
      List.nodup_cons.mpr ⟨fun later => rest.fresh vertex later (by simp), rest.nodup⟩

/-- Without cycles, a greedy run places every vertex not placed before it. -/
theorem GreedyFrom.complete (acyclic : Acyclic keys deps) :
    ∀ {done order : List α}, GreedyFrom keys deps rank done order →
      ∀ vertex ∈ keys, vertex ∈ done ∨ vertex ∈ order
  | done, [], stuck => by
      -- a vertex left out, taken with its dependencies placed, would be available
      intro vertex
      refine acyclic.wellFounded.induction
        (C := fun vertex => vertex ∈ keys → vertex ∈ done ∨ vertex ∈ ([] : List α))
        vertex fun vertex below present => Or.inl ?_
      by_contra missing
      refine stuck vertex ⟨present, missing, fun dep member depPresent => ?_⟩
      have placed := below dep ⟨present, depPresent, member⟩ depPresent
      simpa using placed
  | _, _ :: _, ⟨_, _, rest⟩ => by
      intro vertex present
      rcases GreedyFrom.complete acyclic rest vertex present with placed | later
      · rcases List.mem_append.mp placed with before | last
        · exact Or.inl before
        · exact Or.inr (List.mem_singleton.mp last ▸ List.mem_cons_self)
      · exact Or.inr (List.mem_cons_of_mem _ later)

/-- With distinct ranks, a greedy run is lexicographically least among the orders that place the
remaining vertices once each, dependencies first. -/
theorem GreedyFrom.map_le
    (distinct : ∀ vertex ∈ keys, ∀ other ∈ keys,
      rank vertex = rank other → vertex = other) :
    ∀ {done order other : List α}, GreedyFrom keys deps rank done order →
      SortedFrom keys deps done other → other.Nodup →
      (∀ vertex, vertex ∈ other ↔ vertex ∈ keys ∧ vertex ∉ done) →
      order.map rank ≤ other.map rank
  | done, [], other, stuck, sorted, _, exact => by
      -- nothing is available, so nothing is left to place
      cases other with
      | nil => exact le_rfl
      | cons first _ =>
          obtain ⟨present, fresh⟩ := (exact first).mp (by simp)
          exact absurd ⟨present, fresh, sorted.1⟩ (stuck first)
  | done, vertex :: order, other, ⟨available, least, rest⟩, sorted, distinctOther, exact => by
      cases other with
      | nil => exact absurd ((exact vertex).mpr ⟨available.1, available.2.1⟩) (by simp)
      | cons first other =>
          obtain ⟨present, fresh⟩ := (exact first).mp (by simp)
          have firstAvailable : Available keys deps done first := ⟨present, fresh, sorted.1⟩
          by_cases same : vertex = first
          · -- the orders agree here: compare the rest, one vertex further on
            subst same
            obtain ⟨notLater, distinctLater⟩ := List.nodup_cons.mp distinctOther
            have exactLater :
                ∀ later, later ∈ other ↔ later ∈ keys ∧ later ∉ done ++ [vertex] := by
              intro later
              constructor
              · intro member
                obtain ⟨present, fresh⟩ := (exact later).mp (List.mem_cons_of_mem _ member)
                have : later ≠ vertex := fun same => notLater (same ▸ member)
                simp [present, fresh, this]
              · rintro ⟨present, fresh⟩
                simp only [List.mem_append, List.mem_singleton, not_or] at fresh
                have member := (exact later).mpr ⟨present, fresh.1⟩
                exact (List.mem_cons.mp member).resolve_left fresh.2
            exact List.cons_le_cons _ (rest.map_le distinct sorted.2 distinctLater exactLater)
          · -- the orders part here, and the greedy run took the smaller rank
            have lower : rank vertex < rank first :=
              lt_of_le_of_ne (least first firstAvailable)
                fun equal => same (distinct vertex available.1 first present equal)
            exact le_of_lt (List.Lex.rel lower)

end Greedy

end TopologicalOrder
