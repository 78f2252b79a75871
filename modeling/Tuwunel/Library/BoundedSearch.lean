import Mathlib

/-!
# Breadth-first search with a visited set and a depth budget

A worklist search over items that carry keys.  The front item is popped.  An item whose key is
already visited, or that `visit` does not open, is dropped.  An opened item's key is marked
visited and its result emitted.  While its depth is under the budget, its children whose keys
are still unvisited are queued behind, one level down (`pushes`).  The search ends on every
input: each pop lowers the queue's weight, the number of items its entries can still bring in
(`weight`).

A key is marked visited when it is first opened, not when it is queued, so a key can sit in the
queue more than once.  The depths in the queue never fall and stay within one level of the front
(`Frontier`).  So every key nearer than the front is visited already, and a key is first opened
at its distance from the start.  From one root, the search emits the result of every key that
lies within the budget along opened keys (`mem_search_root_iff`), and each key once
(`nodup_search`).
-/

namespace BoundedSearch

variable {ι κ β : Type} [DecidableEq κ]

/-! ## The search -/

section Search

variable (key : ι → κ) (visit : ι → Option β) (children : β → List ι) (maxDepth : Nat)

/-- The items an item can bring into the queue with `budget` levels left, itself included. -/
def span : Nat → ι → Nat
  | 0, _ => 1
  | budget + 1, item =>
      1 + (visit item).elim 0 fun found => ((children found).map (span budget)).sum

/-- The weight of a queue: the items its entries can still bring in. -/
def weight (queue : List (ι × Nat)) : Nat :=
  (queue.map fun entry => span visit children (maxDepth - entry.2) entry.1).sum

/-- The entries an opened item queues at `depth`: none at the budget, and otherwise its children
whose keys are not visited, one level down. -/
def pushes (visited : List κ) (found : β) (depth : Nat) : List (ι × Nat) :=
  if depth < maxDepth then
    ((children found).filter fun child => key child ∉ visited).map fun child => (child, depth + 1)
  else []

theorem one_le_span (budget : Nat) (item : ι) : 1 ≤ span visit children budget item := by
  cases budget <;> simp [span]

theorem weight_cons (entry : ι × Nat) (queue : List (ι × Nat)) :
    weight visit children maxDepth (entry :: queue) =
      span visit children (maxDepth - entry.2) entry.1 + weight visit children maxDepth queue := by
  simp [weight]

theorem weight_append (queue queue' : List (ι × Nat)) :
    weight visit children maxDepth (queue ++ queue') =
      weight visit children maxDepth queue + weight visit children maxDepth queue' := by
  simp [weight]

/-- What an opened item queues weighs less than the item did. -/
theorem weight_pushes_lt {item : ι} {found : β} (opened : visit item = some found)
    (visited : List κ) (depth : Nat) :
    weight visit children maxDepth (pushes key children maxDepth visited found depth) <
      span visit children (maxDepth - depth) item := by
  unfold pushes
  split
  case isFalse =>
    simp only [weight, List.map_nil, List.sum_nil]
    exact one_le_span visit children _ item
  case isTrue under =>
    obtain ⟨budget, left⟩ : ∃ budget, maxDepth - depth = budget + 1 := ⟨maxDepth - depth - 1, by omega⟩
    have lower : maxDepth - (depth + 1) = budget := by omega
    -- the queued children are some of the children the item's span counts
    have kept : (((children found).filter fun child => key child ∉ visited).map
        fun child => span visit children budget child).sum ≤
          ((children found).map (span visit children budget)).sum :=
      List.Sublist.sum_le_sum (List.Sublist.map _ List.filter_sublist) fun _ _ => Nat.zero_le _
    simp only [weight, List.map_map, Function.comp_def, lower, left, span, opened, Option.elim]
    omega

/-- The search from a queue and a set of visited keys: the results of the items it opens, in the
order it opens them. -/
def search : List (ι × Nat) → List κ → List β
  | [], _ => []
  | (item, depth) :: queue, visited =>
      if key item ∈ visited then search queue visited
      else
        match _opened : visit item with
        | none => search queue visited
        | some found =>
            found :: search (queue ++ pushes key children maxDepth (key item :: visited) found depth)
              (key item :: visited)
termination_by queue => weight visit children maxDepth queue
decreasing_by
  all_goals simp only [weight_cons, weight_append]
  · have := one_le_span visit children (maxDepth - depth) item
    omega
  · have := one_le_span visit children (maxDepth - depth) item
    omega
  · have := weight_pushes_lt key visit children maxDepth _opened (key item :: visited) depth
    omega

theorem search_nil (visited : List κ) : search key visit children maxDepth [] visited = [] := by
  simp [search]

/-- The first pop of a root that opens: its result, then the search from its children. -/
theorem search_root {root : ι} {found : β} (opened : visit root = some found) :
    search key visit children maxDepth [(root, 0)] [] =
      found :: search key visit children maxDepth
        (pushes key children maxDepth [key root] found 0) [key root] := by
  rw [search, if_neg List.not_mem_nil]
  split
  next closed => simp [closed] at opened
  next found' opened' =>
    rw [opened] at opened'
    cases opened'
    rfl

end Search

/-! ## Reaching keys along opened items -/

section Reach

variable (key : ι → κ) (children : β → List ι) (lookup : κ → Option β)

/-- `Reaches start k depth`: a path of `depth` steps leads from `start` to `k`, each step from an
opened key to the key of one of its children. -/
inductive Reaches (start : κ) : κ → Nat → Prop
  | start : Reaches start start 0
  | child {parent : κ} {found : β} {depth : Nat} {item : ι} :
      Reaches start parent depth → lookup parent = some found → item ∈ children found →
        Reaches start (key item) (depth + 1)

variable {key children lookup}

omit [DecidableEq κ] in
theorem Reaches.eq_start_of_zero {start k : κ} (reached : Reaches key children lookup start k 0) :
    k = start := by
  cases reached
  rfl

end Reach

/-! ## The frontier invariant -/

section Frontier

variable (key : ι → κ) (children : β → List ι) (maxDepth : Nat) (lookup : κ → Option β)

/-- What holds of the queue and the visited keys throughout a search from `start`. -/
structure Frontier (start : κ) (queue : List (ι × Nat)) (visited : List κ) : Prop where
  /-- Each entry is reached at its depth, within the budget. -/
  queued : ∀ entry ∈ queue, Reaches key children lookup start (key entry.1) entry.2 ∧
    entry.2 ≤ maxDepth
  /-- Depths never fall along the queue. -/
  sorted : queue.Pairwise fun entry later => entry.2 ≤ later.2
  /-- and stay within one level of each other. -/
  spread : ∀ entry ∈ queue, ∀ later ∈ queue, later.2 ≤ entry.2 + 1
  /-- A child of a visited key, reached under the budget, is visited, does not open, or waits
  in the queue at most one level below the path to its parent. -/
  closed : ∀ k ∈ visited, ∀ found, lookup k = some found →
    ∀ depth, Reaches key children lookup start k depth → depth < maxDepth →
      ∀ item ∈ children found, key item ∈ visited ∨ lookup (key item) = none ∨
        ∃ entry ∈ queue, key entry.1 = key item ∧ entry.2 ≤ depth + 1
  /-- Once the queue has left depth zero, the start is visited if it opens. -/
  started : (lookup start).isSome → (∀ entry ∈ queue, 0 < entry.2) → start ∈ visited

variable {key children maxDepth lookup}

/-- Every key that opens and lies nearer than every entry of the queue is visited. -/
theorem Frontier.visited_of_reaches {start : κ} {queue : List (ι × Nat)} {visited : List κ}
    (frontier : Frontier key children maxDepth lookup start queue visited) {k : κ} {depth : Nat}
    (reached : Reaches key children lookup start k depth) (within : depth ≤ maxDepth)
    (nearer : ∀ entry ∈ queue, depth < entry.2) (opens : (lookup k).isSome) : k ∈ visited := by
  induction reached with
  | start => exact frontier.started opens nearer
  | @child parent found depth item path parentOpens child ih =>
      have parentVisited : parent ∈ visited :=
        ih (by omega) (fun entry member => by have := nearer entry member; omega)
          (by simp [parentOpens])
      rcases frontier.closed parent parentVisited found parentOpens depth path (by omega) item child
        with visitedChild | closedChild | ⟨entry, member, _, shallow⟩
      · exact visitedChild
      · simp [closedChild] at opens
      · have := nearer entry member
        omega

omit [DecidableEq κ] in
/-- The search starts with the root alone in the queue and nothing visited. -/
theorem Frontier.root (root : ι) :
    Frontier key children maxDepth lookup (key root) [(root, 0)] [] where
  queued := by simpa using Reaches.start
  sorted := by simp
  spread := by simp
  closed := by simp
  started := by simp

variable {start : κ} {item : ι} {depth : Nat} {queue : List (ι × Nat)} {visited : List κ}

omit [DecidableEq κ] in
/-- Dropping the front item keeps the invariant when its key is visited or does not open. -/
theorem Frontier.drop (frontier : Frontier key children maxDepth lookup start
      ((item, depth) :: queue) visited)
    (dropped : key item ∈ visited ∨ lookup (key item) = none) :
    Frontier key children maxDepth lookup start queue visited where
  queued entry member := frontier.queued entry (List.mem_cons_of_mem _ member)
  sorted := (List.pairwise_cons.mp frontier.sorted).2
  spread entry member later member' :=
    frontier.spread entry (List.mem_cons_of_mem _ member) later (List.mem_cons_of_mem _ member')
  closed k member found opens depth' path under child childMember := by
    rcases frontier.closed k member found opens depth' path under child childMember with
      visitedChild | closedChild | ⟨entry, queued, same, shallow⟩
    · exact .inl visitedChild
    · exact .inr (.inl closedChild)
    · rcases List.mem_cons.mp queued with rfl | queued
      -- the waiting entry was the dropped one
      · rw [← same]
        exact dropped.imp id .inl
      · exact .inr (.inr ⟨entry, queued, same, shallow⟩)
  started opens positive := by
    rcases Nat.eq_zero_or_pos depth with zero | positive'
    · -- an entry at depth zero is the start itself
      have atStart : key item = start := by
        subst zero
        exact (frontier.queued (item, 0) List.mem_cons_self).1.eq_start_of_zero
      rcases dropped with visitedItem | closedItem
      · exact atStart ▸ visitedItem
      · simp [← atStart, closedItem] at opens
    · refine frontier.started opens fun entry member => ?_
      rcases List.mem_cons.mp member with rfl | member
      · exact positive'
      · exact Nat.lt_of_lt_of_le positive' ((List.pairwise_cons.mp frontier.sorted).1 entry member)

/-- Opening the front item keeps the invariant: its key is visited and its children queued. -/
theorem Frontier.open (frontier : Frontier key children maxDepth lookup start
      ((item, depth) :: queue) visited)
    (fresh : key item ∉ visited) {found : β} (opens : lookup (key item) = some found) :
    Frontier key children maxDepth lookup start
      (queue ++ pushes key children maxDepth (key item :: visited) found depth)
      (key item :: visited) := by
  obtain ⟨reached, within⟩ := frontier.queued (item, depth) List.mem_cons_self
  have behind : ∀ entry ∈ queue, depth ≤ entry.2 ∧ entry.2 ≤ depth + 1 := fun entry member =>
    ⟨(List.pairwise_cons.mp frontier.sorted).1 entry member,
      frontier.spread (item, depth) List.mem_cons_self entry (List.mem_cons_of_mem _ member)⟩
  have pushed : ∀ entry ∈ pushes key children maxDepth (key item :: visited) found depth,
      entry.2 = depth + 1 ∧ depth < maxDepth ∧ entry.1 ∈ children found ∧
        key entry.1 ∉ key item :: visited := by
    intro entry member
    unfold pushes at member
    split at member
    case isFalse => simp at member
    case isTrue under =>
      obtain ⟨child, kept, rfl⟩ := List.mem_map.mp member
      obtain ⟨childMember, fresh⟩ := List.mem_filter.mp kept
      exact ⟨rfl, under, childMember, of_decide_eq_true fresh⟩
  -- the item is opened at its distance: a shorter path would have visited it already
  have nearest : ∀ depth', Reaches key children lookup start (key item) depth' → depth ≤ depth' := by
    intro depth' path
    by_contra shorter
    refine fresh (frontier.visited_of_reaches path (by omega) (fun entry member => ?_)
      (by simp [opens]))
    rcases List.mem_cons.mp member with rfl | member
    · omega
    · have := (behind entry member).1
      omega
  refine ⟨fun entry member => ?_, ?_, fun entry member later member' => ?_, ?_, ?_⟩
  · rcases List.mem_append.mp member with member | member
    · exact frontier.queued entry (List.mem_cons_of_mem _ member)
    · obtain ⟨deeper, under, child, _⟩ := pushed entry member
      exact ⟨deeper ▸ Reaches.child reached opens child, by omega⟩
  · refine List.pairwise_append.mpr ⟨(List.pairwise_cons.mp frontier.sorted).2, ?_, ?_⟩
    · exact List.Pairwise.imp_of_mem (fun member member' _ =>
        ((pushed _ member).1.trans (pushed _ member').1.symm).le) (List.pairwise_of_forall
          fun _ _ => trivial)
    · intro entry member later member'
      rw [(pushed later member').1]
      exact (behind entry member).2
  · have bounds : ∀ entry ∈ queue ++ pushes key children maxDepth (key item :: visited) found depth,
        depth ≤ entry.2 ∧ entry.2 ≤ depth + 1 := by
      intro entry member
      rcases List.mem_append.mp member with member | member
      · exact behind entry member
      · have := (pushed entry member).1
        omega
    have := bounds entry member
    have := bounds later member'
    omega
  · intro k member found' opens' depth' path under child childMember
    rcases List.mem_cons.mp member with rfl | member
    · -- the item's own children went into the queue just now
      have same : found' = found := Option.some.inj (opens'.symm.trans opens)
      subst same
      have nearer := nearest depth' path
      by_cases seen : key child ∈ key item :: visited
      · exact .inl seen
      · refine .inr (.inr ⟨(child, depth + 1), List.mem_append_right _ ?_, rfl, by simp; omega⟩)
        simp only [pushes, if_pos (show depth < maxDepth by omega)]
        exact List.mem_map.mpr ⟨child, List.mem_filter.mpr ⟨childMember, decide_eq_true seen⟩, rfl⟩
    · rcases frontier.closed k member found' opens' depth' path under child childMember with
        visitedChild | closedChild | ⟨entry, queued, same, shallow⟩
      · exact .inl (List.mem_cons_of_mem _ visitedChild)
      · exact .inr (.inl closedChild)
      · rcases List.mem_cons.mp queued with rfl | queued
        · exact .inl (same ▸ List.mem_cons_self)
        · exact .inr (.inr ⟨entry, List.mem_append_left _ queued, same, shallow⟩)
  · intro startOpens positive
    rcases Nat.eq_zero_or_pos depth with zero | positive'
    · subst zero
      exact reached.eq_start_of_zero ▸ List.mem_cons_self
    · refine List.mem_cons_of_mem _ (frontier.started startOpens fun entry member => ?_)
      rcases List.mem_cons.mp member with rfl | member
      · exact positive'
      · exact Nat.lt_of_lt_of_le positive' (behind entry member).1

end Frontier

/-! ## What the search emits -/

section Emits

variable {key : ι → κ} {children : β → List ι} {maxDepth : Nat} {lookup : κ → Option β}
  {start : κ} {queue : List (ι × Nat)} {visited : List κ}

/-- Each result the search emits is that of a key that opens, lies within the budget, and was
not visited before. -/
theorem exists_of_mem_search (frontier : Frontier key children maxDepth lookup start queue visited)
    {found : β} (member : found ∈ search key (fun item => lookup (key item)) children maxDepth
      queue visited) :
    ∃ k depth, Reaches key children lookup start k depth ∧ depth ≤ maxDepth ∧
      lookup k = some found ∧ k ∉ visited := by
  fun_induction search key (fun item => lookup (key item)) children maxDepth queue visited with
  | case1 visited => simp at member
  | case2 item depth queue visited seen ih => exact ih (frontier.drop (.inl seen)) member
  | case3 item depth queue visited fresh closed ih => exact ih (frontier.drop (.inr closed)) member
  | case4 item depth queue visited fresh found' opened ih =>
      rcases List.mem_cons.mp member with rfl | member
      · obtain ⟨reached, within⟩ := frontier.queued (item, depth) List.mem_cons_self
        exact ⟨key item, depth, reached, within, opened, fresh⟩
      · obtain ⟨k, depth', reached, within, opens, unseen⟩ := ih (frontier.open fresh opened) member
        exact ⟨k, depth', reached, within, opens, fun seen => unseen (List.mem_cons_of_mem _ seen)⟩

/-- A key that opens and lies within the budget is visited before, or its result is emitted. -/
theorem mem_search_of_reaches (frontier : Frontier key children maxDepth lookup start queue visited)
    {k : κ} {depth : Nat} (reached : Reaches key children lookup start k depth)
    (within : depth ≤ maxDepth) {found : β} (opens : lookup k = some found) :
    k ∈ visited ∨ found ∈ search key (fun item => lookup (key item)) children maxDepth
      queue visited := by
  fun_induction search key (fun item => lookup (key item)) children maxDepth queue visited with
  | case1 visited =>
      exact .inl (frontier.visited_of_reaches reached within (by simp) (by simp [opens]))
  | case2 item depth queue visited seen ih => exact ih (frontier.drop (.inl seen))
  | case3 item depth queue visited fresh closed ih => exact ih (frontier.drop (.inr closed))
  | case4 item depth queue visited fresh found' opened ih =>
      rcases ih (frontier.open fresh opened) with seen | member
      · rcases List.mem_cons.mp seen with rfl | seen
        -- the key is the item's own: its result is the one emitted now
        · exact .inr (Option.some.inj (opens.symm.trans opened) ▸ List.mem_cons_self)
        · exact .inl seen
      · exact .inr (List.mem_cons_of_mem _ member)

/-- Where each result names its key, the search emits each key once, and none visited before. -/
theorem nodup_search {name : β → κ} (named : ∀ k found, lookup k = some found → name found = k)
    (frontier : Frontier key children maxDepth lookup start queue visited) :
    ((search key (fun item => lookup (key item)) children maxDepth queue visited).map name).Nodup := by
  fun_induction search key (fun item => lookup (key item)) children maxDepth queue visited with
  | case1 visited => simp
  | case2 item depth queue visited seen ih => exact ih (frontier.drop (.inl seen))
  | case3 item depth queue visited fresh closed ih => exact ih (frontier.drop (.inr closed))
  | case4 item depth queue visited fresh found' opened ih =>
      have opens := frontier.open fresh opened
      refine List.nodup_cons.mpr ⟨fun member => ?_, ih opens⟩
      obtain ⟨later, laterMember, same⟩ := List.mem_map.mp member
      obtain ⟨k, _, _, _, laterOpens, unseen⟩ := exists_of_mem_search opens laterMember
      rw [named _ _ laterOpens, named _ _ opened] at same
      exact unseen (same ▸ List.mem_cons_self)

/-- From one root, the search emits exactly the results of the keys that open and lie within the
budget along opened keys. -/
theorem mem_search_root_iff (root : ι) {found : β} :
    found ∈ search key (fun item => lookup (key item)) children maxDepth [(root, 0)] [] ↔
      ∃ k depth, Reaches key children lookup (key root) k depth ∧ depth ≤ maxDepth ∧
        lookup k = some found := by
  constructor
  · intro member
    obtain ⟨k, depth, reached, within, opens, _⟩ := exists_of_mem_search (Frontier.root root) member
    exact ⟨k, depth, reached, within, opens⟩
  · rintro ⟨k, depth, reached, within, opens⟩
    exact (mem_search_of_reaches (Frontier.root root) reached within opens).resolve_left
      List.not_mem_nil

end Emits

end BoundedSearch
