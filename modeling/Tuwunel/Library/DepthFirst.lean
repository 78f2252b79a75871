import Mathlib

/-!
# What a depth-first search rests on

A search over a relation `r` toward a set of targets.  `Leads r targets x` says that a target is
reachable from `x`.  A node all of whose successors lead nowhere leads nowhere unless it is a
target itself (`not_leads_of_forall`), which is what makes a search's "dead" marks sound.  A set
that holds, with each of its members, every successor that leads to a target holds every node on
a path from a member to a target (`mem_of_closed`), which is what makes a finished search
complete.  The stack of a search is a chain of edges, top first: every member reaches the top,
the bottom reaches every member, and a property that holds up the chain at each node with a
successor holds along it (`isChain_of_dropLast`).  Over a well-founded converse, no node reaches
itself (`not_transGen_self`), so a stack has no repeats (`nodup_of_isChain`).
-/

namespace DepthFirst

variable {α : Type*} (r : α → α → Prop) (targets : Set α)

/-- Some target is reachable from `x` along `r`. -/
def Leads (x : α) : Prop :=
  ∃ target ∈ targets, Relation.ReflTransGen r x target

variable {r targets}

theorem leads_of_mem {x : α} (member : x ∈ targets) : Leads r targets x :=
  ⟨x, member, .refl⟩

theorem Leads.head {x y : α} (edge : r x y) (leads : Leads r targets y) : Leads r targets x := by
  obtain ⟨target, member, path⟩ := leads
  exact ⟨target, member, .head edge path⟩

theorem not_leads_of_forall {x : α} (outside : x ∉ targets)
    (nowhere : ∀ y, r x y → ¬ Leads r targets y) : ¬ Leads r targets x := by
  rintro ⟨target, member, path⟩
  rcases Relation.ReflTransGen.cases_head path with rfl | ⟨y, edge, rest⟩
  · exact outside member
  · exact nowhere y edge ⟨target, member, rest⟩

/-- The induction rule of a finished search, by induction on the path: a set closed under the
successors of its members that lead to a target holds every node on a path from a member to a
target. -/
theorem mem_of_closed {s : Set α} (closed : ∀ x ∈ s, ∀ y, r x y → Leads r targets y → y ∈ s)
    {x y : α} (start : x ∈ s) (path : Relation.ReflTransGen r x y) (leads : Leads r targets y) :
    y ∈ s := by
  induction path with
  | refl => exact start
  | tail _ edge ih => exact closed _ (ih (leads.head edge)) _ edge leads

theorem not_transGen_self (acyclic : WellFounded (flip r)) (x : α) :
    ¬ Relation.TransGen r x x := fun cycle =>
  acyclic.transGen.irrefl.irrefl x (Relation.transGen_swap.mpr cycle)

/-- In a chain of edges listed top first, every member reaches the top. -/
theorem reaches_top : ∀ {top : α} {rest : List α},
    (top :: rest).IsChain (fun above below => r below above) →
      ∀ x ∈ top :: rest, Relation.ReflTransGen r x top
  | _, [], _, x, member => by
      rw [List.mem_singleton.mp member]
  | top, next :: rest, chain, x, member => by
      rw [List.isChain_cons_cons] at chain
      rcases List.mem_cons.mp member with rfl | below
      · exact .refl
      · exact (reaches_top chain.2 x below).tail chain.1

/-- In a chain of edges listed top first, the bottom reaches every member. -/
theorem reached_from_bottom : ∀ {l : List α}, l.IsChain (fun above below => r below above) →
    ∀ {bottom : α}, l.getLast? = some bottom → ∀ x ∈ l, Relation.ReflTransGen r bottom x
  | [], _, _, _, x, member => absurd member List.not_mem_nil
  | [top], _, bottom, last, x, member => by
      simp only [List.getLast?_singleton, Option.some.injEq] at last
      rw [List.mem_singleton.mp member, last]
  | top :: next :: rest, chain, bottom, last, x, member => by
      rw [List.isChain_cons_cons] at chain
      rw [List.getLast?_cons_cons] at last
      rcases List.mem_cons.mp member with rfl | below
      · exact (reached_from_bottom chain.2 last next List.mem_cons_self).tail chain.1
      · exact reached_from_bottom chain.2 last x below

/-- Over a well-founded converse, a chain of edges listed top first has no repeats: a node met
twice would reach itself. -/
theorem nodup_of_isChain (acyclic : WellFounded (flip r)) :
    ∀ {l : List α}, l.IsChain (fun above below => r below above) → l.Nodup
  | [], _ => List.nodup_nil
  | [_], _ => List.nodup_singleton _
  | top :: next :: rest, chain => by
      have below := List.isChain_cons_cons.mp chain
      refine List.nodup_cons.mpr ⟨fun member => ?_, nodup_of_isChain acyclic below.2⟩
      exact not_transGen_self acyclic top (.tail' (reaches_top below.2 top member) below.1)

/-- A chain keeps a weaker relation when each of its links does where the link starts. -/
theorem isChain_of_dropLast {R S : α → α → Prop} : ∀ {l : List α}, l.IsChain R →
      (∀ a b, a ∈ l.dropLast → R a b → S a b) → l.IsChain S
  | [], _, _ => .nil
  | [_], _, _ => .singleton _
  | a :: b :: rest, chain, weaken => by
      rw [List.isChain_cons_cons] at chain ⊢
      refine ⟨weaken a b (by simp) chain.1, isChain_of_dropLast chain.2 fun c d member => ?_⟩
      exact weaken c d (by simp [List.dropLast_cons_cons, member])

end DepthFirst
