import Mathlib
import Tuwunel.Library.TopologicalOrder
import Tuwunel.Service.Rooms.EventHandler.StateLocalBuild

/-!
# Discovery emits every held node once, after its held prevs

The graph discovery walks is the services': a held ancestor (no state hash, no memo row, its pdu
stored) has an edge to each of its prevs (`LocalServices.PrevEdge`).  `Discovering` is what
holds of the stack and the walk throughout `walk_discover`'s loop.  The classes agree with the
services, and the nodes are the held ancestors by index.  A node is emitted, or its expanded
entry waits in the stack, once.  Above an expanded entry lie only proper descendants of its
node, and each prev of a waiting node is still above its entry or finished.

A prev entry popped for a node classified but not emitted would therefore lie above that node's
own entry, and so descend from it: a cycle, which the ancestors of the incoming event do not have.
So when a node's entry comes back expanded, all its prevs are finished, and the order it is
emitted in places held prevs first (`walkDiscover_sorted`).
-/

namespace Tuwunel
namespace EventHandler

open KeyValue

variable (services : LocalServices)

namespace LocalServices

/-- A held ancestor as discovery classifies it: no state hash, no memo row, its pdu stored. -/
def Held (eventId : EventId) (pdu : Pdu) : Prop :=
  services.pduShortstatehash eventId = none ∧ services.resolvedStateExists eventId = false ∧
    services.getPdu eventId = some pdu

/-- An edge of the held ancestry: from a held event to one of its prevs. -/
def PrevEdge (event prev : EventId) : Prop :=
  ∃ pdu, services.Held event pdu ∧ prev ∈ pdu.prevEvents

/-- An ancestor of the incoming event through held events, its prevs included. -/
def Ancestor (topPrevs : List EventId) (eventId : EventId) : Prop :=
  ∃ top ∈ topPrevs, Relation.ReflTransGen services.PrevEdge top eventId

/-- `get_pdu` returns the event asked for. -/
def PdusNamed : Prop :=
  ∀ eventId pdu, services.getPdu eventId = some pdu → pdu.eventId = eventId

/-- No held ancestor of the incoming event descends from itself. -/
def HeldAcyclic (topPrevs : List EventId) : Prop :=
  ∀ eventId, services.Ancestor topPrevs eventId →
    ¬ Relation.TransGen services.PrevEdge eventId eventId

end LocalServices

/-- What a class says of an event, in the services' terms, `pdus` being the walk's nodes. -/
def ClassOk (pdus : List Pdu) (eventId : EventId) : Class → Prop
  | .committed shortstatehash => services.pduShortstatehash eventId = some shortstatehash
  | .memoized =>
      services.pduShortstatehash eventId = none ∧ services.resolvedStateExists eventId = true
  | .held index => ∃ pdu, pdus[index]? = some pdu ∧ pdu.eventId = eventId ∧ services.Held eventId pdu

/-- The pdus of a walk's nodes. -/
def Walk.pdus (walk : Walk) : List Pdu := walk.nodes.map (·.pdu)

/-- Classified, and emitted among `done` if held. -/
def Finished (walk : Walk) (done : List Nat) (eventId : EventId) : Prop :=
  ∃ found, walk.«class».get eventId = some found ∧ ∀ index, found = .held index → index ∈ done

/-- The entries above the first expanded entry of `eventId`. -/
def above (stack : List (EventId × Bool)) (eventId : EventId) : List (EventId × Bool) :=
  stack.takeWhile (· ≠ (eventId, true))

/-- What holds of the stack and the walk throughout discovery. -/
structure Discovering (stack : List (EventId × Bool)) (walk : Walk) : Prop where
  classOk : ∀ eventId found, walk.«class».get eventId = some found →
    ClassOk services walk.pdus eventId found
  named : ∀ index pdu, walk.pdus[index]? = some pdu →
    walk.«class».get pdu.eventId = some (.held index)
  fresh : ∀ node ∈ walk.nodes, node.consumers = 0
  nodeAncestors : ∀ pdu ∈ walk.pdus, services.Ancestor walk.topPrevs pdu.eventId
  ancestors : ∀ entry ∈ stack, services.Ancestor walk.topPrevs entry.1
  tops : ∀ top ∈ walk.topPrevs, (walk.«class».get top).isSome ∨ (top, false) ∈ stack
  marked : ∀ eventId, (eventId, true) ∈ stack →
    ∃ index, walk.«class».get eventId = some (.held index) ∧ index ∉ walk.order
  markedOnce : ((stack.filter (·.2)).map (·.1)).Nodup
  waiting : ∀ index pdu, walk.pdus[index]? = some pdu → index ∉ walk.order →
    (pdu.eventId, true) ∈ stack
  orderNodup : walk.order.Nodup
  orderBound : ∀ index ∈ walk.order, index < walk.nodes.length
  emitted : ∀ before index after, walk.order = before ++ index :: after →
    ∀ pdu, walk.pdus[index]? = some pdu → ∀ prev ∈ pdu.prevEvents, Finished walk before prev
  chain : ∀ eventId, (eventId, true) ∈ stack → ∀ entry ∈ above stack eventId,
    Relation.TransGen services.PrevEdge eventId entry.1
  pending : ∀ eventId, (eventId, true) ∈ stack → ∀ index pdu,
    walk.«class».get eventId = some (.held index) → walk.pdus[index]? = some pdu →
      ∀ prev ∈ pdu.prevEvents, (∃ entry ∈ above stack eventId, entry.1 = prev) ∨
        Finished walk walk.order prev

/-! ## The stack -/

theorem above_cons_self (eventId : EventId) (stack : List (EventId × Bool)) :
    above ((eventId, true) :: stack) eventId = [] := by
  simp [above]

theorem above_cons_of_ne {entry : EventId × Bool} {eventId : EventId}
    (other : entry ≠ (eventId, true)) (stack : List (EventId × Bool)) :
    above (entry :: stack) eventId = entry :: above stack eventId := by
  simp [above, other]

theorem above_cons_unexpanded {eventId other : EventId} {stack : List (EventId × Bool)} :
    above ((eventId, false) :: stack) other = (eventId, false) :: above stack other :=
  above_cons_of_ne (by simp) stack

/-- An expanded entry below an unexpanded one is in the stack below it. -/
theorem mem_of_mem_cons_unexpanded {eventId other : EventId} {stack : List (EventId × Bool)}
    (member : (other, true) ∈ (eventId, false) :: stack) : (other, true) ∈ stack :=
  (List.mem_cons.mp member).resolve_left (by simp)

theorem above_unexpanded_append (prevs : List EventId) (stack : List (EventId × Bool))
    (eventId : EventId) :
    above (prevs.map (·, false) ++ stack) eventId = prevs.map (·, false) ++ above stack eventId := by
  induction prevs with
  | nil => rfl
  | cons prev prevs ih =>
      simp only [List.map_cons, List.cons_append]
      rw [above_cons_of_ne (by simp), ih]

theorem above_expandStack_self (eventId : EventId) (prevs : List EventId)
    (stack : List (EventId × Bool)) :
    above (expandStack eventId prevs stack) eventId = prevs.reverse.map (·, false) := by
  rw [expandStack, above_unexpanded_append, above_cons_self, List.append_nil]

theorem above_expandStack_of_ne {eventId other : EventId} (distinct : other ≠ eventId)
    (prevs : List EventId) (stack : List (EventId × Bool)) :
    above (expandStack eventId prevs stack) other =
      prevs.reverse.map (·, false) ++ (eventId, true) :: above stack other := by
  rw [expandStack, above_unexpanded_append, above_cons_of_ne (by simpa using distinct.symm)]

theorem mem_expandStack {eventId : EventId} {prevs : List EventId}
    {stack : List (EventId × Bool)} {entry : EventId × Bool} :
    entry ∈ expandStack eventId prevs stack ↔
      (entry.2 = false ∧ entry.1 ∈ prevs) ∨ entry = (eventId, true) ∨ entry ∈ stack := by
  obtain ⟨id, flag⟩ := entry
  simp only [expandStack, List.mem_append, List.mem_map, List.mem_reverse, List.mem_cons,
    Prod.mk.injEq]
  constructor
  · rintro (⟨prev, member, rfl, rfl⟩ | same | pushed)
    · exact .inl ⟨rfl, member⟩
    · exact .inr (.inl same)
    · exact .inr (.inr pushed)
  · rintro (⟨rfl, member⟩ | same | pushed)
    · exact .inl ⟨id, member, rfl, rfl⟩
    · exact .inr (.inl same)
    · exact .inr (.inr pushed)

/-- Where a list with one more item is split, either at the new item or within the list. -/
theorem split_append_singleton {α : Type} {items before after : List α} {item middle : α}
    (split : items ++ [item] = before ++ middle :: after) :
    (before = items ∧ middle = item) ∨ ∃ rest, items = before ++ middle :: rest := by
  rcases List.eq_nil_or_concat after with rfl | ⟨rest, last, rfl⟩
  · obtain ⟨same, last⟩ := List.append_inj' split rfl
    exact .inl ⟨same.symm, (List.singleton_inj.mp last).symm⟩
  · have regrouped : items ++ [item] = (before ++ middle :: rest) ++ [last] := by
      rw [split]
      simp
    exact .inr ⟨rest, (List.append_inj' regrouped rfl).1⟩

/-! ## Finished events -/

theorem Finished.mono {walk : Walk} {done done' : List Nat} {eventId : EventId}
    (finished : Finished walk done eventId) (grown : ∀ index ∈ done, index ∈ done') :
    Finished walk done' eventId := by
  obtain ⟨found, classified, held⟩ := finished
  exact ⟨found, classified, fun index same => grown index (held index same)⟩

/-- A classified event stays finished when another event is classified. -/
theorem Finished.put {walk : Walk} {done : List Nat} {eventId other : EventId} {found : Class}
    (finished : Finished walk done eventId) (unclassified : walk.«class».get other = none) :
    Finished { walk with «class» := walk.«class».put other found } done eventId := by
  obtain ⟨found', classified, held⟩ := finished
  have distinct : eventId ≠ other := by
    rintro rfl
    simp [classified] at unclassified
  exact ⟨found', by simpa [Table.get_put_of_ne _ _ distinct] using classified, held⟩

/-- An index into a list with one more item: within the list, or the new item. -/
theorem getElem?_append_singleton {α : Type} {items : List α} {item found : α} {index : Nat}
    (stored : (items ++ [item])[index]? = some found) :
    items[index]? = some found ∨ (index = items.length ∧ found = item) := by
  rw [List.getElem?_append] at stored
  split_ifs at stored with within
  · exact .inl stored
  · rw [List.getElem?_singleton] at stored
    split_ifs at stored with last
    · exact .inr ⟨by omega, (Option.some.inj stored).symm⟩

variable {services}

theorem ClassOk.append {pdus : List Pdu} {eventId : EventId} {found : Class}
    (ok : ClassOk services pdus eventId found) (more : List Pdu) :
    ClassOk services (pdus ++ more) eventId found := by
  cases found with
  | held index =>
      obtain ⟨pdu, stored, named, held⟩ := ok
      refine ⟨pdu, ?_, named, held⟩
      rw [List.getElem?_append_left (List.getElem?_eq_some_iff.mp stored).1]
      exact stored
  | committed => exact ok
  | memoized => exact ok

/-! ## One step of the loop each -/

namespace Discovering

variable {stack : List (EventId × Bool)} {walk : Walk}

/-- Two events of one held index are one event. -/
theorem held_injective (inv : Discovering services stack walk) {eventId other : EventId}
    {index : Nat} (first : walk.«class».get eventId = some (.held index))
    (second : walk.«class».get other = some (.held index)) : eventId = other := by
  obtain ⟨pdu, found, named, -⟩ := inv.classOk eventId _ first
  obtain ⟨pdu', found', named', -⟩ := inv.classOk other _ second
  rw [found] at found'
  cases found'
  rw [← named, ← named']

/-- The expanded entry on top is the only one of its event. -/
theorem not_mem_of_top {eventId : EventId}
    (inv : Discovering services ((eventId, true) :: stack) walk) : (eventId, true) ∉ stack := by
  intro member
  have distinct := inv.markedOnce
  simp only [List.filter_cons, if_pos, List.map_cons, List.nodup_cons] at distinct
  exact distinct.1 (List.mem_map.mpr ⟨(eventId, true), List.mem_filter.mpr ⟨member, rfl⟩, rfl⟩)

/-- Popping an expanded entry emits its node: its prevs are all finished. -/
theorem emit {eventId : EventId} {index : Nat}
    (inv : Discovering services ((eventId, true) :: stack) walk)
    (found : walk.«class».get eventId = some (.held index)) :
    Discovering services stack { walk with order := walk.order ++ [index] } := by
  have unique := inv.not_mem_of_top
  obtain ⟨index', found', unemitted⟩ := inv.marked eventId List.mem_cons_self
  rw [found] at found'
  cases found'
  refine ⟨inv.classOk, inv.named, inv.fresh, inv.nodeAncestors,
    fun entry member => inv.ancestors entry (List.mem_cons_of_mem _ member), ?tops, ?marked, ?markedOnce, ?waiting, ?orderNodup,
    ?orderBound, ?emitted, ?chain, ?pending⟩
  case tops =>
    intro top member
    exact (inv.tops top member).imp_right fun pushed =>
      (List.mem_cons.mp pushed).resolve_left (by simp)
  case marked =>
    intro other member
    obtain ⟨index', classified, unemitted'⟩ := inv.marked other (List.mem_cons_of_mem _ member)
    refine ⟨index', classified, fun emitted => ?_⟩
    rcases List.mem_append.mp emitted with old | new
    · exact unemitted' old
    · obtain rfl := List.mem_singleton.mp new
      exact unique (inv.held_injective found classified ▸ member)
  case markedOnce =>
    have distinct := inv.markedOnce
    simp only [List.filter_cons, if_pos, List.map_cons, List.nodup_cons] at distinct
    exact distinct.2
  case waiting =>
    intro index' pdu stored unemitted'
    have notLast : index' ≠ index := fun same => unemitted' (by simp [same])
    rcases List.mem_cons.mp (inv.waiting index' pdu stored fun old => unemitted' (by simp [old]))
      with head | member
    · have : pdu.eventId = eventId := (Prod.mk.inj head).1
      have := inv.named index' pdu stored
      rw [‹pdu.eventId = eventId›, found] at this
      exact absurd (Class.held.inj (Option.some.inj this)).symm notLast
    · exact member
  case orderNodup =>
    exact inv.orderNodup.append (List.nodup_singleton index)
      (List.disjoint_singleton.mpr unemitted)
  case orderBound =>
    intro index' member
    rcases List.mem_append.mp member with old | new
    · exact inv.orderBound index' old
    · obtain rfl := List.mem_singleton.mp new
      obtain ⟨pdu, stored, -⟩ := inv.classOk eventId _ found
      simpa [Walk.pdus] using (List.getElem?_eq_some_iff.mp stored).1
  case emitted =>
    intro before index' after split pdu stored prev member
    rcases split_append_singleton split with ⟨rfl, rfl⟩ | ⟨rest, old⟩
    · -- the emitted node: nothing lies above its entry any more
      rcases inv.pending eventId List.mem_cons_self index' pdu found stored prev member with
        ⟨entry, inAbove, -⟩ | finished
      · simp [above_cons_self] at inAbove
      · exact finished
    · exact inv.emitted before index' rest old pdu stored prev member
  case chain =>
    intro other member entry inAbove
    have distinct : (eventId, true) ≠ (other, true) := fun same =>
      unique ((Prod.mk.inj same).1 ▸ member)
    exact inv.chain other (List.mem_cons_of_mem _ member) entry
      (by rw [above_cons_of_ne distinct]; exact List.mem_cons_of_mem _ inAbove)
  case pending =>
    intro other member index' pdu classified stored prev prevMember
    have distinct : (eventId, true) ≠ (other, true) := fun same =>
      unique ((Prod.mk.inj same).1 ▸ member)
    rcases inv.pending other (List.mem_cons_of_mem _ member) index' pdu classified stored prev
      prevMember with ⟨entry, inAbove, named⟩ | finished
    · rw [above_cons_of_ne distinct] at inAbove
      rcases List.mem_cons.mp inAbove with rfl | inAbove
      · -- the prev was the node just emitted
        subst named
        exact .inr ⟨_, found, fun index'' same => by
          rw [← Class.held.inj same]
          exact List.mem_append_right _ (List.mem_singleton_self _)⟩
      · exact .inl ⟨entry, inAbove, named⟩
    · exact .inr (finished.mono fun index'' old => List.mem_append_left _ old)

/-- The `debug_assert!` of the expanded branch, `expanded stack entries are held nodes`: on every
stack the loop reaches, an expanded entry on top names a held node not yet emitted, so popping it
emits that node and never falls back. -/
theorem expanded_emits {eventId : EventId}
    (inv : Discovering services ((eventId, true) :: stack) walk) :
    ∃ index, walk.«class».get eventId = some (.held index) ∧ index ∉ walk.order ∧
      discover services ((eventId, true) :: stack) walk =
        discover services stack { walk with order := walk.order ++ [index] } := by
  obtain ⟨index, found, unemitted⟩ := inv.marked eventId List.mem_cons_self
  refine ⟨index, found, unemitted, ?_⟩
  rw [discover, if_pos rfl, found]

/-- A classified event popped unexpanded is finished: were it held and not emitted, its own
expanded entry would wait below it, and it would descend from itself. -/
theorem top_finished {eventId : EventId} {found : Class}
    (acyclic : services.HeldAcyclic walk.topPrevs)
    (inv : Discovering services ((eventId, false) :: stack) walk)
    (classified : walk.«class».get eventId = some found) :
    Finished walk walk.order eventId := by
  refine ⟨found, classified, fun index held => ?_⟩
  subst held
  by_contra unemitted
  obtain ⟨pdu, stored, named, -⟩ := inv.classOk eventId _ classified
  have marker := inv.waiting index pdu stored unemitted
  rw [named] at marker
  have cycle := inv.chain eventId marker (eventId, false)
    (by rw [above_cons_of_ne (by simp)]; exact List.mem_cons_self)
  exact acyclic eventId (inv.ancestors _ List.mem_cons_self) cycle

theorem markedOnce_tail {eventId : EventId}
    (inv : Discovering services ((eventId, false) :: stack) walk) :
    ((stack.filter (·.2)).map (·.1)).Nodup := by
  simpa using inv.markedOnce

/-- Popping an event already classified changes nothing else. -/
theorem skip {eventId : EventId}
    (acyclic : services.HeldAcyclic walk.topPrevs)
    (inv : Discovering services ((eventId, false) :: stack) walk)
    (classified : (walk.«class».get eventId).isSome) : Discovering services stack walk := by
  obtain ⟨found, classified⟩ := Option.isSome_iff_exists.mp classified
  refine ⟨inv.classOk, inv.named, inv.fresh, inv.nodeAncestors,
    fun entry member => inv.ancestors entry (List.mem_cons_of_mem _ member), ?tops,
    fun other member => inv.marked other (List.mem_cons_of_mem _ member), inv.markedOnce_tail,
    fun index pdu stored unemitted =>
      mem_of_mem_cons_unexpanded (inv.waiting index pdu stored unemitted),
    inv.orderNodup, inv.orderBound, inv.emitted, ?chain, ?pending⟩
  case tops =>
    intro top member
    rcases inv.tops top member with old | pushed
    · exact .inl old
    · rcases List.mem_cons.mp pushed with head | pushed
      · rw [(Prod.mk.inj head).1, classified]
        exact .inl rfl
      · exact .inr pushed
  case chain =>
    intro other member entry inAbove
    exact inv.chain other (List.mem_cons_of_mem _ member) entry
      (by rw [above_cons_unexpanded]; exact List.mem_cons_of_mem _ inAbove)
  case pending =>
    intro other member index pdu held stored prev prevMember
    rcases inv.pending other (List.mem_cons_of_mem _ member) index pdu held stored prev
      prevMember with ⟨entry, inAbove, named⟩ | finished
    · rw [above_cons_unexpanded] at inAbove
      rcases List.mem_cons.mp inAbove with rfl | inAbove
      · subst named
        exact .inr (inv.top_finished acyclic classified)
      · exact .inl ⟨entry, inAbove, named⟩
    · exact .inr finished

/-- Classifying a frontier event (committed or memoized) pops its entry. -/
theorem classify {eventId : EventId} {found : Class}
    (inv : Discovering services ((eventId, false) :: stack) walk)
    (unclassified : walk.«class».get eventId = none)
    (ok : ClassOk services walk.pdus eventId found) (frontier : ∀ index, found ≠ .held index) :
    Discovering services stack { walk with «class» := walk.«class».put eventId found } := by
  have other_ne {other : EventId} {index : Nat} (held : walk.«class».get other = some (.held index)) :
      other ≠ eventId := by
    rintro rfl
    simp [held] at unclassified
  refine ⟨?classOk, ?named, inv.fresh, inv.nodeAncestors,
    fun entry member => inv.ancestors entry (List.mem_cons_of_mem _ member), ?tops, ?marked,
    inv.markedOnce_tail, fun index pdu stored unemitted =>
      mem_of_mem_cons_unexpanded (inv.waiting index pdu stored unemitted),
    inv.orderNodup, inv.orderBound, ?emitted, ?chain, ?pending⟩
  case classOk =>
    intro other found' classified
    by_cases same : other = eventId
    · subst same
      simp only [Table.get_put_self, Option.some.injEq] at classified
      exact classified ▸ ok
    · rw [Table.get_put_of_ne _ _ same] at classified
      exact inv.classOk other found' classified
  case named =>
    intro index pdu stored
    have held := inv.named index pdu stored
    rw [Table.get_put_of_ne _ _ (other_ne held)]
    exact held
  case tops =>
    intro top member
    by_cases same : top = eventId
    · subst same
      simp
    · rw [Table.get_put_of_ne _ _ same]
      rcases inv.tops top member with old | pushed
      · exact .inl old
      · exact .inr ((List.mem_cons.mp pushed).resolve_left (by simp [same]))
  case marked =>
    intro other member
    obtain ⟨index, held, unemitted⟩ := inv.marked other (List.mem_cons_of_mem _ member)
    exact ⟨index, by rw [Table.get_put_of_ne _ _ (other_ne held)]; exact held, unemitted⟩
  case emitted =>
    intro before index after split pdu stored prev member
    exact (inv.emitted before index after split pdu stored prev member).put unclassified
  case chain =>
    intro other member entry inAbove
    exact inv.chain other (List.mem_cons_of_mem _ member) entry
      (by rw [above_cons_unexpanded]; exact List.mem_cons_of_mem _ inAbove)
  case pending =>
    intro other member index pdu held stored prev prevMember
    obtain ⟨_, wasHeld, -⟩ := inv.marked other (List.mem_cons_of_mem _ member)
    change (walk.«class».put eventId found).get other = _ at held
    rw [Table.get_put_of_ne _ _ (other_ne wasHeld)] at held
    rcases inv.pending other (List.mem_cons_of_mem _ member) index pdu held stored prev
      prevMember with ⟨entry, inAbove, named⟩ | finished
    · rw [above_cons_unexpanded] at inAbove
      rcases List.mem_cons.mp inAbove with rfl | inAbove
      · -- the prev is the event just classified, which is no node
        subst named
        exact .inr ⟨found, Table.get_put_self _ _ _, fun index same => absurd same (frontier index)⟩
      · exact .inl ⟨entry, inAbove, named⟩
    · exact .inr (finished.put unclassified)

/-- Expanding a held event makes it the next node, and pushes its prevs above its entry. -/
theorem expand {eventId : EventId} {pdu : Pdu} (named : services.PdusNamed)
    (inv : Discovering services ((eventId, false) :: stack) walk)
    (unclassified : walk.«class».get eventId = none) (held : services.Held eventId pdu) :
    Discovering services (expandStack eventId pdu.prevEvents stack)
      { walk with
        «class» := walk.«class».put eventId (.held walk.nodes.length)
        nodes := walk.nodes ++ [⟨pdu, 0⟩] } := by
  have pdus : ((walk.nodes ++ [(⟨pdu, 0⟩ : Node)]).map fun node : Node => node.pdu) =
      walk.pdus ++ [pdu] := by
    simp [Walk.pdus]
  have length : walk.pdus.length = walk.nodes.length := by simp [Walk.pdus]
  have self : pdu.eventId = eventId := named eventId pdu held.2.2
  have other_ne {other : EventId} {index : Nat}
      (wasHeld : walk.«class».get other = some (.held index)) : other ≠ eventId := by
    rintro rfl
    simp [wasHeld] at unclassified
  -- a node already held keeps its pdu at its index
  have stored_old {other : EventId} {index : Nat} (held : walk.«class».get other = some (.held index))
      {found : Pdu} (stored : (walk.pdus ++ [pdu])[index]? = some found) :
      walk.pdus[index]? = some found := by
    obtain ⟨pdu', stored', -⟩ := inv.classOk other _ held
    rw [List.getElem?_append_left (List.getElem?_eq_some_iff.mp stored').1] at stored
    exact stored
  have ancestor := inv.ancestors _ List.mem_cons_self
  have unemitted : walk.nodes.length ∉ walk.order := fun emitted =>
    Nat.lt_irrefl _ (inv.orderBound _ emitted)
  have tail {other : EventId} (member : (other, true) ∈ (eventId, false) :: stack) :
      (other, true) ∈ expandStack eventId pdu.prevEvents stack :=
    mem_expandStack.mpr (.inr (.inr (mem_of_mem_cons_unexpanded member)))
  refine ⟨?classOk, ?named, ?fresh, ?nodeAncestors, ?ancestors, ?tops, ?marked, ?markedOnce, ?waiting,
    inv.orderNodup, ?orderBound, ?emitted, ?chain, ?pending⟩
  case classOk =>
    intro other found classified
    change (walk.«class».put eventId _).get other = _ at classified
    change ClassOk services ((walk.nodes ++ [(⟨pdu, 0⟩ : Node)]).map fun node : Node => node.pdu) other found
    rw [pdus]
    by_cases same : other = eventId
    · subst same
      simp only [Table.get_put_self, Option.some.injEq] at classified
      subst classified
      exact ⟨pdu, by rw [← length]; exact List.getElem?_concat_length, self, held⟩
    · rw [Table.get_put_of_ne _ _ same] at classified
      exact (inv.classOk other found classified).append [pdu]
  case named =>
    intro index found stored
    change ((walk.nodes ++ [(⟨pdu, 0⟩ : Node)]).map fun node : Node => node.pdu)[index]? = some found at stored
    change (walk.«class».put eventId _).get found.eventId = _
    rw [pdus] at stored
    rcases getElem?_append_singleton stored with old | ⟨rfl, rfl⟩
    · have held := inv.named index found old
      rw [Table.get_put_of_ne _ _ (other_ne held)]
      exact held
    · rw [self, length, Table.get_put_self]
  case fresh =>
    intro node member
    rcases List.mem_append.mp member with old | new
    · exact inv.fresh node old
    · rw [List.mem_singleton.mp new]
  case nodeAncestors =>
    intro found member
    change found ∈ ((walk.nodes ++ [(⟨pdu, 0⟩ : Node)]).map fun node : Node => node.pdu) at member
    rw [pdus] at member
    rcases List.mem_append.mp member with old | new
    · exact inv.nodeAncestors found old
    · rw [List.mem_singleton.mp new, self]
      exact ancestor
  case ancestors =>
    intro entry member
    obtain ⟨top, topMember, path⟩ := ancestor
    rcases mem_expandStack.mp member with ⟨-, prev⟩ | rfl | old
    · exact ⟨top, topMember, path.tail ⟨pdu, held, prev⟩⟩
    · exact ⟨top, topMember, path⟩
    · exact inv.ancestors entry (List.mem_cons_of_mem _ old)
  case tops =>
    intro top member
    change ((walk.«class».put eventId _).get top).isSome ∨ _
    by_cases same : top = eventId
    · subst same
      simp
    · rw [Table.get_put_of_ne _ _ same]
      rcases inv.tops top member with old | pushed
      · exact .inl old
      · exact .inr (mem_expandStack.mpr
          (.inr (.inr ((List.mem_cons.mp pushed).resolve_left (by simp [same])))))
  case marked =>
    intro other member
    change ∃ index, (walk.«class».put eventId _).get other = _ ∧ index ∉ walk.order
    rcases mem_expandStack.mp member with ⟨unexpanded, -⟩ | same | old
    · simp at unexpanded
    · obtain rfl := (Prod.mk.inj same).1
      exact ⟨_, Table.get_put_self _ _ _, unemitted⟩
    · obtain ⟨index, wasHeld, unemitted'⟩ := inv.marked other (List.mem_cons_of_mem _ old)
      exact ⟨index, by rw [Table.get_put_of_ne _ _ (other_ne wasHeld)]; exact wasHeld, unemitted'⟩
  case markedOnce =>
    have fresh : eventId ∉ (stack.filter (·.2)).map (·.1) := by
      simp only [List.mem_map, List.mem_filter]
      rintro ⟨⟨other, flag⟩, ⟨member, marker⟩, rfl⟩
      obtain rfl : flag = true := marker
      obtain ⟨index, wasHeld, -⟩ := inv.marked other (List.mem_cons_of_mem _ member)
      simp [wasHeld] at unclassified
    simpa [expandStack, List.filter_append, List.filter_map, Function.comp_def, fresh]
      using inv.markedOnce_tail
  case waiting =>
    intro index found stored unemitted'
    change ((walk.nodes ++ [(⟨pdu, 0⟩ : Node)]).map fun node : Node => node.pdu)[index]? = some found at stored
    rw [pdus] at stored
    rcases getElem?_append_singleton stored with old | ⟨-, rfl⟩
    · exact tail (inv.waiting index found old unemitted')
    · rw [self]
      exact mem_expandStack.mpr (.inr (.inl rfl))
  case orderBound =>
    intro index member
    have := inv.orderBound index member
    simp only [List.length_append, List.length_singleton]
    omega
  case emitted =>
    intro before index after split found stored prev member
    change ((walk.nodes ++ [(⟨pdu, 0⟩ : Node)]).map fun node : Node => node.pdu)[index]? = some found at stored
    rw [pdus] at stored
    have bound := inv.orderBound index (split ▸ List.mem_append_right _ List.mem_cons_self)
    rw [List.getElem?_append_left (length ▸ bound)] at stored
    exact (inv.emitted before index after split found stored prev member).put unclassified
  case chain =>
    intro other member entry inAbove
    by_cases same : other = eventId
    · subst same
      rw [above_expandStack_self] at inAbove
      obtain ⟨prev, prevMember, rfl⟩ := List.mem_map.mp inAbove
      exact .single ⟨pdu, held, List.mem_reverse.mp prevMember⟩
    · have old : (other, true) ∈ stack := by
        rcases mem_expandStack.mp member with ⟨unexpanded, -⟩ | marker | old
        · simp at unexpanded
        · exact absurd (Prod.mk.inj marker).1 same
        · exact old
      have toEvent := inv.chain other (List.mem_cons_of_mem _ old) (eventId, false)
        (by rw [above_cons_unexpanded]; exact List.mem_cons_self)
      rw [above_expandStack_of_ne same] at inAbove
      rcases List.mem_append.mp inAbove with pushed | inAbove
      · obtain ⟨prev, prevMember, rfl⟩ := List.mem_map.mp pushed
        exact toEvent.tail ⟨pdu, held, List.mem_reverse.mp prevMember⟩
      · rcases List.mem_cons.mp inAbove with rfl | inAbove
        · exact toEvent
        · exact inv.chain other (List.mem_cons_of_mem _ old) entry
            (by rw [above_cons_unexpanded]; exact List.mem_cons_of_mem _ inAbove)
  case pending =>
    intro other member index found classified stored prev prevMember
    change (walk.«class».put eventId _).get other = _ at classified
    change ((walk.nodes ++ [(⟨pdu, 0⟩ : Node)]).map fun node : Node => node.pdu)[index]? = some found at stored
    rw [pdus] at stored
    by_cases same : other = eventId
    · -- the node just expanded: its prevs are all above its entry
      subst same
      simp only [Table.get_put_self, Option.some.injEq, Class.held.injEq] at classified
      subst classified
      rw [← length, List.getElem?_concat_length, Option.some.injEq] at stored
      subst stored
      exact .inl ⟨(prev, false), by
        rw [above_expandStack_self]
        exact List.mem_map.mpr ⟨prev, List.mem_reverse.mpr prevMember, rfl⟩, rfl⟩
    · have old : (other, true) ∈ stack := by
        rcases mem_expandStack.mp member with ⟨unexpanded, -⟩ | marker | old
        · simp at unexpanded
        · exact absurd (Prod.mk.inj marker).1 same
        · exact old
      rw [Table.get_put_of_ne _ _ same] at classified
      rcases inv.pending other (List.mem_cons_of_mem _ old) index found classified
        (stored_old classified stored) prev prevMember with ⟨entry, inAbove, named⟩ | finished
      · rw [above_cons_unexpanded] at inAbove
        rw [above_expandStack_of_ne same]
        rcases List.mem_cons.mp inAbove with rfl | inAbove
        · exact .inl ⟨(eventId, true), List.mem_append_right _ List.mem_cons_self, named⟩
        · exact .inl ⟨entry, List.mem_append_right _ (List.mem_cons_of_mem _ inAbove), named⟩
      · exact .inr (finished.put unclassified)

/-- The stack `walk_discover` starts from: the incoming event's prevs, none classified. -/
theorem initial (createEventId : EventId) (maxNodes : Nat) (topPrevs : List EventId) :
    Discovering services (topPrevs.reverse.map (·, false))
      (Walk.new createEventId maxNodes topPrevs) := by
  -- nothing is classified, no node held and nothing expanded yet
  refine ⟨?classOk, ?named, ?fresh, ?nodeAncestors, ?ancestors, ?tops, ?marked, ?markedOnce,
    ?waiting, List.nodup_nil, ?orderBound, ?emitted, ?chain, ?pending⟩
  case classOk | named | fresh | nodeAncestors | waiting | orderBound | emitted =>
    simp [Walk.new, Walk.pdus]
  case ancestors =>
    intro entry member
    obtain ⟨top, topMember, rfl⟩ := List.mem_map.mp member
    exact ⟨top, List.mem_reverse.mp topMember, .refl⟩
  case tops =>
    intro top member
    exact .inr (List.mem_map.mpr ⟨top, List.mem_reverse.mpr member, rfl⟩)
  case marked | chain | pending =>
    intro eventId member
    simp at member
  case markedOnce =>
    simp [List.filter_map, Function.comp_def]

end Discovering

/-- Discovery writes only the classes, the nodes and the order. -/
theorem discover_frame {stack : List (EventId × Bool)} {walk result : Walk}
    (finished : discover services stack walk = .ok result) :
    ∃ «class» nodes order, result = { walk with «class», nodes, order } := by
  fun_induction discover services stack walk with
  | case1 walk =>
      cases finished
      exact ⟨_, _, _, rfl⟩
  | case2 _ _ _ _ _ ih | case4 _ _ _ _ _ _ ih | case5 _ _ _ _ _ _ _ _ ih
  | case6 _ _ _ _ _ _ _ _ ih | case11 _ _ _ _ _ _ _ _ _ _ _ _ _ ih =>
      obtain ⟨«class», nodes, order, rfl⟩ := ih finished
      exact ⟨«class», nodes, order, rfl⟩
  | case3 | case7 | case8 | case9 | case10 => cases finished

/-- A discovery that stops early has set its fallback. -/
theorem discover_error_fallback {stack : List (EventId × Bool)} {walk result : Walk}
    (stopped : discover services stack walk = .error result) : result.fallback.isSome := by
  fun_induction discover services stack walk with
  | case1 => cases stopped
  | case2 _ _ _ _ _ ih | case4 _ _ _ _ _ _ ih | case5 _ _ _ _ _ _ _ _ ih
  | case6 _ _ _ _ _ _ _ _ ih | case11 _ _ _ _ _ _ _ _ _ _ _ _ _ ih => exact ih stopped
  | case3 | case7 | case8 | case9 | case10 =>
      cases stopped
      rfl

namespace Discovering

variable {stack : List (EventId × Bool)} {walk : Walk}

/-- The run: what holds at every step holds once discovery has emptied its stack. -/
theorem run (named : services.PdusNamed)
    (acyclic : services.HeldAcyclic walk.topPrevs)
    (inv : Discovering services stack walk) {result : Walk}
    (finished : discover services stack walk = .ok result) : Discovering services [] result := by
  fun_induction discover services stack walk with
  | case1 walk =>
      cases finished
      exact inv
  | case2 eventId stack walk index found ih => exact ih acyclic (inv.emit found) finished
  | case4 eventId expanded stack walk unexpanded classified ih =>
      obtain rfl : expanded = false := by simpa using unexpanded
      exact ih acyclic (inv.skip acyclic classified) finished
  | case5 eventId expanded stack walk unexpanded unclassified shortstatehash committed ih =>
      obtain rfl : expanded = false := by simpa using unexpanded
      exact ih acyclic (inv.classify (Option.not_isSome_iff_eq_none.mp unclassified) committed
        fun _ same => by cases same) finished
  | case6 eventId expanded stack walk unexpanded unclassified uncommitted memoized ih =>
      obtain rfl : expanded = false := by simpa using unexpanded
      exact ih acyclic (inv.classify (Option.not_isSome_iff_eq_none.mp unclassified)
        ⟨uncommitted, memoized⟩ fun _ same => by cases same) finished
  | case11 eventId expanded stack walk unexpanded unclassified uncommitted unmemoized pdu found
      _ _ _ ih =>
      obtain rfl : expanded = false := by simpa using unexpanded
      exact ih acyclic (inv.expand named (Option.not_isSome_iff_eq_none.mp unclassified)
        ⟨uncommitted, by simpa using unmemoized, found⟩) finished
  | case3 | case7 | case8 | case9 | case10 => cases finished

end Discovering

/-! ## What discovery leaves behind -/

variable (services)

/-- What the walk holds once discovery has emptied its stack; the build reads nothing else of
discovery. -/
structure Discovered (walk : Walk) : Prop where
  classOk : ∀ eventId found, walk.«class».get eventId = some found →
    ClassOk services walk.pdus eventId found
  named : ∀ index pdu, walk.pdus[index]? = some pdu →
    walk.«class».get pdu.eventId = some (.held index)
  nodeAncestors : ∀ pdu ∈ walk.pdus, services.Ancestor walk.topPrevs pdu.eventId
  tops : ∀ top ∈ walk.topPrevs, (walk.«class».get top).isSome
  orderNodup : walk.order.Nodup
  complete : ∀ index, index ∈ walk.order ↔ index < walk.nodes.length
  emitted : ∀ before index after, walk.order = before ++ index :: after →
    ∀ pdu, walk.pdus[index]? = some pdu → ∀ prev ∈ pdu.prevEvents, Finished walk before prev

variable {services}

theorem Discovering.finish {walk : Walk} (inv : Discovering services [] walk) :
    Discovered services walk := by
  refine ⟨inv.classOk, inv.named, inv.nodeAncestors, ?tops, inv.orderNodup, ?complete,
    inv.emitted⟩
  case tops =>
    intro top member
    exact (inv.tops top member).resolve_right List.not_mem_nil
  case complete =>
    intro index
    refine ⟨inv.orderBound index, fun bound => ?_⟩
    -- a node not emitted would still wait in the stack
    by_contra unemitted
    have stored : walk.pdus[index]? = some walk.nodes[index].pdu := by
      simp [Walk.pdus, bound]
    exact List.not_mem_nil (inv.waiting index _ stored unemitted)

/-- The held indices among the prevs of node `index`: the nodes it depends on. -/
def Walk.heldPrevs (walk : Walk) (index : Nat) : List Nat :=
  ((walk.pdus[index]?.map (·.prevEvents)).getD []).filterMap fun prev =>
    match walk.«class».get prev with
    | some (.held index) => some index
    | _ => none

theorem mem_heldPrevs {walk : Walk} {index dep : Nat} :
    dep ∈ walk.heldPrevs index ↔ ∃ pdu, walk.pdus[index]? = some pdu ∧
      ∃ prev ∈ pdu.prevEvents, walk.«class».get prev = some (.held dep) := by
  unfold Walk.heldPrevs
  cases walk.pdus[index]? with
  | none => simp
  | some pdu =>
      simp only [Option.map_some, Option.getD_some, List.mem_filterMap, Option.some.injEq,
        exists_eq_left']
      refine exists_congr fun prev => and_congr_right fun _ => ?_
      split <;> simp_all

/-- A held event's class can only be a node: it has no state hash and no memo row. -/
theorem ClassOk.held_of_held {pdus : List Pdu} {eventId : EventId} {found : Class} {pdu : Pdu}
    (ok : ClassOk services pdus eventId found) (held : services.Held eventId pdu) :
    ∃ index, found = .held index := by
  cases found with
  | committed shortstatehash =>
      have : services.pduShortstatehash eventId = some shortstatehash := ok
      simp [held.1] at this
  | memoized => simp [ok.2, LocalServices.Held] at held
  | held index => exact ⟨index, rfl⟩

namespace Discovered

variable {walk : Walk}

/-- A classified event is finished: every node is emitted. -/
theorem finished (done : Discovered services walk) {eventId : EventId} {found : Class}
    (classified : walk.«class».get eventId = some found) : Finished walk walk.order eventId := by
  refine ⟨found, classified, fun index held => (done.complete index).mpr ?_⟩
  subst held
  obtain ⟨pdu, stored, -⟩ := done.classOk eventId _ classified
  simpa [Walk.pdus] using (List.getElem?_eq_some_iff.mp stored).1

/-- Every prev of a node is classified. -/
theorem prev_classified (done : Discovered services walk) {index : Nat} {pdu : Pdu}
    (stored : walk.pdus[index]? = some pdu) {prev : EventId} (member : prev ∈ pdu.prevEvents) :
    (walk.«class».get prev).isSome := by
  have bound : index < walk.nodes.length := by
    simpa [Walk.pdus] using (List.getElem?_eq_some_iff.mp stored).1
  obtain ⟨before, after, split⟩ := List.append_of_mem ((done.complete index).mpr bound)
  obtain ⟨found, classified, -⟩ := done.emitted before index after split pdu stored prev member
  rw [classified]
  rfl

/-- A classified held event is a node, with the pdu the services hold for it. -/
theorem node_of_held (done : Discovered services walk) {eventId : EventId} {pdu : Pdu}
    (classified : (walk.«class».get eventId).isSome) (held : services.Held eventId pdu) :
    ∃ index, walk.«class».get eventId = some (.held index) ∧ walk.pdus[index]? = some pdu := by
  obtain ⟨found, classified⟩ := Option.isSome_iff_exists.mp classified
  obtain ⟨index, rfl⟩ := (done.classOk _ _ classified).held_of_held held
  obtain ⟨stored, stored', -, heldStored⟩ := done.classOk _ _ classified
  have same : stored = pdu := Option.some.inj (heldStored.2.2.symm.trans held.2.2)
  exact ⟨index, classified, same ▸ stored'⟩

/-- Every ancestor of the incoming event is classified, by induction along the path to it. -/
theorem classified_of_ancestor (done : Discovered services walk) {eventId : EventId}
    (ancestor : services.Ancestor walk.topPrevs eventId) : (walk.«class».get eventId).isSome := by
  obtain ⟨top, topMember, path⟩ := ancestor
  induction path with
  | refl => exact done.tops top topMember
  | tail _ edge classified =>
      obtain ⟨pdu, held, member⟩ := edge
      obtain ⟨index, -, stored⟩ := done.node_of_held classified held
      exact done.prev_classified stored member

/-- Every held ancestor of the incoming event is a node. -/
theorem node_of_ancestor (done : Discovered services walk) {eventId : EventId} {pdu : Pdu}
    (ancestor : services.Ancestor walk.topPrevs eventId) (held : services.Held eventId pdu) :
    ∃ index : Nat, walk.pdus[index]? = some pdu :=
  (done.node_of_held (done.classified_of_ancestor ancestor) held).imp fun _ found => found.2

/-- The order places each node after the nodes among its prevs. -/
theorem sorted (done : Discovered services walk) :
    TopologicalOrder.SortedFrom (List.range walk.nodes.length) walk.heldPrevs [] walk.order := by
  refine TopologicalOrder.SortedFrom.of_split fun front index back split dep member _ => ?_
  obtain ⟨pdu, stored, prev, prevMember, classified⟩ := mem_heldPrevs.mp member
  obtain ⟨found, classified', placed⟩ := done.emitted front index back split pdu stored prev prevMember
  rw [classified] at classified'
  simpa using placed dep (Option.some.inj classified').symm

end Discovered

end EventHandler
end Tuwunel
