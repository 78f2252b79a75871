import Mathlib

/-!
# Intersection of sorted iterators

`intersection_sorted` keeps the elements of the first input that every other input holds.  For
each candidate it advances every other input past the smaller elements with
`it.by_ref().skip_while(..)` and looks at the next one through a fresh `peekable()`.  To show that
element, `skip_while` takes it from the input, and the adaptor is dropped with it: the input
resumes after the looked-at element, whether it matched the candidate or not (`probe`).  The
iterators are modelled by the lists they have left to yield.

What the filter yields is a sublist of the first input, and each yielded element is held by every
other input (`intersection_sorted_sound`).  An element of
another input that is looked at for a smaller candidate is lost, so a later candidate equal to it
is dropped (`intersection_sorted_drops_common`).
-/

namespace Tuwunel
namespace Utils

variable {α : Type*} [LinearOrder α]

/-- One other input's test for a candidate: skip the elements below it and take the next one,
which is a hit when it is the candidate.  The input resumes after the taken element. -/
def probe (input : List α) (targ : α) : Bool × List α :=
  match input.dropWhile (· < targ) with
  | [] => (false, [])
  | head :: rest => (head == targ, rest)

/-- `input.iter_mut().all(..)`: the inputs are probed in order, and `all` stops at the first
miss, leaving the inputs after it untouched. -/
def probeAll (targ : α) : List (List α) → Bool × List (List α)
  | [] => (true, [])
  | input :: rest =>
      let probed := probe input targ
      if probed.1 then
        let others := probeAll targ rest
        (others.1, probed.2 :: others.2)
      else (false, probed.2 :: rest)

/-- `first.filter(..)` over the other inputs, run to its end. -/
def filterFirst : List α → List (List α) → List α
  | [], _ => []
  | targ :: more, inputs =>
      let probed := probeAll targ inputs
      if probed.1 then targ :: filterFirst more probed.2 else filterFirst more probed.2

theorem probeAll_cons (targ : α) (input : List α) (rest : List (List α)) :
    probeAll targ (input :: rest) =
      if (probe input targ).1 then
        ((probeAll targ rest).1, (probe input targ).2 :: (probeAll targ rest).2)
      else (false, (probe input targ).2 :: rest) := rfl

theorem filterFirst_cons (targ : α) (more : List α) (inputs : List (List α)) :
    filterFirst (targ :: more) inputs =
      if (probeAll targ inputs).1 then targ :: filterFirst more (probeAll targ inputs).2
      else filterFirst more (probeAll targ inputs).2 := rfl

/-- `intersection_sorted`: the first input filtered by the others; nothing for no input. -/
def intersectionSorted : List (List α) → List α
  | [] => []
  | first :: rest => filterFirst first rest

/-- What the documentation promises: the elements of the first input that every other input
holds. -/
def intersectionSpec : List (List α) → List α
  | [] => []
  | first :: rest => first.filter fun targ => rest.all fun input => targ ∈ input

/-! ## What the filter yields -/

theorem probe_sublist (input : List α) (targ : α) : (probe input targ).2.Sublist input := by
  unfold probe
  split
  · exact List.nil_sublist input
  · rename_i head rest skipped
    have suffix : (head :: rest).Sublist input := skipped ▸ List.dropWhile_sublist _
    exact (List.sublist_cons_self head rest).trans suffix

theorem mem_of_probe {input : List α} {targ : α} (hit : (probe input targ).1 = true) :
    targ ∈ input := by
  unfold probe at hit
  split at hit
  · cases hit
  · rename_i head rest skipped
    have same : head = targ := by simpa using hit
    have held : head ∈ input.dropWhile (· < targ) := by simp [skipped]
    exact same ▸ (List.dropWhile_sublist _).subset held

/-- Every input has a sublist among the inputs `probeAll` leaves. -/
theorem probeAll_shrinks (targ : α) (inputs : List (List α)) :
    ∀ input ∈ inputs, ∃ left ∈ (probeAll targ inputs).2, left.Sublist input := by
  induction inputs with
  | nil => simp
  | cons input rest ih =>
      intro other listed
      rw [probeAll_cons]
      by_cases hit : (probe input targ).1 = true
      · simp only [hit, if_true]
        rcases List.mem_cons.mp listed with rfl | later
        · exact ⟨_, List.mem_cons_self, probe_sublist other targ⟩
        · obtain ⟨left, kept, shrunk⟩ := ih other later
          exact ⟨left, List.mem_cons_of_mem _ kept, shrunk⟩
      · simp only [hit, Bool.false_eq_true, if_false]
        rcases List.mem_cons.mp listed with rfl | later
        · exact ⟨_, List.mem_cons_self, probe_sublist other targ⟩
        · exact ⟨other, List.mem_cons_of_mem _ later, .refl other⟩

theorem mem_of_probeAll {targ : α} {inputs : List (List α)}
    (all : (probeAll targ inputs).1 = true) : ∀ input ∈ inputs, targ ∈ input := by
  induction inputs with
  | nil => simp
  | cons input rest ih =>
      rw [probeAll_cons] at all
      by_cases hit : (probe input targ).1 = true
      · simp only [hit, if_true] at all
        intro other listed
        rcases List.mem_cons.mp listed with rfl | later
        · exact mem_of_probe hit
        · exact ih all other later
      · simp [hit] at all

theorem filterFirst_sublist (first : List α) (inputs : List (List α)) :
    (filterFirst first inputs).Sublist first := by
  induction first generalizing inputs with
  | nil => exact List.nil_sublist []
  | cons targ more ih =>
      rw [filterFirst_cons]
      split
      · exact (ih _).cons_cons targ
      · exact (ih _).cons targ

/-- Every yielded element is held by every input the filter started from: each of them keeps a
sublist among the inputs left, and a yield is a hit in each of those. -/
theorem mem_of_mem_filterFirst {first : List α} {inputs originals : List (List α)} {targ : α}
    (covers : ∀ original ∈ originals, ∃ input ∈ inputs, input.Sublist original)
    (yielded : targ ∈ filterFirst first inputs) :
    ∀ original ∈ originals, targ ∈ original := by
  induction first generalizing inputs with
  | nil => simp [filterFirst] at yielded
  | cons head more ih =>
      have covers' : ∀ original ∈ originals,
          ∃ left ∈ (probeAll head inputs).2, left.Sublist original := by
        intro original listed
        obtain ⟨input, current, shrunk⟩ := covers original listed
        obtain ⟨left, kept, shrunk'⟩ := probeAll_shrinks head inputs input current
        exact ⟨left, kept, shrunk'.trans shrunk⟩
      rw [filterFirst_cons] at yielded
      split at yielded
      · rename_i all
        rcases List.mem_cons.mp yielded with rfl | later
        · intro original listed
          obtain ⟨input, current, shrunk⟩ := covers original listed
          exact shrunk.subset (mem_of_probeAll all input current)
        · exact ih covers' later
      · exact ih covers' yielded

/-- What `intersection_sorted` does guarantee, whatever the inputs: it yields elements of the first
input in their order, each held by every other input; a single input is yielded unchanged. -/
theorem intersection_sorted_sound (first : List α) (rest : List (List α)) :
    (intersectionSorted (first :: rest)).Sublist first ∧
      (∀ targ ∈ intersectionSorted (first :: rest), ∀ input ∈ rest, targ ∈ input) ∧
      intersectionSorted [first] = first := by
  refine ⟨filterFirst_sublist first rest, fun targ yielded =>
    mem_of_mem_filterFirst (fun input listed => ⟨input, listed, .refl input⟩) yielded, ?_⟩
  induction first with
  | nil => rfl
  | cons targ more ih => simpa [intersectionSorted, filterFirst_cons, probeAll] using ih

/-! ## A common element the filter drops -/

/-- Probing `[b]` for a smaller candidate `a` takes `b` from it, so the candidate `b` that follows
finds the input empty: the two inputs share `b`, but nothing is yielded. -/
theorem intersection_sorted_drops_common {a b : α} (below : a < b) :
    intersectionSorted [[a, b], [b]] = [] ∧ intersectionSpec [[a, b], [b]] = [b] := by
  have skipped : [b].dropWhile (· < a) = [b] := by
    simp [not_lt_of_gt below]
  have missed : probe [b] a = (false, []) := by
    simp [probe, skipped, (ne_of_gt below)]
  have drained : probe ([] : List α) b = (false, []) := rfl
  constructor
  · simp [intersectionSorted, filterFirst, probeAll_cons, missed, drained]
  · simp [intersectionSpec, ne_of_lt below]

/-- The inputs of the source's `set_intersection_sorted_some` test, with the first input's `"bbb"`
left out of the second. -/
theorem intersection_sorted_drops_common_bar :
    intersectionSorted [["bar", "foo"], ["foo"]] = [] ∧
      intersectionSpec [["bar", "foo"], ["foo"]] = ["foo"] :=
  intersection_sorted_drops_common (by decide)

end Utils
end Tuwunel
