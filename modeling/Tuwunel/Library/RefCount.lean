import Mathlib

/-!
# Reference counts

Owners, kept in a list, each hold some references to cells; `held refs owners cell` is what they
hold of one cell together, and a counter kept beside the cell is right when it equals that sum.
One owner changing what it holds moves the sum by the difference (`held_set`), a new owner adds
its own share (`held_append_singleton`), the sum bounds the shares of any two owners
(`le_held`, `add_le_held`), a cell no owner holds has a zero sum (`held_eq_zero`), and a cell
with a positive sum has an owner holding some of it (`exists_of_held_pos`).
-/

namespace RefCount

variable {ω γ : Type*} (refs : ω → γ → Nat)

/-- What the owners hold of `cell` together. -/
def held (owners : List ω) (cell : γ) : Nat := (owners.map fun owner => refs owner cell).sum

@[simp]
theorem held_nil (cell : γ) : held refs [] cell = 0 := rfl

@[simp]
theorem held_cons (owner : ω) (owners : List ω) (cell : γ) :
    held refs (owner :: owners) cell = refs owner cell + held refs owners cell := by
  simp [held]

theorem held_append_singleton (owners : List ω) (owner : ω) (cell : γ) :
    held refs (owners ++ [owner]) cell = held refs owners cell + refs owner cell := by
  simp [held]

/-- Replacing one owner moves the sum by the difference of the two owners' shares. -/
theorem held_set : ∀ {owners : List ω} {index : Nat} {owner : ω}, owners[index]? = some owner →
    ∀ (owner' : ω) (cell : γ),
      held refs (owners.set index owner') cell + refs owner cell =
        held refs owners cell + refs owner' cell
  | [], _, _, found, _, _ => by simp at found
  | first :: owners, 0, owner, found, owner', cell => by
      simp only [List.getElem?_cons_zero, Option.some.injEq] at found
      subst found
      simp only [List.set_cons_zero, held_cons]
      omega
  | first :: owners, index + 1, owner, found, owner', cell => by
      simp only [List.getElem?_cons_succ] at found
      have rest := held_set found owner' cell
      simp only [List.set_cons_succ, held_cons]
      omega

theorem le_held {owners : List ω} {owner : ω} (member : owner ∈ owners) (cell : γ) :
    refs owner cell ≤ held refs owners cell := by
  induction owners with
  | nil => simp at member
  | cons first owners ih =>
      rw [held_cons]
      rcases List.mem_cons.mp member with rfl | later
      · omega
      · have within := ih later
        omega

/-- Two owners at different places hold both their shares within the sum. -/
theorem add_le_held : ∀ {owners : List ω} {index index' : Nat} {owner owner' : ω},
    index ≠ index' → owners[index]? = some owner → owners[index']? = some owner' →
      ∀ cell : γ, refs owner cell + refs owner' cell ≤ held refs owners cell
  | [], _, _, _, _, _, found, _, _ => by simp at found
  | _ :: _, 0, 0, _, _, distinct, _, _, _ => absurd rfl distinct
  | _ :: owners, 0, _ + 1, _, _, _, found, found', cell => by
      simp only [List.getElem?_cons_zero, Option.some.injEq, List.getElem?_cons_succ] at found found'
      subst found
      have later := le_held refs (List.mem_of_getElem? found') cell
      rw [held_cons]
      omega
  | _ :: owners, _ + 1, 0, _, _, _, found, found', cell => by
      simp only [List.getElem?_cons_zero, Option.some.injEq, List.getElem?_cons_succ] at found found'
      subst found'
      have later := le_held refs (List.mem_of_getElem? found) cell
      rw [held_cons]
      omega
  | _ :: owners, index + 1, index' + 1, _, _, distinct, found, found', cell => by
      simp only [List.getElem?_cons_succ] at found found'
      have rest := add_le_held (fun same => distinct (congrArg (· + 1) same)) found found' cell
      rw [held_cons]
      omega

theorem held_eq_zero {owners : List ω} {cell : γ} (none : ∀ owner ∈ owners, refs owner cell = 0) :
    held refs owners cell = 0 := by
  induction owners with
  | nil => rfl
  | cons first owners ih =>
      rw [held_cons, none first List.mem_cons_self,
        ih fun owner member => none owner (List.mem_cons_of_mem _ member)]

theorem exists_of_held_pos {owners : List ω} {cell : γ} (positive : 0 < held refs owners cell) :
    ∃ owner ∈ owners, 0 < refs owner cell := by
  induction owners with
  | nil => simp at positive
  | cons first owners ih =>
      rw [held_cons] at positive
      by_cases mine : 0 < refs first cell
      · exact ⟨first, List.mem_cons_self, mine⟩
      · obtain ⟨owner, member, share⟩ := ih (by omega)
        exact ⟨owner, List.mem_cons_of_mem _ member, share⟩

end RefCount
