import Mathlib.Algebra.Order.BigOperators.Group.List
import Mathlib.Algebra.Order.Group.Defs
import Mathlib.Data.List.Induction
import Mathlib.Order.Bounds.Basic

/-!
# A counter that is floored at zero

Signed changes are added one after the other, and the counter never falls below
zero. The floor makes the changes non-commutative; what survives of the order
is the largest total over the suffixes of the sequence.
-/

namespace FloorCounter

variable {α : Type*} [AddCommGroup α] [LinearOrder α] [IsOrderedAddMonoid α]

def bump (level change : α) : α :=
  max (level + change) 0

/-- The level reached from zero. -/
def level (changes : List α) : α :=
  changes.foldl bump 0

/-- The totals of the suffixes, the empty one included. -/
def suffixSums (changes : List α) : Set α :=
  { total | ∃ tail, tail <:+ changes ∧ tail.sum = total }

omit [IsOrderedAddMonoid α] in
@[simp]
theorem level_nil : level ([] : List α) = 0 := rfl

omit [IsOrderedAddMonoid α] in
@[simp]
theorem level_append_singleton (before : List α) (change : α) :
    level (before ++ [change]) = bump (level before) change := by
  simp [level]

omit [IsOrderedAddMonoid α] in
theorem level_nonneg (changes : List α) : 0 ≤ level changes := by
  cases changes using List.reverseRecOn with
  | nil => exact le_refl 0
  | append_singleton before change =>
      rw [level_append_singleton]
      exact le_max_right _ _

/-- The level is the largest total of a suffix. -/
theorem isGreatest_level (changes : List α) : IsGreatest (suffixSums changes) (level changes) := by
  induction changes using List.reverseRecOn with
  | nil =>
      refine ⟨⟨[], List.suffix_refl [], rfl⟩, ?_⟩
      rintro total ⟨tail, isSuffix, rfl⟩
      rw [List.suffix_nil.mp isSuffix]
      exact le_refl 0
  | append_singleton before change ih =>
      rcases ih with ⟨⟨best, isSuffix, bestSum⟩, upper⟩
      rw [level_append_singleton, bump]
      constructor
      · -- either the best earlier suffix is extended or everything is forgotten
        rcases max_choice (level before + change) 0 with extended | forgotten
        · refine ⟨best ++ [change], (List.suffix_append_self_iff).mpr isSuffix, ?_⟩
          rw [extended, List.sum_append, List.sum_singleton, bestSum]
        · exact ⟨[], List.nil_suffix, forgotten.symm⟩
      · rintro total ⟨tail, tailSuffix, rfl⟩
        rcases List.suffix_concat_iff.mp tailSuffix with rfl | ⟨shorter, rfl, shorterSuffix⟩
        · exact le_max_right _ _
        · rw [List.sum_append, List.sum_singleton]
          exact le_max_of_le_left (add_le_add_left (upper ⟨shorter, shorterSuffix, rfl⟩) change)

theorem sum_le_level (changes : List α) : changes.sum ≤ level changes :=
  (isGreatest_level changes).2 ⟨changes, List.suffix_refl changes, rfl⟩

/-- Without the negative changes the level could only be higher. -/
theorem level_le_sum_positive (changes : List α) :
    level changes ≤ (changes.map fun change => max change 0).sum := by
  induction changes using List.reverseRecOn with
  | nil => exact le_refl 0
  | append_singleton before change ih =>
      rw [level_append_singleton, bump, List.map_append, List.sum_append, List.map_singleton,
        List.sum_singleton]
      apply max_le (add_le_add ih (le_max_left _ _))
      exact add_nonneg ((level_nonneg before).trans ih) (le_max_right _ _)

end FloorCounter
