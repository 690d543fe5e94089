import Mathlib.Data.List.Pairwise
import Mathlib.Data.List.Sort

/-!
# Ordered queries over keyed tables

A table is a list of rows whose keys are pairwise distinct; nothing else about
the list is meant. The results of a query, a filter followed by a sort, depend
only on the set of rows that pass the filter.
-/

namespace Query

universe u v

variable {Row : Type u} {Key : Type v}

def Keyed (key : Row → Key) (table : List Row) : Prop :=
  table.Pairwise fun first second => key first ≠ key second

instance [DecidableEq Key] (key : Row → Key) (table : List Row) : Decidable (Keyed key table) :=
  inferInstanceAs (Decidable (table.Pairwise fun first second => key first ≠ key second))

namespace Keyed

variable {key : Row → Key} {table : List Row}

theorem nodup (keyed : Keyed key table) : table.Nodup :=
  keyed.imp fun different equal => different (congrArg key equal)

theorem eq_of_key_eq (keyed : Keyed key table) {first second : Row} (firstMem : first ∈ table)
    (secondMem : second ∈ table) (sameKey : key first = key second) : first = second := by
  have symmetric : Std.Symm fun row other : Row => key row ≠ key other :=
    ⟨fun _ _ distinct => distinct.symm⟩
  by_contra different
  exact List.Pairwise.forall keyed firstMem secondMem different sameKey

theorem concat (keyed : Keyed key table) {row : Row}
    (fresh : ∀ other ∈ table, key other ≠ key row) : Keyed key (table ++ [row]) := by
  refine List.pairwise_append.mpr ⟨keyed, List.pairwise_singleton _ _, ?_⟩
  intro other mem last isLast
  rw [List.mem_singleton.mp isLast]
  exact fresh other mem

theorem filter (keyed : Keyed key table) (test : Row → Bool) : Keyed key (table.filter test) :=
  List.Pairwise.filter test keyed

/-- An update that keeps every key. -/
theorem map (keyed : Keyed key table) {change : Row → Row}
    (keeps : ∀ row, key (change row) = key row) : Keyed key (table.map change) := by
  refine List.pairwise_map.mpr (keyed.imp fun {first second} distinct => ?_)
  rw [keeps, keeps]
  exact distinct

end Keyed

section SameRows

variable {key : Row → Key} {first second : List Row} {test : Row → Bool}

theorem filter_perm (firstKeyed : Keyed key first) (secondKeyed : Keyed key second)
    (same : ∀ row, test row = true → (row ∈ first ↔ row ∈ second)) :
    (first.filter test).Perm (second.filter test) := by
  refine (List.perm_ext_iff_of_nodup (firstKeyed.filter test).nodup
    (secondKeyed.filter test).nodup).mpr fun row => ?_
  simp only [List.mem_filter]
  exact and_congr_left (same row)

/-- A sort by an order that separates the rows that pass. -/
theorem sort_eq {order : Row → Row → Prop} [DecidableRel order] [Std.Total order]
    [IsTrans Row order] (firstKeyed : Keyed key first) (secondKeyed : Keyed key second)
    (same : ∀ row, test row = true → (row ∈ first ↔ row ∈ second))
    (separates : ∀ row ∈ first, ∀ other ∈ first, test row = true → test other = true →
      order row other → order other row → row = other) :
    (first.filter test).insertionSort order = (second.filter test).insertionSort order := by
  have permuted := filter_perm firstKeyed secondKeyed same
  apply List.Perm.eq_of_pairwise _ (List.pairwise_insertionSort order _)
    (List.pairwise_insertionSort order _)
    ((List.perm_insertionSort order _).trans (permuted.trans
      (List.perm_insertionSort order _).symm))
  intro row other rowMem otherMem
  have rowPasses := List.mem_filter.mp ((List.mem_insertionSort order).mp rowMem)
  have otherPasses := List.mem_filter.mp ((List.mem_insertionSort order).mp otherMem)
  exact separates row rowPasses.1 other
    ((same other otherPasses.2).mpr otherPasses.1) rowPasses.2 otherPasses.2

/-- A lookup by a test that at most one row passes. -/
theorem find?_eq (same : ∀ row, test row = true → (row ∈ first ↔ row ∈ second))
    (unique : ∀ row ∈ first, ∀ other ∈ first, test row = true → test other = true →
      row = other) : first.find? test = second.find? test := by
  cases found : first.find? test with
  | none =>
      refine (List.find?_eq_none.mpr fun row mem passes => ?_).symm
      exact List.find?_eq_none.mp found row ((same row passes).mpr mem) passes
  | some row =>
      have passes := List.find?_some found
      have mem := List.mem_of_find?_eq_some found
      cases other : second.find? test with
      | none => exact absurd passes (List.find?_eq_none.mp other row ((same row passes).mp mem))
      | some other' =>
          have otherPasses := List.find?_some other
          have otherMem := (same other' otherPasses).mpr (List.mem_of_find?_eq_some other)
          rw [unique row mem other' otherMem passes otherPasses]

end SameRows

section First

variable {order : Row → Row → Prop} [DecidableRel order] [Std.Total order] [IsTrans Row order]
  {table : List Row} {test : Row → Bool}

/-- The first row of an ordered query is a least one among those that pass. -/
theorem head?_sort_least {row : Row}
    (first : ((table.filter test).insertionSort order).head? = some row) :
    row ∈ table ∧ test row = true ∧ ∀ other ∈ table, test other = true → order row other := by
  have rowMem := (List.mem_insertionSort order).mp (List.mem_of_mem_head? first)
  rcases List.mem_filter.mp rowMem with ⟨inTable, passes⟩
  refine ⟨inTable, passes, ?_⟩
  intro other otherMem otherPasses
  have inSorted := (List.mem_insertionSort order).mpr (List.mem_filter.mpr ⟨otherMem, otherPasses⟩)
  have sorted := List.pairwise_insertionSort order (table.filter test)
  rcases List.head?_eq_some_iff.mp first with ⟨rest, isCons⟩
  rw [isCons] at inSorted sorted
  rcases List.mem_cons.mp inSorted with rfl | inRest
  · exact (Std.Total.total other other).elim id id
  · exact List.rel_of_pairwise_cons sorted inRest

omit [Std.Total order] [IsTrans Row order] in
theorem head?_sort_eq_none (none_first : ((table.filter test).insertionSort order).head? = none) :
    ∀ row ∈ table, test row = false := by
  intro row mem
  have isNil := List.head?_eq_none_iff.mp none_first
  by_contra passes
  have inSorted := (List.mem_insertionSort order).mpr
    (List.mem_filter.mpr ⟨mem, Bool.of_not_eq_false passes⟩)
  rw [isNil] at inSorted
  simp at inSorted

end First

section Lookup

variable [DecidableEq Key] {key : Row → Key} {table : List Row} {old row : Row}

theorem find?_of_mem (keyed : Keyed key table) (mem : row ∈ table) :
    table.find? (fun other => key other = key row) = some row := by
  cases found : table.find? fun other => key other = key row with
  | none =>
      have absent := List.find?_eq_none.mp found row mem
      simp at absent
  | some other =>
      have sameKey : key other = key row := by simpa using List.find?_some found
      rw [keyed.eq_of_key_eq (List.mem_of_find?_eq_some found) mem sameKey]

theorem find?_concat (fresh : ∀ other ∈ table, key other ≠ key row) (wanted : Key) :
    (table ++ [row]).find? (fun other => key other = wanted) =
      if key row = wanted then some row else table.find? fun other => key other = wanted := by
  split
  · rename_i isWanted
    have absent : table.find? (fun other => key other = wanted) = none := by
      apply List.find?_eq_none.mpr
      intro other mem
      simpa [← isWanted] using fresh other mem
    simp [List.find?_append, absent, isWanted]
  · rename_i notWanted
    simp [List.find?_append, notWanted]

variable [DecidableEq Row]

/-- Another row under the key of an old one. -/
theorem find?_replace (keyed : Keyed key table) (mem : old ∈ table) (sameKey : key row = key old)
    (wanted : Key) :
    (table.map fun other => if other = old then row else other).find?
        (fun other => key other = wanted) =
      if key row = wanted then some row else table.find? fun other => key other = wanted := by
  have samePredicate : (fun other : Row => decide (key other = wanted)) ∘
      (fun other => if other = old then row else other) =
      fun other => decide (key other = wanted) := by
    funext other
    by_cases isOld : other = old
    · simp [isOld, sameKey]
    · simp [isOld]
  rw [List.find?_map, samePredicate]
  split
  · rename_i isWanted
    have found := find?_of_mem keyed mem
    rw [← sameKey, isWanted] at found
    simp [found]
  · rename_i notWanted
    cases found : table.find? fun other => key other = wanted with
    | none => rfl
    | some other =>
        have isKey : key other = wanted := by simpa using List.find?_some found
        have notOld : other ≠ old := by
          rintro rfl
          exact notWanted (sameKey.trans isKey)
        simp [notOld]

theorem find?_remove (keyed : Keyed key table) (mem : old ∈ table) (wanted : Key) :
    (table.filter fun other => other ≠ old).find? (fun other => key other = wanted) =
      if key old = wanted then none else table.find? fun other => key other = wanted := by
  split
  · rename_i isWanted
    apply List.find?_eq_none.mpr
    intro other stays
    rw [List.mem_filter] at stays
    simp only [decide_eq_true_eq] at stays ⊢
    exact fun isKey => stays.2 (keyed.eq_of_key_eq stays.1 mem (isKey.trans isWanted.symm))
  · rename_i notWanted
    rw [List.find?_filter]
    refine congrArg (fun test => table.find? test) (funext fun other => ?_)
    by_cases isOld : other = old
    · simp [isOld, notWanted]
    · simp [isOld]

end Lookup

end Query
