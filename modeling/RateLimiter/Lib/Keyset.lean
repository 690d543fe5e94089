import RateLimiter.Lib.Query

/-!
# Keyset pagination

A page holds the first rows behind a cursor, and the cursor of the next page
is the key of its last row. A walk asks for page after page until one has no
successor; every page is read from the table as it is then. Keys are compared
by any decidable total order.
-/

namespace Keyset

open Query

universe u v

variable {Row : Type u} {Key : Type v}

/-- Strictly before, in the order of the listing. -/
def Before (le : Key → Key → Prop) (first second : Key) : Prop :=
  le first second ∧ first ≠ second

instance (le : Key → Key → Prop) [DecidableRel le] [DecidableEq Key] :
    DecidableRel (Before le) :=
  fun _ _ => inferInstanceAs (Decidable (_ ∧ _))

section Walks

variable (key : Row → Key) (le : Key → Key → Prop) [DecidableRel le] [DecidableEq Key]

/-- The rows behind a cursor, in order. -/
def remaining (table : List Row) (cursor : Key) : List Row :=
  (table.filter fun row => Before le cursor (key row)).insertionSort
    fun first second => le (key first) (key second)

/-- From a cursor, through the tables as the pages find them, to a page without a successor. -/
inductive Walk (size : ℕ) : Key → List (List Row) → List Row → Prop where
  | last {cursor : Key} {table : List Row} (fits : (remaining key le table cursor).length ≤ size) :
      Walk size cursor [table] (remaining key le table cursor)
  | next {cursor : Key} {table : List Row} {last : Row} {tables : List (List Row)}
      {rest : List Row} (more : size < (remaining key le table cursor).length)
      (isLast : ((remaining key le table cursor).take size).getLast? = some last)
      (walk : Walk size (key last) tables rest) :
      Walk size cursor (table :: tables) ((remaining key le table cursor).take size ++ rest)

end Walks

section Remaining

variable {key : Row → Key} {le : Key → Key → Prop} [DecidableRel le] [DecidableEq Key]
  {table : List Row} {cursor : Key}

theorem mem_remaining {row : Row} :
    row ∈ remaining key le table cursor ↔ row ∈ table ∧ Before le cursor (key row) := by
  simp only [remaining, List.mem_insertionSort, List.mem_filter, decide_eq_true_eq]

variable [Std.Total le] [IsTrans Key le]

theorem sorted_remaining (keyed : Keyed key table) :
    (remaining key le table cursor).Pairwise
      fun first second => Before le (key first) (key second) := by
  have total : Std.Total fun first second : Row => le (key first) (key second) :=
    ⟨fun first second => Std.Total.total (key first) (key second)⟩
  have trans : IsTrans Row fun first second => le (key first) (key second) :=
    ⟨fun first second third => IsTrans.trans (key first) (key second) (key third)⟩
  have ordered := List.pairwise_insertionSort (fun first second => le (key first) (key second))
    (table.filter fun row => Before le cursor (key row))
  have distinct : Keyed key (remaining key le table cursor) := by
    apply ((List.perm_insertionSort _ _).pairwise_iff (fun distinct => distinct.symm)).mpr
    exact keyed.filter _
  exact ordered.and distinct

variable [Std.Antisymm le]

omit [DecidableRel le] [DecidableEq Key] [Std.Total le] in
theorem Before.trans {first second third : Key} (earlier : Before le first second)
    (later : Before le second third) : Before le first third := by
  refine ⟨IsTrans.trans _ _ _ earlier.1 later.1, ?_⟩
  rintro rfl
  exact earlier.2 (Std.Antisymm.antisymm _ _ earlier.1 later.1)

omit [DecidableRel le] [DecidableEq Key] [Std.Total le] [IsTrans Key le] in
theorem Before.asymm {first second : Key} (before : Before le first second) :
    ¬ Before le second first :=
  fun after => before.2 (Std.Antisymm.antisymm _ _ before.1 after.1)

omit [DecidableRel le] [DecidableEq Key] [Std.Total le] [IsTrans Key le] in
/-- The order leaves no choice of how to list the same rows. -/
theorem eq_of_sorted {first second : List Row}
    (firstSorted : first.Pairwise fun row other => Before le (key row) (key other))
    (secondSorted : second.Pairwise fun row other => Before le (key row) (key other))
    (same : ∀ row, row ∈ first ↔ row ∈ second) : first = second := by
  have distinct : ∀ {rows : List Row},
      rows.Pairwise (fun row other => Before le (key row) (key other)) → rows.Nodup := by
    intro rows sorted
    exact sorted.imp fun before equal => before.2 (congrArg key equal)
  apply List.Perm.eq_of_pairwise _ firstSorted secondSorted
  · exact (List.perm_ext_iff_of_nodup (distinct firstSorted) (distinct secondSorted)).mpr same
  · exact fun row other _ _ before after => absurd after before.asymm

omit [DecidableRel le] [DecidableEq Key] [Std.Total le] [IsTrans Key le] [Std.Antisymm le] in
theorem eq_or_before_last {page : List Row} {last row : Row}
    (sorted : page.Pairwise fun row other => Before le (key row) (key other))
    (isLast : page.getLast? = some last) (mem : row ∈ page) :
    row = last ∨ Before le (key row) (key last) := by
  rcases List.getLast?_eq_some_iff.mp isLast with ⟨init, rfl⟩
  rcases List.mem_append.mp mem with inInit | isRow
  · exact Or.inr ((List.pairwise_append.mp sorted).2.2 row inInit last
      (List.mem_singleton_self last))
  · exact Or.inl (List.mem_singleton.mp isRow)

/-- What remains behind the last row of a page is what the page has left out. -/
theorem remaining_last (keyed : Keyed key table) {size : ℕ} {last : Row}
    (isLast : ((remaining key le table cursor).take size).getLast? = some last) :
    remaining key le table (key last) = (remaining key le table cursor).drop size := by
  have sorted : (remaining key le table cursor).Pairwise _ := sorted_remaining keyed
  have lastMem := List.mem_of_getLast? isLast
  have behind := (mem_remaining.mp (List.mem_of_mem_take lastMem)).2
  have split := List.take_append_drop size (remaining key le table cursor)
  rw [← split, List.pairwise_append] at sorted
  rcases sorted with ⟨takeSorted, dropSorted, across⟩
  apply eq_of_sorted (sorted_remaining keyed) dropSorted
  intro row
  rw [mem_remaining]
  constructor
  · rintro ⟨mem, after⟩
    have inRemaining : row ∈ remaining key le table cursor :=
      mem_remaining.mpr ⟨mem, behind.trans after⟩
    rw [← split, List.mem_append] at inRemaining
    rcases inRemaining with inPage | inRest
    · rcases eq_or_before_last takeSorted isLast inPage with rfl | before
      · exact absurd rfl after.2
      · exact absurd after before.asymm
    · exact inRest
  · intro inRest
    exact ⟨(mem_remaining.mp (List.mem_of_mem_drop inRest)).1, across last lastMem row inRest⟩

end Remaining

namespace Walk

variable {key : Row → Key} {le : Key → Key → Prop} [DecidableRel le] [DecidableEq Key]
  [Std.Total le] [IsTrans Key le] [Std.Antisymm le] {size : ℕ} {cursor : Key}
  {tables : List (List Row)} {rows : List Row}

omit [Std.Total le] [IsTrans Key le] [Std.Antisymm le] in
/-- Every row of a page was in the table that the page was read from. -/
theorem sound (walk : Walk key le size cursor tables rows) {row : Row} (mem : row ∈ rows) :
    ∃ table ∈ tables, row ∈ table := by
  induction walk with
  | last fits => exact ⟨_, List.mem_singleton_self _, (mem_remaining.mp mem).1⟩
  | next more isLast walk ih =>
      rcases List.mem_append.mp mem with inPage | inRest
      · exact ⟨_, List.mem_cons_self, (mem_remaining.mp (List.mem_of_mem_take inPage)).1⟩
      · rcases ih inRest with ⟨table, tableMem, rowMem⟩
        exact ⟨table, List.mem_cons_of_mem _ tableMem, rowMem⟩

/-- The keys come in strict order, whatever happens to the table between the pages. -/
theorem sorted (walk : Walk key le size cursor tables rows)
    (keyed : ∀ table ∈ tables, Keyed key table) :
    rows.Pairwise (fun first second => Before le (key first) (key second)) ∧
      ∀ row ∈ rows, Before le cursor (key row) := by
  induction walk with
  | last fits =>
      exact ⟨sorted_remaining (keyed _ (List.mem_singleton_self _)),
        fun row mem => (mem_remaining.mp mem).2⟩
  | @next cursor table last tables rest more isLast walk ih =>
      rcases ih fun table mem => keyed table (List.mem_cons_of_mem _ mem) with
        ⟨restSorted, restAfter⟩
      have tableKeyed := keyed table List.mem_cons_self
      have pageSorted : ((remaining key le table cursor).take size).Pairwise _ :=
        (sorted_remaining tableKeyed).sublist (List.take_sublist _ _)
      have pageAfter : ∀ row ∈ (remaining key le table cursor).take size,
          Before le cursor (key row) :=
        fun row mem => (mem_remaining.mp (List.mem_of_mem_take mem)).2
      have lastAfter := pageAfter last (List.mem_of_getLast? isLast)
      constructor
      · apply List.pairwise_append.mpr
        refine ⟨pageSorted, restSorted, ?_⟩
        intro row inPage other inRest
        rcases eq_or_before_last pageSorted isLast inPage with rfl | before
        · exact restAfter other inRest
        · exact before.trans (restAfter other inRest)
      · intro row mem
        rcases List.mem_append.mp mem with inPage | inRest
        · exact pageAfter row inPage
        · exact lastAfter.trans (restAfter row inRest)

/-- A key that every page finds in the table is listed. -/
theorem complete (walk : Walk key le size cursor tables rows)
    (keyed : ∀ table ∈ tables, Keyed key table) {wanted : Key}
    (present : ∀ table ∈ tables, ∃ row ∈ table, key row = wanted)
    (behind : Before le cursor wanted) : ∃ row ∈ rows, key row = wanted := by
  induction walk with
  | last fits =>
      rcases present _ (List.mem_singleton_self _) with ⟨row, mem, rfl⟩
      exact ⟨row, mem_remaining.mpr ⟨mem, behind⟩, rfl⟩
  | @next cursor table last tables rest more isLast walk ih =>
      rcases present table List.mem_cons_self with ⟨row, mem, rfl⟩
      have inRemaining : row ∈ remaining key le table cursor := mem_remaining.mpr ⟨mem, behind⟩
      rw [← List.take_append_drop size (remaining key le table cursor), List.mem_append]
        at inRemaining
      rcases inRemaining with inPage | inRest
      · exact ⟨row, List.mem_append_left _ inPage, rfl⟩
      · rw [← remaining_last (keyed table List.mem_cons_self) isLast] at inRest
        rcases ih (fun table mem => keyed table (List.mem_cons_of_mem _ mem))
          (fun table mem => present table (List.mem_cons_of_mem _ mem))
          (mem_remaining.mp inRest).2 with ⟨found, foundMem, same⟩
        exact ⟨found, List.mem_append_right _ foundMem, same⟩

/-- On a table that does not change, the pages end, and together they are what remains. -/
theorem exists_of_static {table : List Row} (keyed : Keyed key table) (positive : 0 < size)
    (cursor : Key) : ∃ count, Walk key le size cursor (List.replicate count table)
      (remaining key le table cursor) := by
  induction bound : (remaining key le table cursor).length using Nat.strong_induction_on
    generalizing cursor with
  | _ total ih =>
      by_cases fits : (remaining key le table cursor).length ≤ size
      · exact ⟨1, .last fits⟩
      · have more := Nat.lt_of_not_le fits
        have nonempty : (remaining key le table cursor).take size ≠ [] := by
          apply List.ne_nil_of_length_pos
          rw [List.length_take]
          omega
        rcases Option.isSome_iff_exists.mp (List.getLast?_isSome.mpr nonempty) with ⟨last, isLast⟩
        have rest := remaining_last keyed isLast
        have shorter : (remaining key le table (key last)).length < total := by
          rw [rest, List.length_drop]
          omega
        rcases ih _ shorter (key last) rfl with ⟨count, walk⟩
        refine ⟨count + 1, ?_⟩
        have extended := Walk.next more isLast walk
        rw [rest, List.take_append_drop] at extended
        exact extended

end Walk

end Keyset
