import RateLimiter.Lib.Keyset
import RateLimiter.Management.Accountability

/-!
# Walking through the pages of a listing

The three listings of the repositories hand out the key of the last row of a
page as a token. Following the tokens lists every matching row once and in
order; rows that come, change or go between two page requests do not disturb
the others. A failed request gives no page and is not part of a walk.
-/

namespace RateLimiter.Management

open Keyset Query

/-- What one page request meets. -/
structure Snapshot where
  conditions : Conditions
  database : Database

/-- A listing with its filters and page size fixed. -/
abbrev Listing (α : Type) := String → Snapshot → Except AppException (Page α)

/-- From a token, through the snapshots that the requests meet, to a page without a token. -/
inductive TokenWalk {α : Type} (listing : Listing α) : String → List Snapshot → List α → Prop where
  | last {token : String} {snapshot : Snapshot} {items : List α}
      (answered : listing token snapshot = .ok ⟨items, ""⟩) :
      TokenWalk listing token [snapshot] items
  | next {token following : String} {snapshot : Snapshot} {items : List α}
      {snapshots : List Snapshot} {rest : List α}
      (answered : listing token snapshot = .ok ⟨items, following⟩) (more : following ≠ "")
      (walk : TokenWalk listing following snapshots rest) :
      TokenWalk listing token (snapshot :: snapshots) (items ++ rest)

/-- The first request of a walk is answered, and without a token it is the only one. -/
theorem TokenWalk.first {α : Type} {listing : Listing α} {token : String}
    {snapshots : List Snapshot} {rows : List α} (walk : TokenWalk listing token snapshots rows) :
    ∃ snapshot ∈ snapshots, ∃ page, listing token snapshot = .ok page ∧
      (page.nextPageToken = "" → rows = page.items) := by
  cases walk with
  | last answered => exact ⟨_, List.mem_singleton_self _, _, answered, fun _ => rfl⟩
  | next answered more walk =>
      exact ⟨_, List.mem_cons_self, _, answered, fun noToken => absurd noToken more⟩

def Conditions.Healthy (conditions : Conditions) : Prop :=
  conditions.faults .connect = none ∧ conditions.faults .statement = none

section Tokens

variable {α Key : Type} (key : α → Key) (le : Key → Key → Prop) [DecidableRel le]
  [DecidableEq Key] (size : ℕ) (start : Key) (encode : Key → String) (Good : Key → Prop)
  (matching : Database → List α)

/-- The empty token stands for the start, and any other one for the key it encodes. -/
def Stands (token : String) (cursor : Key) : Prop :=
  token = "" ∧ cursor = start ∨ Good cursor ∧ token = encode cursor

/-- The page of the rows that remain behind a cursor. -/
def pageBehind (snapshot : Snapshot) (cursor : Key) : Page α :=
  toPage ((remaining key le (matching snapshot.database) cursor).take (size + 1)) size
    fun row => encode (key row)

/-- A listing that reads its pages behind the cursors that its tokens stand for. -/
structure KeysetListing (listing : Listing α) : Prop where
  encode_ne : ∀ {cursor}, Good cursor → encode cursor ≠ ""
  page_eq : ∀ {token cursor snapshot page}, Stands start encode Good token cursor →
    listing token snapshot = .ok page →
    page = pageBehind key le size encode matching snapshot cursor
  answers : ∀ {token cursor snapshot}, Stands start encode Good token cursor →
    snapshot.conditions.Healthy →
    listing token snapshot = .ok (pageBehind key le size encode matching snapshot cursor)

end Tokens

section Walks

variable {α Key : Type} {key : α → Key} {le : Key → Key → Prop} [DecidableRel le]
  [DecidableEq Key] {size : ℕ} {start : Key} {encode : Key → String} {Good : Key → Prop}
  {matching : Database → List α} {listing : Listing α}

variable (key le encode matching) in
/-- A page has a token exactly when rows are left out. -/
theorem pageBehind_cases (positive : 0 < size) (snapshot : Snapshot) (cursor : Key) :
    (remaining key le (matching snapshot.database) cursor).length ≤ size ∧
        pageBehind key le size encode matching snapshot cursor =
          ⟨remaining key le (matching snapshot.database) cursor, ""⟩ ∨
      size < (remaining key le (matching snapshot.database) cursor).length ∧
        ∃ last, ((remaining key le (matching snapshot.database) cursor).take size).getLast? =
            some last ∧
          pageBehind key le size encode matching snapshot cursor =
            ⟨(remaining key le (matching snapshot.database) cursor).take size,
              encode (key last)⟩ := by
  generalize isRows : remaining key le (matching snapshot.database) cursor = rows
  have fetched : (rows.take (size + 1)).length = min (size + 1) rows.length := List.length_take
  simp only [pageBehind, isRows, toPage]
  by_cases fits : rows.length ≤ size
  · refine Or.inl ⟨fits, ?_⟩
    rw [if_neg (by omega), List.take_of_length_le (by omega)]
  · have nonempty : rows.take size ≠ [] := by
      apply List.ne_nil_of_length_pos
      rw [List.length_take]
      omega
    rcases Option.isSome_iff_exists.mp (List.getLast?_isSome.mpr nonempty) with ⟨last, isLast⟩
    refine Or.inr ⟨by omega, last, isLast, ?_⟩
    rw [if_pos (by omega), List.take_take, Nat.min_eq_left (by omega), isLast, Option.map_some,
      Option.getD_some]

variable (key le size encode matching) in
theorem items_pageBehind (snapshot : Snapshot) (cursor : Key) :
    (pageBehind key le size encode matching snapshot cursor).items =
      (remaining key le (matching snapshot.database) cursor).take size := by
  simp only [pageBehind, toPage]
  split
  · exact List.take_take.trans (by rw [Nat.min_eq_left (Nat.le_succ size)])
  · rename_i fits
    rw [List.length_take] at fits
    rw [List.take_of_length_le (by omega), List.take_of_length_le (by omega)]

namespace KeysetListing

variable (isListing : KeysetListing key le size start encode Good matching listing)
  (positive : 0 < size)

include isListing positive

/-- Following tokens is walking behind cursors. -/
theorem walk_of_tokenWalk {token : String} {snapshots : List Snapshot} {rows : List α}
    (walk : TokenWalk listing token snapshots rows)
    (good : ∀ snapshot ∈ snapshots, ∀ row ∈ matching snapshot.database, Good (key row))
    {cursor : Key} (stands : Stands start encode Good token cursor) :
    Walk key le size cursor (snapshots.map fun snapshot => matching snapshot.database) rows := by
  induction walk generalizing cursor with
  | @last token snapshot items answered =>
      have isPage := isListing.page_eq stands answered
      rcases pageBehind_cases key le encode matching positive snapshot cursor with
        ⟨fits, page⟩ | ⟨more, last, isLast, page⟩
      · rw [page, Page.mk.injEq] at isPage
        rw [isPage.1]
        exact .last fits
      · rw [page, Page.mk.injEq] at isPage
        have inTable := (mem_remaining.mp (List.mem_of_mem_take (List.mem_of_getLast? isLast))).1
        exact absurd isPage.2.symm
          (isListing.encode_ne (good snapshot (List.mem_singleton_self _) last inTable))
  | @next token following snapshot items snapshots rest answered more walk ih =>
      have isPage := isListing.page_eq stands answered
      rcases pageBehind_cases key le encode matching positive snapshot cursor with
        ⟨fits, page⟩ | ⟨moreRows, last, isLast, page⟩
      · rw [page, Page.mk.injEq] at isPage
        exact absurd isPage.2 more
      · rw [page, Page.mk.injEq] at isPage
        rcases isPage with ⟨rfl, rfl⟩
        have inTable := (mem_remaining.mp (List.mem_of_mem_take (List.mem_of_getLast? isLast))).1
        apply Walk.next moreRows isLast
        apply ih fun snapshot mem => good snapshot (List.mem_cons_of_mem _ mem)
        exact Or.inr ⟨good snapshot List.mem_cons_self last inTable, rfl⟩

/-- As long as no request fails, a walk behind cursors is one that follows tokens. -/
theorem tokenWalk_of_walk {cursor : Key} {tables : List (List α)} {rows : List α}
    (walk : Walk key le size cursor tables rows) {snapshots : List Snapshot}
    (areTables : tables = snapshots.map fun snapshot => matching snapshot.database)
    (healthy : ∀ snapshot ∈ snapshots, snapshot.conditions.Healthy)
    (good : ∀ snapshot ∈ snapshots, ∀ row ∈ matching snapshot.database, Good (key row))
    {token : String} (stands : Stands start encode Good token cursor) :
    TokenWalk listing token snapshots rows := by
  induction walk generalizing snapshots token with
  | @last cursor table fits =>
      rcases List.map_eq_singleton_iff.mp areTables.symm with ⟨snapshot, rfl, rfl⟩
      have answered := isListing.answers stands (healthy snapshot (List.mem_singleton_self _))
      rcases pageBehind_cases key le encode matching positive snapshot cursor with
        ⟨_, page⟩ | ⟨more, _⟩
      · rw [page] at answered
        exact .last answered
      · omega
  | @next cursor table last tables rest more isLast walk ih =>
      rcases List.map_eq_cons_iff.mp areTables.symm with ⟨snapshot, others, rfl, rfl, areOthers⟩
      have answered := isListing.answers stands (healthy snapshot List.mem_cons_self)
      rcases pageBehind_cases key le encode matching positive snapshot cursor with
        ⟨fits, _⟩ | ⟨_, other, isOther, page⟩
      · omega
      · rw [isLast, Option.some.injEq] at isOther
        subst other
        rw [page] at answered
        have inTable := (mem_remaining.mp (List.mem_of_mem_take (List.mem_of_getLast? isLast))).1
        have goodLast := good snapshot List.mem_cons_self last inTable
        apply TokenWalk.next answered (isListing.encode_ne goodLast)
        exact ih areOthers.symm (fun snapshot mem => healthy snapshot (List.mem_cons_of_mem _ mem))
          (fun snapshot mem => good snapshot (List.mem_cons_of_mem _ mem))
          (Or.inr ⟨goodLast, rfl⟩)

end KeysetListing

omit [DecidableRel le] [DecidableEq Key] in
/-- Following the tokens of a listing from the empty one is complete and free of duplicates. -/
structure Paginates (listing : Listing α) (key : α → Key) (le : Key → Key → Prop)
    (matching : Database → List α) (Valid : Database → Prop) : Prop where
  /-- On tables that do not change the pages end, and are exactly the matching rows in order. -/
  static : ∀ conditions database, conditions.Healthy → Valid database →
    ∃ count rows, TokenWalk listing "" (List.replicate count ⟨conditions, database⟩) rows ∧
      rows.Pairwise (fun first second => Before le (key first) (key second)) ∧
      ∀ row, row ∈ rows ↔ row ∈ matching database
  /-- Whatever changes in between, no key comes twice, and those that stay are not missed. -/
  changing : ∀ snapshots rows, (∀ snapshot ∈ snapshots, Valid snapshot.database) →
    TokenWalk listing "" snapshots rows →
    rows.Pairwise (fun first second => Before le (key first) (key second)) ∧
      (∀ row ∈ rows, ∃ snapshot ∈ snapshots, row ∈ matching snapshot.database) ∧
      ∀ wanted, (∀ snapshot ∈ snapshots, ∃ row ∈ matching snapshot.database, key row = wanted) →
        ∃ row ∈ rows, key row = wanted

omit [DecidableRel le] [DecidableEq Key] in
theorem Paginates.of_eq {Valid Valid' : Database → Prop} {matching' : Database → List α}
    (paginates : Paginates listing key le matching Valid)
    (valid : ∀ database, Valid' database → Valid database)
    (same : ∀ database, Valid' database → matching' database = matching database) :
    Paginates listing key le matching' Valid' where
  static := by
    intro conditions database healthy isValid
    rw [same database isValid]
    exact paginates.static conditions database healthy (valid database isValid)
  changing := by
    intro snapshots rows areValid walk
    rcases paginates.changing snapshots rows
      (fun snapshot mem => valid snapshot.database (areValid snapshot mem)) walk with
      ⟨sorted, sound, complete⟩
    refine ⟨sorted, ?_, ?_⟩
    · intro row mem
      rcases sound row mem with ⟨snapshot, snapshotMem, rowMem⟩
      refine ⟨snapshot, snapshotMem, ?_⟩
      rw [same snapshot.database (areValid snapshot snapshotMem)]
      exact rowMem
    · intro wanted present
      apply complete wanted
      intro snapshot mem
      rw [← same snapshot.database (areValid snapshot mem)]
      exact present snapshot mem

omit [DecidableRel le] [DecidableEq Key] in
/-- On tables that do not change, there is one list of rows to walk through. -/
theorem Paginates.static_iff [Std.Antisymm le] {Valid : Database → Prop} {conditions : Conditions}
    {database : Database} {rows : List α} (paginates : Paginates listing key le matching Valid)
    (healthy : conditions.Healthy) (valid : Valid database)
    (keyed : Keyed key (matching database)) :
    (∃ count, TokenWalk listing "" (List.replicate count ⟨conditions, database⟩) rows) ↔
      rows.Pairwise (fun first second => Before le (key first) (key second)) ∧
        ∀ row, row ∈ rows ↔ row ∈ matching database := by
  constructor
  · rintro ⟨count, walk⟩
    have isSnapshot : ∀ snapshot ∈ List.replicate count (⟨conditions, database⟩ : Snapshot),
        snapshot.database = database := by
      intro snapshot mem
      rw [List.eq_of_mem_replicate mem]
    rcases paginates.changing _ rows
      (fun snapshot mem => by rw [isSnapshot snapshot mem]; exact valid) walk with
      ⟨sorted, sound, complete⟩
    have inTable : ∀ row ∈ rows, row ∈ matching database := by
      intro row mem
      rcases sound row mem with ⟨snapshot, snapshotMem, rowMem⟩
      rw [isSnapshot snapshot snapshotMem] at rowMem
      exact rowMem
    refine ⟨sorted, fun row => ⟨inTable row, ?_⟩⟩
    intro mem
    rcases complete (key row) (fun snapshot snapshotMem => by
      rw [isSnapshot snapshot snapshotMem]
      exact ⟨row, mem, rfl⟩) with ⟨other, otherMem, sameKey⟩
    rw [← keyed.eq_of_key_eq (inTable other otherMem) mem sameKey]
    exact otherMem
  · rintro ⟨sorted, exactly⟩
    rcases paginates.static conditions database healthy valid with
      ⟨count, listed, walk, listedSorted, listedExactly⟩
    have same : rows = listed := by
      apply eq_of_sorted sorted listedSorted
      intro row
      rw [exactly, listedExactly]
    exact ⟨count, same ▸ walk⟩

theorem KeysetListing.paginates [Std.Total le] [IsTrans Key le] [Std.Antisymm le]
    (isListing : KeysetListing key le size start encode Good matching listing)
    (positive : 0 < size) {Valid : Database → Prop}
    (keyed : ∀ database, Valid database → Keyed key (matching database))
    (good : ∀ database, Valid database → ∀ row ∈ matching database, Good (key row))
    (behind : ∀ database, Valid database → ∀ row ∈ matching database, Before le start (key row)) :
    Paginates listing key le matching Valid := by
  have fromStart : Stands start encode Good "" start := Or.inl ⟨rfl, rfl⟩
  constructor
  · intro conditions database healthy valid
    have pages : ∃ count, Walk key le size start (List.replicate count (matching database)) _ :=
      Walk.exists_of_static (keyed database valid) positive start
    rcases pages with ⟨count, walk⟩
    refine ⟨count, _, isListing.tokenWalk_of_walk positive walk (by simp) ?_ ?_ fromStart,
      sorted_remaining (keyed database valid), ?_⟩
    · intro snapshot mem
      rw [List.eq_of_mem_replicate mem]
      exact healthy
    · intro snapshot mem
      rw [List.eq_of_mem_replicate mem]
      exact good database valid
    · intro row
      rw [mem_remaining]
      exact ⟨fun both => both.1, fun mem => ⟨mem, behind database valid row mem⟩⟩
  · intro snapshots rows valid walk
    have cursors := isListing.walk_of_tokenWalk positive walk
      (fun snapshot mem => good snapshot.database (valid snapshot mem)) fromStart
    have tablesKeyed : ∀ table ∈ snapshots.map fun snapshot => matching snapshot.database,
        Keyed key table := by
      intro table mem
      rcases List.mem_map.mp mem with ⟨snapshot, snapshotMem, rfl⟩
      exact keyed snapshot.database (valid snapshot snapshotMem)
    refine ⟨(cursors.sorted tablesKeyed).1, ?_, ?_⟩
    · intro row mem
      rcases cursors.sound mem with ⟨table, tableMem, rowMem⟩
      rcases List.mem_map.mp tableMem with ⟨snapshot, snapshotMem, rfl⟩
      exact ⟨snapshot, snapshotMem, rowMem⟩
    · intro wanted present
      apply cursors.complete tablesKeyed
      · intro table mem
        rcases List.mem_map.mp mem with ⟨snapshot, snapshotMem, rfl⟩
        exact present snapshot snapshotMem
      · cases walk with
        | @last _ snapshot _ _ | @next _ _ snapshot _ _ _ _ _ _ =>
            rcases present snapshot List.mem_cons_self with ⟨row, mem, rfl⟩
            exact behind snapshot.database (valid snapshot List.mem_cons_self) row mem

end Walks

section Queries

theorem query_eq_ok_iff {α : Type} {conditions : Conditions} {result : Except SqlException α}
    {value : α} :
    query conditions result = .ok value ↔ conditions.Healthy ∧ result = .ok value := by
  unfold query Conditions.Healthy
  split <;> simp_all

variable {α Key : Type} {key : α → Key} {le : Key → Key → Prop} [DecidableRel le]
  [DecidableEq Key] {size : ℕ} {start : Key} {encode : Key → String} {Good : Key → Prop}
  {matching : Database → List α} {listing : Listing α}

/-- A listing that fetches one row more than its page from behind the cursor. -/
theorem KeysetListing.of_query (encode_ne : ∀ {cursor}, Good cursor → encode cursor ≠ "")
    (list_eq : ∀ {token cursor} snapshot, Stands start encode Good token cursor →
      listing token snapshot =
        (query snapshot.conditions (.ok ((remaining key le (matching snapshot.database)
          cursor).take (size + 1)))).map
          fun fetched => toPage fetched size fun row => encode (key row)) :
    KeysetListing key le size start encode Good matching listing where
  encode_ne := encode_ne
  page_eq := by
    intro token cursor snapshot page stands answered
    rw [list_eq snapshot stands] at answered
    cases fetch : query snapshot.conditions (Except.ok ((remaining key le
      (matching snapshot.database) cursor).take (size + 1))) with
    | error error => simp [fetch, Except.map] at answered
    | ok fetched =>
        simp only [fetch, Except.map, Except.ok.injEq] at answered
        have rows := (query_eq_ok_iff.mp fetch).2
        rw [← answered, ← Except.ok.inj rows]
        rfl
  answers := by
    intro token cursor snapshot stands healthy
    rw [list_eq snapshot stands, query_eq_ok_iff.mpr ⟨healthy, rfl⟩]
    rfl

end Queries

theorem LimitValidator.clampPageSize_pos (requested : ℤ) :
    0 < (LimitValidator.clampPageSize requested).toNat := by
  simp only [LimitValidator.clampPageSize, LimitValidator.pageSizeDefault,
    LimitValidator.pageSizeMax]
  split <;> omega

/-- The identities that a `BIGINT` column can hold. -/
def Identity (identity : ℤ) : Prop :=
  1 ≤ identity ∧ identity < 2 ^ 63

/-- The rows behind a cursor, as a statement reads them that tests both at once. -/
theorem remaining_filter {α Key : Type} {key : α → Key} {le : Key → Key → Prop} [DecidableRel le]
    [DecidableEq Key] {table : List α} {selects fetches : α → Bool} {cursor : Key}
    (same : ∀ row, fetches row = true ↔ Before le cursor (key row) ∧ selects row = true) :
    remaining key le (table.filter selects) cursor =
      (table.filter fetches).insertionSort fun first second => le (key first) (key second) := by
  rw [remaining, List.filter_filter]
  congr 2
  funext row
  rw [Bool.eq_iff_iff, same, Bool.and_eq_true, decide_eq_true_eq]

theorem decodeLong_of_stands {start : ℤ} {token : String} {cursor : ℤ}
    (stands : Stands start PageToken.encodeLong Identity token cursor) :
    PageToken.decodeLong token start = .ok cursor := by
  rcases stands with ⟨rfl, rfl⟩ | ⟨⟨positive, upper⟩, rfl⟩
  · rfl
  · exact PageToken.decodeLong_encodeLong (by omega) upper start

theorem mem_of_toPage {α : Type} {rows : List α} {size : ℕ} {token : α → String} {row : α}
    (mem : row ∈ (toPage rows size token).items) : row ∈ rows := by
  unfold toPage at mem
  split at mem
  · exact List.mem_of_mem_take mem
  · exact mem

namespace LimitRepository

/-- The rows that a listing is asked for; an empty text asks for nothing. -/
def selects (serviceName customerId rateLimitId : String) (row : LimitRow) : Bool :=
  row.serviceName = serviceName && (customerId = "" || row.customerId = customerId) &&
    (rateLimitId = "" || row.rateLimitId = rateLimitId)

theorem keysetListing {serviceName customerId rateLimitId : String}
    (texts : [serviceName, customerId, rateLimitId].all isPostgresText = true) (size : ℕ) :
    KeysetListing LimitRow.configId (· ≤ ·) size 0 PageToken.encodeLong Identity
      (fun database => database.limits.filter (selects serviceName customerId rateLimitId))
      (fun token snapshot => list snapshot.conditions serviceName customerId rateLimitId size token
        snapshot.database) := by
  apply KeysetListing.of_query
  · intro cursor good
    exact PageToken.encodeLong_ne_empty (by have := good.1; omega)
  · intro token cursor snapshot stands
    have fetched (row : LimitRow) : (row.serviceName = serviceName && cursor < row.configId &&
        (customerId = "" || row.customerId = customerId) &&
        (rateLimitId = "" || row.rateLimitId = rateLimitId)) = true ↔
        Before (· ≤ ·) cursor row.configId ∧
          selects serviceName customerId rateLimitId row = true := by
      simp only [Before, ← lt_iff_le_and_ne, selects, Bool.and_eq_true, decide_eq_true_eq]
      tauto
    simp only [list, decodeLong_of_stands stands, bindTexts, texts, if_true,
      remaining_filter fetched]
    rfl

theorem selects_tuple {key : LimitKey} {row : LimitRow}
    (named : key.customerId ≠ "" ∧ key.rateLimitId ≠ "") :
    selects key.serviceName key.customerId key.rateLimitId row = true ↔ row.key = key := by
  simp only [selects, named.1, named.2, decide_false, Bool.false_or, Bool.and_eq_true,
    decide_eq_true_eq, LimitRow.key, LimitKey.ext_iff, and_assoc]

/-- A listing of one tuple is one page with the row of the tuple. -/
theorem list_tuple {conditions : Conditions} (healthy : conditions.Healthy) {database : Database}
    {key : LimitKey} {row : LimitRow}
    (texts : isPostgresText key.serviceName ∧ isPostgresText key.customerId ∧
      isPostgresText key.rateLimitId) (named : key.customerId ≠ "" ∧ key.rateLimitId ≠ "")
    (found : database.findLimit key = some row)
    (tuples : Keyed LimitRow.key database.limits)
    (identities : Keyed LimitRow.configId database.limits) (positive : 0 < row.configId)
    {size : ℕ} (nonempty : 0 < size) :
    list conditions key.serviceName key.customerId key.rateLimitId size "" database =
      .ok ⟨[row], ""⟩ := by
  have bound : [key.serviceName, key.customerId, key.rateLimitId].all isPostgresText = true := by
    simp [texts]
  have isListing := keysetListing bound size
  have answered := @KeysetListing.answers _ _ _ _ _ _ _ _ _ _ _ _ isListing "" 0
    ⟨conditions, database⟩ (Or.inl ⟨rfl, rfl⟩) healthy
  rcases Database.key_of_findLimit found with ⟨isKey, mem⟩
  have isRow : ∀ other, other ∈ remaining LimitRow.configId (· ≤ ·)
      (database.limits.filter (selects key.serviceName key.customerId key.rateLimitId)) 0 ↔
        other ∈ [row] := by
    intro other
    rw [mem_remaining, List.mem_filter, selects_tuple named, List.mem_singleton]
    constructor
    · rintro ⟨⟨otherMem, otherKey⟩, _⟩
      exact tuples.eq_of_key_eq otherMem mem (otherKey.trans isKey.symm)
    · rintro rfl
      exact ⟨⟨mem, isKey⟩, positive.le, positive.ne⟩
  have only := eq_of_sorted (sorted_remaining (identities.filter _)) (List.pairwise_singleton _ row)
    isRow
  rcases pageBehind_cases LimitRow.configId (· ≤ ·) PageToken.encodeLong
    (fun database => database.limits.filter
      (selects key.serviceName key.customerId key.rateLimitId)) nonempty ⟨conditions, database⟩ 0
    with ⟨_, page⟩ | ⟨more, _⟩
  · rw [page, only] at answered
    exact answered
  · rw [only] at more
    exact absurd more (Nat.not_lt.mpr nonempty)

/-- Whatever is listed, behind whichever token, is in the table and was asked for. -/
theorem mem_of_list {conditions : Conditions} {serviceName customerId rateLimitId : String}
    {size : ℕ} {token : String} {database : Database} {page : Page LimitRow}
    (listed : list conditions serviceName customerId rateLimitId size token database = .ok page)
    {row : LimitRow} (mem : row ∈ page.items) :
    row ∈ database.limits.filter (selects serviceName customerId rateLimitId) := by
  unfold list at listed
  cases decoded : PageToken.decodeLong token 0 with
  | error error =>
      rw [decoded] at listed
      cases listed
  | ok cursor =>
      rw [decoded] at listed
      dsimp only [bind, Except.bind] at listed
      split at listed
      · cases listed
      · rename_i fetched isFetched
        cases listed
        have inFetched := mem_of_toPage mem
        have rows := (query_eq_ok_iff.mp isFetched).2
        split at rows
        · cases rows
        · cases rows
          have sorted := List.mem_of_mem_take inFetched
          rcases List.mem_filter.mp ((List.mem_insertionSort _).mp sorted) with ⟨inTable, passes⟩
          refine List.mem_filter.mpr ⟨inTable, ?_⟩
          simp only [selects, Bool.and_eq_true] at passes ⊢
          exact ⟨⟨passes.1.1.1, passes.1.2⟩, passes.2⟩

end LimitRepository

namespace ServiceRepository

variable (backend : Backend)

/-- The services that the caller may see. -/
def selects (allowed : List String) (isAdmin : Bool) (row : ServiceRow) : Bool :=
  isAdmin || allowed.contains row.serviceName

theorem keysetListing {allowed : List String} {isAdmin : Bool}
    (texts : (if isAdmin then [] else allowed).all isPostgresText = true) (size : ℕ) :
    KeysetListing ServiceRow.serviceName (fun first second => backend.textLe first second = true)
      size "" (fun name => PageToken.encode name.toList)
      (fun name => name ≠ "" ∧ isPostgresText name = true)
      (fun database => database.services.filter (selects allowed isAdmin))
      (fun token snapshot => list backend snapshot.conditions size token allowed isAdmin
        snapshot.database) := by
  apply KeysetListing.of_query
  · intro cursor good
    exact PageToken.encode_ne_empty (by simpa using good.1)
  · intro token cursor snapshot stands
    have decoded : ∃ text, PageToken.decode token = .ok text ∧
        String.ofList (text.getD []) = cursor ∧ isPostgresText cursor = true := by
      rcases stands with ⟨rfl, rfl⟩ | ⟨good, rfl⟩
      · exact ⟨none, rfl, rfl, by decide⟩
      · exact ⟨some cursor.toList, PageToken.decode_encode (by simpa using good.1),
          String.ofList_toList, good.2⟩
    rcases decoded with ⟨text, decoded, isCursor, cursorText⟩
    have fetched (row : ServiceRow) :
        ((backend.textLe cursor row.serviceName && cursor != row.serviceName) &&
          (isAdmin || allowed.contains row.serviceName)) = true ↔
        Before (fun first second => backend.textLe first second = true) cursor row.serviceName ∧
          selects allowed isAdmin row = true := by
      simp only [Before, selects, Bool.and_eq_true, bne_iff_ne]
    simp only [list, decoded, bind, Except.bind, isCursor, bindTexts, List.all_cons, cursorText,
      texts, Bool.and_self, if_true, remaining_filter fetched]
    rfl

end ServiceRepository

namespace AuditRepository

/-- The filters alone, without the cursor of a page. -/
def Filters.selects (filters : Filters) (row : AuditRow) : Bool :=
  row.snapshotField "service_name" = some filters.serviceName &&
    (filters.configId.all fun configId => row.configId = configId) &&
    (filters.key.all fun key => row.snapshotField "customer_id" = some key.customerId &&
      row.snapshotField "rate_limit_id" = some key.rateLimitId) &&
    filters.since.all fun since => since ≤ row.changedAt

/-- The cursor that a listing starts at is the largest identity. -/
def startCursor : ℤ := 2 ^ 63 - 1

theorem Filters.accepts_eq (filters : Filters) (cursor : ℤ) (row : AuditRow) :
    filters.accepts cursor row = (decide (row.auditId < cursor) && filters.selects row) := by
  simp only [accepts, selects, ← Bool.and_assoc]
  rw [Bool.and_comm (decide (row.auditId < cursor))]

/-- A later page reads what the first page would, as far as it lies behind the cursor. -/
theorem Filters.accepts_iff (filters : Filters) {cursor : ℤ} (upper : cursor ≤ startCursor)
    (row : AuditRow) :
    filters.accepts cursor row = true ↔
      Before (fun first second => second ≤ first) cursor row.auditId ∧
        filters.accepts startCursor row = true := by
  simp only [accepts_eq, Before, Bool.and_eq_true, decide_eq_true_eq]
  constructor
  · rintro ⟨below, passes⟩
    exact ⟨by omega, by omega, passes⟩
  · rintro ⟨before, _, passes⟩
    exact ⟨by omega, passes⟩

/-- The parameters that the driver and the server take. -/
structure Binds (backend : Backend) (serviceName : String) (key : Option LimitKey)
    (since : Option (ℤ × ℤ)) (bound : Option ℤ) : Prop where
  texts : (serviceName :: (key.map fun key => [key.customerId, key.rateLimitId]).getD []).all
    isPostgresText = true
  fits : timestampFrom since = .ok ()
  bound_eq : (since.mapM fun instant => backend.bindTimestamp instant.1 instant.2) = .ok bound

theorem keysetListing {backend : Backend} {serviceName : String} {key : Option LimitKey}
    {since : Option (ℤ × ℤ)} {bound : Option ℤ}
    (binds : Binds backend serviceName key since bound) (configId : Option ℤ) (size : ℕ) :
    KeysetListing AuditRow.auditId (fun first second => second ≤ first) size startCursor
      PageToken.encodeLong Identity
      (fun database => database.audit.filter
        (Filters.accepts ⟨serviceName, key, configId, bound⟩ startCursor))
      (fun token snapshot => list backend snapshot.conditions serviceName key configId since size
        token snapshot.database) := by
  apply KeysetListing.of_query
  · intro cursor good
    exact PageToken.encodeLong_ne_empty (by have := good.1; omega)
  · intro token cursor snapshot stands
    have upper : cursor ≤ startCursor := by
      rcases stands with ⟨_, rfl⟩ | ⟨good, _⟩
      · exact Int.le_refl _
      · have := good.2
        simp only [startCursor]
        omega
    have decoded : PageToken.decodeLong token (2 ^ 63 - 1) = .ok cursor :=
      decodeLong_of_stands stands
    simp only [list, decoded, binds.fits, bindTexts, binds.texts, if_true, binds.bound_eq,
      remaining_filter (Filters.accepts_iff _ upper), bind, Except.bind]
    rfl

/-- A listing that answers has been given texts. -/
theorem texts_of_list {backend : Backend} {conditions : Conditions} {serviceName : String}
    {key : Option LimitKey} {configId : Option ℤ} {since : Option (ℤ × ℤ)} {size : ℕ}
    {token : String} {database : Database} {page : Page AuditRow}
    (listed : list backend conditions serviceName key configId since size token database =
      .ok page) :
    (serviceName :: (key.map fun key => [key.customerId, key.rateLimitId]).getD []).all
      isPostgresText = true := by
  by_contra refused
  have unbound : bindTexts (serviceName :: (key.map fun key => [key.customerId,
      key.rateLimitId]).getD []) = .error .invalidText := if_neg refused
  simp only [list, unbound] at listed
  cases decoded : PageToken.decodeLong token (2 ^ 63 - 1) with
  | error error =>
      rw [decoded] at listed
      cases listed
  | ok cursor =>
      cases fits : timestampFrom since with
      | error error =>
          rw [decoded, fits] at listed
          cases listed
      | ok done =>
          rw [decoded, fits] at listed
          change (query conditions (.error .invalidText)).bind _ = _ at listed
          cases fetched : query conditions
            (.error .invalidText : Except SqlException (List AuditRow)) with
          | error error =>
              rw [fetched] at listed
              cases listed
          | ok rows => cases (query_eq_ok_iff.mp fetched).2

end AuditRepository

section Listings

/-- The primary keys of the three tables. -/
def LimitTable (database : Database) : Prop :=
  Keyed LimitRow.configId database.limits ∧ ∀ row ∈ database.limits, Identity row.configId

def ServiceTable (database : Database) : Prop :=
  Keyed ServiceRow.serviceName database.services ∧
    ∀ row ∈ database.services, row.serviceName ≠ "" ∧ isPostgresText row.serviceName = true

def AuditTable (database : Database) : Prop :=
  Keyed AuditRow.auditId database.audit ∧ ∀ row ∈ database.audit, Identity row.auditId

instance (database : Database) : Decidable (LimitTable database) :=
  inferInstanceAs (Decidable (_ ∧ ∀ row ∈ _, _ ∧ _))

instance (database : Database) : Decidable (ServiceTable database) :=
  inferInstanceAs (Decidable (_ ∧ _))

instance (database : Database) : Decidable (AuditTable database) :=
  inferInstanceAs (Decidable (_ ∧ ∀ row ∈ _, _ ∧ _))

/-- No identity lies behind the cursor that a listing of the audit starts from. -/
theorem AuditTable.auditId_le {database : Database} (table : AuditTable database) :
    ∀ row ∈ database.audit, row.auditId ≤ AuditRepository.startCursor := by
  intro row mem
  have upper := (table.2 row mem).2
  simp only [AuditRepository.startCursor]
  omega

theorem LimitRepository.paginates {serviceName customerId rateLimitId : String}
    (texts : [serviceName, customerId, rateLimitId].all isPostgresText = true) {size : ℕ}
    (positive : 0 < size) :
    Paginates (fun token snapshot => list snapshot.conditions serviceName customerId rateLimitId
        size token snapshot.database) LimitRow.configId (· ≤ ·)
      (fun database => database.limits.filter (selects serviceName customerId rateLimitId))
      LimitTable := by
  apply (keysetListing texts size).paginates positive
  · intro database valid
    exact valid.1.filter _
  · intro database valid row mem
    exact valid.2 row (List.mem_of_mem_filter mem)
  · intro database valid row mem
    have identity := (valid.2 row (List.mem_of_mem_filter mem)).1
    simp only [Before]
    omega

theorem ServiceRepository.paginates {backend : Backend}
    (emptyLeast : ∀ text, backend.textLe "" text = true) {allowed : List String} {isAdmin : Bool}
    (texts : (if isAdmin then [] else allowed).all isPostgresText = true) {size : ℕ}
    (positive : 0 < size) :
    Paginates (fun token snapshot => list backend snapshot.conditions size token allowed isAdmin
        snapshot.database) ServiceRow.serviceName
      (fun first second => backend.textLe first second = true)
      (fun database => database.services.filter (selects allowed isAdmin)) ServiceTable := by
  have total : Std.Total fun first second => backend.textLe first second = true :=
    ⟨backend.textLe_total⟩
  have trans : IsTrans String fun first second => backend.textLe first second = true :=
    ⟨backend.textLe_trans⟩
  have antisymm : Std.Antisymm fun first second => backend.textLe first second = true :=
    ⟨backend.textLe_antisymm⟩
  apply (keysetListing backend texts size).paginates positive
  · intro database valid
    exact valid.1.filter _
  · intro database valid row mem
    exact valid.2 row (List.mem_of_mem_filter mem)
  · intro database valid row mem
    exact ⟨emptyLeast row.serviceName, (valid.2 row (List.mem_of_mem_filter mem)).1.symm⟩

/-- The last identity is the start of the listing, which lists only what is below it. -/
theorem AuditRepository.paginates_accepts {backend : Backend} {serviceName : String}
    {key : Option LimitKey} {since : Option (ℤ × ℤ)} {bound : Option ℤ}
    (binds : Binds backend serviceName key since bound) (configId : Option ℤ) {size : ℕ}
    (positive : 0 < size) :
    Paginates (fun token snapshot => list backend snapshot.conditions serviceName key configId
        since size token snapshot.database) AuditRow.auditId (fun first second => second ≤ first)
      (fun database => database.audit.filter
        (Filters.accepts ⟨serviceName, key, configId, bound⟩ startCursor)) AuditTable := by
  have total : Std.Total fun first second : ℤ => second ≤ first :=
    ⟨fun first second => Int.le_total second first⟩
  have trans : IsTrans ℤ fun first second => second ≤ first :=
    ⟨fun first second third below lower => Int.le_trans lower below⟩
  have antisymm : Std.Antisymm fun first second : ℤ => second ≤ first :=
    ⟨fun first second below above => Int.le_antisymm above below⟩
  apply (keysetListing binds configId size).paginates positive
  · intro database valid
    exact valid.1.filter _
  · intro database valid row mem
    exact valid.2 row (List.mem_of_mem_filter mem)
  · intro database valid row mem
    have accepted := (List.mem_filter.mp mem).2
    rw [Filters.accepts_eq, Bool.and_eq_true, decide_eq_true_eq] at accepted
    exact ⟨Int.le_of_lt accepted.1, fun same => absurd accepted.1 (by omega)⟩

/-- Where no row has the last identity, nothing is left out. -/
theorem AuditRepository.paginates {backend : Backend} {serviceName : String}
    {key : Option LimitKey} {since : Option (ℤ × ℤ)} {bound : Option ℤ}
    (binds : Binds backend serviceName key since bound) (configId : Option ℤ) {size : ℕ}
    (positive : 0 < size) :
    Paginates (fun token snapshot => list backend snapshot.conditions serviceName key configId
        since size token snapshot.database) AuditRow.auditId (fun first second => second ≤ first)
      (fun database => database.audit.filter (Filters.selects ⟨serviceName, key, configId, bound⟩))
      (fun database => AuditTable database ∧ ∀ row ∈ database.audit, row.auditId ≠ 2 ^ 63 - 1) := by
  apply (paginates_accepts binds configId positive).of_eq
  · exact fun database valid => valid.1
  · intro database valid
    apply List.filter_congr
    intro row mem
    have identity := (valid.1.2 row mem).2
    have notLast := valid.2 row mem
    rw [Filters.accepts_eq, decide_eq_true, Bool.true_and]
    simp only [startCursor]
    omega

/-- Whatever the filters and the page size, the pages of each listing are its matching rows. -/
theorem listings_paginate (backend : Backend) (emptyLeast : ∀ text, backend.textLe "" text = true)
    (requested : ℤ) :
    (∀ serviceName customerId rateLimitId,
      [serviceName, customerId, rateLimitId].all isPostgresText = true →
      Paginates (fun token snapshot => LimitRepository.list snapshot.conditions serviceName
          customerId rateLimitId (LimitValidator.clampPageSize requested).toNat token
          snapshot.database) LimitRow.configId (· ≤ ·)
        (fun database => database.limits.filter
          (LimitRepository.selects serviceName customerId rateLimitId)) LimitTable) ∧
    (∀ allowed isAdmin, (if isAdmin then [] else allowed).all isPostgresText = true →
      Paginates (fun token snapshot => ServiceRepository.list backend snapshot.conditions
          (LimitValidator.clampPageSize requested).toNat token allowed isAdmin snapshot.database)
        ServiceRow.serviceName (fun first second => backend.textLe first second = true)
        (fun database => database.services.filter
          (ServiceRepository.selects allowed isAdmin)) ServiceTable) ∧
    (∀ serviceName key configId since bound,
      AuditRepository.Binds backend serviceName key since bound →
      Paginates (fun token snapshot => AuditRepository.list backend snapshot.conditions serviceName
          key configId since (LimitValidator.clampPageSize requested).toNat token
          snapshot.database) AuditRow.auditId (fun first second => second ≤ first)
        (fun database => database.audit.filter
          (AuditRepository.Filters.selects ⟨serviceName, key, configId, bound⟩))
        (fun database => AuditTable database ∧
          ∀ row ∈ database.audit, row.auditId ≠ 2 ^ 63 - 1)) := by
  have positive := LimitValidator.clampPageSize_pos requested
  refine ⟨?_, ?_, ?_⟩
  · intro serviceName customerId rateLimitId texts
    exact LimitRepository.paginates texts positive
  · intro allowed isAdmin texts
    exact ServiceRepository.paginates emptyLeast texts positive
  · intro serviceName key configId since bound binds
    exact AuditRepository.paginates binds configId positive

end Listings

section Sample

def pagedTables : Database where
  services := [⟨"search", "Search", "search-team"⟩]
  limits := [⟨1, "search", "acme", "query", 10, .minute⟩]
  audit := [⟨1, 1, .insert, none, some (Jsonb.ofRow ⟨1, "search", "acme", "query", 10, .minute⟩),
    "alice@corp", 5⟩]
  nextConfigId := 2
  nextAuditId := 2

/-- The row that draws the last identity of the audit. -/
def lastAuditRow : AuditRow :=
  ⟨2 ^ 63 - 1, 1, .insert, none,
    some (Jsonb.ofRow ⟨1, "search", "acme", "query", 10, .minute⟩), "alice@corp", 5⟩

def lastAuditTables : Database :=
  { pagedTables with audit := [lastAuditRow] }

theorem listings_paginate_search :
    LimitTable pagedTables ∧ ServiceTable pagedTables ∧ AuditTable pagedTables ∧
    Paginates (fun token snapshot => LimitRepository.list snapshot.conditions "search" "acme" ""
        10 token snapshot.database) LimitRow.configId (· ≤ ·)
      (fun database => database.limits.filter (LimitRepository.selects "search" "acme" ""))
      LimitTable ∧
    Paginates (fun token snapshot => ServiceRepository.list sampleBackend snapshot.conditions 10
        token ["search"] false snapshot.database) ServiceRow.serviceName
      (fun first second => sampleBackend.textLe first second = true)
      (fun database => database.services.filter (ServiceRepository.selects ["search"] false))
      ServiceTable ∧
    Paginates (fun token snapshot => AuditRepository.list sampleBackend snapshot.conditions
        "search" (some ⟨"search", "acme", "query"⟩) (some 1) (some (0, 2000)) 10 token
        snapshot.database) AuditRow.auditId (fun first second => second ≤ first)
      (fun database => database.audit.filter (AuditRepository.Filters.selects
        ⟨"search", some ⟨"search", "acme", "query"⟩, some 1, some 2⟩))
      (fun database => AuditTable database ∧
        ∀ row ∈ database.audit, row.auditId ≠ 2 ^ 63 - 1) := by
  have emptyLeast (text : String) : sampleBackend.textLe "" text = true := by
    apply decide_eq_true
    apply le_of_not_gt
    intro below
    exact List.not_lex_nil (String.lt_iff_toList_lt.mp below)
  rcases listings_paginate sampleBackend emptyLeast 10 with ⟨limits, services, audit⟩
  refine ⟨by decide +kernel, by decide +kernel, by decide +kernel, ?_, ?_, ?_⟩
  · exact limits "search" "acme" "" (by decide +kernel)
  · exact services ["search"] false (by decide +kernel)
  · exact audit "search" _ (some 1) (some (0, 2000)) (some 2) ⟨by decide +kernel, rfl, rfl⟩

theorem listings_not_paginate :
    ¬ Paginates (fun token snapshot => LimitRepository.list snapshot.conditions "search" "\x00" ""
        10 token snapshot.database) LimitRow.configId (· ≤ ·)
      (fun database => database.limits.filter (LimitRepository.selects "search" "\x00" ""))
      LimitTable ∧
    ¬ Paginates (fun token snapshot => AuditRepository.list sampleBackend snapshot.conditions
        "search" none none none 10 token snapshot.database) AuditRow.auditId
      (fun first second => second ≤ first)
      (fun database => database.audit.filter (AuditRepository.Filters.selects
        ⟨"search", none, none, none⟩)) AuditTable := by
  constructor
  · intro paginates
    rcases paginates.static ⟨0, fun _ => none⟩ pagedTables ⟨rfl, rfl⟩ (by decide +kernel) with
      ⟨count, rows, walk, _⟩
    rcases walk.first with ⟨snapshot, mem, page, answered, _⟩
    rw [List.eq_of_mem_replicate mem] at answered
    cases answered
  · intro paginates
    rcases paginates.static ⟨0, fun _ => none⟩ lastAuditTables ⟨rfl, rfl⟩ (by decide +kernel) with
      ⟨count, rows, walk, _, exactly⟩
    rcases walk.first with ⟨snapshot, mem, page, answered, single⟩
    rw [List.eq_of_mem_replicate mem] at answered
    have page_eq : page = ⟨[], ""⟩ := (Except.ok.inj answered).symm
    rw [single (by rw [page_eq]), page_eq] at exactly
    exact List.not_mem_nil ((exactly lastAuditRow).mpr (by decide +kernel))

end Sample

end RateLimiter.Management
