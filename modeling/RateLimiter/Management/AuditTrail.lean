import Mathlib.Data.List.Chain
import RateLimiter.Lib.Query
import RateLimiter.Management.Accountability

/-!
# The audit trail reconstructs the configuration

`replay` reads the audit table in the order of its ids and applies every entry
to a table of snapshots. `Life` is the history of one config id: it is inserted
once, updated any number of times and possibly deleted, and nothing follows a
deletion. Both are related to `limit_config` by one invariant of the database.
-/

namespace RateLimiter.Management

open Machine Query Database

/-- The effect of one audit entry on a table of snapshots. -/
def replayEntry (rows : List Jsonb) (entry : AuditRow) : List Jsonb :=
  match entry.operation, entry.oldRow, entry.newRow with
  | .insert, _, some new => rows ++ [new]
  | .update, some old, some new => rows.map fun row => if row = old then new else row
  | .delete, some old, _ => rows.filter fun row => row ≠ old
  | _, _, _ => rows

def byAuditId (audit : List AuditRow) : List AuditRow :=
  audit.insertionSort fun first second => first.auditId ≤ second.auditId

def replay (audit : List AuditRow) : List Jsonb :=
  (byAuditId audit).foldl replayEntry []

/-- The history of one config id and the row it leaves. -/
inductive Life : List AuditRow → Option LimitRow → Prop where
  | unborn : Life [] none
  | born {entry : AuditRow} {row : LimitRow} (operation : entry.operation = .insert)
      (oldRow : entry.oldRow = none) (newRow : entry.newRow = some (Jsonb.ofRow row)) :
      Life [entry] (some row)
  | updated {history : List AuditRow} {entry : AuditRow} {old row : LimitRow}
      (earlier : Life history (some old)) (operation : entry.operation = .update)
      (oldRow : entry.oldRow = some (Jsonb.ofRow old))
      (newRow : entry.newRow = some (Jsonb.ofRow row)) (key : row.key = old.key) :
      Life (history ++ [entry]) (some row)
  | deleted {history : List AuditRow} {entry : AuditRow} {old : LimitRow}
      (earlier : Life history (some old)) (operation : entry.operation = .delete)
      (oldRow : entry.oldRow = some (Jsonb.ofRow old)) (newRow : entry.newRow = none) :
      Life (history ++ [entry]) none

/-- An insertion, then updates, then possibly a deletion. -/
def WellShaped (operations : List Operation) : Prop :=
  operations = [] ∨ ∃ updates : ℕ, operations = .insert :: List.replicate updates .update ∨
    operations = .insert :: List.replicate updates .update ++ [.delete]

def NamesTuple (key : LimitKey) (entry : AuditRow) : Prop :=
  ∀ snapshot, entry.oldRow = some snapshot ∨ entry.newRow = some snapshot →
    snapshot.textField "service_name" = some key.serviceName ∧
      snapshot.textField "customer_id" = some key.customerId ∧
      snapshot.textField "rate_limit_id" = some key.rateLimitId

theorem textFields_ofRow {row : LimitRow} {key : LimitKey} (isKey : row.key = key) :
    (Jsonb.ofRow row).textField "service_name" = some key.serviceName ∧
      (Jsonb.ofRow row).textField "customer_id" = some key.customerId ∧
      (Jsonb.ofRow row).textField "rate_limit_id" = some key.rateLimitId := by
  subst key
  exact Jsonb.textField_ofRow row

theorem namesTuple_of_rows {key : LimitKey} {entry : AuditRow} (old row : Option LimitRow)
    (oldRow : entry.oldRow = old.map Jsonb.ofRow) (newRow : entry.newRow = row.map Jsonb.ofRow)
    (oldKey : ∀ before ∈ old, before.key = key) (newKey : ∀ after ∈ row, after.key = key) :
    NamesTuple key entry := by
  rintro snapshot (isOld | isNew)
  · rw [oldRow, Option.map_eq_some_iff] at isOld
    rcases isOld with ⟨before, isBefore, rfl⟩
    exact textFields_ofRow (oldKey before isBefore)
  · rw [newRow, Option.map_eq_some_iff] at isNew
    rcases isNew with ⟨after, isAfter, rfl⟩
    exact textFields_ofRow (newKey after isAfter)

namespace Life

variable {history : List AuditRow} {current : Option LimitRow}

theorem operations_eq (life : Life history current) :
    match current with
    | some _ => ∃ updates : ℕ,
        history.map AuditRow.operation = .insert :: List.replicate updates .update
    | none => history = [] ∨ ∃ updates : ℕ,
        history.map AuditRow.operation = .insert :: List.replicate updates .update ++ [.delete]
    := by
  induction life with
  | unborn => exact Or.inl rfl
  | born operation _ _ => exact ⟨0, by simp [operation]⟩
  | updated _ operation _ _ _ ih =>
      rcases ih with ⟨updates, shape⟩
      refine ⟨updates + 1, ?_⟩
      simp [shape, operation, List.replicate_succ']
  | deleted _ operation _ _ ih =>
      rcases ih with ⟨updates, shape⟩
      exact Or.inr ⟨updates, by simp [shape, operation]⟩

theorem wellShaped (life : Life history current) :
    WellShaped (history.map AuditRow.operation) := by
  have shape := life.operations_eq
  cases current with
  | some row =>
      rcases shape with ⟨updates, shape⟩
      exact Or.inr ⟨updates, Or.inl shape⟩
  | none =>
      rcases shape with rfl | ⟨updates, shape⟩
      · exact Or.inl rfl
      · exact Or.inr ⟨updates, Or.inr shape⟩

/-- The last entry of a history leaves the current row. -/
theorem newRow_getLast? (life : Life history current) :
    ∀ entry, history.getLast? = some entry → entry.newRow = current.map Jsonb.ofRow := by
  intro entry last
  cases life with
  | unborn => simp at last
  | born _ _ newRow =>
      simp only [List.getLast?_singleton, Option.some.injEq] at last
      rw [← last, newRow]
      rfl
  | updated _ _ _ newRow _ =>
      simp only [List.getLast?_concat, Option.some.injEq] at last
      rw [← last, newRow]
      rfl
  | deleted _ _ _ newRow =>
      simp only [List.getLast?_concat, Option.some.injEq] at last
      rw [← last, newRow]
      rfl

theorem isChain_concat {old : LimitRow} {entry : AuditRow} (life : Life history (some old))
    (oldRow : entry.oldRow = some (Jsonb.ofRow old))
    (chained : history.IsChain fun first second => second.oldRow = first.newRow) :
    (history ++ [entry]).IsChain fun first second => second.oldRow = first.newRow := by
  refine List.isChain_append.mpr ⟨chained, List.isChain_singleton _, ?_⟩
  intro first last second isSecond
  simp only [List.head?_cons, Option.mem_def, Option.some.injEq] at isSecond
  rw [← isSecond, oldRow, life.newRow_getLast? first last]
  rfl

theorem isChain (life : Life history current) :
    history.IsChain fun first second => second.oldRow = first.newRow := by
  induction life with
  | unborn => exact List.isChain_nil
  | born _ _ _ => exact List.isChain_singleton _
  | updated earlier _ oldRow _ _ ih => exact earlier.isChain_concat oldRow ih
  | deleted earlier _ oldRow _ ih => exact earlier.isChain_concat oldRow ih

/-- One tuple runs through the whole history. -/
theorem namesTuple (life : Life history current) :
    ∃ key, (∀ row ∈ current, row.key = key) ∧ ∀ entry ∈ history, NamesTuple key entry := by
  induction life with
  | unborn => exact ⟨⟨"", "", ""⟩, by simp, by simp⟩
  | @born entry row _ oldRow newRow =>
      refine ⟨row.key, by simp, List.forall_mem_singleton.mpr ?_⟩
      exact namesTuple_of_rows none (some row) oldRow newRow (by simp) (by simp)
  | @updated history entry old row _ _ oldRow newRow sameKey ih =>
      rcases ih with ⟨key, isKey, names⟩
      have oldKey := isKey old rfl
      have newKey := sameKey.trans oldKey
      refine ⟨key, by simpa using newKey,
        List.forall_mem_append.mpr ⟨names, List.forall_mem_singleton.mpr ?_⟩⟩
      exact namesTuple_of_rows (some old) (some row) oldRow newRow (by simpa using oldKey)
        (by simpa using newKey)
  | @deleted history entry old _ _ oldRow newRow ih =>
      rcases ih with ⟨key, isKey, names⟩
      refine ⟨key, by simp, List.forall_mem_append.mpr ⟨names, List.forall_mem_singleton.mpr ?_⟩⟩
      exact namesTuple_of_rows (some old) none oldRow newRow isKey (by simp)

end Life

theorem TimeUnitLabel.text_injective : Function.Injective TimeUnitLabel.text := by
  intro first second
  cases first <;> cases second <;> decide

theorem Jsonb.ofRow_injective : Function.Injective Jsonb.ofRow := by
  intro first second equal
  simp only [Jsonb.ofRow, List.cons.injEq, Prod.mk.injEq, JsonValue.number.injEq,
    JsonValue.text.injEq, true_and, and_true] at equal
  rcases equal with ⟨ids, services, customers, rateLimits, values, units⟩
  exact LimitRow.ext ids services customers rateLimits values
    (TimeUnitLabel.text_injective units)

def historyOf (audit : List AuditRow) (configId : ℤ) : List AuditRow :=
  audit.filter fun entry => entry.configId = configId

def rowOf (limits : List LimitRow) (configId : ℤ) : Option LimitRow :=
  limits.find? fun row => row.configId = configId

theorem historyOf_concat (audit : List AuditRow) (entry : AuditRow) (configId : ℤ) :
    historyOf (audit ++ [entry]) configId =
      if entry.configId = configId then historyOf audit configId ++ [entry]
      else historyOf audit configId := by
  by_cases same : entry.configId = configId
  · simp [historyOf, same]
  · simp [historyOf, same]

/-- The invariant that ties the audit table to `limit_config`. -/
structure Traced (database : Database) : Prop where
  configIds : ∀ row ∈ database.limits, row.configId < database.nextConfigId
  distinct : Keyed LimitRow.configId database.limits
  auditIds : ∀ entry ∈ database.audit, entry.auditId < database.nextAuditId
  ordered : database.audit.Pairwise fun first second => first.auditId < second.auditId
  drawn : ∀ entry ∈ database.audit, entry.configId < database.nextConfigId
  replayed : database.audit.foldl replayEntry [] = database.limits.map Jsonb.ofRow
  lives : ∀ configId, Life (historyOf database.audit configId) (rowOf database.limits configId)

namespace Traced

variable {before after : Database}

theorem empty : Traced .empty where
  configIds := by simp [Database.empty]
  distinct := List.Pairwise.nil
  auditIds := by simp [Database.empty]
  ordered := List.Pairwise.nil
  drawn := by simp [Database.empty]
  replayed := rfl
  lives _ := .unborn

/-- Nothing but the services and the drawn identity values changes. -/
theorem of_same (traced : Traced before) (grown : Grown before after)
    (limits : after.limits = before.limits) (audit : after.audit = before.audit) :
    Traced after where
  configIds row mem := (traced.configIds row (limits ▸ mem)).trans_le grown.configIds
  distinct := by
    rw [limits]
    exact traced.distinct
  auditIds entry mem := (traced.auditIds entry (audit ▸ mem)).trans_le grown.auditIds
  ordered := by
    rw [audit]
    exact traced.ordered
  drawn entry mem := (traced.drawn entry (audit ▸ mem)).trans_le grown.configIds
  replayed := by
    rw [limits, audit]
    exact traced.replayed
  lives := by
    rw [limits, audit]
    exact traced.lives

theorem byAuditId_eq (traced : Traced before) : byAuditId before.audit = before.audit :=
  List.Pairwise.insertionSort_eq (traced.ordered.imp le_of_lt)

theorem ordered_concat (traced : Traced before) {entry : AuditRow}
    (isNext : entry.auditId = before.nextAuditId) :
    (before.audit ++ [entry]).Pairwise fun first second => first.auditId < second.auditId := by
  refine List.pairwise_append.mpr ⟨traced.ordered, List.pairwise_singleton _ _, ?_⟩
  intro first mem second isSecond
  cases List.mem_singleton.mp isSecond
  rw [isNext]
  exact traced.auditIds first mem

theorem auditIds_concat (traced : Traced before) {entry : AuditRow} (grown : Grown before after)
    (below : entry.auditId < after.nextAuditId) :
    ∀ other ∈ before.audit ++ [entry], other.auditId < after.nextAuditId := by
  intro other mem
  rcases List.mem_append.mp mem with earlier | here
  · exact (traced.auditIds other earlier).trans_le grown.auditIds
  · cases List.mem_singleton.mp here
    exact below

theorem drawn_concat (traced : Traced before) {entry : AuditRow} (grown : Grown before after)
    (below : entry.configId < after.nextConfigId) :
    ∀ other ∈ before.audit ++ [entry], other.configId < after.nextConfigId := by
  intro other mem
  rcases List.mem_append.mp mem with earlier | here
  · exact (traced.drawn other earlier).trans_le grown.configIds
  · cases List.mem_singleton.mp here
    exact below

/-- A write appends one entry; what is left to check is the rows. -/
theorem logged (traced : Traced before) {entry : AuditRow} (grown : Grown before after)
    (audit : after.audit = before.audit ++ [entry]) (isNext : entry.auditId = before.nextAuditId)
    (advanced : before.nextAuditId < after.nextAuditId)
    (drawn : entry.configId < after.nextConfigId)
    (configIds : ∀ row ∈ after.limits, row.configId < after.nextConfigId)
    (distinct : Keyed LimitRow.configId after.limits)
    (replayed : replayEntry (before.limits.map Jsonb.ofRow) entry =
      after.limits.map Jsonb.ofRow)
    (lives : ∀ configId, Life
      (if entry.configId = configId then historyOf before.audit configId ++ [entry]
        else historyOf before.audit configId) (rowOf after.limits configId)) :
    Traced after where
  configIds := configIds
  distinct := distinct
  auditIds := by
    rw [audit]
    exact traced.auditIds_concat grown (isNext ▸ advanced)
  ordered := by
    rw [audit]
    exact traced.ordered_concat isNext
  drawn := by
    rw [audit]
    exact traced.drawn_concat grown drawn
  replayed := by
    rw [audit, List.foldl_append, traced.replayed]
    exact replayed
  lives configId := by
    rw [audit, historyOf_concat]
    exact lives configId

section Effects

variable {actor : String} {now : ℤ} {old row : LimitRow}

theorem inserted (traced : Traced before) (effect : Inserted actor now row before after) :
    Traced after := by
  have bounded : row.configId < after.nextConfigId := by
    rw [effect.configId]
    exact effect.advanced
  have unused : historyOf before.audit row.configId = [] := by
    apply List.filter_eq_nil_iff.mpr
    intro entry mem
    have := traced.drawn entry mem
    have := effect.configId
    simp only [decide_eq_true_eq]
    omega
  have fresh : ∀ other ∈ before.limits, other.configId ≠ row.configId := by
    intro other mem
    have := traced.configIds other mem
    have := effect.configId
    omega
  apply traced.logged effect.toGrown effect.audit rfl effect.auditAdvanced bounded
  · intro other mem
    rw [effect.limits] at mem
    rcases List.mem_append.mp mem with earlier | here
    · exact (traced.configIds other earlier).trans_le effect.configIds
    · cases List.mem_singleton.mp here
      exact bounded
  · rw [effect.limits]
    exact traced.distinct.concat fresh
  · rw [effect.limits, List.map_append]
    rfl
  · intro configId
    rw [effect.limits, rowOf, Query.find?_concat fresh]
    by_cases here : row.configId = configId
    · subst configId
      simp only [if_true, unused]
      exact .born rfl rfl rfl
    · simp only [here, if_false]
      exact traced.lives configId

theorem updated (traced : Traced before) (effect : Updated actor now old row before after) :
    Traced after := by
  rcases key_of_findLimit effect.found with ⟨_, oldMem⟩
  have bounded : old.configId < before.nextConfigId := traced.configIds old oldMem
  have keepsId : ∀ other : LimitRow,
      (if other = old then row else other).configId = other.configId := by
    intro other
    split
    · rename_i isOld
      rw [isOld, effect.configId]
    · rfl
  have drawn : row.configId < after.nextConfigId := by
    rw [effect.configId]
    exact bounded.trans_le effect.configIds
  apply traced.logged effect.toGrown effect.audit rfl effect.auditAdvanced drawn
  · intro other mem
    rw [effect.limits] at mem
    rcases List.mem_map.mp mem with ⟨source, sourceMem, rfl⟩
    rw [keepsId]
    exact (traced.configIds source sourceMem).trans_le effect.configIds
  · rw [effect.limits]
    exact traced.distinct.map keepsId
  · rw [effect.limits]
    simp only [replayEntry, List.map_map]
    apply List.map_congr_left
    intro other _
    simp only [Function.comp_apply, Jsonb.ofRow_injective.eq_iff]
    split <;> rfl
  · intro configId
    rw [effect.limits, rowOf,
      Query.find?_replace traced.distinct oldMem effect.configId]
    by_cases here : row.configId = configId
    · have life := traced.lives configId
      have isOld : rowOf before.limits configId = some old := by
        rw [← here, effect.configId]
        exact Query.find?_of_mem traced.distinct oldMem
      rw [isOld] at life
      simp only [here, if_true]
      exact .updated life rfl rfl rfl effect.key
    · simp only [here, if_false]
      exact traced.lives configId

theorem deleted (traced : Traced before) (effect : Deleted actor now old before after) :
    Traced after := by
  rcases key_of_findLimit effect.found with ⟨_, oldMem⟩
  have bounded : old.configId < before.nextConfigId := traced.configIds old oldMem
  apply traced.logged effect.toGrown effect.audit rfl effect.auditAdvanced
    (bounded.trans_le effect.configIds)
  · intro other mem
    rw [effect.limits] at mem
    exact (traced.configIds other (List.mem_filter.mp mem).1).trans_le effect.configIds
  · rw [effect.limits]
    exact traced.distinct.filter _
  · rw [effect.limits]
    simp only [replayEntry, List.filter_map]
    refine congrArg (List.map Jsonb.ofRow) (List.filter_congr fun other _ => ?_)
    simp only [Function.comp_apply, ne_eq, Jsonb.ofRow_injective.eq_iff]
  · intro configId
    rw [effect.limits, rowOf,
      Query.find?_remove traced.distinct oldMem]
    by_cases here : old.configId = configId
    · subst configId
      have life := traced.lives old.configId
      have isOld : rowOf before.limits old.configId = some old :=
        Query.find?_of_mem traced.distinct oldMem
      rw [isOld] at life
      simp only [if_true]
      exact .deleted life rfl rfl rfl
    · simp only [here, if_false]
      exact traced.lives configId

end Effects

theorem of_accepted {principal : Principal} {now : ℤ} {request : WriteRequest}
    (traced : Traced before) (accepted : Accepted principal now before after request) :
    Traced after := by
  cases accepted with
  | missing same => exact traced.of_same same.toGrown same.limits same.audit
  | registered _ effect => exact traced.of_same effect.toGrown effect.limits effect.audit
  | inserted _ _ effect => exact traced.inserted effect
  | updated _ _ effect => exact traced.updated effect
  | deleted _ _ effect => exact traced.deleted effect

theorem run (backend : Backend) {start : ControlPlane} (traced : Traced start.database)
    (calls : List AdminCall) : Traced (planeAfter backend start calls).database := by
  apply planeAfter_invariant backend start Traced traced
  · intro before after same traced
    exact traced.of_same same.toGrown same.limits same.audit
  · intro principal now before after request accepted traced
    exact traced.of_accepted accepted

end Traced

/-- What the entries of one config id look like in the order of their ids. -/
structure LawfulHistory (history : List AuditRow) : Prop where
  shape : WellShaped (history.map AuditRow.operation)
  chained : history.IsChain fun first second => second.oldRow = first.newRow
  oneTuple : ∃ key, ∀ entry ∈ history, NamesTuple key entry

theorem Life.lawful {history : List AuditRow} {current : Option LimitRow}
    (life : Life history current) : LawfulHistory history := by
  rcases life.namesTuple with ⟨key, _, names⟩
  exact ⟨life.wellShaped, life.isChain, key, names⟩

/-- Replaying the audit table in the order of its ids gives `limit_config`, and the entries of
each config id form a lawful history. -/
theorem audit_reconstructs_limits (backend : Backend) (pool : ℕ → Connection)
    (calls : List AdminCall) :
    replay (planeAfter backend ⟨pool, .empty⟩ calls).database.audit =
        (planeAfter backend ⟨pool, .empty⟩ calls).database.limits.map Jsonb.ofRow ∧
      ∀ configId, LawfulHistory (historyOf
        (byAuditId (planeAfter backend ⟨pool, .empty⟩ calls).database.audit) configId) := by
  have traced : Traced (planeAfter backend ⟨pool, .empty⟩ calls).database :=
    Traced.run backend Traced.empty calls
  constructor
  · rw [replay, traced.byAuditId_eq]
    exact traced.replayed
  · intro configId
    rw [traced.byAuditId_eq]
    exact (traced.lives configId).lawful

end RateLimiter.Management
