import RateLimiter.Management.Resolution

/-!
# What the tables say of one service

A write touches its own service only. The ids of limits and of audit rows are
drawn from sequences that all services share; but for these ids, a statement
about a service does the same on any two databases that show the same of it.
-/

namespace RateLimiter.Management

open Query Database

/-- The service that a write is about. -/
def WriteRequest.serviceName : WriteRequest → String
  | .createLimit key _ _ => key.serviceName
  | .updateLimit key _ _ _ => key.serviceName
  | .deleteLimit key _ => key.serviceName
  | .registerService service => service.serviceName

/-- All that the tables say of a service is as it was. -/
structure Untouched (serviceName : String) (before after : Database) : Prop where
  services : (after.services.filter fun row => row.serviceName = serviceName) =
    before.services.filter fun row => row.serviceName = serviceName
  limits : (after.limits.filter fun row => row.serviceName = serviceName) =
    before.limits.filter fun row => row.serviceName = serviceName
  audit : (after.audit.filter fun row => row.snapshotField "service_name" = some serviceName) =
    before.audit.filter fun row => row.snapshotField "service_name" = some serviceName

section Steps

variable {serviceName : String} {before middle after : Database}

theorem Untouched.trans (first : Untouched serviceName before middle)
    (second : Untouched serviceName middle after) : Untouched serviceName before after :=
  ⟨second.services.trans first.services, second.limits.trans first.limits,
    second.audit.trans first.audit⟩

theorem untouched_of_same (same : SameTables before after) :
    Untouched serviceName before after := by
  refine ⟨?_, ?_, ?_⟩
  · rw [same.services]
  · rw [same.limits]
  · rw [same.audit]

theorem filter_replace {keeps : LimitRow → Bool} {old row : LimitRow} (oldOut : keeps old = false)
    (rowOut : keeps row = false) (rows : List LimitRow) :
    (rows.map fun other => if other = old then row else other).filter keeps =
      rows.filter keeps := by
  induction rows with
  | nil => rfl
  | cons other rest ih =>
      by_cases isOld : other = old
      · subst other
        simp [rowOut, oldOut, ih]
      · simp only [List.map_cons, isOld, if_false, List.filter_cons, ih]

theorem serviceName_of_limitKey? {request : WriteRequest} {key : LimitKey}
    (isKey : request.limitKey? = some key) : request.serviceName = key.serviceName := by
  cases request with
  | createLimit other limitValue timeUnit =>
      obtain rfl : other = key := Option.some.inj isKey
      rfl
  | updateLimit other limitValue timeUnit createIfAbsent =>
      obtain rfl : other = key := Option.some.inj isKey
      rfl
  | deleteLimit other allowMissing =>
      obtain rfl : other = key := Option.some.inj isKey
      rfl
  | registerService service => cases isKey

/-- A write leaves alone every service but its own. -/
theorem untouched_of_elsewhere {principal : Principal} {now : ℤ} {request : WriteRequest}
    (accepted : Accepted principal now before after request)
    (elsewhere : request.serviceName ≠ serviceName) :
    Untouched serviceName before after := by
  cases accepted with
  | missing same => exact untouched_of_same same
  | registered _ effect =>
      refine ⟨?_, by rw [effect.limits], by rw [effect.audit]⟩
      rw [effect.services, List.filter_append]
      simpa [WriteRequest.serviceName] using elsewhere
  | @inserted _ row isLimit _ effect =>
      have other : row.serviceName ≠ serviceName := fun here =>
        elsewhere ((serviceName_of_limitKey? isLimit).trans here)
      refine ⟨by rw [effect.services], ?_, ?_⟩
      · rw [effect.limits, List.filter_append]
        simp [other]
      · rw [effect.audit, List.filter_append]
        simp [AuditRow.snapshotField, other]
  | @updated _ old row isLimit _ effect =>
      have other : row.serviceName ≠ serviceName := fun here =>
        elsewhere ((serviceName_of_limitKey? isLimit).trans here)
      have sameService : row.serviceName = old.serviceName :=
        congrArg LimitKey.serviceName effect.key
      refine ⟨by rw [effect.services], ?_, ?_⟩
      · rw [effect.limits]
        apply filter_replace
        · simpa [← sameService] using other
        · simpa using other
      · rw [effect.audit, List.filter_append]
        simp [AuditRow.snapshotField, other]
  | @deleted _ old isLimit _ effect =>
      have other : old.serviceName ≠ serviceName := fun here =>
        elsewhere ((serviceName_of_limitKey? isLimit).trans here)
      refine ⟨by rw [effect.services], ?_, ?_⟩
      · rw [effect.limits, List.filter_filter]
        apply List.filter_congr
        intro row _
        by_cases isOld : row = old
        · subst row
          simp [other]
        · simp [isOld]
      · rw [effect.audit, List.filter_append]
        simp [AuditRow.snapshotField, other]

end Steps

def withoutId (row : LimitRow) : LimitRow := { row with configId := 0 }

def Jsonb.withoutId (object : Jsonb) : Jsonb := object.filter fun field => field.1 ≠ "id"

def AuditRow.withoutIds (row : AuditRow) : AuditRow :=
  { row with
    auditId := 0
    configId := 0
    oldRow := row.oldRow.map Jsonb.withoutId
    newRow := row.newRow.map Jsonb.withoutId }

def AdminResponse.withoutIds : AdminResponse → AdminResponse
  | .limit shown => .limit { shown with configId := 0 }
  | .resolvedLimit shown isDefault => .resolvedLimit { shown with configId := 0 } isDefault
  | response => response

/-- What the tables say of a service, but for the ids. -/
@[ext]
structure ServiceView where
  services : List ServiceRow
  limits : List LimitRow
  audit : List AuditRow
deriving DecidableEq

def viewOf (serviceName : String) (database : Database) : ServiceView where
  services := database.services.filter fun row => row.serviceName = serviceName
  limits := (database.limits.map withoutId).filter fun row => row.serviceName = serviceName
  audit := (database.audit.map AuditRow.withoutIds).filter fun row =>
    row.snapshotField "service_name" = some serviceName

@[simp]
theorem serviceName_withoutId (row : LimitRow) : (withoutId row).serviceName = row.serviceName :=
  rfl

@[simp]
theorem key_withoutId (row : LimitRow) : (withoutId row).key = row.key := rfl

@[simp]
theorem matchesResolve_withoutId (key : LimitKey) (row : LimitRow) :
    LimitRepository.matchesResolve key (withoutId row) = LimitRepository.matchesResolve key row :=
  rfl

@[simp]
theorem snapshotField_withoutIds (row : AuditRow) :
    row.withoutIds.snapshotField "service_name" = row.snapshotField "service_name" := by
  have kept : ∀ object : Jsonb,
      object.withoutId.textField "service_name" = object.textField "service_name" := by
    intro object
    simp only [Jsonb.textField, Jsonb.withoutId, List.find?_filter]
    congr 2
    funext field
    by_cases named : field.1 = "service_name"
    · simp [named]
    · simp [named]
  simp only [AuditRow.snapshotField, AuditRow.withoutIds, Option.bind_map, Function.comp_def, kept]

theorem viewOf_untouched {serviceName : String} {before after : Database}
    (untouched : Untouched serviceName before after) :
    viewOf serviceName after = viewOf serviceName before := by
  simp only [viewOf, List.filter_map, ServiceView.mk.injEq]
  refine ⟨untouched.services, ?_, ?_⟩
  · exact congrArg (List.map withoutId) untouched.limits
  · simp only [Function.comp_def, snapshotField_withoutIds]
    exact congrArg (List.map AuditRow.withoutIds) untouched.audit

section Views

variable {serviceName : String} {database : Database} {key : LimitKey}

theorem find?_services :
    database.services.find? (fun row => row.serviceName = serviceName) =
      (viewOf serviceName database).services.find? fun row => row.serviceName = serviceName := by
  simp [viewOf, List.find?_filter]

theorem any_services :
    (database.services.any fun row => row.serviceName = serviceName) =
      (viewOf serviceName database).services.any fun row => row.serviceName = serviceName := by
  simp [viewOf, List.any_filter]

theorem findLimit_view (isKey : key.serviceName = serviceName) :
    (database.findLimit key).map withoutId =
      (viewOf serviceName database).limits.find? fun row => row.key = key := by
  simp only [viewOf, List.find?_filter, List.find?_map, findLimit]
  congr 2
  funext row
  by_cases same : row.key = key
  · have inService : row.serviceName = serviceName := by
      rw [← isKey, ← same]
      rfl
    simp [same, inService]
  · simp [same]

/-- The order of the default behind the others does not read ids. -/
theorem resolve_view (isKey : key.serviceName = serviceName) :
    ((database.limits.filter (LimitRepository.matchesResolve key)).insertionSort
        fun first second => first.isDefault ≤ second.isDefault).head?.map withoutId =
      (((viewOf serviceName database).limits.filter
        (LimitRepository.matchesResolve key)).insertionSort
          fun first second => first.isDefault ≤ second.isDefault).head? := by
  have matched : (viewOf serviceName database).limits.filter (LimitRepository.matchesResolve key) =
      (database.limits.filter (LimitRepository.matchesResolve key)).map withoutId := by
    simp only [viewOf, List.filter_filter, List.filter_map]
    congr 2
    funext row
    by_cases inService : row.serviceName = key.serviceName
    · simp [← isKey, inService]
    · simp [LimitRepository.matchesResolve, inService]
  rw [matched, ← List.head?_map]
  congr 1
  apply List.map_insertionSort
  intro first _ second _
  rfl

/-- So do the caps of a service. -/
theorem resolution_eq_of_view {first second : Database} (isKey : key.serviceName = serviceName)
    (same : (viewOf serviceName first).limits = (viewOf serviceName second).limits) :
    Enforcer.resolution first.limits key = Enforcer.resolution second.limits key := by
  have rows : (Enforcer.lookupRow first.limits key).map withoutId =
      (Enforcer.lookupRow second.limits key).map withoutId := by
    refine (resolve_view isKey).trans ?_
    rw [same]
    exact (resolve_view isKey).symm
  have shown : ∀ table : List LimitRow, Enforcer.resolution table key =
      (((Enforcer.lookupRow table key).map withoutId).map fun row =>
        Enforcer.Resolved.configured
          ⟨row.limitValue, Enforcer.parseTimeUnit row.timeUnit.text⟩).getD .unconfigured := by
    intro table
    simp only [Enforcer.resolution]
    cases Enforcer.lookupRow table key with
    | none => rfl
    | some row => rfl
  rw [shown, shown, rows]

/-- What the enforcers read of an untouched service is as it was. -/
theorem Untouched.resolution {before after : Database}
    (untouched : Untouched serviceName before after) (isKey : key.serviceName = serviceName) :
    Enforcer.resolution after.limits key = Enforcer.resolution before.limits key :=
  resolution_eq_of_view isKey (congrArg ServiceView.limits (viewOf_untouched untouched))

end Views

/-- Two databases that show the same of a service. -/
structure Alike (serviceName : String) (first second : Database) : Prop where
  services : (viewOf serviceName first).services = (viewOf serviceName second).services
  limits : (viewOf serviceName first).limits = (viewOf serviceName second).limits
  audit : (viewOf serviceName first).audit = (viewOf serviceName second).audit
  firstTuples : Keyed LimitRow.key first.limits
  secondTuples : Keyed LimitRow.key second.limits

/-- Two outcomes with the same error, or with values that belong together, that show the same of
a service. -/
inductive Matched {ε α : Type} (serviceName : String) (same : α → α → Prop) :
    Except ε α × Database → Except ε α × Database → Prop where
  | error (error : ε) {first second : Database} (tables : Alike serviceName first second) :
      Matched serviceName same (.error error, first) (.error error, second)
  | ok {value other : α} {first second : Database} (related : same value other)
      (tables : Alike serviceName first second) :
      Matched serviceName same (.ok value, first) (.ok other, second)

def SameRow (first second : LimitRow) : Prop := withoutId first = withoutId second

theorem SameRow.key {first second : LimitRow} (same : SameRow first second) :
    first.key = second.key := by
  rw [← key_withoutId first, ← key_withoutId second, show withoutId first = withoutId second
    from same]

theorem SameRow.set {first second : LimitRow} (same : SameRow first second) (limitValue : ℤ)
    (label : TimeUnitLabel) :
    SameRow { first with limitValue := limitValue, timeUnit := label }
      { second with limitValue := limitValue, timeUnit := label } := by
  simp only [SameRow, withoutId, LimitRow.mk.injEq] at same ⊢
  exact ⟨trivial, same.2.1, same.2.2.1, same.2.2.2.1, trivial, trivial⟩

section Statements

variable {serviceName : String} {first second : Database} {key : LimitKey}
  {actor : Option String} {now : ℤ}

theorem findLimit_alike (alike : Alike serviceName first second)
    (isKey : key.serviceName = serviceName) :
    (first.findLimit key = none ∧ second.findLimit key = none) ∨
      ∃ row other, first.findLimit key = some row ∧ second.findLimit key = some other ∧
        SameRow row other := by
  have same : (first.findLimit key).map withoutId = (second.findLimit key).map withoutId := by
    rw [findLimit_view isKey, findLimit_view isKey, alike.limits]
  cases found : first.findLimit key with
  | none =>
      rw [found] at same
      exact Or.inl ⟨rfl, Option.map_eq_none_iff.mp same.symm⟩
  | some row =>
      rw [found] at same
      rcases Option.map_eq_some_iff.mp same.symm with ⟨other, isOther, sameRow⟩
      exact Or.inr ⟨row, other, rfl, isOther, sameRow.symm⟩

theorem Alike.drawn (alike : Alike serviceName first second) (firstId secondId : ℤ) :
    Alike serviceName { first with nextConfigId := firstId }
      { second with nextConfigId := secondId } :=
  ⟨alike.services, alike.limits, alike.audit, alike.firstTuples, alike.secondTuples⟩

theorem Alike.rollback (alike : Alike serviceName first second) (firstRest secondRest : Database) :
    Alike serviceName (first.rollback firstRest) (second.rollback secondRest) :=
  ⟨alike.services, alike.limits, alike.audit, alike.firstTuples, alike.secondTuples⟩

theorem ofRow_withoutId (row : LimitRow) :
    (Jsonb.ofRow row).withoutId = (Jsonb.ofRow (withoutId row)).withoutId := by
  simp [Jsonb.withoutId, Jsonb.ofRow, withoutId]

/-- The snapshots of two rows differ in the ids only. -/
theorem snapshot_alike {row other : Option LimitRow}
    (same : row.map withoutId = other.map withoutId) :
    (row.map Jsonb.ofRow).map Jsonb.withoutId = (other.map Jsonb.ofRow).map Jsonb.withoutId := by
  have snapshot : ∀ found : Option LimitRow, (found.map Jsonb.ofRow).map Jsonb.withoutId =
      (found.map withoutId).map fun shown => (Jsonb.ofRow shown).withoutId := by
    intro found
    cases found with
    | none => rfl
    | some shown => exact congrArg some (ofRow_withoutId shown)
  rw [snapshot, snapshot, same]

theorem fire_alike {operation : Operation} {firstId secondId : ℤ}
    {firstOld secondOld firstNew secondNew : Option LimitRow}
    {firstWritten secondWritten : Database}
    (old : firstOld.map withoutId = secondOld.map withoutId)
    (new : firstNew.map withoutId = secondNew.map withoutId)
    (unwritten : Alike serviceName first second)
    (written : Alike serviceName firstWritten secondWritten) :
    Matched serviceName Eq
      (fire actor now operation firstId firstOld firstNew first firstWritten)
      (fire actor now operation secondId secondOld secondNew second secondWritten) := by
  cases actor with
  | none => exact .error _ unwritten
  | some actor =>
      simp only [fire, limitConfigAuditWrite]
      by_cases unset : actor = ""
      · simp only [unset, if_true]
        exact .error _ unwritten
      · simp only [unset, if_false]
        refine .ok rfl ⟨written.services, written.limits, ?_, written.firstTuples,
          written.secondTuples⟩
        have audit := written.audit
        simp only [viewOf, List.map_append, List.filter_append, List.map_cons, List.map_nil,
          AuditRow.withoutIds, snapshot_alike old, snapshot_alike new] at audit ⊢
        rw [audit]

theorem keyed_append {row : LimitRow} (tuples : Keyed LimitRow.key first.limits)
    (fresh : first.findLimit row.key = none) : Keyed LimitRow.key (first.limits ++ [row]) := by
  apply tuples.concat
  intro other mem
  simpa using List.find?_eq_none.mp fresh other mem

/-- A new row, under whatever id. -/
theorem insertRow_alike {row other : LimitRow} (alike : Alike serviceName first second)
    (same : SameRow row other) (isService : row.serviceName = serviceName)
    (firstFresh : first.findLimit row.key = none)
    (secondFresh : second.findLimit other.key = none) :
    Matched serviceName SameRow (insertRow actor now row first)
      (insertRow actor now other second) := by
  have otherService : other.serviceName = serviceName :=
    (congrArg LimitKey.serviceName same.key).symm.trans isService
  have written : Alike serviceName { first with limits := first.limits ++ [row] }
      { second with limits := second.limits ++ [other] } := by
    refine ⟨alike.services, ?_, alike.audit, keyed_append alike.firstTuples firstFresh,
      keyed_append alike.secondTuples secondFresh⟩
    have limits := alike.limits
    simp only [viewOf, List.map_append, List.filter_append, List.map_cons, List.map_nil,
      show withoutId row = withoutId other from same] at limits ⊢
    rw [limits]
  have fired : Matched serviceName Eq
      (fire actor now .insert row.configId none (some row) first
        { first with limits := first.limits ++ [row] })
      (fire actor now .insert other.configId none (some other) second
        { second with limits := second.limits ++ [other] }) :=
    fire_alike rfl (congrArg some same) alike written
  simp only [insertRow, isService, otherService, any_services, alike.services]
  split
  · generalize fire actor now .insert row.configId none (some row) first
      { first with limits := first.limits ++ [row] } = ran at fired
    generalize fire actor now .insert other.configId none (some other) second
      { second with limits := second.limits ++ [other] } = otherRan at fired
    cases fired with
    | error error tables => exact .error _ tables
    | ok _ tables => exact .ok same tables
  · exact .error _ alike

/-- A row in the place of the one with its tuple. -/
theorem replaced_view {database : Database} {old row : LimitRow}
    (tuples : Keyed LimitRow.key database.limits) (mem : old ∈ database.limits)
    (sameKey : row.key = old.key) :
    (viewOf serviceName { database with
        limits := database.limits.map fun other => if other = old then row else other }).limits =
      (viewOf serviceName database).limits.map fun shown =>
        if shown.key = old.key then withoutId row else shown := by
  have sameService : row.serviceName = old.serviceName := congrArg LimitKey.serviceName sameKey
  simp only [viewOf, List.map_map, List.filter_map]
  have kept : ((fun shown : LimitRow => decide (shown.serviceName = serviceName)) ∘
        (withoutId ∘ fun other => if other = old then row else other)) =
      (fun shown : LimitRow => decide (shown.serviceName = serviceName)) ∘ withoutId := by
    funext other
    simp only [Function.comp_apply, decide_eq_decide]
    by_cases isOld : other = old
    · simp [isOld, sameService]
    · simp [isOld]
  rw [kept]
  apply List.map_congr_left
  intro other otherMem
  by_cases isOld : other = old
  · simp [isOld]
  · have distinct : other.key ≠ old.key := fun same =>
      isOld (tuples.eq_of_key_eq (List.mem_filter.mp otherMem).1 mem same)
    simp [isOld, distinct]

theorem removed_view {database : Database} {old : LimitRow}
    (tuples : Keyed LimitRow.key database.limits) (mem : old ∈ database.limits) :
    (viewOf serviceName { database with
        limits := database.limits.filter fun row => row ≠ old }).limits =
      (viewOf serviceName database).limits.filter fun shown => shown.key ≠ old.key := by
  simp only [viewOf, List.filter_map, List.filter_filter]
  congr 1
  apply List.filter_congr
  intro row rowMem
  by_cases isOld : row = old
  · simp [isOld]
  · have distinct : row.key ≠ old.key := fun sameKey =>
      isOld (tuples.eq_of_key_eq rowMem mem sameKey)
    simp [isOld, distinct]

theorem Alike.replaced (alike : Alike serviceName first second) {old other row otherRow : LimitRow}
    (isOld : first.findLimit old.key = some old) (isOther : second.findLimit other.key = some other)
    (same : SameRow old other) (sameRow : SameRow row otherRow) (isKey : row.key = old.key) :
    Alike serviceName
      { first with limits := first.limits.map fun found => if found = old then row else found }
      { second with
        limits := second.limits.map fun found => if found = other then otherRow else found } := by
  have keeps : ∀ (previous next : LimitRow), next.key = previous.key →
      ∀ found : LimitRow, (if found = previous then next else found).key = found.key := by
    intro previous next kept found
    split
    · rename_i here
      rw [here, kept]
    · rfl
  have otherKey : otherRow.key = other.key := by rw [← sameRow.key, isKey, same.key]
  refine ⟨alike.services, ?_, alike.audit, alike.firstTuples.map (keeps old row isKey),
    alike.secondTuples.map (keeps other otherRow otherKey)⟩
  rw [replaced_view alike.firstTuples (key_of_findLimit isOld).2 isKey,
    replaced_view alike.secondTuples (key_of_findLimit isOther).2 otherKey, alike.limits, same.key,
    show withoutId row = withoutId otherRow from sameRow]

theorem updateRow_alike {old other : LimitRow} {limitValue : ℤ} {label : TimeUnitLabel}
    (alike : Alike serviceName first second) (isOld : first.findLimit old.key = some old)
    (isOther : second.findLimit other.key = some other) (same : SameRow old other) :
    Matched serviceName SameRow (updateRow actor now old limitValue label first)
      (updateRow actor now other limitValue label second) := by
  have sameNew := same.set limitValue label
  have fired : Matched serviceName Eq
      (fire actor now .update old.configId (some old)
        (some { old with limitValue := limitValue, timeUnit := label }) first
        { first with
          limits := first.limits.map fun found =>
            if found = old then { old with limitValue := limitValue, timeUnit := label }
            else found })
      (fire actor now .update other.configId (some other)
        (some { other with limitValue := limitValue, timeUnit := label }) second
        { second with
          limits := second.limits.map fun found =>
            if found = other then { other with limitValue := limitValue, timeUnit := label }
            else found }) :=
    fire_alike (congrArg some same) (congrArg some sameNew) alike
      (alike.replaced isOld isOther same sameNew rfl)
  simp only [updateRow]
  generalize fire actor now .update old.configId _ _ first _ = ran at fired ⊢
  generalize fire actor now .update other.configId _ _ second _ = otherRan at fired ⊢
  cases fired with
  | error error tables => exact .error _ tables
  | ok _ tables => exact .ok sameNew tables

theorem insertLimit_alike (alike : Alike serviceName first second)
    (isKey : key.serviceName = serviceName) (limitValue : ℤ) (timeUnit : String) :
    Matched serviceName SameRow (insertLimit actor now key limitValue timeUnit first)
      (insertLimit actor now key limitValue timeUnit second) := by
  simp only [insertLimit]
  cases bindWrite key timeUnit with
  | error error => exact .error _ alike
  | ok label =>
      simp only
      split
      · exact .error _ (alike.drawn _ _)
      · rcases findLimit_alike alike isKey with ⟨none, otherNone⟩ | ⟨row, other, found, isOther, _⟩
        · simp only [none, otherNone]
          exact insertRow_alike (alike.drawn _ _) rfl isKey none otherNone
        · simp only [found, isOther]
          exact .error _ (alike.drawn _ _)

theorem upsertLimit_alike (alike : Alike serviceName first second)
    (isKey : key.serviceName = serviceName) (limitValue : ℤ) (timeUnit : String) :
    Matched serviceName SameRow (upsertLimit actor now key limitValue timeUnit first)
      (upsertLimit actor now key limitValue timeUnit second) := by
  simp only [upsertLimit]
  cases bindWrite key timeUnit with
  | error error => exact .error _ alike
  | ok label =>
      simp only
      split
      · exact .error _ (alike.drawn _ _)
      · rcases findLimit_alike alike isKey with ⟨none, otherNone⟩ |
          ⟨row, other, found, isOther, same⟩
        · simp only [none, otherNone]
          exact insertRow_alike (alike.drawn _ _) rfl isKey none otherNone
        · simp only [found, isOther]
          rcases key_of_findLimit found with ⟨rfl, _⟩
          have otherKey := (key_of_findLimit isOther).1
          exact updateRow_alike (alike.drawn _ _) found (by rw [otherKey]; exact isOther) same

/-- The row that an update has found, if any. -/
theorem updateLimit_alike (alike : Alike serviceName first second)
    (isKey : key.serviceName = serviceName) (limitValue : ℤ) (timeUnit : String) :
    Matched serviceName (fun row other => row.map withoutId = other.map withoutId)
      (updateLimit actor now key limitValue timeUnit first)
      (updateLimit actor now key limitValue timeUnit second) := by
  simp only [updateLimit]
  cases bindWrite key timeUnit with
  | error error => exact .error _ alike
  | ok label =>
      simp only
      rcases findLimit_alike alike isKey with ⟨none, otherNone⟩ |
        ⟨row, other, found, isOther, same⟩
      · simp only [none, otherNone]
        exact .ok rfl alike
      · simp only [found, isOther]
        split
        · exact .error _ alike
        · rcases key_of_findLimit found with ⟨rfl, _⟩
          have otherKey := (key_of_findLimit isOther).1
          have updated : Matched serviceName SameRow
              (updateRow actor now row limitValue label first)
              (updateRow actor now other limitValue label second) :=
            updateRow_alike alike found (by rw [otherKey]; exact isOther) same
          generalize updateRow actor now row limitValue label first = ran at updated ⊢
          generalize updateRow actor now other limitValue label second = otherRan at updated ⊢
          cases updated with
          | error error tables => exact .error _ tables
          | ok sameRow tables => exact .ok (congrArg some sameRow) tables

theorem deleteLimit_alike (alike : Alike serviceName first second)
    (isKey : key.serviceName = serviceName) :
    Matched serviceName Eq (deleteLimit actor now key first)
      (deleteLimit actor now key second) := by
  simp only [deleteLimit]
  split
  · rcases findLimit_alike alike isKey with ⟨none, otherNone⟩ |
      ⟨row, other, found, isOther, same⟩
    · simp only [none, otherNone]
      exact .ok rfl alike
    · have rowMem := (key_of_findLimit found).2
      have otherMem := (key_of_findLimit isOther).2
      have removed : Alike serviceName
          { first with limits := first.limits.filter fun shown => shown ≠ row }
          { second with limits := second.limits.filter fun shown => shown ≠ other } := by
        refine ⟨alike.services, ?_, alike.audit, alike.firstTuples.filter _,
          alike.secondTuples.filter _⟩
        rw [removed_view alike.firstTuples rowMem, removed_view alike.secondTuples otherMem,
          alike.limits, same.key]
      have fired : Matched serviceName Eq
          (fire actor now .delete row.configId (some row) none first
            { first with limits := first.limits.filter fun shown => shown ≠ row })
          (fire actor now .delete other.configId (some other) none second
            { second with limits := second.limits.filter fun shown => shown ≠ other }) :=
        fire_alike (congrArg some same) rfl alike removed
      simp only [found, isOther]
      generalize fire actor now .delete row.configId _ _ first _ = ran at fired ⊢
      generalize fire actor now .delete other.configId _ _ second _ = otherRan at fired ⊢
      cases fired with
      | error error tables => exact .error _ tables
      | ok _ tables => exact .ok rfl tables
  · exact .error _ alike

theorem insertService_alike (alike : Alike serviceName first second) {service : ServiceRow}
    (isService : service.serviceName = serviceName) :
    Matched serviceName Eq (insertService service first) (insertService service second) := by
  simp only [insertService, isService, any_services, alike.services]
  split
  · split
    · exact .error _ alike
    · refine .ok rfl ⟨?_, alike.limits, alike.audit, alike.firstTuples, alike.secondTuples⟩
      have services := alike.services
      simp only [viewOf, List.filter_append] at services ⊢
      rw [services]
  · exact .error _ alike

end Statements

end RateLimiter.Management
