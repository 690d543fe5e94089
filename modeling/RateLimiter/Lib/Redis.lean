import Mathlib.Logic.Function.Basic
import Mathlib.Order.Lattice
import Mathlib.Order.Defs.LinearOrder
import RateLimiter.Lib.Double

/-!
# A Redis keyspace of integer counters and its Lua scripts

A keyspace holds integer strings with an optional expiry deadline in
milliseconds. A `Script` runs atomically against the keyspace; when it fails
midway, the effects of the commands already executed remain. Numbers inside a
script are doubles: they are rounded when an argument is parsed, when a reply
is read and after every subtraction, while the commands themselves compute on
exact 64-bit integers. One assumption is made on the way from a script to a
command: `argument`, that a number arrives as its exact decimal. The server
clock is frozen while a script runs.
-/

namespace Redis

/-- A stored integer and the instant, in milliseconds, from which it may be dropped. -/
structure Entry where
  value : ℤ
  /-- The expiry deadline, absent for a key that never expires. -/
  deadline : Option ℤ
deriving DecidableEq

abbrev Keyspace := String → Option Entry

inductive Error where
  /-- The argument of an increment is not a 64-bit integer. -/
  | notAnInteger
  /-- The increment leaves the 64-bit range. -/
  | overflow
deriving DecidableEq

/-- The integer a key holds; a missing key counts as zero. -/
def counter (keyspace : Keyspace) (key : String) : ℤ :=
  ((keyspace key).map Entry.value).getD 0

/-- The expiry deadline of a key, if it exists and has one. -/
def deadline (keyspace : Keyspace) (key : String) : Option ℤ :=
  (keyspace key).bind Entry.deadline

def isInt64 (number : ℤ) : Bool :=
  -2 ^ 63 ≤ number && number < 2 ^ 63

/-- A script keeps the effects it had before an error. -/
def Script (α : Type) := Keyspace → Except Error α × Keyspace

namespace Script

instance : Monad Script where
  pure value keyspace := (.ok value, keyspace)
  bind first next keyspace :=
    match first keyspace with
    | (.ok value, rest) => next value rest
    | (.error error, rest) => (.error error, rest)

@[simp]
theorem pure_apply {α : Type} (value : α) (keyspace : Keyspace) :
    (pure value : Script α) keyspace = (.ok value, keyspace) := rfl

theorem bind_apply_ok {α β : Type} {first : Script α} {next : α → Script β}
    {keyspace rest : Keyspace} {value : α} (ran : first keyspace = (.ok value, rest)) :
    (first >>= next) keyspace = next value rest := by
  change (match first keyspace with
    | (.ok value, rest) => next value rest
    | (.error error, rest) => (.error error, rest)) = _
  rw [ran]

theorem bind_apply_error {α β : Type} {first : Script α} {next : α → Script β}
    {keyspace rest : Keyspace} {error : Error} (ran : first keyspace = (.error error, rest)) :
    (first >>= next) keyspace = (.error error, rest) := by
  change (match first keyspace with
    | (.ok value, rest) => next value rest
    | (.error error, rest) => (.error error, rest)) = _
  rw [ran]

end Script

/-- Adds an exact integer to a key, keeping its deadline. -/
def addExact (key : String) (amount : ℤ) : Script ℤ := fun keyspace =>
  let next := counter keyspace key + amount
  if isInt64 next then
    (.ok next, Function.update keyspace key (some ⟨next, deadline keyspace key⟩))
  else (.error .overflow, keyspace)

/-- The reply to an addition comes back as a double. -/
def addReplied (key : String) (amount : ℤ) : Script ℤ := fun keyspace =>
  match addExact key amount keyspace with
  | (.ok next, rest) => (.ok (Double.roundInt next), rest)
  | (.error error, rest) => (.error error, rest)

/-- What a command reads of a number that a script passes to it. That this is the number itself is
an assumption from 10^17 on, where it is up to the version of Redis whether an integer is printed
with all its digits; smaller ones always are. -/
def argument (number : ℤ) : ℤ := number

/-- `redis.call('INCRBY', key, amount)` -/
def incrBy (key : String) (amount : ℤ) : Script ℤ := fun keyspace =>
  if isInt64 (argument amount) then addReplied key (argument amount) keyspace
  else (.error .notAnInteger, keyspace)

/-- `redis.call('DECRBY', key, amount)`; the least 64-bit integer has no negation. -/
def decrBy (key : String) (amount : ℤ) : Script ℤ := fun keyspace =>
  if isInt64 (argument amount) then
    if argument amount = -2 ^ 63 then (.error .overflow, keyspace)
    else addReplied key (-argument amount) keyspace
  else (.error .notAnInteger, keyspace)

/-- `redis.call('TTL', key)`: -2 for a missing key, -1 without a deadline, else whole seconds. -/
def ttl (key : String) (nowMillis : ℤ) : Script ℤ := fun keyspace =>
  match keyspace key with
  | none => (.ok (-2), keyspace)
  | some entry =>
      match entry.deadline with
      | none => (.ok (-1), keyspace)
      | some due => (.ok ((max (due - nowMillis) 0 + 500) / 1000), keyspace)

/-- `redis.call('EXPIRE', key, seconds)`: a deadline that is not in the future deletes the key. -/
def expire (key : String) (nowMillis seconds : ℤ) : Script Unit := fun keyspace =>
  match keyspace key with
  | none => (.ok (), keyspace)
  | some entry =>
      if seconds ≤ 0 then (.ok (), Function.update keyspace key none)
      else (.ok (),
        Function.update keyspace key (some ⟨entry.value, some (nowMillis + seconds * 1000)⟩))

/-- `redis.call('GET', key)` on an integer string. -/
def get (key : String) : Script (Option ℤ) := fun keyspace =>
  (.ok ((keyspace key).map Entry.value), keyspace)

def drop (keyspace : Keyspace) (key : String) : Keyspace :=
  Function.update keyspace key none

/-- The key exists and its deadline has come. -/
def Due (keyspace : Keyspace) (nowMillis : ℤ) (key : String) : Prop :=
  ∃ due, deadline keyspace key = some due ∧ due ≤ nowMillis

/-- `tonumber` of an integer numeral. -/
def toNumber (numeral : ℤ) : ℤ :=
  Double.roundInt numeral

def sub (left right : ℤ) : ℤ :=
  Double.roundInt (left - right)

/-- A number returned by a script is cast to a 64-bit integer. -/
def reply (number : ℤ) : ℤ :=
  if isInt64 number then number else -2 ^ 63

def Script.Confined {α : Type} (key : String) (script : Script α) : Prop :=
  ∀ keyspace other, other ≠ key → (script keyspace).2 other = keyspace other

namespace Script.Confined

variable {α β : Type} {key : String}

theorem pure (value : α) : Confined key (Pure.pure value) :=
  fun _ _ _ => rfl

theorem bind {first : Script α} {next : α → Script β} (firstConfined : Confined key first)
    (nextConfined : ∀ value, Confined key (next value)) : Confined key (first >>= next) := by
  intro keyspace other different
  change (match first keyspace with
    | (.ok value, rest) => next value rest
    | (.error error, rest) => (.error error, rest)).2 other = _
  have afterFirst := firstConfined keyspace other different
  rcases ran : first keyspace with ⟨result, rest⟩
  rw [ran] at afterFirst
  cases result with
  | error error => exact afterFirst
  | ok value => exact (nextConfined value rest other different).trans afterFirst

theorem addReplied (amount : ℤ) : Confined key (addReplied key amount) := by
  intro keyspace other different
  simp only [Redis.addReplied, addExact]
  split <;> rename_i ran <;> split at ran <;> cases ran
  · exact Function.update_of_ne different _ _
  · rfl

theorem incrBy (amount : ℤ) : Confined key (incrBy key amount) := by
  intro keyspace other different
  simp only [Redis.incrBy]
  split
  · exact addReplied _ keyspace other different
  · rfl

theorem decrBy (amount : ℤ) : Confined key (decrBy key amount) := by
  intro keyspace other different
  simp only [Redis.decrBy]
  split
  · split
    · rfl
    · exact addReplied _ keyspace other different
  · rfl

theorem ttl (nowMillis : ℤ) : Confined key (ttl key nowMillis) := by
  intro keyspace other _
  simp only [Redis.ttl]
  split
  · rfl
  · split <;> rfl

theorem expire (nowMillis seconds : ℤ) : Confined key (expire key nowMillis seconds) := by
  intro keyspace other different
  simp only [Redis.expire]
  split
  · rfl
  · split <;> exact Function.update_of_ne different _ _

theorem get : Confined key (get key) :=
  fun _ _ _ => rfl

end Script.Confined

/-- The answer of a script and what it leaves at a key depend on nothing but that key. -/
def Script.Local {α : Type} (key : String) (script : Script α) : Prop :=
  ∀ first second : Keyspace, first key = second key →
    (script first).1 = (script second).1 ∧ (script first).2 key = (script second).2 key

namespace Script.Local

variable {α β : Type} {key : String}

theorem pure (value : α) : Local key (Pure.pure value) :=
  fun _ _ same => ⟨rfl, same⟩

theorem bind {first : Script α} {next : α → Script β} (firstLocal : Local key first)
    (nextLocal : ∀ value, Local key (next value)) : Local key (first >>= next) := by
  intro keyspace other same
  rcases firstLocal keyspace other same with ⟨sameAnswer, sameEntry⟩
  rcases ran : first keyspace with ⟨result, rest⟩
  rcases otherRan : first other with ⟨otherResult, otherRest⟩
  simp only [ran, otherRan] at sameAnswer sameEntry
  subst otherResult
  cases result with
  | error error =>
      simp only [bind_apply_error ran, bind_apply_error otherRan]
      exact ⟨trivial, sameEntry⟩
  | ok value =>
      simp only [bind_apply_ok ran, bind_apply_ok otherRan]
      exact nextLocal value rest otherRest sameEntry

theorem addReplied (amount : ℤ) : Local key (addReplied key amount) := by
  intro first second same
  have sameCounter : counter first key = counter second key := by simp only [counter, same]
  have sameDeadline : deadline first key = deadline second key := by simp only [deadline, same]
  simp only [Redis.addReplied, addExact, sameCounter, sameDeadline]
  split <;> rename_i ran <;> split at ran <;> cases ran
  · rename_i fits
    simp only [fits, if_true, Function.update_self, and_self]
  · rename_i beyond
    simp only [beyond, Bool.false_eq_true, if_false, true_and]
    exact same

theorem incrBy (amount : ℤ) : Local key (incrBy key amount) := by
  intro first second same
  simp only [Redis.incrBy]
  split
  · exact addReplied _ first second same
  · exact ⟨rfl, same⟩

theorem decrBy (amount : ℤ) : Local key (decrBy key amount) := by
  intro first second same
  simp only [Redis.decrBy]
  split
  · split
    · exact ⟨rfl, same⟩
    · exact addReplied _ first second same
  · exact ⟨rfl, same⟩

theorem ttl (nowMillis : ℤ) : Local key (ttl key nowMillis) := by
  intro first second same
  simp only [Redis.ttl, same]
  split
  · exact ⟨rfl, same⟩
  · split <;> exact ⟨rfl, same⟩

theorem expire (nowMillis seconds : ℤ) : Local key (expire key nowMillis seconds) := by
  intro first second same
  simp only [Redis.expire, same]
  split
  · exact ⟨rfl, same⟩
  · split <;> simp only [Function.update_self, and_self]

theorem get : Local key (get key) := by
  intro first second same
  simp only [Redis.get, same, true_and]

end Script.Local

theorem counter_congr {first second : Keyspace} {key : String} (same : first key = second key) :
    counter first key = counter second key := by
  rw [counter, counter, same]

@[simp]
theorem counter_update_self (keyspace : Keyspace) (key : String) (entry : Entry) :
    counter (Function.update keyspace key (some entry)) key = entry.value := by
  simp [counter]

theorem counter_drop_of_ne (keyspace : Keyspace) {key other : String} (different : other ≠ key) :
    counter (drop keyspace key) other = counter keyspace other := by
  simp [counter, drop, Function.update_of_ne different]

theorem deadline_drop_of_ne (keyspace : Keyspace) {key other : String}
    (different : other ≠ key) : deadline (drop keyspace key) other = deadline keyspace other := by
  simp [deadline, drop, Function.update_of_ne different]

theorem counter_update_of_ne (keyspace : Keyspace) {key other : String} (different : other ≠ key)
    (entry : Option Entry) :
    counter (Function.update keyspace key entry) other = counter keyspace other := by
  simp [counter, Function.update_of_ne different]

@[simp]
theorem deadline_update_self (keyspace : Keyspace) (key : String) (entry : Entry) :
    deadline (Function.update keyspace key (some entry)) key = entry.deadline := by
  simp [deadline]

theorem deadline_update_of_ne (keyspace : Keyspace) {key other : String}
    (different : other ≠ key) (entry : Option Entry) :
    deadline (Function.update keyspace key entry) other = deadline keyspace other := by
  simp [deadline, Function.update_of_ne different]

/-- A key without a deadline reports a negative time to live, and only such a key does. -/
theorem ttl_of_some {keyspace : Keyspace} {key : String} {entry : Entry} (nowMillis : ℤ)
    (present : keyspace key = some entry) :
    ∃ left, ttl key nowMillis keyspace = (.ok left, keyspace) ∧
      (left < 0 ↔ entry.deadline = none) := by
  cases due : entry.deadline with
  | none => exact ⟨-1, by simp only [ttl, present, due], by decide⟩
  | some instant =>
      refine ⟨(max (instant - nowMillis) 0 + 500) / 1000, by simp only [ttl, present, due], ?_⟩
      have := le_max_right (instant - nowMillis) 0
      simp only [reduceCtorEq, iff_false]
      omega

theorem expire_of_some {keyspace : Keyspace} {key : String} {entry : Entry} {seconds : ℤ}
    (nowMillis : ℤ) (present : keyspace key = some entry) (positive : 0 < seconds) :
    expire key nowMillis seconds keyspace =
      (.ok (), Function.update keyspace key
        (some ⟨entry.value, some (nowMillis + seconds * 1000)⟩)) := by
  have future : ¬seconds ≤ 0 := by omega
  simp only [expire, present, future, if_false]

theorem isInt64_of_bounds {number : ℤ} (lower : -2 ^ 53 ≤ number) (upper : number ≤ 2 ^ 53) :
    isInt64 number = true := by
  simp only [isInt64, Bool.and_eq_true, decide_eq_true_eq]
  omega

theorem toNumber_eq_self {number : ℤ} (lower : -2 ^ 53 ≤ number) (upper : number ≤ 2 ^ 53) :
    toNumber number = number :=
  Double.roundInt_eq_self lower upper

theorem reply_sub_eq {left right : ℤ} (lower : -2 ^ 53 ≤ left - right)
    (upper : left - right ≤ 2 ^ 53) : reply (sub left right) = left - right := by
  simp only [reply, sub, Double.roundInt_eq_self lower upper, isInt64_of_bounds lower upper,
    if_true]

theorem addReplied_eq (keyspace : Keyspace) (key : String) {amount : ℤ}
    (sumLower : -2 ^ 53 ≤ counter keyspace key + amount)
    (sumUpper : counter keyspace key + amount ≤ 2 ^ 53) :
    addReplied key amount keyspace =
      (.ok (counter keyspace key + amount),
        Function.update keyspace key
          (some ⟨counter keyspace key + amount, deadline keyspace key⟩)) := by
  simp only [addReplied, addExact, isInt64_of_bounds sumLower sumUpper, if_true,
    Double.roundInt_eq_self sumLower sumUpper]

/-- Within the exact range an increment stores and replies the exact sum. -/
theorem incrBy_eq (keyspace : Keyspace) (key : String) {amount : ℤ}
    (amountLower : -2 ^ 53 ≤ amount) (amountUpper : amount ≤ 2 ^ 53)
    (sumLower : -2 ^ 53 ≤ counter keyspace key + amount)
    (sumUpper : counter keyspace key + amount ≤ 2 ^ 53) :
    incrBy key amount keyspace =
      (.ok (counter keyspace key + amount),
        Function.update keyspace key
          (some ⟨counter keyspace key + amount, deadline keyspace key⟩)) := by
  simp only [incrBy, argument, isInt64_of_bounds amountLower amountUpper, if_true]
  exact addReplied_eq keyspace key sumLower sumUpper

theorem decrBy_eq (keyspace : Keyspace) (key : String) {amount : ℤ}
    (amountLower : -2 ^ 53 ≤ amount) (amountUpper : amount ≤ 2 ^ 53)
    (differenceLower : -2 ^ 53 ≤ counter keyspace key - amount)
    (differenceUpper : counter keyspace key - amount ≤ 2 ^ 53) :
    decrBy key amount keyspace =
      (.ok (counter keyspace key - amount),
        Function.update keyspace key
          (some ⟨counter keyspace key - amount, deadline keyspace key⟩)) := by
  have negatable : amount ≠ -2 ^ 63 := by omega
  simp only [decrBy, argument, isInt64_of_bounds amountLower amountUpper, if_true, negatable,
    if_false]
  rw [addReplied_eq keyspace key (by omega) (by omega), Int.sub_eq_add_neg]

/-- A sum beyond 64 bits is refused and nothing is done; any other is stored as it is, and the
deadline stays. -/
theorem addReplied_cases (keyspace : Keyspace) (key : String) (amount : ℤ) :
    (¬ isInt64 (counter keyspace key + amount) = true ∧
      ∃ error, addReplied key amount keyspace = (.error error, keyspace)) ∨
      isInt64 (counter keyspace key + amount) = true ∧
        addReplied key amount keyspace =
          (.ok (Double.roundInt (counter keyspace key + amount)),
            Function.update keyspace key
              (some ⟨counter keyspace key + amount, deadline keyspace key⟩)) := by
  by_cases fits : isInt64 (counter keyspace key + amount) = true
  · exact Or.inr ⟨fits, by simp only [addReplied, addExact, fits, if_true]⟩
  · refine Or.inl ⟨fits, .overflow, ?_⟩
    simp [addReplied, addExact, fits]

/-- An increment beyond 64 bits fails and does nothing; any other stores the exact sum and keeps
the deadline. -/
theorem incrBy_cases (keyspace : Keyspace) (key : String) (amount : ℤ) :
    (¬ (isInt64 amount = true ∧ isInt64 (counter keyspace key + amount) = true) ∧
      ∃ error, incrBy key amount keyspace = (.error error, keyspace)) ∨
      (isInt64 amount = true ∧ isInt64 (counter keyspace key + amount) = true) ∧
        incrBy key amount keyspace =
          (.ok (Double.roundInt (counter keyspace key + amount)),
            Function.update keyspace key
              (some ⟨counter keyspace key + amount, deadline keyspace key⟩)) := by
  by_cases fits : isInt64 amount = true
  · simp only [incrBy, argument, fits, if_true, true_and]
    exact addReplied_cases keyspace key amount
  · refine Or.inl ⟨fun both => fits both.1, .notAnInteger, ?_⟩
    simp [incrBy, argument, fits]

/-- The same for a decrement, whose amount must have an opposite too. -/
theorem decrBy_cases (keyspace : Keyspace) (key : String) (amount : ℤ) :
    (¬ (isInt64 amount = true ∧ isInt64 (-amount) = true ∧
        isInt64 (counter keyspace key - amount) = true) ∧
      ∃ error, decrBy key amount keyspace = (.error error, keyspace)) ∨
      (isInt64 amount = true ∧ isInt64 (counter keyspace key - amount) = true) ∧
        decrBy key amount keyspace =
          (.ok (Double.roundInt (counter keyspace key - amount)),
            Function.update keyspace key
              (some ⟨counter keyspace key - amount, deadline keyspace key⟩)) := by
  by_cases fits : isInt64 amount = true
  · by_cases least : amount = -2 ^ 63
    · subst amount
      exact Or.inl ⟨fun all => absurd all.2.1 (by decide), .overflow, rfl⟩
    · have applied : decrBy key amount keyspace = addReplied key (-amount) keyspace := by
        simp only [decrBy, argument, fits, least, if_true, if_false]
      rw [applied, Int.sub_eq_add_neg]
      rcases addReplied_cases keyspace key (-amount) with ⟨beyond, failed⟩ | ⟨within, succeeded⟩
      · exact Or.inl ⟨fun all => beyond all.2.2, failed⟩
      · exact Or.inr ⟨⟨fits, within⟩, succeeded⟩
  · refine Or.inl ⟨fun all => fits all.1, .notAnInteger, ?_⟩
    simp [decrBy, argument, fits]

/-- The part of a key that a cluster hashes to a slot: the text between the first opening brace
and the first closing brace after it, else the whole key. -/
def hashTag (key : String) : String :=
  let afterOpening := (key.toList.dropWhile (· ≠ '{')).drop 1
  let tag := afterOpening.takeWhile (· ≠ '}')
  if tag ≠ [] ∧ '}' ∈ afterOpening then String.ofList tag else key

end Redis
