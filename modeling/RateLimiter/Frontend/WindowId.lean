import RateLimiter.Enforcer.Window

/-!
# The window id of the usage page

`util/windowId.ts` computes in the browser the id under which the enforcer
counts. It pads the text of every number, sign included, where the enforcer
pads the digits behind the sign, so the two part in the years whose number has
a sign and fewer than three digits.
-/

namespace RateLimiter.Frontend

open CivilTime Encoding

inductive TimeUnit
  | minute
  | day
  | month
deriving DecidableEq

/-- The unit of the messages with the same name. -/
def TimeUnit.message : TimeUnit → RateLimiter.TimeUnit
  | minute => .minute
  | day => .day
  | month => .month

/-- A valid `Date`, which holds milliseconds since the epoch. -/
structure Date where
  time : ℤ
  inRange : -8640000000000000 ≤ time ∧ time ≤ 8640000000000000

/-- `String(number).padStart(length, "0")` -/
def pad (number : ℤ) (length : ℕ) : String :=
  String.ofList (List.leftpad length '0' (toString number).toList)

def windowId (unit : TimeUnit) (date : Date) : String :=
  let instant := date.time * 1000000
  let year := pad (CivilTime.date instant).year 4
  let month := pad (CivilTime.date instant).month 2
  let day := pad (CivilTime.date instant).day 2
  let hour := pad (CivilTime.hour instant) 2
  let minute := pad (CivilTime.minute instant) 2
  match unit with
  | .minute => year ++ month ++ day ++ hour ++ minute
  | .day => year ++ month ++ day
  | .month => year ++ month

theorem toList_toString_of_nonneg {number : ℤ} (nonneg : 0 ≤ number) :
    (toString number).toList = Nat.toDigits 10 number.toNat := by
  rw [Int.toString_eq_repr, Int.repr_eq_if, if_pos nonneg, Nat.repr_eq_ofList_toDigits,
    String.toList_ofList]

theorem toList_toString_of_neg {number : ℤ} (negative : number < 0) :
    (toString number).toList = '-' :: Nat.toDigits 10 number.natAbs := by
  have magnitude : (-number).toNat = number.natAbs := by omega
  rw [Int.toString_eq_repr, Int.repr_eq_if, if_neg (Int.not_le.mpr negative), magnitude,
    Nat.repr_eq_ofList_toDigits, String.toList_append, String.toList_ofList, String.toList_ofList]
  rfl

theorem pad_of_nonneg {number : ℤ} (nonneg : 0 ≤ number) (length : ℕ) :
    pad number length = zeroPad length number.toNat := by
  simp only [pad, zeroPad, toList_toString_of_nonneg nonneg]

/-- The sign stays in front only where nothing is padded. -/
theorem pad_of_neg {number : ℤ} (negative : number < 0) (width : ℕ) :
    pad number (width + 1) = "-" ++ zeroPad width number.natAbs ↔
      width ≤ (Nat.toDigits 10 number.natAbs).length := by
  rw [← String.toList_inj, String.toList_append]
  simp only [pad, zeroPad, String.toList_ofList, toList_toString_of_neg negative, List.leftpad,
    List.length_cons, Nat.add_sub_add_right]
  constructor
  · intro same
    rcases Nat.eq_zero_or_pos (width - (Nat.toDigits 10 number.natAbs).length) with full | short
    · omega
    · rcases Nat.exists_eq_add_of_lt short with ⟨missing, isMissing⟩
      rw [isMissing, Nat.zero_add, List.replicate_succ] at same
      exact absurd (List.cons.inj same).1 (by decide)
  · intro full
    simp only [Nat.sub_eq_zero_of_le full, List.replicate_zero, List.nil_append]
    rfl

/-- The year of the page is that of the enforcer unless it has a sign and less than three digits. -/
theorem pad_eq_zeroPadInt {year : ℤ} :
    pad year 4 = zeroPadInt 4 year ↔ ¬(-99 ≤ year ∧ year ≤ -1) := by
  rcases Int.lt_or_le year 0 with negative | nonneg
  · have digits : (Nat.toDigits 10 year.natAbs).length ≤ 2 ↔ year.natAbs < 10 ^ 2 :=
      Nat.length_toDigits_le_iff (by decide) (by decide)
    have signed := pad_of_neg negative 3
    simp only [zeroPadInt, if_pos negative]
    apply signed.trans
    omega
  · simp only [pad_of_nonneg nonneg, zeroPadInt_of_nonneg 4 nonneg, true_iff]
    omega

theorem pad_natCast (number length : ℕ) : pad number length = zeroPad length number :=
  pad_of_nonneg (Int.natCast_nonneg number) length

/-- Below the millisecond nothing of an instant shows in its window id. -/
theorem windowId_of_millis (unit : RateLimiter.TimeUnit) (millis : ℤ) (rest : Fin 1000000) :
    Enforcer.windowId (millis * 1000000 + (rest : ℕ)) unit =
      Enforcer.windowId (millis * 1000000) unit := by
  have below := rest.isLt
  have minutes : (millis * 1000000 + (rest : ℕ)) / 60000000000 =
      millis * 1000000 / 60000000000 := by omega
  rcases fields_eq_of_div_minute minutes with ⟨dates, hours, minutes⟩
  cases unit with
  | unspecified => rfl
  | minute | day | month => simp only [Enforcer.windowId, dates, hours, minutes]

/-- At every instant that a `Date` can hold, to the nanosecond, the usage page names the window
under which the enforcer counts then, except in the years 1 to 99 before the year zero. -/
theorem windowId_eq_enforcer_iff (unit : TimeUnit) (date : Date) (rest : Fin 1000000) :
    windowId unit date =
        Enforcer.windowId (date.time * 1000000 + (rest : ℕ)) unit.message ↔
      ¬(-99 ≤ (CivilTime.date (date.time * 1000000)).year ∧
        (CivilTime.date (date.time * 1000000)).year ≤ -1) := by
  rw [windowId_of_millis, ← pad_eq_zeroPadInt]
  cases unit with
  | minute | day | month =>
      simp only [windowId, TimeUnit.message, Enforcer.windowId, pad_natCast,
        String.append_left_inj]

end RateLimiter.Frontend
