import RateLimiter.Console.Authority
import RateLimiter.Lib.IsoDate
import RateLimiter.Management.LimitAdminService

/-!
# Instants on their way to the audit and back

The audit browser splits an instant into seconds and nanoseconds, which the
control plane puts together again for its bound and which `timestampToIso`
prints. The seconds are rounded down, but the remainder has the sign of the
instant, so the parts fit together only where that remainder is not negative.
-/

namespace RateLimiter.Console

open JavaScript Management

/-- `Date.parse` reads what `toISOString` prints. -/
def ParsesIso (deps : Deps) : Prop :=
  ∀ {text : String} {millis : ℤ}, parseIso? text = some millis → deps.dateParse text = some millis

/-- The text of an instant and the timestamp it is split into stand for that instant. -/
structure Converts (deps : Deps) (millis : ℤ) (text : String) (timestamp : WireTimestamp) :
    Prop where
  isText : toIsoString millis = some text
  split : AuditRouter.isoToTimestamp deps text = some timestamp
  nanos_nonneg : 0 ≤ timestamp.nanos
  nanos_lt : timestamp.nanos < 1000000000
  exact : timestamp.seconds * 1000000000 + timestamp.nanos = millis * 1000000
  printed : timestampToIso (some timestamp) = .ok (.string text)
  /-- The bound that the audit is searched with, in seconds and nanoseconds. -/
  since : ∃ instant, LimitAdminService.instantOf (some ⟨timestamp.seconds, timestamp.nanos⟩) =
      .ok (some instant) ∧ AuditRepository.timestampFrom (some instant) = .ok () ∧
    instant.1 * 1000000000 + instant.2 = millis * 1000000 ∧ 0 ≤ instant.2 ∧
    instant.2 < 1000000000

section Split

variable {deps : Deps} {millis : ℤ} {text : String}

theorem isoToTimestamp_toIsoString (parses : ParsesIso deps)
    (isText : toIsoString millis = some text) :
    AuditRouter.isoToTimestamp deps text =
      some ⟨millis / 1000, millis.tmod 1000 * 1000000⟩ := by
  have read := parseIso?_toIsoString isText
  have nonempty : text ≠ "" := by
    rintro rfl
    rw [show parseIso? "" = none by decide] at read
    cases read
  rw [AuditRouter.isoToTimestamp, if_neg nonempty, parses read, Option.map_some]

theorem timestampToIso_eq_ok {timestamp : WireTimestamp}
    (isText : toIsoString (timestamp.seconds * 1000 + timestamp.nanos / 1000000) = some text) :
    timestampToIso (some timestamp) = .ok (.string text) := by
  simp only [timestampToIso, isText]

/-- The remainder that follows the sign is negative before the epoch, between two seconds. -/
theorem tmod_thousand (millis : ℤ) :
    millis.tmod 1000 =
      if 0 ≤ millis ∨ millis % 1000 = 0 then millis % 1000 else millis % 1000 - 1000 := by
  rw [Int.tmod_eq_emod]
  simp only [Int.dvd_iff_emod_eq_zero]
  split <;> simp

theorem tmod_thousand_nonneg_iff : 0 ≤ millis.tmod 1000 ↔ 0 ≤ millis ∨ millis % 1000 = 0 := by
  rw [tmod_thousand]
  split <;> omega

theorem converts_of_tmod_nonneg (parses : ParsesIso deps)
    (isText : toIsoString millis = some text) (nonneg : 0 ≤ millis.tmod 1000) :
    Converts deps millis text ⟨millis / 1000, millis.tmod 1000 * 1000000⟩ := by
  have inRange := inRange_of_toIsoString isText
  have remainder : millis.tmod 1000 = millis % 1000 := by
    rw [tmod_thousand, if_pos (tmod_thousand_nonneg_iff.mp nonneg)]
  have together : millis / 1000 * 1000 + millis.tmod 1000 * 1000000 / 1000000 = millis := by omega
  have whole : millis / 1000 + millis.tmod 1000 * 1000000 / 1000000000 = millis / 1000 := by omega
  have rest : millis.tmod 1000 * 1000000 % 1000000000 = millis.tmod 1000 * 1000000 := by omega
  have nanosNonneg : 0 ≤ millis.tmod 1000 * 1000000 := by omega
  have nanosLt : millis.tmod 1000 * 1000000 < 1000000000 := by omega
  have exact : millis / 1000 * 1000000000 + millis.tmod 1000 * 1000000 = millis * 1000000 := by
    omega
  refine ⟨isText, isoToTimestamp_toIsoString parses isText, nanosNonneg, nanosLt, exact, ?_,
    (millis / 1000, millis.tmod 1000 * 1000000), ?_, ?_, exact, nanosNonneg, nanosLt⟩
  · apply timestampToIso_eq_ok
    rw [together, isText]
  · simp only [LimitAdminService.instantOf, whole, rest]
    rw [if_pos (by omega)]
  · rw [AuditRepository.timestampFrom, if_pos (by omega)]

end Split

/-- Exactly the instants from the epoch on, and those of whole seconds before it, are split into a
well-formed timestamp that stands for them everywhere. -/
theorem timestamps_convert_iff (deps : Deps) (parses : ParsesIso deps) {millis : ℤ}
    (inRange : -8640000000000000 ≤ millis ∧ millis ≤ 8640000000000000) :
    (∃ text timestamp, Converts deps millis text timestamp) ↔ 0 ≤ millis ∨ millis % 1000 = 0 := by
  rw [← tmod_thousand_nonneg_iff]
  constructor
  · rintro ⟨text, timestamp, converts⟩
    have isSplit := isoToTimestamp_toIsoString parses converts.isText
    rw [converts.split, Option.some.injEq] at isSplit
    have nonneg := converts.nanos_nonneg
    rw [isSplit] at nonneg
    simp only at nonneg
    omega
  · intro nonneg
    have printable : ∃ text, toIsoString millis = some text := by
      rw [toIsoString, if_neg (by omega)]
      exact ⟨_, rfl⟩
    rcases printable with ⟨text, isText⟩
    exact ⟨text, _, converts_of_tmod_nonneg parses isText nonneg⟩

section Sample

/-- An engine that reads the printed form and nothing else. -/
def isoDeps : Deps := { sampleDeps with dateParse := parseIso? }

/-- A second before the epoch is converted, since no remainder is left. -/
theorem timestamps_convert_iff_second :
    ∃ text timestamp, Converts isoDeps (-1000) text timestamp :=
  (timestamps_convert_iff isoDeps (fun read => read) (by decide)).mpr (Or.inr (by decide))

/-- The last millisecond before the epoch is split into parts of two different signs. They are
printed as the instant one second before it, and that is where the control plane searches from. -/
theorem timestamps_not_convert :
    (¬∃ text timestamp, Converts isoDeps (-1) text timestamp) ∧
      AuditRouter.isoToTimestamp isoDeps "1969-12-31T23:59:59.999Z" = some ⟨-1, -1000000⟩ ∧
      timestampToIso (some ⟨-1, -1000000⟩) = .ok (.string "1969-12-31T23:59:58.999Z") ∧
      LimitAdminService.instantOf (some ⟨-1, -1000000⟩) = .ok (some (-2, 999000000)) := by
  have isText : toIsoString (-1) = some "1969-12-31T23:59:59.999Z" := by decide +kernel
  have isSplit : AuditRouter.isoToTimestamp isoDeps "1969-12-31T23:59:59.999Z" =
      some ⟨-1, -1000000⟩ :=
    isoToTimestamp_toIsoString (fun read => read) isText
  have printed : toIsoString (-1001) = some "1969-12-31T23:59:58.999Z" := by decide +kernel
  refine ⟨?_, isSplit, ?_, by decide⟩
  · rintro ⟨text, timestamp, converts⟩
    have sameText := isText.symm.trans converts.isText
    cases sameText
    have nonneg := converts.nanos_nonneg
    rw [Option.some.inj (converts.split.symm.trans isSplit)] at nonneg
    exact absurd nonneg (by decide)
  · exact timestampToIso_eq_ok printed

end Sample

end RateLimiter.Console
