import Mathlib.Data.List.Basic
import Mathlib.Data.String.Basic
import Mathlib.Algebra.Ring.Int.Defs
import Mathlib.Algebra.Ring.Nat

/-!
# Concatenated texts that can be split again

`zeroPad` prints a number with at least a given width. Numbers that fit in the
width print with exactly that many digits, so fixed-width numerals can be
concatenated without separators and still be told apart. Other parts are
recognised by a separator that does not occur in the part before it, or after
it when reading from the right.
-/

namespace Encoding

section Separator

variable {α : Type*} {separator : α} {first second firstRest secondRest : List α}

/-- The first occurrence of a separator splits a list in only one way. -/
theorem append_cons_inj (firstFree : separator ∉ first) (secondFree : separator ∉ second)
    (equal : first ++ separator :: firstRest = second ++ separator :: secondRest) :
    first = second ∧ firstRest = secondRest := by
  induction first generalizing second with
  | nil =>
      cases second with
      | nil => simpa using equal
      | cons head tail =>
          simp only [List.nil_append, List.cons_append, List.cons.injEq] at equal
          exact absurd (equal.1 ▸ List.mem_cons_self) secondFree
  | cons head tail ih =>
      cases second with
      | nil =>
          simp only [List.nil_append, List.cons_append, List.cons.injEq] at equal
          exact absurd (equal.1 ▸ List.mem_cons_self) firstFree
      | cons otherHead otherTail =>
          simp only [List.cons_append, List.cons.injEq] at equal
          rcases equal with ⟨heads, tails⟩
          rcases ih (List.not_mem_of_not_mem_cons firstFree)
            (List.not_mem_of_not_mem_cons secondFree) tails with ⟨sameTail, sameRest⟩
          exact ⟨by rw [heads, sameTail], sameRest⟩

/-- The last occurrence of a separator splits a list in only one way. -/
theorem append_cons_inj_right (firstFree : separator ∉ firstRest)
    (secondFree : separator ∉ secondRest)
    (equal : first ++ separator :: firstRest = second ++ separator :: secondRest) :
    first = second ∧ firstRest = secondRest := by
  have reversed := congrArg List.reverse equal
  simp only [List.reverse_append, List.reverse_cons, List.append_assoc, List.singleton_append]
    at reversed
  rcases append_cons_inj (by simpa using firstFree) (by simpa using secondFree) reversed with
    ⟨rests, heads⟩
  exact ⟨List.reverse_injective heads, List.reverse_injective rests⟩

/-- Nothing behind an element that stops it matters to the longest prefix of a kind. -/
theorem takeWhile_append_cons {accepts : α → Bool} (stops : accepts separator = false)
    (first rest : List α) :
    (first ++ separator :: rest).takeWhile accepts = first.takeWhile accepts := by
  induction first with
  | nil => simp [stops]
  | cons head tail ih => simp only [List.cons_append, List.takeWhile_cons, ih]

end Separator

/-- A decimal numeral, padded with zeros on the left to at least `width` digits. -/
def zeroPad (width number : ℕ) : String :=
  String.ofList (List.leftpad width '0' (Nat.toDigits 10 number))

/-- Sign-aware padding: the sign of a negative number counts in the width. -/
def zeroPadInt (width : ℕ) (number : ℤ) : String :=
  if number < 0 then "-" ++ zeroPad (width - 1) number.natAbs
  else zeroPad width number.toNat

theorem zeroPadInt_of_nonneg (width : ℕ) {number : ℤ} (nonneg : 0 ≤ number) :
    zeroPadInt width number = zeroPad width number.toNat := by
  simp [zeroPadInt, Int.not_lt.mpr nonneg]

theorem length_zeroPad {width number : ℕ} (pos : 0 < width) (fits : number < 10 ^ width) :
    (zeroPad width number).toList.length = width := by
  have short : (Nat.toDigits 10 number).length ≤ width :=
    (Nat.length_toDigits_le_iff (by decide) pos).mpr fits
  simp only [zeroPad, String.toList_ofList, List.length_leftpad]
  omega

theorem zeroPad_injective (width : ℕ) : Function.Injective (zeroPad width) := by
  intro first second equal
  have digits := congrArg (fun text => Nat.ofDigitChars 10 text.toList 0) equal
  simpa [zeroPad, List.leftpad, Nat.ofDigitChars_append, Nat.ofDigitChars_replicate_zero]
    using digits

theorem isDigit_of_mem_zeroPad {width number : ℕ} {char : Char}
    (mem : char ∈ (zeroPad width number).toList) : char.isDigit := by
  simp only [zeroPad, String.toList_ofList, List.leftpad, List.mem_append,
    List.mem_replicate] at mem
  rcases mem with ⟨_, rfl⟩ | digit
  · decide
  · exact Nat.isDigit_of_mem_toDigits (by decide) (by decide) digit

theorem zeroPadInt_injective (width : ℕ) : Function.Injective (zeroPadInt width) := by
  have signed : ∀ positive number, "-" ++ zeroPad (width - 1) number ≠ zeroPad width positive := by
    intro positive number equal
    have lists := congrArg String.toList equal
    rw [String.toList_append] at lists
    have sign : '-' ∈ (zeroPad width positive).toList := by
      rw [← lists]
      exact List.mem_append_left _ (by decide)
    exact absurd (isDigit_of_mem_zeroPad sign) (by decide)
  intro first second equal
  by_cases firstNegative : first < 0 <;> by_cases secondNegative : second < 0 <;>
    simp only [zeroPadInt, firstNegative, secondNegative, if_true, if_false] at equal
  · have lists := congrArg String.toList equal
    simp only [String.toList_append] at lists
    have := zeroPad_injective _ (String.toList_inj.mp (List.append_cancel_left lists))
    omega
  · exact absurd equal (signed _ _)
  · exact absurd equal.symm (signed _ _)
  · have := zeroPad_injective _ equal
    omega

/-- A trailing fixed-width numeral can be split off again. -/
theorem append_zeroPad_inj {width first second : ℕ} {firstHead secondHead : String}
    (pos : 0 < width) (firstFits : first < 10 ^ width) (secondFits : second < 10 ^ width)
    (equal : firstHead ++ zeroPad width first = secondHead ++ zeroPad width second) :
    firstHead = secondHead ∧ first = second := by
  have lists := congrArg String.toList equal
  simp only [String.toList_append] at lists
  have sameLength :
      (zeroPad width first).toList.length = (zeroPad width second).toList.length := by
    rw [length_zeroPad pos firstFits, length_zeroPad pos secondFits]
  rcases List.append_inj' lists sameLength with ⟨heads, tails⟩
  exact ⟨String.toList_inj.mp heads, zeroPad_injective width (String.toList_inj.mp tails)⟩

section Order

open Nat

/-- Reading a fixed-width numeral after a number. -/
theorem ofDigitChars_zeroPad {width number : ℕ} (pos : 0 < width) (fits : number < 10 ^ width)
    (head : ℕ) :
    ofDigitChars 10 (zeroPad width number).toList head = 10 ^ width * head + number := by
  have value : ofDigitChars 10 (zeroPad width number).toList 0 = number := by
    simp [zeroPad, List.leftpad, ofDigitChars_append]
  rw [ofDigitChars_eq_ofDigitChars_zero, length_zeroPad pos fits, value]

theorem toNat_of_isDigit {char : Char} (digit : char.isDigit = true) :
    '0'.toNat ≤ char.toNat ∧ char.toNat < '0'.toNat + 10 := by
  simp only [Char.isDigit, Bool.and_eq_true, decide_eq_true_eq] at digit
  rcases digit with ⟨lower, upper⟩
  exact ⟨UInt32.le_iff_toNat_le.mp lower, Nat.lt_succ_of_le (UInt32.le_iff_toNat_le.mp upper)⟩

/-- Of two numerals of one length, read after two numbers, the smaller one has the smaller number
before it, or the same number and comes first as a text. -/
theorem ofDigitChars_lt_cases {first second : List Char}
    (sameLength : first.length = second.length)
    (firstDigits : ∀ char ∈ first, char.isDigit = true)
    (secondDigits : ∀ char ∈ second, char.isDigit = true) {firstHead secondHead : ℕ}
    (less : ofDigitChars 10 first firstHead < ofDigitChars 10 second secondHead) :
    firstHead < secondHead ∨ firstHead = secondHead ∧ first < second := by
  induction first generalizing second firstHead secondHead with
  | nil =>
      cases second with
      | nil => exact Or.inl (by simpa using less)
      | cons char rest => simp at sameLength
  | cons char rest ih =>
      cases second with
      | nil => simp at sameLength
      | cons otherChar otherRest =>
          have digit := toNat_of_isDigit (firstDigits char List.mem_cons_self)
          have otherDigit := toNat_of_isDigit (secondDigits otherChar List.mem_cons_self)
          have zero : '0'.toNat = 48 := rfl
          rw [ofDigitChars_cons, ofDigitChars_cons] at less
          rcases ih (by simpa using sameLength)
            (fun char mem => firstDigits char (List.mem_cons_of_mem _ mem))
            (fun char mem => secondDigits char (List.mem_cons_of_mem _ mem)) less with
            lower | ⟨same, restLess⟩
          · by_cases heads : firstHead < secondHead
            · exact Or.inl heads
            · refine Or.inr ⟨by omega, List.cons_lt_cons_iff.mpr (Or.inl ?_)⟩
              apply UInt32.lt_iff_toNat_lt.mpr
              change char.toNat < otherChar.toNat
              omega
          · have sameChar : char = otherChar := Char.toNat_inj.mp (by omega)
            exact Or.inr ⟨by omega, List.cons_lt_cons_iff.mpr (Or.inr ⟨sameChar, restLess⟩)⟩

/-- Numerals of one length are ordered as texts in the order of their values. -/
theorem lt_of_ofDigitChars_lt {first second : String}
    (sameLength : first.toList.length = second.toList.length)
    (firstDigits : ∀ char ∈ first.toList, char.isDigit = true)
    (secondDigits : ∀ char ∈ second.toList, char.isDigit = true)
    (less : ofDigitChars 10 first.toList 0 < ofDigitChars 10 second.toList 0) :
    first < second := by
  apply String.lt_iff_toList_lt.mpr
  rcases ofDigitChars_lt_cases sameLength firstDigits secondDigits less with impossible | ⟨_, lists⟩
  · exact absurd impossible (Nat.lt_irrefl 0)
  · exact lists

end Order

end Encoding
