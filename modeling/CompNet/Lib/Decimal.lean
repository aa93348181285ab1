import Mathlib.Algebra.Order.Ring.Int
import CompNet.Lib.TextFile

/-!
# Decimal numbers in C strings

What `%lu` prints, and what `%d` reads: white space, a sign, and as many digits
as there are.
-/

namespace CompNet.Lib

/-- `isdigit`. -/
def isdigit (c : UInt8) : Bool := 48 ≤ c && c ≤ 57

def digit (n : Nat) : UInt8 := 48 + UInt8.ofNat n

/-- The digits of a number, most significant first. -/
def decimal (n : Nat) : List UInt8 :=
  if n < 10 then [digit n] else decimal (n / 10) ++ [digit (n % 10)]

/-- The number that a list of digits is read as. -/
def digitsValue (digits : List UInt8) : Nat :=
  digits.foldl (fun n c => 10 * n + (c.toNat - 48)) 0

/-- The sign of a number, and what is behind it. -/
def scanSign (s : List UInt8) : Int × List UInt8 :=
  if s.head? = some 45 then (-1, s.tail)
  else if s.head? = some 43 then (1, s.tail)
  else (1, s)

/-- The number that `%d` finds at the start of a string. -/
def scanInt (s : List UInt8) : Option Int :=
  let signed := scanSign (s.dropWhile isspace)
  let digits := signed.2.takeWhile isdigit
  if digits.isEmpty then none else some (signed.1 * digitsValue digits)

theorem digit_toNat {n : Nat} (small : n < 10) : (digit n).toNat = 48 + n := by
  unfold digit
  rw [UInt8.toNat_add, UInt8.toNat_ofNat']
  change (48 + n % 256) % 256 = 48 + n
  omega

theorem isdigit_digit {n : Nat} (small : n < 10) : isdigit (digit n) = true := by
  have value := digit_toNat small
  unfold isdigit
  rw [Bool.and_eq_true, decide_eq_true_eq, decide_eq_true_eq, UInt8.le_iff_toNat_le,
    UInt8.le_iff_toNat_le, value]
  change 48 ≤ 48 + n ∧ 48 + n ≤ 57
  omega

theorem digitsValue_append (digits : List UInt8) {n : Nat} (small : n < 10) :
    digitsValue (digits ++ [digit n]) = 10 * digitsValue digits + n := by
  unfold digitsValue
  rw [List.foldl_append, List.foldl_cons, List.foldl_nil, digit_toNat small]
  omega

/-- Printing a number and reading the digits gives the number back. -/
theorem digitsValue_decimal (n : Nat) : digitsValue (decimal n) = n := by
  induction n using Nat.strongRecOn with
  | ind n ih =>
      rw [decimal]
      split
      · next small =>
          exact (digitsValue_append [] small).trans (Nat.zero_add n)
      · rw [digitsValue_append _ (Nat.mod_lt n (by decide)), ih (n / 10) (by omega)]
        omega

theorem isdigit_decimal (n : Nat) : ∀ c ∈ decimal n, isdigit c = true := by
  induction n using Nat.strongRecOn with
  | ind n ih =>
      intro c member
      rw [decimal] at member
      split at member
      · next small =>
          rw [List.mem_singleton.mp member]
          exact isdigit_digit small
      · rcases List.mem_append.mp member with front | last
        · exact ih (n / 10) (by omega) c front
        · rw [List.mem_singleton.mp last]
          exact isdigit_digit (Nat.mod_lt n (by decide))

theorem decimal_ne_nil (n : Nat) : decimal n ≠ [] := by
  rw [decimal]
  split <;> simp

theorem length_decimal_le {n k : Nat} (small : n < 10 ^ (k + 1)) :
    (decimal n).length ≤ k + 1 := by
  induction k generalizing n with
  | zero =>
      have single : n < 10 := Nat.lt_of_lt_of_eq small (Nat.pow_one 10)
      rw [decimal, if_pos single, List.length_singleton]
  | succ k ih =>
      rw [decimal]
      split
      · rw [List.length_singleton]
        omega
      · rw [List.length_append, List.length_singleton]
        have front := ih (n := n / 10) (Nat.div_lt_of_lt_mul (by rwa [← Nat.pow_succ']))
        omega

/-- A digit is neither white space nor a sign. -/
theorem isdigit_plain {c : UInt8} (digit : isdigit c = true) :
    isspace c = false ∧ c ≠ 45 ∧ c ≠ 43 := by
  have low : 48 ≤ c.toNat := UInt8.le_iff_toNat_le.mp (decide_eq_true_eq.mp
    (Bool.and_eq_true_iff.mp digit).1)
  refine ⟨?_, ?_, ?_⟩
  · rw [isspace, Bool.or_eq_false_iff, Bool.and_eq_false_iff, beq_eq_false_iff_ne,
      decide_eq_false_iff_not, decide_eq_false_iff_not, UInt8.le_iff_toNat_le,
      UInt8.le_iff_toNat_le]
    refine ⟨?_, .inr (Nat.not_le.mpr (Nat.lt_of_lt_of_le (by decide) low))⟩
    rintro rfl
    exact absurd low (by decide)
  · rintro rfl
    exact absurd low (by decide)
  · rintro rfl
    exact absurd low (by decide)

/-- Digits at the start of a string are what is read. -/
theorem scanSign_digits {c : UInt8} (digit : isdigit c = true) (more : List UInt8) :
    scanSign ((c :: more).dropWhile isspace) = (1, c :: more) := by
  have plain := isdigit_plain digit
  rw [List.dropWhile_cons, if_neg (by simp [plain.1])]
  simp [scanSign, plain.2]

/-- A printed number is read back from the start of a string. -/
theorem scanInt_decimal (n : Nat) {rest : List UInt8}
    (stop : ∀ c, rest.head? = some c → isdigit c = false) :
    scanInt (decimal n ++ rest) = some (n : Int) := by
  have digits := isdigit_decimal n
  have value := digitsValue_decimal n
  have front : (decimal n ++ rest).takeWhile isdigit = decimal n := by
    rw [List.takeWhile_append_of_pos digits]
    cases rest with
    | nil => simp
    | cons c rest => rw [List.takeWhile_cons, if_neg (by simp [stop c rfl]), List.append_nil]
  cases printed : decimal n with
  | nil => exact absurd printed (decimal_ne_nil n)
  | cons c more =>
      rw [printed] at digits value front
      have sign := scanSign_digits (digits c List.mem_cons_self) (more ++ rest)
      rw [← List.cons_append] at sign
      simp only [scanInt, sign, front, value, List.isEmpty_cons, Bool.false_eq_true, if_false,
        Int.one_mul]

end CompNet.Lib
