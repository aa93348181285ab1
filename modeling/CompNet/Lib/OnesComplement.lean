import Mathlib.Algebra.Order.Ring.Int
import Mathlib.Data.List.Basic

/-!
# One's-complement sums

The sum that Internet checksums are made of: bytes are read as 16-bit words, high byte
first, a single last byte as the high byte of a word, and the words are added with the
carry brought around.  What such a sum comes to depends on the plain sum of the words
alone (`onesSum_eq`): it is the plain sum modulo 65535, with 65535 for every multiple
except 0 itself.
-/

namespace CompNet.Lib

/-- The 16-bit words of a list of bytes. -/
def words : List UInt8 → List Nat
  | [] => []
  | [a] => [a.toNat * 256]
  | a :: b :: rest => (a.toNat * 256 + b.toNat) :: words rest

/-- Addition of 16-bit words with end-around carry. -/
def addCarry (a b : Nat) : Nat := (a + b) % 65536 + (a + b) / 65536

/-- The 16-bit one's-complement sum. -/
def onesSum (bytes : List UInt8) : Nat := (words bytes).foldl addCarry 0

/-- The plain sum of the words. -/
def wordSum (bytes : List UInt8) : Nat := (words bytes).sum

/-- What is left of a number when its carries have been brought around. -/
def endAround (n : Nat) : Nat := if n = 0 then 0 else (n - 1) % 65535 + 1

variable {xs ys : List UInt8} {n m w : Nat}

/-! ## Carries -/

theorem endAround_le (n : Nat) : endAround n ≤ 65535 := by
  unfold endAround
  split
  · omega
  · omega

theorem endAround_mod (n : Nat) : endAround n % 65535 = n % 65535 := by
  unfold endAround
  split
  · omega
  · omega

theorem endAround_eq_zero : endAround n = 0 ↔ n = 0 := by
  unfold endAround
  split
  · omega
  · omega

/-- The sums that verify. -/
theorem endAround_eq_top : endAround n = 65535 ↔ n ≠ 0 ∧ n % 65535 = 0 := by
  unfold endAround
  split
  · omega
  · omega

theorem endAround_of_le (le : n ≤ 65535) : endAround n = n := by
  unfold endAround
  split
  · omega
  · omega

theorem endAround_mul_add (q : Nat) (some : 0 < n) (le : n ≤ 65535) :
    endAround (65535 * q + n) = n := by
  have shift : 65535 * q + n - 1 = 65535 * q + (n - 1) := by omega
  rw [endAround, if_neg (by omega), shift, Nat.mul_add_mod, Nat.mod_eq_of_lt (by omega)]
  omega

theorem addCarry_endAround (word : w < 65536) : addCarry (endAround n) w = endAround (n + w) := by
  have le := endAround_le n
  have mod := endAround_mod n
  have zero := endAround_eq_zero (n := n)
  unfold addCarry
  generalize endAround n = r at le mod zero
  unfold endAround
  split
  · omega
  · omega

/-! ## Sums -/

theorem words_lt : ∀ (xs : List UInt8) (w : Nat), w ∈ words xs → w < 65536
  | [], w, member => absurd member List.not_mem_nil
  | [a], w, member => by
      have bound := a.toNat_lt
      rw [words, List.mem_singleton] at member
      omega
  | a :: b :: rest, w, member => by
      have bound := a.toNat_lt
      have bound' := b.toNat_lt
      rw [words, List.mem_cons] at member
      rcases member with rfl | later
      · omega
      · exact words_lt rest w later

theorem foldl_addCarry (ws : List Nat) (small : ∀ w ∈ ws, w < 65536) (n : Nat) :
    ws.foldl addCarry (endAround n) = endAround (n + ws.sum) := by
  induction ws generalizing n with
  | nil => rfl
  | cons w ws ih =>
      rw [List.foldl_cons, addCarry_endAround (small w List.mem_cons_self),
        ih (fun v member => small v (List.mem_cons_of_mem w member)), List.sum_cons, Nat.add_assoc]

/-- The carries can be brought around at the end. -/
theorem onesSum_eq (xs : List UInt8) : onesSum xs = endAround (wordSum xs) := by
  have sum := foldl_addCarry (words xs) (words_lt xs) 0
  rw [Nat.zero_add] at sum
  exact sum

@[simp] theorem wordSum_nil : wordSum [] = 0 := rfl

@[simp] theorem wordSum_single (a : UInt8) : wordSum [a] = a.toNat * 256 := by
  rw [wordSum, words, List.sum_singleton]

@[simp] theorem wordSum_cons_cons (a b : UInt8) (rest : List UInt8) :
    wordSum (a :: b :: rest) = a.toNat * 256 + b.toNat + wordSum rest := rfl

theorem wordSum_le : ∀ xs : List UInt8, wordSum xs ≤ 65535 * ((xs.length + 1) / 2)
  | [] => Nat.zero_le _
  | [a] => by
      have bound := a.toNat_lt
      rw [wordSum_single, List.length_singleton]
      omega
  | a :: b :: rest => by
      have bound := a.toNat_lt
      have bound' := b.toNat_lt
      have later := wordSum_le rest
      rw [wordSum_cons_cons, List.length_cons, List.length_cons]
      omega

/-! ## Sums of two parts

The second part starts at a word, or with the low byte of one. -/

theorem wordSum_append_even : ∀ {xs : List UInt8}, xs.length % 2 = 0 → ∀ ys : List UInt8,
    wordSum (xs ++ ys) = wordSum xs + wordSum ys
  | [], _, ys => by rw [List.nil_append, wordSum_nil, Nat.zero_add]
  | [a], even, _ => by cases even
  | a :: b :: rest, even, ys => by
      have even' : rest.length % 2 = 0 := by
        rw [List.length_cons, List.length_cons] at even
        omega
      rw [List.cons_append, List.cons_append, wordSum_cons_cons, wordSum_cons_cons,
        wordSum_append_even even']
      omega

theorem wordSum_append_odd : ∀ {xs : List UInt8}, xs.length % 2 = 1 → ∀ ys : List UInt8,
    wordSum (xs ++ ys) = wordSum xs + wordSum (0 :: ys)
  | [], odd, _ => by cases odd
  | [a], _, [] => by
      rw [List.append_nil, wordSum_single, wordSum_single, UInt8.toNat_zero, Nat.zero_mul,
        Nat.add_zero]
  | [a], _, b :: ys => by
      rw [List.cons_append, List.nil_append, wordSum_cons_cons, wordSum_cons_cons, wordSum_single]
      rw [UInt8.toNat_zero]
      omega
  | a :: b :: rest, odd, ys => by
      have odd' : rest.length % 2 = 1 := by
        rw [List.length_cons, List.length_cons] at odd
        omega
      rw [List.cons_append, List.cons_append, wordSum_cons_cons, wordSum_cons_cons,
        wordSum_append_odd odd']
      omega

end CompNet.Lib
