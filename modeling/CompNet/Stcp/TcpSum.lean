import CompNet.Lib.OnesComplement
import CompNet.Stcp.Mysock
import Mathlib.Data.List.GetD

/-!
# The checksum of an STCP segment

`tcp_sum.c`.  The segment and its pseudo header are read from memory as 16-bit words in the byte
order of the host, whichever it is, and the words are added up in an `int32_t`, where an overflow
would be undefined.  A byte counts once or 256 times in the plain sum, by its position, and the
sum with its carries brought around is the plain sum modulo 65535.
-/

namespace CompNet.Stcp

open CompNet.Lib

/-! ## The functions -/

/-- The byte order of the host. -/
inductive ByteOrder
  | little
  | big
  deriving DecidableEq, Repr

/-- What a byte at an address of this parity counts in a 16-bit word. -/
def ByteOrder.weight : ByteOrder → Nat → Nat
  | .little, i => if i % 2 = 0 then 1 else 256
  | .big, i => if i % 2 = 0 then 256 else 1

/-- A 16-bit word in memory. -/
def ByteOrder.word (order : ByteOrder) (first second : UInt8) : Nat :=
  first.toNat * order.weight 0 + second.toNat * order.weight 1

/-- A 16-bit word as it is stored. -/
def ByteOrder.bytes : ByteOrder → UInt16 → UInt8 × UInt8
  | .little, n => (n.toUInt8, (n >>> 8).toUInt8)
  | .big, n => ((n >>> 8).toUInt8, n.toUInt8)

/-- `((uint16_t *) packet)[k]`. -/
def wordAt (order : ByteOrder) (packet : Bytes) (k : Nat) : Nat :=
  order.word (packet.getD (2 * k) 0) (packet.getD (2 * k + 1) 0)

/-- `sum += word` in an `int32_t`; `none` where it overflows. -/
def addInt32 (sum : Int) (word : Nat) : Option Int :=
  if sum + word < 2 ^ 31 then some (sum + word) else none

/-- `pseudo_header`; the addresses are in network byte order. -/
def pseudoHeader (srcAddr dstAddr : UInt32) (len : Nat) : Bytes :=
  be32 srcAddr ++ be32 dstAddr ++ [0, 6] ++ be16 (UInt16.ofNat len)

/-- `offsetof(struct tcphdr, th_sum)`. -/
def thSumOffset : Nat := 16

/-- The last byte of a segment of odd length is the first byte of a word. -/
def addOddByte (order : ByteOrder) (packet : Bytes) (sum : Int) : Option Int :=
  if packet.length % 2 = 1 then
    addInt32 sum (order.word (packet.getD (packet.length - 1) 0) 0)
  else some sum

/-- Two folds of the 32-bit sum, and the complement. -/
def foldSum32 (sum : Int) : UInt16 :=
  let sum := sum / 65536 + sum % 65536
  let sum := sum + sum / 65536
  UInt16.ofNat ((-1 - sum) % 65536).toNat

/-- `_mysock_tcp_checksum`; `none` where an assertion fails or the sum overflows. -/
def mysockTcpChecksum (order : ByteOrder) (srcAddr dstAddr : UInt32) (packet : Bytes) :
    Option UInt16 := do
  let len := packet.length
  guard (len ≥ headerLen)
  guard (srcAddr > 0)
  guard (dstAddr > 0)
  let sum ← (List.range 6).foldlM
    (fun sum k => addInt32 sum (wordAt order (pseudoHeader srcAddr dstAddr len) k)) (0 : Int)
  let sum ← (List.range (len / 2)).foldlM
    (fun sum k =>
      if k = thSumOffset / 2 then some sum else addInt32 sum (wordAt order packet k)) sum
  let sum ← addOddByte order packet sum
  return foldSum32 sum

/-- What the two functions below read of a connection: `_network_get_local_addr` and `peer_addr`. -/
structure Addresses where
  localAddr : UInt32
  peerAddr : UInt32

/-- `((struct tcphdr *) packet)->th_sum`. -/
def thSum (order : ByteOrder) (packet : Bytes) : Nat := wordAt order packet (thSumOffset / 2)

/-- The segment with another `th_sum`. -/
def putThSum (packet : Bytes) (pair : UInt8 × UInt8) : Bytes :=
  (packet.set thSumOffset pair.1).set (thSumOffset + 1) pair.2

/-- `_mysock_set_checksum`: the segment with its checksum. -/
def mysockSetChecksum (order : ByteOrder) (ctx : Addresses) (packet : Bytes) : Option Bytes :=
  (mysockTcpChecksum order ctx.localAddr ctx.peerAddr packet).map fun sum =>
    putThSum packet (order.bytes sum)

/-- `_mysock_verify_checksum`. -/
def mysockVerifyChecksum (order : ByteOrder) (ctx : Addresses) (packet : Bytes) : Option Bool :=
  (mysockTcpChecksum order ctx.peerAddr ctx.localAddr packet).map fun sum =>
    sum.toNat == thSum order packet

/-! ## Plain sums -/

/-- The plain sum of the words of bytes that start at address `i`. -/
def ByteOrder.weigh (order : ByteOrder) (i : Nat) : Bytes → Nat
  | [] => 0
  | byte :: bytes => byte.toNat * order.weight i + order.weigh (i + 1) bytes

section

variable (order : ByteOrder) {i j : Nat} {bytes : Bytes}

theorem ByteOrder.weight_even (k : Nat) :
    order.weight (2 * k) = order.weight 0 := by
  cases order <;> simp [weight]

theorem ByteOrder.weight_odd (k : Nat) :
    order.weight (2 * k + 1) = order.weight 1 := by
  cases order <;> simp [weight]

theorem ByteOrder.weight_range (i : Nat) :
    0 < order.weight i ∧ order.weight i ≤ 256 := by
  cases order <;> simp only [weight] <;> split <;> omega

theorem ByteOrder.weigh_append (i : Nat) (bytes more : Bytes) :
    order.weigh i (bytes ++ more) = order.weigh i bytes + order.weigh (i + bytes.length) more := by
  induction bytes generalizing i with
  | nil => simp [weigh]
  | cons byte bytes ih =>
      rw [List.cons_append, weigh, weigh, ih, List.length_cons, Nat.add_assoc, Nat.add_assoc,
        Nat.add_comm 1]

theorem ByteOrder.weigh_even (k : Nat) (bytes : Bytes) :
    order.weigh (i + 2 * k) bytes = order.weigh i bytes := by
  induction bytes generalizing i with
  | nil => rfl
  | cons byte bytes ih =>
      have weight : order.weight (i + 2 * k) = order.weight i := by
        cases order <;> simp [ByteOrder.weight]
      have next : i + 2 * k + 1 = i + 1 + 2 * k := by omega
      rw [weigh, weigh, weight, next, ih]

theorem ByteOrder.weigh_le (i : Nat) (bytes : Bytes) :
    order.weigh i bytes ≤ 65280 * bytes.length := by
  induction bytes generalizing i with
  | nil => exact Nat.zero_le _
  | cons byte bytes ih =>
      have later := ih (i + 1)
      have small := byte.toNat_lt
      have first : byte.toNat * order.weight i ≤ 255 * 256 :=
        Nat.mul_le_mul (by omega) (order.weight_range i).2
      rw [weigh, List.length_cons]
      omega

/-- Another byte at a place shows in the sum by its weight there. -/
theorem ByteOrder.weigh_set (byte : UInt8) (inside : i < bytes.length) :
    order.weigh j (bytes.set i byte) + bytes[i].toNat * order.weight (j + i) =
      order.weigh j bytes + byte.toNat * order.weight (j + i) := by
  induction bytes generalizing i j with
  | nil => exact absurd inside (Nat.not_lt_zero i)
  | cons first bytes ih =>
      cases i with
      | zero =>
          simp only [List.set_cons_zero, weigh, List.getElem_cons_zero, Nat.add_zero]
          omega
      | succ i =>
          have later := ih (j := j + 1) (Nat.lt_of_succ_lt_succ inside)
          have place : j + (i + 1) = j + 1 + i := by omega
          simp only [List.set_cons_succ, weigh, List.getElem_cons_succ, place]
          omega

/-- The first words of some bytes. -/
theorem ByteOrder.weigh_take_succ {k : Nat} (inside : 2 * (k + 1) ≤ bytes.length) :
    order.weigh 0 (bytes.take (2 * (k + 1))) =
      order.weigh 0 (bytes.take (2 * k)) + wordAt order bytes k := by
  have second : 2 * k + 1 < bytes.length := by omega
  have first : 2 * k < bytes.length := by omega
  rw [show 2 * (k + 1) = 2 * k + 1 + 1 by omega, List.take_succ_eq_append_getElem second,
    List.take_succ_eq_append_getElem first, List.append_assoc, weigh_append, List.length_take,
    Nat.min_eq_left (Nat.le_of_lt first), Nat.zero_add, wordAt, word,
    List.getD_eq_getElem _ _ first, List.getD_eq_getElem _ _ second]
  simp only [List.cons_append, List.nil_append, weigh, weight_even, weight_odd, Nat.add_zero]

theorem ByteOrder.weigh_take_le (bytes : Bytes) (n : Nat) :
    order.weigh 0 (bytes.take n) ≤ order.weigh 0 bytes := by
  have whole := order.weigh_append 0 (bytes.take n) (bytes.drop n)
  rw [List.take_append_drop] at whole
  omega

/-- The last byte of an odd number of bytes is the first of a word. -/
theorem ByteOrder.weigh_odd {k : Nat} (length : bytes.length = 2 * k + 1) :
    order.weigh 0 bytes =
      order.weigh 0 (bytes.take (2 * k)) + order.word (bytes.getD (2 * k) 0) 0 := by
  have last : 2 * k < bytes.length := by omega
  have whole : bytes.take (2 * k + 1) = bytes := List.take_of_length_le (Nat.le_of_eq length)
  have cut := List.take_succ_eq_append_getElem last
  rw [whole] at cut
  nth_rewrite 1 [cut]
  rw [weigh_append, List.length_take, Nat.min_eq_left (Nat.le_of_lt last), Nat.zero_add, word,
    List.getD_eq_getElem _ _ last]
  simp [weigh, weight_even]

end

/-! ## The loops -/

/-- The segment with a zero checksum. -/
def clearThSum (packet : Bytes) : Bytes := putThSum packet (0, 0)

@[simp] theorem length_putThSum (packet : Bytes) (pair : UInt8 × UInt8) :
    (putThSum packet pair).length = packet.length := by
  simp [putThSum]

theorem getD_putThSum {packet : Bytes} {pair : UInt8 × UInt8} {i : Nat}
    (outside : i ≠ thSumOffset ∧ i ≠ thSumOffset + 1) :
    (putThSum packet pair).getD i 0 = packet.getD i 0 := by
  simp [putThSum, List.getD_eq_getElem?_getD, List.getElem?_set_ne outside.1.symm,
    List.getElem?_set_ne outside.2.symm]

/-- Leaving the word of the checksum out is reading it as zero. -/
theorem wordAt_clearThSum (order : ByteOrder) (packet : Bytes) (k : Nat) :
    wordAt order (clearThSum packet) k =
      if k = thSumOffset / 2 then 0 else wordAt order packet k := by
  split
  · next here =>
      subst here
      have first : (clearThSum packet).getD (2 * (thSumOffset / 2)) 0 = 0 := by
        simp [clearThSum, putThSum, thSumOffset, List.getD_eq_getElem?_getD, List.getElem?_set]
        split <;> rfl
      have second : (clearThSum packet).getD (2 * (thSumOffset / 2) + 1) 0 = 0 := by
        simp [clearThSum, putThSum, thSumOffset, List.getD_eq_getElem?_getD, List.getElem?_set]
        split <;> rfl
      rw [wordAt, first, second, ByteOrder.word, UInt8.toNat_zero, Nat.zero_mul, Nat.zero_mul]
  · next elsewhere =>
      have outside : 2 * k ≠ thSumOffset ∧ 2 * k ≠ thSumOffset + 1 ∧ 2 * k + 1 ≠ thSumOffset ∧
          2 * k + 1 ≠ thSumOffset + 1 := by
        unfold thSumOffset at *
        omega
      rw [wordAt, clearThSum, getD_putThSum ⟨outside.1, outside.2.1⟩,
        getD_putThSum ⟨outside.2.2.1, outside.2.2.2⟩, wordAt]

theorem addInt32_of_small {sum word : Nat} (small : sum + word < 2 ^ 31) :
    addInt32 sum word = some ((sum + word : Nat) : Int) := by
  rw [addInt32, if_pos (by omega), Int.natCast_add]

/-- A loop that adds up words, or leaves out words that are zero, adds up the bytes. -/
theorem foldlM_words {order : ByteOrder} {bytes : Bytes} {add : Int → Nat → Option Int}
    {start n : Nat}
    (adds : ∀ sum k : Nat, sum + wordAt order bytes k < 2 ^ 31 →
      add sum k = some ((sum + wordAt order bytes k : Nat) : Int))
    (inside : 2 * n ≤ bytes.length) (small : start + order.weigh 0 bytes < 2 ^ 31) :
    (List.range n).foldlM add (start : Int) =
      some ((start + order.weigh 0 (bytes.take (2 * n)) : Nat) : Int) := by
  induction n with
  | zero => simp [ByteOrder.weigh]
  | succ n ih =>
      have bound := order.weigh_take_le bytes (2 * (n + 1))
      have next := order.weigh_take_succ inside
      rw [List.range_succ, List.foldlM_append, ih (by omega), Option.bind_eq_bind,
        Option.bind_some, List.foldlM_cons, adds _ _ (by omega), next, Nat.add_assoc]
      rfl

/-- The plain sum of the pseudo header and the segment. -/
def plainSum (order : ByteOrder) (srcAddr dstAddr : UInt32) (packet : Bytes) : Nat :=
  order.weigh 0 (pseudoHeader srcAddr dstAddr packet.length) + order.weigh 0 (clearThSum packet)

@[simp] theorem length_pseudoHeader (srcAddr dstAddr : UInt32) (len : Nat) :
    (pseudoHeader srcAddr dstAddr len).length = 12 := rfl

theorem plainSum_lt {order : ByteOrder} {srcAddr dstAddr : UInt32} {packet : Bytes}
    (short : packet.length ≤ 1500) : plainSum order srcAddr dstAddr packet < 2 ^ 31 := by
  have first := order.weigh_le 0 (pseudoHeader srcAddr dstAddr packet.length)
  have second := order.weigh_le 0 (clearThSum packet)
  rw [length_pseudoHeader] at first
  rw [clearThSum, length_putThSum] at second
  rw [plainSum, clearThSum]
  omega

/-- Two folds bring all carries around. -/
theorem foldSum32_eq {n : Nat} (small : n < 2 ^ 31) :
    foldSum32 n = UInt16.ofNat (65535 - endAround n) := by
  obtain ⟨high, low, least, rfl⟩ : ∃ high low, low < 65536 ∧ n = 65536 * high + low :=
    ⟨n / 65536, n % 65536, Nat.mod_lt _ (by omega), (Nat.div_add_mod n 65536).symm⟩
  have first : ((65536 * high + low : Nat) : Int) / 65536 +
      ((65536 * high + low : Nat) : Int) % 65536 = ((high + low : Nat) : Int) := by
    omega
  have second : endAround (65536 * high + low) =
      (high + low + (high + low) / 65536) % 65536 := by
    rcases Nat.lt_or_ge (high + low) 65536 with plain | carry
    · rcases Nat.eq_zero_or_pos (high + low) with zero | some
      · obtain ⟨rfl, rfl⟩ : high = 0 ∧ low = 0 := by omega
        rfl
      · have sum : 65536 * high + low = 65535 * high + (high + low) := by omega
        rw [sum, endAround_mul_add high some (by omega)]
        omega
    · have sum : 65536 * high + low = 65535 * (high + 1) + (high + low - 65535) := by omega
      rw [sum, endAround_mul_add (high + 1) (by omega) (by omega)]
      omega
  unfold foldSum32
  dsimp only
  rw [first, second]
  congr 1
  omega

/-! ## The checksum -/

/-- The loop over the pseudo header. -/
theorem foldlM_pseudoHeader {order : ByteOrder} {srcAddr dstAddr : UInt32} {len : Nat}
    (small : order.weigh 0 (pseudoHeader srcAddr dstAddr len) < 2 ^ 31) :
    (List.range 6).foldlM (fun sum k => addInt32 sum
        (wordAt order (pseudoHeader srcAddr dstAddr len) k)) (0 : Int) =
      some (order.weigh 0 (pseudoHeader srcAddr dstAddr len) : Int) := by
  have sum : (List.range 6).foldlM (fun sum k => addInt32 sum
      (wordAt order (pseudoHeader srcAddr dstAddr len) k)) ((0 : Nat) : Int) = some _ :=
    foldlM_words (fun sum k small => addInt32_of_small small) (Nat.le_refl _) (by omega)
  rw [List.take_of_length_le (Nat.le_refl 12), Nat.zero_add] at sum
  exact sum

/-- The loop over the segment adds up the segment with a zero checksum. -/
theorem foldlM_segment {order : ByteOrder} {packet : Bytes} {start n : Nat}
    (inside : 2 * n ≤ packet.length)
    (small : start + order.weigh 0 (clearThSum packet) < 2 ^ 31) :
    (List.range n).foldlM (fun sum k => if k = thSumOffset / 2 then some sum
        else addInt32 sum (wordAt order packet k)) (start : Int) =
      some ((start + order.weigh 0 ((clearThSum packet).take (2 * n)) : Nat) : Int) := by
  apply foldlM_words _ (by simpa [clearThSum] using inside) small
  intro sum k small
  rw [wordAt_clearThSum] at small ⊢
  split
  · rfl
  · next elsewhere =>
      rw [if_neg elsewhere] at small
      exact addInt32_of_small small

theorem addOddByte_eq {order : ByteOrder} {packet : Bytes} {start : Nat}
    (long : 20 ≤ packet.length) (small : start + order.weigh 0 (clearThSum packet) < 2 ^ 31) :
    addOddByte order packet ((start +
        order.weigh 0 ((clearThSum packet).take (2 * (packet.length / 2))) : Nat) : Int) =
      some ((start + order.weigh 0 (clearThSum packet) : Nat) : Int) := by
  have length : (clearThSum packet).length = packet.length := length_putThSum packet (0, 0)
  unfold addOddByte
  split
  · next odd =>
      have last : packet.length - 1 = 2 * (packet.length / 2) := by omega
      have outside : packet.length - 1 ≠ thSumOffset ∧ packet.length - 1 ≠ thSumOffset + 1 := by
        unfold thSumOffset
        omega
      have size : (clearThSum packet).length = 2 * (packet.length / 2) + 1 := by omega
      have whole := order.weigh_odd size
      rw [← last, clearThSum, getD_putThSum outside, ← clearThSum, last] at whole
      rw [last, addInt32_of_small (by omega), Nat.add_assoc, ← whole]
  · next even =>
      rw [List.take_of_length_le (by omega)]

/-- `_mysock_tcp_checksum` is the complement of the one's-complement sum, without any overflow. -/
theorem mysockTcpChecksum_eq (order : ByteOrder) {srcAddr dstAddr : UInt32} {packet : Bytes}
    (long : 20 ≤ packet.length) (short : packet.length ≤ 1500) (src : srcAddr ≠ 0)
    (dst : dstAddr ≠ 0) :
    mysockTcpChecksum order srcAddr dstAddr packet =
      some (UInt16.ofNat (65535 - endAround (plainSum order srcAddr dstAddr packet))) := by
  have small : plainSum order srcAddr dstAddr packet < 2 ^ 31 := plainSum_lt short
  have header : order.weigh 0 (pseudoHeader srcAddr dstAddr packet.length) < 2 ^ 31 := by
    unfold plainSum at small
    omega
  have words : 2 * (packet.length / 2) ≤ packet.length := by omega
  have src : srcAddr > 0 := UInt32.pos_iff_ne_zero.mpr src
  have dst : dstAddr > 0 := UInt32.pos_iff_ne_zero.mpr dst
  unfold mysockTcpChecksum
  simp only [guard, headerLen, ge_iff_le, long, src, dst, if_true, Option.pure_def,
    Option.bind_eq_bind, Option.bind_some, foldlM_pseudoHeader header, foldlM_segment words small,
    addOddByte_eq long small]
  rw [← foldSum32_eq small, plainSum]

/-- The addresses count alike. -/
theorem plainSum_swap (order : ByteOrder) (srcAddr dstAddr : UInt32) (packet : Bytes) :
    plainSum order srcAddr dstAddr packet = plainSum order dstAddr srcAddr packet := by
  have header : order.weigh 0 (pseudoHeader srcAddr dstAddr packet.length) =
      order.weigh 0 (pseudoHeader dstAddr srcAddr packet.length) := by
    have second (addr : UInt32) : order.weigh 4 (be32 addr) = order.weigh 0 (be32 addr) :=
      order.weigh_even 2 (be32 addr)
    have size (addr : UInt32) : (be32 addr).length = 4 := rfl
    simp only [pseudoHeader, ByteOrder.weigh_append, List.length_append, size, Nat.zero_add, second]
    omega
  rw [plainSum, header, plainSum]

theorem clearThSum_putThSum (packet : Bytes) (pair : UInt8 × UInt8) :
    clearThSum (putThSum packet pair) = clearThSum packet := by
  unfold clearThSum putThSum
  rw [List.set_comm _ _ (by decide), List.set_set, List.set_comm _ _ (by decide), List.set_set]

theorem plainSum_putThSum (order : ByteOrder) (srcAddr dstAddr : UInt32) (packet : Bytes)
    (pair : UInt8 × UInt8) :
    plainSum order srcAddr dstAddr (putThSum packet pair) =
      plainSum order srcAddr dstAddr packet := by
  rw [plainSum, clearThSum_putThSum, length_putThSum, plainSum]

theorem ByteOrder.word_bytes (order : ByteOrder) (n : UInt16) :
    order.word (order.bytes n).1 (order.bytes n).2 = n.toNat := by
  have bound := n.toNat_lt
  have high : (n >>> 8).toUInt8.toNat = n.toNat / 256 % 256 := by
    rw [UInt16.toNat_toUInt8, UInt16.toNat_shiftRight, Nat.shiftRight_eq_div_pow]
    rfl
  have low : n.toUInt8.toNat = n.toNat % 256 := UInt16.toNat_toUInt8 n
  cases order with
  | little =>
      show n.toUInt8.toNat * 1 + (n >>> 8).toUInt8.toNat * 256 = n.toNat
      omega
  | big =>
      show (n >>> 8).toUInt8.toNat * 256 + n.toUInt8.toNat * 1 = n.toNat
      omega

theorem thSum_putThSum (order : ByteOrder) {packet : Bytes} (n : UInt16)
    (long : 20 ≤ packet.length) : thSum order (putThSum packet (order.bytes n)) = n.toNat := by
  have first : (putThSum packet (order.bytes n)).getD (2 * (thSumOffset / 2)) 0 =
      (order.bytes n).1 := by
    have inside : 16 < packet.length := by omega
    simp [putThSum, thSumOffset, List.getD_eq_getElem?_getD, inside]
  have second : (putThSum packet (order.bytes n)).getD (2 * (thSumOffset / 2) + 1) 0 =
      (order.bytes n).2 := by
    have inside : 17 < packet.length := by omega
    simp [putThSum, thSumOffset, List.getD_eq_getElem?_getD, inside]
  rw [thSum, wordAt, first, second, order.word_bytes]

/-- What `_mysock_verify_checksum` compares. -/
theorem mysockVerifyChecksum_eq (order : ByteOrder) {ctx : Addresses} {packet : Bytes}
    (long : 20 ≤ packet.length) (short : packet.length ≤ 1500) (src : ctx.peerAddr ≠ 0)
    (dst : ctx.localAddr ≠ 0) :
    mysockVerifyChecksum order ctx packet =
      some (65535 - endAround (plainSum order ctx.peerAddr ctx.localAddr packet) ==
        thSum order packet) := by
  have value : (UInt16.ofNat (65535 -
      endAround (plainSum order ctx.peerAddr ctx.localAddr packet))).toNat =
      65535 - endAround (plainSum order ctx.peerAddr ctx.localAddr packet) :=
    UInt16.toNat_ofNat_of_lt' (by unfold UInt16.size; omega)
  rw [mysockVerifyChecksum, mysockTcpChecksum_eq order long short src dst, Option.map_some, value]

/-! ## One byte changed -/

theorem ByteOrder.weight_cases (order : ByteOrder) (i : Nat) :
    order.weight i = 1 ∨ order.weight i = 256 := by
  cases order <;> simp only [weight] <;> split <;> simp

theorem ByteOrder.word_inj {order : ByteOrder} {a b c d : UInt8}
    (same : order.word a b = order.word c d) : a = c ∧ b = d := by
  have boundA := a.toNat_lt
  have boundB := b.toNat_lt
  have boundC := c.toNat_lt
  have boundD := d.toNat_lt
  rw [← UInt8.toNat_inj, ← UInt8.toNat_inj]
  cases order with
  | little =>
      change a.toNat * 1 + b.toNat * 256 = c.toNat * 1 + d.toNat * 256 at same
      omega
  | big =>
      change a.toNat * 256 + b.toNat * 1 = c.toNat * 256 + d.toNat * 1 at same
      omega

/-- Another byte in the checksum field makes another checksum. -/
theorem thSum_set_ne {order : ByteOrder} {packet : Bytes} {i : Nat} {byte : UInt8}
    (inside : i < packet.length) (field : i = thSumOffset ∨ i = thSumOffset + 1)
    (other : byte ≠ packet[i]) : thSum order (packet.set i byte) ≠ thSum order packet := by
  intro same
  obtain ⟨first, second⟩ := ByteOrder.word_inj same
  have there : (packet.set i byte).getD i 0 = byte := by
    simp [List.getD_eq_getElem?_getD, inside]
  rcases field with rfl | rfl
  · exact other (there.symm.trans (first.trans (List.getD_eq_getElem _ _ inside)))
  · exact other (there.symm.trans (second.trans (List.getD_eq_getElem _ _ inside)))

theorem thSum_set {order : ByteOrder} {packet : Bytes} {i : Nat} (byte : UInt8)
    (outside : i ≠ thSumOffset ∧ i ≠ thSumOffset + 1) :
    thSum order (packet.set i byte) = thSum order packet := by
  have first : i ≠ 2 * (thSumOffset / 2) := outside.1
  have second : i ≠ 2 * (thSumOffset / 2) + 1 := outside.2
  simp only [thSum, wordAt, List.getD_eq_getElem?_getD, List.getElem?_set_ne first,
    List.getElem?_set_ne second]

theorem clearThSum_set {packet : Bytes} {i : Nat} (byte : UInt8)
    (outside : i ≠ thSumOffset ∧ i ≠ thSumOffset + 1) :
    clearThSum (packet.set i byte) = (clearThSum packet).set i byte := by
  unfold clearThSum putThSum
  rw [List.set_comm _ _ outside.1, List.set_comm _ _ outside.2]

/-- Outside the field, it makes another sum. -/
theorem endAround_set_ne {order : ByteOrder} {srcAddr dstAddr : UInt32} {packet : Bytes} {i : Nat}
    {byte : UInt8} (inside : i < packet.length)
    (outside : i ≠ thSumOffset ∧ i ≠ thSumOffset + 1) (other : byte ≠ packet[i]) :
    endAround (plainSum order srcAddr dstAddr (packet.set i byte)) ≠
      endAround (plainSum order srcAddr dstAddr packet) := by
  intro same
  have cleared : i < (clearThSum packet).length := by rwa [clearThSum, length_putThSum]
  have kept : (clearThSum packet)[i] = packet[i] := by
    have kept : (clearThSum packet).getD i 0 = packet.getD i 0 := getD_putThSum outside
    rwa [List.getD_eq_getElem _ _ inside, List.getD_eq_getElem _ _ cleared] at kept
  have change := order.weigh_set (j := 0) byte cleared
  rw [kept, ← clearThSum_set byte outside] at change
  have differ : byte.toNat ≠ packet[i].toNat := fun eq => other (UInt8.toNat_inj.mp eq)
  have bound := byte.toNat_lt
  have bound' := packet[i].toNat_lt
  have mods := endAround_mod (plainSum order srcAddr dstAddr (packet.set i byte))
  rw [same, endAround_mod] at mods
  simp only [plainSum, List.length_set] at mods
  rcases order.weight_cases (0 + i) with weight | weight <;> rw [weight] at change <;> omega

theorem plainSum_set_field {order : ByteOrder} {srcAddr dstAddr : UInt32} {packet : Bytes} {i : Nat}
    (byte : UInt8) (field : i = thSumOffset ∨ i = thSumOffset + 1) :
    plainSum order srcAddr dstAddr (packet.set i byte) =
      plainSum order srcAddr dstAddr packet := by
  have cleared : clearThSum (packet.set i byte) = clearThSum packet := by
    unfold clearThSum putThSum
    rcases field with rfl | rfl
    · rw [List.set_set]
    · rw [List.set_comm _ _ (by decide), List.set_set, List.set_comm _ _ (by decide)]
  rw [plainSum, cleared, List.length_set, plainSum]

/-- A segment that verifies does not verify with one byte changed. -/
theorem mysockVerifyChecksum_changed {order : ByteOrder} {ctx : Addresses} {packet : Bytes}
    (long : 20 ≤ packet.length) (short : packet.length ≤ 1500) (src : ctx.peerAddr ≠ 0)
    (dst : ctx.localAddr ≠ 0)
    (verified : thSum order packet =
      65535 - endAround (plainSum order ctx.peerAddr ctx.localAddr packet))
    {i : Nat} {byte : UInt8} (inside : i < packet.length) (other : byte ≠ packet[i]) :
    mysockVerifyChecksum order ctx (packet.set i byte) = some false := by
  have size : (packet.set i byte).length = packet.length := List.length_set
  rw [← size] at long short
  rw [mysockVerifyChecksum_eq order long short src dst, Option.some_inj, beq_eq_false_iff_ne]
  by_cases field : i = thSumOffset ∨ i = thSumOffset + 1
  · rw [plainSum_set_field byte field, ← verified]
    exact (thSum_set_ne inside field other).symm
  · have outside := not_or.mp field
    have differ : endAround (plainSum order ctx.peerAddr ctx.localAddr (packet.set i byte)) ≠ _ :=
      endAround_set_ne inside outside other
    have le := endAround_le (plainSum order ctx.peerAddr ctx.localAddr packet)
    have le' := endAround_le (plainSum order ctx.peerAddr ctx.localAddr (packet.set i byte))
    rw [thSum_set byte outside, verified]
    omega

/-- `_mysock_set_checksum` makes the field what the sum of the segment asks for. -/
theorem mysockSetChecksum_spec (order : ByteOrder) {ctx : Addresses} {packet : Bytes}
    (long : 20 ≤ packet.length) (short : packet.length ≤ 1500) (src : ctx.localAddr ≠ 0)
    (dst : ctx.peerAddr ≠ 0) :
    ∃ sent, mysockSetChecksum order ctx packet = some sent ∧ sent.length = packet.length ∧
      thSum order sent = 65535 - endAround (plainSum order ctx.localAddr ctx.peerAddr sent) := by
  rw [mysockSetChecksum, mysockTcpChecksum_eq order long short src dst]
  refine ⟨_, rfl, length_putThSum _ _, ?_⟩
  rw [thSum_putThSum order _ long, plainSum_putThSum]
  apply UInt16.toNat_ofNat_of_lt'
  unfold UInt16.size
  omega

/-- A segment with its checksum is accepted at both ends and with any one byte changed it is not;
the sum never overflows, and its two folds bring all carries around. -/
theorem checksum_sound (order : ByteOrder) {sender receiver : Addresses} {packet : Bytes}
    (long : 20 ≤ packet.length) (short : packet.length ≤ 1500) (localAddr : sender.localAddr ≠ 0)
    (peerAddr : sender.peerAddr ≠ 0)
    (ends : (receiver.peerAddr = sender.localAddr ∧ receiver.localAddr = sender.peerAddr) ∨
      (receiver.peerAddr = sender.peerAddr ∧ receiver.localAddr = sender.localAddr)) :
    mysockTcpChecksum order sender.localAddr sender.peerAddr packet = some (UInt16.ofNat
      (65535 - endAround (plainSum order sender.localAddr sender.peerAddr packet))) ∧
    ∃ sent, mysockSetChecksum order sender packet = some sent ∧ sent.length = packet.length ∧
      mysockVerifyChecksum order receiver sent = some true ∧
      ∀ (i : Nat) (byte : UInt8) (inside : i < sent.length), byte ≠ sent[i] →
        mysockVerifyChecksum order receiver (sent.set i byte) = some false := by
  obtain ⟨sent, set, size, verified⟩ := mysockSetChecksum_spec order long short localAddr peerAddr
  have alike : plainSum order sender.localAddr sender.peerAddr sent =
      plainSum order receiver.peerAddr receiver.localAddr sent := by
    rcases ends with ⟨peer, own⟩ | ⟨peer, own⟩
    · rw [peer, own]
    · rw [peer, own, plainSum_swap]
  have nonzero : receiver.peerAddr ≠ 0 ∧ receiver.localAddr ≠ 0 := by
    rcases ends with ⟨peer, own⟩ | ⟨peer, own⟩
    · rw [peer, own]
      exact ⟨localAddr, peerAddr⟩
    · rw [peer, own]
      exact ⟨peerAddr, localAddr⟩
  refine ⟨mysockTcpChecksum_eq order long short localAddr peerAddr, sent, set, size, ?_, ?_⟩
  · rw [mysockVerifyChecksum_eq order (size ▸ long) (size ▸ short) nonzero.1 nonzero.2, ← alike,
      ← verified, beq_self_eq_true]
  · intro i byte inside other
    rw [alike] at verified
    exact mysockVerifyChecksum_changed (size ▸ long) (size ▸ short) nonzero.1 nonzero.2 verified
      inside other

theorem checksum_sound_bareHeader :
    ∃ sent, mysockSetChecksum .little ⟨1, 2⟩ (List.replicate 20 7) = some sent ∧
      mysockVerifyChecksum .little ⟨2, 1⟩ sent = some true := by
  obtain ⟨-, sent, set, -, verified, -⟩ :=
    @checksum_sound .little ⟨1, 2⟩ ⟨2, 1⟩ (List.replicate 20 7) (by decide) (by decide)
      (by decide) (by decide) (.inl ⟨rfl, rfl⟩)
  exact ⟨sent, set, verified⟩

end CompNet.Stcp
