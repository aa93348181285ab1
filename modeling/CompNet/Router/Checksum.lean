import CompNet.Lib.OnesComplement
import CompNet.Router.Forward

/-!
# The Internet checksum

`cksum` adds 16-bit words in 32 bits, folds the sum, complements it, and returns 0xffff
for a complement of 0.  What it returns is the one word, other than 0, that makes the sum
of the words a multiple of 65535 (`eq_cksum_iff`).  By the Internet checksum rule a header
verifies if its one's-complement sum is 0xffff; where the words other than the checksum
come to 0xffff by themselves both 0 and 0xffff do, and the routine never gives the 0.
-/

namespace CompNet.Router

open CompNet.Lib

/-- The number in a 16-bit field. -/
def wordOf (p : UInt8 × UInt8) : Nat := p.1.toNat * 256 + p.2.toNat

theorem wordOf_le (p : UInt8 × UInt8) : wordOf p ≤ 65535 := by
  have high := p.1.toNat_lt
  have low := p.2.toNat_lt
  unfold wordOf
  omega

theorem wordOf_inj {p q : UInt8 × UInt8} (same : wordOf p = wordOf q) : p = q := by
  have low := p.2.toNat_lt
  have low' := q.2.toNat_lt
  unfold wordOf at same
  exact Prod.ext (UInt8.toNat_inj.mp (by omega)) (UInt8.toNat_inj.mp (by omega))

@[simp] theorem wordSum_pairBytes (p : UInt8 × UInt8) : wordSum (pairBytes p) = wordOf p := by
  rw [pairBytes, wordSum_cons_cons, wordSum_nil, wordOf, Nat.add_zero]

/-! ## The routine -/

theorem sumWords_eq : ∀ data : Bytes, sumWords data = wordSum data % 2 ^ 32
  | [] => rfl
  | [a] => by
      have bound := a.toNat_lt
      rw [sumWords, wordSum_single]
      omega
  | a :: b :: rest => by
      rw [sumWords, sumWords_eq rest, wordSum_cons_cons]
      omega

/-- Two turns of the folding loop are enough for a 32-bit sum. -/
theorem foldSum_eq {n : Nat} (small : n < 2 ^ 32) : foldSum 2 n = endAround n := by
  unfold foldSum
  split
  · unfold foldSum
    split
    · unfold foldSum endAround
      split <;> omega
    · unfold endAround
      split <;> omega
  · next fits => exact (endAround_of_le (by omega)).symm

theorem wordOf_cksum (data : Bytes) :
    wordOf (cksum data) = if endAround (wordSum data % 2 ^ 32) = 65535 then 65535
      else 65535 - endAround (wordSum data % 2 ^ 32) := by
  have folded : foldSum 2 (sumWords data) = endAround (wordSum data % 2 ^ 32) := by
    rw [sumWords_eq, foldSum_eq (Nat.mod_lt _ (by decide))]
  have le := endAround_le (wordSum data % 2 ^ 32)
  rw [cksum, folded]
  generalize endAround (wordSum data % 2 ^ 32) = sum at le
  by_cases top : sum = 65535
  · rw [if_pos (by omega), if_pos top]
    rfl
  · have high : (UInt8.ofNat ((65535 - sum) / 256)).toNat = (65535 - sum) / 256 :=
      UInt8.toNat_ofNat_of_lt' (by show _ < 256; omega)
    have low : (UInt8.ofNat ((65535 - sum) % 256)).toNat = (65535 - sum) % 256 :=
      UInt8.toNat_ofNat_of_lt' (by show _ < 256; omega)
    rw [if_neg (by omega), if_neg top, wordOf, high, low]
    omega

/-- The checksum is never 0, and with it the words add up to a multiple of 65535. -/
theorem cksum_spec (data : Bytes) :
    0 < wordOf (cksum data) ∧ (wordSum data % 2 ^ 32 + wordOf (cksum data)) % 65535 = 0 := by
  have le := endAround_le (wordSum data % 2 ^ 32)
  have mod := endAround_mod (wordSum data % 2 ^ 32)
  rw [wordOf_cksum]
  split
  · omega
  · omega

/-- No other word does the same. -/
theorem eq_cksum_iff (data : Bytes) (p : UInt8 × UInt8) :
    p = cksum data ↔ 0 < wordOf p ∧ (wordSum data % 2 ^ 32 + wordOf p) % 65535 = 0 := by
  obtain ⟨positive, sum⟩ := cksum_spec data
  constructor
  · rintro rfl
    exact ⟨positive, sum⟩
  · rintro ⟨positive', sum'⟩
    have le := wordOf_le p
    have le' := wordOf_le (cksum data)
    exact wordOf_inj (by omega)

/-! ## Sums around a checksum field -/

section

variable {f v : Bytes} {i j n : Nat}

theorem put_self (le : i + n ≤ f.length) : put f i (field f i n) = f := by
  have size : (field f i n).length = n := length_field le
  have undone := put_field (f := f) (v := field f i n) (i := i) (by rw [size]; exact le)
  rw [size, put_put (by rw [size]; exact le) rfl] at undone
  exact undone

/-- A field that starts at a word adds its own words. -/
theorem wordSum_put (two : v.length = 2) (le : i + 2 ≤ f.length) (front : j ≤ i)
    (even : (i - j) % 2 = 0) (back : i + 2 ≤ j + n) :
    wordSum (field (put f i v) j n) = wordSum (field (put f i [0, 0]) j n) + wordSum v := by
  have before : (field f j (i - j)).length % 2 = 0 := by
    rw [length_field (by omega)]
    exact even
  have split : ∀ w : Bytes, w.length = 2 → wordSum (field (put f i w) j n) =
      wordSum (field f j (i - j)) + (wordSum w + wordSum (field f (i + 2) (j + n - (i + 2)))) := by
    intro w size
    rw [field_put_inside (by omega) front (by omega), List.append_assoc, size,
      wordSum_append_even before, wordSum_append_even (by omega)]
  have zero : wordSum [0, 0] = 0 := by
    rw [wordSum_cons_cons, wordSum_nil]
    rfl
  rw [split v two, split [0, 0] rfl, zero]
  omega

theorem wordSum_field (le : i + 2 ≤ f.length) (front : j ≤ i) (even : (i - j) % 2 = 0)
    (back : i + 2 ≤ j + n) :
    wordSum (field f j n) = wordSum (field (put f i [0, 0]) j n) + wordSum (field f i 2) := by
  have sum := wordSum_put (v := field f i 2) (n := n) (length_field le) le front even back
  rw [put_self le] at sum
  exact sum

/-- A field that was cleared and then holds the checksum of what is around it. -/
theorem wordSum_put_cksum {n' : Nat} (clear : put f i [0, 0] = f) (le : i + 2 ≤ f.length)
    (front : j ≤ i) (even : (i - j) % 2 = 0) (back : i + 2 ≤ j + n) :
    wordSum (field (put f i (pairBytes (cksum (field f j n')))) j n) =
      wordSum (field f j n) + wordOf (cksum (field f j n')) := by
  have sum := wordSum_put (v := pairBytes (cksum (field f j n'))) (n := n) rfl le front even back
  rw [clear, wordSum_pairBytes] at sum
  exact sum

/-- A field of moderate length is added without overflow. -/
theorem wordSum_field_lt (f : Bytes) (i : Nat) {n : Nat} (short : n ≤ 131072) :
    wordSum (field f i n) < 2 ^ 32 := by
  have le := wordSum_le (field f i n)
  have size : (field f i n).length ≤ n := by
    rw [field, List.length_take]
    exact Nat.min_le_left _ _
  omega

end

/-! ## Headers that verify -/

/-- The rule: the ten words of the header, the checksum among them, sum to 0xffff. -/
def headerVerifies (packet : Bytes) : Prop := onesSum (field packet 14 20) = 0xffff

instance (packet : Bytes) : Decidable (headerVerifies packet) :=
  inferInstanceAs (Decidable (_ = _))

theorem headerVerifies_iff {packet : Bytes} :
    headerVerifies packet ↔
      wordSum (field packet 14 20) ≠ 0 ∧ wordSum (field packet 14 20) % 65535 = 0 := by
  rw [headerVerifies, onesSum_eq, endAround_eq_top]

/-- The test in the same terms. -/
theorem checksumOk_iff {packet : Bytes} (long : 34 ≤ packet.length) :
    checksumOk packet = true ↔
      0 < wordSum (field packet 24 2) ∧ wordSum (field packet 14 20) % 65535 = 0 := by
  obtain ⟨a, b, two⟩ := List.length_eq_two.mp (length_field (f := packet) (i := 24) (n := 2)
    (by omega))
  have stored : field packet 24 2 = pairBytes (a, b) := two
  have small := wordSum_field_lt (put packet 24 [0, 0]) 14 (show 20 ≤ 131072 by omega)
  have whole := wordSum_field (f := packet) (i := 24) (j := 14) (n := 20) (by omega) (by omega)
    (by omega) (by omega)
  rw [stored, wordSum_pairBytes] at whole
  have equal : checksumOk packet = true ↔
      (a, b) = cksum (field (put packet 24 [0, 0]) 14 20) := by
    rw [checksumOk, stored, beq_iff_eq]
    constructor
    · intro same
      rw [pairBytes, pairBytes, List.cons.injEq, List.cons.injEq] at same
      exact Prod.ext same.1 same.2.1
    · intro same
      rw [same]
  rw [equal, eq_cksum_iff, Nat.mod_eq_of_lt small, stored, wordSum_pairBytes, whole]

/-! ## The test against the rule -/

/-- The checksum field holds 0, and the other words sum to 0xffff without it. -/
def zeroSum (packet : Bytes) : Prop :=
  field packet 24 2 = [0, 0] ∧ onesSum (field (put packet 24 [0, 0]) 14 20) = 0xffff

instance (packet : Bytes) : Decidable (zeroSum packet) := inferInstanceAs (Decidable (_ ∧ _))

theorem wordSum_pair_eq_zero {f : Bytes} {i : Nat} (le : i + 2 ≤ f.length) :
    wordSum (field f i 2) = 0 ↔ field f i 2 = [0, 0] := by
  obtain ⟨a, b, two⟩ := List.length_eq_two.mp (length_field le)
  rw [two, wordSum_cons_cons, wordSum_nil]
  constructor
  · intro zero
    have high : a = 0 := UInt8.toNat_inj.mp (by rw [UInt8.toNat_zero]; omega)
    have low : b = 0 := UInt8.toNat_inj.mp (by rw [UInt8.toNat_zero]; omega)
    rw [high, low]
  · intro same
    rw [List.cons.injEq, List.cons.injEq] at same
    rw [same.1, same.2.1]
    rfl

/-- The test is the rule, except at the checksum that `cksum` does not give. -/
theorem checksumOk_iff_verifies {packet : Bytes} (long : 34 ≤ packet.length) :
    checksumOk packet = true ↔ headerVerifies packet ∧ ¬ zeroSum packet := by
  have whole := wordSum_field (f := packet) (i := 24) (j := 14) (n := 20) (by omega) (by omega)
    (by omega) (by omega)
  rw [checksumOk_iff long, headerVerifies_iff, zeroSum, ← wordSum_pair_eq_zero (by omega),
    onesSum_eq, endAround_eq_top]
  omega

/-- What `sr_handle_ip_packet` does with a packet that passes its test. -/
def dispatchIp (sr : Instance) (entries : List ArpEntry) (mem : Memory) (packet : Bytes)
    (interface : IfName) : Except Fault Action :=
  if forUs sr packet then
    if field packet 23 1 = [1] then srHandleIcmpPacket sr entries packet
    else srSendIcmpPortUnreachable sr entries mem packet interface
  else srForwardPacket sr entries mem packet interface

/-- The handler lets a packet through or drops it by its test, and the test agrees with the
rule on all headers but those that verify with a checksum of 0. -/
theorem header_check_iff (sr : Instance) (entries : List ArpEntry) (mem : Memory) (packet : Bytes)
    (interface : IfName) (long : 34 ≤ packet.length) :
    srHandleIpPacket sr entries mem packet interface =
        (if checksumOk packet then dispatchIp sr entries mem packet interface else .ok .drop) ∧
      ((checksumOk packet = true ↔ headerVerifies packet) ↔
        ¬ (field packet 24 2 = [0, 0] ∧
          onesSum (field (put packet 24 [0, 0]) 14 20) = 0xffff)) := by
  constructor
  · exact srHandleIpPacket_eq long
  · have test := checksumOk_iff_verifies long
    constructor
    · intro agree zero
      have cleared : put packet 24 [0, 0] = packet := by
        rw [← zero.1]
        exact put_self (by omega)
      have verifies : headerVerifies packet := by
        rw [headerVerifies, ← cleared]
        exact zero.2
      exact (test.mp (agree.mpr verifies)).2 zero
    · intro other
      rw [test]
      exact and_iff_left other

/-- A packet for 10.9.0.1 whose header words sum to 0xffff without the checksum. -/
def zeroChecksum : Bytes :=
  [2, 0, 0, 0, 0, 1, 2, 0, 0, 0, 0, 2, 8, 0,
    0x45, 0, 0, 20, 0x66, 0xce, 0, 0, 64, 17, 0, 0, 10, 0, 0, 2, 10, 9, 0, 1]

/-- It is valid, and the router drops it. -/
theorem zeroChecksum_dropped :
    headerVerifies zeroChecksum ∧ checksumOk zeroChecksum = false ∧
      srHandleIpPacket oneInterface [] (fun _ => 0) zeroChecksum [101, 49] = .ok .drop ∧
      ¬ (checksumOk zeroChecksum = true ↔ headerVerifies zeroChecksum) := by
  decide +kernel

theorem header_check_iff_expiredPacket :
    (checksumOk expiredPacket = true ↔ headerVerifies expiredPacket) :=
  (header_check_iff oneInterface [] (fun _ => 0) expiredPacket [101, 49] (by decide)).2.mpr
    (by decide)

/-! ## Checksums that the router writes -/

/-- Words verify around their checksum. -/
theorem onesSum_around {front back : Bytes} (even : front.length % 2 = 0)
    (short : (front ++ pairBytes (0, 0) ++ back).length ≤ 131072) :
    onesSum (front ++ pairBytes (cksum (front ++ pairBytes (0, 0) ++ back)) ++ back) = 0xffff := by
  have sum : ∀ p, wordSum (front ++ pairBytes p ++ back) =
      wordSum front + (wordOf p + wordSum back) := by
    intro p
    rw [List.append_assoc, wordSum_append_even even, wordSum_append_even (by simp),
      wordSum_pairBytes]
  obtain ⟨positive, mod⟩ := cksum_spec (front ++ pairBytes (0, 0) ++ back)
  have le := wordSum_le (front ++ pairBytes (0, 0) ++ back)
  have small : wordSum (front ++ pairBytes (0, 0) ++ back) < 2 ^ 32 := by omega
  have zero : wordOf (0, 0) = 0 := rfl
  rw [Nat.mod_eq_of_lt small, sum, zero] at mod
  rw [onesSum_eq, endAround_eq_top, sum]
  omega

theorem field_sum (h : IpHdr) : field h.bytes 10 2 = pairBytes h.sum := rfl

/-- The IP header of an error message verifies. -/
theorem onesSum_errorIpHdr (mem : Memory) (src dst : Ip) :
    onesSum (errorIpHdr mem src dst).bytes = 0xffff := by
  unfold errorIpHdr IpHdr.bytes
  dsimp only
  rw [List.append_assoc, List.append_assoc _ (ipBytes src)]
  exact onesSum_around (by simp [pairBytes]) (by simp [pairBytes, ipBytes])

/-- So does its ICMP message. -/
theorem onesSum_errorIcmpHdr (mem : Memory) (type code : UInt8) {data : Bytes}
    (size : data.length = 28) : onesSum (errorIcmpHdr mem type code data).bytes = 0xffff := by
  unfold errorIcmpHdr IcmpT3Hdr.bytes
  dsimp only
  rw [List.append_assoc, List.append_assoc _ (pairBytes (0, 0)),
    List.append_assoc _ (pairBytes (0, 0))]
  exact onesSum_around (by simp) (by simp [pairBytes, size])

section

variable {f a b c : Bytes} {i j m n : Nat}

theorem field_middle (start : a.length = i) (size : b.length = n) :
    field (a ++ b ++ c) i n = b := by
  rw [field, List.append_assoc, List.drop_left' start, List.take_left' size]

theorem field_field (le : j + m ≤ n) : field (field f i n) j m = field f (i + j) m := by
  rw [field, field, field, List.drop_take, List.take_take, List.drop_drop,
    Nat.min_eq_left (by omega)]

end

section

variable {sr : Instance} {entries : List ArpEntry} {mem : Memory} {packet frame : Bytes}
  {interface : IfName} {type code : UInt8} {action : Action}

/-- A frame with an IP header that verifies and passes the test of `sr_handle_ip_packet`. -/
structure HeaderSound (frame : Bytes) : Prop where
  long : 34 ≤ frame.length
  rule : onesSum (field frame 14 20) = 0xffff
  test : checksumOk frame = true

theorem HeaderSound.of_test (long : 34 ≤ frame.length) (test : checksumOk frame = true) :
    HeaderSound frame :=
  ⟨long, ((checksumOk_iff_verifies long).mp test).1, test⟩

/-- The frame that a handler sends or queues. -/
def Action.frame? : Action → Option Bytes
  | .send frame _ => some frame
  | .queue _ frame _ => some frame
  | .drop => none
  | .learn _ _ => none

/-- The frame of an error message, from the packet it is about. -/
theorem srSendError_generates
    (returns : srSendError sr entries mem packet interface type code = .ok action)
    (generated : action.frame? = some frame) :
    42 ≤ packet.length ∧
      ∃ dhost out src, frame = errorFrame mem dhost out src packet type code := by
  by_cases head : 30 ≤ packet.length
  case neg =>
    rw [srSendError, read_error (by omega)] at returns
    cases returns
  case pos =>
    cases hop : nextHop sr (srcOf packet) with
    | none =>
        rw [srSendError_noHop head hop] at returns
        cases returns
        cases generated
    | some way =>
        obtain ⟨rt, out⟩ := way
        cases here : srGetInterface sr interface with
        | none =>
            rw [srSendError_noInterface hop head here] at returns
            cases returns
        | some iface =>
            by_cases long : 42 ≤ packet.length
            case neg =>
              rw [srSendError_short head (by omega) hop here] at returns
              cases returns
            case pos =>
              refine ⟨long, ?_⟩
              cases known : srArpcacheLookup entries rt.gw with
              | some mac =>
                  rw [srSendError_hit long hop here known] at returns
                  cases returns
                  cases generated
                  exact ⟨mac, out, iface.ip, rfl⟩
              | none =>
                  rw [srSendError_miss long hop here known] at returns
                  cases returns
                  cases generated
                  exact ⟨mem.mac 0, out, iface.ip, rfl⟩

/-- The IP header of an error message. -/
theorem field_errorFrame_ip (mem : Memory) (dhost : Mac) (out : Interface) (src : Ip)
    (packet : Bytes) (type code : UInt8) :
    field (errorFrame mem dhost out src packet type code) 14 20 =
      (errorIpHdr mem src (srcOf packet)).bytes := field_middle rfl rfl

/-- Its ICMP message. -/
theorem field_errorFrame_icmp (mem : Memory) (dhost : Mac) (out : Interface) (src : Ip)
    (type code : UInt8) (long : 42 ≤ packet.length) :
    field (errorFrame mem dhost out src packet type code) 34 36 =
      (errorIcmpHdr mem type code (field packet 14 28)).bytes := by
  have data : (field packet 14 28).length = 28 := length_field (by omega)
  have icmp : (errorIcmpHdr mem type code (field packet 14 28)).bytes.length = 36 := by
    simp [IcmpT3Hdr.bytes, errorIcmpHdr, data]
  have front : ((EthernetHdr.mk dhost out.addr ethertypeIp).bytes ++
      (errorIpHdr mem src (srcOf packet)).bytes).length = 34 := rfl
  have last := field_middle (c := []) front icmp
  rw [List.append_nil] at last
  exact last

/-- Error messages are sound, and their ICMP message verifies. -/
theorem errorFrame_headerSound (mem : Memory) (dhost : Mac) (out : Interface) (src : Ip)
    (type code : UInt8) (long : 42 ≤ packet.length) :
    HeaderSound (errorFrame mem dhost out src packet type code) ∧
      onesSum (field (errorFrame mem dhost out src packet type code) 34 36) = 0xffff := by
  have size := length_errorFrame mem dhost out src type code long
  have header := field_errorFrame_ip mem dhost out src packet type code
  have rule : headerVerifies (errorFrame mem dhost out src packet type code) := by
    rw [headerVerifies, header]
    exact onesSum_errorIpHdr mem src (srcOf packet)
  have stored : 0 < wordSum (field (errorFrame mem dhost out src packet type code) 24 2) := by
    rw [← field_field (i := 14) (j := 10) (n := 20) (by omega), header, field_sum,
      wordSum_pairBytes]
    unfold errorIpHdr
    dsimp only
    exact (cksum_spec _).1
  refine ⟨⟨by omega, rule, ?_⟩, ?_⟩
  · exact (checksumOk_iff (by omega)).mpr ⟨stored, (headerVerifies_iff.mp rule).2⟩
  · rw [field_errorFrame_icmp mem dhost out src type code long]
    exact onesSum_errorIcmpHdr mem type code (length_field (by omega))

theorem srSendError_headerSound
    (returns : srSendError sr entries mem packet interface type code = .ok action)
    (generated : action.frame? = some frame) :
    HeaderSound frame ∧ onesSum (field frame 34 36) = 0xffff := by
  obtain ⟨long, dhost, out, src, rfl⟩ := srSendError_generates returns generated
  exact errorFrame_headerSound mem dhost out src type code long

/-- What is forwarded has its checksum written last. -/
theorem srForwardPacket_headerSound (long : 34 ≤ packet.length)
    (returns : srForwardPacket sr entries mem packet interface = .ok action)
    (generated : action.frame? = some frame) : HeaderSound frame := by
  have size := length_forwarded long
  have good := checksumOk_forwarded long
  rw [srForwardPacket_exit long] at returns
  by_cases expired : lessTtl packet = 0
  · have exit : forwardExit sr entries packet = .timeExceeded := by
      rw [forwardExit, if_pos expired]
    rw [exit] at returns
    exact (srSendError_headerSound returns generated).1
  · rcases forwardExit_alive sr entries expired with
      exit | exit | ⟨shost, dhost, iface, exit⟩ | ⟨ip, iface, exit⟩
    · rw [exit] at returns
      exact (srSendError_headerSound returns generated).1
    · rw [exit] at returns
      cases returns
      cases generated
    · rw [exit] at returns
      cases returns
      cases generated
      have whole := length_readdressed (f := forwarded packet) (by omega) shost dhost
      apply HeaderSound.of_test (by omega)
      rw [checksumOk_congr (by omega) whole
        (fun j n behind => field_readdressed (by omega) (by omega) shost dhost)]
      exact good
    · rw [exit] at returns
      cases returns
      cases generated
      exact HeaderSound.of_test (by omega) good

end

/-- Every checksum that `sr_forward_packet` and `sr_send_error` write verifies: that of the IP
header by the rule and by the test of another router, and that of the ICMP message. -/
theorem written_checksums_verify (sr : Instance) (entries : List ArpEntry) (mem : Memory)
    (packet : Bytes) (interface : IfName) (long : 34 ≤ packet.length) (action : Action)
    (frame : Bytes) (generated : action.frame? = some frame) :
    (srForwardPacket sr entries mem packet interface = .ok action → HeaderSound frame) ∧
      (∀ (quoted : Bytes) (type code : UInt8),
        srSendError sr entries mem quoted interface type code = .ok action →
        HeaderSound frame ∧ onesSum (field frame 34 36) = 0xffff) :=
  ⟨fun returns => srForwardPacket_headerSound long returns generated,
    fun _ _ _ returns => srSendError_headerSound returns generated⟩

/-- The packet of `zeroChecksum` with the other checksum for its header. -/
def forwardedPing : Bytes := put zeroChecksum 24 [0xff, 0xff]

/-- It is queued with a time to live of 63 and a checksum that verifies. -/
theorem written_checksums_verify_forwardedPing :
    checksumOk forwardedPing = true ∧
      ∃ frame, srForwardPacket oneInterface [] (fun _ => 0) forwardedPing [101, 49] =
        .ok (.queue 0x0200000a frame [101, 49]) ∧ ttlOf frame = 63 ∧ HeaderSound frame := by
  have returns : srForwardPacket oneInterface [] (fun _ => 0) forwardedPing [101, 49] =
      .ok (.queue 0x0200000a (forwarded forwardedPing) [101, 49]) := by
    decide +kernel
  refine ⟨by decide +kernel, forwarded forwardedPing, returns, by decide +kernel, ?_⟩
  exact (written_checksums_verify oneInterface [] (fun _ => 0) forwardedPing [101, 49] (by decide)
    _ _ rfl).1 returns

end CompNet.Router
