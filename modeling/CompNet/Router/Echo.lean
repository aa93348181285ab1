import CompNet.Router.Checksum

/-!
# Packets for the router

An echo request is answered in a full copy of its frame.  The ICMP checksum of the reply
is computed over everything behind the IP header, the Ethernet padding included, while a
host that gets the reply adds up the message proper, whose length `ip_len` gives.  The
words of the padding therefore have to come to nothing.  That the ICMP checksum of the
request is right is not looked at, nor is the protocol of what is not ICMP.
-/

namespace CompNet.Router

open CompNet.Lib

/-! ## The message and the padding -/

/-- `ip_len`, in host order. -/
def ipLen (packet : Bytes) : Nat := wordSum (field packet 16 2)

/-- The ICMP message proper, behind an IP header of 20 bytes. -/
def icmpMessage (packet : Bytes) : Bytes := field packet 34 (ipLen packet - 20)

/-- What Ethernet has put behind the datagram. -/
def padding (packet : Bytes) : Bytes := packet.drop (14 + ipLen packet)

/-- The words of the padding as they follow those of the message: behind a message of odd
length the first byte is the low byte of a word. -/
def paddingSum (packet : Bytes) : Nat :=
  if ipLen packet % 2 = 0 then wordSum (padding packet) else wordSum (0 :: padding packet)

/-- How often the 32-bit sum of `cksum` overflows; frames of less than 128 KiB are too short
for that. -/
def overflows (packet : Bytes) : Nat :=
  (wordSum (field packet 38 (ipLen packet - 24)) + paddingSum packet) / 2 ^ 32

section

variable {f : Bytes} {i m n : Nat}

theorem field_append (le : m ≤ n) : field f i n = field f i m ++ field f (i + m) (n - m) := by
  rw [field, field, field, ← List.drop_drop, ← List.take_add, Nat.add_sub_of_le le]

theorem field_to_end (f : Bytes) (i : Nat) : field f i (f.length - i) = f.drop i := by
  rw [field, List.take_of_length_le (Nat.le_of_eq List.length_drop)]

end

/-! ## The reply -/

/-- The reply before its checksum is computed. -/
def echoClear (packet : Bytes) : Bytes :=
  put (put (put (echoIp packet) 34 [0]) 35 [0]) 36 [0, 0]

section

variable {packet : Bytes}

/-- The lengths on the way to it. -/
theorem length_echoWrites (long : 38 ≤ packet.length) :
    (echoIp packet).length = packet.length ∧
      (put (echoIp packet) 34 [0]).length = packet.length ∧
      (put (put (echoIp packet) 34 [0]) 35 [0]).length = packet.length := by
  obtain ⟨-, size, -⟩ := echoIpHdr_spec (show 34 ≤ packet.length by omega)
  obtain ⟨-, l₁⟩ := write_step (v := [0]) (i := 34) size (by simp; omega)
  obtain ⟨-, l₂⟩ := write_step (v := [0]) (i := 35) l₁ (by simp; omega)
  exact ⟨size, l₁, l₂⟩

theorem length_echoClear (long : 38 ≤ packet.length) :
    (echoClear packet).length = packet.length := by
  obtain ⟨size, l₁, l₂⟩ := length_echoWrites long
  obtain ⟨-, l₃⟩ := write_step (v := [0, 0]) (i := 36) l₂ (by simp; omega)
  exact l₃

/-- The copy with the time to live, the protocol and the addresses written. -/
def echoAddressed (packet : Bytes) : Bytes :=
  put (put (put (put packet 22 [64]) 23 [1]) 30 (field packet 26 4)) 26 (field packet 30 4)

section

variable (long : 34 ≤ packet.length)
include long

/-- The lengths on the way to it. -/
theorem length_addressWrites :
    (field packet 26 4).length = 4 ∧ (field packet 30 4).length = 4 ∧
      (put packet 22 [64]).length = packet.length ∧
      (put (put packet 22 [64]) 23 [1]).length = packet.length ∧
      (put (put (put packet 22 [64]) 23 [1]) 30 (field packet 26 4)).length = packet.length := by
  have four : (field packet 26 4).length = 4 := length_field (by omega)
  have four' : (field packet 30 4).length = 4 := length_field (by omega)
  obtain ⟨-, l₁⟩ := write_step (f := packet) (v := [64]) (i := 22) rfl (by simp; omega)
  obtain ⟨-, l₂⟩ := write_step (v := [1]) (i := 23) l₁ (by simp; omega)
  obtain ⟨-, l₃⟩ := write_step (v := field packet 26 4) (i := 30) l₂ (by omega)
  exact ⟨four, four', l₁, l₂, l₃⟩

theorem length_echoAddressed : (echoAddressed packet).length = packet.length := by
  obtain ⟨-, four', -, -, l₃⟩ := length_addressWrites long
  obtain ⟨-, l₄⟩ := write_step (v := field packet 30 4) (i := 26) l₃ (by omega)
  exact l₄

theorem length_echoCleared : (put (echoAddressed packet) 24 [0, 0]).length = packet.length := by
  have size := length_echoAddressed long
  rw [length_put (by simp; omega), size]

/-- The other fields of the header are written with what they hold. -/
theorem echoIp_eq :
    echoIp packet = put (put (echoAddressed packet) 24 [0, 0]) 24
      (pairBytes (cksum (field (put (echoAddressed packet) 24 [0, 0]) 14 20))) := by
  rw [echoIp, put_self (by omega), put_self (by omega)]
  rfl

/-- What the reply keeps of the frame, but for the ICMP header. -/
theorem field_echoIp {j n : Nat} (apart : j + n ≤ 22 ∨ 34 ≤ j) :
    field (echoIp packet) j n = field packet j n := by
  obtain ⟨four, four', l₁, l₂, l₃⟩ := length_addressWrites long
  have size := length_echoAddressed long
  have cleared := length_echoCleared long
  rw [echoIp_eq long]
  rcases apart with before | behind
  · rw [field_put_before (by simp; omega) (by omega), field_put_before (by simp; omega) (by omega),
      echoAddressed, field_put_before (by omega) (by omega),
      field_put_before (by omega) (by omega), field_put_before (by simp; omega) (by omega),
      field_put_before (by simp; omega) (by omega)]
  · rw [field_put_behind (by simp; omega) (by simp; omega),
      field_put_behind (by simp; omega) (by simp; omega), echoAddressed,
      field_put_behind (by omega) (by omega), field_put_behind (by omega) (by omega),
      field_put_behind (by simp; omega) (by simp; omega),
      field_put_behind (by simp; omega) (by simp; omega)]

theorem protocol_echoIp : field (echoIp packet) 23 1 = [1] := by
  obtain ⟨four, four', l₁, l₂, l₃⟩ := length_addressWrites long
  have size := length_echoAddressed long
  have cleared := length_echoCleared long
  rw [echoIp_eq long, field_put_before (by simp; omega) (by omega),
    field_put_before (by simp; omega) (by omega), echoAddressed,
    field_put_before (by omega) (by omega), field_put_before (by omega) (by omega)]
  exact field_put (v := [1]) (by simp; omega)

/-- The IP header of the reply verifies. -/
theorem onesSum_echoIp : onesSum (field (echoIp packet) 14 20) = 0xffff := by
  have size := length_echoAddressed long
  have cleared := length_echoCleared long
  have clear : put (put (echoAddressed packet) 24 [0, 0]) 24 [0, 0] =
      put (echoAddressed packet) 24 [0, 0] := put_put (by simp; omega) rfl
  have small := wordSum_field_lt (put (echoAddressed packet) 24 [0, 0]) 14
    (show 20 ≤ 131072 by omega)
  obtain ⟨positive, sum⟩ := cksum_spec (field (put (echoAddressed packet) 24 [0, 0]) 14 20)
  rw [Nat.mod_eq_of_lt small] at sum
  rw [echoIp_eq long, onesSum_eq, endAround_eq_top,
    wordSum_put_cksum clear (by omega) (by omega) (by omega) (by omega)]
  omega

end

/-- Behind the ICMP checksum nothing is written. -/
theorem field_echoClear {j n : Nat} (long : 38 ≤ packet.length) (behind : 38 ≤ j) :
    field (echoClear packet) j n = field packet j n := by
  obtain ⟨size, l₁, l₂⟩ := length_echoWrites long
  rw [echoClear, field_put_behind (by simp; omega) (by simp; omega),
    field_put_behind (by simp; omega) (by simp; omega),
    field_put_behind (by simp; omega) (by simp; omega), field_echoIp (by omega) (by omega)]

/-- Type and code. -/
theorem field_code (long : 38 ≤ packet.length) :
    field (put (put (echoIp packet) 34 [0]) 35 [0]) 34 2 = [0, 0] := by
  obtain ⟨size, l₁, -⟩ := length_echoWrites long
  have type : field (put (echoIp packet) 34 [0]) 34 1 = [0] :=
    field_put (v := [0]) (by simp; omega)
  rw [field_put_inside (by simp; omega) (by omega) (by simp)]
  show field (put (echoIp packet) 34 [0]) 34 1 ++ [0] ++ field _ 36 0 = _
  rw [type, field, List.take_zero]
  rfl

/-- Type, code and checksum are 0 in the words that are added up. -/
theorem wordSum_echoClear {m : Nat} (long : 38 ≤ packet.length) (four : 4 ≤ m) :
    wordSum (field (echoClear packet) 34 m) = wordSum (field packet 38 (m - 4)) := by
  obtain ⟨size, l₁, l₂⟩ := length_echoWrites long
  have head : field (echoClear packet) 34 4 = [0, 0, 0, 0] := by
    rw [echoClear, field_put_inside (by simp; omega) (by omega) (by simp)]
    show field (put (put (echoIp packet) 34 [0]) 35 [0]) 34 2 ++ [0, 0] ++ field _ 38 0 = _
    rw [field_code (by omega), field, List.take_zero]
    rfl
  have zero : wordSum [0, 0, 0, 0] = 0 := rfl
  rw [field_append four, head, wordSum_append_even rfl, zero, Nat.zero_add,
    field_echoClear long (by omega)]

/-- The words of everything that is added up: those of the message, then the padding's. -/
theorem wordSum_echoClear_all (low : 28 ≤ ipLen packet) (high : ipLen packet + 14 ≤ packet.length) :
    wordSum (field (echoClear packet) 34 (packet.length - 34)) =
      wordSum (field packet 38 (ipLen packet - 24)) + paddingSum packet := by
  have long : 38 ≤ packet.length := by omega
  have size := length_echoClear long
  have message := wordSum_echoClear (m := ipLen packet - 20) long (by omega)
  have rest : field (echoClear packet) (34 + (ipLen packet - 20))
      (packet.length - 34 - (ipLen packet - 20)) = padding packet := by
    have start : 34 + (ipLen packet - 20) = 14 + ipLen packet := by omega
    have count : packet.length - 34 - (ipLen packet - 20) =
        packet.length - (14 + ipLen packet) := by omega
    rw [field_echoClear (by omega) (by omega), start, count]
    exact field_to_end packet (14 + ipLen packet)
  have length : (field (echoClear packet) 34 (ipLen packet - 20)).length = ipLen packet - 20 :=
    length_field (by omega)
  rw [field_append (show ipLen packet - 20 ≤ packet.length - 34 by omega), rest, paddingSum]
  rw [show ipLen packet - 20 - 4 = ipLen packet - 24 by omega] at message
  split
  · rw [wordSum_append_even (by omega), message]
  · rw [wordSum_append_odd (by omega), message]

theorem echoReply_eq (packet : Bytes) :
    echoReply packet = put (echoClear packet) 36
      (pairBytes (cksum (field (echoClear packet) 34 (packet.length - 34)))) := rfl

theorem clear_echoClear (long : 38 ≤ packet.length) :
    put (echoClear packet) 36 [0, 0] = echoClear packet := by
  obtain ⟨size, l₁, l₂⟩ := length_echoWrites long
  exact put_put (by simp; omega) rfl

/-- The ICMP checksum of the reply verifies over the message if the padding adds nothing. -/
theorem onesSum_echoReply_iff (low : 28 ≤ ipLen packet)
    (high : ipLen packet + 14 ≤ packet.length) :
    onesSum (field (echoReply packet) 34 (ipLen packet - 20)) = 0xffff ↔
      paddingSum packet % 65535 = overflows packet % 65535 := by
  have long : 38 ≤ packet.length := by omega
  have size := length_echoClear long
  have message := wordSum_echoClear (m := ipLen packet - 20) long (by omega)
  rw [show ipLen packet - 20 - 4 = ipLen packet - 24 by omega] at message
  obtain ⟨positive, sum⟩ := cksum_spec (field (echoClear packet) 34 (packet.length - 34))
  rw [wordSum_echoClear_all low high] at sum
  rw [echoReply_eq, onesSum_eq, endAround_eq_top,
    wordSum_put_cksum (clear_echoClear (by omega)) (by omega) (by omega) (by omega) (by omega),
    message, overflows]
  -- a carry out of 32 bits counts once modulo 65535
  omega

/-- Nothing in front of the ICMP header is written after the IP header is. -/
theorem field_echoReply_ip {j n : Nat} (long : 38 ≤ packet.length) (before : j + n ≤ 34) :
    field (echoReply packet) j n = field (echoIp packet) j n := by
  have whole := length_echoClear long
  obtain ⟨size, l₁, l₂⟩ := length_echoWrites long
  rw [echoReply_eq, field_put_before (by simp [pairBytes]; omega) (by omega), echoClear,
    field_put_before (by simp; omega) (by omega), field_put_before (by simp; omega) (by omega),
    field_put_before (by simp; omega) (by omega)]

/-- Identifier, sequence number and payload are those of the request. -/
theorem field_echoReply_data {j n : Nat} (long : 38 ≤ packet.length) (behind : 38 ≤ j) :
    field (echoReply packet) j n = field packet j n := by
  have whole := length_echoClear long
  rw [echoReply_eq, field_put_behind (by simp [pairBytes]; omega) (by simp [pairBytes]; omega),
    field_echoClear long behind]

end

/-! ## Echo replies -/

/-- The ICMP checksum verifies over a message that is all there. -/
def icmpVerifies (packet : Bytes) : Prop :=
  ipLen packet + 14 ≤ packet.length ∧ onesSum (icmpMessage packet) = 0xffff

instance (packet : Bytes) : Decidable (icmpVerifies packet) := inferInstanceAs (Decidable (_ ∧ _))

/-- A frame with a valid echo request to one of the router's addresses. -/
structure EchoRequest (sr : Instance) (packet : Bytes) : Prop where
  ethertype : field packet 12 2 = pairBytes ethertypeIp
  headerLen : ((field packet 14 1).headD 0).toNat % 16 = 5
  low : 28 ≤ ipLen packet
  header : headerVerifies packet
  protocol : field packet 23 1 = [1]
  forUs : forUs sr packet = true
  type : field packet 34 1 = [8]
  message : icmpVerifies packet

/-- A reply that answers a request as a host expects it. -/
structure EchoReply (packet reply : Bytes) : Prop where
  src : srcOf reply = dstOf packet
  dst : dstOf reply = srcOf packet
  len : ipLen reply = ipLen packet
  header : headerVerifies reply
  type : field reply 34 2 = [0, 0]
  data : field reply 38 (ipLen packet - 24) = field packet 38 (ipLen packet - 24)
  message : onesSum (icmpMessage reply) = 0xffff

section

variable {sr : Instance} {entries : List ArpEntry} {mem : Memory} {packet reply : Bytes}
  {interface : IfName} {action : Action}

/-- What `sr_handle_icmp_packet` generates is the rewritten copy, readdressed or not. -/
theorem srHandleIcmpPacket_generates (long : 38 ≤ packet.length)
    (returns : srHandleIcmpPacket sr entries packet = .ok action)
    (generated : action.frame? = some reply) :
    ∀ j n, 12 ≤ j → field reply j n = field (echoReply packet) j n := by
  obtain ⟨-, size, -⟩ := srHandleIcmpEchoRequest_ok long
  rw [srHandleIcmpPacket_eq long] at returns
  generalize echoReply packet = new at returns size
  split at returns
  · split at returns
    · cases returns
      cases generated
    · split at returns
      · cases returns
        cases generated
      · split at returns
        · cases returns
          cases generated
          exact fun j n behind => field_readdressed (by omega) behind _ _
        · cases returns
          cases generated
          exact fun j n behind => rfl
  · cases returns
    cases generated

/-- The type and the code of a reply. -/
theorem type_echoReply (long : 38 ≤ packet.length) : field (echoReply packet) 34 2 = [0, 0] := by
  have whole := length_echoClear long
  obtain ⟨size, l₁, l₂⟩ := length_echoWrites long
  rw [echoReply_eq, field_put_before (by simp; omega) (by omega), echoClear,
    field_put_before (by simp; omega) (by omega)]
  exact field_code (by omega)

/-- All that is asked of a reply holds, except that its ICMP checksum is right only for some
padding. -/
theorem echoReply_iff (low : 28 ≤ ipLen packet) (high : ipLen packet + 14 ≤ packet.length)
    (same : ∀ j n, 12 ≤ j → field reply j n = field (echoReply packet) j n) :
    EchoReply packet reply ↔ paddingSum packet % 65535 = overflows packet % 65535 := by
  obtain ⟨-, -, -, src, dst⟩ := srHandleIcmpEchoRequest_ok (show 38 ≤ packet.length by omega)
  have len : ipLen reply = ipLen packet := by
    rw [ipLen, same 16 2 (by omega), field_echoReply_ip (by omega) (by omega),
      field_echoIp (by omega) (by omega), ipLen]
  rw [← onesSum_echoReply_iff low high]
  constructor
  · intro right
    rw [← same 34 _ (by omega), ← len]
    exact right.message
  · intro message
    constructor
    case src => rw [srcOf, same 26 4 (by omega), ← src, srcOf]
    case dst => rw [dstOf, same 30 4 (by omega), ← dst, dstOf]
    case len => exact len
    case header =>
      rw [headerVerifies, same 14 20 (by omega), field_echoReply_ip (by omega) (by omega)]
      exact onesSum_echoIp (by omega)
    case type =>
      rw [same 34 2 (by omega)]
      exact type_echoReply (by omega)
    case data => rw [same 38 _ (by omega), field_echoReply_data (by omega) (by omega)]
    case message =>
      rw [icmpMessage, len, same 34 _ (by omega)]
      exact message

end

/-- The reply to a valid echo request is right exactly if the words of the Ethernet padding, taken
as they follow those of the message, add up to the number of carries that the sum loses, modulo
65535; only frames of 128 KiB and more lose any. -/
theorem echo_reply_right_iff (sr : Instance) (entries : List ArpEntry) (mem : Memory)
    (packet : Bytes) (interface : IfName) (request : EchoRequest sr packet) (action : Action)
    (returns : srHandlepacketAction sr entries mem packet interface = .ok action) (reply : Bytes)
    (generated : action.frame? = some reply) :
    EchoReply packet reply ↔ paddingSum packet % 65535 = overflows packet % 65535 := by
  have low := request.low
  have high := request.message.1
  have notArp : ¬ pairBytes ethertypeIp = pairBytes ethertypeArp := by decide
  rw [srHandlepacketAction_eq (by omega), request.ethertype, if_neg notArp, if_pos rfl,
    srHandleIpPacket_eq (by omega), request.forUs, request.protocol] at returns
  by_cases good : checksumOk packet = true
  · rw [if_pos good, if_pos rfl, if_pos rfl] at returns
    exact echoReply_iff low high (srHandleIcmpPacket_generates (by omega) returns generated)
  · rw [if_neg good] at returns
    cases returns
    cases generated

/-- An echo request from 10.0.0.2 to 10.0.0.1, with no data. -/
def ping : Bytes :=
  [2, 0, 0, 0, 0, 1, 2, 0, 0, 0, 0, 2, 8, 0,
    0x45, 0, 0, 28, 0, 0, 0, 0, 64, 1, 0x66, 0xdf, 10, 0, 0, 2, 10, 0, 0, 1,
    8, 0, 0xf7, 0xfd, 0, 1, 0, 1]

/-- The same request, padded to the length of the shortest Ethernet frame. -/
def paddedPing : Bytes := ping ++ [1] ++ List.replicate 17 0

theorem echoRequest_ping : EchoRequest oneInterface ping := by
  constructor <;> decide +kernel

/-- The padding spoils the checksum of the reply. -/
theorem paddedPing_reply_not_right :
    EchoRequest oneInterface paddedPing ∧
      srHandlepacketAction oneInterface [] (fun _ => 0) paddedPing [101, 49] =
        .ok (.queue 0x0200000a (echoReply paddedPing) [101, 49]) ∧
      onesSum (icmpMessage (echoReply paddedPing)) = 0xfeff ∧
      ¬ EchoReply paddedPing (echoReply paddedPing) := by
  have sum : onesSum (icmpMessage (echoReply paddedPing)) = 0xfeff := by decide +kernel
  refine ⟨?_, by decide +kernel, sum, ?_⟩
  · constructor <;> decide +kernel
  · intro right
    have message := right.message
    rw [sum] at message
    cases message

theorem echo_reply_right_iff_ping : EchoReply ping (echoReply ping) := by
  have returns : srHandlepacketAction oneInterface [] (fun _ => 0) ping [101, 49] =
      .ok (.queue 0x0200000a (echoReply ping) [101, 49]) := by
    decide +kernel
  exact (echo_reply_right_iff oneInterface [] (fun _ => 0) ping [101, 49] echoRequest_ping _ returns
    _ rfl).mpr (by decide +kernel)

/-! ## What is generated for a packet -/

/-- What a packet for the router asks for. -/
inductive Response
  | echoReply
  | portUnreachable
  deriving DecidableEq, Repr

/-- The response a packet should get, if any: `ip_protocol_icmp` is 1, TCP is 6, UDP is 17. -/
def dueResponse (packet : Bytes) : Option Response :=
  if field packet 23 1 = [1] then
    if field packet 34 1 = [8] ∧ icmpVerifies packet then some .echoReply else none
  else if field packet 23 1 = [6] ∨ field packet 23 1 = [17] then some .portUnreachable
  else none

/-- An ICMP message for the sender of a packet. -/
structure Answers (packet frame : Bytes) (type code : UInt8) : Prop where
  dst : dstOf frame = srcOf packet
  protocol : field frame 23 1 = [1]
  type : field frame 34 2 = [type, code]

/-- An action generates the one frame asked for, or nothing. -/
def Generates (packet : Bytes) (action : Action) : Option Response → Prop
  | none => action = .drop
  | some .echoReply => ∃ frame, action.frame? = some frame ∧ Answers packet frame 0 0
  | some .portUnreachable => ∃ frame, action.frame? = some frame ∧ Answers packet frame 3 3

/-- The router generates what is due. -/
def RespondsRight (sr : Instance) (entries : List ArpEntry) (mem : Memory) (packet : Bytes)
    (interface : IfName) : Prop :=
  ∃ action, srHandleIpPacket sr entries mem packet interface = .ok action ∧
    Generates packet action (dueResponse packet)

section

variable {sr : Instance} {entries : List ArpEntry} {mem : Memory} {packet : Bytes}
  {interface : IfName} {rt : Route} {out iface : Interface}

/-- An error message answers the packet it is about. -/
theorem errorFrame_answers (mem : Memory) (dhost : Mac) (out : Interface) (src : Ip)
    (type code : UInt8) (long : 42 ≤ packet.length) :
    Answers packet (errorFrame mem dhost out src packet type code) type code := by
  have header := field_errorFrame_ip mem dhost out src packet type code
  have message := field_errorFrame_icmp mem dhost out src type code long
  have dst : ∀ h : IpHdr, field h.bytes 16 4 = ipBytes h.dst := fun _ => rfl
  have protocol : ∀ h : IpHdr, field h.bytes 9 1 = [h.p] := fun _ => rfl
  have kind : ∀ h : IcmpT3Hdr, field h.bytes 0 2 = [h.type, h.code] := fun _ => rfl
  constructor
  case dst =>
    rw [dstOf, ← field_field (i := 14) (j := 16) (n := 20) (by omega), header, dst, ipOf_ipBytes]
    rfl
  case protocol =>
    rw [← field_field (i := 14) (j := 9) (n := 20) (by omega), header, protocol]
    rfl
  case type =>
    rw [← field_field (i := 34) (j := 0) (n := 36) (by omega), message, kind]
    rfl

/-- The reply to an echo request answers it, whatever its checksum. -/
theorem echoReply_answers {reply : Bytes} (long : 38 ≤ packet.length)
    (same : ∀ j n, 12 ≤ j → field reply j n = field (echoReply packet) j n) :
    Answers packet reply 0 0 := by
  obtain ⟨-, -, -, -, dst⟩ := srHandleIcmpEchoRequest_ok long
  constructor
  case dst => rw [dstOf, same 30 4 (by omega), ← dst, dstOf]
  case protocol =>
    rw [same 23 1 (by omega), field_echoReply_ip long (by omega), protocol_echoIp (by omega)]
  case type => rw [same 34 2 (by omega), type_echoReply long]

/-- Every echo request is answered if its source has a route. -/
theorem srHandleIcmpPacket_answers (long : 38 ≤ packet.length)
    (hop : nextHop sr (srcOf packet) = some (rt, out)) (echo : field packet 34 1 = [8]) :
    ∃ action, srHandleIcmpPacket sr entries packet = .ok action ∧
      ∃ reply, action.frame? = some reply ∧ Answers packet reply 0 0 := by
  obtain ⟨route, leads⟩ := nextHop_eq_some.mp hop
  have generates : ∃ action, srHandleIcmpPacket sr entries packet = .ok action ∧
      ∃ reply, action.frame? = some reply := by
    rw [srHandleIcmpPacket_eq long, if_pos echo]
    simp only [route, leads]
    cases srArpcacheLookup entries rt.gw with
    | some mac => exact ⟨_, rfl, _, rfl⟩
    | none => exact ⟨_, rfl, _, rfl⟩
  obtain ⟨action, returns, reply, generated⟩ := generates
  exact ⟨action, returns, reply, generated,
    echoReply_answers long (srHandleIcmpPacket_generates long returns generated)⟩

/-- Every packet that is not ICMP gets a port unreachable. -/
theorem srSendIcmpPortUnreachable_answers (long : 42 ≤ packet.length)
    (hop : nextHop sr (srcOf packet) = some (rt, out))
    (here : srGetInterface sr interface = some iface) :
    ∃ action, srSendIcmpPortUnreachable sr entries mem packet interface = .ok action ∧
      ∃ frame, action.frame? = some frame ∧ Answers packet frame 3 3 := by
  unfold srSendIcmpPortUnreachable
  cases known : srArpcacheLookup entries rt.gw with
  | some mac =>
      rw [srSendError_hit long hop here known]
      exact ⟨_, rfl, _, rfl, errorFrame_answers mem mac out iface.ip 3 3 long⟩
  | none =>
      rw [srSendError_miss long hop here known]
      exact ⟨_, rfl, _, rfl, errorFrame_answers mem (mem.mac 0) out iface.ip 3 3 long⟩

/-- A dropped packet is right if nothing was due. -/
theorem generates_drop {response : Option Response} :
    Generates packet .drop response ↔ response = none := by
  cases response with
  | none => exact ⟨fun _ => rfl, fun _ => rfl⟩
  | some response =>
      constructor
      · intro generates
        cases response with
        | echoReply =>
            obtain ⟨frame, none, -⟩ := generates
            cases none
        | portUnreachable =>
            obtain ⟨frame, none, -⟩ := generates
            cases none
      · intro none
        cases none

/-- A frame is wrong if nothing was due. -/
theorem not_generates_none {action : Action} {frame : Bytes}
    (generated : action.frame? = some frame) : ¬ Generates packet action none := by
  intro drop
  rw [show action = .drop from drop] at generated
  cases generated

/-- A handler that returns one thing is judged by it. -/
theorem respondsRight_iff {action : Action}
    (returns : srHandleIpPacket sr entries mem packet interface = .ok action) :
    RespondsRight sr entries mem packet interface ↔
      Generates packet action (dueResponse packet) := by
  constructor
  · intro right
    obtain ⟨action', returns', generates⟩ := right
    rw [returns] at returns'
    cases returns'
    exact generates
  · intro generates
    exact ⟨action, returns, generates⟩

end

/-- The router generates what is due for a packet to one of its addresses, except for echo
requests whose ICMP checksum is wrong, for protocols other than ICMP, TCP and UDP, and where
something is due for a packet whose IP header verifies with a checksum of 0. -/
theorem responds_right_iff (sr : Instance) (entries : List ArpEntry) (mem : Memory)
    (packet : Bytes) (interface : IfName) (long : 42 ≤ packet.length)
    (header : headerVerifies packet) (mine : forUs sr packet = true)
    (hop : (nextHop sr (srcOf packet)).isSome = true)
    (here : (srGetInterface sr interface).isSome = true) :
    RespondsRight sr entries mem packet interface ↔
      (zeroSum packet → dueResponse packet = none) ∧
      (¬ zeroSum packet →
        (field packet 23 1 = [1] → field packet 34 1 = [8] → icmpVerifies packet) ∧
        (field packet 23 1 = [1] ∨ field packet 23 1 = [6] ∨ field packet 23 1 = [17])) := by
  obtain ⟨⟨rt, out⟩, hop⟩ := Option.isSome_iff_exists.mp hop
  obtain ⟨iface, here⟩ := Option.isSome_iff_exists.mp here
  have ipLong : 34 ≤ packet.length := by omega
  have handler : srHandleIpPacket sr entries mem packet interface = _ := srHandleIpPacket_eq ipLong
  have test := checksumOk_iff_verifies ipLong
  by_cases zero : zeroSum packet
  case pos =>
    rw [if_neg (fun good => (test.mp good).2 zero)] at handler
    rw [respondsRight_iff handler, generates_drop]
    exact ⟨fun none => ⟨fun _ => none, fun other => absurd zero other⟩, fun right => right.1 zero⟩
  case neg =>
    have good : checksumOk packet = true := test.mpr ⟨header, zero⟩
    rw [if_pos good, mine, if_pos rfl] at handler
    simp only [zero, false_implies, not_false_iff, true_implies, true_and]
    by_cases icmp : field packet 23 1 = [1]
    case pos =>
      rw [if_pos icmp] at handler
      by_cases echo : field packet 34 1 = [8]
      case pos =>
        obtain ⟨action, returns, frame, generated, answers⟩ :=
          srHandleIcmpPacket_answers (by omega) hop echo
        rw [returns] at handler
        rw [respondsRight_iff handler, dueResponse, if_pos icmp]
        by_cases verifies : icmpVerifies packet
        · rw [if_pos ⟨echo, verifies⟩]
          exact ⟨fun _ => ⟨fun _ _ => verifies, .inl icmp⟩, fun _ => ⟨frame, generated, answers⟩⟩
        · rw [if_neg (fun both => verifies both.2)]
          exact ⟨fun none => absurd none (not_generates_none generated),
            fun right => absurd (right.1 icmp echo) verifies⟩
      case neg =>
        rw [srHandleIcmpPacket_other (by omega) echo] at handler
        rw [respondsRight_iff handler, generates_drop, dueResponse, if_pos icmp,
          if_neg (fun both => echo both.1)]
        exact ⟨fun _ => ⟨fun _ type => absurd type echo, .inl icmp⟩, fun _ => rfl⟩
    case neg =>
      rw [if_neg icmp] at handler
      obtain ⟨action, returns, frame, generated, answers⟩ :=
        srSendIcmpPortUnreachable_answers long hop here
      rw [returns] at handler
      rw [respondsRight_iff handler, dueResponse, if_neg icmp]
      by_cases known : field packet 23 1 = [6] ∨ field packet 23 1 = [17]
      · rw [if_pos known]
        exact ⟨fun _ => ⟨fun same => absurd same icmp, .inr known⟩,
          fun _ => ⟨frame, generated, answers⟩⟩
      · rw [if_neg known]
        refine ⟨fun none => absurd none (not_generates_none generated), ?_⟩
        intro right
        rcases right.2 with same | other
        · exact absurd same icmp
        · exact absurd other known

/-- `ping` with a wrong ICMP checksum. -/
def corruptedPing : Bytes := put ping 36 [0, 0]

/-- It is answered, and the reply carries a checksum that verifies. -/
theorem corruptedPing_answered :
    headerVerifies corruptedPing ∧ forUs oneInterface corruptedPing = true ∧
      dueResponse corruptedPing = none ∧
      srHandleIpPacket oneInterface [] (fun _ => 0) corruptedPing [101, 49] =
        .ok (.queue 0x0200000a (echoReply corruptedPing) [101, 49]) ∧
      onesSum (icmpMessage (echoReply corruptedPing)) = 0xffff ∧
      ¬ RespondsRight oneInterface [] (fun _ => 0) corruptedPing [101, 49] := by
  have nothing : dueResponse corruptedPing = none := by decide +kernel
  have returns : srHandleIpPacket oneInterface [] (fun _ => 0) corruptedPing [101, 49] =
      .ok (.queue 0x0200000a (echoReply corruptedPing) [101, 49]) := by decide +kernel
  refine ⟨by decide +kernel, by decide +kernel, nothing, returns, by decide +kernel, ?_⟩
  rw [respondsRight_iff returns, nothing]
  exact not_generates_none rfl

theorem responds_right_iff_ping : RespondsRight oneInterface [] (fun _ => 0) ping [101, 49] :=
  (responds_right_iff oneInterface [] (fun _ => 0) ping [101, 49] (by decide) (by decide +kernel)
    (by decide) (by decide) (by decide)).mpr (by decide +kernel)

end CompNet.Router
