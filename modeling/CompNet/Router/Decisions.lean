import CompNet.Lib.Command
import CompNet.Router.Handlers

/-!
# What the handlers decide

One lemma for each way through a handler, in terms of the fields of the frame and
the next hop towards an address.
-/

namespace CompNet.Router

open CompNet.Lib

/-! ## Fields of a frame -/

def srcOf (packet : Bytes) : Ip := ipOf (field packet 26 4)
def dstOf (packet : Bytes) : Ip := ipOf (field packet 30 4)

/-- The route towards an address, if it leads to an interface. -/
def nextHop (sr : Instance) (a : Ip) : Option (Route × Interface) := do
  let rt ← srGetLongestPrefixMatch sr a
  let out ← srGetInterface sr rt.interface
  some (rt, out)

theorem nextHop_eq_some {sr : Instance} {a : Ip} {rt : Route} {out : Interface} :
    nextHop sr a = some (rt, out) ↔
      srGetLongestPrefixMatch sr a = some rt ∧ srGetInterface sr rt.interface = some out := by
  cases route : srGetLongestPrefixMatch sr a with
  | none => simp [nextHop, route]
  | some rt' =>
      cases interface : srGetInterface sr rt'.interface with
      | none =>
          simp only [nextHop, route, Option.bind_eq_bind, Option.bind_some, interface,
            Option.bind_none, Option.some.injEq]
          constructor
          · intro none
            cases none
          · intro given
            rcases given with ⟨rfl, found⟩
            rw [interface] at found
            cases found
      | some out' =>
          simp only [nextHop, route, Option.bind_eq_bind, Option.bind_some, interface,
            Option.some.injEq, Prod.mk.injEq]
          constructor
          · intro given
            rcases given with ⟨rfl, rfl⟩
            exact ⟨rfl, interface⟩
          · intro given
            rcases given with ⟨rfl, found⟩
            rw [interface] at found
            exact ⟨rfl, Option.some.inj found⟩

theorem nextHop_eq_none {sr : Instance} {a : Ip} {rt : Route}
    (route : srGetLongestPrefixMatch sr a = some rt)
    (leads : srGetInterface sr rt.interface = none) : nextHop sr a = none := by
  simp [nextHop, route, leads]

/-- The interface a packet leaves by is found again under its name. -/
theorem srGetInterface_out {sr : Instance} {a : Ip} {rt : Route} {out : Interface}
    (hop : nextHop sr a = some (rt, out)) : srGetInterface sr out.name = some out := by
  obtain ⟨-, leads⟩ := nextHop_eq_some.mp hop
  rw [srGetInterface_name leads, leads]

/-- Writing back what was read changes nothing. -/
theorem put_field {f v : Bytes} {i : Nat} (le : i + v.length ≤ f.length) :
    put (put f i v) i (field f i v.length) = f := by
  have size : (field f i v.length).length = v.length := length_field le
  have start : (f.take i).length = i := by
    rw [List.length_take]
    omega
  have front : (put f i v).take i = f.take i := by
    rw [put, List.append_assoc, List.take_left' start]
  have behind : (put f i v).drop (i + v.length) = f.drop (i + v.length) := by
    rw [put]
    exact List.drop_left' (by rw [List.length_append, start])
  rw [put, size, front, behind, field, List.append_assoc, ← List.drop_drop, List.take_append_drop,
    List.take_append_drop]

/-! ## Error messages -/

section

variable {sr : Instance} {entries : List ArpEntry} {mem : Memory} {packet : Bytes}
  {interface : IfName} {type code : UInt8} {rt : Route} {out iface : Interface}

/-- The frame of an error message for a packet, sent from the address `src`. -/
def errorFrame (mem : Memory) (dhost : Mac) (out : Interface) (src : Ip) (packet : Bytes)
    (type code : UInt8) : Bytes :=
  (EthernetHdr.mk dhost out.addr ethertypeIp).bytes ++ (errorIpHdr mem src (srcOf packet)).bytes ++
    (errorIcmpHdr mem type code (field packet 14 28)).bytes

theorem length_errorFrame (mem : Memory) (dhost : Mac) (out : Interface) (src : Ip)
    (type code : UInt8) (long : 42 ≤ packet.length) :
    (errorFrame mem dhost out src packet type code).length = 70 := by
  have data : (field packet 14 28).length = 28 := length_field (by omega)
  simp [errorFrame, EthernetHdr.bytes, IpHdr.bytes, IcmpT3Hdr.bytes, macBytes, pairBytes, ipBytes,
    errorIcmpHdr, data]

theorem srSendError_noHop (long : 30 ≤ packet.length) (none : nextHop sr (srcOf packet) = none) :
    srSendError sr entries mem packet interface type code = .ok .drop := by
  have src := read_ok (show 26 + 4 ≤ packet.length by omega)
  simp only [srSendError, src, ok_bind]
  cases route : srGetLongestPrefixMatch sr (ipOf (field packet 26 4)) with
  | none => rfl
  | some rt =>
      cases leads : srGetInterface sr rt.interface with
      | none => simp only [leads]; rfl
      | some out =>
          have hop : nextHop sr (srcOf packet) = some (rt, out) :=
            nextHop_eq_some.mpr ⟨route, leads⟩
          rw [none] at hop
          cases hop

theorem srSendError_noInterface (hop : nextHop sr (srcOf packet) = some (rt, out))
    (long : 30 ≤ packet.length) (none : srGetInterface sr interface = none) :
    srSendError sr entries mem packet interface type code = .error .nullPointer := by
  obtain ⟨route, leads⟩ := nextHop_eq_some.mp hop
  have src := read_ok (show 26 + 4 ≤ packet.length by omega)
  rw [srcOf] at route
  simp only [srSendError, src, ok_bind, route, leads, none, ofPointer, error_bind]

theorem srSendError_short (long : 30 ≤ packet.length) (short : packet.length < 42)
    (hop : nextHop sr (srcOf packet) = some (rt, out))
    (here : srGetInterface sr interface = some iface) :
    srSendError sr entries mem packet interface type code = .error .outOfBounds := by
  obtain ⟨route, leads⟩ := nextHop_eq_some.mp hop
  have src := read_ok (show 26 + 4 ≤ packet.length by omega)
  have data := read_error (show packet.length < 14 + 28 by omega)
  rw [srcOf] at route
  simp only [srSendError, src, ok_bind, route, leads, here, ofPointer, data, error_bind]

theorem srSendError_hit {mac : Mac} (long : 42 ≤ packet.length)
    (hop : nextHop sr (srcOf packet) = some (rt, out))
    (here : srGetInterface sr interface = some iface)
    (known : srArpcacheLookup entries rt.gw = some mac) :
    srSendError sr entries mem packet interface type code =
      .ok (.send (errorFrame mem mac out iface.ip packet type code) out.name) := by
  obtain ⟨route, leads⟩ := nextHop_eq_some.mp hop
  have src := read_ok (show 26 + 4 ≤ packet.length by omega)
  have data := read_ok (show 14 + 28 ≤ packet.length by omega)
  rw [srcOf] at route
  simp only [srSendError, src, ok_bind, route, leads, here, ofPointer, data, known]
  rfl

theorem srSendError_miss (long : 42 ≤ packet.length)
    (hop : nextHop sr (srcOf packet) = some (rt, out))
    (here : srGetInterface sr interface = some iface)
    (unknown : srArpcacheLookup entries rt.gw = none) :
    srSendError sr entries mem packet interface type code =
      .ok (.queue rt.gw (errorFrame mem (mem.mac 0) out iface.ip packet type code) out.name) := by
  obtain ⟨route, leads⟩ := nextHop_eq_some.mp hop
  have src := read_ok (show 26 + 4 ≤ packet.length by omega)
  have data := read_ok (show 14 + 28 ≤ packet.length by omega)
  rw [srcOf] at route
  simp only [srSendError, src, ok_bind, route, leads, here, ofPointer, data, unknown]
  rfl

end

/-! ## Forwarding -/

/-- The time to live, one less. -/
def lessTtl (packet : Bytes) : UInt8 := (field packet 22 1).headD 0 - 1

/-- The packet with the time to live and the checksum written. -/
def forwarded (packet : Bytes) : Bytes :=
  let aged := put (put packet 22 [lessTtl packet]) 24 [0, 0]
  put aged 24 (pairBytes (cksum (field aged 14 20)))

section

variable {packet : Bytes} (long : 34 ≤ packet.length)
include long

theorem length_aged : (put packet 22 [lessTtl packet]).length = packet.length :=
  length_put (by simp; omega)

theorem srcOf_aged : srcOf (put packet 22 [lessTtl packet]) = srcOf packet := by
  rw [srcOf, srcOf, field_put_behind (by simp; omega) (by simp)]

theorem length_forwarded : (forwarded packet).length = packet.length := by
  have aged := length_aged long
  have cleared : (put (put packet 22 [lessTtl packet]) 24 [0, 0]).length = packet.length := by
    rw [length_put (by simp; omega), aged]
  rw [forwarded, length_put (by simp [pairBytes]; omega), cleared]

/-- Forwarding leaves what is not the time to live or the checksum. -/
theorem field_forwarded {j n : Nat} (apart : j + n ≤ 22 ∨ 26 ≤ j) :
    field (forwarded packet) j n = field packet j n := by
  have aged := length_aged long
  have cleared : (put (put packet 22 [lessTtl packet]) 24 [0, 0]).length = packet.length := by
    rw [length_put (by simp; omega), aged]
  rw [forwarded]
  rcases apart with before | behind
  · rw [field_put_before (by simp [pairBytes]; omega) (by omega),
      field_put_before (by simp; omega) (by omega), field_put_before (by simp; omega) (by omega)]
  · rw [field_put_behind (by simp [pairBytes]; omega) (by simp [pairBytes]; omega),
      field_put_behind (by simp; omega) (by simp; omega),
      field_put_behind (by simp; omega) (by simp; omega)]

theorem srcOf_forwarded : srcOf (forwarded packet) = srcOf packet := by
  rw [srcOf, srcOf, field_forwarded long (by omega)]

theorem dstOf_forwarded : dstOf (forwarded packet) = dstOf packet := by
  rw [dstOf, dstOf, field_forwarded long (by omega)]

end

section

variable {sr : Instance} {entries : List ArpEntry} {mem : Memory} {packet : Bytes}
  {interface : IfName} {rt : Route} {out : Interface} (long : 34 ≤ packet.length)
include long

/-- The rewriting itself. -/
theorem srForwardPacket_eq :
    srForwardPacket sr entries mem packet interface =
      if lessTtl packet = 0 then
        srSendIcmpTimeExceeded sr entries mem (put packet 22 [lessTtl packet]) interface
      else
        match srGetLongestPrefixMatch sr (dstOf packet) with
        | none => srSendIcmpNetUnreachable sr entries mem (forwarded packet) interface
        | some rt =>
            match srGetInterface sr rt.interface with
            | none => .ok .drop
            | some out =>
                match srArpcacheLookup entries rt.gw with
                | some mac =>
                    .ok (.send (put (put (forwarded packet) 6 (macBytes out.addr)) 0 (macBytes mac))
                      out.name)
                | none => .ok (.queue rt.gw (forwarded packet) out.name) := by
  have aged := length_aged long
  have cleared : (put (put packet 22 [lessTtl packet]) 24 [0, 0]).length = packet.length := by
    rw [length_put (by simp; omega), aged]
  have whole := length_forwarded long
  have ttl : read packet 22 1 = _ := read_ok (by omega)
  have one : write packet 22 [lessTtl packet] = _ := write_ok (by simp; omega)
  have two : write (put packet 22 [lessTtl packet]) 24 [0, 0] = _ := write_ok (by simp; omega)
  have header : read (put (put packet 22 [lessTtl packet]) 24 [0, 0]) 14 20 = _ :=
    read_ok (by omega)
  have three : write (put (put packet 22 [lessTtl packet]) 24 [0, 0]) 24 (pairBytes (cksum (field
      (put (put packet 22 [lessTtl packet]) 24 [0, 0]) 14 20))) = .ok (forwarded packet) :=
    write_ok (by simp [pairBytes]; omega)
  have dst : read (forwarded packet) 30 4 = .ok (field packet 30 4) := by
    rw [read_ok (by omega), field_forwarded long (by omega)]
  have source : ∀ m : Mac,
      write (forwarded packet) 6 (macBytes m) = .ok (put (forwarded packet) 6 (macBytes m)) :=
    fun m => write_ok (by simp [macBytes]; omega)
  have target : ∀ m n : Mac, write (put (forwarded packet) 6 (macBytes m)) 0 (macBytes n) =
      .ok (put (put (forwarded packet) 6 (macBytes m)) 0 (macBytes n)) := fun m n =>
    write_ok (by rw [length_put (by simp [macBytes]; omega)]; simp [macBytes]; omega)
  rw [lessTtl] at one two header three
  simp only [srForwardPacket, ttl, ok_bind, one, two, header, three, dst, source, target]
  rfl

end

/-! ## Echo -/

/-- The copy of an echo request with its IP header rewritten. -/
def echoIp (packet : Bytes) : Bytes :=
  let new := put (put (put packet 12 (field packet 12 2)) 14 (field packet 14 8)) 22 [64]
  let new := put (put (put new 23 [1]) 30 (field packet 26 4)) 26 (field packet 30 4)
  let new := put new 24 [0, 0]
  put new 24 (pairBytes (cksum (field new 14 20)))

/-- The reply to an echo request. -/
def echoReply (packet : Bytes) : Bytes :=
  let new := put (put (put (echoIp packet) 34 [0]) 35 [0]) 36 [0, 0]
  put new 36 (pairBytes (cksum (field new 34 (packet.length - 34))))

/-- One write of many. -/
theorem write_step {f v : Bytes} {i n : Nat} (size : f.length = n) (le : i + v.length ≤ n) :
    write f i v = .ok (put f i v) ∧ (put f i v).length = n :=
  ⟨write_ok (by omega), by rw [length_put (by omega), size]⟩

section

variable {packet : Bytes}

theorem echoIpHdr_spec (long : 34 ≤ packet.length) :
    echoIpHdr packet = .ok (echoIp packet) ∧ (echoIp packet).length = packet.length ∧
      field (echoIp packet) 12 2 = field packet 12 2 ∧
      field (echoIp packet) 26 4 = field packet 30 4 ∧
      field (echoIp packet) 30 4 = field packet 26 4 := by
  have two : (field packet 12 2).length = 2 := length_field (by omega)
  have eight : (field packet 14 8).length = 8 := length_field (by omega)
  have four : (field packet 26 4).length = 4 := length_field (by omega)
  have four' : (field packet 30 4).length = 4 := length_field (by omega)
  obtain ⟨w₁, l₁⟩ := write_step (f := packet) (v := field packet 12 2) (i := 12) rfl (by omega)
  obtain ⟨w₂, l₂⟩ := write_step (v := field packet 14 8) (i := 14) l₁ (by omega)
  obtain ⟨w₃, l₃⟩ := write_step (v := [64]) (i := 22) l₂ (by simp; omega)
  obtain ⟨w₄, l₄⟩ := write_step (v := [1]) (i := 23) l₃ (by simp; omega)
  obtain ⟨w₅, l₅⟩ := write_step (v := field packet 26 4) (i := 30) l₄ (by omega)
  obtain ⟨w₆, l₆⟩ := write_step (v := field packet 30 4) (i := 26) l₅ (by omega)
  obtain ⟨w₇, l₇⟩ := write_step (v := [0, 0]) (i := 24) l₆ (by simp; omega)
  obtain ⟨w₈, l₈⟩ := write_step (i := 24) l₇ (v := pairBytes (cksum (field _ 14 20)))
    (by simp [pairBytes]; omega)
  refine ⟨?_, l₈, ?_, ?_, ?_⟩
  · have header := read_ok (f := put _ 24 [0, 0]) (i := 14) (n := 20) (by rw [l₇]; omega)
    rw [echoIpHdr, read_ok (show 12 + 2 ≤ packet.length by omega),
      read_ok (show 14 + 8 ≤ packet.length by omega),
      read_ok (show 26 + 4 ≤ packet.length by omega),
      read_ok (show 30 + 4 ≤ packet.length by omega)]
    simp only [ok_bind, w₁, w₂, w₃, w₄, w₅, w₆, w₇, header, w₈]
    rfl
  · rw [echoIp, field_put_before (by simp [pairBytes]; omega) (by omega),
      field_put_before (by simp; omega) (by omega), field_put_before (by omega) (by omega),
      field_put_before (by omega) (by omega), field_put_before (by simp; omega) (by omega),
      field_put_before (by simp; omega) (by omega), field_put_before (by omega) (by omega)]
    have same := field_put (f := packet) (v := field packet 12 2) (i := 12) (by omega)
    rwa [two] at same
  · rw [echoIp, field_put_behind (by simp [pairBytes]; omega) (by simp [pairBytes]),
      field_put_behind (by simp; omega) (by simp)]
    have same := field_put (v := field packet 30 4) (i := 26) (by rw [l₅]; omega)
    rw [four'] at same
    exact same
  · rw [echoIp, field_put_behind (by simp [pairBytes]; omega) (by simp [pairBytes]),
      field_put_behind (by simp; omega) (by simp), field_put_behind (by omega) (by omega)]
    have same := field_put (v := field packet 26 4) (i := 30) (by rw [l₄]; omega)
    rw [four] at same
    exact same

/-- The reply is written if the ICMP header fits. -/
theorem srHandleIcmpEchoRequest_ok (long : 38 ≤ packet.length) :
    srHandleIcmpEchoRequest packet = .ok (echoReply packet) ∧
      (echoReply packet).length = packet.length ∧
      field (echoReply packet) 12 2 = field packet 12 2 ∧
      srcOf (echoReply packet) = dstOf packet ∧ dstOf (echoReply packet) = srcOf packet := by
  obtain ⟨ip, size, type, src, dst⟩ := echoIpHdr_spec (show 34 ≤ packet.length by omega)
  obtain ⟨w₁, l₁⟩ := write_step (v := [0]) (i := 34) size (by simp; omega)
  obtain ⟨w₂, l₂⟩ := write_step (v := [0]) (i := 35) l₁ (by simp; omega)
  obtain ⟨w₃, l₃⟩ := write_step (v := [0, 0]) (i := 36) l₂ (by simp; omega)
  obtain ⟨w₄, l₄⟩ := write_step (i := 36) l₃
    (v := pairBytes (cksum (field _ 34 (packet.length - 34)))) (by simp [pairBytes]; omega)
  have untouched : ∀ {j n : Nat}, j + n ≤ 34 →
      field (echoReply packet) j n = field (echoIp packet) j n := by
    intro j n before
    rw [echoReply, field_put_before (by simp [pairBytes]; omega) (by omega),
      field_put_before (by simp; omega) (by omega), field_put_before (by simp; omega) (by omega),
      field_put_before (by simp; omega) (by omega)]
  refine ⟨?_, l₄, ?_, ?_, ?_⟩
  · have rest := read_ok (f := put _ 36 [0, 0]) (i := 34) (n := packet.length - 34)
      (by rw [l₃]; omega)
    simp only [srHandleIcmpEchoRequest, ip, ok_bind, w₁, w₂, w₃, rest, w₄]
    rfl
  · rw [untouched (by omega), type]
  · rw [srcOf, untouched (by omega), src, dstOf]
  · rw [dstOf, untouched (by omega), dst, srcOf]

theorem srHandleIcmpEchoRequest_short (long : 34 ≤ packet.length) (short : packet.length < 38) :
    srHandleIcmpEchoRequest packet = .error .outOfBounds := by
  obtain ⟨ip, size, -⟩ := echoIpHdr_spec long
  simp only [srHandleIcmpEchoRequest, ip, ok_bind]
  by_cases one : packet.length = 34
  · rw [write_error (by simp; omega), error_bind]
  obtain ⟨w₁, l₁⟩ := write_step (v := [0]) (i := 34) size (by simp; omega)
  rw [w₁, ok_bind]
  by_cases two : packet.length = 35
  · rw [write_error (by simp; omega), error_bind]
  obtain ⟨w₂, l₂⟩ := write_step (v := [0]) (i := 35) l₁ (by simp; omega)
  rw [w₂, ok_bind, write_error (by simp; omega), error_bind]

end

/-! ## Received frames -/

/-- The test of the IP header's checksum. -/
def checksumOk (packet : Bytes) : Bool :=
  field packet 24 2 == pairBytes (cksum (field (put packet 24 [0, 0]) 14 20))

/-- The packet is for one of the router's addresses. -/
def forUs (sr : Instance) (packet : Bytes) : Bool :=
  sr.ifList.any fun iface => iface.ip == dstOf packet

section

variable {sr : Instance} {entries : List ArpEntry} {mem : Memory} {packet : Bytes}
  {interface : IfName} {iface : Interface}

theorem srHandleIpPacket_short (short : packet.length < 34) :
    srHandleIpPacket sr entries mem packet interface = .ok .drop := by
  rw [srHandleIpPacket, if_pos short]
  rfl

theorem srHandleIpPacket_eq (long : 34 ≤ packet.length) :
    srHandleIpPacket sr entries mem packet interface =
      if checksumOk packet then
        if forUs sr packet then
          if field packet 23 1 = [1] then srHandleIcmpPacket sr entries packet
          else srSendIcmpPortUnreachable sr entries mem packet interface
        else srForwardPacket sr entries mem packet interface
      else .ok .drop := by
  have sum : read packet 24 2 = _ := read_ok (by omega)
  have two : (field packet 24 2).length = 2 := length_field (by omega)
  obtain ⟨clear, size⟩ := write_step (f := packet) (v := [0, 0]) (i := 24) rfl (by simp; omega)
  have header : read (put packet 24 [0, 0]) 14 20 = _ := read_ok (by omega)
  have restore : write (put packet 24 [0, 0]) 24 (field packet 24 2) = .ok packet := by
    rw [write_ok (by omega)]
    exact congrArg Except.ok (put_field (v := [0, 0]) (by simp; omega))
  have dst : read packet 30 4 = _ := read_ok (by omega)
  have protocol : read packet 23 1 = _ := read_ok (by omega)
  rw [srHandleIpPacket, if_neg (by omega)]
  simp only [sum, ok_bind, clear, header, restore, dst, protocol]
  by_cases good : field packet 24 2 = pairBytes (cksum (field (put packet 24 [0, 0]) 14 20))
  · have ok : checksumOk packet = true := by simpa [checksumOk] using good
    rw [if_neg (not_not.mpr good), if_pos ok]
    rfl
  · have bad : ¬ checksumOk packet = true := by simpa [checksumOk] using good
    rw [if_pos good, if_neg bad]
    rfl

theorem srHandleIcmpPacket_empty (short : packet.length < 35) :
    srHandleIcmpPacket sr entries packet = .error .outOfBounds := by
  rw [srHandleIcmpPacket, read_error (by omega), error_bind]

theorem srHandleIcmpPacket_other (long : 35 ≤ packet.length) (other : field packet 34 1 ≠ [8]) :
    srHandleIcmpPacket sr entries packet = .ok .drop := by
  rw [srHandleIcmpPacket, read_ok (by omega), ok_bind, if_neg other]
  rfl

theorem srHandleIcmpPacket_short (long : 35 ≤ packet.length) (short : packet.length < 38)
    (echo : field packet 34 1 = [8]) :
    srHandleIcmpPacket sr entries packet = .error .outOfBounds := by
  have fails := srHandleIcmpEchoRequest_short (show 34 ≤ packet.length by omega) short
  rw [srHandleIcmpPacket, read_ok (by omega), ok_bind, if_pos echo, fails, error_bind]

/-- The reply goes out, or waits. -/
theorem srHandleIcmpPacket_eq (long : 38 ≤ packet.length) :
    srHandleIcmpPacket sr entries packet =
      if field packet 34 1 = [8] then
        match srGetLongestPrefixMatch sr (srcOf packet) with
        | none => .ok .drop
        | some rt =>
            match srGetInterface sr rt.interface with
            | none => .ok .drop
            | some out =>
                match srArpcacheLookup entries rt.gw with
                | some mac =>
                    .ok (.send (put (put (echoReply packet) 6 (macBytes out.addr)) 0 (macBytes mac))
                      out.name)
                | none => .ok (.queue rt.gw (echoReply packet) out.name)
      else .ok .drop := by
  obtain ⟨reply, size, -⟩ := srHandleIcmpEchoRequest_ok long
  have type : read packet 34 1 = _ := read_ok (by omega)
  have src : read packet 26 4 = _ := read_ok (by omega)
  have source : ∀ m : Mac, write (echoReply packet) 6 (macBytes m) = _ ∧ _ := fun m =>
    write_step size (by simp [macBytes]; omega)
  have target : ∀ m n : Mac, write (put (echoReply packet) 6 (macBytes m)) 0 (macBytes n) =
      .ok (put (put (echoReply packet) 6 (macBytes m)) 0 (macBytes n)) := fun m n =>
    write_ok (by rw [(source m).2]; simp [macBytes]; omega)
  simp only [srHandleIcmpPacket, type, ok_bind, reply, src, (source _).1, target]
  rfl

theorem srHandleArpPacket_short (short : packet.length < 42) :
    srHandleArpPacket sr mem packet interface = .ok .drop := by
  rw [srHandleArpPacket, if_pos short]
  rfl

/-- The reply to an ARP request: a frame as long as the request, of which the first 42
bytes are written. -/
def arpReply (mem : Memory) (packet : Bytes) (iface : Interface) : Bytes :=
  (EthernetHdr.mk (macOf (field packet 6 6)) iface.addr ethertypeArp).bytes ++
    (ArpHdr.mk (0, 1) ethertypeIp 6 4 (0, 2) iface.addr iface.ip (macOf (field packet 22 6))
      (ipOf (field packet 28 4))).bytes ++
    mem.bytes 42 (packet.length - 42)

theorem srHandleArpPacket_eq (long : 42 ≤ packet.length)
    (here : srGetInterface sr interface = some iface) :
    srHandleArpPacket sr mem packet interface =
      if field packet 20 2 = [0, 1] then
        if ipOf (field packet 38 4) = iface.ip then
          .ok (.send (arpReply mem packet iface) interface)
        else .ok .drop
      else if field packet 20 2 = [0, 2] then
        if ipOf (field packet 38 4) = iface.ip then
          .ok (.learn (macOf (field packet 22 6)) (ipOf (field packet 28 4)))
        else .ok .drop
      else .ok .drop := by
  have op : read packet 20 2 = _ := read_ok (by omega)
  have tip : read packet 38 4 = _ := read_ok (by omega)
  have sha : read packet 22 6 = _ := read_ok (by omega)
  have sip : read packet 28 4 = _ := read_ok (by omega)
  have shost : read packet 6 6 = _ := read_ok (by omega)
  rw [srHandleArpPacket, if_neg (by omega)]
  simp only [here, op, ok_bind, tip, sha, sip, srSendArpReply, shost, ofPointer]
  rfl

theorem srHandlepacketAction_eq (long : 14 ≤ packet.length) :
    srHandlepacketAction sr entries mem packet interface =
      if field packet 12 2 = pairBytes ethertypeArp then srHandleArpPacket sr mem packet interface
      else if field packet 12 2 = pairBytes ethertypeIp then
        srHandleIpPacket sr entries mem packet interface
      else .ok .drop := by
  have type : read packet 12 2 = _ := read_ok (by omega)
  simp only [srHandlepacketAction, type, ok_bind]
  rfl

end

end CompNet.Router
