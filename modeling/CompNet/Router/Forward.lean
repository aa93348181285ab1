import CompNet.Router.Decisions

/-!
# Forwarding

The exits of `sr_forward_packet`.  The time to live is a byte that is decremented
before it is tested, so that it wraps for the packet that should have been dropped
one hop earlier; for every other packet what leaves is the datagram that came, with
the time to live one less and the checksum written again.
-/

namespace CompNet.Router

open CompNet.Lib

/-- The time to live of a packet. -/
def ttlOf (packet : Bytes) : UInt8 := (field packet 22 1).headD 0

/-- The ways out of `sr_forward_packet`. -/
inductive ForwardExit
  | timeExceeded
  | netUnreachable
  | noInterface
  | sent (frame : Bytes) (iface : IfName)
  | queued (ip : Ip) (frame : Bytes) (iface : IfName)
  deriving DecidableEq, Repr

/-- The exit that a packet takes. -/
def forwardExit (sr : Instance) (entries : List ArpEntry) (packet : Bytes) : ForwardExit :=
  if lessTtl packet = 0 then .timeExceeded
  else
    match srGetLongestPrefixMatch sr (dstOf packet) with
    | none => .netUnreachable
    | some rt =>
        match srGetInterface sr rt.interface with
        | none => .noInterface
        | some out =>
            match srArpcacheLookup entries rt.gw with
            | some mac =>
                .sent (put (put (forwarded packet) 6 (macBytes out.addr)) 0 (macBytes mac)) out.name
            | none => .queued rt.gw (forwarded packet) out.name

/-- What happens at an exit. -/
def ForwardExit.action (sr : Instance) (entries : List ArpEntry) (mem : Memory) (packet : Bytes)
    (interface : IfName) : ForwardExit → Except Fault Action
  | .timeExceeded =>
      srSendIcmpTimeExceeded sr entries mem (put packet 22 [lessTtl packet]) interface
  | .netUnreachable => srSendIcmpNetUnreachable sr entries mem (forwarded packet) interface
  | .noInterface => .ok .drop
  | .sent frame iface => .ok (.send frame iface)
  | .queued ip frame iface => .ok (.queue ip frame iface)

section

variable {sr : Instance} {entries : List ArpEntry} {mem : Memory} {packet : Bytes}
  {interface : IfName}

/-- The exits are those of the handler. -/
theorem srForwardPacket_exit (long : 34 ≤ packet.length) :
    srForwardPacket sr entries mem packet interface =
      (forwardExit sr entries packet).action sr entries mem packet interface := by
  rw [srForwardPacket_eq long, forwardExit]
  split_ifs with expired
  · rfl
  · cases route : srGetLongestPrefixMatch sr (dstOf packet) with
    | none => rfl
    | some rt =>
        cases leads : srGetInterface sr rt.interface with
        | none => simp only [leads, ForwardExit.action]
        | some out =>
            cases known : srArpcacheLookup entries rt.gw with
            | none => simp only [leads, known, ForwardExit.action]
            | some mac => simp only [leads, known, ForwardExit.action]

end

/-! ## The datagram -/

/-- A frame with the datagram of a packet one hop later. -/
structure OneHopOn (packet frame : Bytes) : Prop where
  length : frame.length = packet.length
  others : ∀ i, 14 ≤ i → i ≠ 22 → i ≠ 24 → i ≠ 25 → field frame i 1 = field packet i 1
  ttl : (ttlOf frame).toNat + 1 = (ttlOf packet).toNat
  sum : checksumOk frame = true

section

variable {packet : Bytes} (long : 34 ≤ packet.length)
include long

/-- The checksum is right again. -/
theorem checksumOk_forwarded : checksumOk (forwarded packet) = true := by
  have aged := length_aged long
  have cleared : (put (put packet 22 [lessTtl packet]) 24 [0, 0]).length = packet.length := by
    rw [length_put (by simp; omega), aged]
  have again : put (put (put packet 22 [lessTtl packet]) 24 [0, 0]) 24 [0, 0] =
      put (put packet 22 [lessTtl packet]) 24 [0, 0] := put_put (by simp; omega) rfl
  rw [checksumOk, forwarded]
  generalize put (put packet 22 [lessTtl packet]) 24 [0, 0] = clear at cleared again
  have written := field_put (f := clear) (v := pairBytes (cksum (field clear 14 20))) (i := 24)
    (by simp; omega)
  have undone : put (put clear 24 (pairBytes (cksum (field clear 14 20)))) 24 [0, 0] = clear :=
    (put_put (by simp; omega) (by simp)).trans again
  rw [undone]
  exact beq_iff_eq.mpr written

end

section

variable {f : Bytes} {j n : Nat} (long : 12 ≤ f.length)
include long

/-- A frame keeps its length when its two addresses are written. -/
theorem length_readdressed (shost dhost : Mac) :
    (put (put f 6 (macBytes shost)) 0 (macBytes dhost)).length = f.length := by
  have source : (put f 6 (macBytes shost)).length = f.length :=
    length_put (by rw [length_macBytes]; omega)
  rw [length_put (by rw [length_macBytes]; omega), source]

/-- What is behind the addresses stays. -/
theorem field_readdressed (behind : 12 ≤ j) (shost dhost : Mac) :
    field (put (put f 6 (macBytes shost)) 0 (macBytes dhost)) j n = field f j n := by
  have source : (put f 6 (macBytes shost)).length = f.length :=
    length_put (by rw [length_macBytes]; omega)
  rw [field_put_behind (by rw [length_macBytes]; omega) (by rw [length_macBytes]; omega),
    field_put_behind (by rw [length_macBytes]; omega) (by rw [length_macBytes]; omega)]

end

/-- The checksum covers the IP header alone. -/
theorem checksumOk_congr {f g : Bytes} (long : 34 ≤ f.length) (length : f.length = g.length)
    (same : ∀ j n, 14 ≤ j → field f j n = field g j n) : checksumOk f = checksumOk g := by
  have header : field (put f 24 [0, 0]) 14 20 = field (put g 24 [0, 0]) 14 20 := by
    rw [field_put_inside (by simp; omega) (by omega) (by simp),
      field_put_inside (by simp; omega) (by omega) (by simp), same 14 _ (by omega),
      same (24 + _) _ (by omega)]
  rw [checksumOk, checksumOk, header, same 24 2 (by omega)]

section

variable {packet : Bytes} (long : 34 ≤ packet.length) (alive : ttlOf packet ≠ 0)
include long alive

end

/-! ## The exits by the time to live -/

/-- The exits of a packet whose time to live is not used up. -/
theorem forwardExit_alive (sr : Instance) (entries : List ArpEntry) {packet : Bytes}
    (alive : lessTtl packet ≠ 0) :
    forwardExit sr entries packet = .netUnreachable ∨
      forwardExit sr entries packet = .noInterface ∨
      (∃ shost dhost iface, forwardExit sr entries packet =
        .sent (put (put (forwarded packet) 6 (macBytes shost)) 0 (macBytes dhost)) iface) ∨
      ∃ ip iface, forwardExit sr entries packet = .queued ip (forwarded packet) iface := by
  rw [forwardExit, if_neg alive]
  cases srGetLongestPrefixMatch sr (dstOf packet) with
  | none => exact .inl rfl
  | some rt =>
      simp only
      cases srGetInterface sr rt.interface with
      | none => exact .inr (.inl rfl)
      | some out =>
          simp only
          cases srArpcacheLookup entries rt.gw with
          | some mac => exact .inr (.inr (.inl ⟨out.addr, mac, out.name, rfl⟩))
          | none => exact .inr (.inr (.inr ⟨rt.gw, out.name, rfl⟩))

/-- A packet for 10.9.0.1 whose time to live is 0. -/
def expiredPacket : Bytes :=
  [2, 0, 0, 0, 0, 1, 2, 0, 0, 0, 0, 2, 8, 0,
    0x45, 0, 0, 20, 0, 0, 0, 0, 0, 17, 0xa6, 0xce, 10, 0, 0, 2, 10, 9, 0, 1]

end CompNet.Router
