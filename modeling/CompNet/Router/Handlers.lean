import CompNet.Router.Cache

/-!
# The handlers

`sr_router.c` and the part of `sr_arpcache.c` that it calls back.  Each handler
reads the frame, rewrites it or builds another, and ends in one of four ways: it
does nothing more, it sends a frame, it queues one and attends to the ARP request
for it, or it enters a mapping and sends what waited for it (`Action`).  What is
read and how the handler ends depends on the frame, the tables and the ARP cache
alone and is a function of them; the effects follow.

`handleArpreq` and `srSendError` call each other through the queue, so that the
calls take fuel; `outOfFuel` means that it was not enough.  Every call reads the
clock for itself, and nothing is assumed of what the readings give: a sweep may see
the second change, and later ones after it.
-/

namespace CompNet.Router

/-- How a handler ends. -/
inductive Action
  | drop
  | send (frame : Bytes) (iface : IfName)
  | queue (ip : Ip) (frame : Bytes) (iface : IfName)
  | learn (mac : Mac) (ip : Ip)
  deriving DecidableEq, Repr

/-- `htons(ethertype_arp)`. -/
def ethertypeArp : UInt8 × UInt8 := (0x08, 0x06)
/-- `htons(ethertype_ip)`. -/
def ethertypeIp : UInt8 × UInt8 := (0x08, 0x00)

section

variable (sr : Instance) (entries : List ArpEntry) (mem : Memory)

/-! ## Frames the router builds -/

/-- The frame of `sr_send_arp_request`. -/
def arpRequest (tip : Ip) (iface : Interface) : Bytes :=
  let ethHdr := { mem.ethernetHdr 0 with
    dhost := ⟨0xff, 0xff, 0xff, 0xff, 0xff, 0xff⟩
    shost := iface.addr
    type := ethertypeArp }
  let arpHdr := { mem.arpHdr 14 with
    hrd := (0, 1)
    pro := ethertypeIp
    hln := 6
    pln := 4
    op := (0, 1)
    sha := iface.addr
    sip := iface.ip
    tha := ⟨0, 0, 0, 0, 0, 0⟩
    tip := tip }
  ethHdr.bytes ++ arpHdr.bytes

/-- `sr_send_arp_reply`: the reply is as long as the request was. -/
def srSendArpReply (packet : Bytes) (interface : IfName) : Except Fault Action := do
  let iface := srGetInterface sr interface
  let dhost := macOf (← read packet 6 6)
  let iface ← ofPointer iface
  let ethHdr := { mem.ethernetHdr 0 with
    dhost := dhost
    shost := iface.addr
    type := ethertypeArp }
  let sha := macOf (← read packet 22 6)
  let sip := ipOf (← read packet 28 4)
  let arpHdr := { mem.arpHdr 14 with
    hrd := (0, 1)
    pro := ethertypeIp
    hln := 6
    pln := 4
    op := (0, 2)
    sha := iface.addr
    sip := iface.ip
    tha := sha
    tip := sip }
  pure (.send (ethHdr.bytes ++ arpHdr.bytes ++ mem.bytes 42 (packet.length - 42)) interface)

/-- The IP header of an error message: 56 bytes, not to be fragmented. -/
def errorIpHdr (src dst : Ip) : IpHdr :=
  let ipHdr := { mem.ipHdr 14 with
    hl := 5
    v := 4
    tos := 0
    len := (0, 56)
    id := (0, 0)
    off := (0x40, 0)
    ttl := 64
    p := 1
    src := src
    dst := dst
    sum := (0, 0) }
  { ipHdr with sum := cksum ipHdr.bytes }

/-- The ICMP header of an error message. -/
def errorIcmpHdr (type code : UInt8) (data : Bytes) : IcmpT3Hdr :=
  let icmpHdr := { mem.icmpT3Hdr 34 with
    type := type
    code := code
    unused := (0, 0)
    nextMtu := (0, 0)
    data := data
    sum := (0, 0) }
  { icmpHdr with sum := cksum icmpHdr.bytes }

/-- `sr_send_error`. -/
def srSendError (packet : Bytes) (interface : IfName) (type code : UInt8) :
    Except Fault Action := do
  let iface := srGetInterface sr interface
  let src := ipOf (← read packet 26 4)
  match srGetLongestPrefixMatch sr src with
  | none => pure .drop
  | some rt =>
      match srGetInterface sr rt.interface with
      | none => pure .drop
      | some out => do
          let iface ← ofPointer iface
          let ipHdr := errorIpHdr mem iface.ip src
          let data ← read packet 14 28
          let icmpHdr := errorIcmpHdr mem type code data
          match srArpcacheLookup entries rt.gw with
          | some mac =>
              let ethHdr := { mem.ethernetHdr 0 with
                dhost := mac
                shost := out.addr
                type := ethertypeIp }
              pure (.send (ethHdr.bytes ++ ipHdr.bytes ++ icmpHdr.bytes) out.name)
          | none =>
              let ethHdr := { mem.ethernetHdr 0 with
                type := ethertypeIp
                shost := out.addr }
              pure (.queue rt.gw (ethHdr.bytes ++ ipHdr.bytes ++ icmpHdr.bytes) out.name)

def srSendIcmpPortUnreachable (packet : Bytes) (interface : IfName) : Except Fault Action :=
  srSendError sr entries mem packet interface 3 3

def srSendIcmpTimeExceeded (packet : Bytes) (interface : IfName) : Except Fault Action :=
  srSendError sr entries mem packet interface 11 0

def srSendIcmpHostUnreachable (packet : Bytes) (interface : IfName) : Except Fault Action :=
  srSendError sr entries mem packet interface 3 1

def srSendIcmpNetUnreachable (packet : Bytes) (interface : IfName) : Except Fault Action :=
  srSendError sr entries mem packet interface 3 0

/-! ## Received frames -/

/-- `sr_forward_packet`.  The time to live is a byte: at 0 it wraps. -/
def srForwardPacket (packet : Bytes) (interface : IfName) : Except Fault Action := do
  let ttl := (← read packet 22 1).headD 0 - 1
  let packet ← write packet 22 [ttl]
  if ttl = 0 then srSendIcmpTimeExceeded sr entries mem packet interface
  else do
    let packet ← write packet 24 [0, 0]
    let sum := cksum (← read packet 14 20)
    let packet ← write packet 24 (pairBytes sum)
    match srGetLongestPrefixMatch sr (ipOf (← read packet 30 4)) with
    | none => srSendIcmpNetUnreachable sr entries mem packet interface
    | some rt =>
        match srGetInterface sr rt.interface with
        | none => pure .drop
        | some out =>
            match srArpcacheLookup entries rt.gw with
            | some mac => do
                let packet ← write packet 6 (macBytes out.addr)
                let packet ← write packet 0 (macBytes mac)
                pure (.send packet out.name)
            | none => pure (.queue rt.gw packet out.name)

/-- The copy that `sr_handle_icmp_echo_request` writes to, after the IP header. -/
def echoIpHdr (packet : Bytes) : Except Fault Bytes := do
  let new ← write packet 12 (← read packet 12 2)
  let new ← write new 14 (← read packet 14 8)
  let new ← write new 22 [64]
  let new ← write new 23 [1]
  let new ← write new 30 (← read packet 26 4)
  let new ← write new 26 (← read packet 30 4)
  let new ← write new 24 [0, 0]
  write new 24 (pairBytes (cksum (← read new 14 20)))

/-- `sr_handle_icmp_echo_request`. -/
def srHandleIcmpEchoRequest (packet : Bytes) : Except Fault Bytes := do
  let new ← echoIpHdr packet
  let new ← write new 34 [0]
  let new ← write new 35 [0]
  let new ← write new 36 [0, 0]
  write new 36 (pairBytes (cksum (← read new 34 (packet.length - 34))))

/-- `sr_handle_icmp_packet`. -/
def srHandleIcmpPacket (packet : Bytes) : Except Fault Action := do
  let type ← read packet 34 1
  if type = [8] then do
    let new ← srHandleIcmpEchoRequest packet
    match srGetLongestPrefixMatch sr (ipOf (← read packet 26 4)) with
    | none => pure .drop
    | some rt =>
        match srGetInterface sr rt.interface with
        | none => pure .drop
        | some out =>
            match srArpcacheLookup entries rt.gw with
            | some mac => do
                let new ← write new 6 (macBytes out.addr)
                let new ← write new 0 (macBytes mac)
                pure (.send new out.name)
            | none => pure (.queue rt.gw new out.name)
  else pure .drop

/-- `sr_handle_ip_packet`. -/
def srHandleIpPacket (packet : Bytes) (interface : IfName) : Except Fault Action := do
  if packet.length < 34 then pure .drop
  else do
    let oldSum ← read packet 24 2
    let cleared ← write packet 24 [0, 0]
    let calculated := pairBytes (cksum (← read cleared 14 20))
    let packet ← write cleared 24 oldSum
    if oldSum ≠ calculated then pure .drop
    else do
      let dst := ipOf (← read packet 30 4)
      if sr.ifList.any (fun iface => iface.ip == dst) then do
        let protocol ← read packet 23 1
        if protocol = [1] then srHandleIcmpPacket sr entries packet
        else srSendIcmpPortUnreachable sr entries mem packet interface
      else srForwardPacket sr entries mem packet interface

/-- `sr_handle_arp_packet`. -/
def srHandleArpPacket (packet : Bytes) (interface : IfName) : Except Fault Action := do
  if packet.length < 42 then pure .drop
  else
    match srGetInterface sr interface with
    | none => pure .drop
    | some iface => do
        let op ← read packet 20 2
        if op = [0, 1] then do
          if ipOf (← read packet 38 4) = iface.ip then srSendArpReply sr mem packet interface
          else pure .drop
        else if op = [0, 2] then do
          if ipOf (← read packet 38 4) = iface.ip then do
            let sha := macOf (← read packet 22 6)
            let sip := ipOf (← read packet 28 4)
            pure (.learn sha sip)
          else pure .drop
        else pure .drop

/-- What `sr_handlepacket` comes to. -/
def srHandlepacketAction (packet : Bytes) (interface : IfName) : Except Fault Action := do
  let type ← read packet 12 2
  if type = pairBytes ethertypeArp then srHandleArpPacket sr mem packet interface
  else if type = pairBytes ethertypeIp then srHandleIpPacket sr entries mem packet interface
  else pure .drop

end

/-! ## Effects -/

section

variable (sr : Instance) (junk : Nat → Memory) (clock : Nat → Int)

/-- `sr_send_arp_request`. -/
def srSendArpRequest (tip : Ip) (iface : Interface) : Cmd Unit := do
  let mem ← malloc junk
  srSendPacket (arpRequest mem tip iface) iface.name

/-- One turn of the loop that sends what waited for an address. -/
def flushPacket (mac : Mac) (pkt : Packet) : Cmd Unit := do
  let buf ← ofExcept (write pkt.buf 0 (macBytes mac))
  let out ← ofExcept (ofPointer (srGetInterface sr pkt.iface))
  let buf ← ofExcept (write buf 6 (macBytes out.addr))
  srSendPacket buf pkt.iface

/-- The end of a handler, with the attention to the ARP request as a parameter. -/
def perform (attend : Nat → Cmd Unit) : Action → Cmd Unit
  | .drop => pure ()
  | .send frame iface => srSendPacket frame iface
  | .queue ip frame iface => do
      let id ← srArpcacheQueuereq ip frame iface
      attend id
  | .learn mac ip => do
      let now ← time clock
      match ← srArpcacheInsert now mac ip with
      | none => pure ()
      | some req => req.packets.forM (flushPacket sr mac)

/-- The call of `sr_send_icmp_host_unreachable` for one packet of a request. -/
def refusePacket (attend : Nat → Cmd Unit) (id : Nat) (pkt : Packet) : Cmd Unit := do
  let _ ← deref id
  let mem ← malloc junk
  let s ← get
  let action ← ofExcept (srSendIcmpHostUnreachable sr s.entries mem pkt.buf pkt.iface)
  perform sr clock attend action

/-- The branch of `handle_arpreq` that sends the ARP request again. -/
def resend (now : Int) (req : ArpReq) : Cmd Unit := do
  let pkt ← ofExcept (ofPointer req.packets.head?)
  let iface ← ofExcept (ofPointer (srGetInterface sr pkt.iface))
  srSendArpRequest junk req.ip iface
  modify fun s => s.update req.id fun req =>
    { req with sent := now, timesSent := req.timesSent + 1 }

/-- `handle_arpreq`. -/
def handleArpreq : Nat → Nat → Cmd Unit
  | 0, _ => throw .outOfFuel
  | fuel + 1, id => do
      let now ← time clock
      let req ← deref id
      if now - req.sent > 1 then
        if 5 ≤ req.timesSent then do
          req.packets.forM (refusePacket sr junk clock (handleArpreq fuel) id)
          srArpreqDestroy id
        else resend sr junk now req
      else pure ()

/-- The request behind another one on the queue. -/
def successor (id : Nat) : List ArpReq → Option Nat
  | [] => none
  | req :: rest => if req.id = id then rest.head?.map ArpReq.id else successor id rest

/-- The loop of `sr_arpcache_sweepreqs`; the queue is never longer than when it
starts. -/
def sweepLoop (attend : Nat → Cmd Unit) : Nat → Option Nat → Cmd Unit
  | _, none => pure ()
  | 0, some _ => throw .outOfFuel
  | turns + 1, some id => do
      let _ ← deref id
      let s ← get
      attend id
      sweepLoop attend turns (successor id s.requests)

/-- `sr_arpcache_sweepreqs`. -/
def srArpcacheSweepreqs (fuel : Nat) : Cmd Unit := do
  let s ← get
  sweepLoop (handleArpreq sr junk clock fuel) s.requests.length (s.requests.head?.map ArpReq.id)

/-- `sr_handlepacket`. -/
def srHandlepacket (fuel : Nat) (packet : Bytes) (interface : IfName) : Cmd Unit := do
  let mem ← malloc junk
  let s ← get
  let action ← ofExcept (srHandlepacketAction sr s.entries mem packet interface)
  perform sr clock (handleArpreq sr junk clock fuel) action

/-- One turn of the loop of `sr_arpcache_timeout`. -/
def srArpcacheTimeout (fuel : Nat) : Cmd Unit := do
  let curtime ← time clock
  modify fun s => { s with entries := expireEntries curtime s.entries }
  srArpcacheSweepreqs sr junk clock fuel

end

/-! ## Runs -/

/-- What happens to the router. -/
inductive Event
  | packet (frame : Bytes) (interface : IfName)
  | timeout
  deriving DecidableEq, Repr

def Event.exec (sr : Instance) (junk : Nat → Memory) (clock : Nat → Int) (fuel : Nat) :
    Event → Cmd Unit
  | .packet frame interface => srHandlepacket sr junk clock fuel frame interface
  | .timeout => srArpcacheTimeout sr junk clock fuel

/-- A run under a clock: one event after the other. -/
def run (sr : Instance) (junk : Nat → Memory) (clock : Nat → Int) (fuel : Nat)
    (events : List Event) : Cmd Unit :=
  events.forM (Event.exec sr junk clock fuel)

end CompNet.Router
