import CompNet.Router.Decisions

/-!
# Where packets go

Forwarding, echo replies and error messages each send a frame at once if the next
hop is in the cache, and queue it otherwise.  `Passes` says that the two ways
agree: the frame that is queued becomes, with the addresses written, the one that
would have been sent.  The invariant of a run follows the packets from the
decision to queue them to the ARP reply that releases them.
-/

namespace CompNet.Router

open CompNet.Lib

/-! ## The Ethernet addresses of a frame -/

/-- A frame with its addresses written. -/
def addressed (f : Bytes) (dhost shost : Mac) : Bytes :=
  macBytes dhost ++ macBytes shost ++ f.drop 12

section

variable {f g : Bytes} {dhost shost : Mac}

/-- At once, the source is written first. -/
theorem put_source_destination (long : 12 ≤ f.length) :
    put (put f 6 (macBytes shost)) 0 (macBytes dhost) = addressed f dhost shost := by
  have six : (f.take 6).length = 6 := by
    rw [List.length_take]
    omega
  have front : put f 6 (macBytes shost) = f.take 6 ++ (macBytes shost ++ f.drop 12) := by
    rw [put, List.append_assoc]
    rfl
  have behind : (f.take 6 ++ (macBytes shost ++ f.drop 12)).drop 6 = macBytes shost ++ f.drop 12 :=
    List.drop_left' six
  rw [front, put, List.take_zero, List.nil_append]
  show macBytes dhost ++ List.drop 6 _ = _
  rw [behind, addressed, List.append_assoc]

/-- Later, the destination is. -/
theorem put_destination_source (same : SameBehind f g) :
    put (put f 0 (macBytes dhost)) 6 (macBytes shost) = addressed g dhost shost := by
  have twelve : ∀ h : Bytes, h.drop 12 = (h.drop 6).drop 6 := by
    intro h
    rw [List.drop_drop]
  show macBytes dhost ++ macBytes shost ++ List.drop 6 (List.drop 6 f) = _
  rw [same.behind, ← twelve, addressed]

theorem field_addressed {j n : Nat} (behind : 12 ≤ j) :
    field (addressed f dhost shost) j n = field f j n := by
  have size : (macBytes dhost ++ macBytes shost).length = 12 := rfl
  rw [field, field, addressed, List.drop_append, List.drop_eq_nil_of_le (by omega), List.nil_append,
    List.drop_drop, size]
  congr 2
  omega

end

/-! ## Packets passed on -/

/-- A handler passes a packet on towards a next hop. -/
structure Passes (sr : Instance) (act : List ArpEntry → Memory → Except Fault Action) (rt : Route)
    (out : Interface) (f : Bytes) : Prop where
  long : 34 ≤ f.length
  type : field f 12 2 = pairBytes ethertypeIp
  route : srGetLongestPrefixMatch sr (dstOf f) = some rt
  leads : srGetInterface sr rt.interface = some out
  hit : ∀ entries mem mac, srArpcacheLookup entries rt.gw = some mac →
    act entries mem = .ok (.send (addressed f mac out.addr) out.name)
  miss : ∀ entries mem, srArpcacheLookup entries rt.gw = none →
    ∃ g, SameBehind g f ∧ act entries mem = .ok (.queue rt.gw g out.name)

section

variable {sr : Instance} {packet : Bytes} {interface : IfName} {rt : Route} {out iface : Interface}

/-- Error messages are passed on. -/
theorem srSendError_passes {type code : UInt8} (long : 42 ≤ packet.length)
    (hop : nextHop sr (srcOf packet) = some (rt, out))
    (here : srGetInterface sr interface = some iface) :
    Passes sr (fun entries mem => srSendError sr entries mem packet interface type code) rt out
      (errorFrame (fun _ => 0) ⟨0, 0, 0, 0, 0, 0⟩ out iface.ip packet type code) := by
  obtain ⟨route, leads⟩ := nextHop_eq_some.mp hop
  have size : ∀ mem dhost, (errorFrame mem dhost out iface.ip packet type code).length = 70 :=
    fun mem dhost => length_errorFrame mem dhost out iface.ip type code long
  have dst : dstOf (errorFrame (fun _ => 0) ⟨0, 0, 0, 0, 0, 0⟩ out iface.ip packet type code) =
      srcOf packet := ipOf_ipBytes (srcOf packet)
  constructor
  case long => rw [size]; omega
  case type => rfl
  case route => rw [dst, route]
  case leads => exact leads
  case hit =>
    intro entries mem mac known
    exact srSendError_hit long hop here known
  case miss =>
    intro entries mem unknown
    refine ⟨_, ?_, srSendError_miss long hop here unknown⟩
    exact ⟨by rw [size, size], rfl⟩

/-- A handler that passes nothing on drops the packet, or fails. -/
def Drops (act : List ArpEntry → Memory → Except Fault Action) : Prop :=
  ∀ entries mem action, act entries mem = .ok action → action = .drop

theorem Drops.of_error {act : List ArpEntry → Memory → Except Fault Action} (fault : Fault)
    (fails : ∀ entries mem, act entries mem = .error fault) : Drops act := by
  intro entries mem action ok
  rw [fails] at ok
  cases ok

theorem Drops.of_drop {act : List ArpEntry → Memory → Except Fault Action}
    (drops : ∀ entries mem, act entries mem = .ok .drop) : Drops act := by
  intro entries mem action ok
  rw [drops] at ok
  cases ok
  rfl

theorem srSendError_cases (sr : Instance) (packet : Bytes) (interface : IfName)
    (type code : UInt8) :
    (∃ rt out f, Passes sr
      (fun entries mem => srSendError sr entries mem packet interface type code) rt out f) ∨
      Drops fun entries mem => srSendError sr entries mem packet interface type code := by
  by_cases header : packet.length < 30
  · refine .inr (Drops.of_error .outOfBounds fun entries mem => ?_)
    rw [srSendError, read_error (by omega), error_bind]
  have source : 30 ≤ packet.length := by omega
  cases hop : nextHop sr (srcOf packet) with
  | none => exact .inr (Drops.of_drop fun entries mem => srSendError_noHop source hop)
  | some pair =>
      obtain ⟨rt, out⟩ := pair
      cases here : srGetInterface sr interface with
      | none =>
          exact .inr (Drops.of_error _ fun entries mem => srSendError_noInterface hop source here)
      | some iface =>
          by_cases short : packet.length < 42
          · exact .inr (Drops.of_error _ fun entries mem => srSendError_short source short hop here)
          · exact .inl ⟨rt, out, _, srSendError_passes (by omega) hop here⟩

/-- Packets for others are passed on. -/
theorem srForwardPacket_cases (interface : IfName) (long : 34 ≤ packet.length)
    (type : field packet 12 2 = pairBytes ethertypeIp) :
    (∃ rt out f, Passes sr (fun entries mem => srForwardPacket sr entries mem packet interface) rt
      out f) ∨ Drops fun entries mem => srForwardPacket sr entries mem packet interface := by
  simp only [srForwardPacket_eq long]
  split_ifs with expired
  · exact srSendError_cases sr _ interface 11 0
  cases route : srGetLongestPrefixMatch sr (dstOf packet) with
  | none => exact srSendError_cases sr _ interface 3 0
  | some rt =>
      simp only
      cases leads : srGetInterface sr rt.interface with
      | none => exact .inr (Drops.of_drop fun _ _ => rfl)
      | some out =>
          have size := length_forwarded long
          refine .inl ⟨rt, out, forwarded packet, ?_⟩
          constructor
          case long => omega
          case type => rw [field_forwarded long (by omega), type]
          case route => rw [dstOf_forwarded long, route]
          case leads => exact leads
          case hit =>
            intro entries mem mac known
            simp only [known, put_source_destination (show 12 ≤ (forwarded packet).length by omega)]
          case miss =>
            intro entries mem unknown
            simp only [unknown]
            exact ⟨_, .refl _, rfl⟩

/-- Replies to echo requests are passed on. -/
theorem srHandleIcmpPacket_cases (sr : Instance)
    (type : field packet 12 2 = pairBytes ethertypeIp) :
    (∃ rt out f, Passes sr (fun entries _ => srHandleIcmpPacket sr entries packet) rt out f) ∨
      Drops fun entries _ => srHandleIcmpPacket sr entries packet := by
  by_cases empty : packet.length < 35
  · exact .inr (Drops.of_error _ fun _ _ => srHandleIcmpPacket_empty empty)
  by_cases echo : field packet 34 1 = [8]
  · by_cases short : packet.length < 38
    · exact .inr (Drops.of_error _ fun _ _ => srHandleIcmpPacket_short (by omega) short echo)
    have long : 38 ≤ packet.length := by omega
    obtain ⟨-, size, type', -, dst⟩ := srHandleIcmpEchoRequest_ok long
    simp only [srHandleIcmpPacket_eq long, if_pos echo]
    cases route : srGetLongestPrefixMatch sr (srcOf packet) with
    | none => exact .inr (Drops.of_drop fun _ _ => rfl)
    | some rt =>
        simp only
        cases leads : srGetInterface sr rt.interface with
        | none => exact .inr (Drops.of_drop fun _ _ => rfl)
        | some out =>
            refine .inl ⟨rt, out, echoReply packet, ?_⟩
            constructor
            case long => omega
            case type => rw [type', type]
            case route => rw [dst, route]
            case leads => exact leads
            case hit =>
              intro entries mem mac known
              simp only [known,
                put_source_destination (show 12 ≤ (echoReply packet).length by omega)]
            case miss =>
              intro entries mem unknown
              simp only [unknown]
              exact ⟨_, .refl _, rfl⟩
  · exact .inr (Drops.of_drop fun _ _ => srHandleIcmpPacket_other (by omega) echo)

theorem srHandleIpPacket_cases (sr : Instance) (interface : IfName)
    (type : field packet 12 2 = pairBytes ethertypeIp) :
    (∃ rt out f, Passes sr (fun entries mem => srHandleIpPacket sr entries mem packet interface) rt
      out f) ∨ Drops fun entries mem => srHandleIpPacket sr entries mem packet interface := by
  by_cases short : packet.length < 34
  · exact .inr (Drops.of_drop fun _ _ => srHandleIpPacket_short short)
  have long : 34 ≤ packet.length := by omega
  simp only [srHandleIpPacket_eq long]
  split_ifs with good us icmp
  · exact srHandleIcmpPacket_cases sr type
  · exact srSendError_cases sr packet interface 3 3
  · exact srForwardPacket_cases interface long type
  · exact .inr (Drops.of_drop fun _ _ => rfl)

end

/-! ## Decisions of a run -/

/-- A handler that may send or queue a packet, with the packet. -/
inductive Decision
  | received (frame : Bytes) (interface : IfName)
  | refused (frame : Bytes) (interface : IfName)

def Decision.action (sr : Instance) : Decision → List ArpEntry → Memory → Except Fault Action
  | .received frame interface, entries, mem => srHandlepacketAction sr entries mem frame interface
  | .refused frame interface, entries, mem =>
      srSendIcmpHostUnreachable sr entries mem frame interface

/-- The decisions that a run may take: about the frames it receives, and about packets it has
queued. -/
inductive Made (sr : Instance) (events : List Event) : Decision → Prop
  | received {frame : Bytes} {interface : IfName} :
    .packet frame interface ∈ events → Made sr events (.received frame interface)
  | refused {d : Decision} {entries : List ArpEntry} {mem : Memory} {ip : Ip} {copy : Bytes}
      {name : IfName} :
    Made sr events d → d.action sr entries mem = .ok (.queue ip copy name) →
      Made sr events (.refused copy name)

/-- An ARP reply for the address of the interface it came in on. -/
structure AcceptedReply (sr : Instance) (frame : Bytes) (interface : IfName) (mac : Mac) (ip : Ip) :
    Prop where
  long : 42 ≤ frame.length
  type : field frame 12 2 = pairBytes ethertypeArp
  op : field frame 20 2 = [0, 2]
  own : ∃ iface, srGetInterface sr interface = some iface ∧ ipOf (field frame 38 4) = iface.ip
  sha : macOf (field frame 22 6) = mac
  sip : ipOf (field frame 28 4) = ip

/-- The run has been told the address of a host. -/
def Accepted (sr : Instance) (events : List Event) (mac : Mac) (ip : Ip) : Prop :=
  ∃ frame interface, .packet frame interface ∈ events ∧
    AcceptedReply sr frame interface mac ip

/-- The frame goes where the route of its destination leads, and is what the decision it
comes from sends when the next hop is in the cache. -/
def Routed (sr : Instance) (events : List Event) (e : Emission) : Prop :=
  ∃ rt out mac d,
    srGetLongestPrefixMatch sr (dstOf e.frame) = some rt ∧
    srGetInterface sr rt.interface = some out ∧ e.iface = rt.interface ∧
    field e.frame 6 6 = macBytes out.addr ∧ field e.frame 0 6 = macBytes mac ∧
    Accepted sr events mac rt.gw ∧ Made sr events d ∧
    ∀ entries mem, srArpcacheLookup entries rt.gw = some mac →
      d.action sr entries mem = .ok (.send e.frame e.iface)

/-- A packet that waits for an address. -/
def Waiting (sr : Instance) (events : List Event) (ip : Ip) (p : Packet) : Prop :=
  ∃ d entries mem, Made sr events d ∧ d.action sr entries mem = .ok (.queue ip p.buf p.iface)

/-- The source-address check and, for IPv4, the route. -/
def Sound (sr : Instance) (events : List Event) (e : Emission) : Prop :=
  srEtherAddrsMatchInterface sr e.frame e.iface = true ∧
    (field e.frame 12 2 = pairBytes ethertypeIp → Routed sr events e)

/-- What a run may do next. -/
def Due (sr : Instance) (events : List Event) : Action → Prop
  | .drop => True
  | .send frame iface => Sound sr events ⟨frame, iface⟩
  | .queue ip frame iface => Waiting sr events ip ⟨frame, iface⟩
  | .learn mac ip => Accepted sr events mac ip

section

variable {sr : Instance} {events : List Event} {d : Decision} {rt : Route} {out : Interface}
  {f : Bytes} {entries : List ArpEntry} {mem : Memory}

theorem Passes.found (passes : Passes sr (d.action sr) rt out f) :
    srGetInterface sr out.name = some out := by
  rw [srGetInterface_name passes.leads, passes.leads]

/-- A packet that is passed on is routed. -/
theorem Passes.sound (passes : Passes sr (d.action sr) rt out f) {mac : Mac}
    (made : Made sr events d) (accepted : Accepted sr events mac rt.gw) :
    Sound sr events ⟨addressed f mac out.addr, out.name⟩ := by
  refine ⟨?_, fun _ => ⟨rt, out, mac, d, ?_, passes.leads, srGetInterface_name passes.leads,
    rfl, rfl,
    accepted, made, fun entries mem known => passes.hit entries mem mac known⟩⟩
  · simp only [srEtherAddrsMatchInterface, passes.found]
    exact beq_self_eq_true _
  · show srGetLongestPrefixMatch sr (ipOf (field (addressed f mac out.addr) 30 4)) = some rt
    rw [field_addressed (by omega)]
    exact passes.route

/-- What is queued is what is passed on. -/
theorem Passes.of_queue (passes : Passes sr (d.action sr) rt out f) {ip : Ip} {copy : Bytes}
    {name : IfName} (queued : d.action sr entries mem = .ok (.queue ip copy name)) :
    ip = rt.gw ∧ name = out.name ∧ SameBehind copy f := by
  cases known : srArpcacheLookup entries rt.gw with
  | some mac =>
      rw [passes.hit entries mem mac known] at queued
      cases queued
  | none =>
      obtain ⟨g, same, queues⟩ := passes.miss entries mem known
      rw [queues] at queued
      cases queued
      exact ⟨rfl, rfl, same⟩

theorem Passes.of_send (passes : Passes sr (d.action sr) rt out f) {frame : Bytes} {name : IfName}
    (sent : d.action sr entries mem = .ok (.send frame name)) :
    ∃ mac, srArpcacheLookup entries rt.gw = some mac ∧ frame = addressed f mac out.addr ∧
      name = out.name := by
  cases known : srArpcacheLookup entries rt.gw with
  | some mac =>
      rw [passes.hit entries mem mac known] at sent
      cases sent
      exact ⟨mac, rfl, rfl, rfl⟩
  | none =>
      obtain ⟨g, -, queues⟩ := passes.miss entries mem known
      rw [queues] at sent
      cases sent

theorem Passes.not_learn (passes : Passes sr (d.action sr) rt out f) {mac : Mac} {ip : Ip} :
    d.action sr entries mem ≠ .ok (.learn mac ip) := by
  intro learns
  cases known : srArpcacheLookup entries rt.gw with
  | some mac =>
      rw [passes.hit entries mem mac known] at learns
      cases learns
  | none =>
      obtain ⟨g, -, queues⟩ := passes.miss entries mem known
      rw [queues] at learns
      cases learns

/-- The ways of an ARP packet. -/
theorem srHandleArpPacket_cases {frame : Bytes} {interface : IfName} {action : Action}
    (type : field frame 12 2 = pairBytes ethertypeArp)
    (ok : srHandleArpPacket sr mem frame interface = .ok action) :
    action = .drop ∨
      (∃ iface, srGetInterface sr interface = some iface ∧
        action = .send (arpReply mem frame iface) interface) ∨
      ∃ mac ip, AcceptedReply sr frame interface mac ip ∧ action = .learn mac ip := by
  by_cases short : frame.length < 42
  · rw [srHandleArpPacket_short short] at ok
    cases ok
    exact .inl rfl
  cases here : srGetInterface sr interface with
  | none =>
      rw [srHandleArpPacket, if_neg short, here] at ok
      cases ok
      exact .inl rfl
  | some iface =>
      rw [srHandleArpPacket_eq (by omega) here] at ok
      split_ifs at ok with request own reply own
      · cases ok
        exact .inr (.inl ⟨iface, rfl, rfl⟩)
      · cases ok
        exact .inl rfl
      · cases ok
        exact .inr (.inr ⟨_, _, ⟨by omega, type, reply, ⟨iface, here, own⟩, rfl, rfl⟩, rfl⟩)
      · cases ok
        exact .inl rfl
      · cases ok
        exact .inl rfl

/-- A decision is about a packet that is passed on, about an ARP packet, or drops. -/
theorem Decision.cases (sr : Instance) (d : Decision) :
    (∃ rt out f, Passes sr (d.action sr) rt out f) ∨ Drops (d.action sr) ∨
      ∃ frame interface, d = .received frame interface ∧
        field frame 12 2 = pairBytes ethertypeArp ∧
        ∀ entries mem, d.action sr entries mem = srHandleArpPacket sr mem frame interface := by
  cases d with
  | refused frame interface =>
      rcases srSendError_cases sr frame interface 3 1 with passes | drops
      · exact .inl passes
      · exact .inr (.inl drops)
  | received frame interface =>
      by_cases short : frame.length < 14
      · refine .inr (.inl (Drops.of_error .outOfBounds fun entries mem => ?_))
        rw [Decision.action, srHandlepacketAction, read_error (by omega), error_bind]
      have eq : ∀ entries mem, Decision.action sr (.received frame interface) entries mem = _ :=
        fun entries mem => srHandlepacketAction_eq (by omega)
      by_cases arp : field frame 12 2 = pairBytes ethertypeArp
      · refine .inr (.inr ⟨frame, interface, rfl, arp, fun entries mem => ?_⟩)
        rw [eq, if_pos arp]
      by_cases ip : field frame 12 2 = pairBytes ethertypeIp
      · have same : Decision.action sr (.received frame interface) =
            fun entries mem => srHandleIpPacket sr entries mem frame interface := by
          funext entries mem
          rw [eq, if_neg arp, if_pos ip]
        rw [same]
        rcases srHandleIpPacket_cases sr interface ip with passes | drops
        · exact .inl passes
        · exact .inr (.inl drops)
      · refine .inr (.inl (Drops.of_drop fun entries mem => ?_))
        rw [eq, if_neg arp, if_neg ip]

end

/-- What is queued is passed on. -/
theorem passes_of_queue {sr : Instance} {d : Decision} {entries : List ArpEntry} {mem : Memory}
    {ip : Ip} {copy : Bytes} {name : IfName}
    (queued : d.action sr entries mem = .ok (.queue ip copy name)) :
    ∃ rt out f, Passes sr (d.action sr) rt out f := by
  rcases Decision.cases sr d with passes | drops | ⟨frame, interface, rfl, type, arp⟩
  · exact passes
  · cases drops _ _ _ queued
  · rw [arp] at queued
    rcases srHandleArpPacket_cases type queued with same | ⟨iface, here, same⟩ | ⟨mac, ip, -, same⟩
    · cases same
    · cases same
    · cases same

/-! ## The invariant -/

structure Inv (sr : Instance) (events : List Event) (s : State) : Prop where
  apart : s.Apart
  entries : ∀ e ∈ s.entries, e.valid = true → Accepted sr events e.mac e.ip
  requests : ∀ r ∈ s.requests, ∀ p ∈ r.packets, Waiting sr events r.ip p
  log : ∀ e ∈ s.log, Sound sr events e

theorem inv_init (sr : Instance) (events : List Event) : Inv sr events State.init where
  apart := ⟨List.nodup_nil, fun r member => by cases member⟩
  entries := by
    intro e member valid
    rw [List.eq_of_mem_replicate member] at valid
    cases valid
  requests := by
    intro r member
    cases member
  log := by
    intro e member
    cases member

section

variable {sr : Instance} {events : List Event}

/-- The frames of ARP carry the address of their interface. -/
theorem sound_of_arp {frame rest : Bytes} {dhost : Mac} {iface : Interface} {name : IfName}
    (here : srGetInterface sr name = some iface)
    (arp : frame = (EthernetHdr.mk dhost iface.addr ethertypeArp).bytes ++ rest) :
    Sound sr events ⟨frame, name⟩ := by
  subst arp
  constructor
  · simp only [srEtherAddrsMatchInterface, here]
    exact beq_self_eq_true _
  · intro ip
    have differ : pairBytes ethertypeArp ≠ pairBytes ethertypeIp := by decide
    exact absurd ip differ

/-- What the handlers decide is in order. -/
theorem due_of_made {d : Decision} {s : State} {mem : Memory} {action : Action}
    (made : Made sr events d) (inv : Inv sr events s)
    (ok : d.action sr s.entries mem = .ok action) : Due sr events action := by
  rcases Decision.cases sr d with ⟨rt, out, f, passes⟩ | drops | ⟨frame, interface, rfl, type, arp⟩
  · cases action with
    | drop => exact trivial
    | send frame name =>
        obtain ⟨mac, known, rfl, rfl⟩ := passes.of_send ok
        obtain ⟨e, member, valid, ip, rfl⟩ := srArpcacheLookup_mem known
        have accepted := inv.entries e member valid
        rw [ip] at accepted
        exact passes.sound made accepted
    | queue ip copy name => exact ⟨d, s.entries, mem, made, ok⟩
    | learn mac ip => exact absurd ok passes.not_learn
  · rw [drops _ _ _ ok]
    exact trivial
  · rw [arp] at ok
    rcases srHandleArpPacket_cases type ok with rfl | ⟨iface, here, rfl⟩ | ⟨mac, ip, reply, rfl⟩
    · exact trivial
    · exact sound_of_arp here (List.append_assoc _ _ _)
    · cases made with
      | received member => exact ⟨frame, interface, member, reply⟩

/-- A packet that waits is passed on by the decision to queue it. -/
theorem Waiting.passes {ip : Ip} {p : Packet} (waiting : Waiting sr events ip p) :
    ∃ d rt out f, Made sr events d ∧ Passes sr (d.action sr) rt out f ∧ ip = rt.gw ∧
      p.iface = out.name ∧ SameBehind p.buf f := by
  obtain ⟨d, entries, mem, made, queued⟩ := waiting
  obtain ⟨rt, out, f, passes⟩ := passes_of_queue queued
  exact ⟨d, rt, out, f, made, passes, passes.of_queue queued⟩

/-- The frame that goes out for a packet that waited. -/
theorem flushPacket_ok {p : Packet} {f : Bytes} {out : Interface} (same : SameBehind p.buf f)
    (long : 12 ≤ f.length) (here : srGetInterface sr p.iface = some out) (mac : Mac) (s : State) :
    flushPacket sr mac p s =
      .ok () { s with log := s.log ++ [⟨addressed f mac out.addr, p.iface⟩] } := by
  have size : p.buf.length = f.length := same.length
  have first : write p.buf 0 (macBytes mac) = .ok (put p.buf 0 (macBytes mac)) :=
    write_ok (by simp [macBytes]; omega)
  have second : write (put p.buf 0 (macBytes mac)) 6 (macBytes out.addr) =
      .ok (addressed f mac out.addr) := by
    rw [write_ok (by rw [length_put (by simp [macBytes]; omega)]; simp [macBytes]; omega),
      put_destination_source same]
  rw [flushPacket, first, here]
  show ((ofExcept (write (put p.buf 0 (macBytes mac)) 6 (macBytes out.addr))) >>= _) s = _
  rw [second]
  rfl

/-! ## Every command keeps the invariant -/

theorem malloc_keeps (junk : Nat → Memory) :
    Triple (Inv sr events) (malloc junk) fun _ => Inv sr events := by
  intro s mem t inv returns
  cases returns
  exact { inv with apart := ⟨inv.apart.nodup, inv.apart.fresh⟩ }

theorem get_keeps :
    Triple (Inv sr events) (get : Cmd State) fun s t => Inv sr events s ∧ Inv sr events t := by
  intro s a t inv returns
  cases returns
  exact ⟨inv, inv⟩

theorem srSendPacket_keeps {frame : Bytes} {iface : IfName}
    (sound : Sound sr events ⟨frame, iface⟩) :
    Triple (Inv sr events) (srSendPacket frame iface) fun _ => Inv sr events := by
  intro s a t inv returns
  cases returns
  refine { inv with apart := ⟨inv.apart.nodup, inv.apart.fresh⟩, log := ?_ }
  intro e member
  rcases List.mem_append.mp member with old | new
  · exact inv.log e old
  · rw [List.mem_singleton.mp new]
    exact sound

theorem deref_keeps (id : Nat) :
    Triple (Inv sr events) (deref id) fun req s =>
      (∀ p ∈ req.packets, Waiting sr events req.ip p) ∧ Inv sr events s := by
  intro s req t inv returns
  rw [deref] at returns
  cases found : s.requests.find? fun req => req.id == id with
  | none =>
      rw [found] at returns
      cases returns
  | some req' =>
      rw [found] at returns
      cases returns
      exact ⟨inv.requests req (List.mem_of_find?_eq_some found), inv⟩

/-- A change of a request that adds no other packets. -/
theorem Inv.update {s : State} (inv : Inv sr events s) (id : Nat) {change : ArpReq → ArpReq}
    (same : ∀ r, (change r).id = r.id)
    (keeps : ∀ r ∈ s.requests, r.id = id → ∀ p ∈ (change r).packets,
      Waiting sr events (change r).ip p) : Inv sr events (s.update id change) := by
  refine { inv with apart := inv.apart.update id same, requests := ?_ }
  intro r member
  obtain ⟨r', member', rfl⟩ := List.mem_map.mp member
  split_ifs with this
  · exact keeps r' member' this
  · exact inv.requests r' member'

theorem waiting_addPacket {frame : Bytes} {iface : IfName} {r : ArpReq}
    (old : ∀ p ∈ r.packets, Waiting sr events r.ip p)
    (new : Waiting sr events r.ip ⟨frame, iface⟩) :
    ∀ p ∈ (r.addPacket frame iface).packets, Waiting sr events (r.addPacket frame iface).ip p := by
  intro p
  rw [ArpReq.addPacket]
  split_ifs
  · exact old p
  · intro member
    rcases List.mem_cons.mp member with rfl | member
    · exact new
    · exact old p member

theorem srArpcacheQueuereq_keeps {ip : Ip} {frame : Bytes} {iface : IfName}
    (waiting : Waiting sr events ip ⟨frame, iface⟩) :
    Triple (Inv sr events) (srArpcacheQueuereq ip frame iface) fun _ => Inv sr events := by
  intro s id t inv returns
  have apart := inv.apart.queue returns
  rw [srArpcacheQueuereq] at returns
  cases found : s.requests.find? fun req => req.ip == ip with
  | none =>
      rw [found] at returns
      cases returns
      refine { inv with apart := apart, requests := ?_ }
      intro r member
      rcases List.mem_cons.mp member with rfl | member
      · exact waiting_addPacket (fun p member => by cases member) waiting
      · exact inv.requests r member
  | some req =>
      rw [found] at returns
      cases returns
      have for_ip : req.ip = ip := by simpa using List.find?_some found
      apply inv.update req.id (ArpReq.addPacket_id frame iface)
      intro r member same
      have this := inv.apart.eq member (List.mem_of_find?_eq_some found) same
      subst this
      rw [← for_ip] at waiting
      exact waiting_addPacket (inv.requests r member) waiting

theorem mem_insertEntry {new e : ArpEntry} {entries : List ArpEntry}
    (member : e ∈ insertEntry new entries) : e = new ∨ e ∈ entries := by
  induction entries with
  | nil => cases member
  | cons d entries ih =>
      rw [insertEntry] at member
      split_ifs at member
      · rcases List.mem_cons.mp member with rfl | member
        · exact .inr List.mem_cons_self
        · exact (ih member).imp_right (List.mem_cons_of_mem d)
      · exact (List.mem_cons.mp member).imp_right (List.mem_cons_of_mem d)

theorem srArpcacheInsert_keeps (now : Int) {mac : Mac} {ip : Ip}
    (accepted : Accepted sr events mac ip) :
    Triple (Inv sr events) (srArpcacheInsert now mac ip) fun found s =>
      (∀ r, found = some r → ∀ p ∈ r.packets, Waiting sr events ip p) ∧ Inv sr events s := by
  intro s found t inv returns
  cases returns
  constructor
  · intro r taken
    have for_ip : r.ip = ip := by simpa using List.find?_some taken
    rw [← for_ip]
    exact inv.requests r (List.mem_of_find?_eq_some taken)
  · constructor
    case apart => exact inv.apart.sublist List.eraseP_sublist rfl
    case entries =>
      intro e member valid
      rcases mem_insertEntry member with rfl | old
      · exact accepted
      · exact inv.entries e old valid
    case requests => exact fun r member => inv.requests r (List.mem_of_mem_eraseP member)
    case log => exact inv.log

theorem srArpreqDestroy_keeps (id : Nat) :
    Triple (Inv sr events) (srArpreqDestroy id) fun _ => Inv sr events := by
  refine Triple.bind (deref_keeps id) fun req => Triple.assume fun _ => ?_
  intro s a t inv returns
  cases returns
  exact { inv with
    apart := inv.apart.sublist List.filter_sublist rfl
    requests := fun r member => inv.requests r (List.mem_of_mem_filter member) }

theorem ofExcept_keeps {α : Type} {r : Except Fault α} {p : α → Prop}
    (holds : ∀ a, r = .ok a → p a) :
    Triple (Inv sr events) (ofExcept r) fun a s => p a ∧ Inv sr events s := by
  cases r with
  | ok a =>
      intro s b t inv returns
      cases returns
      exact ⟨holds a rfl, inv⟩
  | error e => exact Triple.throw e

/-- A packet that waited goes out in order. -/
theorem flushPacket_keeps {mac : Mac} {ip : Ip} {p : Packet} (accepted : Accepted sr events mac ip)
    (waiting : Waiting sr events ip p) :
    Triple (Inv sr events) (flushPacket sr mac p) fun _ => Inv sr events := by
  obtain ⟨d, rt, out, f, made, passes, rfl, name, same⟩ := waiting.passes
  have here : srGetInterface sr p.iface = some out := by rw [name, passes.found]
  intro s a t inv returns
  have long := passes.long
  rw [flushPacket_ok same (by omega) here mac s, name] at returns
  exact srSendPacket_keeps (passes.sound made accepted) s a t inv returns

variable {junk : Nat → Memory} {clock : Nat → Int}

theorem time_keeps : Triple (Inv sr events) (time clock) fun _ => Inv sr events := by
  intro s now t inv returns
  cases returns
  exact { inv with apart := ⟨inv.apart.nodup, inv.apart.fresh⟩ }

theorem perform_keeps {attend : Nat → Cmd Unit}
    (attends : ∀ id, Triple (Inv sr events) (attend id) fun _ => Inv sr events) {action : Action}
    (due : Due sr events action) :
    Triple (Inv sr events) (perform sr clock attend action) fun _ => Inv sr events := by
  cases action with
  | drop => exact Triple.pure (Q := fun _ => Inv sr events) ()
  | send frame iface => exact srSendPacket_keeps due
  | queue ip frame iface => exact Triple.bind (srArpcacheQueuereq_keeps due) attends
  | learn mac ip =>
      refine Triple.bind time_keeps fun now => Triple.bind (srArpcacheInsert_keeps now due)
        fun found => Triple.assume fun waiting => ?_
      cases found with
      | none => exact Triple.pure (Q := fun _ => Inv sr events) ()
      | some req =>
          exact Triple.forM fun p member => flushPacket_keeps due (waiting req rfl p member)

theorem refusePacket_keeps {attend : Nat → Cmd Unit}
    (attends : ∀ id, Triple (Inv sr events) (attend id) fun _ => Inv sr events) (id : Nat) {ip : Ip}
    {p : Packet} (waiting : Waiting sr events ip p) :
    Triple (Inv sr events) (refusePacket sr junk clock attend id p) fun _ => Inv sr events := by
  obtain ⟨d, entries, mem, made, queued⟩ := waiting
  have refused : Made sr events (.refused p.buf p.iface) := .refused made queued
  refine Triple.bind (deref_keeps id) fun req => Triple.assume fun _ => ?_
  refine Triple.bind (malloc_keeps junk) fun mem => ?_
  refine Triple.bind get_keeps fun s => Triple.assume fun inv => ?_
  refine Triple.bind (ofExcept_keeps fun action ok => due_of_made refused inv ok) fun action => ?_
  exact Triple.assume fun due => perform_keeps attends due

theorem resend_keeps {now : Int} {req : ArpReq} :
    Triple (Inv sr events) (resend sr junk now req) fun _ => Inv sr events := by
  refine Triple.bind (ofExcept_keeps (p := fun _ => True) fun _ _ => trivial) fun pkt =>
    Triple.assume fun _ => ?_
  refine Triple.bind (ofExcept_keeps
    (p := fun iface => srGetInterface sr pkt.iface = some iface) ?_)
    fun iface => Triple.assume fun found => ?_
  · intro iface ok
    cases found : srGetInterface sr pkt.iface with
    | none =>
        rw [found] at ok
        cases ok
    | some iface' =>
        rw [found] at ok
        cases ok
        rfl
  have here : srGetInterface sr iface.name = some iface := by rw [srGetInterface_name found, found]
  refine Triple.bind (Triple.bind (malloc_keeps junk) fun mem =>
    srSendPacket_keeps (sound_of_arp here rfl)) fun _ => ?_
  intro s a t inv returns
  cases returns
  exact inv.update _ (fun r => rfl) fun r member _ => inv.requests r member

theorem handleArpreq_keeps (fuel : Nat) :
    ∀ id, Triple (Inv sr events) (handleArpreq sr junk clock fuel id) fun _ => Inv sr events := by
  induction fuel with
  | zero => exact fun id => Triple.throw _
  | succ fuel ih =>
      intro id
      rw [handleArpreq]
      refine Triple.bind time_keeps fun now => ?_
      refine Triple.bind (deref_keeps id) fun req => Triple.assume fun waiting => ?_
      split_ifs
      · refine Triple.bind (Triple.forM fun p member => ?_) fun _ => srArpreqDestroy_keeps id
        exact refusePacket_keeps ih id (waiting p member)
      · exact resend_keeps
      · exact Triple.pure (Q := fun _ => Inv sr events) ()

theorem sweepLoop_keeps {attend : Nat → Cmd Unit}
    (attends : ∀ id, Triple (Inv sr events) (attend id) fun _ => Inv sr events) (turns : Nat) :
    ∀ next, Triple (Inv sr events) (sweepLoop attend turns next) fun _ => Inv sr events := by
  induction turns with
  | zero =>
      intro next
      cases next with
      | none => exact Triple.pure (Q := fun _ => Inv sr events) ()
      | some id => exact Triple.throw _
  | succ turns ih =>
      intro next
      cases next with
      | none => exact Triple.pure (Q := fun _ => Inv sr events) ()
      | some id =>
          refine Triple.bind (deref_keeps id) fun req => Triple.assume fun _ => ?_
          refine Triple.bind get_keeps fun s => Triple.assume fun _ => ?_
          exact Triple.bind (attends id) fun _ => ih _

theorem exec_keeps {fuel : Nat} {e : Event} (member : e ∈ events) :
    Triple (Inv sr events) (e.exec sr junk clock fuel) fun _ => Inv sr events := by
  cases e with
  | packet frame interface =>
      have made : Made sr events (.received frame interface) := .received member
      refine Triple.bind (malloc_keeps junk) fun mem => ?_
      refine Triple.bind get_keeps fun s => Triple.assume fun inv => ?_
      refine Triple.bind (ofExcept_keeps fun action ok => due_of_made made inv ok) fun action => ?_
      exact Triple.assume fun due => perform_keeps (handleArpreq_keeps fuel) due
  | timeout =>
      refine Triple.bind time_keeps fun curtime => ?_
      refine Triple.bind (Q := fun _ => Inv sr events) ?_ fun _ =>
        Triple.bind get_keeps fun s => Triple.assume fun _ =>
          sweepLoop_keeps (handleArpreq_keeps fuel) _ _
      intro s a t inv returns
      cases returns
      refine { inv with apart := ⟨inv.apart.nodup, inv.apart.fresh⟩, entries := ?_ }
      intro e member valid
      obtain ⟨e', member', rfl⟩ := List.mem_map.mp member
      split_ifs at valid ⊢ with old
      exact inv.entries e' member' valid

theorem run_keeps (fuel : Nat) :
    Triple (Inv sr events) (run sr junk clock fuel events) fun _ => Inv sr events :=
  Triple.forM fun _ => exec_keeps

end

/-- A packet that a decision queues goes out, when an ARP reply brings an address, as the
frame that the decision would have sent with that address in the cache. -/
def SentAsQueued (sr : Instance) (d : Decision) : Prop :=
  ∀ entries mem ip copy name, d.action sr entries mem = .ok (.queue ip copy name) →
    ∀ mac entries' mem' s, srArpcacheLookup entries' ip = some mac →
      ∃ frame, d.action sr entries' mem' = .ok (.send frame name) ∧
        flushPacket sr mac ⟨copy, name⟩ s = .ok () { s with log := s.log ++ [⟨frame, name⟩] }

theorem sentAsQueued (sr : Instance) (d : Decision) : SentAsQueued sr d := by
  intro entries mem ip copy name queued mac entries' mem' s known
  obtain ⟨rt, out, f, passes⟩ := passes_of_queue queued
  obtain ⟨rfl, rfl, same⟩ := passes.of_queue queued
  have long := passes.long
  exact ⟨_, passes.hit entries' mem' mac known, flushPacket_ok same (by omega) passes.found mac s⟩

/-- Every frame of a run passes the source-address check, every IPv4 frame goes where the route
of its destination leads, and waiting in the queue makes no difference. -/
theorem emitted_frames_routed (sr : Instance) (junk : Nat → Memory) (clock : Nat → Int)
    (fuel : Nat) (events : List Event) (t : State)
    (returns : run sr junk clock fuel events State.init = .ok () t) :
    (∀ e ∈ t.log, srEtherAddrsMatchInterface sr e.frame e.iface = true) ∧
      (∀ e ∈ t.log, field e.frame 12 2 = pairBytes ethertypeIp → Routed sr events e) ∧
      ∀ d, Made sr events d → SentAsQueued sr d := by
  have inv : Inv sr events t := run_keeps fuel _ _ t (inv_init sr events) returns
  refine ⟨?_, ?_, ?_⟩
  · exact fun e member => (inv.log e member).1
  · exact fun e member => (inv.log e member).2
  · exact fun d _ => sentAsQueued sr d

/-- An echo request from 10.0.0.2, and the ARP reply that the answer waits for. -/
def pingAndReply : List Event :=
  [.packet [2, 0, 0, 0, 0, 1, 2, 0, 0, 0, 0, 2, 8, 0,
      0x45, 0, 0, 28, 0, 0, 0, 0, 64, 1, 0x66, 0xdf, 10, 0, 0, 2, 10, 0, 0, 1,
      8, 0, 0xf7, 0xff, 0, 0, 0, 0] [101, 49],
    .packet [2, 0, 0, 0, 0, 1, 2, 0, 0, 0, 0, 2, 8, 6,
      0, 1, 8, 0, 6, 4, 0, 2, 2, 0, 0, 0, 0, 2, 10, 0, 0, 2, 2, 0, 0, 0, 0, 1, 10, 0, 0, 1]
      [101, 49]]

/-- The state a run ends in, if it returns. -/
def returned : EStateM.Result Fault State Unit → Option State
  | .ok _ s => some s
  | .error _ _ => none

theorem eq_ok_of_returned {r : EStateM.Result Fault State Unit} {t : State}
    (ok : returned r = some t) : r = .ok () t := by
  cases r with
  | ok a s => exact congrArg (EStateM.Result.ok ()) (Option.some.inj ok)
  | error e s => cases ok

/-- An ARP request goes out first, and the answer when the reply comes. -/
theorem pingAndReply_routed :
    ∃ t, run oneInterface (fun _ _ => 0) (fun n => 2 * n + 2) 1 pingAndReply State.init = .ok () t ∧
      t.log.map (fun e => field e.frame 12 2) = [pairBytes ethertypeArp, pairBytes ethertypeIp] ∧
      ∀ e ∈ t.log, field e.frame 12 2 = pairBytes ethertypeIp →
        Routed oneInterface pingAndReply e := by
  have returns : (returned (run oneInterface (fun _ _ => 0) (fun n => 2 * n + 2) 1 pingAndReply
      State.init)).map (fun t => t.log.map fun e => field e.frame 12 2) =
        some [pairBytes ethertypeArp, pairBytes ethertypeIp] := by
    decide +kernel
  obtain ⟨t, same, types⟩ := Option.map_eq_some_iff.mp returns
  have ok := eq_ok_of_returned same
  exact ⟨t, ok, types, (emitted_frames_routed oneInterface _ _ 1 pingAndReply t ok).2.1⟩

end CompNet.Router
