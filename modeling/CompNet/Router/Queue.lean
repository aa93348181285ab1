import CompNet.Router.Emission
import CompNet.Router.Requests

/-!
# The packets that wait for ARP

An abstract queue holds, for each address, the packets that came since the last
reply for it.  `Holds` says that the linked lists of requests and packets hold the
same, and every step of a run keeps it: a packet is put under its address, an ARP
reply sends what waits for its address, and a retransmission changes no packet.
-/

namespace CompNet.Router

open CompNet.Lib

/-! ## The abstract queue -/

/-- What waits for each address, the latest first. -/
abbrev Pending := Ip → List Packet

/-- The address that an ARP packet brings, if `sr_handle_arp_packet` accepts it as a reply. -/
def acceptedReply (sr : Instance) (frame : Bytes) (interface : IfName) : Option (Mac × Ip) := do
  let iface ← srGetInterface sr interface
  if 42 ≤ frame.length ∧ field frame 20 2 = [0, 2] ∧ ipOf (field frame 38 4) = iface.ip then
    some (macOf (field frame 22 6), ipOf (field frame 28 4))
  else none

/-- The steps of a run: a call of `sr_arpcache_queuereq`, an ARP packet, and a call of
`handle_arpreq`.  A step reads the clock once at most, and has what it reads with it. -/
inductive ArpStep
  | queue (ip : Ip) (frame : Bytes) (iface : IfName)
  | arp (now : Int) (frame : Bytes) (interface : IfName)
  | retransmit (now : Int) (id : Nat)

def ArpStep.exec (sr : Instance) (junk : Nat → Memory) : ArpStep → Cmd Unit
  | .queue ip frame iface => do
      let _ ← srArpcacheQueuereq ip frame iface
  | .arp now frame interface => do
      let mem ← malloc junk
      let action ← ofExcept (srHandleArpPacket sr mem frame interface)
      perform sr (fun _ => now) (handleArpreq sr junk (fun _ => now) 1) action
  | .retransmit now id => handleArpreq sr junk (fun _ => now) 1 id

/-- The step on the abstract queue. -/
def ArpStep.pending (sr : Instance) (waiting : Pending) : ArpStep → Pending
  | .queue ip frame iface => Function.update waiting ip (⟨frame, iface⟩ :: waiting ip)
  | .arp _ frame interface =>
      match acceptedReply sr frame interface with
      | some (_, ip) => Function.update waiting ip []
      | none => waiting
  | .retransmit _ _ => waiting

def pending (sr : Instance) (steps : List ArpStep) : Pending :=
  steps.foldl (ArpStep.pending sr) fun _ => []

/-- The steps that the packet handlers and the sweep take: packets have room for the Ethernet
addresses and an interface to leave by, and the request is queued and not given up yet. -/
def ArpStep.Allowed (sr : Instance) (s : State) : ArpStep → Prop
  | .queue _ frame iface => 12 ≤ frame.length ∧ (srGetInterface sr iface).isSome = true
  | .arp _ _ _ => True
  | .retransmit _ id => ∃ r ∈ s.requests, r.id = id ∧ r.timesSent < 5

/-- The runs of these steps. -/
inductive ArpRun (sr : Instance) (junk : Nat → Memory) : List ArpStep → State → Prop
  | init : ArpRun sr junk [] State.init
  | snoc {steps : List ArpStep} {s t : State} {step : ArpStep} :
    ArpRun sr junk steps s → step.Allowed sr s → step.exec sr junk s = .ok () t →
      ArpRun sr junk (steps ++ [step]) t

/-! ## The requests hold what waits -/

/-- A packet that can be sent when its address is known. -/
def Usable (sr : Instance) (p : Packet) : Prop :=
  12 ≤ p.buf.length ∧ (srGetInterface sr p.iface).isSome = true

structure Holds (sr : Instance) (s : State) (waiting : Pending) : Prop where
  well : WellQueued (Usable sr) s
  packets : ∀ r ∈ s.requests, r.packets = waiting r.ip
  listed : ∀ ip, waiting ip ≠ [] → ∃ r ∈ s.requests, r.ip = ip

section

variable {sr : Instance} {s t : State} {waiting : Pending} {junk : Nat → Memory}

theorem holds_init (sr : Instance) : Holds sr State.init fun _ => [] where
  well := wellQueued_init
  packets _ member := absurd member List.not_mem_nil
  listed _ some := absurd rfl some

theorem Holds.congr (holds : Holds sr s waiting) (requests : t.requests = s.requests)
    (nextId : t.nextId = s.nextId) : Holds sr t waiting where
  well := holds.well.congr requests nextId
  packets := by rw [requests]; exact holds.packets
  listed := by rw [requests]; exact holds.listed

theorem Holds.usable (holds : Holds sr s waiting) (ip : Ip) : ∀ p ∈ waiting ip, Usable sr p := by
  intro p member
  obtain ⟨r, here, rfl⟩ := holds.listed ip (List.ne_nil_of_mem member)
  rw [← holds.packets r here] at member
  exact holds.well.packets r here p member

/-- A packet is put under its address. -/
theorem Holds.queue (holds : Holds sr s waiting) (ip : Ip) {frame : Bytes} {iface : IfName}
    (fits : Usable sr ⟨frame, iface⟩) :
    ∃ id t, srArpcacheQueuereq ip frame iface s = .ok id t ∧
      Holds sr t (Function.update waiting ip (⟨frame, iface⟩ :: waiting ip)) := by
  have some : frame ≠ [] := by
    rintro rfl
    exact absurd fits.1 (by simp)
  rcases srArpcacheQueuereq_cases s ip iface some with
    ⟨req, here, for_ip, returns⟩ | ⟨none, returns⟩
  · -- the request that changes is the one for the address
    have changed : ∀ r ∈ s.requests, r.id = req.id ↔ r.ip = ip := by
      intro r member
      constructor
      · intro same
        rw [holds.well.apart.eq member here same, for_ip]
      · intro same
        rw [holds.well.eq member here (same.trans for_ip.symm)]
    refine ⟨_, _, returns, holds.well.addPacket req.id some fits, ?_, ?_⟩
    · intro r member
      obtain ⟨q, old, rfl⟩ := List.mem_map.mp member
      by_cases this : q.id = req.id
      · have same := (changed q old).mp this
        rw [if_pos this, packets_addPacket some, ArpReq.addPacket_ip, same, Function.update_self,
          holds.packets q old, same]
      · have differ := mt (changed q old).mpr this
        rw [if_neg this, Function.update_of_ne differ, holds.packets q old]
    · intro x waits
      have old : ∃ r ∈ s.requests, r.ip = x := by
        by_cases same : x = ip
        · exact ⟨req, here, for_ip.trans same.symm⟩
        · rw [Function.update_of_ne same] at waits
          exact holds.listed x waits
      obtain ⟨r, member, same⟩ := old
      refine ⟨_, List.mem_map_of_mem member, ?_⟩
      split_ifs <;> simp [same]
  · have empty : waiting ip = [] := by
      by_contra waits
      obtain ⟨r, member, same⟩ := holds.listed ip waits
      exact none r member same
    refine ⟨_, _, returns, holds.well.ask none fits, ?_, ?_⟩
    · intro r member
      rcases List.mem_cons.mp member with rfl | old
      · rw [Function.update_self, empty]
      · rw [Function.update_of_ne (none r old), holds.packets r old]
    · intro x waits
      by_cases same : x = ip
      · exact ⟨_, List.mem_cons_self, same.symm⟩
      · rw [Function.update_of_ne same] at waits
        obtain ⟨r, old, same⟩ := holds.listed x waits
        exact ⟨r, List.mem_cons_of_mem _ old, same⟩

/-- A reply takes what waits for its address. -/
theorem Holds.remove (holds : Holds sr s waiting) (ip : Ip)
    (requests : t.requests = s.requests.filter fun req => req.ip != ip)
    (nextId : t.nextId = s.nextId) :
    Holds sr t (Function.update waiting ip []) := by
  constructor
  case well =>
    refine holds.well.sublist ?_ nextId
    rw [requests]
    exact List.filter_sublist
  case packets =>
    intro r member
    rw [requests, List.mem_filter, bne_iff_ne] at member
    rw [Function.update_of_ne member.2, holds.packets r member.1]
  case listed =>
    intro x some
    have differ : x ≠ ip := by
      rintro rfl
      exact some (Function.update_self ..)
    rw [Function.update_of_ne differ] at some
    obtain ⟨r, member, rfl⟩ := holds.listed x some
    refine ⟨r, ?_, rfl⟩
    rw [requests, List.mem_filter, bne_iff_ne]
    exact ⟨member, differ⟩

/-- A change of a request that concerns neither its address nor its packets. -/
theorem Holds.touch (holds : Holds sr s waiting) (id : Nat) {change : ArpReq → ArpReq}
    (ids : ∀ r, (change r).id = r.id) (ips : ∀ r, (change r).ip = r.ip)
    (packets : ∀ r, (change r).packets = r.packets) : Holds sr (s.update id change) waiting := by
  constructor
  case well =>
    apply holds.well.update id ids ips
    intro r member _
    rw [packets]
    exact ⟨holds.well.nonempty r member, holds.well.packets r member⟩
  case packets =>
    intro r member
    obtain ⟨q, old, rfl⟩ := List.mem_map.mp member
    split_ifs
    · rw [packets, ips, holds.packets q old]
    · exact holds.packets q old
  case listed =>
    intro x some
    obtain ⟨r, member, rfl⟩ := holds.listed x some
    refine ⟨_, List.mem_map_of_mem member, ?_⟩
    split_ifs
    · exact ips r
    · rfl

/-! ## The steps -/

/-- A packet has been sent as it was queued, with its addresses written. -/
structure Flushed (mac : Mac) (p : Packet) (e : Emission) : Prop where
  iface : e.iface = p.iface
  dhost : field e.frame 0 6 = macBytes mac
  length : e.frame.length = p.buf.length
  datagram : e.frame.drop 12 = p.buf.drop 12

theorem flushed_addressed {mac : Mac} {p : Packet} (shost : Mac) (long : 12 ≤ p.buf.length) :
    Flushed mac p ⟨addressed p.buf mac shost, p.iface⟩ where
  iface := rfl
  dhost := rfl
  length := by
    show (macBytes mac ++ macBytes shost ++ p.buf.drop 12).length = _
    simp only [List.length_append, length_macBytes, List.length_drop]
    omega
  datagram := List.drop_left' rfl

/-- The loop that sends what waited. -/
theorem flush_ok (mac : Mac) {packets : List Packet}
    (usable : ∀ p ∈ packets, Usable sr p) (s : State) :
    ∃ frames, packets.forM (flushPacket sr mac) s = .ok () { s with log := s.log ++ frames } ∧
      List.Forall₂ (Flushed mac) packets frames := by
  induction packets generalizing s with
  | nil => exact ⟨[], by rw [List.append_nil]; rfl, .nil⟩
  | cons p rest ih =>
      obtain ⟨long, there⟩ := usable p List.mem_cons_self
      obtain ⟨out, here⟩ := Option.isSome_iff_exists.mp there
      have first := flushPacket_ok (SameBehind.refl p.buf) long here mac s
      obtain ⟨frames, loop, flushed⟩ :=
        ih (fun q member => usable q (List.mem_cons_of_mem p member))
        { s with log := s.log ++ [⟨addressed p.buf mac out.addr, p.iface⟩] }
      refine ⟨⟨addressed p.buf mac out.addr, p.iface⟩ :: frames, ?_,
        .cons (flushed_addressed _ long) flushed⟩
      rw [forM_cons, bind_ok first, loop, List.append_assoc]
      rfl

theorem srHandleArpPacket_accepted {frame : Bytes} {interface : IfName} {mac : Mac} {ip : Ip}
    (accepted : acceptedReply sr frame interface = some (mac, ip)) (mem : Memory) :
    srHandleArpPacket sr mem frame interface = .ok (.learn mac ip) := by
  cases here : srGetInterface sr interface with
  | none => simp [acceptedReply, here] at accepted
  | some iface =>
      simp only [acceptedReply, here, Option.bind_eq_bind, Option.bind_some] at accepted
      split_ifs at accepted with reply
      cases accepted
      have other : field frame 20 2 ≠ [0, 1] := by
        rw [reply.2.1]
        decide
      rw [srHandleArpPacket_eq reply.1 here, if_neg other, if_pos reply.2.1, if_pos reply.2.2]

theorem srHandleArpPacket_ignored {frame : Bytes} {interface : IfName}
    (ignored : acceptedReply sr frame interface = none) (mem : Memory) :
    srHandleArpPacket sr mem frame interface = .ok .drop ∨
      ∃ reply, srHandleArpPacket sr mem frame interface = .ok (.send reply interface) := by
  by_cases short : frame.length < 42
  · exact .inl (srHandleArpPacket_short short)
  cases here : srGetInterface sr interface with
  | none =>
      rw [srHandleArpPacket, if_neg short, here]
      exact .inl rfl
  | some iface =>
      rw [srHandleArpPacket_eq (by omega) here]
      split_ifs with request own reply own
      · exact .inr ⟨_, rfl⟩
      · exact .inl rfl
      · simp [acceptedReply, here, show 42 ≤ frame.length by omega, reply, own] at ignored
      · exact .inl rfl
      · exact .inl rfl

/-- An accepted reply sends what waits for its address and takes the request off. -/
theorem exec_reply (holds : Holds sr s waiting) (junk : Nat → Memory) (now : Int) {frame : Bytes}
    {interface : IfName}
    {mac : Mac} {ip : Ip} (accepted : acceptedReply sr frame interface = some (mac, ip)) :
    ∃ t frames, (ArpStep.arp now frame interface).exec sr junk s = .ok () t ∧
      t.log = s.log ++ frames ∧ List.Forall₂ (Flushed mac) (waiting ip) frames ∧
      t.requests = (s.requests.filter fun req => req.ip != ip) ∧ t.nextId = s.nextId := by
  rw [ArpStep.exec, bind_ok (c := malloc junk) rfl]
  simp only [srHandleArpPacket_accepted accepted]
  rw [bind_ok (c := ofExcept (.ok (Action.learn mac ip))) rfl, perform, bind_ok (time_eq _ _),
    bind_ok (c := srArpcacheInsert now mac ip) rfl]
  simp only [State.ticked, eraseP_ip holds.well.oneEach]
  cases found : s.requests.find? fun req => req.ip == ip with
  | none =>
      have empty : waiting ip = [] := by
        by_contra some
        obtain ⟨r, member, same⟩ := holds.listed ip some
        have other := List.find?_eq_none.mp found r member
        exact other (by simpa using same)
      rw [empty]
      exact ⟨_, [], rfl, (List.append_nil _).symm, .nil, rfl, rfl⟩
  | some req =>
      have for_ip : req.ip = ip := by simpa using List.find?_some found
      have list := holds.packets req (List.mem_of_find?_eq_some found)
      rw [for_ip] at list
      rw [← list]
      have usable : ∀ p ∈ req.packets, Usable sr p := by
        rw [list]
        exact holds.usable ip
      obtain ⟨frames, loop, flushed⟩ := flush_ok mac usable _
      exact ⟨_, frames, loop, rfl, flushed, rfl, rfl⟩

/-- Sending an ARP request again finds an interface, and changes no packet. -/
theorem exec_retransmit (holds : Holds sr s waiting) (now : Int) {r : ArpReq}
    (member : r ∈ s.requests)
    (young : r.timesSent < 5) :
    ∃ t, (ArpStep.retransmit now r.id).exec sr junk s = .ok () t ∧ Holds sr t waiting := by
  rw [ArpStep.exec, handleArpreq, bind_ok (time_eq _ _),
    bind_ok (deref_of_mem holds.well.apart.ticked member)]
  split_ifs with due old
  · omega
  · obtain ⟨p, rest, list⟩ := List.exists_cons_of_ne_nil (holds.well.nonempty r member)
    have usable := holds.well.packets r member p (by rw [list]; exact List.mem_cons_self)
    obtain ⟨iface, here⟩ := Option.isSome_iff_exists.mp usable.2
    rw [resend, list, List.head?_cons, bind_ok (c := ofExcept (ofPointer (some p))) rfl, here]
    refine ⟨_, rfl, ?_⟩
    apply Holds.touch
    · exact holds.congr rfl rfl
    · exact fun _ => rfl
    · exact fun _ => rfl
    · exact fun _ => rfl
  · exact ⟨s.ticked, rfl, holds.congr rfl rfl⟩

/-- Every step returns, and does to the requests what it does to the abstract queue. -/
theorem exec_holds (holds : Holds sr s waiting) (junk : Nat → Memory) {step : ArpStep}
    (allowed : step.Allowed sr s) :
    ∃ t, step.exec sr junk s = .ok () t ∧ Holds sr t (step.pending sr waiting) := by
  cases step with
  | queue ip frame iface =>
      obtain ⟨id, t, returns, queued⟩ := holds.queue ip allowed
      refine ⟨t, ?_, queued⟩
      rw [ArpStep.exec, bind_ok returns]
      rfl
  | arp now frame interface =>
      rw [ArpStep.pending]
      cases accepted : acceptedReply sr frame interface with
      | some pair =>
          obtain ⟨mac, ip⟩ := pair
          obtain ⟨t, frames, returns, -, -, requests, nextId⟩ := exec_reply holds junk now accepted
          exact ⟨t, returns, holds.remove ip requests nextId⟩
      | none =>
          rw [ArpStep.exec, bind_ok (c := malloc junk) rfl]
          rcases srHandleArpPacket_ignored accepted (junk s.mallocs) with drops | ⟨reply, sends⟩
          · rw [drops]
            exact ⟨_, rfl, holds.congr rfl rfl⟩
          · rw [sends]
            exact ⟨_, rfl, holds.congr rfl rfl⟩
  | retransmit now id =>
      obtain ⟨r, member, rfl, young⟩ := allowed
      exact exec_retransmit holds now member young

theorem pending_snoc (steps : List ArpStep) (step : ArpStep) :
    pending sr (steps ++ [step]) = step.pending sr (pending sr steps) := by
  rw [pending, List.foldl_append]
  rfl

theorem run_holds {steps : List ArpStep} (run : ArpRun sr junk steps s) :
    Holds sr s (pending sr steps) := by
  induction run with
  | init => exact holds_init sr
  | snoc before allowed returns ih =>
      obtain ⟨t, same, holds⟩ := exec_holds ih junk allowed
      rw [returns] at same
      cases same
      rw [pending_snoc]
      exact holds

end

/-- The calls of the packet handlers are among the steps. -/
theorem allowed_of_handler {sr : Instance} {d : Decision} {entries : List ArpEntry} {mem : Memory}
    {ip : Ip} {frame : Bytes} {iface : IfName} (s : State)
    (queued : d.action sr entries mem = .ok (.queue ip frame iface)) :
    (ArpStep.queue ip frame iface).Allowed sr s := by
  obtain ⟨rt, out, f, passes⟩ := passes_of_queue queued
  obtain ⟨-, rfl, same⟩ := passes.of_queue queued
  have long := passes.long
  have length := same.length
  exact ⟨by omega, by rw [passes.found]; rfl⟩

/-- Nothing is lost, duplicated or moved: there is one request for an address, it holds what
came for the address since the last reply, every step goes through, and a reply sends exactly
what waits for its address and leaves the other requests. -/
theorem arp_queue_conserved (sr : Instance) (junk : Nat → Memory) (steps : List ArpStep) (s : State)
    (run : ArpRun sr junk steps s) :
    (s.requests.map ArpReq.ip).Nodup ∧
      (∀ r ∈ s.requests, r.packets ≠ [] ∧
        ∀ p ∈ r.packets, (srGetInterface sr p.iface).isSome = true) ∧
      (∀ r ∈ s.requests, r.packets = pending sr steps r.ip) ∧
      (∀ ip, pending sr steps ip ≠ [] → ∃ r ∈ s.requests, r.ip = ip) ∧
      (∀ step : ArpStep, step.Allowed sr s → ∃ t, step.exec sr junk s = .ok () t) ∧
      ∀ now frame interface mac ip, acceptedReply sr frame interface = some (mac, ip) →
        ∃ t frames, (ArpStep.arp now frame interface).exec sr junk s = .ok () t ∧
          t.log = s.log ++ frames ∧ List.Forall₂ (Flushed mac) (pending sr steps ip) frames ∧
          t.requests = s.requests.filter fun req => req.ip != ip := by
  have holds := run_holds run
  refine ⟨holds.well.oneEach, ?_, holds.packets, holds.listed, ?_, ?_⟩
  · intro r member
    exact ⟨holds.well.nonempty r member, fun p waits => (holds.well.packets r member p waits).2⟩
  · intro step allowed
    obtain ⟨t, returns, -⟩ := exec_holds holds junk allowed
    exact ⟨t, returns⟩
  · intro now frame interface mac ip accepted
    obtain ⟨t, frames, returns, log, flushed, requests, -⟩ := exec_reply holds junk now accepted
    exact ⟨t, frames, returns, log, flushed, requests⟩

/-- Two packets for 10.0.0.2. -/
def twoPackets : List ArpStep :=
  [.queue 0x0200000a (List.replicate 34 1) [101, 49],
    .queue 0x0200000a (List.replicate 40 2) [101, 49]]

/-- The ARP reply of 10.0.0.2. -/
def replyOfTwo : Bytes :=
  [2, 0, 0, 0, 0, 1, 2, 0, 0, 0, 0, 2, 8, 6,
    0, 1, 8, 0, 6, 4, 0, 2, 2, 0, 0, 0, 0, 2, 10, 0, 0, 2, 2, 0, 0, 0, 0, 1, 10, 0, 0, 1]

/-- The two packets wait under their address, and the reply sends both. -/
theorem arp_queue_conserved_twoPackets :
    ∃ s, ArpRun oneInterface (fun _ _ => 0) twoPackets s ∧
      (∀ r ∈ s.requests, r.packets = pending oneInterface twoPackets r.ip) ∧
      ∃ t frames, (ArpStep.arp 5 replyOfTwo [101, 49]).exec oneInterface (fun _ _ => 0) s =
          .ok () t ∧
        t.log = s.log ++ frames ∧
        List.Forall₂ (Flushed ⟨2, 0, 0, 0, 0, 2⟩) (pending oneInterface twoPackets 0x0200000a)
          frames ∧
        t.requests = s.requests.filter fun req => req.ip != 0x0200000a := by
  have first : (ArpStep.queue 0x0200000a (List.replicate 34 1) [101, 49]).Allowed oneInterface
      State.init := by
    constructor <;> decide
  have start : ArpRun oneInterface (fun _ _ => 0) [_] _ := ArpRun.init.snoc first rfl
  have second : ∀ s : State,
      (ArpStep.queue 0x0200000a (List.replicate 40 2) [101, 49]).Allowed oneInterface s := by
    intro s
    constructor <;> decide
  have run : ArpRun oneInterface (fun _ _ => 0) twoPackets _ := start.snoc (second _) rfl
  have conserved := arp_queue_conserved oneInterface _ twoPackets _ run
  have accepted : acceptedReply oneInterface replyOfTwo [101, 49] =
      some (⟨2, 0, 0, 0, 0, 2⟩, 0x0200000a) := by
    decide
  exact ⟨_, run, conserved.2.2.1, conserved.2.2.2.2.2 5 replyOfTwo [101, 49] _ _ accepted⟩

end CompNet.Router
