import CompNet.Router.Decisions

/-!
# Uninitialised memory

Two runs that differ in what `malloc` returns.  Their states stay alike: the
tables are the same and a queued packet differs at most in its destination
address, which is written before the packet is sent.  What is sent is the same
too, but for the reply to an ARP request that is longer than an ARP packet.
-/

namespace CompNet.Router

open CompNet.Lib

/-! ## States that are alike -/

structure SamePacket (p q : Packet) : Prop where
  buf : SameBehind p.buf q.buf
  iface : p.iface = q.iface

structure SameReq (r q : ArpReq) : Prop where
  id : r.id = q.id
  ip : r.ip = q.ip
  sent : r.sent = q.sent
  timesSent : r.timesSent = q.timesSent
  packets : List.Forall₂ SamePacket r.packets q.packets

/-- The states of two runs, with a relation between their logs. -/
structure Alike (logs : List Emission → List Emission → Prop) (s t : State) : Prop where
  entries : s.entries = t.entries
  requests : List.Forall₂ SameReq s.requests t.requests
  nextId : s.nextId = t.nextId
  mallocs : s.mallocs = t.mallocs
  readings : s.readings = t.readings
  log : logs s.log t.log

/-- A relation between logs that grow by frames that may differ as allowed. -/
structure Grows (allowed : Bytes → Bytes → Prop) (logs : List Emission → List Emission → Prop) :
    Prop where
  refl : ∀ f, allowed f f
  append : ∀ l m f g i, allowed f g → logs l m → logs (l ++ [⟨f, i⟩]) (m ++ [⟨g, i⟩])

def SameAction (allowed : Bytes → Bytes → Prop) : Action → Action → Prop
  | .drop, .drop => True
  | .send f i, .send g j => allowed f g ∧ i = j
  | .queue a f i, .queue b g j => a = b ∧ SameBehind f g ∧ i = j
  | .learn m a, .learn n b => m = n ∧ a = b
  | _, _ => False

def SameResult (allowed : Bytes → Bytes → Prop) : Except Fault Action → Except Fault Action → Prop
  | .ok a, .ok b => SameAction allowed a b
  | .error e, .error e' => e = e'
  | _, _ => False

theorem SameAction.refl {allowed : Bytes → Bytes → Prop} (refl : ∀ f, allowed f f) (a : Action) :
    SameAction allowed a a := by
  cases a with
  | drop => exact trivial
  | send f i => exact ⟨refl f, rfl⟩
  | queue ip f i => exact ⟨rfl, .refl f, rfl⟩
  | learn mac ip => exact ⟨rfl, rfl⟩

theorem SameResult.refl {allowed : Bytes → Bytes → Prop} (refl : ∀ f, allowed f f)
    (r : Except Fault Action) : SameResult allowed r r := by
  cases r with
  | ok a => exact SameAction.refl refl a
  | error e => rfl

/-! ## What the handlers decide -/

section

variable {allowed : Bytes → Bytes → Prop} {sr : Instance} {entries : List ArpEntry}
  {mem mem' : Memory} {interface : IfName}

/-- Every field of an error message is written, except for the address of a next hop
that is not known yet. -/
theorem srSendError_same (refl : ∀ f, allowed f f) {f g : Bytes} (same : SameBehind f g)
    {type code : UInt8} :
    SameResult allowed (srSendError sr entries mem f interface type code)
      (srSendError sr entries mem' g interface type code) := by
  rw [srSendError, srSendError, same.read (by omega), same.read (i := 14) (by omega)]
  cases read g 26 4 with
  | error e => rfl
  | ok src =>
      simp only [ok_bind]
      cases srGetLongestPrefixMatch sr (ipOf src) with
      | none => exact trivial
      | some rt =>
          simp only
          cases srGetInterface sr rt.interface with
          | none => exact trivial
          | some out =>
              simp only
              cases ofPointer (srGetInterface sr interface) with
              | error e => rfl
              | ok iface =>
                  simp only [ok_bind]
                  cases read g 14 28 with
                  | error e => rfl
                  | ok data =>
                      simp only [ok_bind]
                      cases srArpcacheLookup entries rt.gw with
                      | some mac => exact ⟨refl _, rfl⟩
                      | none =>
                          refine ⟨rfl, ?_, rfl⟩
                          simp only [EthernetHdr.bytes, List.append_assoc]
                          exact .mac _ _ _

/-- An ARP request for the address of the interface it came in on, with bytes behind the
ARP packet. -/
def Padded (sr : Instance) (packet : Bytes) (interface : IfName) : Prop :=
  42 < packet.length ∧ field packet 12 2 = pairBytes ethertypeArp ∧ field packet 20 2 = [0, 1] ∧
    ∃ iface, srGetInterface sr interface = some iface ∧ ipOf (field packet 38 4) = iface.ip

variable {packet : Bytes}

theorem arpReply_same (iface : Interface) (whole : packet.length = 42) :
    arpReply mem packet iface = arpReply mem' packet iface := by
  rw [arpReply, arpReply, whole]
  rfl

/-- The replies of ARP differ behind the ARP packet. -/
theorem srHandleArpPacket_same (refl : ∀ f, allowed f f)
    (arp : field packet 12 2 = pairBytes ethertypeArp)
    (reply : Padded sr packet interface → ∀ f g, allowed f g) :
    SameResult allowed (srHandleArpPacket sr mem packet interface)
      (srHandleArpPacket sr mem' packet interface) := by
  by_cases short : packet.length < 42
  · rw [srHandleArpPacket_short short, srHandleArpPacket_short short]
    exact .refl refl _
  cases here : srGetInterface sr interface with
  | none =>
      rw [srHandleArpPacket, srHandleArpPacket, here]
      exact .refl refl _
  | some iface =>
      rw [srHandleArpPacket_eq (by omega) here, srHandleArpPacket_eq (by omega) here]
      split_ifs with request own
      · by_cases whole : packet.length = 42
        · rw [arpReply_same iface whole]
          exact .refl refl _
        · exact ⟨reply ⟨by omega, arp, request, iface, here, own⟩ _ _, rfl⟩
      all_goals exact .refl refl _

theorem srForwardPacket_same (refl : ∀ f, allowed f f) (long : 34 ≤ packet.length) :
    SameResult allowed (srForwardPacket sr entries mem packet interface)
      (srForwardPacket sr entries mem' packet interface) := by
  rw [srForwardPacket_eq long, srForwardPacket_eq long]
  split_ifs with expired
  · exact srSendError_same refl (.refl _)
  · cases srGetLongestPrefixMatch sr (dstOf packet) with
    | none => exact srSendError_same refl (.refl _)
    | some rt => exact .refl refl _

theorem srHandleIpPacket_same (refl : ∀ f, allowed f f) :
    SameResult allowed (srHandleIpPacket sr entries mem packet interface)
      (srHandleIpPacket sr entries mem' packet interface) := by
  by_cases short : packet.length < 34
  · rw [srHandleIpPacket_short short, srHandleIpPacket_short short]
    exact .refl refl _
  have long : 34 ≤ packet.length := by omega
  rw [srHandleIpPacket_eq long, srHandleIpPacket_eq long]
  split_ifs with good us icmp
  · exact .refl refl _
  · exact srSendError_same refl (.refl _)
  · exact srForwardPacket_same refl long
  · exact .refl refl _

theorem srHandlepacketAction_same (refl : ∀ f, allowed f f)
    (reply : Padded sr packet interface → ∀ f g, allowed f g) :
    SameResult allowed (srHandlepacketAction sr entries mem packet interface)
      (srHandlepacketAction sr entries mem' packet interface) := by
  by_cases short : packet.length < 14
  · have outside := read_error (show packet.length < 12 + 2 by omega)
    rw [srHandlepacketAction, srHandlepacketAction, outside]
    rfl
  rw [srHandlepacketAction_eq (by omega), srHandlepacketAction_eq (by omega)]
  split_ifs with arp ip
  · exact srHandleArpPacket_same refl arp reply
  · exact srHandleIpPacket_same refl
  · exact .refl refl _

end

/-! ## Commands in lockstep -/

section

variable {allowed : Bytes → Bytes → Prop} {logs : List Emission → List Emission → Prop}
  {junk junk' : Nat → Memory}

theorem malloc_lockstep : Lockstep (Alike logs) (fun _ _ => True) (malloc junk) (malloc junk') := by
  intro s t alike
  refine ⟨trivial, ?_⟩
  exact { alike with mallocs := congrArg Nat.succ alike.mallocs }

theorem get_lockstep : Lockstep (Alike logs) (Alike logs) (get : Cmd State) get :=
  fun _ _ alike => ⟨alike, alike⟩

theorem srSendPacket_lockstep (grows : Grows allowed logs) {f g : Bytes} (frames : allowed f g)
    (i : IfName) :
    Lockstep (Alike logs) (fun _ _ => True) (srSendPacket f i) (srSendPacket g i) := by
  intro s t alike
  refine ⟨trivial, ?_⟩
  exact { alike with log := grows.append _ _ f g i frames alike.log }

theorem deref_lockstep (id : Nat) : Lockstep (Alike logs) SameReq (deref id) (deref id) := by
  intro s t alike
  have found := forall₂_find? (p := fun req => req.id == id) alike.requests
    fun r q same => by rw [same.id]
  rw [deref, deref]
  generalize List.find? _ s.requests = left at found
  generalize List.find? _ t.requests = right at found
  cases found with
  | none => exact ⟨rfl, alike⟩
  | some same => exact ⟨same, alike⟩

theorem Alike.update {s t : State} (alike : Alike logs s t) (id : Nat)
    {change change' : ArpReq → ArpReq}
    (same : ∀ r q, SameReq r q → SameReq (change r) (change' q)) :
    Alike logs (s.update id change) (t.update id change') := by
  refine { alike with requests := ?_ }
  refine List.rel_map ?_ alike.requests
  intro r q related
  simp only [related.id]
  split_ifs
  · exact same r q related
  · exact related

theorem SameReq.addPacket {f g : Bytes} (frames : SameBehind f g) (i : IfName) {r q : ArpReq}
    (same : SameReq r q) : SameReq (r.addPacket f i) (q.addPacket g i) := by
  have empty : f.isEmpty = g.isEmpty := by
    rw [Bool.eq_iff_iff, List.isEmpty_iff_length_eq_zero, List.isEmpty_iff_length_eq_zero,
      frames.length]
  rw [ArpReq.addPacket, ArpReq.addPacket, empty]
  split_ifs
  · exact same
  · exact { same with packets := .cons ⟨frames, rfl⟩ same.packets }

theorem srArpcacheQueuereq_lockstep (ip : Ip) {f g : Bytes} (frames : SameBehind f g) (i : IfName) :
    Lockstep (Alike logs) Eq (srArpcacheQueuereq ip f i) (srArpcacheQueuereq ip g i) := by
  intro s t alike
  have found := forall₂_find? (p := fun req => req.ip == ip) alike.requests
    fun r q same => by rw [same.ip]
  rw [srArpcacheQueuereq, srArpcacheQueuereq]
  generalize List.find? _ s.requests = left at found
  generalize List.find? _ t.requests = right at found
  cases found with
  | some same =>
      refine ⟨same.id, ?_⟩
      rw [same.id]
      exact alike.update _ fun r q => SameReq.addPacket frames i
  | none =>
      refine ⟨alike.nextId, ?_⟩
      have new : SameReq ⟨s.nextId, ip, 0, 0, []⟩ ⟨t.nextId, ip, 0, 0, []⟩ :=
        ⟨alike.nextId, rfl, rfl, rfl, .nil⟩
      exact { alike with
        requests := .cons (new.addPacket frames i) alike.requests
        nextId := congrArg Nat.succ alike.nextId }

theorem srArpcacheInsert_lockstep (now : Int) (mac : Mac) (ip : Ip) :
    Lockstep (Alike logs) (Option.Rel SameReq) (srArpcacheInsert now mac ip)
      (srArpcacheInsert now mac ip) := by
  intro s t alike
  have agree : ∀ r q : ArpReq, SameReq r q → (r.ip == ip) = (q.ip == ip) := by
    intro r q same
    rw [same.ip]
  refine ⟨forall₂_find? alike.requests agree, ?_⟩
  exact { alike with
    entries := congrArg (insertEntry _) alike.entries
    requests := forall₂_eraseP alike.requests agree }

theorem srArpreqDestroy_lockstep (id : Nat) :
    Lockstep (Alike logs) (fun _ _ => True) (srArpreqDestroy id) (srArpreqDestroy id) := by
  refine Lockstep.bind (deref_lockstep id) fun _ _ _ => ?_
  intro s t alike
  refine ⟨trivial, ?_⟩
  refine { alike with requests := List.rel_filter ?_ alike.requests }
  intro r q same
  simp only [same.id]

theorem ofExcept_lockstep {r r' : Except Fault Action} (same : SameResult allowed r r') :
    Lockstep (Alike logs) (SameAction allowed) (ofExcept r) (ofExcept r') := by
  cases r with
  | ok a =>
      cases r' with
      | ok b => exact Lockstep.pure same
      | error e => exact same.elim
  | error e =>
      cases r' with
      | ok b => exact same.elim
      | error e' =>
          cases same
          exact Lockstep.throw e

theorem lockstep_refl_ofExcept {α : Type} (r : Except Fault α) :
    Lockstep (Alike logs) Eq (ofExcept r) (ofExcept r) := by
  cases r with
  | ok a => exact Lockstep.pure rfl
  | error e => exact Lockstep.throw e

variable {sr : Instance} {clock : Nat → Int}

theorem time_lockstep : Lockstep (Alike logs) Eq (time clock) (time clock) := by
  intro s t alike
  exact ⟨congrArg clock alike.readings,
    { alike with readings := congrArg Nat.succ alike.readings }⟩

/-- What waited goes out the same. -/
theorem flushPacket_lockstep (grows : Grows allowed logs) (mac : Mac) {p q : Packet}
    (same : SamePacket p q) :
    Lockstep (Alike logs) (fun _ _ => True) (flushPacket sr mac p) (flushPacket sr mac q) := by
  rw [flushPacket, flushPacket, same.buf.write, same.iface]
  refine Lockstep.bind (lockstep_refl_ofExcept _) ?_
  rintro buf _ rfl
  refine Lockstep.bind (lockstep_refl_ofExcept _) ?_
  rintro out _ rfl
  refine Lockstep.bind (lockstep_refl_ofExcept _) ?_
  rintro buf _ rfl
  exact srSendPacket_lockstep grows (grows.refl buf) q.iface

theorem perform_lockstep (grows : Grows allowed logs) {attend attend' : Nat → Cmd Unit}
    (attends : ∀ id, Lockstep (Alike logs) (fun _ _ => True) (attend id) (attend' id))
    {a b : Action} (same : SameAction allowed a b) :
    Lockstep (Alike logs) (fun _ _ => True) (perform sr clock attend a)
      (perform sr clock attend' b) := by
  cases a with
  | drop =>
      cases b with
      | drop => exact Lockstep.pure trivial
      | _ => exact same.elim
  | send f i =>
      cases b with
      | send g j =>
          obtain ⟨frames, rfl⟩ := same
          exact srSendPacket_lockstep grows frames i
      | _ => exact same.elim
  | queue ip f i =>
      cases b with
      | queue ip' g j =>
          obtain ⟨rfl, frames, rfl⟩ := same
          refine Lockstep.bind (srArpcacheQueuereq_lockstep ip frames i) ?_
          rintro id _ rfl
          exact attends id
      | _ => exact same.elim
  | learn mac ip =>
      cases b with
      | learn mac' ip' =>
          obtain ⟨rfl, rfl⟩ := same
          refine Lockstep.bind time_lockstep ?_
          rintro now _ rfl
          refine Lockstep.bind (srArpcacheInsert_lockstep now mac ip) ?_
          intro found found' related
          cases related with
          | none => exact Lockstep.pure trivial
          | some requests =>
              exact Lockstep.forM requests.packets fun p q => flushPacket_lockstep grows mac
      | _ => exact same.elim

theorem refusePacket_lockstep (grows : Grows allowed logs) {attend attend' : Nat → Cmd Unit}
    (attends : ∀ id, Lockstep (Alike logs) (fun _ _ => True) (attend id) (attend' id)) (id : Nat)
    {p q : Packet} (same : SamePacket p q) :
    Lockstep (Alike logs) (fun _ _ => True) (refusePacket sr junk clock attend id p)
      (refusePacket sr junk' clock attend' id q) := by
  refine Lockstep.bind (deref_lockstep id) fun _ _ _ => ?_
  refine Lockstep.bind malloc_lockstep fun mem mem' _ => ?_
  refine Lockstep.bind get_lockstep fun s t alike => ?_
  rw [same.iface, alike.entries]
  refine Lockstep.bind (ofExcept_lockstep (srSendError_same grows.refl same.buf)) ?_
  exact fun a b actions => perform_lockstep grows attends actions

/-- Every byte of an ARP request is written. -/
theorem srSendArpRequest_lockstep (grows : Grows allowed logs) (tip : Ip) (iface : Interface) :
    Lockstep (Alike logs) (fun _ _ => True) (srSendArpRequest junk tip iface)
      (srSendArpRequest junk' tip iface) := by
  refine Lockstep.bind malloc_lockstep fun mem mem' _ => ?_
  have same : arpRequest mem tip iface = arpRequest mem' tip iface := rfl
  rw [same]
  exact srSendPacket_lockstep grows (grows.refl _) iface.name

theorem resend_lockstep (grows : Grows allowed logs) (now : Int) {r q : ArpReq}
    (same : SameReq r q) :
    Lockstep (Alike logs) (fun _ _ => True) (resend sr junk now r) (resend sr junk' now q) := by
  have heads := forall₂_head? same.packets
  rw [resend, resend, same.ip, same.id]
  generalize r.packets.head? = p at heads
  generalize q.packets.head? = p' at heads
  cases heads with
  | none => exact Lockstep.throw _
  | some packets =>
      refine Lockstep.bind (Lockstep.pure packets) fun p p' packets => ?_
      rw [packets.iface]
      refine Lockstep.bind (lockstep_refl_ofExcept _) ?_
      rintro iface _ rfl
      refine Lockstep.bind (srSendArpRequest_lockstep grows q.ip iface) fun _ _ _ => ?_
      intro s t alike
      refine ⟨trivial, alike.update _ fun r q related => ?_⟩
      exact { related with sent := rfl, timesSent := congrArg Nat.succ related.timesSent }

theorem handleArpreq_lockstep (grows : Grows allowed logs) (fuel : Nat) :
    ∀ id, Lockstep (Alike logs) (fun _ _ => True) (handleArpreq sr junk clock fuel id)
      (handleArpreq sr junk' clock fuel id) := by
  induction fuel with
  | zero => exact fun id => Lockstep.throw _
  | succ fuel ih =>
      intro id
      rw [handleArpreq, handleArpreq]
      refine Lockstep.bind time_lockstep ?_
      rintro now _ rfl
      refine Lockstep.bind (deref_lockstep id) fun r q same => ?_
      rw [same.sent, same.timesSent]
      split_ifs
      · refine Lockstep.bind ?_ fun _ _ (_ : True) => srArpreqDestroy_lockstep id
        exact Lockstep.forM same.packets fun p q => refusePacket_lockstep grows ih id
      · exact resend_lockstep grows now same
      · exact Lockstep.pure trivial

theorem successor_same {xs ys : List ArpReq} (items : List.Forall₂ SameReq xs ys) (id : Nat) :
    successor id xs = successor id ys := by
  induction items with
  | nil => rfl
  | cons head rest ih =>
      rw [successor, successor, head.id]
      split_ifs
      · cases rest with
        | nil => rfl
        | cons next _ => exact congrArg some next.id
      · exact ih

theorem sweepLoop_lockstep {attend attend' : Nat → Cmd Unit}
    (attends : ∀ id, Lockstep (Alike logs) (fun _ _ => True) (attend id) (attend' id))
    (turns : Nat) :
    ∀ next, Lockstep (Alike logs) (fun _ _ => True) (sweepLoop attend turns next)
      (sweepLoop attend' turns next) := by
  induction turns with
  | zero =>
      intro next
      cases next with
      | none => exact Lockstep.pure trivial
      | some id => exact Lockstep.throw _
  | succ turns ih =>
      intro next
      cases next with
      | none => exact Lockstep.pure trivial
      | some id =>
          rw [sweepLoop, sweepLoop]
          refine Lockstep.bind (deref_lockstep id) fun _ _ _ => ?_
          refine Lockstep.bind get_lockstep fun s t alike => ?_
          rw [successor_same alike.requests id]
          exact Lockstep.bind (attends id) fun _ _ _ => ih _

theorem srArpcacheSweepreqs_lockstep (grows : Grows allowed logs) (fuel : Nat) :
    Lockstep (Alike logs) (fun _ _ => True) (srArpcacheSweepreqs sr junk clock fuel)
      (srArpcacheSweepreqs sr junk' clock fuel) := by
  refine Lockstep.bind get_lockstep fun s t alike => ?_
  have first : s.requests.head?.map ArpReq.id = t.requests.head?.map ArpReq.id := by
    have heads := forall₂_head? alike.requests
    generalize s.requests.head? = r at heads
    generalize t.requests.head? = q at heads
    cases heads with
    | none => rfl
    | some same => exact congrArg some same.id
  rw [alike.requests.length_eq, first]
  exact sweepLoop_lockstep (handleArpreq_lockstep grows fuel) _ _

/-- An event in two runs. -/
theorem exec_lockstep (grows : Grows allowed logs) (fuel : Nat) (e : Event)
    (reply : ∀ frame interface, e = .packet frame interface → Padded sr frame interface →
      ∀ f g, allowed f g) :
    Lockstep (Alike logs) (fun _ _ => True) (e.exec sr junk clock fuel)
      (e.exec sr junk' clock fuel) := by
  cases e with
  | packet frame interface =>
      refine Lockstep.bind malloc_lockstep fun mem mem' _ => ?_
      refine Lockstep.bind get_lockstep fun s t alike => ?_
      rw [alike.entries]
      refine Lockstep.bind (ofExcept_lockstep
        (srHandlepacketAction_same grows.refl (reply frame interface rfl))) ?_
      exact fun a b actions => perform_lockstep grows (handleArpreq_lockstep grows fuel) actions
  | timeout =>
      refine Lockstep.bind time_lockstep ?_
      rintro curtime _ rfl
      refine Lockstep.bind (V := fun _ _ => True) ?_ fun _ _ _ =>
        srArpcacheSweepreqs_lockstep grows fuel
      intro s t alike
      exact ⟨trivial, { alike with entries := congrArg (expireEntries curtime) alike.entries }⟩

end

/-! ## Runs -/

/-- The frames that were handed to `sr_send_packet`. -/
def sent : EStateM.Result Fault State Unit → List Emission
  | .ok _ s => s.log
  | .error _ s => s.log

/-- The run comes to the event: no handler fails before it. -/
def Handles (sr : Instance) (junk : Nat → Memory) (clock : Nat → Int) (fuel : Nat) (s : State)
    (events : List Event) (e : Event) : Prop :=
  ∃ pre post t, events = pre ++ e :: post ∧ run sr junk clock fuel pre s = .ok () t

theorem Alike.refl {logs : List Emission → List Emission → Prop} (s : State)
    (log : logs s.log s.log) : Alike logs s s where
  entries := rfl
  requests := by
    apply List.forall₂_same.mpr
    intro r _
    refine ⟨rfl, rfl, rfl, rfl, List.forall₂_same.mpr fun p _ => ⟨.refl p.buf, rfl⟩⟩
  nextId := rfl
  mallocs := rfl
  readings := rfl
  log := log

section

variable {sr : Instance} {junk junk' : Nat → Memory} {clock : Nat → Int} {fuel : Nat}

theorem grows_eq : Grows Eq Eq where
  refl _ := rfl
  append := by
    rintro l _ f _ i rfl rfl
    rfl

/-- As long as no padded ARP request is handled, the runs send the same frames. -/
theorem run_lockstep {events : List Event} {s t : State} (alike : Alike Eq s t)
    (clean : ∀ frame interface, Handles sr junk clock fuel s events (.packet frame interface) →
      ¬ Padded sr frame interface) :
    Outcomes (Alike Eq) (fun _ _ => True) (run sr junk clock fuel events s)
      (run sr junk' clock fuel events t) := by
  induction events generalizing s t with
  | nil => exact ⟨trivial, alike⟩
  | cons e events ih =>
      have turn : Lockstep (Alike Eq) (fun _ _ => True) (e.exec sr junk clock fuel)
          (e.exec sr junk' clock fuel) := by
        apply exec_lockstep grows_eq
        rintro frame interface rfl padded
        exact absurd padded (clean frame interface ⟨[], events, s, rfl, rfl⟩)
      have outcomes := turn s t alike
      rw [run, run, forM_cons, forM_cons]
      cases left : e.exec sr junk clock fuel s with
      | ok a s' =>
          rw [left] at outcomes
          obtain ⟨b, t', right, -, alike'⟩ := outcomes.of_ok
          rw [bind_ok left, bind_ok right]
          apply ih alike'
          rintro frame interface ⟨pre, post, u, rfl, reached⟩
          refine clean frame interface ⟨e :: pre, post, u, rfl, ?_⟩
          rw [run, forM_cons, bind_ok left]
          exact reached
      | error fault s' =>
          rw [left] at outcomes
          obtain ⟨t', right, alike'⟩ := outcomes.of_error
          rw [bind_error left, bind_error right]
          exact ⟨rfl, alike'⟩

/-- Any two runs handle the same events and send as many frames. -/
theorem run_alike {logs : List Emission → List Emission → Prop}
    (grows : Grows (fun _ _ => True) logs) (sr : Instance) (junk junk' : Nat → Memory)
    (clock : Nat → Int) (fuel : Nat) (events : List Event) :
    Lockstep (Alike logs) (fun _ _ => True) (run sr junk clock fuel events)
      (run sr junk' clock fuel events) := by
  refine Lockstep.forM (List.forall₂_same.mpr fun e _ => (rfl : e = e)) ?_
  rintro e _ rfl
  exact exec_lockstep grows fuel e fun _ _ _ _ _ _ => trivial

/-- Two logs that differ at a place. -/
def DifferAt (n : Nat) (l m : List Emission) : Prop :=
  l.length = m.length ∧ n < l.length ∧ l[n]? ≠ m[n]?

theorem grows_differAt (n : Nat) : Grows (fun _ _ => True) (DifferAt n) where
  refl _ := trivial
  append := by
    rintro l m f g i - ⟨length, inside, differ⟩
    refine ⟨by simp [length], by simp; omega, ?_⟩
    rw [List.getElem?_append_left inside, List.getElem?_append_left (by omega)]
    exact differ

theorem differAt_append {l m : List Emission} {e e' : Emission} (length : l.length = m.length)
    (differ : e ≠ e') : DifferAt l.length (l ++ [e]) (m ++ [e']) := by
  refine ⟨by simp [length], by simp, ?_⟩
  rw [List.getElem?_concat_length, length, List.getElem?_concat_length]
  exact fun same => differ (Option.some.inj same)

theorem grows_length : Grows (fun _ _ => True) fun l m => l.length = m.length where
  refl _ := trivial
  append := by
    intro l m f g i _ length
    simp [length]

/-- The state after the reply to an ARP request. -/
def State.replied (u : State) (e : Emission) : State :=
  { u with mallocs := u.mallocs + 1, log := u.log ++ [e] }

/-- What the handlers do with a padded ARP request. -/
theorem exec_padded {frame : Bytes} {interface : IfName} (padded : Padded sr frame interface)
    (clock : Nat → Int) (fuel : Nat) :
    ∃ iface, ∀ (junk : Nat → Memory) (u : State),
      (Event.packet frame interface).exec sr junk clock fuel u =
        .ok () (u.replied ⟨arpReply (junk u.mallocs) frame iface, interface⟩) := by
  obtain ⟨long, arp, request, iface, here, own⟩ := padded
  refine ⟨iface, fun junk u => ?_⟩
  have action : srHandlepacketAction sr u.entries (junk u.mallocs) frame interface =
      .ok (.send (arpReply (junk u.mallocs) frame iface) interface) := by
    rw [srHandlepacketAction_eq (by omega), if_pos arp, srHandleArpPacket_eq (by omega) here,
      if_pos request, if_pos own]
  show (srHandlepacket sr junk clock fuel frame interface) u = _
  rw [srHandlepacket, bind_ok (c := malloc junk) rfl, bind_ok (c := get) rfl]
  simp only [action]
  rfl

theorem arpReply_differ {frame : Bytes} {mem mem' : Memory} (iface : Interface)
    (long : 42 < frame.length) (differ : mem 42 ≠ mem' 42) :
    arpReply mem frame iface ≠ arpReply mem' frame iface := by
  intro same
  have tails := List.append_cancel_left same
  rw [Memory.bytes, Memory.bytes, List.map_inj_left] at tails
  exact differ (tails 0 (List.mem_range.mpr (by omega)))

theorem sent_eq {r r' : EStateM.Result Fault State Unit}
    (outcomes : Outcomes (Alike Eq) (fun _ _ => True) r r') : sent r = sent r' := by
  cases r with
  | ok a s =>
      obtain ⟨b, t, rfl, -, alike⟩ := outcomes.of_ok
      exact alike.log
  | error e s =>
      obtain ⟨t, rfl, alike⟩ := outcomes.of_error
      exact alike.log

theorem sent_ne {n : Nat} {r r' : EStateM.Result Fault State Unit}
    (outcomes : Outcomes (Alike (DifferAt n)) (fun _ _ => True) r r') : sent r ≠ sent r' := by
  intro same
  cases r with
  | ok a s =>
      obtain ⟨b, t, rfl, -, alike⟩ := outcomes.of_ok
      exact alike.log.2.2 (congrArg (·[n]?) same)
  | error e s =>
      obtain ⟨t, rfl, alike⟩ := outcomes.of_error
      exact alike.log.2.2 (congrArg (·[n]?) same)

/-- A run that handles a padded ARP request sends what the memory held. -/
theorem sent_differ {events : List Event} {s : State} {frame : Bytes} {interface : IfName}
    (handled : Handles sr junk clock fuel s events (.packet frame interface))
    (padded : Padded sr frame interface) :
    sent (run sr junk clock fuel events s) ≠
      sent (run sr (fun i k => junk i k + 1) clock fuel events s) := by
  obtain ⟨pre, post, u, rfl, reached⟩ := handled
  let other : Nat → Memory := fun i k => junk i k + 1
  -- the runs are alike up to the request
  have before := run_alike grows_length sr junk other clock fuel pre s s (.refl s rfl)
  rw [reached] at before
  obtain ⟨_, u', reached', -, alike⟩ := before.of_ok
  -- the replies differ
  obtain ⟨iface, replies⟩ := exec_padded padded clock fuel
  have tails : arpReply (junk u.mallocs) frame iface ≠ arpReply (other u'.mallocs) frame iface := by
    rw [← alike.mallocs]
    exact arpReply_differ iface padded.1 (by simp [other])
  have alike' : Alike (DifferAt u.log.length)
      (u.replied ⟨arpReply (junk u.mallocs) frame iface, interface⟩)
      (u'.replied ⟨arpReply (other u'.mallocs) frame iface, interface⟩) :=
    { alike with
      mallocs := congrArg Nat.succ alike.mallocs
      log := differAt_append alike.log fun same => tails (congrArg Emission.frame same) }
  -- and the logs only grow after that
  have after := run_alike (grows_differAt _) sr junk other clock fuel post _ _ alike'
  rw [run, forM_append_ok reached, forM_cons, bind_ok (replies junk u), run,
    forM_append_ok reached', forM_cons, bind_ok (replies other u')]
  exact sent_ne after

end

/-- The frames do not depend on uninitialised memory if and only if the run handles no
padded ARP request. -/
theorem frames_independent_iff (sr : Instance) (clock : Nat → Int) (fuel : Nat) (s : State)
    (events : List Event) :
    (∀ junk junk' : Nat → Memory,
      sent (run sr junk clock fuel events s) = sent (run sr junk' clock fuel events s)) ↔
      ∀ junk frame interface, Handles sr junk clock fuel s events (.packet frame interface) →
        ¬ Padded sr frame interface := by
  constructor
  · intro independent junk frame interface handled padded
    exact sent_differ handled padded (independent _ _)
  · intro clean junk junk'
    exact sent_eq (run_lockstep (Alike.refl s rfl) (clean junk))

/-- An ARP request for 10.0.0.1, padded to the 60 bytes of a short Ethernet frame. -/
def paddedRequest : Bytes :=
  [255, 255, 255, 255, 255, 255, 2, 0, 0, 0, 0, 2, 8, 6,
    0, 1, 8, 0, 6, 4, 0, 1, 2, 0, 0, 0, 0, 2, 10, 0, 0, 2, 0, 0, 0, 0, 0, 0, 10, 0, 0, 1] ++
    List.replicate 18 0

/-- The padding of the reply is what the memory held. -/
theorem paddedRequest_not_independent :
    ¬ ∀ (sr : Instance) (clock : Nat → Int) (fuel : Nat) (s : State) (events : List Event)
      (junk junk' : Nat → Memory),
      sent (run sr junk clock fuel events s) = sent (run sr junk' clock fuel events s) := by
  intro all
  have same := all oneInterface (fun _ => 0) 0 State.init [.packet paddedRequest [101, 49]]
    (fun _ _ => 0) (fun _ _ => 1)
  revert same
  decide

end CompNet.Router
