import CompNet.Router.Requests
import Mathlib.Data.List.Chain

/-!
# Retries

`handle_arpreq` is entered by the sweep, by the packet handlers and, through the error
messages it sends, by itself, and each time it reads the clock anew.  The handlers are
written here once more with notes of what is done for which request: the ARP requests sent
and the packets refused.  Without the notes they are the handlers of `Handlers`
(`exec_erases`).

A request is sent again only if it has been sent less than five times, and what its notes
say is what its fields hold.  While the packets of a request are refused the calls below
may do anything to the other requests and add packets to this one, but they cannot send it
again: its count is full.  The invariant is therefore carried together with a set of
requests whose stamps are settled (`Discipline`).
-/

namespace CompNet.Router

open CompNet.Lib

/-! ## Handlers with notes -/

/-- What is noted. -/
inductive Note
  /-- An ARP request was sent for the request `id`, and its `sent` set to `stamp`. -/
  | asked (id : Nat) (stamp : Int)
  /-- `sr_send_icmp_host_unreachable` was called for a packet of the request `id`, by a
  `handle_arpreq` that had read the time `reading`. -/
  | refused (id : Nat) (reading : Int)
  deriving DecidableEq, Repr

structure Watched where
  state : State
  notes : List Note
  deriving DecidableEq, Repr

def Watched.init : Watched := ⟨State.init, []⟩

abbrev Noted := EStateM Fault Watched

/-- A command that notes nothing. -/
def onState {α : Type} (c : Cmd α) : Noted α :=
  onView Watched.state (fun t s => { s with state := t }) c

def note (n : Note) : Noted Unit := fun s => .ok () { s with notes := s.notes ++ [n] }

namespace Noted

section

variable (sr : Instance) (junk : Nat → Memory) (clock : Nat → Int)

/-- The end of a handler. -/
def perform (attend : Nat → Noted Unit) : Action → Noted Unit
  | .drop => pure ()
  | .send frame iface => onState (srSendPacket frame iface)
  | .queue ip frame iface => do
      let id ← onState (srArpcacheQueuereq ip frame iface)
      attend id
  | .learn mac ip => do
      let now ← onState (time clock)
      match ← onState (srArpcacheInsert now mac ip) with
      | none => pure ()
      | some req => req.packets.forM fun pkt => onState (flushPacket sr mac pkt)

/-- The call of `sr_send_icmp_host_unreachable` for one packet of a request. -/
def refusePacket (attend : Nat → Noted Unit) (id : Nat) (reading : Int) (pkt : Packet) :
    Noted Unit := do
  let _ ← onState (deref id)
  note (.refused id reading)
  let mem ← onState (malloc junk)
  let s ← onState get
  let action ← onState (ofExcept (srSendIcmpHostUnreachable sr s.entries mem pkt.buf pkt.iface))
  perform sr clock attend action

/-- The branch of `handle_arpreq` that sends the ARP request again. -/
def resend (now : Int) (req : ArpReq) : Noted Unit := do
  let pkt ← onState (ofExcept (ofPointer req.packets.head?))
  let iface ← onState (ofExcept (ofPointer (srGetInterface sr pkt.iface)))
  onState (srSendArpRequest junk req.ip iface)
  note (.asked req.id now)
  onState (modify fun s => s.update req.id fun req =>
    { req with sent := now, timesSent := req.timesSent + 1 })

/-- `handle_arpreq`. -/
def handleArpreq : Nat → Nat → Noted Unit
  | 0, _ => throw .outOfFuel
  | fuel + 1, id => do
      let now ← onState (time clock)
      let req ← onState (deref id)
      if now - req.sent > 1 then
        if 5 ≤ req.timesSent then do
          req.packets.forM (refusePacket sr junk clock (handleArpreq fuel) id now)
          onState (srArpreqDestroy id)
        else resend sr junk now req
      else pure ()

/-- The loop of `sr_arpcache_sweepreqs`. -/
def sweepLoop (attend : Nat → Noted Unit) : Nat → Option Nat → Noted Unit
  | _, none => pure ()
  | 0, some _ => throw .outOfFuel
  | turns + 1, some id => do
      let _ ← onState (deref id)
      let s ← onState get
      attend id
      sweepLoop attend turns (successor id s.requests)

/-- `sr_arpcache_sweepreqs`. -/
def srArpcacheSweepreqs (fuel : Nat) : Noted Unit := do
  let s ← onState get
  sweepLoop (handleArpreq sr junk clock fuel) s.requests.length (s.requests.head?.map ArpReq.id)

/-- `sr_handlepacket`. -/
def srHandlepacket (fuel : Nat) (packet : Bytes) (interface : IfName) : Noted Unit := do
  let mem ← onState (malloc junk)
  let s ← onState get
  let action ← onState (ofExcept (srHandlepacketAction sr s.entries mem packet interface))
  perform sr clock (handleArpreq sr junk clock fuel) action

/-- One turn of the loop of `sr_arpcache_timeout`. -/
def srArpcacheTimeout (fuel : Nat) : Noted Unit := do
  let curtime ← onState (time clock)
  onState (modify fun s => { s with entries := expireEntries curtime s.entries })
  srArpcacheSweepreqs sr junk clock fuel

end

end Noted

/-- An event, with notes. -/
def Event.noted (sr : Instance) (junk : Nat → Memory) (clock : Nat → Int) (fuel : Nat) :
    Event → Noted Unit
  | .packet frame interface => Noted.srHandlepacket sr junk clock fuel frame interface
  | .timeout => Noted.srArpcacheTimeout sr junk clock fuel

/-- A run with notes. -/
def notedRun (sr : Instance) (junk : Nat → Memory) (clock : Nat → Int) (fuel : Nat)
    (events : List Event) : Noted Unit :=
  events.forM (Event.noted sr junk clock fuel)

/-! ## The notes can be left out -/

section

variable {sr : Instance} {junk : Nat → Memory} {clock : Nat → Int} {α β : Type}

theorem erases_onState (c : Cmd α) : Erases Watched.state (onState c) c :=
  Erases.onView (fun _ _ => rfl) c

/-- A note leaves no trace. -/
theorem erases_note {n : Note} {f : Unit → Noted β} {c : Cmd β}
    (rest : Erases Watched.state (f ()) c) : Erases Watched.state (note n >>= f) c :=
  fun s => rest { s with notes := s.notes ++ [n] }

theorem perform_erases {attend : Nat → Noted Unit} {attend' : Nat → Cmd Unit}
    (same : ∀ id, Erases Watched.state (attend id) (attend' id)) (action : Action) :
    Erases Watched.state (Noted.perform sr clock attend action)
      (perform sr clock attend' action) := by
  cases action with
  | drop => exact Erases.pure ()
  | send frame iface => exact erases_onState _
  | queue ip frame iface => exact Erases.bind (erases_onState _) same
  | learn mac ip =>
      refine Erases.bind (erases_onState _) fun now => Erases.bind (erases_onState _) ?_
      intro found
      cases found with
      | none => exact Erases.pure ()
      | some req => exact Erases.forM (fun pkt => erases_onState _) req.packets

theorem refusePacket_erases {attend : Nat → Noted Unit} {attend' : Nat → Cmd Unit}
    (same : ∀ id, Erases Watched.state (attend id) (attend' id)) (id : Nat) (reading : Int)
    (pkt : Packet) :
    Erases Watched.state (Noted.refusePacket sr junk clock attend id reading pkt)
      (refusePacket sr junk clock attend' id pkt) :=
  Erases.bind (erases_onState _) fun _ => erases_note <| Erases.bind (erases_onState _) fun _ =>
    Erases.bind (erases_onState _) fun _ => Erases.bind (erases_onState _) fun action =>
      perform_erases same action

theorem handleArpreq_erases (fuel id : Nat) :
    Erases Watched.state (Noted.handleArpreq sr junk clock fuel id)
      (handleArpreq sr junk clock fuel id) := by
  induction fuel generalizing id with
  | zero => exact Erases.throw _
  | succ fuel ih =>
      refine Erases.bind (erases_onState _) fun now => Erases.bind (erases_onState _) ?_
      intro req
      split
      · split
        · exact Erases.bind (Erases.forM (fun pkt => refusePacket_erases ih id now pkt) _)
            fun _ => erases_onState _
        · exact Erases.bind (erases_onState _) fun _ => Erases.bind (erases_onState _) fun _ =>
            Erases.bind (erases_onState _) fun _ => erases_note (erases_onState _)
      · exact Erases.pure ()

theorem sweepLoop_erases (fuel turns : Nat) (at? : Option Nat) :
    Erases Watched.state
      (Noted.sweepLoop (Noted.handleArpreq sr junk clock fuel) turns at?)
      (sweepLoop (handleArpreq sr junk clock fuel) turns at?) := by
  induction turns generalizing at? with
  | zero =>
      cases at? with
      | none => exact Erases.pure ()
      | some id => exact Erases.throw _
  | succ turns ih =>
      cases at? with
      | none => exact Erases.pure ()
      | some id =>
          exact Erases.bind (erases_onState _) fun _ => Erases.bind (erases_onState _) fun s =>
            Erases.bind (handleArpreq_erases fuel id) fun _ => ih _

/-- Without its notes an event is that of the other model. -/
theorem exec_erases (fuel : Nat) (e : Event) :
    Erases Watched.state (e.noted sr junk clock fuel) (e.exec sr junk clock fuel) := by
  cases e with
  | packet frame interface =>
      exact Erases.bind (erases_onState _) fun _ => Erases.bind (erases_onState _) fun _ =>
        Erases.bind (erases_onState _) fun action =>
          perform_erases (fun id => handleArpreq_erases fuel id) action
  | timeout =>
      exact Erases.bind (erases_onState _) fun _ => Erases.bind (erases_onState _) fun _ =>
        Erases.bind (erases_onState _) fun _ => sweepLoop_erases fuel _ _

end

/-! ## The notes about a request -/

/-- The request that a note is about. -/
def Note.id : Note → Nat
  | .asked id _ => id
  | .refused id _ => id

def Note.stampOf (id : Nat) : Note → Option Int
  | .asked i stamp => if i = id then some stamp else none
  | .refused _ _ => none

/-- The stamps of the ARP requests that were sent for a request. -/
def stamps (id : Nat) (notes : List Note) : List Int := notes.filterMap (Note.stampOf id)

/-- Five ARP requests have been sent, the last of them more than a second before. -/
def Exhausted (stamps : List Int) (reading : Int) : Prop :=
  stamps.length = 5 ∧ ∃ fifth, stamps.getLast? = some fifth ∧ reading - fifth > 1

section

variable {id i : Nat} {notes : List Note} {stamp reading : Int}

theorem stamps_asked : stamps id (notes ++ [.asked id stamp]) = stamps id notes ++ [stamp] := by
  have here : Note.stampOf id (.asked id stamp) = some stamp := if_pos rfl
  rw [stamps, List.filterMap_append, List.filterMap_cons_some here]
  rfl

theorem stamps_asked_other (other : i ≠ id) :
    stamps id (notes ++ [.asked i stamp]) = stamps id notes := by
  have elsewhere : Note.stampOf id (.asked i stamp) = none := if_neg other
  rw [stamps, List.filterMap_append, List.filterMap_cons_none elsewhere]
  exact List.append_nil _

theorem stamps_refused : stamps id (notes ++ [.refused i reading]) = stamps id notes := by
  rw [stamps, List.filterMap_append]
  exact List.append_nil _

/-- A request that is new has no notes. -/
theorem stamps_fresh (fresh : ∀ n ∈ notes, n.id < id) : stamps id notes = [] := by
  rw [stamps, List.filterMap_eq_nil_iff]
  intro n member
  have less := fresh n member
  cases n with
  | asked j t => exact if_neg (Nat.ne_of_lt less)
  | refused j t => rfl

end

/-! ## The invariant -/

/-- What the notes say, and that they agree with the fields of the requests; the stamps of the
requests in `settled` are fixed. -/
structure Discipline (settled : Nat → List Int → Prop) (s : Watched) : Prop where
  apart : s.state.Apart
  noted : ∀ n ∈ s.notes, n.id < s.state.nextId
  count : ∀ r ∈ s.state.requests, r.timesSent = (stamps r.id s.notes).length
  last : ∀ r ∈ s.state.requests, ∀ stamp ∈ (stamps r.id s.notes).getLast?, r.sent = stamp
  atMost : ∀ id, (stamps id s.notes).length ≤ 5
  spaced : ∀ id, (stamps id s.notes).IsChain fun a b => b - a > 1
  exhausted : ∀ before id reading after, s.notes = before ++ .refused id reading :: after →
    Exhausted (stamps id before) reading
  settled : ∀ id fixed, settled id fixed → stamps id s.notes = fixed

section

variable {settled : Nat → List Int → Prop} {s t : Watched}

/-- Requests go. -/
theorem Discipline.sublist (kept : Discipline settled s) (notes : t.notes = s.notes)
    (less : t.state.requests.Sublist s.state.requests) (nextId : t.state.nextId = s.state.nextId) :
    Discipline settled t where
  apart := kept.apart.sublist less nextId
  noted := by rw [notes, nextId]; exact kept.noted
  count := by
    rw [notes]
    exact fun r member => kept.count r (less.subset member)
  last := by
    rw [notes]
    exact fun r member => kept.last r (less.subset member)
  atMost := by rw [notes]; exact kept.atMost
  spaced := by rw [notes]; exact kept.spaced
  exhausted := by rw [notes]; exact kept.exhausted
  settled := by rw [notes]; exact kept.settled

/-- Only the queue and the notes matter. -/
theorem Discipline.congr (kept : Discipline settled s) (notes : t.notes = s.notes)
    (requests : t.state.requests = s.state.requests) (nextId : t.state.nextId = s.state.nextId) :
    Discipline settled t :=
  kept.sublist notes (by rw [requests]) nextId

/-- A packet is added to a request. -/
theorem Discipline.addPacket (kept : Discipline settled s) (id : Nat) (frame : Bytes)
    (iface : IfName) :
    Discipline settled { s with state := s.state.update id (ArpReq.addPacket frame iface) } := by
  have old : ∀ r ∈ (s.state.update id (ArpReq.addPacket frame iface)).requests,
      ∃ q ∈ s.state.requests, q.id = r.id ∧ q.timesSent = r.timesSent ∧ q.sent = r.sent := by
    intro r member
    obtain ⟨q, here, rfl⟩ := List.mem_map.mp member
    refine ⟨q, here, ?_⟩
    split
    · exact ⟨by simp, by simp, by simp⟩
    · exact ⟨rfl, rfl, rfl⟩
  constructor
  case apart => exact kept.apart.update id (ArpReq.addPacket_id frame iface)
  case noted => exact kept.noted
  case count =>
    intro r member
    obtain ⟨q, here, ids, times, -⟩ := old r member
    rw [← ids, ← times]
    exact kept.count q here
  case last =>
    intro r member
    obtain ⟨q, here, ids, -, sent⟩ := old r member
    rw [← ids, ← sent]
    exact kept.last q here
  case atMost => exact kept.atMost
  case spaced => exact kept.spaced
  case exhausted => exact kept.exhausted
  case settled => exact kept.settled

/-- A new request is asked for. -/
theorem Discipline.new (kept : Discipline settled s) {r : ArpReq} (id : r.id = s.state.nextId)
    (times : r.timesSent = 0) :
    Discipline settled { s with
      state := { s.state with
        requests := r :: s.state.requests
        nextId := s.state.nextId + 1 } } := by
  have none : stamps r.id s.notes = [] := by
    rw [id]
    exact stamps_fresh kept.noted
  constructor
  case apart =>
    constructor
    · rw [List.map_cons, List.nodup_cons]
      refine ⟨?_, kept.apart.nodup⟩
      intro member
      obtain ⟨q, old, same⟩ := List.mem_map.mp member
      exact Nat.ne_of_lt (kept.apart.fresh q old) (same.trans id)
    · intro q member
      rcases List.mem_cons.mp member with rfl | old
      · rw [id]
        exact Nat.lt_succ_self _
      · exact Nat.lt_succ_of_lt (kept.apart.fresh q old)
  case noted => exact fun n member => Nat.lt_succ_of_lt (kept.noted n member)
  case count =>
    intro q member
    rcases List.mem_cons.mp member with rfl | old
    · rw [none, times]
      rfl
    · exact kept.count q old
  case last =>
    intro q member stamp here
    rcases List.mem_cons.mp member with rfl | old
    · rw [none] at here
      cases here
    · exact kept.last q old stamp here
  case atMost => exact kept.atMost
  case spaced => exact kept.spaced
  case exhausted => exact kept.exhausted
  case settled => exact kept.settled

/-- Where a note stands, if it is a refusal. -/
theorem refusal_cases {notes before after : List Note} {n : Note} {id : Nat} {reading : Int}
    (split : notes ++ [n] = before ++ .refused id reading :: after) :
    (before = notes ∧ n = .refused id reading) ∨
      ∃ after', notes = before ++ .refused id reading :: after' := by
  rcases List.eq_nil_or_concat after with rfl | ⟨after', last, rfl⟩
  · obtain ⟨same, here⟩ := List.append_inj' split rfl
    exact .inl ⟨same.symm, List.cons.inj here |>.1⟩
  · refine .inr ⟨after', ?_⟩
    rw [List.concat_eq_append, ← List.cons_append, ← List.append_assoc] at split
    exact (List.append_inj' split rfl).1

theorem Discipline.noted_snoc (kept : Discipline settled s) {n : Note}
    (known : n.id < s.state.nextId) : ∀ m ∈ s.notes ++ [n], m.id < s.state.nextId := by
  intro m member
  rcases List.mem_append.mp member with old | new
  · exact kept.noted m old
  · rw [List.mem_singleton.mp new]
    exact known

/-- A packet of a request with a full count is refused. -/
theorem Discipline.refuse (kept : Discipline settled s) {id : Nat} {reading : Int}
    (known : id < s.state.nextId) (done : Exhausted (stamps id s.notes) reading) :
    Discipline settled { s with notes := s.notes ++ [.refused id reading] } := by
  have same : ∀ i, stamps i (s.notes ++ [.refused id reading]) = stamps i s.notes :=
    fun i => stamps_refused
  constructor
  case apart => exact kept.apart
  case noted => exact kept.noted_snoc known
  case count =>
    intro r member
    rw [same]
    exact kept.count r member
  case last =>
    intro r member
    rw [same]
    exact kept.last r member
  case atMost =>
    intro i
    rw [same]
    exact kept.atMost i
  case spaced =>
    intro i
    rw [same]
    exact kept.spaced i
  case exhausted =>
    intro before i r after split
    rcases refusal_cases split with ⟨rfl, here⟩ | ⟨after', earlier⟩
    · cases here
      exact done
    · exact kept.exhausted before i r after' earlier
  case settled =>
    intro i fixed held
    rw [same]
    exact kept.settled i fixed held

/-- Other stamps are settled. -/
theorem Discipline.resettle (kept : Discipline settled s) {settled' : Nat → List Int → Prop}
    (holds : ∀ i fixed, settled' i fixed → stamps i s.notes = fixed) : Discipline settled' s where
  apart := kept.apart
  noted := kept.noted
  count := kept.count
  last := kept.last
  atMost := kept.atMost
  spaced := kept.spaced
  exhausted := kept.exhausted
  settled := holds

/-- The stamps of one more request are settled. -/
theorem Discipline.settle (kept : Discipline settled s) (id : Nat) :
    Discipline (fun i fixed => settled i fixed ∨ (i = id ∧ fixed = stamps id s.notes)) s := by
  apply kept.resettle
  intro i fixed held
  rcases held with before | ⟨rfl, rfl⟩
  · exact kept.settled i fixed before
  · rfl

/-- Fewer are. -/
theorem Discipline.weaken (kept : Discipline settled s) {settled' : Nat → List Int → Prop}
    (fewer : ∀ i fixed, settled' i fixed → settled i fixed) : Discipline settled' s :=
  kept.resettle fun i fixed held => kept.settled i fixed (fewer i fixed held)

/-- The notes of a request that `handle_arpreq` gives up. -/
theorem Discipline.exhausted_of_five (kept : Discipline settled s) {req : ArpReq}
    (member : req ∈ s.state.requests) (five : 5 ≤ req.timesSent) {now : Int}
    (late : now - req.sent > 1) : Exhausted (stamps req.id s.notes) now := by
  have count := kept.count req member
  have atMost := kept.atMost req.id
  have length : (stamps req.id s.notes).length = 5 := by omega
  have nonempty : stamps req.id s.notes ≠ [] := List.ne_nil_of_length_pos (by omega)
  obtain ⟨fifth, final⟩ := Option.isSome_iff_exists.mp (List.getLast?_isSome.mpr nonempty)
  refine ⟨length, fifth, final, ?_⟩
  rw [← kept.last req member fifth final]
  exact late

/-- A request of the new queue is `req` with its fields moved, or an old one. -/
theorem Discipline.asked_cases (kept : Discipline settled s) {req r : ArpReq}
    (member : req ∈ s.state.requests) {now : Int}
    (here : r ∈ (s.state.update req.id fun r =>
      { r with sent := now, timesSent := r.timesSent + 1 }).requests) :
    (r.id = req.id ∧ r.timesSent = req.timesSent + 1 ∧ r.sent = now) ∨
      (req.id ≠ r.id ∧ r ∈ s.state.requests) := by
  obtain ⟨q, before, rfl⟩ := List.mem_map.mp here
  split
  · next same =>
      rw [kept.apart.eq before member same]
      exact .inl ⟨rfl, rfl, rfl⟩
  · next other => exact .inr ⟨fun same => other same.symm, before⟩

/-- An ARP request is sent for a request whose count is not full. -/
theorem Discipline.ask (kept : Discipline settled s)
    (full : ∀ id fixed, settled id fixed → fixed.length = 5) {req : ArpReq}
    (member : req ∈ s.state.requests) (young : req.timesSent < 5) {now : Int}
    (late : now - req.sent > 1) :
    Discipline settled { s with
      state := s.state.update req.id fun r => { r with sent := now, timesSent := r.timesSent + 1 }
      notes := s.notes ++ [.asked req.id now] } := by
  have mine : stamps req.id (s.notes ++ [.asked req.id now]) = stamps req.id s.notes ++ [now] :=
    stamps_asked
  have others : ∀ i, req.id ≠ i → stamps i (s.notes ++ [.asked req.id now]) = stamps i s.notes :=
    fun i other => stamps_asked_other other
  have less : (stamps req.id s.notes).length < 5 := by
    rw [← kept.count req member]
    exact young
  constructor
  case apart => exact kept.apart.update req.id fun _ => rfl
  case noted => exact kept.noted_snoc (kept.apart.fresh req member)
  case count =>
    intro r here
    rcases kept.asked_cases member here with ⟨id, times, -⟩ | ⟨other, before⟩
    · rw [id, times, mine, List.length_append, List.length_singleton, kept.count req member]
    · rw [others r.id other]
      exact kept.count r before
  case last =>
    intro r here stamp final
    rcases kept.asked_cases member here with ⟨id, -, sent⟩ | ⟨other, before⟩
    · rw [id, mine, List.getLast?_concat] at final
      rw [sent]
      exact Option.some.inj final
    · rw [others r.id other] at final
      exact kept.last r before stamp final
  case atMost =>
    intro i
    by_cases same : req.id = i
    · rw [← same, mine, List.length_append, List.length_singleton]
      omega
    · rw [others i same]
      exact kept.atMost i
  case spaced =>
    intro i
    by_cases same : req.id = i
    · rw [← same, mine]
      refine (kept.spaced req.id).append (List.IsChain.singleton now) ?_
      intro stamp final next here
      rw [← Option.some.inj here, ← kept.last req member stamp final]
      exact late
    · rw [others i same]
      exact kept.spaced i
  case exhausted =>
    intro before i reading after split
    rcases refusal_cases split with ⟨-, here⟩ | ⟨after', earlier⟩
    · cases here
    · exact kept.exhausted before i reading after' earlier
  case settled =>
    intro i fixed held
    by_cases same : req.id = i
    · -- the count of a settled request is full
      have length := full i fixed held
      rw [← kept.settled i fixed held, ← same] at length
      omega
    · rw [others i same]
      exact kept.settled i fixed held

end

/-! ## Every handler keeps it -/

/-- A command that leaves the queue alone. -/
def Quiet {α : Type} (c : Cmd α) : Prop :=
  ∀ s a t, c s = .ok a t → t.requests = s.requests ∧ t.nextId = s.nextId

section

variable {α β : Type} {c : Cmd α} {f : α → Cmd β}

theorem Quiet.bind (first : Quiet c) (second : ∀ a, Quiet (f a)) : Quiet (c >>= f) := by
  intro s b t returns
  obtain ⟨a, u, left, right⟩ := bind_eq_ok.mp returns
  obtain ⟨requests, nextId⟩ := first s a u left
  obtain ⟨requests', nextId'⟩ := second a u b t right
  exact ⟨requests'.trans requests, nextId'.trans nextId⟩

theorem quiet_ofExcept (e : Except Fault α) : Quiet (ofExcept e) := by
  intro s a t returns
  cases e with
  | ok b =>
      cases returns
      exact ⟨rfl, rfl⟩
  | error fault => cases returns

theorem quiet_malloc (junk : Nat → Memory) : Quiet (malloc junk) := by
  intro s a t returns
  cases returns
  exact ⟨rfl, rfl⟩

theorem quiet_time (clock : Nat → Int) : Quiet (time clock) := by
  intro s a t returns
  cases returns
  exact ⟨rfl, rfl⟩

theorem quiet_get : Quiet (get : Cmd State) := by
  intro s a t returns
  cases returns
  exact ⟨rfl, rfl⟩

theorem quiet_srSendPacket (frame : Bytes) (iface : IfName) : Quiet (srSendPacket frame iface) := by
  intro s a t returns
  cases returns
  exact ⟨rfl, rfl⟩

theorem quiet_deref (id : Nat) : Quiet (deref id) := by
  intro s a t returns
  rw [(deref_eq_ok returns).1]
  exact ⟨rfl, rfl⟩

theorem quiet_flushPacket (sr : Instance) (mac : Mac) (pkt : Packet) :
    Quiet (flushPacket sr mac pkt) :=
  (quiet_ofExcept _).bind fun _ => (quiet_ofExcept _).bind fun _ => (quiet_ofExcept _).bind fun _ =>
    quiet_srSendPacket _ _

theorem quiet_srSendArpRequest (junk : Nat → Memory) (tip : Ip) (iface : Interface) :
    Quiet (srSendArpRequest junk tip iface) :=
  (quiet_malloc junk).bind fun _ => quiet_srSendPacket _ _

end

section

variable {settled : Nat → List Int → Prop} {sr : Instance} {junk : Nat → Memory}
  {clock : Nat → Int} {α : Type} {c : Cmd α}

theorem Quiet.keeps (quiet : Quiet c) :
    Triple (Discipline settled) (onState c) fun _ => Discipline settled := by
  intro s a t kept returns
  obtain ⟨u, ran, rfl⟩ := onView_eq_ok returns
  obtain ⟨requests, nextId⟩ := quiet _ _ _ ran
  exact kept.congr rfl requests nextId

theorem srArpcacheQueuereq_disciplined (ip : Ip) (frame : Bytes) (iface : IfName) :
    Triple (Discipline settled) (onState (srArpcacheQueuereq ip frame iface))
      fun _ => Discipline settled := by
  intro s id t kept returns
  obtain ⟨u, ran, rfl⟩ := onView_eq_ok returns
  rw [srArpcacheQueuereq] at ran
  split at ran
  · cases ran
    exact kept.addPacket _ frame iface
  · cases ran
    exact kept.new (by simp) (by simp)

theorem perform_disciplined {attend : Nat → Noted Unit}
    (handler : ∀ id, Triple (Discipline settled) (attend id) fun _ => Discipline settled)
    (action : Action) :
    Triple (Discipline settled) (Noted.perform sr clock attend action)
      fun _ => Discipline settled := by
  cases action with
  | drop => exact Triple.pure (Q := fun _ => Discipline settled) ()
  | send frame iface => exact (quiet_srSendPacket frame iface).keeps
  | queue ip frame iface =>
      exact Triple.bind (srArpcacheQueuereq_disciplined ip frame iface) handler
  | learn mac ip =>
      refine Triple.bind (quiet_time clock).keeps fun now =>
        Triple.bind (Q := fun _ => Discipline settled) ?_ ?_
      · intro s found t kept returns
        obtain ⟨u, ran, rfl⟩ := onView_eq_ok returns
        cases ran
        exact kept.sublist rfl List.eraseP_sublist rfl
      · intro found
        cases found with
        | none => exact Triple.pure (Q := fun _ => Discipline settled) ()
        | some req => exact Triple.forM fun pkt _ => (quiet_flushPacket sr mac pkt).keeps

/-- What a pointer to a live request gives. -/
theorem onState_deref_eq_ok {id : Nat} {req : ArpReq} {s t : Watched}
    (returns : onState (deref id) s = .ok req t) :
    t = s ∧ req ∈ s.state.requests ∧ req.id = id := by
  obtain ⟨u, ran, rfl⟩ := onView_eq_ok returns
  obtain ⟨rfl, member, same⟩ := deref_eq_ok ran
  exact ⟨rfl, member, same⟩

/-- A packet is refused while the stamps of its request are settled. -/
theorem refusePacket_disciplined {attend : Nat → Noted Unit}
    (handler : ∀ id, Triple (Discipline settled) (attend id) fun _ => Discipline settled)
    {id : Nat} {fixed : List Int} {reading : Int} (held : settled id fixed)
    (done : Exhausted fixed reading) (pkt : Packet) :
    Triple (Discipline settled) (Noted.refusePacket sr junk clock attend id reading pkt)
      fun _ => Discipline settled := by
  refine Triple.bind (Q := fun _ s => Discipline settled s ∧ id < s.state.nextId) ?_ fun _ =>
    Triple.bind (Q := fun _ => Discipline settled) ?_ fun _ =>
      Triple.bind (quiet_malloc junk).keeps fun _ => Triple.bind quiet_get.keeps fun _ =>
        Triple.bind (quiet_ofExcept _).keeps fun action => perform_disciplined handler action
  · intro s req t kept returns
    obtain ⟨rfl, member, rfl⟩ := onState_deref_eq_ok returns
    exact ⟨kept, kept.apart.fresh req member⟩
  · intro s _ t given returns
    obtain ⟨kept, known⟩ := given
    cases returns
    refine kept.refuse known ?_
    rw [kept.settled id fixed held]
    exact done

theorem resend_disciplined (full : ∀ id fixed, settled id fixed → fixed.length = 5) {now : Int}
    {req : ArpReq} {s t : Watched} (kept : Discipline settled s)
    (member : req ∈ s.state.requests) (young : req.timesSent < 5) (late : now - req.sent > 1)
    (returns : Noted.resend sr junk now req s = .ok () t) : Discipline settled t := by
  -- up to the note the commands are quiet, so the request is still there
  have quiet : ∀ {β : Type} {d : Cmd β} {v w : Watched} {b : β}, Quiet d →
      Discipline settled v ∧ req ∈ v.state.requests → onState d v = .ok b w →
      Discipline settled w ∧ req ∈ w.state.requests := by
    intro β d v w b quiet given ran
    obtain ⟨u, left, rfl⟩ := onView_eq_ok ran
    obtain ⟨requests, nextId⟩ := quiet _ _ _ left
    refine ⟨given.1.congr rfl requests nextId, ?_⟩
    show req ∈ u.requests
    rw [requests]
    exact given.2
  unfold Noted.resend at returns
  obtain ⟨pkt, s₁, first, returns⟩ := bind_eq_ok.mp returns
  have given := quiet (quiet_ofExcept _) ⟨kept, member⟩ first
  obtain ⟨iface, s₂, second, returns⟩ := bind_eq_ok.mp returns
  have given := quiet (quiet_ofExcept _) given second
  obtain ⟨_, s₃, third, returns⟩ := bind_eq_ok.mp returns
  have given := quiet (quiet_srSendArpRequest junk req.ip iface) given third
  obtain ⟨_, s₄, noted, returns⟩ := bind_eq_ok.mp returns
  cases noted
  cases returns
  exact given.1.ask full given.2 young late

/-- The count of a request that is given up is full, and stays so while its packets are
refused. -/
theorem handleArpreq_disciplined (fuel : Nat) :
    ∀ {settled : Nat → List Int → Prop}, (∀ id fixed, settled id fixed → fixed.length = 5) →
    ∀ id, Triple (Discipline settled) (Noted.handleArpreq sr junk clock fuel id)
      fun _ => Discipline settled := by
  induction fuel with
  | zero =>
      intro settled full id
      exact Triple.throw _
  | succ fuel ih =>
      intro settled full id s _ t kept returns
      unfold Noted.handleArpreq at returns
      obtain ⟨now, s₁, read, behind⟩ := bind_eq_ok.mp returns
      have kept₁ := (quiet_time clock).keeps s now s₁ kept read
      obtain ⟨req, s₂, live, branches⟩ := bind_eq_ok.mp behind
      obtain ⟨rfl, member, rfl⟩ := onState_deref_eq_ok live
      split at branches
      · next late =>
          split at branches
          · next five =>
              have done := kept₁.exhausted_of_five member five late
              have full' : ∀ i fixed,
                  settled i fixed ∨ (i = req.id ∧ fixed = stamps req.id s₂.notes) →
                  fixed.length = 5 := by
                intro i fixed held
                rcases held with before | ⟨-, rfl⟩
                · exact full i fixed before
                · exact done.1
              obtain ⟨_, s₃, loop, final⟩ := bind_eq_ok.mp branches
              have kept₃ := Triple.forM (fun pkt _ => refusePacket_disciplined (ih full')
                (.inr ⟨rfl, rfl⟩) done pkt) s₂ _ s₃ (kept₁.settle req.id) loop
              have kept₃ : Discipline settled s₃ := kept₃.weaken fun _ _ held => .inl held
              obtain ⟨u, destroyed, rfl⟩ := onView_eq_ok final
              obtain ⟨r, v, still, gone⟩ := bind_eq_ok.mp destroyed
              obtain ⟨rfl, -, -⟩ := deref_eq_ok still
              cases gone
              exact kept₃.sublist rfl List.filter_sublist rfl
          · next young =>
              exact resend_disciplined full kept₁ member (by omega) late branches
      · cases branches
        exact kept₁

theorem sweepLoop_disciplined {attend : Nat → Noted Unit}
    (handler : ∀ id, Triple (Discipline settled) (attend id) fun _ => Discipline settled)
    (turns : Nat) (at? : Option Nat) :
    Triple (Discipline settled) (Noted.sweepLoop attend turns at?) fun _ => Discipline settled := by
  induction turns generalizing at? with
  | zero =>
      cases at? with
      | none => exact Triple.pure (Q := fun _ => Discipline settled) ()
      | some id => exact Triple.throw _
  | succ turns ih =>
      cases at? with
      | none => exact Triple.pure (Q := fun _ => Discipline settled) ()
      | some id =>
          exact Triple.bind (quiet_deref id).keeps fun _ => Triple.bind quiet_get.keeps fun _ =>
            Triple.bind (handler id) fun _ => ih _

theorem noted_disciplined (full : ∀ id fixed, settled id fixed → fixed.length = 5) (fuel : Nat)
    (e : Event) :
    Triple (Discipline settled) (e.noted sr junk clock fuel) fun _ => Discipline settled := by
  have handler : ∀ id, Triple (Discipline settled) (Noted.handleArpreq sr junk clock fuel id)
      fun _ => Discipline settled := handleArpreq_disciplined fuel full
  cases e with
  | packet frame interface =>
      exact Triple.bind (quiet_malloc junk).keeps fun _ => Triple.bind quiet_get.keeps fun _ =>
        Triple.bind (quiet_ofExcept _).keeps fun action => perform_disciplined handler action
  | timeout =>
      refine Triple.bind (quiet_time clock).keeps fun curtime =>
        Triple.bind (Quiet.keeps ?_) fun _ =>
          Triple.bind quiet_get.keeps fun _ => sweepLoop_disciplined handler _ _
      intro s _ t returns
      cases returns
      exact ⟨rfl, rfl⟩

end

theorem discipline_init : Discipline (fun _ _ => False) Watched.init where
  apart := ⟨List.nodup_nil, fun _ member => absurd member List.not_mem_nil⟩
  noted _ member := absurd member List.not_mem_nil
  count _ member := absurd member List.not_mem_nil
  last _ member := absurd member List.not_mem_nil
  atMost _ := Nat.zero_le 5
  spaced _ := List.IsChain.nil
  exhausted before id reading after split := by
    have length := congrArg List.length split
    rw [List.length_append, List.length_cons] at length
    cases length
  settled _ _ held := held.elim

/-- Whatever arrives and whatever the clock shows, as long as the calls return: at most five ARP
requests are sent for a request, more than a second apart, `times_sent` counts them, and its
packets are refused only when all five have been sent and more than a second has passed. -/
theorem arp_retry_discipline (sr : Instance) (junk : Nat → Memory) (clock : Nat → Int) (fuel : Nat)
    (events : List Event) (s : Watched)
    (returns : notedRun sr junk clock fuel events Watched.init = .ok () s) :
    (∀ id, (stamps id s.notes).length ≤ 5 ∧
        (stamps id s.notes).IsChain fun earlier later => later - earlier > 1) ∧
      (∀ r ∈ s.state.requests, r.timesSent = (stamps r.id s.notes).length ∧ r.timesSent ≤ 5) ∧
      ∀ before id reading after, s.notes = before ++ .refused id reading :: after →
        Exhausted (stamps id before) reading := by
  have kept : Discipline (fun _ _ => False) s :=
    Triple.forM (fun e _ => noted_disciplined (fun _ _ held => held.elim) fuel e) _ _ s
      discipline_init returns
  refine ⟨fun id => ⟨kept.atMost id, kept.spaced id⟩, ?_, kept.exhausted⟩
  intro r member
  have count := kept.count r member
  refine ⟨count, ?_⟩
  rw [count]
  exact kept.atMost r.id

/-- A router that knows the way to 10.0.0.9 only, through 10.0.0.2. -/
def oneRoute : Instance :=
  { oneInterface with routingTable := [⟨0x0900000a, 0x0200000a, 0xffffffff, [101, 49]⟩] }

/-- A packet from 10.0.0.7 to 10.0.0.9 arrives, and no ARP reply. -/
def unanswered : List Event :=
  .packet [2, 0, 0, 0, 0, 1, 2, 0, 0, 0, 0, 7, 8, 0,
    0x45, 0, 0, 20, 0, 0, 0, 0, 64, 17, 0x66, 0xca, 10, 0, 0, 7, 10, 0, 0, 9] [101, 49] ::
    List.replicate 5 .timeout

/-- The notes of a run that returns. -/
def notesOf : EStateM.Result Fault Watched Unit → Option (List Note)
  | .ok _ s => some s.notes
  | .error _ _ => none

theorem exists_of_notesOf {r : EStateM.Result Fault Watched Unit} {notes : List Note}
    (ended : notesOf r = some notes) : ∃ s, r = .ok () s ∧ s.notes = notes := by
  cases r with
  | ok a s => exact ⟨s, rfl, Option.some.inj ended⟩
  | error e s => cases ended

/-- Five requests are sent, and then the packet is refused. -/
theorem arp_retry_discipline_unanswered :
    ∃ s, notedRun oneRoute (fun _ _ => 0) (fun n => 2 * n + 2) 1 unanswered Watched.init =
        .ok () s ∧
      stamps 0 s.notes = [2, 6, 10, 14, 18] ∧ Exhausted (stamps 0 s.notes) 22 := by
  have ended : notesOf (notedRun oneRoute (fun _ _ => 0) (fun n => 2 * n + 2) 1 unanswered
      Watched.init) =
      some [.asked 0 2, .asked 0 6, .asked 0 10, .asked 0 14, .asked 0 18, .refused 0 22] := by
    decide +kernel
  obtain ⟨s, returns, notes⟩ := exists_of_notesOf ended
  have refused := (arp_retry_discipline oneRoute _ _ 1 unanswered s returns).2.2
    [.asked 0 2, .asked 0 6, .asked 0 10, .asked 0 14, .asked 0 18] 0 22 [] notes
  exact ⟨s, returns, by rw [notes]; rfl, by rw [notes]; exact refused⟩

end CompNet.Router
