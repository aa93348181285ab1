import CompNet.Router.Decisions

/-!
# The queue of requests

What every operation on the queue of ARP requests keeps: the requests are apart,
there is one for each address, and each of them holds packets of a kind.
-/

namespace CompNet.Router

open CompNet.Lib

structure WellQueued (ok : Packet → Prop) (s : State) : Prop where
  apart : s.Apart
  oneEach : (s.requests.map ArpReq.ip).Nodup
  nonempty : ∀ r ∈ s.requests, r.packets ≠ []
  packets : ∀ r ∈ s.requests, ∀ p ∈ r.packets, ok p

section

variable {ok : Packet → Prop} {s t : State} {ip : Ip} {frame : Bytes} {iface : IfName}

theorem WellQueued.eq (well : WellQueued ok s) {r q : ArpReq} (left : r ∈ s.requests)
    (right : q ∈ s.requests) (same : r.ip = q.ip) : r = q :=
  List.inj_on_of_nodup_map well.oneEach left right same

/-- A request is found by its address. -/
theorem WellQueued.find?_ip (well : WellQueued ok s) {r : ArpReq} (member : r ∈ s.requests) :
    s.requests.find? (fun q => q.ip == r.ip) = some r := by
  cases found : s.requests.find? fun q => q.ip == r.ip with
  | none =>
      have other := List.find?_eq_none.mp found r member
      simp at other
  | some q =>
      have same : q.ip = r.ip := by simpa using List.find?_some found
      rw [well.eq (List.mem_of_find?_eq_some found) member same]

theorem wellQueued_init : WellQueued ok State.init where
  apart := ⟨List.nodup_nil, fun _ member => absurd member List.not_mem_nil⟩
  oneEach := List.nodup_nil
  nonempty _ member := absurd member List.not_mem_nil
  packets _ member := absurd member List.not_mem_nil

/-- Only the queue matters. -/
theorem WellQueued.congr (well : WellQueued ok s) (requests : t.requests = s.requests)
    (nextId : t.nextId = s.nextId) : WellQueued ok t where
  apart := ⟨by rw [requests]; exact well.apart.nodup,
    by rw [requests, nextId]; exact well.apart.fresh⟩
  oneEach := by rw [requests]; exact well.oneEach
  nonempty := by rw [requests]; exact well.nonempty
  packets := by rw [requests]; exact well.packets

/-- The request behind a pointer is the one with its identity. -/
theorem deref_of_mem (apart : s.Apart) {r : ArpReq} (member : r ∈ s.requests) :
    deref r.id s = .ok r s := by
  rw [deref]
  cases found : s.requests.find? fun req => req.id == r.id with
  | none =>
      have other := List.find?_eq_none.mp found r member
      simp at other
  | some q =>
      have same : q.id = r.id := by simpa using List.find?_some found
      rw [apart.eq (List.mem_of_find?_eq_some found) member same]

theorem deref_eq_ok {id : Nat} {r : ArpReq} (returns : deref id s = .ok r t) :
    t = s ∧ r ∈ s.requests ∧ r.id = id := by
  rw [deref] at returns
  cases found : s.requests.find? fun req => req.id == id with
  | none =>
      rw [found] at returns
      cases returns
  | some q =>
      rw [found] at returns
      cases returns
      exact ⟨rfl, List.mem_of_find?_eq_some found, by simpa using List.find?_some found⟩

/-! ## Packets are added -/

theorem packets_addPacket {r : ArpReq} (some : frame ≠ []) :
    (r.addPacket frame iface).packets = ⟨frame, iface⟩ :: r.packets := by
  rw [ArpReq.addPacket, List.isEmpty_eq_false_iff.mpr some]
  rfl

@[simp] theorem addPacket_sent {r : ArpReq} : (r.addPacket frame iface).sent = r.sent := by
  rw [ArpReq.addPacket]
  split_ifs <;> rfl

@[simp] theorem addPacket_timesSent {r : ArpReq} :
    (r.addPacket frame iface).timesSent = r.timesSent := by
  rw [ArpReq.addPacket]
  split_ifs <;> rfl

/-- The state with a new request in front. -/
def State.ask (s : State) (ip : Ip) (p : Packet) : State :=
  { s with requests := ⟨s.nextId, ip, 0, 0, [p]⟩ :: s.requests, nextId := s.nextId + 1 }

/-- A packet goes to the request for its address, or to a new one. -/
theorem srArpcacheQueuereq_cases (s : State) (ip : Ip) (iface : IfName) (some : frame ≠ []) :
    (∃ r ∈ s.requests, r.ip = ip ∧
      srArpcacheQueuereq ip frame iface s =
        .ok r.id (s.update r.id (ArpReq.addPacket frame iface))) ∨
    (∀ r ∈ s.requests, r.ip ≠ ip) ∧
      srArpcacheQueuereq ip frame iface s = .ok s.nextId (s.ask ip ⟨frame, iface⟩) := by
  rw [srArpcacheQueuereq]
  cases found : s.requests.find? fun req => req.ip == ip with
  | some r =>
      exact .inl ⟨r, List.mem_of_find?_eq_some found, by simpa using List.find?_some found, rfl⟩
  | none =>
      refine .inr ⟨?_, ?_⟩
      · intro r member
        simpa using List.find?_eq_none.mp found r member
      · simp only [ArpReq.addPacket, List.isEmpty_eq_false_iff.mpr some]
        rfl

/-- A change of a request that leaves its address and keeps its packets in order. -/
theorem WellQueued.update (well : WellQueued ok s) (id : Nat) {change : ArpReq → ArpReq}
    (ids : ∀ r, (change r).id = r.id) (ips : ∀ r, (change r).ip = r.ip)
    (kept : ∀ r ∈ s.requests, r.id = id →
      (change r).packets ≠ [] ∧ ∀ p ∈ (change r).packets, ok p) :
    WellQueued ok (s.update id change) := by
  have each : ∀ r ∈ (s.update id change).requests, r.packets ≠ [] ∧ ∀ p ∈ r.packets, ok p := by
    intro r member
    obtain ⟨q, old, rfl⟩ := List.mem_map.mp member
    split_ifs with this
    · exact kept q old this
    · exact ⟨well.nonempty q old, well.packets q old⟩
  constructor
  case apart => exact well.apart.update id ids
  case oneEach =>
    have keys : (s.update id change).requests.map ArpReq.ip = s.requests.map ArpReq.ip := by
      rw [State.update, List.map_map]
      apply List.map_congr_left
      intro r _
      rw [Function.comp_apply]
      split_ifs
      · exact ips r
      · rfl
    rw [keys]
    exact well.oneEach
  case nonempty => exact fun r member => (each r member).1
  case packets => exact fun r member => (each r member).2

theorem WellQueued.addPacket (well : WellQueued ok s) (id : Nat) (some : frame ≠ [])
    (fits : ok ⟨frame, iface⟩) : WellQueued ok (s.update id (ArpReq.addPacket frame iface)) := by
  apply well.update id (ArpReq.addPacket_id frame iface) (ArpReq.addPacket_ip frame iface)
  intro r member _
  rw [packets_addPacket some]
  refine ⟨List.cons_ne_nil _ _, ?_⟩
  intro p here
  rcases List.mem_cons.mp here with rfl | old
  · exact fits
  · exact well.packets r member p old

theorem WellQueued.ask (well : WellQueued ok s) (none : ∀ r ∈ s.requests, r.ip ≠ ip) {p : Packet}
    (fits : ok p) : WellQueued ok (s.ask ip p) where
  apart := by
    constructor
    · rw [State.ask, List.map_cons, List.nodup_cons]
      refine ⟨?_, well.apart.nodup⟩
      intro member
      obtain ⟨r, old, same⟩ := List.mem_map.mp member
      exact Nat.ne_of_lt (well.apart.fresh r old) same
    · intro r member
      rcases List.mem_cons.mp member with rfl | old
      · exact Nat.lt_succ_self _
      · exact Nat.lt_succ_of_lt (well.apart.fresh r old)
  oneEach := by
    rw [State.ask, List.map_cons, List.nodup_cons]
    refine ⟨?_, well.oneEach⟩
    intro member
    obtain ⟨r, old, same⟩ := List.mem_map.mp member
    exact none r old same
  nonempty := by
    intro r member
    rcases List.mem_cons.mp member with rfl | old
    · exact List.cons_ne_nil _ _
    · exact well.nonempty r old
  packets := by
    intro r member
    rcases List.mem_cons.mp member with rfl | old
    · intro q here
      rw [List.mem_singleton.mp here]
      exact fits
    · exact well.packets r old

/-- Requests go. -/
theorem WellQueued.sublist (well : WellQueued ok s) (less : t.requests.Sublist s.requests)
    (nextId : t.nextId = s.nextId) : WellQueued ok t where
  apart := well.apart.sublist less nextId
  oneEach := well.oneEach.sublist (less.map ArpReq.ip)
  nonempty r member := well.nonempty r (less.subset member)
  packets r member := well.packets r (less.subset member)

/-- The first request for an address is the only one. -/
theorem eraseP_ip {requests : List ArpReq} (nodup : (requests.map ArpReq.ip).Nodup) (ip : Ip) :
    requests.eraseP (fun req => req.ip == ip) = requests.filter fun req => req.ip != ip := by
  induction requests with
  | nil => rfl
  | cons r rest ih =>
      rw [List.map_cons, List.nodup_cons] at nodup
      by_cases this : r.ip = ip
      · have others : ∀ q ∈ rest, (q.ip != ip) = true := by
          intro q member
          rw [bne_iff_ne]
          intro same
          exact nodup.1 (List.mem_map.mpr ⟨q, member, same.trans this.symm⟩)
        rw [List.eraseP_cons_of_pos (by simpa using this),
          List.filter_cons_of_neg (by simpa using this), List.filter_eq_self.mpr others]
      · rw [List.eraseP_cons_of_neg (by simpa using this),
          List.filter_cons_of_pos (by simpa using this), ih nodup.2]

end

end CompNet.Router
