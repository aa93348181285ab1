import CompNet.Router.Frame
import Mathlib.Data.List.Nodup

/-!
# The router's tables

The interface list and the routing table do not change.  The ARP cache and the
queue of pending ARP requests do, and so does the log of the frames that were
handed to `sr_send_packet`, kept here because the results are about it, and the
numbers of blocks allocated and of readings of the clock.  A request carries the
identity of its memory block, so that a pointer to a request that has been
destroyed can be told from a pointer to a live one.
-/

namespace CompNet.Router

abbrev IfName := Bytes

/-- `struct sr_if`. -/
structure Interface where
  name : IfName
  addr : Mac
  ip : Ip
  deriving DecidableEq, Repr

/-- `struct sr_rt`. -/
structure Route where
  dest : Ip
  gw : Ip
  mask : Ip
  interface : IfName
  deriving DecidableEq, Repr

/-- The part of `struct sr_instance` that stays as it is. -/
structure Instance where
  ifList : List Interface
  routingTable : List Route

/-- A router with one interface, 10.0.0.1, and a default route through it. -/
def oneInterface : Instance where
  ifList := [⟨[101, 49], ⟨2, 0, 0, 0, 0, 1⟩, 0x0100000a⟩]
  routingTable := [⟨0, 0x0200000a, 0, [101, 49]⟩]

/-- `sr_get_interface`. -/
def srGetInterface (sr : Instance) (name : IfName) : Option Interface :=
  sr.ifList.find? fun iface => iface.name == name

/-- `sr_ether_addrs_match_interface`. -/
def srEtherAddrsMatchInterface (sr : Instance) (buf : Bytes) (name : IfName) : Bool :=
  match srGetInterface sr name with
  | none => false
  | some iface => field buf 6 6 == macBytes iface.addr

theorem srGetInterface_name {sr : Instance} {name : IfName} {iface : Interface}
    (found : srGetInterface sr name = some iface) : iface.name = name := by
  have here := List.find?_some found
  simpa using here

/-- One step of the walk: among routes with equal masks the last one wins. -/
def longerMatch (ip : Ip) (best : Option Route × Ip) (rt : Route) : Option Route × Ip :=
  if ip &&& rt.mask = rt.dest &&& rt.mask ∧ best.2 ≤ rt.mask then (some rt, rt.mask) else best

/-- `sr_get_longest_prefix_match`. -/
def srGetLongestPrefixMatch (sr : Instance) (ip : Ip) : Option Route :=
  (sr.routingTable.foldl (longerMatch ip) (none, 0)).1

/-! ## The ARP cache -/

/-- `struct sr_arpentry`. -/
structure ArpEntry where
  mac : Mac
  ip : Ip
  added : Int
  valid : Bool
  deriving DecidableEq, Repr

/-- `sr_arpcache_lookup`: the last of the valid entries for the address. -/
def srArpcacheLookup (entries : List ArpEntry) (ip : Ip) : Option Mac :=
  (entries.foldl (fun found e => if e.valid ∧ e.ip = ip then some e else found) none).map
    ArpEntry.mac

/-- The slot `sr_arpcache_insert` takes is the first one that is not valid; in a full
table the mapping is dropped. -/
def insertEntry (new : ArpEntry) : List ArpEntry → List ArpEntry
  | [] => []
  | e :: rest => if e.valid then e :: insertEntry new rest else new :: rest

/-- The part of `sr_arpcache_timeout` about the entries: `SR_ARPCACHE_TO` is 15. -/
def expireEntries (now : Int) (entries : List ArpEntry) : List ArpEntry :=
  entries.map fun e => if e.valid ∧ now - e.added > 15 then { e with valid := false } else e

/-- What a lookup finds is in the table. -/
theorem srArpcacheLookup_mem {entries : List ArpEntry} {ip : Ip} {mac : Mac}
    (found : srArpcacheLookup entries ip = some mac) :
    ∃ e ∈ entries, e.valid = true ∧ e.ip = ip ∧ e.mac = mac := by
  have walk : ∀ (es : List ArpEntry) (start : Option ArpEntry) (e : ArpEntry),
      es.foldl (fun found e => if e.valid ∧ e.ip = ip then some e else found) start = some e →
      start = some e ∨ (e ∈ es ∧ e.valid = true ∧ e.ip = ip) := by
    intro es
    induction es with
    | nil => exact fun start e last => .inl last
    | cons d es ih =>
        intro start e last
        rcases ih _ e last with now | ⟨member, later⟩
        · dsimp only at now
          split at now
          · next fits =>
              cases now
              exact .inr ⟨List.mem_cons_self, fits⟩
          · exact .inl now
        · exact .inr ⟨List.mem_cons_of_mem d member, later⟩
  obtain ⟨e, last, rfl⟩ := Option.map_eq_some_iff.mp found
  rcases walk entries none e last with none | ⟨member, valid, same⟩
  · cases none
  · exact ⟨e, member, valid, same, rfl⟩

/-! ## The request queue -/

/-- `struct sr_packet`. -/
structure Packet where
  buf : Bytes
  iface : IfName
  deriving DecidableEq, Repr

/-- `struct sr_arpreq`. -/
structure ArpReq where
  id : Nat
  ip : Ip
  sent : Int
  timesSent : Nat
  packets : List Packet
  deriving DecidableEq, Repr

/-- A call of `sr_send_packet`. -/
structure Emission where
  frame : Bytes
  iface : IfName
  deriving DecidableEq, Repr

structure State where
  entries : List ArpEntry
  requests : List ArpReq
  nextId : Nat
  mallocs : Nat
  readings : Nat
  log : List Emission
  deriving DecidableEq, Repr

/-- `SR_ARPCACHE_SZ`. -/
def arpcacheSize : Nat := 100

/-- The state that `sr_arpcache_init` sets up. -/
def State.init : State where
  entries := List.replicate arpcacheSize ⟨⟨0, 0, 0, 0, 0, 0⟩, 0, 0, false⟩
  requests := []
  nextId := 0
  mallocs := 0
  readings := 0
  log := []

/-- The memory blocks of the requests are apart, and `nextId` is none of them. -/
structure State.Apart (s : State) : Prop where
  nodup : (s.requests.map ArpReq.id).Nodup
  fresh : ∀ r ∈ s.requests, r.id < s.nextId

/-- What is behind a pointer is one request. -/
theorem State.Apart.eq {s : State} (apart : s.Apart) {r q : ArpReq} (left : r ∈ s.requests)
    (right : q ∈ s.requests) (same : r.id = q.id) : r = q :=
  List.inj_on_of_nodup_map apart.nodup left right same

abbrev Cmd := EStateM Fault State

/-- A pure part of a handler. -/
def ofExcept {α : Type} : Except Fault α → Cmd α
  | .ok a => pure a
  | .error fault => throw fault

/-- A `NULL` that is used as a pointer. -/
def ofPointer {α : Type} : Option α → Except Fault α
  | some a => .ok a
  | none => .error .nullPointer

/-- `malloc`: what the block holds is not known. -/
def malloc (junk : Nat → Memory) : Cmd Memory := fun s =>
  .ok (junk s.mallocs) { s with mallocs := s.mallocs + 1 }

/-- `time(NULL)`: any reading of the clock may give any value. -/
def time (clock : Nat → Int) : Cmd Int := fun s =>
  .ok (clock s.readings) { s with readings := s.readings + 1 }

/-- The state after a reading of the clock. -/
def State.ticked (s : State) : State := { s with readings := s.readings + 1 }

theorem time_eq (clock : Nat → Int) (s : State) : time clock s = .ok (clock s.readings) s.ticked :=
  rfl

theorem State.Apart.ticked {s : State} (apart : s.Apart) : s.ticked.Apart :=
  ⟨apart.nodup, apart.fresh⟩

/-- The request behind a pointer. -/
def deref (id : Nat) : Cmd ArpReq := fun s =>
  match s.requests.find? (fun req => req.id == id) with
  | some req => .ok req s
  | none => .error .useAfterFree s

/-- `sr_send_packet`, as far as its callers see it. -/
def srSendPacket (frame : Bytes) (iface : IfName) : Cmd Unit := fun s =>
  .ok () { s with log := s.log ++ [⟨frame, iface⟩] }

/-- Changes to the request with an identity. -/
def State.update (s : State) (id : Nat) (change : ArpReq → ArpReq) : State :=
  { s with requests := s.requests.map fun req => if req.id = id then change req else req }

theorem State.update_ids (s : State) (id : Nat) {change : ArpReq → ArpReq}
    (keeps : ∀ r, (change r).id = r.id) :
    (s.update id change).requests.map ArpReq.id = s.requests.map ArpReq.id := by
  rw [State.update, List.map_map]
  apply List.map_congr_left
  intro r _
  rw [Function.comp_apply]
  split_ifs
  · exact keeps r
  · rfl

theorem State.Apart.update {s : State} (apart : s.Apart) (id : Nat) {change : ArpReq → ArpReq}
    (keeps : ∀ r, (change r).id = r.id) : (s.update id change).Apart := by
  have ids := s.update_ids id keeps
  constructor
  case nodup => rw [ids]; exact apart.nodup
  case fresh =>
    intro r member
    have known : r.id ∈ s.requests.map ArpReq.id := by
      rw [← ids]
      exact List.mem_map_of_mem member
    obtain ⟨q, old, same⟩ := List.mem_map.mp known
    rw [← same]
    exact apart.fresh q old

/-- The packet that `sr_arpcache_queuereq` puts in front; one without bytes is not
queued. -/
def ArpReq.addPacket (frame : Bytes) (iface : IfName) (req : ArpReq) : ArpReq :=
  if frame.isEmpty then req else { req with packets := ⟨frame, iface⟩ :: req.packets }

@[simp] theorem ArpReq.addPacket_id (frame : Bytes) (iface : IfName) (req : ArpReq) :
    (req.addPacket frame iface).id = req.id := by
  rw [ArpReq.addPacket]
  split_ifs <;> rfl

@[simp] theorem ArpReq.addPacket_ip (frame : Bytes) (iface : IfName) (req : ArpReq) :
    (req.addPacket frame iface).ip = req.ip := by
  rw [ArpReq.addPacket]
  split_ifs <;> rfl

/-- `sr_arpcache_queuereq`: a request for a new address is put in front. -/
def srArpcacheQueuereq (ip : Ip) (frame : Bytes) (iface : IfName) : Cmd Nat := fun s =>
  match s.requests.find? (fun req => req.ip == ip) with
  | some req => .ok req.id (s.update req.id (ArpReq.addPacket frame iface))
  | none =>
      .ok s.nextId
        { s with
          requests := ArpReq.addPacket frame iface ⟨s.nextId, ip, 0, 0, []⟩ :: s.requests
          nextId := s.nextId + 1 }

theorem State.Apart.queue {s t : State} (apart : s.Apart) {ip : Ip} {frame : Bytes}
    {iface : IfName} {id : Nat} (returns : srArpcacheQueuereq ip frame iface s = .ok id t) :
    t.Apart := by
  rw [srArpcacheQueuereq] at returns
  cases found : s.requests.find? fun req => req.ip == ip with
  | some req =>
      rw [found] at returns
      cases returns
      exact apart.update _ (ArpReq.addPacket_id frame iface)
  | none =>
      rw [found] at returns
      cases returns
      constructor
      case nodup =>
        rw [List.map_cons, ArpReq.addPacket_id, List.nodup_cons]
        refine ⟨?_, apart.nodup⟩
        intro member
        obtain ⟨r, old, same⟩ := List.mem_map.mp member
        exact Nat.ne_of_lt (apart.fresh r old) same
      case fresh =>
        intro r member
        rcases List.mem_cons.mp member with rfl | old
        · rw [ArpReq.addPacket_id]
          exact Nat.lt_succ_self _
        · exact Nat.lt_succ_of_lt (apart.fresh r old)

/-- Requests that go leave the others apart. -/
theorem State.Apart.sublist {s t : State} (apart : s.Apart) (less : t.requests.Sublist s.requests)
    (same : t.nextId = s.nextId) : t.Apart where
  nodup := apart.nodup.sublist (less.map ArpReq.id)
  fresh := by
    intro r member
    rw [same]
    exact apart.fresh r (less.subset member)

/-- `sr_arpcache_insert`: the request for the address is taken off the queue. -/
def srArpcacheInsert (now : Int) (mac : Mac) (ip : Ip) : Cmd (Option ArpReq) := fun s =>
  .ok (s.requests.find? fun req => req.ip == ip)
    { s with
      entries := insertEntry ⟨mac, ip, now, true⟩ s.entries
      requests := s.requests.eraseP fun req => req.ip == ip }

/-- `sr_arpreq_destroy` on a request of the queue. -/
def srArpreqDestroy (id : Nat) : Cmd Unit := do
  let _ ← deref id
  modify fun s => { s with requests := s.requests.filter fun req => req.id != id }

end CompNet.Router
