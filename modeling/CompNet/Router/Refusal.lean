import CompNet.Router.Requests

/-!
# Requests that are given up

`handle_arpreq` gives a request up when it has been sent five times, and answers each
of its packets with an error message.  The message is queued if its next hop is not
known, and the request for that next hop is handled at once: by the time that this call
reads it is left, sent again or given up in its turn, with its packets answered first.
This is a depth-first search among the requests, and `Refused` describes it without the
rest of the router's state.  All that counts are the requests, with the sources and the
lengths of their packets, and how often the clock has been read (`Board`).  A request
stays on the queue until its packets are answered; a search that comes back to one that
it is still giving up, and finds it due, does not go through.
-/

namespace CompNet.Router

open CompNet.Lib

/-! ## What the calls depend on -/

/-- What matters of a packet that is answered. -/
structure Token where
  src : Ip
  iface : IfName
  len : Nat
  deriving DecidableEq, Repr

def Packet.token (p : Packet) : Token := ⟨srcOf p.buf, p.iface, p.buf.length⟩

/-- What matters of a request. -/
structure Asked where
  id : Nat
  ip : Ip
  sent : Int
  timesSent : Nat
  tokens : List Token
  deriving DecidableEq, Repr

def ArpReq.asked (r : ArpReq) : Asked :=
  ⟨r.id, r.ip, r.sent, r.timesSent, r.packets.map Packet.token⟩

/-- A request that was sent five times, the last time more than a second ago. -/
def Asked.Expired (now : Int) (a : Asked) : Prop := now - a.sent > 1 ∧ 5 ≤ a.timesSent

instance (now : Int) (a : Asked) : Decidable (a.Expired now) :=
  inferInstanceAs (Decidable (_ ∧ _))

/-- What matters of a state. -/
structure Board where
  asked : List Asked
  nextId : Nat
  readings : Nat
  deriving DecidableEq, Repr

def State.board (s : State) : Board := ⟨s.requests.map ArpReq.asked, s.nextId, s.readings⟩

namespace Board

variable (B : Board)

def ids : List Nat := B.asked.map Asked.id

def ticked : Board := { B with readings := B.readings + 1 }

def update (id : Nat) (change : Asked → Asked) : Board :=
  { B with asked := B.asked.map fun a => if a.id = id then change a else a }

/-- A packet more for a request. -/
def push (id : Nat) (e : Token) : Board := B.update id fun a => { a with tokens := e :: a.tokens }

/-- The ARP request is sent again. -/
def resent (id : Nat) (now : Int) : Board :=
  B.update id fun a => { a with sent := now, timesSent := a.timesSent + 1 }

def without (id : Nat) : Board := { B with asked := B.asked.filter fun a => a.id != id }

/-- A packet goes to the request for its address, or to a new one. -/
def queue (ip : Ip) (e : Token) : Board :=
  match B.asked.find? fun a => a.ip == ip with
  | some a => B.push a.id e
  | none => { B with asked := ⟨B.nextId, ip, 0, 0, [e]⟩ :: B.asked, nextId := B.nextId + 1 }

/-- A request that is not given up is left, or sent again. -/
def attended (now : Int) (a : Asked) : Board :=
  if now - a.sent > 1 then B.resent a.id now else B

end Board

/-! ## The search -/

section

variable (sr : Instance) (entries : List ArpEntry) (clock : Nat → Int)

/-- The answer to a packet has no way to go, or goes out at once. -/
def Silent (k : Token) : Prop :=
  ∀ rt out, nextHop sr k.src = some (rt, out) →
    42 ≤ k.len ∧ srArpcacheLookup entries rt.gw ≠ none

/-- The answer to a packet is queued under an address, as the packet `e`. -/
def Answered (k : Token) (ip : Ip) (e : Token) : Prop :=
  ∃ rt out iface, nextHop sr k.src = some (rt, out) ∧ 42 ≤ k.len ∧
    srArpcacheLookup entries rt.gw = none ∧ rt.gw = ip ∧ srGetInterface sr k.iface = some iface ∧
    e = ⟨iface.ip, out.name, 70⟩

/-- Packets are answered, and none of the requests `opened` is given up on the way.  The request
that an answer is queued under is handled by the time that its own call reads. -/
inductive Refused : List Nat → Board → List Token → Board → Prop
  | nil {opened : List Nat} {B : Board} : Refused opened B [] B
  | silent {opened : List Nat} {B C : Board} {k : Token} {ks : List Token} :
    Silent sr entries k → Refused opened B ks C → Refused opened B (k :: ks) C
  | young {opened : List Nat} {B C : Board} {k e : Token} {ks : List Token} {ip : Ip} {a : Asked} :
    Answered sr entries k ip e → a ∈ (B.queue ip e).asked → a.ip = ip →
      ¬ a.Expired (clock B.readings) →
      Refused opened ((B.queue ip e).ticked.attended (clock B.readings) a) ks C →
      Refused opened B (k :: ks) C
  | nested {opened : List Nat} {B C D : Board} {k e : Token} {ks : List Token} {ip : Ip}
      {a : Asked} :
    Answered sr entries k ip e → a ∈ (B.queue ip e).asked → a.ip = ip →
      a.Expired (clock B.readings) → a.id ∉ opened →
      Refused (a.id :: opened) (B.queue ip e).ticked a.tokens C →
      Refused opened (C.without a.id) ks D → Refused opened B (k :: ks) D

/-- A request is handled, and none of the requests `opened` is given up. -/
inductive Attended (opened : List Nat) : Nat → Board → Board → Prop
  | young {B : Board} {a : Asked} :
    a ∈ B.asked → ¬ a.Expired (clock B.readings) →
      Attended opened a.id B (B.ticked.attended (clock B.readings) a)
  | given {B C : Board} {a : Asked} :
    a ∈ B.asked → a.Expired (clock B.readings) → a.id ∉ opened →
      Refused sr entries clock (a.id :: opened) B.ticked a.tokens C →
      Attended opened a.id B (C.without a.id)

end

/-! ## What becomes of the requests -/

section

variable {B C D : Board} {n id : Nat} {ip : Ip} {e : Token}

theorem Board.mem_ids : n ∈ B.ids ↔ ∃ a ∈ B.asked, a.id = n := List.mem_map

theorem Board.update_ids {change : Asked → Asked} (same : ∀ a, (change a).id = a.id) :
    (B.update id change).ids = B.ids := by
  rw [Board.ids, Board.update, List.map_map]
  apply List.map_congr_left
  intro a _
  rw [Function.comp_apply]
  split_ifs
  · exact same a
  · rfl

theorem Board.attended_ids (B : Board) (now : Int) (a : Asked) :
    (B.attended now a).ids = B.ids := by
  rw [Board.attended]
  split_ifs
  · exact Board.update_ids fun _ => rfl
  · rfl

theorem Board.attended_nextId (B : Board) (now : Int) (a : Asked) :
    (B.attended now a).nextId = B.nextId := by
  rw [Board.attended]
  split_ifs <;> rfl

theorem Board.without_ids (B : Board) (id : Nat) :
    (B.without id).ids = B.ids.filter fun n => n != id := by
  rw [Board.ids, Board.ids, Board.without, List.filter_map]
  rfl

theorem Board.queue_cases (B : Board) (ip : Ip) (e : Token) :
    ((B.queue ip e).ids = B.ids ∧ (B.queue ip e).nextId = B.nextId) ∨
      ((B.queue ip e).ids = B.nextId :: B.ids ∧ (B.queue ip e).nextId = B.nextId + 1) := by
  rw [Board.queue]
  split
  · exact .inl ⟨Board.update_ids fun _ => rfl, rfl⟩
  · exact .inr ⟨rfl, rfl⟩

theorem Board.queue_readings (B : Board) (ip : Ip) (e : Token) :
    (B.queue ip e).readings = B.readings := by
  rw [Board.queue]
  split <;> rfl

/-- The memory blocks that are in use are older than the next one. -/
def Board.Fresh (B : Board) : Prop := ∀ n ∈ B.ids, n < B.nextId

/-- The requests that are left keep their order, and new ones come in front. -/
structure Evolved (B C : Board) : Prop where
  grows : B.nextId ≤ C.nextId
  fresh : C.Fresh
  order : ∃ new, C.ids = new ++ (B.ids.filter fun n => decide (n ∈ C.ids)) ∧
    ∀ n ∈ new, B.nextId ≤ n

theorem Evolved.refl (fresh : B.Fresh) : Evolved B B where
  grows := Nat.le_refl _
  fresh := fresh
  order := by
    refine ⟨[], ?_, fun n member => absurd member List.not_mem_nil⟩
    rw [List.nil_append, List.filter_eq_self.mpr]
    intro n member
    simpa using member

/-- What is there afterwards and is not new was there before. -/
theorem Evolved.alive (evolved : Evolved B C) (old : n < B.nextId) (here : n ∈ C.ids) :
    n ∈ B.ids := by
  obtain ⟨new, ids, late⟩ := evolved.order
  rw [ids] at here
  rcases List.mem_append.mp here with member | member
  · exact absurd (late n member) (Nat.not_le.mpr old)
  · exact (List.mem_filter.mp member).1

/-- Only the identities matter. -/
theorem Evolved.congr (evolved : Evolved B C) (ids : D.ids = C.ids) (nextId : D.nextId = C.nextId) :
    Evolved B D where
  grows := by rw [nextId]; exact evolved.grows
  fresh := by
    rw [Board.Fresh, ids, nextId]
    exact evolved.fresh
  order := by rw [ids]; exact evolved.order

theorem Evolved.without (evolved : Evolved B C) (id : Nat) : Evolved B (C.without id) where
  grows := evolved.grows
  fresh := by
    intro n member
    rw [Board.without_ids] at member
    exact evolved.fresh n (List.mem_filter.mp member).1
  order := by
    obtain ⟨new, ids, late⟩ := evolved.order
    refine ⟨new.filter fun n => n != id, ?_, fun n inside => late n (List.mem_filter.mp inside).1⟩
    rw [Board.without_ids]
    conv_lhs => rw [ids]
    rw [List.filter_append, List.filter_filter]
    congr 1
    apply List.filter_congr
    intro n _
    simp only [List.mem_filter, Bool.decide_and, Bool.decide_eq_true, Bool.and_comm]

theorem Evolved.trans (fresh : B.Fresh) (first : Evolved B C) (second : Evolved C D) :
    Evolved B D where
  grows := Nat.le_trans first.grows second.grows
  fresh := second.fresh
  order := by
    obtain ⟨new, ids, late⟩ := first.order
    obtain ⟨newer, ids', later⟩ := second.order
    refine ⟨newer ++ new.filter fun n => decide (n ∈ D.ids), ?_, ?_⟩
    · conv_lhs => rw [ids', ids, List.filter_append, ← List.append_assoc, List.filter_filter]
      congr 1
      apply List.filter_congr
      intro n member
      -- an old request that is left was left in between
      have between : n ∈ D.ids → n ∈ C.ids :=
        second.alive (Nat.lt_of_lt_of_le (fresh n member) first.grows)
      rw [← Bool.decide_and, decide_eq_decide]
      exact ⟨fun both => both.1, fun here => ⟨here, between here⟩⟩
    · intro n member
      rcases List.mem_append.mp member with member | member
      · exact Nat.le_trans first.grows (later n member)
      · exact late n (List.mem_filter.mp member).1

theorem evolved_queue (fresh : B.Fresh) (ip : Ip) (e : Token) : Evolved B (B.queue ip e) := by
  rcases B.queue_cases ip e with ⟨ids, nextId⟩ | ⟨ids, nextId⟩
  · exact (Evolved.refl fresh).congr ids nextId
  · constructor
    case grows =>
      rw [nextId]
      exact Nat.le_succ _
    case fresh =>
      intro n member
      rw [ids] at member
      rw [nextId]
      rcases List.mem_cons.mp member with rfl | old
      · exact Nat.lt_succ_self _
      · exact Nat.lt_succ_of_lt (fresh n old)
    case order =>
      refine ⟨[B.nextId], ?_, fun n member => Nat.le_of_eq (List.mem_singleton.mp member).symm⟩
      rw [ids, List.singleton_append, List.filter_eq_self.mpr]
      intro n member
      simpa using Or.inr member

end

section

variable {sr : Instance} {entries : List ArpEntry} {clock : Nat → Int} {B C : Board}
  {opened : List Nat} {ks : List Token} {n : Nat}

theorem Refused.evolved (refused : Refused sr entries clock opened B ks C) (fresh : B.Fresh) :
    Evolved B C := by
  induction refused with
  | nil => exact Evolved.refl fresh
  | silent _ _ ih => exact ih fresh
  | @young _ B _ _ e _ ip a _ _ _ _ _ ih =>
      have queued : Evolved B ((B.queue ip e).ticked.attended (clock B.readings) a) :=
        (evolved_queue fresh ip e).congr (Board.attended_ids _ _ _) (Board.attended_nextId _ _ _)
      exact queued.trans fresh (ih queued.fresh)
  | @nested _ B _ _ _ e _ ip a _ _ _ _ _ _ _ ih₁ ih₂ =>
      have queued : Evolved B (B.queue ip e).ticked := (evolved_queue fresh ip e).congr rfl rfl
      have given := (queued.trans fresh (ih₁ queued.fresh)).without a.id
      exact given.trans fresh (ih₂ given.fresh)

theorem Attended.evolved (handled : Attended sr entries clock opened n B C) (fresh : B.Fresh) :
    Evolved B C := by
  cases handled with
  | young _ _ =>
      exact (Evolved.refl fresh).congr (Board.attended_ids _ _ _) (Board.attended_nextId _ _ _)
  | given _ _ _ refused =>
      have read : Evolved B B.ticked := (Evolved.refl fresh).congr rfl rfl
      exact (read.trans fresh (refused.evolved read.fresh)).without _

theorem mem_queue (ip : Ip) (e : Token) (here : n ∈ B.ids) : n ∈ (B.queue ip e).ids := by
  rcases B.queue_cases ip e with ⟨ids, -⟩ | ⟨ids, -⟩
  · rw [ids]
    exact here
  · rw [ids]
    exact List.mem_cons_of_mem _ here

theorem mem_without {id : Nat} (here : n ∈ B.ids) (differ : n ≠ id) : n ∈ (B.without id).ids := by
  rw [Board.without_ids, List.mem_filter, bne_iff_ne]
  exact ⟨here, differ⟩

/-- Requests that are being given up stay. -/
theorem Refused.opened_stay (refused : Refused sr entries clock opened B ks C) (member : n ∈ opened)
    (here : n ∈ B.ids) : n ∈ C.ids := by
  induction refused with
  | nil => exact here
  | silent _ _ ih => exact ih member here
  | @young _ B _ _ e _ ip a _ _ _ _ _ ih =>
      refine ih member ?_
      rw [Board.attended_ids]
      exact mem_queue ip e here
  | @nested _ B _ _ _ e _ ip a _ _ _ _ fresh _ _ ih₁ ih₂ =>
      have inside := ih₁ (List.mem_cons_of_mem _ member) (mem_queue ip e here)
      refine ih₂ member (mem_without inside ?_)
      rintro rfl
      exact fresh member

theorem Attended.opened_stay (handled : Attended sr entries clock opened n B C) {m : Nat}
    (member : m ∈ opened) (here : m ∈ B.ids) : m ∈ C.ids := by
  cases handled with
  | young _ _ =>
      rw [Board.attended_ids]
      exact here
  | given _ _ fresh refused =>
      refine mem_without (refused.opened_stay (List.mem_cons_of_mem _ member) here) ?_
      rintro rfl
      exact fresh member

end

/-! ## A state and its board -/

/-- A packet of the queue can be answered. -/
def Refusable (sr : Instance) (p : Packet) : Prop :=
  34 ≤ p.buf.length ∧ (srGetInterface sr p.iface).isSome = true

instance (sr : Instance) (p : Packet) : Decidable (Refusable sr p) :=
  inferInstanceAs (Decidable (_ ∧ _))

theorem Refusable.ne_nil {sr : Instance} {p : Packet} (refusable : Refusable sr p) :
    p.buf ≠ [] := by
  intro empty
  have long := refusable.1
  rw [empty] at long
  exact absurd long (by simp)

def State.allocated (s : State) : State := { s with mallocs := s.mallocs + 1 }

def State.ids (s : State) : List Nat := s.requests.map ArpReq.id

/-- A request after its ARP request was sent again. -/
def ArpReq.resent (now : Int) (req : ArpReq) : ArpReq :=
  { req with sent := now, timesSent := req.timesSent + 1 }

/-- The state without a request. -/
def State.without (s : State) (id : Nat) : State :=
  { s with requests := s.requests.filter fun req => req.id != id }

/-- The queue is in order and the cache is as it was. -/
def Steady (sr : Instance) (entries : List ArpEntry) (s : State) : Prop :=
  WellQueued (Refusable sr) s ∧ s.entries = entries

section

variable {sr : Instance} {entries : List ArpEntry} {s : State} {p : Packet} {n : Nat}

theorem mem_ids : n ∈ s.ids ↔ ∃ r ∈ s.requests, r.id = n := List.mem_map

theorem board_ids (s : State) : s.board.ids = s.ids := by
  rw [Board.ids, State.board, List.map_map]
  rfl

theorem State.Apart.board_fresh (apart : s.Apart) : s.board.Fresh := by
  intro n member
  rw [board_ids] at member
  obtain ⟨r, inside, rfl⟩ := mem_ids.mp member
  exact apart.fresh r inside

theorem board_update (id : Nat) {change : ArpReq → ArpReq} {change' : Asked → Asked}
    (same : ∀ r, (change r).asked = change' r.asked) :
    (s.update id change).board = s.board.update id change' := by
  rw [State.board, State.board, State.update, Board.update, Board.mk.injEq]
  refine ⟨?_, rfl, rfl⟩
  rw [List.map_map, List.map_map]
  apply List.map_congr_left
  intro r _
  rw [Function.comp_apply, Function.comp_apply, apply_ite ArpReq.asked, same]
  rfl

theorem board_resent (id : Nat) (now : Int) :
    (s.update id (ArpReq.resent now)).board = s.board.resent id now :=
  board_update id fun _ => rfl

theorem board_addPacket (id : Nat) (some : p.buf ≠ []) :
    (s.update id (ArpReq.addPacket p.buf p.iface)).board = s.board.push id p.token := by
  refine board_update id fun r => ?_
  rw [ArpReq.asked, packets_addPacket some, addPacket_sent, addPacket_timesSent,
    ArpReq.addPacket_id, ArpReq.addPacket_ip]
  rfl

theorem board_without (id : Nat) : (s.without id).board = s.board.without id := by
  rw [State.board, State.board, State.without, Board.without, Board.mk.injEq, List.filter_map]
  exact ⟨rfl, rfl, rfl⟩

theorem board_find (s : State) (ip : Ip) :
    s.board.asked.find? (fun a => a.ip == ip) =
      (s.requests.find? fun r => r.ip == ip).map ArpReq.asked :=
  List.find?_map ..

theorem board_queue_old {ok : Packet → Prop} (well : WellQueued ok s) {r : ArpReq}
    (member : r ∈ s.requests) (e : Token) : s.board.queue r.ip e = s.board.push r.id e := by
  rw [Board.queue, board_find, well.find?_ip member]
  rfl

/-- What the queue makes of a packet that can be answered. -/
theorem srArpcacheQueuereq_board (steady : Steady sr entries s) (ip : Ip)
    (refusable : Refusable sr p) :
    ∃ q u, srArpcacheQueuereq ip p.buf p.iface s = .ok q.id u ∧ Steady sr entries u ∧
      q ∈ u.requests ∧ q.ip = ip ∧ u.board = s.board.queue ip p.token := by
  obtain ⟨well, same⟩ := steady
  rcases srArpcacheQueuereq_cases s ip p.iface refusable.ne_nil with
    ⟨r, member, rfl, queued⟩ | ⟨none, queued⟩
  · refine ⟨r.addPacket p.buf p.iface, _, by rw [queued, ArpReq.addPacket_id],
      ⟨well.addPacket r.id refusable.ne_nil refusable, same⟩, ?_, ArpReq.addPacket_ip _ _ _, ?_⟩
    · exact List.mem_map.mpr ⟨r, member, if_pos rfl⟩
    · rw [board_addPacket r.id refusable.ne_nil, board_queue_old well member]
  · have missing : s.requests.find? (fun r => r.ip == ip) = .none := by
      rw [List.find?_eq_none]
      intro r member
      simpa using none r member
    refine ⟨_, _, queued, ⟨well.ask none refusable, same⟩, List.mem_cons_self, rfl, ?_⟩
    rw [Board.queue, board_find, missing]
    rfl

end

/-! ## One packet is answered -/

/-- The error message for a packet, as it is queued. -/
def refusal (mem : Memory) (out iface : Interface) (p : Packet) : Packet :=
  ⟨errorFrame mem (mem.mac 0) out iface.ip p.buf 3 1, out.name⟩

section

variable {sr : Instance} {entries : List ArpEntry} {junk : Nat → Memory} {clock : Nat → Int}
  {attend : Nat → Cmd Unit} {s t : State} {p : Packet} {r : ArpReq} {rt : Route}
  {out iface : Interface} {ip : Ip} {e : Token}

theorem refusal_token (mem : Memory) (out iface : Interface) (long : 42 ≤ p.buf.length) :
    (refusal mem out iface p).token = ⟨iface.ip, out.name, 70⟩ := by
  have size := length_errorFrame mem (mem.mac 0) out iface.ip 3 1 long
  have src : srcOf (errorFrame mem (mem.mac 0) out iface.ip p.buf 3 1) = iface.ip :=
    ipOf_ipBytes iface.ip
  rw [Packet.token, refusal, size, src]

theorem refusal_refusable (mem : Memory) (iface : Interface) (long : 42 ≤ p.buf.length)
    (hop : nextHop sr (srcOf p.buf) = some (rt, out)) : Refusable sr (refusal mem out iface p) := by
  have size := length_errorFrame mem (mem.mac 0) out iface.ip 3 1 long
  constructor
  · show 34 ≤ (errorFrame mem (mem.mac 0) out iface.ip p.buf 3 1).length
    omega
  · show (srGetInterface sr out.name).isSome = true
    rw [srGetInterface_out hop]
    rfl

theorem refusePacket_live (member : r ∈ s.requests) (apart : s.Apart) :
    refusePacket sr junk clock attend r.id p s =
      (ofExcept (srSendIcmpHostUnreachable sr s.entries (junk s.mallocs) p.buf p.iface) >>=
        perform sr clock attend) s.allocated := by
  rw [refusePacket, bind_ok (deref_of_mem apart member), bind_ok (c := malloc junk) rfl,
    bind_ok (c := get) rfl]
  rfl

theorem Steady.allocated (steady : Steady sr entries s) : Steady sr entries s.allocated :=
  ⟨steady.1.congr rfl rfl, steady.2⟩

theorem Steady.ticked (steady : Steady sr entries s) : Steady sr entries s.ticked :=
  ⟨steady.1.congr rfl rfl, steady.2⟩

theorem Steady.without (steady : Steady sr entries s) (id : Nat) :
    Steady sr entries (s.without id) :=
  ⟨steady.1.sublist List.filter_sublist rfl, steady.2⟩

/-- The message has nowhere to go, or goes out at once. -/
theorem refusePacket_silent (junk : Nat → Memory) (clock : Nat → Int)
    (steady : Steady sr entries s) (member : r ∈ s.requests) (refusable : Refusable sr p)
    (silent : Silent sr entries p.token) :
    ∃ t, (∀ attend, refusePacket sr junk clock attend r.id p s = .ok () t) ∧
      Steady sr entries t ∧ t.board = s.board := by
  obtain ⟨well, rfl⟩ := steady
  obtain ⟨iface, here⟩ := Option.isSome_iff_exists.mp refusable.2
  have long := refusable.1
  cases hop : nextHop sr (srcOf p.buf) with
  | none =>
      refine ⟨s.allocated, fun attend => ?_, ⟨well.congr rfl rfl, rfl⟩, rfl⟩
      rw [refusePacket_live member well.apart, srSendIcmpHostUnreachable,
        srSendError_noHop (by omega) hop]
      rfl
  | some pair =>
      obtain ⟨rt, out⟩ := pair
      obtain ⟨enough, known⟩ := silent rt out hop
      obtain ⟨mac, known⟩ := Option.ne_none_iff_exists'.mp known
      have sent : ∀ attend, refusePacket sr junk clock attend r.id p s =
          srSendPacket (errorFrame (junk s.mallocs) mac out iface.ip p.buf 3 1) out.name
            s.allocated := by
        intro attend
        rw [refusePacket_live member well.apart, srSendIcmpHostUnreachable,
          srSendError_hit enough hop here known]
        rfl
      exact ⟨_, sent, ⟨well.congr rfl rfl, rfl⟩, rfl⟩

/-- The message waits, and the request that it waits for is handled. -/
theorem refusePacket_answered (junk : Nat → Memory) (clock : Nat → Int)
    (steady : Steady sr entries s) (member : r ∈ s.requests)
    (answered : Answered sr entries p.token ip e) :
    ∃ q u, (∀ attend, refusePacket sr junk clock attend r.id p s = attend q.id u) ∧
      Steady sr entries u ∧ q ∈ u.requests ∧ q.ip = ip ∧ u.board = s.board.queue ip e := by
  obtain ⟨rt, out, iface, hop, long, unknown, rfl, here, rfl⟩ := answered
  change nextHop sr (srcOf p.buf) = some (rt, out) at hop
  change 42 ≤ p.buf.length at long
  change srGetInterface sr p.iface = some iface at here
  have new := refusal_refusable (junk s.mallocs) iface long hop
  obtain ⟨q, u, queued, still, inside, for_ip, board⟩ :=
    srArpcacheQueuereq_board steady.allocated rt.gw new
  refine ⟨q, u, fun attend => ?_, still, inside, for_ip, ?_⟩
  · rw [← steady.2] at unknown
    rw [refusePacket_live member steady.1.apart, srSendIcmpHostUnreachable,
      srSendError_miss long hop here unknown]
    exact bind_ok queued
  · rw [board, refusal_token (junk s.mallocs) out iface long]
    rfl

theorem refusePacket_short (steady : Steady sr entries s) (member : r ∈ s.requests)
    (refusable : Refusable sr p) (short : p.buf.length < 42)
    (hop : nextHop sr (srcOf p.buf) = some (rt, out)) :
    refusePacket sr junk clock attend r.id p s = .error .outOfBounds s.allocated := by
  obtain ⟨iface, here⟩ := Option.isSome_iff_exists.mp refusable.2
  have long := refusable.1
  rw [refusePacket_live member steady.1.apart, srSendIcmpHostUnreachable,
    srSendError_short (by omega) short hop here]
  rfl

/-- A packet is too short, or its answer does not wait, or it does. -/
theorem answer_cases (entries : List ArpEntry) (refusable : Refusable sr p) :
    (p.buf.length < 42 ∧ ∃ rt out, nextHop sr (srcOf p.buf) = some (rt, out)) ∨
      Silent sr entries p.token ∨ ∃ ip e, Answered sr entries p.token ip e := by
  by_cases silent : Silent sr entries p.token
  · exact .inr (.inl silent)
  · simp only [Silent, not_forall, not_and_or, not_not] at silent
    obtain ⟨rt, out, hop, failure⟩ := silent
    by_cases long : 42 ≤ p.buf.length
    · have unknown := failure.resolve_left (not_not.mpr long)
      obtain ⟨iface, here⟩ := Option.isSome_iff_exists.mp refusable.2
      exact .inr (.inr ⟨_, _, rt, out, iface, hop, long, unknown, rfl, here, rfl⟩)
    · exact .inl ⟨Nat.lt_of_not_le long, rt, out, hop⟩

end

/-! ## A request is handled -/

section

variable {sr : Instance} {entries : List ArpEntry} {junk : Nat → Memory} {clock : Nat → Int}
  {s t : State} {r : ArpReq} {fuel : Nat}

/-- A request that is not due is sent again, or left. -/
theorem handleArpreq_young (junk : Nat → Memory) (steady : Steady sr entries s)
    (member : r ∈ s.requests) (young : ¬ r.asked.Expired (clock s.readings)) :
    ∃ t, (∀ fuel, handleArpreq sr junk clock (fuel + 1) r.id s = .ok () t) ∧
      Steady sr entries t ∧ t.board = s.board.ticked.attended (clock s.readings) r.asked := by
  have ticked := steady.ticked
  have read : ∀ fuel, handleArpreq sr junk clock (fuel + 1) r.id s =
      (if clock s.readings - r.sent > 1 then
        if 5 ≤ r.timesSent then do
          r.packets.forM (refusePacket sr junk clock (handleArpreq sr junk clock fuel) r.id)
          srArpreqDestroy r.id
        else resend sr junk (clock s.readings) r
      else pure ()) s.ticked := by
    intro fuel
    rw [handleArpreq, bind_ok (time_eq clock s), bind_ok (deref_of_mem ticked.1.apart member)]
  by_cases late : clock s.readings - r.sent > 1
  · have few : ¬ 5 ≤ r.timesSent := fun many => young ⟨late, many⟩
    obtain ⟨p, rest, list⟩ := List.exists_cons_of_ne_nil (steady.1.nonempty r member)
    have refusable := steady.1.packets r member p (by rw [list]; exact List.mem_cons_self)
    obtain ⟨iface, here⟩ := Option.isSome_iff_exists.mp refusable.2
    have returns : ∀ fuel, handleArpreq sr junk clock (fuel + 1) r.id s =
        .ok () { s.ticked.update r.id (ArpReq.resent (clock s.readings)) with
          mallocs := s.mallocs + 1
          log := s.log ++ [⟨arpRequest (junk s.mallocs) r.ip iface, iface.name⟩] } := by
      intro fuel
      rw [read, if_pos late, if_neg few, resend, list, List.head?_cons,
        bind_ok (c := ofExcept (ofPointer (some p))) rfl, here]
      rfl
    refine ⟨_, returns, ⟨?_, steady.2⟩, ?_⟩
    · have same_id (q : ArpReq) : (q.resent (clock s.readings)).id = q.id := rfl
      have updated := ticked.1.update r.id same_id (fun _ => rfl) fun q inside _ =>
        ⟨ticked.1.nonempty q inside, ticked.1.packets q inside⟩
      exact updated.congr rfl rfl
    · rw [Board.attended, if_pos (show _ - r.asked.sent > 1 from late)]
      exact board_resent r.id (clock s.readings)
  · refine ⟨s.ticked, fun fuel => ?_, ticked, ?_⟩
    · rw [read, if_neg late]
      rfl
    · rw [Board.attended, if_neg (show ¬ _ - r.asked.sent > 1 from late)]
      rfl

/-- A request that is due is given up. -/
theorem handleArpreq_expired (steady : Steady sr entries s) (member : r ∈ s.requests)
    (expired : r.asked.Expired (clock s.readings)) :
    handleArpreq sr junk clock (fuel + 1) r.id s =
      (r.packets.forM (refusePacket sr junk clock (handleArpreq sr junk clock fuel) r.id) >>=
        fun _ => srArpreqDestroy r.id) s.ticked := by
  rw [handleArpreq, bind_ok (time_eq clock s), bind_ok (deref_of_mem steady.ticked.1.apart member),
    if_pos (show _ - r.sent > 1 from expired.1), if_pos (show 5 ≤ r.timesSent from expired.2)]

theorem srArpreqDestroy_eq_ok {id : Nat} (returns : srArpreqDestroy id s = .ok () t) :
    t = s.without id ∧ ∃ r ∈ s.requests, r.id = id := by
  obtain ⟨q, u, found, destroyed⟩ := bind_eq_ok.mp returns
  obtain ⟨rfl, member, same⟩ := deref_eq_ok found
  cases destroyed
  exact ⟨rfl, q, member, same⟩

theorem srArpreqDestroy_ok (apart : s.Apart) (member : r ∈ s.requests) :
    srArpreqDestroy r.id s = .ok () (s.without r.id) := by
  rw [srArpreqDestroy, bind_ok (deref_of_mem apart member)]
  rfl

/-- A handler that returns has been called with a request of the queue. -/
theorem exists_of_handleArpreq {id : Nat}
    (returns : handleArpreq sr junk clock fuel id s = .ok () t) :
    ∃ m, fuel = m + 1 ∧ ∃ r ∈ s.requests, r.id = id := by
  cases fuel with
  | zero => cases returns
  | succ fuel =>
      rw [handleArpreq, bind_ok (time_eq clock s)] at returns
      obtain ⟨r, u, found, -⟩ := bind_eq_ok.mp returns
      obtain ⟨-, member, same⟩ := deref_eq_ok found
      exact ⟨fuel, rfl, r, member, same⟩

/-- So has one that answers a packet. -/
theorem exists_of_refusePacket {attend : Nat → Cmd Unit} {id : Nat} {p : Packet}
    (returns : refusePacket sr junk clock attend id p s = .ok () t) :
    ∃ r ∈ s.requests, r.id = id := by
  obtain ⟨r, u, found, -⟩ := bind_eq_ok.mp returns
  obtain ⟨-, member, same⟩ := deref_eq_ok found
  exact ⟨r, member, same⟩

end

/-! ## More fuel -/

section

variable {sr : Instance} {junk : Nat → Memory} {clock : Nat → Int} {attend attend' : Nat → Cmd Unit}

theorem refusePacket_extends (more : ∀ id, Extends (attend id) (attend' id)) (id : Nat)
    (p : Packet) :
    Extends (refusePacket sr junk clock attend id p) (refusePacket sr junk clock attend' id p) := by
  refine Extends.bind (Extends.refl _) fun _ => Extends.bind (Extends.refl _) fun _ =>
    Extends.bind (Extends.refl _) fun _ => Extends.bind (Extends.refl _) fun action => ?_
  cases action with
  | drop => exact Extends.refl _
  | send frame iface => exact Extends.refl _
  | queue ip frame iface => exact Extends.bind (Extends.refl _) more
  | learn mac ip => exact Extends.refl _

theorem handleArpreq_extends {fuel fuel' : Nat} (more : fuel ≤ fuel') (id : Nat) :
    Extends (handleArpreq sr junk clock fuel id) (handleArpreq sr junk clock fuel' id) := by
  induction fuel generalizing fuel' id with
  | zero =>
      intro s a t returns
      cases returns
  | succ fuel ih =>
      obtain ⟨fuel', rfl⟩ : ∃ m, fuel' = m + 1 := ⟨fuel' - 1, by omega⟩
      rw [handleArpreq, handleArpreq]
      refine Extends.bind (Extends.refl _) fun now => Extends.bind (Extends.refl _) fun req => ?_
      split_ifs
      · refine Extends.bind (Extends.forM (fun p => ?_) req.packets) fun _ => Extends.refl _
        exact refusePacket_extends (fun n => ih (by omega) n) id p
      · exact Extends.refl _
      · exact Extends.refl _

/-- A loop over packets that returns does so with more fuel. -/
theorem forM_extends {ps : List Packet} {fuel fuel' : Nat} (more : fuel ≤ fuel') (n : Nat) :
    Extends (ps.forM (refusePacket sr junk clock (handleArpreq sr junk clock fuel) n))
      (ps.forM (refusePacket sr junk clock (handleArpreq sr junk clock fuel') n)) :=
  Extends.forM (fun p => refusePacket_extends (fun m => handleArpreq_extends more m) n p) ps

end

end CompNet.Router
