import CompNet.Router.Search

/-!
# The sweep

`sr_arpcache_sweepreqs` saves the pointer to the next request before it handles one.
Handling a request can take others off the queue, and one of them may be the next.
The requests that are left keep their order and new ones come in front, so that what
the sweep still has to visit is a list of identities that only loses members.  Each
request is handled by the time that the clock shows at its turn.
-/

namespace CompNet.Router

open CompNet.Lib

/-! ## The traversal -/

section

variable (sr : Instance) (entries : List ArpEntry) (clock : Nat → Int)

/-- The requests are handled one after the other, those that are gone left out, and none goes
right before its turn.  None of the requests `opened` is given up. -/
inductive Swept (opened : List Nat) : List Nat → Board → Board → Prop
  | nil {B : Board} : Swept opened [] B B
  | turn {n : Nat} {rest : List Nat} {B C D : Board} :
    Attended sr entries clock opened n B C → (∀ m ∈ rest.head?, m ∈ C.ids) →
      Swept opened (rest.filter fun m => decide (m ∈ C.ids)) C D → Swept opened (n :: rest) B D

/-- A request goes while the one before it is handled. -/
inductive Dangles : List Nat → Board → Prop
  | here {n m : Nat} {rest : List Nat} {B C : Board} :
    Attended sr entries clock [] n B C → m ∉ C.ids → Dangles (n :: m :: rest) B
  | later {n : Nat} {rest : List Nat} {B C : Board} :
    Attended sr entries clock [] n B C → (∀ m ∈ rest.head?, m ∈ C.ids) →
      Dangles (rest.filter fun m => decide (m ∈ C.ids)) C → Dangles (n :: rest) B

end

section

variable {sr : Instance} {entries : List ArpEntry} {clock : Nat → Int} {opened : List Nat}
  {B C : Board}

/-- The part of the queue that is still to be visited. -/
theorem Evolved.rest (evolved : Evolved B C) {front rest : List Nat}
    (split : B.ids = front ++ rest) :
    ∃ front', C.ids = front' ++ rest.filter fun m => decide (m ∈ C.ids) := by
  obtain ⟨new, ids, -⟩ := evolved.order
  refine ⟨new ++ front.filter fun n => decide (n ∈ C.ids), ?_⟩
  conv_lhs => rw [ids, split, List.filter_append, ← List.append_assoc]

/-- Requests that must not be given up stay. -/
theorem Swept.opened_stay {rest : List Nat} (swept : Swept sr entries clock opened rest B C)
    {n : Nat} (member : n ∈ opened) (here : n ∈ B.ids) : n ∈ C.ids := by
  induction swept with
  | nil => exact here
  | turn handled _ _ ih => exact ih (handled.opened_stay member here)

end

/-! ## The traversal and the sweep -/

section

variable {sr : Instance} {entries : List ArpEntry} {junk : Nat → Memory} {clock : Nat → Int}
  {opened : List Nat} {s t : State}

theorem successor_eq {requests : List ArpReq} {front rest : List Nat} {n : Nat}
    (nodup : (requests.map ArpReq.id).Nodup) (split : requests.map ArpReq.id = front ++ n :: rest) :
    successor n requests = rest.head? := by
  induction requests generalizing front with
  | nil => exact absurd split (by simp)
  | cons r requests ih =>
      rw [List.map_cons] at split nodup
      rw [successor]
      cases front with
      | nil =>
          rw [List.nil_append, List.cons.injEq] at split
          rw [if_pos split.1, ← split.2, List.head?_map]
      | cons m front =>
          rw [List.cons_append, List.cons.injEq] at split
          have differ : r.id ≠ n := by
            intro same
            rw [List.nodup_cons, split.2, same] at nodup
            exact nodup.1 (by simp)
          rw [if_neg differ]
          exact ih (List.nodup_cons.mp nodup).2 split.2

/-- The sweep at a request of the queue. -/
theorem sweepLoop_live {attend : Nat → Cmd Unit} {turns n : Nat} {front rest : List Nat}
    (apart : s.Apart) (split : s.ids = front ++ n :: rest) :
    sweepLoop attend (turns + 1) (some n) s =
      (attend n >>= fun _ => sweepLoop attend turns rest.head?) s := by
  obtain ⟨r, member, same⟩ : ∃ r ∈ s.requests, r.id = n := by
    apply mem_ids.mp
    rw [split]
    exact List.mem_append_right _ List.mem_cons_self
  rw [sweepLoop, ← same, bind_ok (deref_of_mem apart member), bind_ok (c := get) rfl, same,
    successor_eq apart.nodup split]

/-- The sweep at a request that is gone. -/
theorem sweepLoop_gone {attend : Nat → Cmd Unit} {turns n : Nat} (gone : n ∉ s.ids) :
    sweepLoop attend (turns + 1) (some n) s = .error .useAfterFree s := by
  have none : s.requests.find? (fun req => req.id == n) = none := by
    rw [List.find?_eq_none]
    intro r member
    rw [beq_iff_eq]
    intro same
    exact gone (mem_ids.mpr ⟨r, member, same⟩)
  have failure : deref n s = .error .useAfterFree s := by
    rw [deref, none]
  rw [sweepLoop, bind_error failure]

theorem head?_filter {rest : List Nat} {p : Nat → Bool} (head : ∀ m ∈ rest.head?, p m = true) :
    (rest.filter p).head? = rest.head? := by
  cases rest with
  | nil => rfl
  | cons m rest =>
      rw [List.filter_cons_of_pos (head m rfl)]
      rfl

/-- One turn of the sweep that returns. -/
theorem handled_turn {fuel n : Nat} {front rest : List Nat} (steady : Steady sr entries s)
    (split : s.ids = front ++ n :: rest)
    (handled : handleArpreq sr junk clock fuel n s = .ok () t) :
    Steady sr entries t ∧ Attended sr entries clock [] n s.board t.board ∧
      ∃ front', t.ids = front' ++ rest.filter fun m => decide (m ∈ t.board.ids) := by
  obtain ⟨r, member, rfl⟩ : ∃ r ∈ s.requests, r.id = n := by
    apply mem_ids.mp
    rw [split]
    exact List.mem_append_right _ List.mem_cons_self
  obtain ⟨still, turn⟩ := follows sr entries junk clock fuel [] steady member
    (fun n inside => absurd inside List.not_mem_nil) handled
  have behind : s.board.ids = (front ++ [r.id]) ++ rest := by
    rw [board_ids, split, List.append_cons]
  refine ⟨still, turn, ?_⟩
  rw [← board_ids t]
  exact (turn.evolved steady.1.apart.board_fresh).rest behind

theorem swept_of_returns {fuel turns : Nat} {front rest : List Nat} (steady : Steady sr entries s)
    (split : s.ids = front ++ rest)
    (returns : sweepLoop (handleArpreq sr junk clock fuel) turns rest.head? s = .ok () t) :
    Swept sr entries clock [] rest s.board t.board := by
  induction turns generalizing s front rest with
  | zero =>
      cases rest with
      | nil =>
          cases returns
          exact Swept.nil
      | cons n rest => cases returns
  | succ turns ih =>
      cases rest with
      | nil =>
          cases returns
          exact Swept.nil
      | cons n rest =>
          rw [List.head?_cons, sweepLoop_live steady.1.apart split] at returns
          obtain ⟨_, u, handled, later⟩ := bind_eq_ok.mp returns
          obtain ⟨still, turn, front', split'⟩ := handled_turn steady split handled
          have next : ∀ m ∈ rest.head?, m ∈ u.board.ids := by
            intro m head
            rw [board_ids]
            by_contra gone
            rw [Option.mem_def.mp head] at later
            cases turns with
            | zero => cases later
            | succ turns =>
                rw [sweepLoop_gone gone] at later
                cases later
          refine Swept.turn turn next (ih still split' ?_)
          rw [head?_filter (by simpa using next)]
          exact later

theorem sweepLoop_extends {attend attend' : Nat → Cmd Unit}
    (more : ∀ id, Extends (attend id) (attend' id)) (turns : Nat) (next : Option Nat) :
    Extends (sweepLoop attend turns next) (sweepLoop attend' turns next) := by
  induction turns generalizing next with
  | zero => cases next <;> exact Extends.refl _
  | succ turns ih =>
      cases next with
      | none => exact Extends.refl _
      | some id =>
          exact Extends.bind (Extends.refl _) fun _ => Extends.bind (Extends.refl _) fun _ =>
            Extends.bind (more id) fun _ => ih _

/-- A turn of the sweep, with enough fuel. -/
theorem Attended.sweepLoop_eq (junk : Nat → Memory) {n : Nat} {front rest : List Nat} {B : Board}
    (turn : Attended sr entries clock opened n s.board B) (steady : Steady sr entries s)
    (split : s.ids = front ++ n :: rest) :
    ∃ fuel u front', Steady sr entries u ∧ u.board = B ∧
      u.ids = front' ++ (rest.filter fun m => decide (m ∈ B.ids)) ∧
      (∀ k, fuel ≤ k → handleArpreq sr junk clock k n s = .ok () u) ∧
      ∀ k, fuel ≤ k → ∀ turns, sweepLoop (handleArpreq sr junk clock k) (turns + 1) (some n) s =
        sweepLoop (handleArpreq sr junk clock k) turns rest.head? u := by
  obtain ⟨fuel, u, handled, still, rfl⟩ := turn.returns junk steady
  obtain ⟨-, -, front', split'⟩ := handled_turn steady split handled
  have enough : ∀ k, fuel ≤ k → handleArpreq sr junk clock k n s = .ok () u :=
    fun k more => handleArpreq_extends more n s () u handled
  refine ⟨fuel, u, front', still, rfl, split', enough, fun k more turns => ?_⟩
  rw [sweepLoop_live steady.1.apart split, bind_ok (enough k more)]

/-- A sweep that goes through returns. -/
theorem Swept.returns (junk : Nat → Memory) {B C : Board} {rest : List Nat}
    (swept : Swept sr entries clock opened rest B C) {front : List Nat}
    (steady : Steady sr entries s) (same : s.board = B) (split : s.ids = front ++ rest)
    {turns : Nat} (enough : rest.length ≤ turns) :
    ∃ fuel t, t.board = C ∧ ∀ k, fuel ≤ k →
      sweepLoop (handleArpreq sr junk clock k) turns rest.head? s = .ok () t := by
  induction swept generalizing s front turns with
  | nil =>
      refine ⟨0, s, same, fun k _ => ?_⟩
      cases turns <;> rfl
  | @turn n rest B C D turn next _ ih =>
      rw [List.length_cons] at enough
      obtain ⟨turns, rfl⟩ : ∃ k, turns = k + 1 := ⟨turns - 1, by omega⟩
      subst same
      obtain ⟨fuel₁, u, front', still, rfl, split', -, first⟩ := turn.sweepLoop_eq junk steady split
      obtain ⟨fuel₂, t, last, later⟩ := ih still rfl split'
        (Nat.le_trans (List.length_filter_le _ _) (Nat.le_of_succ_le_succ enough))
      refine ⟨max fuel₁ fuel₂, t, last, fun k more => ?_⟩
      have later := later k (by omega)
      rw [head?_filter (by simpa using next)] at later
      rw [List.head?_cons, first k (by omega)]
      exact later

/-- The sweep, at a request in a state, comes to turn to the request `n` in the state `u`. -/
inductive TurnsTo (attend : Nat → Cmd Unit) (n : Nat) (u : State) : Option Nat → State → Prop
  | now : TurnsTo attend n u (some n) u
  | later {m : Nat} {s t : State} :
    attend m s = .ok () t → TurnsTo attend n u (successor m s.requests) t →
      TurnsTo attend n u (some m) s

/-- It does come to that. -/
theorem TurnsTo.sweepLoop_eq {fuel n : Nat} {u : State} {next : Option Nat}
    (turns : TurnsTo (handleArpreq sr junk clock fuel) n u next s) :
    ∃ k, ∀ left, sweepLoop (handleArpreq sr junk clock fuel) (left + k) next s =
      sweepLoop (handleArpreq sr junk clock fuel) left (some n) u := by
  induction turns with
  | now => exact ⟨0, fun _ => rfl⟩
  | @later m s t handled _ ih =>
      obtain ⟨k, later⟩ := ih
      refine ⟨k + 1, fun left => ?_⟩
      obtain ⟨-, -, r, member, same⟩ := exists_of_handleArpreq handled
      have found : ∃ q, deref m s = .ok q s := by
        cases first : s.requests.find? fun req => req.id == m with
        | none =>
            have other := List.find?_eq_none.mp first r member
            exact absurd (by simpa using same) other
        | some q => exact ⟨q, by rw [deref, first]⟩
      obtain ⟨q, found⟩ := found
      rw [← Nat.add_assoc, sweepLoop, bind_ok found, bind_ok (c := get) rfl, bind_ok handled]
      exact later left

theorem dangles_of_turnsTo {fuel n : Nat} {u : State} {next : Option Nat}
    (turns : TurnsTo (handleArpreq sr junk clock fuel) n u next s) (gone : n ∉ u.ids)
    {front rest : List Nat} (steady : Steady sr entries s) (split : s.ids = front ++ rest)
    (head : rest.head? = next) : Dangles sr entries clock rest s.board := by
  induction turns generalizing front rest with
  | now =>
      cases rest with
      | nil => cases head
      | cons m rest =>
          cases head
          rw [split] at gone
          exact absurd (List.mem_append_right _ List.mem_cons_self) gone
  | @later m s t handled _ ih =>
      cases rest with
      | nil => cases head
      | cons m rest =>
          cases head
          have behind := successor_eq steady.1.apart.nodup split
          obtain ⟨still, turn, front', split'⟩ := handled_turn steady split handled
          by_cases alive : ∀ m ∈ rest.head?, m ∈ t.board.ids
          · refine Dangles.later turn alive (ih still split' ?_)
            rw [behind, head?_filter (by simpa using alive)]
          · cases rest with
            | nil => exact absurd (fun m head => by cases head) alive
            | cons m rest =>
                refine Dangles.here turn fun here => alive fun m' head => ?_
                cases head
                exact here

/-- A traversal that dangles comes to the request that is gone. -/
theorem Dangles.turnsTo (junk : Nat → Memory) {B : Board} {rest : List Nat}
    (dangles : Dangles sr entries clock rest B) {front : List Nat} (steady : Steady sr entries s)
    (same : s.board = B) (split : s.ids = front ++ rest) :
    ∃ fuel, ∀ k, fuel ≤ k → ∃ n u,
      TurnsTo (handleArpreq sr junk clock k) n u rest.head? s ∧ n ∉ u.ids := by
  induction dangles generalizing s front with
  | @here n m rest B C turn gone =>
      subst same
      obtain ⟨fuel, u, -, -, rfl, -, handled, -⟩ := turn.sweepLoop_eq junk steady split
      refine ⟨fuel, fun k more => ⟨m, u, TurnsTo.later (handled k more) ?_, ?_⟩⟩
      · rw [successor_eq steady.1.apart.nodup split]
        exact TurnsTo.now
      · rw [← board_ids]
        exact gone
  | @later n rest B C turn next _ ih =>
      subst same
      obtain ⟨fuel₁, u, front', still, rfl, split', handled, -⟩ :=
        turn.sweepLoop_eq junk steady split
      obtain ⟨fuel₂, later⟩ := ih still rfl split'
      refine ⟨max fuel₁ fuel₂, fun k more => ?_⟩
      obtain ⟨m, v, later, gone⟩ := later k (by omega)
      rw [head?_filter (by simpa using next)] at later
      refine ⟨m, v, TurnsTo.later (handled k (by omega)) ?_, gone⟩
      rw [successor_eq steady.1.apart.nodup split]
      exact later

end

/-! ## The sweep as a whole -/

section

variable (sr : Instance) (junk : Nat → Memory) (clock : Nat → Int) (s : State)

/-- Every call of `handle_arpreq` with a request of the queue returns, and the sweep returns. -/
def Returns : Prop :=
  (∀ r ∈ s.requests, ∃ fuel t, handleArpreq sr junk clock fuel r.id s = .ok () t) ∧
    ∃ fuel t, srArpcacheSweepreqs sr junk clock fuel s = .ok () t

/-- The sweep calls `handle_arpreq` only with requests that are on the queue then. -/
def TurnsToLive : Prop :=
  ∀ fuel n u, TurnsTo (handleArpreq sr junk clock fuel) n u (s.requests.head?.map ArpReq.id) s →
    ∃ r ∈ u.requests, r.id = n

theorem srArpcacheSweepreqs_eq (fuel : Nat) :
    srArpcacheSweepreqs sr junk clock fuel s =
      sweepLoop (handleArpreq sr junk clock fuel) s.ids.length s.ids.head? s := by
  rw [srArpcacheSweepreqs, bind_ok (c := get) rfl, State.ids, List.head?_map, List.length_map]

end

/-- The calls return if and only if the search goes through for every request of the queue, and
at every turn of the sweep, each request handled by the time that its own call reads. -/
theorem returns_iff (sr : Instance) (junk : Nat → Memory) (clock : Nat → Int) (s : State)
    (well : WellQueued (Refusable sr) s) :
    Returns sr junk clock s ↔
      (∀ r ∈ s.requests, ∃ B, Attended sr s.entries clock [] r.id s.board B) ∧
        ∃ B, Swept sr s.entries clock [] s.ids s.board B := by
  have steady : Steady sr s.entries s := ⟨well, rfl⟩
  rw [Returns]
  refine and_congr ?_ ⟨?_, ?_⟩
  · exact forall₂_congr fun r member => handleArpreq_returns_iff junk steady member
  · intro given
    rcases given with ⟨fuel, t, returns⟩
    rw [srArpcacheSweepreqs_eq] at returns
    exact ⟨t.board, swept_of_returns steady (List.nil_append _).symm returns⟩
  · intro given
    rcases given with ⟨B, swept⟩
    obtain ⟨fuel, t, -, returns⟩ :=
      swept.returns junk steady rfl (List.nil_append _).symm (Nat.le_refl _)
    refine ⟨fuel, t, ?_⟩
    rw [srArpcacheSweepreqs_eq]
    exact returns fuel (Nat.le_refl _)

/-- A request for the default gateway: its answers go to the gateway as well. -/
theorem gateway_diverges (junk : Nat → Memory) (fuel : Nat) {s : State} {r : ArpReq}
    {k : Token} {ks : List Token} (steady : Steady oneInterface [] s) (member : r ∈ s.requests)
    (expired : r.asked.Expired 10) (gateway : r.ip = 0x0200000a) (tokens : r.asked.tokens = k :: ks)
    (long : 42 ≤ k.len) :
    ∃ t, handleArpreq oneInterface junk (fun _ => 10) fuel r.id s = .error .outOfFuel t := by
  induction fuel generalizing s r k ks with
  | zero => exact ⟨s, rfl⟩
  | succ fuel ih =>
      obtain ⟨p, ps, packets, rfl, -⟩ := List.map_eq_cons_iff.mp tokens
      have refusable := steady.1.packets r member p (by rw [packets]; exact List.mem_cons_self)
      obtain ⟨iface, here⟩ := Option.isSome_iff_exists.mp refusable.2
      have answered : Answered oneInterface [] p.token r.ip ⟨iface.ip, [101, 49], 70⟩ := by
        refine ⟨⟨0, 0x0200000a, 0, [101, 49]⟩, ⟨[101, 49], ⟨2, 0, 0, 0, 0, 1⟩, 0x0100000a⟩,
          iface, ?_, long, rfl, gateway.symm, here, rfl⟩
        simp [nextHop, srGetLongestPrefixMatch, oneInterface, longerMatch, srGetInterface]
      -- the request itself, with the message in front
      let e : Token := ⟨iface.ip, [101, 49], 70⟩
      have itself : { r.asked with tokens := e :: r.asked.tokens } ∈
          (s.ticked.board.queue r.ip e).asked := by
        rw [board_queue_old steady.ticked.1 member]
        exact List.mem_map.mpr ⟨r.asked, mem_board member, if_pos rfl⟩
      obtain ⟨q, u, call, still, inside, same, -, -⟩ :=
        @refusePacket_asked _ _ (fun _ => 10) _ _ junk _ _ _ _ steady.ticked member answered itself
          rfl
      have id : q.id = r.id := congrArg Asked.id same
      obtain ⟨t, failure⟩ := ih still inside (by rw [same]; exact expired)
        ((congrArg Asked.ip same).trans gateway) (congrArg Asked.tokens same)
        (show 42 ≤ 70 by decide)
      have first : refusePacket oneInterface junk (fun _ => 10)
          (handleArpreq oneInterface junk (fun _ => 10) fuel) r.id p s.ticked =
          .error .outOfFuel t := by
        rw [call]
        exact failure
      refine ⟨t, ?_⟩
      rw [handleArpreq_expired steady member expired, packets, forM_cons]
      exact bind_error (bind_error first)

/-- A packet from 10.0.0.9 to 1.2.3.4. -/
def waitingPacket : Bytes :=
  [0, 0, 0, 0, 0, 0, 2, 0, 0, 0, 0, 1, 8, 0,
    0x45, 0, 0, 28, 0, 0, 0, 0, 63, 17, 0x6d, 0xc3, 10, 0, 0, 9, 1, 2, 3, 4, 0, 7, 0, 7, 0, 8, 0, 0]

/-- A router with one interface, 10.0.0.1, and a route to 10.0.0.9 through 10.0.0.2 only. -/
def towardsOne : Instance where
  ifList := [⟨[101, 49], ⟨2, 0, 0, 0, 0, 1⟩, 0x0100000a⟩]
  routingTable := [⟨0x0900000a, 0x0200000a, 0xffffffff, [101, 49]⟩]

/-- A clock that shows a second more at every reading, from 10 on. -/
def everySecond (n : Nat) : Int := 10 + n

/-- Two gateways have not answered; the answer to a packet for the first goes to the second, which
is due a second later. -/
def twoDue : State where
  entries := []
  requests := [⟨1, 0x0300000a, 0, 5, [⟨waitingPacket, [101, 49]⟩]⟩,
    ⟨0, 0x0200000a, 9, 5, [⟨List.replicate 42 0, [101, 49]⟩]⟩]
  nextId := 2
  mallocs := 0
  readings := 0
  log := []

theorem wellQueued_twoDue : WellQueued (Refusable towardsOne) twoDue where
  apart := ⟨by decide, by decide⟩
  oneEach := by decide
  nonempty := by decide
  packets := by decide

/-- The default gateway has not answered five ARP requests. -/
def gatewayDue : State where
  entries := []
  requests := [⟨0, 0x0200000a, 0, 5, [⟨waitingPacket, [101, 49]⟩]⟩]
  nextId := 1
  mallocs := 0
  readings := 0
  log := []

theorem wellQueued_gatewayDue : WellQueued (Refusable oneInterface) gatewayDue where
  apart := ⟨by decide, by decide⟩
  oneEach := by decide
  nonempty := by decide
  packets := by decide

theorem gatewayDue_not_returns :
    (∀ (junk : Nat → Memory) (fuel : Nat), ∃ t,
      srArpcacheSweepreqs oneInterface junk (fun _ => 10) fuel gatewayDue =
        .error .outOfFuel t) ∧
    ¬ ∀ (sr : Instance) (junk : Nat → Memory) (clock : Nat → Int) (s : State),
      WellQueued (Refusable sr) s → Returns sr junk clock s := by
  have loops : ∀ (junk : Nat → Memory) (fuel : Nat), ∃ t,
      handleArpreq oneInterface junk (fun _ => 10) fuel 0 gatewayDue = .error .outOfFuel t :=
    fun junk fuel => gateway_diverges junk fuel ⟨wellQueued_gatewayDue, rfl⟩ List.mem_cons_self
      (by decide) rfl rfl (by decide)
  constructor
  · intro junk fuel
    obtain ⟨t, failure⟩ := loops junk fuel
    refine ⟨t, ?_⟩
    rw [srArpcacheSweepreqs_eq]
    exact (sweepLoop_live wellQueued_gatewayDue.apart (List.nil_append _).symm).trans
      (bind_error failure)
  · intro all
    obtain ⟨fuel, t, returns⟩ := (all oneInterface (fun _ _ => 0) (fun _ => 10) gatewayDue
      wellQueued_gatewayDue).1 _ List.mem_cons_self
    obtain ⟨t', failure⟩ := loops (fun _ _ => 0) fuel
    have same := returns.symm.trans failure
    cases same

/-- What the calls with both requests come to, while the seconds pass. -/
theorem returns_iff_twoDue :
    Returns towardsOne (fun _ _ => 0) everySecond twoDue ↔
      (∀ r ∈ twoDue.requests,
        ∃ B, Attended towardsOne twoDue.entries everySecond [] r.id twoDue.board B) ∧
      ∃ B, Swept towardsOne twoDue.entries everySecond [] twoDue.ids twoDue.board B :=
  returns_iff towardsOne (fun _ _ => 0) everySecond twoDue wellQueued_twoDue

/-- The sweep keeps to the queue if and only if no request goes while the one before it is
handled. -/
theorem turnsToLive_iff (sr : Instance) (junk : Nat → Memory) (clock : Nat → Int) (s : State)
    (well : WellQueued (Refusable sr) s) :
    TurnsToLive sr junk clock s ↔ ¬ Dangles sr s.entries clock s.ids s.board := by
  have steady : Steady sr s.entries s := ⟨well, rfl⟩
  have first : s.ids.head? = s.requests.head?.map ArpReq.id := List.head?_map ..
  constructor
  · intro live dangles
    obtain ⟨fuel, turns⟩ := dangles.turnsTo junk steady rfl (List.nil_append _).symm
    obtain ⟨n, u, turns, gone⟩ := turns fuel (Nat.le_refl _)
    rw [first] at turns
    exact gone (mem_ids.mpr (live fuel n u turns))
  · intro sound fuel n u turns
    by_contra gone
    exact sound (dangles_of_turnsTo turns (fun here => gone (mem_ids.mp here)) steady
      (List.nil_append _).symm first)

/-- The second request is due when the answer to the first is queued under it: it is given up,
and the sweep turns to it. -/
theorem twoDue_not_turnsToLive :
    (∃ t, srArpcacheSweepreqs towardsOne (fun _ _ => 0) everySecond 2 twoDue =
      .error .useAfterFree t) ∧
    ¬ ∀ (sr : Instance) (junk : Nat → Memory) (clock : Nat → Int) (s : State),
      WellQueued (Refusable sr) s → TurnsToLive sr junk clock s := by
  refine ⟨⟨_, rfl⟩, fun all => ?_⟩
  have handled : ∃ t, handleArpreq towardsOne (fun _ _ => 0) everySecond 2 1 twoDue =
      .ok () t ∧ t.requests = [] := ⟨_, rfl, rfl⟩
  obtain ⟨t, handled, none⟩ := handled
  obtain ⟨r, member, -⟩ := all towardsOne (fun _ _ => 0) everySecond twoDue wellQueued_twoDue 2 0 t
    (TurnsTo.later handled TurnsTo.now)
  rw [none] at member
  cases member

theorem turnsToLive_iff_gatewayDue :
    TurnsToLive oneInterface (fun _ _ => 0) (fun _ => 10) gatewayDue ↔
      ¬ Dangles oneInterface gatewayDue.entries (fun _ => 10) gatewayDue.ids gatewayDue.board :=
  turnsToLive_iff oneInterface (fun _ _ => 0) (fun _ => 10) gatewayDue wellQueued_gatewayDue

end CompNet.Router
