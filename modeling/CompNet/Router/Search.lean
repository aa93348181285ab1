import CompNet.Router.Refusal

/-!
# The search and the handlers

`handle_arpreq` returns if and only if the search goes through, and then the search says
which requests are left.  One direction follows the calls: a request whose packets are
being answered is used again behind each answer, so that a call that returns has not given
it up.  The other one follows the search and adds up the fuel.
-/

namespace CompNet.Router

open CompNet.Lib

/-! ## From the calls to the search -/

/-- A call with so much fuel that returns, and leaves the requests `opened`, has done what the
search does. -/
def Follows (sr : Instance) (entries : List ArpEntry) (junk : Nat → Memory) (clock : Nat → Int)
    (fuel : Nat) : Prop :=
  ∀ (opened : List Nat) {s t : State} {r : ArpReq}, Steady sr entries s → r ∈ s.requests →
    (∀ n ∈ opened, n < s.nextId ∧ n ∈ t.ids) → handleArpreq sr junk clock fuel r.id s = .ok () t →
    Steady sr entries t ∧ Attended sr entries clock opened r.id s.board t.board

section

variable {sr : Instance} {entries : List ArpEntry} {junk : Nat → Memory} {clock : Nat → Int}
  {fuel : Nat} {opened : List Nat} {s t : State} {r : ArpReq} {p : Packet} {ps : List Packet}
  {k e : Token} {ks : List Token} {ip : Ip} {n : Nat} {B C D : Board}

/-- The request for an address is handled, whatever becomes of it. -/
theorem Refused.call (answered : Answered sr entries k ip e) {q : Asked}
    (member : q ∈ (B.queue ip e).asked) (for_ip : q.ip = ip)
    (oneEach : ∀ a ∈ (B.queue ip e).asked, a.id = q.id → a = q)
    (handled : Attended sr entries clock opened q.id (B.queue ip e) C)
    (rest : Refused sr entries clock opened C ks D) :
    Refused sr entries clock opened B (k :: ks) D := by
  have reading := B.queue_readings ip e
  generalize same : q.id = n at handled
  cases handled with
  | young inside young =>
      rw [oneEach _ inside same.symm, reading] at rest
      rw [oneEach _ inside same.symm, reading] at young
      exact Refused.young answered member for_ip young rest
  | given inside expired fresh refused =>
      rw [oneEach _ inside same.symm] at refused fresh rest
      rw [oneEach _ inside same.symm, reading] at expired
      exact Refused.nested answered member for_ip expired fresh refused rest

/-- The requests of a queue are told apart by their identities. -/
theorem State.Apart.asked_eq (apart : s.Apart) (member : r ∈ s.requests) {a : Asked}
    (inside : a ∈ s.board.asked) (same : a.id = r.id) : a = r.asked := by
  obtain ⟨q, here, rfl⟩ := List.mem_map.mp inside
  rw [apart.eq here member same]

theorem mem_board (member : r ∈ s.requests) : r.asked ∈ s.board.asked :=
  List.mem_map_of_mem member

theorem ids_of_mem (member : r ∈ s.requests) : r.id ∈ s.ids := mem_ids.mpr ⟨r, member, rfl⟩

/-- What a call leaves that returns, whoever is open. -/
theorem Follows.steady (follows : Follows sr entries junk clock fuel) (steady : Steady sr entries s)
    (member : r ∈ s.requests) (returns : handleArpreq sr junk clock fuel r.id s = .ok () t) :
    Steady sr entries t ∧ Evolved s.board t.board := by
  obtain ⟨still, handled⟩ := follows [] steady member
    (fun n inside => absurd inside List.not_mem_nil) returns
  exact ⟨still, handled.evolved steady.1.apart.board_fresh⟩

/-- The packets of an open request. -/
theorem refused_of_forM (follows : Follows sr entries junk clock fuel)
    (steady : Steady sr entries s) (alive : ∀ n ∈ opened, n < s.nextId ∧ n ∈ t.ids)
    (refusable : ∀ p ∈ ps, Refusable sr p)
    (loop : ps.forM (refusePacket sr junk clock (handleArpreq sr junk clock fuel) n) s = .ok () t) :
    Steady sr entries t ∧
      Refused sr entries clock opened s.board (ps.map Packet.token) t.board := by
  induction ps generalizing s with
  | nil =>
      cases loop
      exact ⟨steady, Refused.nil⟩
  | cons p ps ih =>
      rw [forM_cons] at loop
      obtain ⟨_, u, turn, rest⟩ := bind_eq_ok.mp loop
      obtain ⟨r, member, rfl⟩ := exists_of_refusePacket turn
      have others := fun q inside => refusable q (List.mem_cons_of_mem p inside)
      rcases answer_cases entries (refusable p List.mem_cons_self) with
        ⟨short, rt, out, hop⟩ | silent | ⟨ip, e, answered⟩
      · rw [refusePacket_short steady member (refusable p List.mem_cons_self) short hop] at turn
        cases turn
      · obtain ⟨v, returns, still, board⟩ := refusePacket_silent junk clock steady member
          (refusable p List.mem_cons_self) silent
        rw [returns] at turn
        cases turn
        have older : u.nextId = s.nextId := congrArg Board.nextId board
        obtain ⟨last, refused⟩ := ih still (by rw [older]; exact alive) others rest
        rw [board] at refused
        exact ⟨last, Refused.silent silent refused⟩
      · obtain ⟨q, v, call, still, inside, for_ip, board⟩ :=
          refusePacket_answered junk clock steady member answered
        rw [call] at turn
        have fresh := steady.1.apart.board_fresh
        have queued : Evolved s.board v.board := by
          rw [board]
          exact evolved_queue fresh ip e
        obtain ⟨still', evolved⟩ := follows.steady still inside turn
        have older : s.nextId ≤ u.nextId := Nat.le_trans queued.grows evolved.grows
        obtain ⟨last, refused⟩ := ih still' (fun n opened =>
          ⟨Nat.lt_of_lt_of_le (alive n opened).1 older, (alive n opened).2⟩) others rest
        -- what is open at the end is open behind this answer
        have between : ∀ n ∈ opened, n < v.nextId ∧ n ∈ u.ids := by
          intro n here
          obtain ⟨old, there⟩ := alive n here
          refine ⟨Nat.lt_of_lt_of_le old queued.grows, ?_⟩
          rw [← board_ids] at there ⊢
          exact (refused.evolved evolved.fresh).alive (Nat.lt_of_lt_of_le old older) there
        obtain ⟨-, handled⟩ := follows opened still inside between turn
        refine ⟨last, Refused.call (q := q.asked) answered ?_ for_ip ?_ ?_ refused⟩
        · rw [← board]
          exact mem_board inside
        · rw [← board]
          exact fun a here same => still.1.apart.asked_eq inside here same
        · rw [← board]
          exact handled

/-- What a call that returns has done. -/
theorem follows (sr : Instance) (entries : List ArpEntry) (junk : Nat → Memory)
    (clock : Nat → Int) (fuel : Nat) : Follows sr entries junk clock fuel := by
  induction fuel with
  | zero =>
      intro opened s t r _ _ _ returns
      cases returns
  | succ fuel ih =>
      intro opened s t r steady member alive returns
      by_cases expired : r.asked.Expired (clock s.readings)
      case neg =>
        obtain ⟨t', same, still, board⟩ := handleArpreq_young junk steady member expired
        rw [same fuel] at returns
        cases returns
        rw [board]
        exact ⟨still, Attended.young (mem_board member) expired⟩
      case pos =>
        rw [handleArpreq_expired steady member expired] at returns
        obtain ⟨_, u, loop, destroyed⟩ := bind_eq_ok.mp returns
        obtain ⟨rfl, q, here, same⟩ := srArpreqDestroy_eq_ok destroyed
        have gone : ∀ n ∈ (u.without r.id).ids, n ∈ u.ids ∧ n ≠ r.id := by
          intro n inside
          rw [← board_ids, board_without, Board.without_ids, board_ids, List.mem_filter,
            bne_iff_ne] at inside
          exact inside
        -- the request is there until it is destroyed, and so is what is open around it
        have open_alive : ∀ n ∈ r.id :: opened, n < s.ticked.nextId ∧ n ∈ u.ids := by
          intro n inside
          rcases List.mem_cons.mp inside with rfl | inside
          · exact ⟨steady.1.apart.fresh r member, mem_ids.mpr ⟨q, here, same⟩⟩
          · exact ⟨(alive n inside).1, (gone n (alive n inside).2).1⟩
        obtain ⟨still, refused⟩ := refused_of_forM ih steady.ticked open_alive
          (steady.1.packets r member) loop
        refine ⟨still.without r.id, ?_⟩
        rw [board_without]
        refine Attended.given (mem_board member) expired ?_ refused
        exact fun inside => (gone _ (alive _ inside).2).2 rfl

end

/-! ## From the search to the calls -/

section

variable {sr : Instance} {entries : List ArpEntry} {junk : Nat → Memory} {clock : Nat → Int}
  {s : State} {r : ArpReq} {opened : List Nat}

/-- The request that an answer leads to, found on the board. -/
theorem refusePacket_asked (junk : Nat → Memory) {p : Packet} {ip : Ip} {e : Token} {a : Asked}
    (steady : Steady sr entries s) (member : r ∈ s.requests)
    (answered : Answered sr entries p.token ip e) (inside : a ∈ (s.board.queue ip e).asked)
    (for_ip : a.ip = ip) :
    ∃ q u, (∀ attend, refusePacket sr junk clock attend r.id p s = attend q.id u) ∧
      Steady sr entries u ∧ q ∈ u.requests ∧ q.asked = a ∧ u.board = s.board.queue ip e ∧
      u.readings = s.readings := by
  obtain ⟨q, u, call, still, here, same, board⟩ :=
    refusePacket_answered junk clock steady member answered
  rw [← board] at inside
  obtain ⟨x, there, rfl⟩ := List.mem_map.mp inside
  obtain rfl := still.1.eq there here (for_ip.trans same.symm)
  refine ⟨x, u, call, still, here, rfl, board, ?_⟩
  have readings : u.board.readings = s.board.readings := by rw [board, Board.queue_readings]
  exact readings

/-- A request whose packets have been answered is destroyed. -/
theorem handleArpreq_given {fuel : Nat} {u : State} (steady : Steady sr entries s)
    (member : r ∈ s.requests) (expired : r.asked.Expired (clock s.readings))
    (loop : r.packets.forM (refusePacket sr junk clock (handleArpreq sr junk clock fuel) r.id)
      s.ticked = .ok () u)
    (still : Steady sr entries u) (here : r.id ∈ u.ids) :
    handleArpreq sr junk clock (fuel + 1) r.id s = .ok () (u.without r.id) := by
  obtain ⟨x, there, same⟩ := mem_ids.mp here
  rw [handleArpreq_expired steady member expired, bind_ok loop, ← same]
  exact srArpreqDestroy_ok still.1.apart there

/-- A search that goes through is followed by the calls. -/
theorem Refused.forM_returns (junk : Nat → Memory) {B C : Board} {ks : List Token}
    (refused : Refused sr entries clock opened B ks C) {n : Nat} {ps : List Packet}
    (steady : Steady sr entries s) (same : s.board = B) (inside : n ∈ opened)
    (live : n ∈ B.ids) (tokens : ps.map Packet.token = ks)
    (refusable : ∀ p ∈ ps, Refusable sr p) :
    ∃ fuel t, ps.forM (refusePacket sr junk clock (handleArpreq sr junk clock fuel) n) s =
      .ok () t ∧ Steady sr entries t ∧ t.board = C := by
  induction refused generalizing s n ps with
  | nil =>
      rw [List.map_eq_nil_iff.mp tokens]
      exact ⟨0, s, rfl, steady, same⟩
  | silent silent _ ih =>
      obtain ⟨p, ps, rfl, rfl, rfl⟩ := List.map_eq_cons_iff.mp tokens
      subst same
      rw [board_ids] at live
      obtain ⟨r, member, rfl⟩ := mem_ids.mp live
      obtain ⟨u, turn, still, board⟩ := refusePacket_silent junk clock steady member
        (refusable p List.mem_cons_self) silent
      obtain ⟨fuel, t, rest, last, same⟩ := ih still board inside (by rw [board_ids]; exact live)
        rfl fun q here => refusable q (List.mem_cons_of_mem _ here)
      refine ⟨fuel, t, ?_, last, same⟩
      rw [forM_cons, bind_ok (turn _)]
      exact rest
  | @young opened B C _ e ks ip a answered member for_ip young _ ih =>
      obtain ⟨p, ps, rfl, rfl, rfl⟩ := List.map_eq_cons_iff.mp tokens
      subst same
      have queued := mem_queue ip e live
      rw [board_ids] at live
      obtain ⟨r, here, rfl⟩ := mem_ids.mp live
      obtain ⟨q, v, call, still, inside_q, rfl, board, reading⟩ :=
        refusePacket_asked junk steady here answered member for_ip
      obtain ⟨u, returns, still', attended⟩ := handleArpreq_young junk still inside_q
        (by rw [reading]; exact young)
      rw [board, reading] at attended
      obtain ⟨fuel, t, rest, last, same⟩ := ih still' attended inside
        (by rw [Board.attended_ids]; exact queued) rfl
        fun x there => refusable x (List.mem_cons_of_mem _ there)
      refine ⟨fuel + 1, t, ?_, last, same⟩
      rw [forM_cons, bind_ok ((call _).trans (returns fuel))]
      exact forM_extends (Nat.le_succ fuel) _ u () t rest
  | @nested opened B C D _ e ks ip a answered member for_ip expired fresh first _ ih₁ ih₂ =>
      obtain ⟨p, ps, rfl, rfl, rfl⟩ := List.map_eq_cons_iff.mp tokens
      subst same
      have queued := mem_queue ip e live
      rw [board_ids] at live
      obtain ⟨r, here, rfl⟩ := mem_ids.mp live
      obtain ⟨q, v, call, still, inside_q, rfl, board, reading⟩ :=
        refusePacket_asked junk steady here answered member for_ip
      have own : q.id ∈ v.board.ids := by
        rw [board_ids]
        exact ids_of_mem inside_q
      obtain ⟨fuel₁, w, loop, still', left⟩ := ih₁ (s := v.ticked) (n := q.id)
        still.ticked (congrArg Board.ticked board) List.mem_cons_self (by rw [← board]; exact own)
        rfl (still.1.packets q inside_q)
      -- the nested call returns, without its request
      have returns : handleArpreq sr junk clock (fuel₁ + 1) q.id v = .ok () (w.without q.id) := by
        refine handleArpreq_given still inside_q (by rw [reading]; exact expired) loop still' ?_
        rw [← board_ids, left]
        exact first.opened_stay List.mem_cons_self (by rw [← board]; exact own)
      have differ : r.id ≠ q.id := by
        intro same
        rw [same] at inside
        exact fresh inside
      obtain ⟨fuel₂, t, rest, last, same⟩ := ih₂ (still'.without q.id)
        (by rw [board_without, left]; rfl) inside
        (mem_without (first.opened_stay (List.mem_cons_of_mem _ inside) queued) differ) rfl
        fun x there => refusable x (List.mem_cons_of_mem _ there)
      refine ⟨max (fuel₁ + 1) fuel₂, t, ?_, last, same⟩
      have turn : refusePacket sr junk clock (handleArpreq sr junk clock (max (fuel₁ + 1) fuel₂))
          r.id p s = .ok () (w.without q.id) := by
        rw [call]
        exact handleArpreq_extends (Nat.le_max_left _ _) q.id v () _ returns
      rw [forM_cons, bind_ok turn]
      exact forM_extends (Nat.le_max_right _ _) _ _ () t rest

/-- So is a request that is handled. -/
theorem Attended.returns (junk : Nat → Memory) {B : Board} {n : Nat}
    (handled : Attended sr entries clock opened n s.board B) (steady : Steady sr entries s) :
    ∃ fuel t, handleArpreq sr junk clock fuel n s = .ok () t ∧ Steady sr entries t ∧
      t.board = B := by
  generalize same : s.board = start at handled
  cases handled with
  | young member young =>
      subst same
      obtain ⟨r, here, rfl⟩ := List.mem_map.mp member
      obtain ⟨t, returns, still, board⟩ := handleArpreq_young junk steady here young
      exact ⟨1, t, returns 0, still, board⟩
  | given member expired _ refused =>
      subst same
      obtain ⟨r, here, rfl⟩ := List.mem_map.mp member
      have own : r.id ∈ s.board.ids := by
        rw [board_ids]
        exact ids_of_mem here
      obtain ⟨fuel, u, loop, still, left⟩ := refused.forM_returns junk steady.ticked rfl
        List.mem_cons_self own rfl (steady.1.packets r here)
      refine ⟨fuel + 1, u.without r.id, ?_, still.without r.id, ?_⟩
      · refine handleArpreq_given steady here expired loop still ?_
        rw [← board_ids, left]
        exact refused.opened_stay List.mem_cons_self own
      · rw [board_without, left]
        rfl

/-- A call returns if and only if the search goes through. -/
theorem handleArpreq_returns_iff (junk : Nat → Memory) (steady : Steady sr entries s)
    (member : r ∈ s.requests) :
    (∃ fuel t, handleArpreq sr junk clock fuel r.id s = .ok () t) ↔
      ∃ B, Attended sr entries clock [] r.id s.board B := by
  constructor
  · rintro ⟨fuel, t, returns⟩
    exact ⟨t.board, (follows sr entries junk clock fuel [] steady member
      (fun n inside => absurd inside List.not_mem_nil) returns).2⟩
  · rintro ⟨B, handled⟩
    obtain ⟨fuel, t, returns, -⟩ := handled.returns junk steady
    exact ⟨fuel, t, returns⟩

end

end CompNet.Router
