import CompNet.Router.Sweep
import CompNet.Router.Emission
import CompNet.Lib.Path

/-!
# The two threads

The packet thread looks an address up, queues the packet if there is no mapping, and
hands the request that it is given to `handle_arpreq`.  Each of these takes the lock of
the cache for itself, so that the timeout thread may sweep the queue in between, with the
lock held for the whole sweep.  A request survives a sweep unless one of the calls that
the sweep makes for it, from its own loop or for an error message, reads a time at which
the request is due.
-/

namespace CompNet.Router

open CompNet.Lib

/-- Where the packet thread is. -/
inductive PacketThread
  | idle
  | missed (ip : Ip) (frame : Bytes) (iface : IfName)
  | holding (id : Nat)
  deriving DecidableEq, Repr

structure Threads where
  state : State
  thread : PacketThread
  deriving DecidableEq, Repr

def Threads.init : Threads := ⟨State.init, .idle⟩

/-- The steps: those of the packet thread, with the lookup as the last thing that it does about
a frame before it queues it, and a turn of the timeout thread. -/
inductive ThreadStep
  | receive (frame : Bytes) (interface : IfName)
  | queue
  | handle
  | timeout
  deriving DecidableEq, Repr

section

variable (sr : Instance) (junk : Nat → Memory) (clock : Nat → Int)

/-- The packet thread up to the lookup, and to the end unless there is a frame to queue. -/
def receive (frame : Bytes) (interface : IfName) (s : State) : Option Threads :=
  match srHandlepacketAction sr s.entries (junk s.mallocs) frame interface with
  | .error _ => none
  | .ok (.queue ip frame iface) => some ⟨s.allocated, .missed ip frame iface⟩
  | .ok action =>
      (returned (perform sr clock (fun _ => pure ()) action s.allocated)).map fun t => ⟨t, .idle⟩

def Threads.next (fuel : Nat) (x : Threads) (step : ThreadStep) : Option Threads :=
  match step, x.thread with
  | .receive frame interface, .idle => receive sr junk clock frame interface x.state
  | .queue, .missed ip frame iface =>
      match srArpcacheQueuereq ip frame iface x.state with
      | .ok id t => some ⟨t, .holding id⟩
      | .error _ _ => none
  | .handle, .holding id =>
      (returned (handleArpreq sr junk clock fuel id x.state)).map fun t => ⟨t, .idle⟩
  | .timeout, thread =>
      (returned (srArpcacheTimeout sr junk clock fuel x.state)).map fun t => ⟨t, thread⟩
  | _, _ => none

/-- A step of one of the threads, with as much fuel as it needs. -/
def Stepped (x : Threads) (step : ThreadStep) (y : Threads) : Prop :=
  ∃ fuel, x.next sr junk clock fuel step = some y

/-- Whenever the sweep handles the request that the packet thread holds, the time that this call
reads finds it not due: the traversal of the queue goes through without giving it up. -/
def Spared (x : Threads) : ThreadStep → Prop
  | .timeout => ∀ id, x.thread = .holding id →
      ∃ B, Swept sr (expireEntries (clock x.state.readings) x.state.entries) clock [id] x.state.ids
        x.state.board.ticked B
  | _ => True

end

/-! ## What every step keeps -/

structure Threads.Inv (sr : Instance) (x : Threads) : Prop where
  well : WellQueued (Refusable sr) x.state
  missed : ∀ ip frame iface, x.thread = .missed ip frame iface → Refusable sr ⟨frame, iface⟩
  held : ∀ id, x.thread = .holding id → ∃ r ∈ x.state.requests, r.id = id

section

variable {sr : Instance} {junk : Nat → Memory} {clock : Nat → Int} {fuel : Nat} {s t : State}

theorem Threads.Inv.of_idle (well : WellQueued (Refusable sr) s) : Threads.Inv sr ⟨s, .idle⟩ where
  well := well
  missed _ _ _ same := by cases same
  held _ same := by cases same

/-- What a handler queues can be answered. -/
theorem refusable_of_queue {entries : List ArpEntry} {mem : Memory} {frame copy : Bytes}
    {interface iface : IfName} {ip : Ip}
    (queued : srHandlepacketAction sr entries mem frame interface = .ok (.queue ip copy iface)) :
    Refusable sr ⟨copy, iface⟩ := by
  have decision : (Decision.received frame interface).action sr entries mem =
      .ok (.queue ip copy iface) :=
    queued
  obtain ⟨rt, out, f, passes⟩ := passes_of_queue decision
  obtain ⟨-, rfl, same⟩ := passes.of_queue decision
  refine ⟨?_, ?_⟩
  · show 34 ≤ copy.length
    rw [same.length]
    exact passes.long
  · show (srGetInterface sr out.name).isSome = true
    rw [passes.found]
    rfl

theorem flushPacket_well (mac : Mac) (p : Packet) :
    Triple (WellQueued (Refusable sr)) (flushPacket sr mac p) fun _ =>
      WellQueued (Refusable sr) := by
  intro s a t well returns
  obtain ⟨buf, u, first, rest⟩ := bind_eq_ok.mp returns
  obtain ⟨out, v, found, rest⟩ := bind_eq_ok.mp rest
  obtain ⟨buf', w, second, sent⟩ := bind_eq_ok.mp rest
  have same : ∀ {α : Type} {r : Except Fault α} {a : α} {x y : State},
      ofExcept r x = .ok a y → y = x := by
    intro α r a x y ok
    cases r <;> cases ok
    rfl
  rw [same second, same found, same first] at sent
  cases sent
  exact well.congr rfl rfl

/-- The other ways in which a handler ends leave a queue in order. -/
theorem perform_well {attend : Nat → Cmd Unit} {action : Action}
    (other : ∀ ip frame iface, action ≠ .queue ip frame iface) :
    Triple (WellQueued (Refusable sr)) (perform sr clock attend action)
      fun _ => WellQueued (Refusable sr) := by
  cases action with
  | drop => exact Triple.pure (Q := fun _ => WellQueued (Refusable sr)) ()
  | send frame iface =>
      intro s a t well returns
      cases returns
      exact well.congr rfl rfl
  | queue ip frame iface => exact absurd rfl (other ip frame iface)
  | learn mac ip =>
      intro s a t well returns
      rw [perform, bind_ok (time_eq clock s)] at returns
      obtain ⟨found, u, inserted, rest⟩ := bind_eq_ok.mp returns
      cases inserted
      have less : WellQueued (Refusable sr) { s.ticked with
          entries := insertEntry ⟨mac, ip, clock s.readings, true⟩ s.entries
          requests := s.requests.eraseP fun req => req.ip == ip } :=
        well.sublist List.eraseP_sublist rfl
      cases taken : s.ticked.requests.find? fun req => req.ip == ip with
      | none =>
          rw [taken] at rest
          cases rest
          exact less
      | some req =>
          rw [taken] at rest
          exact Triple.forM (fun p _ => flushPacket_well mac p) _ a t less rest

theorem receive_inv {frame : Bytes} {interface : IfName} {y : Threads}
    (well : WellQueued (Refusable sr) s) (step : receive sr junk clock frame interface s = some y) :
    y.Inv sr := by
  have allocated : WellQueued (Refusable sr) s.allocated := well.congr rfl rfl
  rw [receive] at step
  cases decided : srHandlepacketAction sr s.entries (junk s.mallocs) frame interface with
  | error e =>
      rw [decided] at step
      cases step
  | ok action =>
      by_cases queue : ∃ ip copy iface, action = .queue ip copy iface
      · obtain ⟨ip, copy, iface, rfl⟩ := queue
        rw [decided] at step
        cases step
        refine ⟨allocated, ?_, fun id same => by cases same⟩
        intro ip' copy' iface' same
        cases same
        exact refusable_of_queue decided
      · have other : ∀ ip copy iface, action ≠ .queue ip copy iface :=
          fun ip copy iface same => queue ⟨ip, copy, iface, same⟩
        have ends : (returned (perform sr clock (fun _ => pure ()) action s.allocated)).map
            (fun t => (⟨t, .idle⟩ : Threads)) = some y := by
          rw [decided] at step
          cases action with
          | queue ip copy iface => exact absurd rfl (other ip copy iface)
          | _ => exact step
        obtain ⟨t, performed, rfl⟩ := Option.map_eq_some_iff.mp ends
        exact .of_idle (perform_well other _ _ t allocated (eq_ok_of_returned performed))

/-- The queue stays in order through a sweep. -/
theorem sweepLoop_steady {entries : List ArpEntry} {turns : Nat} {next : Option Nat}
    (steady : Steady sr entries s)
    (returns : sweepLoop (handleArpreq sr junk clock fuel) turns next s = .ok () t) :
    Steady sr entries t := by
  induction turns generalizing s next with
  | zero =>
      cases next with
      | none =>
          cases returns
          exact steady
      | some id => cases returns
  | succ turns ih =>
      cases next with
      | none =>
          cases returns
          exact steady
      | some id =>
          obtain ⟨r, u, found, rest⟩ := bind_eq_ok.mp returns
          obtain ⟨rfl, member, rfl⟩ := deref_eq_ok found
          obtain ⟨v, w, same, rest⟩ := bind_eq_ok.mp rest
          cases same
          obtain ⟨_, w, handled, rest⟩ := bind_eq_ok.mp rest
          exact ih ((follows sr entries junk clock fuel).steady steady member handled).1 rest

/-- The state that the sweep of the timeout thread starts from. -/
def State.expired (clock : Nat → Int) (s : State) : State :=
  { s.ticked with entries := expireEntries (clock s.readings) s.entries }

theorem srArpcacheTimeout_eq (s : State) :
    srArpcacheTimeout sr junk clock fuel s =
      sweepLoop (handleArpreq sr junk clock fuel) s.ids.length s.ids.head? (s.expired clock) := by
  rw [srArpcacheTimeout, bind_ok (time_eq clock s), bind_ok (c := modify _) rfl,
    srArpcacheSweepreqs_eq]
  rfl

theorem steady_expired (well : WellQueued (Refusable sr) s) :
    Steady sr (expireEntries (clock s.readings) s.entries) (s.expired clock) :=
  ⟨well.congr rfl rfl, rfl⟩

/-- A sweep leaves a request that none of its calls finds due. -/
theorem timeout_spared {id : Nat} (well : WellQueued (Refusable sr) s)
    (returns : srArpcacheTimeout sr junk clock fuel s = .ok () t) {B : Board}
    (swept : Swept sr (expireEntries (clock s.readings) s.entries) clock [id] s.ids s.board.ticked
      B) (here : id ∈ s.ids) : id ∈ t.ids := by
  rw [srArpcacheTimeout_eq] at returns
  obtain ⟨fuel', t', rfl, enough⟩ := swept.returns junk (steady_expired well) rfl
    (List.nil_append _).symm (Nat.le_refl _)
  -- the traversal is that of the sweep, as more fuel makes no difference
  have more : ∀ id, Extends (handleArpreq sr junk clock fuel id)
      (handleArpreq sr junk clock (max fuel fuel') id) :=
    fun id => handleArpreq_extends (Nat.le_max_left _ _) id
  have same := sweepLoop_extends more _ _ _ () t returns
  rw [enough _ (Nat.le_max_right _ _)] at same
  cases same
  rw [← board_ids]
  refine swept.opened_stay (List.mem_singleton.mpr rfl) ?_
  rw [← board_ids] at here
  exact here

theorem Stepped.inv {x y : Threads} {step : ThreadStep} (stepped : Stepped sr junk clock x step y)
    (spared : Spared sr clock x step) (inv : x.Inv sr) : y.Inv sr := by
  obtain ⟨fuel, stepped⟩ := stepped
  obtain ⟨s, thread⟩ := x
  obtain ⟨well, missed, held⟩ := inv
  cases step with
  | receive frame interface =>
      cases thread with
      | idle => exact receive_inv well stepped
      | missed ip frame iface => cases stepped
      | holding id => cases stepped
  | queue =>
      cases thread with
      | idle => cases stepped
      | holding id => cases stepped
      | missed ip frame iface =>
          obtain ⟨q, t, queued, steady, member, -⟩ :=
            srArpcacheQueuereq_board ⟨well, rfl⟩ ip (missed ip frame iface rfl)
          simp only [Threads.next] at stepped
          rw [queued] at stepped
          cases stepped
          refine ⟨steady.1, fun _ _ _ equal => ?_, fun id equal => ?_⟩
          · cases equal
          · cases equal
            exact ⟨q, member, rfl⟩
  | handle =>
      cases thread with
      | idle => cases stepped
      | missed ip frame iface => cases stepped
      | holding id =>
          obtain ⟨t, handled, rfl⟩ := Option.map_eq_some_iff.mp stepped
          obtain ⟨r, member, rfl⟩ := held id rfl
          have after := (follows sr s.entries junk clock fuel).steady ⟨well, rfl⟩ member
            (eq_ok_of_returned handled)
          exact .of_idle after.1.1
  | timeout =>
      have swept : (returned (srArpcacheTimeout sr junk clock fuel s)).map
          (fun t => (⟨t, thread⟩ : Threads)) = some y := by
        cases thread <;> exact stepped
      obtain ⟨t, ok, rfl⟩ := Option.map_eq_some_iff.mp swept
      have returns := eq_ok_of_returned ok
      refine ⟨?_, missed, fun id same => ?_⟩
      · rw [srArpcacheTimeout_eq] at returns
        exact (sweepLoop_steady (steady_expired well) returns).1
      · obtain ⟨B, through⟩ := spared id same
        exact mem_ids.mp (timeout_spared well returns through (mem_ids.mpr (held id same)))

end

/-- If the calls of the sweeps do not find the request due that the packet thread holds, the
request is on the queue until it is handled. -/
theorem held_request_queued (sr : Instance) (junk : Nat → Memory) (clock : Nat → Int)
    (steps : List ThreadStep) (x : Threads) (id : Nat)
    (run : Path (fun x step y => Spared sr clock x step ∧ Stepped sr junk clock x step y)
      Threads.init steps x)
    (holding : x.thread = .holding id) : ∃ r ∈ x.state.requests, r.id = id := by
  have inv : x.Inv sr := by
    refine Path.invariant (fun x step y edge inv => edge.2.inv edge.1 inv) run ?_
    exact .of_idle wellQueued_init
  exact inv.held id holding

/-- A packet from 10.0.0.7, which has no route back, to 10.0.0.9. -/
def oneWay : Bytes :=
  [2, 0, 0, 0, 0, 1, 2, 0, 0, 0, 0, 7, 8, 0,
    0x45, 0, 0, 28, 0, 0, 0, 0, 64, 17, 0x66, 0xc2, 10, 0, 0, 7, 10, 0, 0, 9, 0, 7, 0, 7,
    0, 8, 0, 0]

/-- A clock that is read twice a second from 2 on. -/
def twiceASecond (n : Nat) : Int := 2 + (n + 1) / 2

/-- 10.0.0.2 does not answer; a second packet comes when its request is due, and the sweep runs
before the request is handled. -/
def sweptInBetween : List ThreadStep :=
  [.receive oneWay [101, 49], .queue, .handle] ++ List.replicate 9 .timeout ++
    [.receive oneWay [101, 49], .queue, .timeout]

/-- The packet thread is left with a request that has been destroyed. -/
theorem sweptInBetween_not_queued :
    (∃ x, Path (Stepped towardsOne (fun _ _ => 0) twiceASecond) Threads.init sweptInBetween x ∧
      x.thread = .holding 0 ∧ x.state.requests = []) ∧
    ¬ ∀ (sr : Instance) (junk : Nat → Memory) (clock : Nat → Int) (steps : List ThreadStep)
      (x : Threads) (id : Nat), Path (Stepped sr junk clock) Threads.init steps x →
        x.thread = .holding id → ∃ r ∈ x.state.requests, r.id = id := by
  have ends : (follow (Threads.next towardsOne (fun _ _ => 0) twiceASecond 1) Threads.init
      sweptInBetween).map (fun x => (x.thread, x.state.requests)) = some (.holding 0, []) := by
    decide +kernel
  obtain ⟨x, ran, last⟩ := Option.map_eq_some_iff.mp ends
  obtain ⟨thread, requests⟩ := Prod.ext_iff.mp last
  have path : Path (Stepped towardsOne (fun _ _ => 0) twiceASecond) Threads.init
      sweptInBetween x :=
    (Path.of_follow ran).mono fun x step y edge => ⟨1, edge⟩
  refine ⟨⟨x, path, thread, requests⟩, fun all => ?_⟩
  obtain ⟨r, member, -⟩ :=
    all towardsOne (fun _ _ => 0) twiceASecond sweptInBetween x 0 path thread
  have none : x.state.requests = [] := requests
  rw [none] at member
  exact List.not_mem_nil member

/-- The request for 10.0.0.2 that holds the first packet. -/
def firstAsked : Asked := ⟨0, 0x0200000a, 0, 0, [⟨0x0700000a, [101, 49], 42⟩]⟩

/-- The sweep sends its ARP request. -/
theorem swept_firstAsked (entries : List ArpEntry) :
    ∃ B, Swept towardsOne entries twiceASecond [0] [0] (Board.ticked ⟨[firstAsked], 1, 0⟩) B := by
  refine ⟨_, Swept.turn (Attended.young (a := firstAsked) List.mem_cons_self (by decide)) ?_
    Swept.nil⟩
  intro m head
  cases head

/-- A packet is queued, and the sweep leaves its request. -/
theorem held_request_queued_oneWay :
    ∃ x, Path (fun x step y => Spared towardsOne twiceASecond x step ∧
        Stepped towardsOne (fun _ _ => 0) twiceASecond x step y)
      Threads.init [.receive oneWay [101, 49], .queue, .timeout] x ∧
      ∃ r ∈ x.state.requests, r.id = 0 := by
  have ends : (follow (fun x step =>
      if step = .timeout → x.thread = .holding 0 ∧ x.state.board = ⟨[firstAsked], 1, 0⟩ then
        Threads.next towardsOne (fun _ _ => 0) twiceASecond 1 x step
      else none) Threads.init [.receive oneWay [101, 49], .queue, .timeout]).map
        Threads.thread = some (.holding 0) := by
    decide +kernel
  obtain ⟨x, ran, thread⟩ := Option.map_eq_some_iff.mp ends
  have path : Path (fun x step y => Spared towardsOne twiceASecond x step ∧
        Stepped towardsOne (fun _ _ => 0) twiceASecond x step y)
      Threads.init [.receive oneWay [101, 49], .queue, .timeout] x := by
    refine (Path.of_follow ran).mono fun x step y edge => ?_
    split_ifs at edge with known
    refine ⟨?_, 1, edge⟩
    cases step with
    | timeout =>
        obtain ⟨holding, board⟩ := known rfl
        intro id same
        obtain rfl : 0 = id := by
          rw [holding] at same
          cases same
          rfl
        have ids : x.state.ids = [0] := by
          rw [← board_ids, board]
          rfl
        rw [ids, board]
        exact swept_firstAsked _
    | _ => trivial
  exact ⟨x, path, held_request_queued towardsOne _ _ _ x 0 path thread⟩

end CompNet.Router
