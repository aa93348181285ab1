import CompNet.Stcp.Listen
import CompNet.Stcp.Close
import Mathlib.Logic.Function.Basic

/-!
# Closing a listening socket

`myclose` on a listening socket calls `_mysock_close_passive_socket`, which takes
`listen_lock` for writing and then, slot by slot, calls `myclose` on the connections that
nobody has accepted; each of these waits for the transport thread of its connection to
end.  A transport thread that leaves the handshake of `transport_init`, in whichever way,
calls `stcp_unblock_application` and so `_mysock_passive_connection_complete`, which
takes the same lock for reading.

What works on the queue takes the lock and gives it back within one step, except the
thread that closes the socket.
-/

namespace CompNet.Stcp

open CompNet.Lib

/-! ## The transport threads of queued connections -/

/-- `transport_init` has called `stcp_unblock_application`. -/
def Phase.unblocked : Phase → Bool
  | .controlLoop | .refused | .exited => true
  | _ => false

/-- The thread has returned. -/
def Phase.ended : Phase → Bool
  | .refused | .exited => true
  | _ => false

/-- A transport thread runs, or waits for `listen_lock` and goes on from the endpoint given. -/
inductive TransportThread
  | running (e : Endpoint)
  | unblocking (e : Endpoint)
  deriving DecidableEq

/-- The thread wakes up; where it leaves the handshake it asks for the lock. -/
def TransportThread.wake : TransportThread → Option TransportThread
  | .running e => e.wake.map fun e' =>
      if e.phase.unblocked = false ∧ e'.phase.unblocked = true then .unblocking e' else .running e'
  | .unblocking _ => none

/-- What other threads do to the context of the connection. -/
def TransportThread.update (f : Endpoint → Endpoint) : TransportThread → TransportThread
  | .running e => .running (f e)
  | .unblocking e => .unblocking (f e)

/-- The request of `myclose`. -/
def Endpoint.requestClose (e : Endpoint) : Endpoint :=
  { e with sock := myclose e.sock, hist.closed := true }

def TransportThread.ended : TransportThread → Bool
  | .running e => e.phase.ended
  | .unblocking _ => false

/-- A new connection: its thread has not started and its SYN waits to be read. -/
def queuedConnection (initialSequenceNum : TcpSeq) (syn : Packet) : TransportThread :=
  .running ((Endpoint.init false initialSequenceNum).arrive (some syn))

/-! ## The thread that closes the socket -/

inductive Closer
  | idle
  /-- It holds the lock and has come to a slot. -/
  | locked (k : Nat)
  /-- It holds the lock, in `pthread_join` for the connection of a slot. -/
  | joining (k : Nat)
  | finished
  deriving DecidableEq, Repr

structure Shutdown where
  backlog : Backlog
  /-- The threads of the queued connections, by descriptor. -/
  threads : Int → Option TransportThread
  closer : Closer

def Shutdown.start (backlog : UInt32) (globalCtx : List Bool) : Shutdown where
  backlog := Backlog.start backlog globalCtx (-1)
  threads := fun _ => none
  closer := .idle

inductive ShutdownStep
  | syn (allocated : Bool) (packet : Packet) (peerAddr : SockAddr) (initialSequenceNum : TcpSeq)
  | wake (sd : Int)
  | arrive (sd : Int) (node : Option Packet)
  | complete (sd : Int)
  | accept
  | elsewhere (globalCtx : List Bool)
  | lock
  | nextSlot
  | joined

/-- A step of a thread that needs the lock, and what becomes of the threads. -/
def Shutdown.underLock (s : Shutdown) (step : ListenStep)
    (threads : Backlog → Int → Option TransportThread) : Option (Except Assertion Shutdown) :=
  if s.closer = .idle then
    (s.backlog.step step).map
      (·.map fun backlog => { s with backlog := backlog, threads := threads backlog })
  else none

/-- The loop of `_mysock_close_passive_socket` comes to a slot, or gives the lock back. -/
def Shutdown.nextSlot (k : Nat) (s : Shutdown) : Shutdown :=
  match s.backlog.demux.queue.connectionQueue[k]? with
  | none => { s with closer := .finished }
  | some r =>
      if r.sd = -1 then { s with closer := .locked (k + 1) }
      else { s with
        threads := Function.update s.threads r.sd
          ((s.threads r.sd).map (·.update Endpoint.requestClose))
        closer := .joining k }

def Shutdown.step (s : Shutdown) : ShutdownStep → Option (Except Assertion Shutdown)
  | .syn allocated packet peerAddr initialSequenceNum =>
      s.underLock (.syn allocated packet.wire peerAddr 0) fun backlog =>
        match backlog.waiting.drop s.backlog.waiting.length with
        | [] => s.threads
        | sd :: _ =>
            Function.update s.threads sd (some (queuedConnection initialSequenceNum packet))
  | .wake sd =>
      ((s.threads sd).bind TransportThread.wake).map fun thread =>
        .ok { s with threads := Function.update s.threads sd (some thread) }
  | .arrive sd node =>
      (s.threads sd).map fun thread =>
        .ok { s with
          threads := Function.update s.threads sd (some (thread.update (·.arrive node))) }
  | .complete sd =>
      match s.threads sd with
      | some (.unblocking e) =>
          s.underLock (.complete sd) fun _ => Function.update s.threads sd (some (.running e))
      | _ => none
  | .accept =>
      s.underLock .accept fun backlog =>
        match backlog.accepted.drop s.backlog.accepted.length with
        | [] => s.threads
        | sd :: _ => Function.update s.threads sd none
  | .elsewhere globalCtx => some (.ok { s with backlog.demux.globalCtx := globalCtx })
  | .lock => if s.closer = .idle then some (.ok { s with closer := .locked 0 }) else none
  | .nextSlot =>
      match s.closer with
      | .locked k => some (.ok (s.nextSlot k))
      | _ => none
  | .joined =>
      match s.closer with
      | .joining k =>
          match (s.backlog.demux.queue.connectionQueue[k]?).bind (fun r => s.threads r.sd) with
          | some thread =>
              if thread.ended then some (.ok { s with closer := .locked (k + 1) }) else none
          | none => none
      | _ => none

def TransportThread.waitsForLock : TransportThread → Bool
  | .running _ => false
  | .unblocking _ => true

/-- The closer waits, with the lock, for a thread that waits for the lock. -/
def Shutdown.Deadlocked (s : Shutdown) : Prop :=
  ∃ (k : Nat) (r : ConnectRequest) (thread : TransportThread), s.closer = .joining k ∧
    s.backlog.demux.queue.connectionQueue[k]? = some r ∧ s.threads r.sd = some thread ∧
    thread.waitsForLock = true

/-- The thread is past its handshake, and has told the listening socket. -/
def TransportThread.Settled : TransportThread → Prop
  | .running e => e.phase.unblocked = true
  | .unblocking _ => False

instance : (thread : TransportThread) → Decidable thread.Settled
  | .running e => inferInstanceAs (Decidable (e.phase.unblocked = true))
  | .unblocking _ => inferInstanceAs (Decidable False)

/-- No connection in the queue is in its handshake or about to leave it. -/
def Shutdown.Settled (s : Shutdown) : Prop :=
  ∀ r ∈ s.backlog.demux.queue.connectionQueue, ∀ thread ∈ s.threads r.sd, thread.Settled

instance (s : Shutdown) : Decidable s.Settled := inferInstanceAs (Decidable (∀ _ ∈ _, _))

/-- One step of a run. -/
def ShutdownStep.Returns (s : Shutdown) (step : ShutdownStep) (s' : Shutdown) : Prop :=
  s.step step = some (.ok s')

/-- The lock is taken only when every connection in the queue is settled. -/
def ShutdownStep.LocksSettled (s : Shutdown) : ShutdownStep → Prop
  | .lock => s.Settled
  | _ => True

instance (s : Shutdown) : (step : ShutdownStep) → Decidable (step.LocksSettled s)
  | .lock => inferInstanceAs (Decidable s.Settled)
  | .syn .. | .wake _ | .arrive .. | .complete _ | .accept | .elsewhere _ | .nextSlot | .joined =>
      inferInstanceAs (Decidable True)

/-! ## No deadlock -/

section

variable {s s' : Shutdown} {thread thread' : TransportThread}

/-- A thread that is past the handshake does not ask for the lock again. -/
theorem Endpoint.wake_unblocked {e e' : Endpoint} (step : e.wake = some e')
    (unblocked : e.phase.unblocked = true) : e'.phase.unblocked = true := by
  have inHandshake : ∀ phase : Phase, phase.unblocked = false → e.phase ≠ phase := by
    intro phase blocked same
    rw [same, blocked] at unblocked
    cases unblocked
  cases Endpoint.wake_cases step with
  | refused refused =>
      rw [refused]
      rfl
  | syn phase _ => exact absurd phase (inHandshake _ rfl)
  | listen phase _ => exact absurd phase (inHandshake _ rfl)
  | synAck phase _ _ _ _ => exact absurd phase (inHandshake _ rfl)
  | synRead phase _ _ => exact absurd phase (inHandshake _ rfl)
  | ackRead phase _ _ _ _ => exact absurd phase (inHandshake _ rfl)
  | iteration phase _ _ =>
      rw [(controlLoopIteration_frame _ _).phase]
      exact unblocked
  | exit phase _ => rfl

/-- Without the lock a thread neither leaves its handshake nor gets back into it. -/
theorem TransportThread.wake_settled (woken : thread.wake = some thread') :
    thread'.Settled ↔ thread.Settled := by
  cases thread with
  | unblocking e => cases woken
  | running e =>
      obtain ⟨e', step, rfl⟩ := Option.map_eq_some_iff.mp woken
      show TransportThread.Settled (if _ then _ else _) ↔ e.phase.unblocked = true
      split
      · next leaves =>
          rw [leaves.1]
          exact ⟨False.elim, fun blocked => by cases blocked⟩
      · next stays =>
          refine ⟨fun unblocked => ?_, fun unblocked => e.wake_unblocked step unblocked⟩
          by_contra blocked
          exact stays ⟨Bool.not_eq_true _ ▸ blocked, unblocked⟩

theorem TransportThread.ended_settled (ended : thread.ended = true) : thread.Settled := by
  cases thread with
  | unblocking e => cases ended
  | running e =>
      show e.phase.unblocked = true
      have returned : e.phase.ended = true := ended
      cases phase : e.phase <;> rw [phase] at returned <;> first | rfl | cases returned

theorem TransportThread.settled_update (f : Endpoint → Endpoint)
    (phase : ∀ e, (f e).phase = e.phase) : (thread.update f).Settled ↔ thread.Settled := by
  cases thread with
  | unblocking e => exact Iff.rfl
  | running e =>
      show (f e).phase.unblocked = true ↔ e.phase.unblocked = true
      rw [phase]

/-- The threads after one of them has changed. -/
theorem Shutdown.Settled.update (settled : s.Settled) {sd : Int} {changed : Option TransportThread}
    (new : ∀ r ∈ s.backlog.demux.queue.connectionQueue, r.sd = sd →
      ∀ thread ∈ changed, thread.Settled) :
    ({ s with threads := Function.update s.threads sd changed } : Shutdown).Settled := by
  intro r member thread found
  have found : Function.update s.threads sd changed r.sd = some thread := found
  by_cases same : r.sd = sd
  · rw [same, Function.update_self] at found
    exact new r member same thread found
  · rw [Function.update_of_ne same] at found
    exact settled r member thread found

/-- The lock is free, or every thread of a queued connection is past its handshake. -/
def Shutdown.Safe (s : Shutdown) : Prop := s.closer = .idle ∨ s.Settled

theorem Shutdown.underLock_idle {step : ListenStep}
    {threads : Backlog → Int → Option TransportThread}
    (returned : s.underLock step threads = some (.ok s')) :
    s.closer = .idle ∧ s'.closer = .idle := by
  unfold Shutdown.underLock at returned
  split at returned
  · next idle =>
      obtain ⟨result, _, isOk⟩ := Option.map_eq_some_iff.mp returned
      cases result with
      | error a => cases isOk
      | ok backlog =>
          cases isOk
          exact ⟨idle, idle⟩
  · cases returned

/-- The next slot of the closer. -/
theorem Shutdown.Settled.nextSlot (settled : s.Settled) (k : Nat) : (s.nextSlot k).Settled := by
  unfold Shutdown.nextSlot
  split
  · exact settled
  · next r _ =>
      split
      · exact settled
      · refine settled.update ?_
        intro r' member same thread changed
        obtain ⟨old, oldAt, rfl⟩ := Option.map_eq_some_iff.mp changed
        rw [TransportThread.settled_update Endpoint.requestClose fun _ => rfl]
        rw [← same] at oldAt
        exact settled r' member old oldAt

/-- Everything that a step can do: work under the free lock; change the thread of a connection,
which neither settles nor unsettles it; leave the threads alone; or be a step of the closer. -/
inductive Shutdown.Stepped (s : Shutdown) : ShutdownStep → Shutdown → Prop
  | free {step : ShutdownStep} {s' : Shutdown} (before : s.closer = .idle)
      (after : s'.closer = .idle) : Stepped s step s'
  | thread {step : ShutdownStep} {sd : Int} {old new : TransportThread}
      (found : s.threads sd = some old) (same : new.Settled ↔ old.Settled) :
      Stepped s step { s with threads := Function.update s.threads sd (some new) }
  | elsewhere {step : ShutdownStep} (globalCtx : List Bool) :
      Stepped s step { s with backlog.demux.globalCtx := globalCtx }
  | lock (before : s.closer = .idle) : Stepped s .lock { s with closer := .locked 0 }
  | nextSlot {k : Nat} (locked : s.closer = .locked k) : Stepped s .nextSlot (s.nextSlot k)
  | joined {k : Nat} {r : ConnectRequest} {thread : TransportThread}
      (joining : s.closer = .joining k)
      (slot : s.backlog.demux.queue.connectionQueue[k]? = some r)
      (found : s.threads r.sd = some thread) (ended : thread.ended = true) :
      Stepped s .joined { s with closer := .locked (k + 1) }

theorem ShutdownStep.Returns.stepped {step : ShutdownStep} (returned : step.Returns s s') :
    s.Stepped step s' := by
  have returned : s.step step = some (.ok s') := returned
  cases step with
  | syn allocated packet peerAddr initialSequenceNum =>
      obtain ⟨before, after⟩ := Shutdown.underLock_idle returned
      exact .free before after
  | wake sd =>
      obtain ⟨new, woken, isOk⟩ := Option.map_eq_some_iff.mp returned
      obtain ⟨old, found, woken⟩ := Option.bind_eq_some_iff.mp woken
      cases isOk
      exact .thread found (TransportThread.wake_settled woken)
  | arrive sd node =>
      obtain ⟨old, found, isOk⟩ := Option.map_eq_some_iff.mp returned
      cases isOk
      exact .thread found (TransportThread.settled_update (Endpoint.arrive node) fun _ => rfl)
  | complete sd =>
      rw [Shutdown.step] at returned
      split at returned
      · obtain ⟨before, after⟩ := Shutdown.underLock_idle returned
        exact .free before after
      · cases returned
  | accept =>
      obtain ⟨before, after⟩ := Shutdown.underLock_idle returned
      exact .free before after
  | elsewhere globalCtx =>
      cases returned
      exact .elsewhere globalCtx
  | lock =>
      rw [Shutdown.step] at returned
      split at returned
      · next before =>
          cases returned
          exact .lock before
      · cases returned
  | nextSlot =>
      rw [Shutdown.step] at returned
      split at returned
      · next k locked =>
          cases returned
          exact .nextSlot locked
      · cases returned
  | joined =>
      rw [Shutdown.step] at returned
      split at returned
      · next k joining =>
          split at returned
          · next thread found =>
              obtain ⟨r, slot, found⟩ := Option.bind_eq_some_iff.mp found
              split at returned
              · next ended =>
                  cases returned
                  exact .joined joining slot found ended
              · cases returned
          · cases returned
      · cases returned

/-- One step, given that the lock is taken only when every thread is past its handshake. -/
theorem Shutdown.Safe.step (safe : s.Safe) {step : ShutdownStep}
    (returned : step.Returns s s') (locks : step.LocksSettled s) : s'.Safe := by
  cases returned.stepped with
  | free before after => exact .inl after
  | thread found same =>
      rcases safe with idle | settled
      · exact .inl idle
      · refine .inr (settled.update ?_)
        intro r member isSd new changed
        cases changed
        rw [← isSd] at found
        exact same.mpr (settled r member _ found)
  | elsewhere globalCtx => exact safe
  | lock before => exact .inr locks
  | nextSlot locked =>
      rcases safe with idle | settled
      · rw [locked] at idle
        cases idle
      · exact .inr (settled.nextSlot _)
  | joined joining slot found ended =>
      rcases safe with idle | settled
      · rw [joining] at idle
        cases idle
      · exact .inr settled

theorem Shutdown.Safe.not_deadlocked (safe : s.Safe) : ¬ s.Deadlocked := by
  intro deadlocked
  rcases deadlocked with ⟨k, r, thread, joining, slot, threadAt, waits⟩
  rcases safe with idle | settled
  · rw [joining] at idle
    cases idle
  · have past := settled r (List.mem_of_getElem? slot) thread threadAt
    cases thread with
    | running e => cases waits
    | unblocking e => exact past

end

/-- Closing a listening socket never deadlocks if no queued connection is in its handshake, or about
to leave it, when the lock is taken. -/
theorem close_listener_no_deadlock (backlog : UInt32) (globalCtx : List Bool)
    (steps : List ShutdownStep) (s : Shutdown)
    (run : Path (fun s step s' => step.LocksSettled s ∧ step.Returns s s')
      (Shutdown.start backlog globalCtx) steps s) :
    ¬ s.Deadlocked := by
  have start : (Shutdown.start backlog globalCtx).Safe := .inl rfl
  have safe : s.Safe := by
    refine run.invariant ?_ start
    intro s step s' ⟨locks, returned⟩ safe
    exact safe.step returned locks
  exact safe.not_deadlocked

/-- A packet of a peer, without data. -/
def fromPeer (sequenceNum ackNum : TcpSeq) (flags : UInt8) : Packet :=
  buildPacket { Ctx.init sequenceNum with ackNum := ackNum } [] flags

/-- A peer connects, and gets its SYN-ACK. -/
def onePeer : List ShutdownStep :=
  [.syn true (fromPeer 7 0 thSyn) (peerAt 1) 100, .wake 1, .wake 1]

/-- Its connection is established and reported, and then the listening socket is closed. -/
def establishedThenClosed : List ShutdownStep :=
  onePeer ++ [.arrive 1 (some (fromPeer 8 101 thAckFlag)), .wake 1, .complete 1, .lock, .nextSlot,
    .wake 1, .arrive 1 (some (fromPeer 8 102 (thFin ||| thAckFlag))), .wake 1, .wake 1, .joined,
    .nextSlot]

theorem close_listener_no_deadlock_established :
    ∃ s, Path (fun s step s' => step.LocksSettled s ∧ step.Returns s s')
        (Shutdown.start 0 [true, false]) establishedThenClosed s ∧
      s.closer = .finished ∧ ¬ s.Deadlocked := by
  let last := follow (afterAllowed ShutdownStep.LocksSettled Shutdown.step)
    (Shutdown.start 0 [true, false]) establishedThenClosed
  have finished : last.map Shutdown.closer = some .finished := by decide +kernel
  obtain ⟨s, ran, closed⟩ := Option.map_eq_some_iff.mp finished
  have run := Path.of_follow_allowed ran
  exact ⟨s, run, closed, close_listener_no_deadlock 0 [true, false] establishedThenClosed s run⟩

/-- The listening socket is closed while the peer's ACK is still on its way. -/
def closedInHandshake : List ShutdownStep := onePeer ++ [.lock, .nextSlot, .wake 1]

/-- The request to close ends the handshake, and the thread waits for the lock. -/
theorem closedInHandshake_deadlocks :
    ∃ s, Path ShutdownStep.Returns (Shutdown.start 0 [true, false]) closedInHandshake s ∧
      s.Deadlocked := by
  let last := follow (afterAllowed (fun _ _ => True) Shutdown.step)
    (Shutdown.start 0 [true, false]) closedInHandshake
  have waits : last.map (fun s => (s.closer, (s.backlog.demux.queue.connectionQueue[0]?).bind
      fun r => (s.threads r.sd).map TransportThread.waitsForLock)) =
      some (.joining 0, some true) := by decide +kernel
  obtain ⟨s, ran, state⟩ := Option.map_eq_some_iff.mp waits
  obtain ⟨joining, found⟩ := Prod.mk.inj state
  obtain ⟨r, slot, found⟩ := Option.bind_eq_some_iff.mp found
  obtain ⟨thread, threadAt, lock⟩ := Option.map_eq_some_iff.mp found
  have run := (Path.of_follow_allowed ran).mono fun _ _ _ step => step.2
  exact ⟨s, run, 0, r, thread, joining, slot, threadAt, lock⟩

/-! ## Closing a socket with a handshake in progress

The condition cannot be weakened: a connection that is not settled when the lock is taken stays
so, because it would need the lock, and `myclose` does not get past its slot. -/

/-- The closer is at or before the slot `j`, whose connection is not settled. -/
structure Shutdown.Blocked (j : Nat) (r : ConnectRequest) (s : Shutdown) : Prop where
  before : ∃ k ≤ j, s.closer = .locked k ∨ s.closer = .joining k
  slot : s.backlog.demux.queue.connectionQueue[j]? = some r
  used : r.sd ≠ -1
  unsettled : ∃ thread, s.threads r.sd = some thread ∧ ¬ thread.Settled

section

variable {s s' : Shutdown} {j : Nat} {r : ConnectRequest}

theorem Shutdown.Blocked.not_idle (blocked : s.Blocked j r) : s.closer ≠ .idle := by
  intro idle
  obtain ⟨k, _, closer⟩ := blocked.before
  rw [idle] at closer
  rcases closer with locked | joining
  · cases locked
  · cases joining

/-- The connection is unsettled after a change to one thread. -/
theorem Shutdown.Blocked.update (blocked : s.Blocked j r) {sd : Int} {old new : TransportThread}
    (found : s.threads sd = some old) (same : new.Settled ↔ old.Settled) :
    ∃ thread, Function.update s.threads sd (some new) r.sd = some thread ∧ ¬ thread.Settled := by
  obtain ⟨thread, threadAt, unsettled⟩ := blocked.unsettled
  by_cases isSd : r.sd = sd
  · rw [isSd, found] at threadAt
    cases threadAt
    exact ⟨new, by rw [isSd, Function.update_self], fun settled => unsettled (same.mp settled)⟩
  · exact ⟨thread, by rw [Function.update_of_ne isSd, threadAt], unsettled⟩

theorem Shutdown.Blocked.nextSlot (blocked : s.Blocked j r) {k : Nat}
    (locked : s.closer = .locked k) : (s.nextSlot k).Blocked j r := by
  have reached : k ≤ j := by
    obtain ⟨k', bound, closer⟩ := blocked.before
    rw [locked] at closer
    rcases closer with same | same
    · cases same
      exact bound
    · cases same
  unfold Shutdown.nextSlot
  split
  · next outside =>
      have inside := (List.getElem?_eq_some_iff.mp blocked.slot).1
      rw [List.getElem?_eq_none_iff] at outside
      omega
  · next r' slot =>
      split
      · next free =>
          have passed : k ≠ j := by
            intro same
            rw [same, blocked.slot] at slot
            cases slot
            exact blocked.used free
          exact { blocked with before := ⟨k + 1, by omega, .inl rfl⟩ }
      · refine ⟨⟨k, reached, .inr rfl⟩, blocked.slot, blocked.used, ?_⟩
        obtain ⟨thread, threadAt, unsettled⟩ := blocked.unsettled
        cases found : s.threads r'.sd with
        | none =>
            have other : r.sd ≠ r'.sd := by
              intro same
              rw [same, found] at threadAt
              cases threadAt
            exact ⟨thread, (Function.update_of_ne other _ s.threads).trans threadAt, unsettled⟩
        | some old =>
            exact blocked.update found
              (TransportThread.settled_update Endpoint.requestClose fun _ => rfl)

theorem Shutdown.Blocked.step (blocked : s.Blocked j r) {step : ShutdownStep}
    (returned : step.Returns s s') : s'.Blocked j r := by
  cases returned.stepped with
  | free before _ => exact absurd before blocked.not_idle
  | thread found same => exact { blocked with unsettled := blocked.update found same }
  | elsewhere globalCtx => exact { blocked with }
  | lock before => exact absurd before blocked.not_idle
  | nextSlot locked => exact blocked.nextSlot locked
  | @joined k r' thread joining slot found ended =>
      have reached : k ≤ j := by
        obtain ⟨k', bound, closer⟩ := blocked.before
        rw [joining] at closer
        rcases closer with same | same
        · cases same
        · cases same
          exact bound
      -- the connection of this slot has ended, so it is not the one at `j`
      have passed : k ≠ j := by
        intro same
        rw [same, blocked.slot] at slot
        cases slot
        obtain ⟨thread', found', unsettled⟩ := blocked.unsettled
        rw [found] at found'
        cases found'
        exact unsettled (TransportThread.ended_settled ended)
      exact { blocked with before := ⟨k + 1, by omega, .inl rfl⟩ }

/-- If `myclose` returns, no connection was in its handshake when the lock was taken. -/
theorem Shutdown.settled_of_finished {steps : List ShutdownStep} (locked : s.closer = .locked 0)
    (run : Path ShutdownStep.Returns s steps s') (finished : s'.closer = .finished)
    {r : ConnectRequest} (member : r ∈ s.backlog.demux.queue.connectionQueue) (used : r.sd ≠ -1)
    {thread : TransportThread} (threadAt : s.threads r.sd = some thread) : thread.Settled := by
  by_contra unsettled
  obtain ⟨j, slot⟩ := List.getElem?_of_mem member
  have start : s.Blocked j r :=
    ⟨⟨0, Nat.zero_le j, .inl locked⟩, slot, used, thread, threadAt, unsettled⟩
  have blocked : s'.Blocked j r :=
    run.invariant (fun _ _ _ returned blocked => blocked.step returned) start
  obtain ⟨k, _, closer⟩ := blocked.before
  rw [finished] at closer
  rcases closer with closer | closer
  · cases closer
  · cases closer

end

end CompNet.Stcp
