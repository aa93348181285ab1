import CompNet.Stcp.Stream

/-!
# Two endpoints and two FIFO channels

The system of one active and one passive endpoint.  The packets on their way to
a side are those its peer has sent beyond the first `arrived`; delivering one
appends it to the side's network queue, so channels lose, reorder and duplicate
nothing.  `Fifo` says what that means for the two logs, and with the two halves
of `Stream` it accounts for every byte: it has been handed to the receiving
application, it is in flight, or it still waits at the sender.
-/

namespace CompNet.Stcp

open CompNet.Lib

inductive Side
  | active
  | passive
  deriving DecidableEq, Repr

def Side.other : Side → Side
  | .active => .passive
  | .passive => .active

@[simp] theorem Side.other_other (side : Side) : side.other.other = side := by
  cases side <;> rfl

theorem Side.other_ne (side : Side) : side.other ≠ side := by
  cases side <;> decide

/-- Both endpoints, and for each side the number of its peer's packets that have
reached its network queue. -/
structure System where
  endpoint : Side → Endpoint
  arrived : Side → Nat

/-- Two endpoints before `transport_init`. -/
def System.init (initialSequenceNum : Side → TcpSeq) : System where
  endpoint side := Endpoint.init (decide (side = .active)) (initialSequenceNum side)
  arrived _ := 0

inductive Action
  | write (side : Side) (buf : Bytes)
  | close (side : Side)
  | read (side : Side) (bufLen : Nat)
  | wake (side : Side)
  | deliver (side : Side)
  deriving DecidableEq, Repr

/-- One input at one side. -/
def System.act (s : System) (side : Side) (i : Input) : Option System :=
  ((s.endpoint side).input i).map fun e =>
    { s with endpoint := Function.update s.endpoint side e }

/-- One step of the system; `none` where the action cannot happen. -/
def System.step (s : System) : Action → Option System
  | .write side buf => s.act side (.write buf)
  | .close side => s.act side .close
  | .read side bufLen => s.act side (.read bufLen)
  | .wake side => s.act side .wake
  | .deliver side =>
      match (s.endpoint side.other).hist.sent[s.arrived side]? with
      | none => none
      | some p =>
          (s.act side (.arrive p)).map fun s =>
            { s with arrived := Function.update s.arrived side (s.arrived side + 1) }

/-- `s` is reached from `start` by `actions`. -/
def System.Run (start : System) (actions : List Action) (s : System) : Prop :=
  Path (fun s a t => s.step a = some t) start actions s

/-- Packets in the channel towards `side` or in its network queue. -/
def System.inFlight (s : System) (side : Side) : List Packet :=
  (s.endpoint side).sock.networkRecvQueue.filterMap id ++
    (s.endpoint side.other).hist.sent.drop (s.arrived side)

/-! ## One endpoint among others -/

/-- The close state of an endpoint whose network reads never fail. -/
structure Closing (e : Endpoint) : Prop where
  early : ¬ e.opened → e.ctx.done = false ∧ e.ctx.finSent = false ∧ e.ctx.finReceived = false ∧
    e.ctx.finAcked = false ∧ finCount e.hist.sent = 0
  table : e.opened → CloseInv e
  ended : e.ctx.done = true → e.ctx.FullyClosed

theorem Closing.of_fresh {e : Endpoint} (fresh : Fresh e) : Closing e where
  early notOpened := absurd (.inl fresh.phase) notOpened
  table _ := .of_fresh fresh
  ended done := absurd (done.symm.trans fresh.running) (by decide)

/-- Sending a greeting leaves the close state where it was. -/
theorem Closing.of_greeting {e e' : Endpoint} (closing : Closing e) (notOpened : ¬ e.opened)
    (notOpened' : ¬ e'.opened) (done : e'.ctx.done = e.ctx.done)
    (finSent : e'.ctx.finSent = e.ctx.finSent)
    (finReceived : e'.ctx.finReceived = e.ctx.finReceived)
    (finAcked : e'.ctx.finAcked = e.ctx.finAcked)
    (noFin : finCount e'.hist.sent = finCount e.hist.sent) : Closing e' where
  early _ := by
    rw [done, finSent, finReceived, finAcked, noFin]
    exact closing.early notOpened
  table opened := absurd opened notOpened'
  ended isDone := by
    rw [done, (closing.early notOpened).1] at isDone
    cases isDone

theorem finCount_append_noFin (sent : List Packet) {p : Packet} (noFin : p.has thFin = false) :
    finCount (sent ++ [p]) = finCount sent := by
  simp [finCount, noFin]

theorem Closing.wake {e e' : Endpoint} (closing : Closing e)
    (noError : none ∉ e.sock.networkRecvQueue) (step : e.wake = some e') :
    e'.phase = .refused ∨ Closing e' := by
  have fromLoop (looping : e.phase = .controlLoop) : Closing e' := by
    have inv := closing.table (.inl looping)
    obtain ⟨inv', ends⟩ := inv.step ⟨.wake, trivial, step⟩
    refine ⟨fun notOpened => absurd inv'.notStarted notOpened, fun _ => inv', fun done => ?_⟩
    cases running : e.ctx.done with
    | true =>
        rw [e.wake_done step looping running]
        exact closing.ended running
    | false =>
        rcases ends running done with ⟨-, rest, failed⟩ | closed
        · rw [failed] at noError
          exact absurd List.mem_cons_self noError
        · exact closed
  cases e.wake_cases step with
  | refused refused => exact .inl refused
  | syn phase active =>
      refine .inr (closing.of_greeting (by simp [Endpoint.opened, phase])
        (by simp [Endpoint.opened, sendSyn]) rfl rfl rfl rfl ?_)
      exact finCount_append_noFin _ (by simp)
  | listen phase passive =>
      exact .inr (closing.of_greeting (by simp [Endpoint.opened, phase])
        (by simp [Endpoint.opened]) rfl rfl rfl rfl rfl)
  | synAck phase head asked flag acked =>
      obtain ⟨done, finSent, finReceived, finAcked, noFin⟩ :=
        closing.early (by simp [Endpoint.opened, phase])
      refine .inr (.of_fresh ⟨rfl, rfl, done, finSent, finReceived, finAcked, ?_⟩)
      exact (finCount_append_noFin _ (by simp)).trans noFin
  | synRead phase head asked =>
      refine .inr (closing.of_greeting (by simp [Endpoint.opened, phase])
        (by simp [Endpoint.opened, Endpoint.acceptSyn]) rfl rfl rfl rfl ?_)
      exact finCount_append_noFin _ (by simp)
  | ackRead phase head asked flag acked =>
      obtain ⟨done, finSent, finReceived, finAcked, noFin⟩ :=
        closing.early (by simp [Endpoint.opened, phase])
      exact .inr (.of_fresh ⟨rfl, rfl, done, finSent, finReceived, finAcked, noFin⟩)
  | iteration phase running waited => exact .inr (fromLoop phase)
  | exit phase done => exact .inr (fromLoop phase)

theorem Closing.input {e e' : Endpoint} {i : Input} (closing : Closing e)
    (noError : none ∉ e.sock.networkRecvQueue) (wellFormed : i.WellFormed)
    (step : e.input i = some e') : e'.phase = .refused ∨ Closing e' := by
  by_cases wakes : i = .wake
  · subst wakes
    exact closing.wake noError step
  · obtain ⟨ctx, phase, sent, -⟩ := e.input_frame step wakes
    have opened : e'.opened ↔ e.opened := by rw [Endpoint.opened, Endpoint.opened, phase]
    refine .inr ⟨?_, ?_, ?_⟩
    · rw [ctx, sent, opened]
      exact closing.early
    · intro open'
      exact ((closing.table (opened.mp open')).step ⟨i, wellFormed, step⟩).1
    · rw [ctx]
      exact closing.ended

/-- All that holds of one endpoint whatever its peer does. -/
structure Sound (e : Endpoint) : Prop where
  sender : Sender e
  receiver : Receiver e
  closing : Closing e

theorem Sound.input {e e' : Endpoint} {i : Input} (sound : Sound e)
    (noError : none ∉ e.sock.networkRecvQueue) (wellFormed : i.WellFormed)
    (step : e.input i = some e') : e'.phase = .refused ∨ Sound e' := by
  rcases sound.sender.input step with refused | sender
  · exact .inl refused
  rcases sound.receiver.input sound.sender.role
    (fun done => (sound.closing.ended done).finReceived) step with refused | receiver
  · exact .inl refused
  rcases sound.closing.input noError wellFormed step with refused | closing
  · exact .inl refused
  exact .inr ⟨sender, receiver, closing⟩

theorem Sound.init (isActive : Bool) (initialSequenceNum : TcpSeq) :
    Sound (Endpoint.init isActive initialSequenceNum) where
  sender := .init isActive initialSequenceNum
  receiver := .init isActive initialSequenceNum
  closing :=
    { early _ := ⟨rfl, rfl, rfl, rfl, rfl⟩
      table opened := by simp [Endpoint.opened, Endpoint.init] at opened
      ended done := nomatch done }

/-! ## The logs at the borders -/

/-- Everything that ever reached the network queue, read or not. -/
def Endpoint.inbox (e : Endpoint) : List (Option Packet) :=
  e.hist.received.map some ++ e.sock.networkRecvQueue

/-- What an input adds to the network queue. -/
def Input.arrives : Input → List (Option Packet)
  | .arrive p => [some p]
  | .readError => [none]
  | _ => []

/-- `e'` has sent more than `e` and its inbox grew by `arrives`. -/
structure Logs (arrives : List (Option Packet)) (e e' : Endpoint) : Prop where
  isActive : e'.isActive = e.isActive
  sent : ∃ new, e'.hist.sent = e.hist.sent ++ new
  inbox : e'.inbox = e.inbox ++ arrives

theorem Logs.refl (e : Endpoint) : Logs [] e e := ⟨rfl, ⟨[], by simp⟩, by simp⟩

theorem Logs.trans {e₁ e₂ e₃ : Endpoint} (first : Logs [] e₁ e₂) (second : Logs [] e₂ e₃) :
    Logs [] e₁ e₃ := by
  obtain ⟨new₁, sent₁⟩ := first.sent
  obtain ⟨new₂, sent₂⟩ := second.sent
  refine ⟨second.isActive.trans first.isActive, ⟨new₁ ++ new₂, ?_⟩, ?_⟩
  · rw [sent₂, sent₁, List.append_assoc]
  · rw [second.inbox, first.inbox, List.append_nil, List.append_nil]

theorem handleAppData_logs (e : Endpoint) : Logs [] e (handleAppData e) := by
  rcases handleAppData_cases e with same | ⟨_, _, -, ⟨-, same⟩ | ⟨-, same⟩⟩ <;> rw [same]
  · exact .refl e
  · exact ⟨rfl, ⟨[], by simp⟩, by simp [Endpoint.inbox]⟩
  · exact ⟨rfl, ⟨_, rfl⟩, by simp [Endpoint.inbox]⟩

theorem handlePacket_logs {p : Packet} {rest : List (Option Packet)} {e : Endpoint}
    (head : e.sock.networkRecvQueue = some p :: rest) : Logs [] e (handlePacket p rest e) := by
  obtain ⟨n, sent⟩ := (handlePacket_onlyAcks p rest e).sent
  obtain ⟨received, queue⟩ := handlePacket_received p rest e
  refine ⟨(handlePacket_frame p rest e).isActive, ⟨_, sent⟩, ?_⟩
  simp [Endpoint.inbox, received, queue, head]

theorem handleClose_logs (e : Endpoint) : Logs [] e (handleClose e) := by
  rcases handleClose_cases e with ⟨-, same⟩ | ⟨-, _, same⟩ <;> rw [same]
  · exact .refl e
  · exact ⟨rfl, ⟨_, rfl⟩, by simp [Endpoint.inbox]⟩

theorem controlLoopIteration_logs (ev : Event) {e : Endpoint}
    (noError : none ∉ e.sock.networkRecvQueue) : Logs [] e (controlLoopIteration ev e) := by
  have keeps : Logs [] e (controlLoopIteration ev e) ∧
      none ∉ (controlLoopIteration ev e).inbox := by
    have start : none ∉ e.inbox := by simp [Endpoint.inbox, noError]
    apply controlLoopIteration_keeps (motive := fun e' => Logs [] e e' ∧ none ∉ e'.inbox)
    · exact ⟨.refl e, start⟩
    · have logs := handleAppData_logs e
      exact ⟨logs, by rw [logs.inbox, List.append_nil]; exact start⟩
    · rintro e₁ rest ⟨-, clean⟩ head
      exact absurd (by simp [Endpoint.inbox, head]) clean
    · rintro e₁ p rest ⟨before, clean⟩ head
      have logs := handlePacket_logs head
      exact ⟨before.trans logs, by rw [logs.inbox, List.append_nil]; exact clean⟩
    · rintro - e₁ ⟨before, clean⟩
      have logs := handleClose_logs e₁
      exact ⟨before.trans logs, by rw [logs.inbox, List.append_nil]; exact clean⟩
  exact keeps.1

/-- Taking the head of the queue in the handshake moves it inside the inbox. -/
theorem Endpoint.inbox_take {e e' : Endpoint} {p : Packet} {rest : List (Option Packet)}
    (head : e.sock.networkRecvQueue = some p :: rest)
    (received : e'.hist.received = e.hist.received ++ [p])
    (queue : e'.sock.networkRecvQueue = rest) : e'.inbox = e.inbox ++ [] := by
  simp [Endpoint.inbox, received, queue, head]

theorem Endpoint.wake_logs {e e' : Endpoint} (noError : none ∉ e.sock.networkRecvQueue)
    (step : e.wake = some e') : e'.phase = .refused ∨ Logs [] e e' := by
  cases e.wake_cases step with
  | refused refused => exact .inl refused
  | syn phase active => exact .inr ⟨rfl, ⟨_, rfl⟩, by simp [Endpoint.inbox, sendSyn, sendPacket]⟩
  | listen phase passive => exact .inr ⟨rfl, ⟨[], by simp⟩, by simp [Endpoint.inbox]⟩
  | synAck phase head asked flag acked =>
      exact .inr ⟨rfl, ⟨_, rfl⟩, Endpoint.inbox_take head rfl rfl⟩
  | synRead phase head asked => exact .inr ⟨rfl, ⟨_, rfl⟩, Endpoint.inbox_take head rfl rfl⟩
  | ackRead phase head asked flag acked =>
      exact .inr ⟨rfl, ⟨[], by simp [Endpoint.acceptAck, Endpoint.take]⟩,
        Endpoint.inbox_take head rfl rfl⟩
  | @iteration ev sock phase running waited =>
      obtain ⟨-, -, -, rfl⟩ := stcpWaitForEvent_spec waited
      have logs : Logs [] { e with
          sock.closeRequested := e.sock.closeRequested && !ev.appCloseRequested } _ :=
        controlLoopIteration_logs ev noError
      exact .inr ⟨logs.isActive, logs.sent, logs.inbox⟩
  | exit phase done =>
      exact .inr ⟨rfl, ⟨[], by simp [threadExit, enqueueForApp]⟩,
        by simp [Endpoint.inbox, threadExit, enqueueForApp]⟩

theorem Endpoint.input_logs {e e' : Endpoint} {i : Input}
    (noError : none ∉ e.sock.networkRecvQueue) (step : e.input i = some e') :
    e'.phase = .refused ∨ Logs i.arrives e e' := by
  cases i with
  | wake => exact e.wake_logs noError step
  | write buf =>
      simp only [Endpoint.input, Endpoint.write] at step
      split at step
      · cases step
      · cases step
        exact .inr ⟨rfl, ⟨[], by simp⟩, by simp [Endpoint.inbox, mywrite, Input.arrives]⟩
  | close =>
      simp only [Endpoint.input, Endpoint.close] at step
      split at step
      · cases step
      · cases step
        exact .inr ⟨rfl, ⟨[], by simp⟩, by simp [Endpoint.inbox, myclose, Input.arrives]⟩
  | read bufLen =>
      simp only [Endpoint.input, Endpoint.read, Option.map_eq_some_iff] at step
      obtain ⟨⟨chunk, sock⟩, read, rfl⟩ := step
      obtain ⟨-, -, queue⟩ := myread_frame read
      exact .inr ⟨rfl, ⟨[], by simp⟩, by simp [Endpoint.inbox, Input.arrives, queue]⟩
  | arrive p =>
      cases step
      exact .inr ⟨rfl, ⟨[], by simp [Endpoint.arrive]⟩,
        by simp [Endpoint.inbox, Endpoint.arrive, Input.arrives]⟩
  | readError =>
      cases step
      exact .inr ⟨rfl, ⟨[], by simp [Endpoint.arrive]⟩,
        by simp [Endpoint.inbox, Endpoint.arrive, Input.arrives]⟩

theorem Endpoint.refused_input {e e' : Endpoint} {i : Input} (refused : e.phase = .refused)
    (step : e.input i = some e') : e'.phase = .refused := by
  by_cases wakes : i = .wake
  · subst wakes
    simp only [Endpoint.input, Endpoint.wake, refused] at step
    cases step
  · obtain ⟨-, phase, -⟩ := e.input_frame step wakes
    exact phase.trans refused

/-! ## The invariant of the system -/

/-- The inbox of `side` is the front part of what its peer has sent. -/
structure System.Fifo (s : System) (side : Side) : Prop where
  bound : s.arrived side ≤ (s.endpoint side.other).hist.sent.length
  inbox : (s.endpoint side).inbox =
    ((s.endpoint side.other).hist.sent.take (s.arrived side)).map some

/-- Neither side has refused: both are sound, and the channels are FIFO. -/
structure System.Connected (s : System) : Prop where
  role : ∀ side, (s.endpoint side).isActive = decide (side = .active)
  sound : ∀ side, Sound (s.endpoint side)
  fifo : ∀ side, s.Fifo side

/-- The handshake has failed at a side, for good. -/
def System.Refused (s : System) : Prop := ∃ side, (s.endpoint side).phase = .refused

def System.Inv (s : System) : Prop := s.Refused ∨ s.Connected

theorem System.Fifo.noError {s : System} {side : Side} (fifo : s.Fifo side) :
    none ∉ (s.endpoint side).sock.networkRecvQueue := by
  intro error
  have inside : none ∈ (s.endpoint side).inbox := by simp [Endpoint.inbox, error]
  rw [fifo.inbox] at inside
  obtain ⟨p, -, impossible⟩ := List.mem_map.mp inside
  cases impossible

theorem System.init_connected (initialSequenceNum : Side → TcpSeq) :
    (System.init initialSequenceNum).Connected where
  role _ := rfl
  sound side := .init (decide (side = .active)) (initialSequenceNum side)
  fifo _ := ⟨Nat.zero_le _, rfl⟩

/-- An input at `side` that adds `arrives` to its queue keeps the system
connected, if `arrives` is what comes next in the channel. -/
theorem System.Connected.act {s : System} {side : Side} {i : Input} {e : Endpoint} {n : Nat}
    (connected : s.Connected) (wellFormed : i.WellFormed)
    (step : (s.endpoint side).input i = some e)
    (bound : s.arrived side + n ≤ (s.endpoint side.other).hist.sent.length)
    (next : i.arrives =
      (((s.endpoint side.other).hist.sent.drop (s.arrived side)).take n).map some) :
    System.Inv
      { endpoint := Function.update s.endpoint side e
        arrived := Function.update s.arrived side (s.arrived side + n) } := by
  have fifo := connected.fifo side
  rcases (connected.sound side).input fifo.noError wellFormed step with refused | sound
  · exact .inl ⟨side, by simpa using refused⟩
  rcases (s.endpoint side).input_logs fifo.noError step with refused | logs
  · exact .inl ⟨side, by simpa using refused⟩
  right
  obtain ⟨new, sent⟩ := logs.sent
  have others : side.other ≠ side := side.other_ne
  refine ⟨?_, ?_, ?_⟩
  · intro side'
    by_cases same : side' = side
    · subst same
      simp [logs.isActive, connected.role]
    · simp [same, connected.role]
  · intro side'
    by_cases same : side' = side
    · subst same
      simpa using sound
    · simpa [same] using connected.sound side'
  · intro side'
    by_cases same : side' = side
    · subst same
      refine ⟨by simpa [others] using bound, ?_⟩
      simp only [Function.update_self, Function.update_of_ne others]
      rw [logs.inbox, fifo.inbox, next, ← List.map_append, List.take_add]
    · -- the peer's channel only grows at its far end
      have other : side' = side.other := by
        cases side <;> cases side' <;> first | rfl | exact absurd rfl same
      subst other
      obtain ⟨peerBound, peerInbox⟩ := connected.fifo side.other
      rw [Side.other_other] at peerBound peerInbox
      refine ⟨?_, ?_⟩
      · simp [others, sent]
        omega
      · simp only [Function.update_of_ne others, Side.other_other, Function.update_self, sent]
        rw [peerInbox, List.take_append_of_le_length peerBound]

theorem System.Refused.act {s : System} {side : Side} {i : Input} {e : Endpoint}
    {arrived : Side → Nat} (refused : s.Refused) (step : (s.endpoint side).input i = some e) :
    System.Refused { endpoint := Function.update s.endpoint side e, arrived := arrived } := by
  obtain ⟨side', refused⟩ := refused
  refine ⟨side', ?_⟩
  by_cases same : side' = side
  · subst same
    simpa using Endpoint.refused_input refused step
  · simpa [same] using refused

/-- An input at a side that is not a delivery. -/
theorem System.Inv.act {s s' : System} {side : Side} {i : Input} (inv : s.Inv)
    (wellFormed : i.WellFormed) (silent : i.arrives = []) (step : s.act side i = some s') :
    s'.Inv := by
  obtain ⟨e, input, rfl⟩ := Option.map_eq_some_iff.mp step
  rcases inv with refused | connected
  · exact .inl (refused.act input)
  · have kept := connected.act wellFormed input (n := 0) (connected.fifo side).bound
      (by simpa using silent)
    simpa using kept

theorem System.Inv.step {s s' : System} {a : Action} (inv : s.Inv) (step : s.step a = some s') :
    s'.Inv := by
  cases a with
  | write side buf => exact inv.act (i := .write buf) trivial rfl step
  | close side => exact inv.act (i := .close) trivial rfl step
  | read side bufLen => exact inv.act (i := .read bufLen) trivial rfl step
  | wake side => exact inv.act (i := .wake) trivial rfl step
  | deliver side =>
      simp only [System.step] at step
      split at step
      · cases step
      · next p sent =>
          obtain ⟨middle, acted, rfl⟩ := Option.map_eq_some_iff.mp step
          obtain ⟨e, input, rfl⟩ := Option.map_eq_some_iff.mp acted
          rcases inv with refused | connected
          · exact .inl (refused.act input)
          · obtain ⟨inside, element⟩ := List.getElem?_eq_some_iff.mp sent
            have noOptions : p.thOff = 5 := by
              have path := (connected.sound side.other).sender.path
              have member : p ∈ (s.endpoint side.other).hist.sent := List.mem_of_getElem? sent
              exact noOptions_of_path path p member
            refine connected.act (n := 1) (i := .arrive p) noOptions input inside ?_
            rw [Input.arrives, List.drop_eq_getElem_cons inside, element]
            rfl

theorem System.Inv.run {s s' : System} {actions : List Action} (inv : s.Inv)
    (run : s.Run actions s') : s'.Inv :=
  Path.invariant (fun _ _ _ step inv => inv.step step) run inv

/-! ## Every byte is accounted for -/

/-- What a side has sent is what its peer has read and what is in flight. -/
theorem System.Fifo.sent_eq {s : System} {side : Side} (fifo : s.Fifo side) :
    (s.endpoint side.other).hist.sent =
      (s.endpoint side).hist.received ++ s.inFlight side := by
  have inbox := fifo.inbox
  rw [Endpoint.inbox, eq_comm, List.map_eq_append_iff] at inbox
  obtain ⟨read, queued, cut, readEq, queueEq⟩ := inbox
  have same : read = (s.endpoint side).hist.received :=
    List.map_injective_iff.mpr (fun _ _ => Option.some.inj) readEq
  have flying : s.inFlight side =
      queued ++ (s.endpoint side.other).hist.sent.drop (s.arrived side) := by
    simp [System.inFlight, ← queueEq, List.filterMap_map]
  rw [flying, ← same, ← List.append_assoc, ← cut, List.take_append_drop]

/-- The position of the receiver in its peer's stream: how it got there, that it
stands there, and the rest of the way. -/
theorem System.Connected.position {s : System} (connected : s.Connected) (side : Side) :
    ∃ c, Path (Advances (!(s.endpoint side.other).isActive))
        ⟨(s.endpoint side).ctx.initialSequenceNum, .silent⟩
        (s.endpoint side.other).hist.received c ∧
      InOrder (s.endpoint side.other) c ∧
      Path (Advances (s.endpoint side).isActive) c (s.inFlight side.other)
        ⟨(s.endpoint side).ctx.sequenceNum, (s.endpoint side).said⟩ := by
  have sent := (connected.fifo side.other).sent_eq
  rw [Side.other_other] at sent
  have path := (connected.sound side).sender.path
  rw [sent, Path.append_iff] at path
  obtain ⟨c, read, flying⟩ := path
  have peer : (!(s.endpoint side.other).isActive) = (s.endpoint side).isActive := by
    rw [connected.role, connected.role]
    cases side <;> rfl
  rw [← peer] at read
  exact ⟨c, read, (connected.sound side.other).receiver.inOrder _ c read, flying⟩

theorem System.Connected.accounts {s : System} (connected : s.Connected) (side : Side) :
    (s.endpoint side.other).hist.delivered.flatten ++ payload (s.inFlight side.other) ++
      (s.endpoint side).sock.appRecvQueue.flatten = (s.endpoint side).hist.written := by
  obtain ⟨c, -, inOrder, -⟩ := connected.position side
  obtain ⟨chunks, markers, delivered⟩ := inOrder.delivered
  have noData : markers.flatten = [] := List.flatten_eq_nil_iff.mpr delivered.endOfFile
  have sent := (connected.fifo side.other).sent_eq
  rw [Side.other_other] at sent
  have books := (connected.sound side).sender.books
  rw [sent, payload_append] at books
  rw [delivered.nodes, List.flatten_append, noData, List.append_nil, delivered.spell]
  exact books

/-- Data nodes in front of markers are what stands before the first marker. -/
theorem takeWhile_nonempty {chunks markers : List Bytes} (data : ∀ chunk ∈ chunks, chunk ≠ [])
    (endOfFile : ∀ marker ∈ markers, marker = []) :
    (chunks ++ markers).takeWhile (fun node => !node.isEmpty) = chunks := by
  rw [List.takeWhile_append_of_pos]
  · cases markers with
    | nil => simp
    | cons marker rest => simp [endOfFile marker List.mem_cons_self]
  · intro chunk member
    simpa using data chunk member

theorem System.Connected.complete {s : System} (connected : s.Connected) (side : Side)
    (sent : (s.endpoint side).ctx.done = true)
    (received : (s.endpoint side.other).ctx.done = true) :
    ((s.endpoint side.other).hist.delivered.takeWhile (fun node => !node.isEmpty)).flatten =
        (s.endpoint side).hist.written ∧
      [] ∈ (s.endpoint side.other).hist.delivered := by
  obtain ⟨c, -, inOrder, flying⟩ := connected.position side
  have closed := (connected.sound side).closing.ended sent
  have closed' := (connected.sound side.other).closing.ended received
  obtain ⟨chunks, markers, nodes, data, spell, endOfFile, marked⟩ := inOrder.delivered
  have finished : c.stage = .finished := by
    have opened : (s.endpoint side.other).opened := by
      by_contra notOpened
      have running := ((connected.sound side.other).closing.early notOpened).1
      exact absurd (received.symm.trans running) (by decide)
    rw [inOrder.stage, Endpoint.heard]
    rcases opened with phase | phase <;> rw [phase, closed'.finReceived] <;> rfl
  have nothing := payload_of_finished flying finished
  have drained := ((connected.sound side).sender.drained closed.finSent).1
  have accounts := connected.accounts side
  have noData : markers.flatten = [] := List.flatten_eq_nil_iff.mpr endOfFile
  rw [nothing, drained, List.flatten_nil, List.append_nil, List.append_nil, nodes,
    List.flatten_append, noData, List.append_nil] at accounts
  rw [nodes, takeWhile_nonempty data endOfFile]
  refine ⟨accounts, ?_⟩
  cases markers with
  | nil => exact absurd rfl (marked.mpr closed'.finReceived)
  | cons marker rest =>
      rw [endOfFile marker List.mem_cons_self]
      simp

/-- Whatever the applications write, however the system is scheduled and
whatever the initial sequence numbers are: once both sides are through the
handshake, each byte one side wrote is, in order, in the nodes handed to the
other application, in flight, or still queued at the sender; and when both loops
have ended, the whole stream lies before the first end-of-file marker. -/
theorem stream_integrity {initialSequenceNum : Side → TcpSeq} {actions : List Action} {s : System}
    (run : (System.init initialSequenceNum).Run actions s)
    (opened : ∀ side, (s.endpoint side).opened) :
    (∀ side,
      (s.endpoint side.other).hist.delivered.flatten ++ payload (s.inFlight side.other) ++
        (s.endpoint side).sock.appRecvQueue.flatten = (s.endpoint side).hist.written) ∧
    ((∀ side, (s.endpoint side).ctx.done = true) → ∀ side,
      ((s.endpoint side.other).hist.delivered.takeWhile (fun node => !node.isEmpty)).flatten =
          (s.endpoint side).hist.written ∧
        [] ∈ (s.endpoint side.other).hist.delivered) := by
  have inv := System.Inv.run (.inr (System.init_connected initialSequenceNum)) run
  rcases inv with ⟨side, refused⟩ | connected
  · rcases opened side with phase | phase <;> rw [refused] at phase <;> cases phase
  · exact ⟨connected.accounts,
      fun done side => connected.complete side (done side) (done side.other)⟩

/-- A handshake, three bytes from the active side, and a close from both. -/
def shortTransfer : List Action :=
  [.wake .active, .wake .passive, .deliver .passive, .wake .passive, .deliver .active,
    .wake .active, .deliver .passive, .wake .passive,
    .write .active [1, 2, 3], .wake .active, .close .active, .wake .active,
    .deliver .passive, .wake .passive, .deliver .passive, .wake .passive,
    .close .passive, .wake .passive,
    .deliver .active, .wake .active, .deliver .active, .wake .active, .deliver .active,
    .wake .active, .deliver .passive, .wake .passive]

/-- The transfer runs to its end from sequence numbers that wrap. -/
theorem stream_integrity_shortTransfer :
    ∃ s, (System.init fun _ => 0xffffffff).Run shortTransfer s ∧
      (s.endpoint .active).hist.written = [1, 2, 3] ∧
      ((s.endpoint .passive).hist.delivered.takeWhile (fun node => !node.isEmpty)).flatten =
        (s.endpoint .active).hist.written := by
  have ran : ((follow System.step (System.init fun _ => 0xffffffff) shortTransfer).map fun s =>
      ((s.endpoint .active).hist.written,
        ((s.endpoint .active).phase, (s.endpoint .active).ctx.done),
        ((s.endpoint .passive).phase, (s.endpoint .passive).ctx.done))) =
      some ([1, 2, 3], (.controlLoop, true), (.controlLoop, true)) := by
    decide +kernel
  obtain ⟨s, run, state⟩ := Option.map_eq_some_iff.mp ran
  simp only [Prod.mk.injEq] at state
  obtain ⟨written, ⟨phase, done⟩, ⟨phase', done'⟩⟩ := state
  have opened : ∀ side, (s.endpoint side).opened := by
    intro side
    cases side
    · exact .inl phase
    · exact .inl phase'
  have ended : ∀ side, (s.endpoint side).ctx.done = true := by
    intro side
    cases side
    · exact done
    · exact done'
  have whole := stream_integrity (.of_follow run) opened
  exact ⟨s, .of_follow run, written, (whole.2 ended .active).1⟩

end CompNet.Stcp
