import CompNet.Stcp.Listen

/-!
# The receive thread of a listening socket

Each connection of a peer arrives as a TCP connection of its own.  The receive thread
(`network_recv_thread_func` in `network_io_socket.c`) accepts it in
`_network_recv_packet`, keeps the socket in `new_socket`, reads the first packet from it
and leaves the packet to `_mysock_enqueue_connection`, which passes the socket on to the
context of the new connection, if it makes one.  Nothing else clears `new_socket`.

Between the `accept` and the dispatch of the packet the thread may block in `read`, and
the other threads go on; so these are two steps.
-/

namespace CompNet.Stcp

open CompNet.Lib

/-! ## Reading a packet -/

/-- `MAX_IP_PAYLOAD_LEN`, the size of `packet_buf`. -/
def maxIpPayloadLen : Nat := 1500

/-- `_tcp_io` with `read`, on the bytes that the peer sends before the connection ends: what it
read and what is left, or `none` for a result of 0 or less. -/
def tcpIo (count : Nat) (stream : Bytes) : Option (Bytes × Bytes) :=
  if 0 < count ∧ count ≤ stream.length then some (stream.splitAt count) else none

/-- `ntohs(packet_len)`. -/
def packetLen (len : Bytes) : Nat := (len.getD 0 0).toNat * 256 + (len.getD 1 0).toNat

/-- The second half of `_network_recv_packet`: the length it returns and what it stored. -/
def recvPacket (maxLen : Nat) (stream : Bytes) : Option (Nat × Bytes) := do
  let (len, rest) ← tcpIo 2 stream
  let (packet, _) ← tcpIo (min (packetLen len) maxLen) rest
  pure (packetLen len, packet)

/-! ## The thread -/

/-- A TCP connection that `accept` returns. -/
structure Arrival where
  socket : Nat
  peerAddr : SockAddr
  stream : Bytes
  deriving DecidableEq, Repr

inductive RecvThread
  | polling
  | reading (arrival : Arrival)
  | ended
  deriving DecidableEq, Repr

structure Listener where
  backlog : Backlog
  thread : RecvThread
  deriving DecidableEq, Repr

/-- After `mylisten`; `_network_init` has set `new_socket` to -1. -/
def Listener.start (backlog : UInt32) (globalCtx : List Bool) : Listener :=
  ⟨Backlog.start backlog globalCtx (-1), .polling⟩

/-- The accept branch of `_network_recv_packet`; `accept` may fail. -/
def Listener.accept (accepted : Option Arrival) (l : Listener) : Except Assertion Listener :=
  match accepted with
  | none => .ok { l with thread := .ended }
  | some arrival =>
      if l.backlog.demux.newSocket = -1 then
        .ok ⟨{ l.backlog with demux.newSocket := arrival.socket }, .reading arrival⟩
      else .error .newSocket

/-- The rest of the turn, from the accepted connection. -/
def Listener.dispatch (allocated : Bool) (arrival : Arrival) (l : Listener) :
    Option (Except Assertion Listener) :=
  match recvPacket maxIpPayloadLen arrival.stream with
  | none => some (.ok { l with thread := .ended })
  | some (bytesRead, packet) =>
      if bytesRead ≤ maxIpPayloadLen then
        (l.backlog.step (.syn allocated packet arrival.peerAddr 0)).map
          (·.map fun backlog => ⟨backlog, .polling⟩)
      else some (.error .bytesRead)

/-! ## Runs -/

inductive ListenerStep
  | accept (accepted : Option Arrival)
  | dispatch (allocated : Bool)
  | other (step : ListenStep)

def Listener.step (l : Listener) : ListenerStep → Option (Except Assertion Listener)
  | .accept accepted => if l.thread = .polling then some (l.accept accepted) else none
  | .dispatch allocated =>
      match l.thread with
      | .reading arrival => l.dispatch allocated arrival
      | _ => none
  | .other step => (l.backlog.step step).map (·.map fun backlog => { l with backlog := backlog })

/-- Connections are queued by the receive thread only. -/
def ListenStep.queues : ListenStep → Bool
  | .syn .. => true
  | _ => false

/-- The peers have IPv4 addresses, and the other threads do what they do in `ListenStep`. -/
def ListenerStep.Allowed (l : Listener) : ListenerStep → Prop
  | .accept accepted => ∀ arrival ∈ accepted, Ipv4 arrival.peerAddr
  | .dispatch _ => True
  | .other step => step.queues = false ∧ step.Allowed l.backlog

instance (l : Listener) : (step : ListenerStep) → Decidable (step.Allowed l)
  | .accept accepted => inferInstanceAs (Decidable (∀ arrival ∈ accepted, Ipv4 arrival.peerAddr))
  | .dispatch _ => inferInstanceAs (Decidable True)
  | .other step =>
      inferInstanceAs (Decidable (step.queues = false ∧ step.Allowed l.backlog))

/-- One step of a run, which returns. -/
def ListenerStep.Returns (l : Listener) (step : ListenerStep) (l' : Listener) : Prop :=
  step.Allowed l ∧ l.step step = some (.ok l')

/-- The thread is back at its loop, and the accepted socket is somebody else's. -/
def Listener.HandedOver (l : Listener) : Prop :=
  l.thread = .polling → l.backlog.demux.newSocket = -1

/-- The packet that is dispatched gets a connection. -/
def ListenerStep.Queues (l : Listener) : ListenerStep → Prop
  | .dispatch _ => ∀ arrival bytesRead packet, l.thread = .reading arrival →
      recvPacket maxIpPayloadLen arrival.stream = some (bytesRead, packet) →
      Queueable packet arrival.peerAddr l.backlog.demux
  | _ => True

/-! ## The accepted socket -/

/-- The queue is in order, and a connection that is being read has its socket in `new_socket`. -/
structure Listener.Inv (slots : Nat) (l : Listener) : Prop where
  backlog : l.backlog.Inv slots
  reading : ∀ arrival, l.thread = .reading arrival →
    Ipv4 arrival.peerAddr ∧ l.backlog.demux.newSocket = arrival.socket

section

variable {slots : Nat} {x y : Backlog} {l l' : Listener}

/-- The queue says nothing about `new_socket`. -/
theorem Backlog.Inv.setSocket (inv : x.Inv slots) (newSocket : Int) :
    ({ x with demux.newSocket := newSocket } : Backlog).Inv slots :=
  ⟨inv.queue, inv.waitingNodup, inv.waiting, inv.log⟩

/-- What the packet of a connection does to `new_socket`. -/
theorem Backlog.Inv.syn_socket (inv : x.Inv slots) {allocated : Bool} {packet : Bytes}
    {peerAddr : SockAddr} {userData : Nat} (ipv4 : Ipv4 peerAddr)
    (returned : x.step (.syn allocated packet peerAddr userData) = some (.ok y)) :
    Queueable packet peerAddr x.demux ∧ y.demux.newSocket = -1 ∨
      ¬ Queueable packet peerAddr x.demux ∧ y.demux.newSocket = x.demux.newSocket := by
  rw [Backlog.step] at returned
  rcases inv.queue.enqueue_cases allocated packet userData ipv4 with
    ⟨not, dropped⟩ | ⟨_, failed⟩ | ⟨rfl, able⟩
  · rw [dropped] at returned
    cases returned
    exact .inr ⟨not, rfl⟩
  · rw [failed] at returned
    cases returned
  · obtain ⟨k, n, _, _, _, queued⟩ := inv.queue.enqueue_queued userData ipv4 able
    rw [queued] at returned
    cases returned
    exact .inl ⟨able, rfl⟩

/-- The other threads leave `new_socket` alone. -/
theorem Backlog.step_socket {step : ListenStep} (other : step.queues = false)
    (returned : x.step step = some (.ok y)) : y.demux.newSocket = x.demux.newSocket := by
  cases step with
  | syn allocated packet peerAddr userData => cases other
  | complete sd =>
      rw [Backlog.step] at returned
      cases completed : mysockPassiveConnectionComplete sd x.demux.queue with
      | error a =>
          rw [completed] at returned
          cases returned
      | ok queue =>
          rw [completed] at returned
          cases returned
          rfl
  | accept =>
      rw [Backlog.step] at returned
      cases dequeued : mysockDequeueConnection x.demux.globalCtx x.demux.queue with
      | none =>
          rw [dequeued] at returned
          cases returned
      | some result =>
          rw [dequeued] at returned
          cases result with
          | error a => cases returned
          | ok pair =>
              cases returned
              rfl
  | elsewhere globalCtx =>
      cases returned
      rfl

theorem Listener.Inv.accept (inv : l.Inv slots) {accepted : Option Arrival}
    (returned : (ListenerStep.accept accepted).Returns l l') :
    l'.Inv slots ∧ l'.thread ≠ .polling := by
  obtain ⟨ipv4, stepped⟩ := returned
  rw [Listener.step] at stepped
  split at stepped
  · rw [Option.some.injEq, Listener.accept.eq_def] at stepped
    cases accepted with
    | none =>
        cases stepped
        refine ⟨⟨inv.backlog, ?_⟩, ?_⟩
        · intro arrival reading
          cases reading
        · intro polling
          cases polling
    | some arrival =>
        simp only at stepped
        split at stepped
        · cases stepped
          refine ⟨⟨inv.backlog.setSocket _, ?_⟩, ?_⟩
          · intro other reading
            cases reading
            exact ⟨ipv4 arrival rfl, rfl⟩
          · intro polling
            cases polling
        · cases stepped
  · cases stepped

/-- A dispatch that returns has ended the thread, or left a packet to the queue. -/
theorem Listener.dispatch_cases {allocated : Bool}
    (stepped : l.step (.dispatch allocated) = some (.ok l')) :
    ∃ arrival, l.thread = .reading arrival ∧
      (recvPacket maxIpPayloadLen arrival.stream = none ∧ l' = { l with thread := .ended } ∨
        ∃ bytesRead packet backlog,
          recvPacket maxIpPayloadLen arrival.stream = some (bytesRead, packet) ∧
          l.backlog.step (.syn allocated packet arrival.peerAddr 0) = some (.ok backlog) ∧
          l' = ⟨backlog, .polling⟩) := by
  rw [Listener.step] at stepped
  split at stepped
  · next arrival thread =>
      refine ⟨arrival, thread, ?_⟩
      rw [Listener.dispatch] at stepped
      split at stepped
      · next failed =>
          cases stepped
          exact .inl ⟨failed, rfl⟩
      · next bytesRead packet received =>
          split at stepped
          · obtain ⟨result, enqueued, returned⟩ := Option.map_eq_some_iff.mp stepped
            cases result with
            | error a => cases returned
            | ok backlog =>
                cases returned
                exact .inr ⟨bytesRead, packet, backlog, received, enqueued, rfl⟩
          · cases stepped
  · cases stepped

/-- The dispatch of a packet clears `new_socket` just when the connection is queued. -/
theorem Listener.Inv.dispatch (inv : l.Inv slots) {allocated : Bool}
    (returned : (ListenerStep.dispatch allocated).Returns l l') :
    l'.Inv slots ∧ (l'.HandedOver ↔ (ListenerStep.dispatch allocated).Queues l) := by
  obtain ⟨arrival, thread, ⟨failed, rfl⟩ | ⟨bytesRead, packet, backlog, received, enqueued, rfl⟩⟩ :=
    Listener.dispatch_cases returned.2
  · refine ⟨⟨inv.backlog, ?_⟩, ?_, ?_⟩
    · intro other reading
      cases reading
    · intro _ other bytesRead packet reading received
      rw [thread] at reading
      cases reading
      rw [failed] at received
      cases received
    · intro _ polling
      cases polling
  · obtain ⟨ipv4, socket⟩ := inv.reading arrival thread
    have queued : (ListenStep.syn allocated packet arrival.peerAddr 0).Returns l.backlog backlog :=
      ⟨ipv4, enqueued⟩
    refine ⟨⟨inv.backlog.returns queued, ?_⟩, ?_, ?_⟩
    · intro other reading
      cases reading
    · -- a packet that was not queued leaves the socket where it is
      intro handed other bytesRead' packet' reading received'
      rw [thread] at reading
      cases reading
      rw [received] at received'
      cases received'
      rcases inv.backlog.syn_socket ipv4 enqueued with ⟨able, _⟩ | ⟨_, kept⟩
      · exact able
      · have cleared := handed rfl
        rw [kept, socket] at cleared
        omega
    · intro queues _
      rcases inv.backlog.syn_socket ipv4 enqueued with ⟨_, cleared⟩ | ⟨not, _⟩
      · exact cleared
      · exact absurd (queues arrival bytesRead packet thread received) not

theorem Listener.Inv.other (inv : l.Inv slots) {step : ListenStep}
    (returned : (ListenerStep.other step).Returns l l') :
    l'.Inv slots ∧ (l.HandedOver → l'.HandedOver) := by
  obtain ⟨⟨other, allowed⟩, stepped⟩ := returned
  obtain ⟨result, ran, isOk⟩ := Option.map_eq_some_iff.mp stepped
  cases result with
  | error a => cases isOk
  | ok backlog =>
      cases isOk
      have socket := Backlog.step_socket other ran
      refine ⟨⟨inv.backlog.returns ⟨allowed, ran⟩, ?_⟩, ?_⟩
      · intro arrival reading
        obtain ⟨ipv4, isSocket⟩ := inv.reading arrival reading
        exact ⟨ipv4, socket.trans isSocket⟩
      · intro handed polling
        exact socket.trans (handed polling)

/-- One step: the invariant stays, and the socket is handed over just when the packet of the step
is queued. -/
theorem Listener.Inv.step (inv : l.Inv slots) (handed : l.HandedOver) {step : ListenerStep}
    (returned : step.Returns l l') : l'.Inv slots ∧ (l'.HandedOver ↔ step.Queues l) := by
  cases step with
  | accept accepted =>
      obtain ⟨inv', busy⟩ := inv.accept returned
      exact ⟨inv', fun _ => trivial, fun _ polling => absurd polling busy⟩
  | dispatch allocated => exact inv.dispatch returned
  | other step =>
      obtain ⟨inv', kept⟩ := inv.other returned
      exact ⟨inv', fun _ => trivial, fun _ => kept handed⟩

theorem Listener.Inv.start (backlog : UInt32) (globalCtx : List Bool) :
    (Listener.start backlog globalCtx).Inv (backlog + 1).toNat := by
  refine ⟨Backlog.Inv.start backlog globalCtx (-1), ?_⟩
  intro arrival reading
  cases reading

end

/-- In a run of the receive thread, whatever the other threads do, every accepted socket is handed
over before the next `accept` if and only if every packet gets a connection: it is a SYN of a peer
that is not queued, and there is room in the queue and a free descriptor. -/
theorem accepted_socket_handed_over (backlog : UInt32) (globalCtx : List Bool)
    (steps : List ListenerStep) (l : Listener) :
    Path (fun l step l' => step.Returns l l' ∧ l'.HandedOver)
        (Listener.start backlog globalCtx) steps l ↔
      Path (fun l step l' => step.Returns l l' ∧ step.Queues l)
        (Listener.start backlog globalCtx) steps l := by
  have start : (Listener.start backlog globalCtx).Inv (backlog + 1).toNat ∧
      (Listener.start backlog globalCtx).HandedOver :=
    ⟨Listener.Inv.start backlog globalCtx, fun _ => rfl⟩
  refine Path.congr (motive := fun l => l.Inv (backlog + 1).toNat ∧ l.HandedOver) ?_ ?_ start
  · intro l step l' ⟨inv, handed⟩ ⟨returned, handed'⟩
    exact ⟨(inv.step handed returned).1, handed'⟩
  · intro l step l' ⟨inv, handed⟩
    exact and_congr_right fun returned => (inv.step handed returned).2

/-- A peer that sends its SYN. -/
def synFrom (host : UInt8) : Arrival := ⟨host.toNat, peerAt host, [0, 20] ++ synPacket⟩

/-- Two peers, one after the other, at a socket with a backlog of 0. -/
def secondPeer : List ListenerStep :=
  [.accept (some (synFrom 1)), .dispatch true, .accept (some (synFrom 2)), .dispatch true]

/-- The SYN of the second peer is dropped because the queue is full. -/
def afterSecondPeer : Listener where
  backlog := {
    demux := {
      queue := {
        maxLen := 1
        curLen := 1
        connectionQueue := [⟨peerAt 1, sockaddrInLen, 1, 0⟩]
        completedQueue := [] }
      globalCtx := [true, true, false, false]
      newSocket := 2 }
    waiting := [1] }
  thread := .polling

/-- After it the thread is at its loop with the socket still in `new_socket`, and the assertion
fires at the third peer. -/
theorem secondPeer_keeps_socket :
    Path ListenerStep.Returns (Listener.start 0 [true, false, false, false]) secondPeer
        afterSecondPeer ∧
      ¬ afterSecondPeer.HandedOver ∧
      afterSecondPeer.step (.accept (some (synFrom 3))) = some (.error .newSocket) := by
  have ran : follow (afterAllowed ListenerStep.Allowed Listener.step)
      (Listener.start 0 [true, false, false, false]) secondPeer = some afterSecondPeer := by
    decide +kernel
  refine ⟨Path.of_follow_allowed ran, ?_, rfl⟩
  intro handed
  have cleared := handed rfl
  revert cleared
  decide

end CompNet.Stcp
