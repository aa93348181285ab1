import CompNet.Stcp.Mysock

/-!
# The STCP transport thread

`transport.c` as a function from one state of an endpoint to the next.  The
thread sleeps only in `stcp_wait_for_event`; `Endpoint.wake` is everything it
does between two waits: one stage of the handshake in `transport_init`, or one
iteration of `control_loop`.  `none` means that nothing is ready and the thread
keeps sleeping.  Other threads only append to the queues whose heads an
iteration takes, so nothing they do can fall inside one.

`History` is not state of the program.  It records what crossed the endpoint's
borders, so that a property can speak about all bytes ever written, all nodes
ever put into `app_send_queue` and all packets ever sent or read.
-/

namespace CompNet.Stcp

/-- `CSTATE_*`. -/
inductive CState
  | closed
  | synSent
  | synRcvd
  | established
  | finWait1
  | finWait2
  | closing
  | closeWait
  | lastAck
  deriving DecidableEq, Repr

/-- `RECEIVER_WINDOW_SIZE`. -/
def receiverWindowSize : UInt16 := 3072

/-- `context_t`. -/
structure Ctx where
  done : Bool
  connectionState : CState
  initialSequenceNum : TcpSeq
  sequenceNum : TcpSeq
  ackNum : TcpSeq
  finSent : Bool
  finReceived : Bool
  finAcked : Bool
  recvWindowSize : UInt16
  recvBufferUsed : UInt16
  nextSeqExpected : TcpSeq
  peerWindowSize : UInt16
  lastAckReceived : TcpSeq
  lastByteSent : TcpSeq
  deriving DecidableEq, Repr

/-- The context as `transport_init` sets it up; `calloc` leaves the rest zero. -/
def Ctx.init (initialSequenceNum : TcpSeq) : Ctx where
  done := false
  connectionState := .closed
  initialSequenceNum := initialSequenceNum
  sequenceNum := initialSequenceNum
  ackNum := 0
  finSent := false
  finReceived := false
  finAcked := false
  recvWindowSize := receiverWindowSize
  recvBufferUsed := 0
  nextSeqExpected := 0
  peerWindowSize := receiverWindowSize
  lastAckReceived := initialSequenceNum
  lastByteSent := initialSequenceNum

/-- Where the transport thread waits, or how it ended. -/
inductive Phase
  | start
  | awaitSynAck
  | awaitSyn
  | awaitAck
  | controlLoop
  | refused
  | exited
  deriving DecidableEq, Repr

/-- What has crossed the borders of an endpoint so far. -/
structure History where
  /-- Bytes the application passed to `mywrite`. -/
  written : Bytes := []
  /-- The application has called `myclose`. -/
  closed : Bool := false
  /-- Nodes put into `app_send_queue`. -/
  delivered : List Bytes := []
  /-- Packets passed to `stcp_network_send`. -/
  sent : List Packet := []
  /-- Packets taken out of `network_recv_queue`. -/
  received : List Packet := []
  deriving DecidableEq, Repr

/-- One end of a connection: the transport thread's state and the mysocket
context it works on. -/
structure Endpoint where
  isActive : Bool
  phase : Phase := .start
  ctx : Ctx
  sock : Mysock := {}
  /-- `buf` of `control_loop`; its bytes survive from one iteration to the next. -/
  buf : Bytes := List.replicate (stcpMss + headerLen) 0
  hist : History := {}
  deriving DecidableEq, Repr

def Endpoint.init (isActive : Bool) (initialSequenceNum : TcpSeq) : Endpoint where
  isActive := isActive
  ctx := Ctx.init initialSequenceNum

/-! ## Calls the transport layer makes -/

/-- The packet `send_packet` builds.  `stcp_network_send` fills in the ports and
the checksum afterwards. -/
def buildPacket (ctx : Ctx) (data : Bytes) (flags : UInt8) : Packet where
  thSport := 0
  thDport := 0
  thSeq := ctx.sequenceNum
  thAck := ctx.ackNum
  thX2 := 0
  thOff := 5
  thFlags := flags
  thWin := ctx.recvWindowSize - ctx.recvBufferUsed
  thSum := 0
  thUrp := 0
  data := data

/-- `send_packet`. -/
def sendPacket (data : Bytes) (flags : UInt8) (e : Endpoint) : Endpoint :=
  { e with hist.sent := e.hist.sent ++ [buildPacket e.ctx data flags] }

/-- Put one node into `app_send_queue`. -/
def enqueueForApp (node : Bytes) (e : Endpoint) : Endpoint :=
  { e with
    sock.appSendQueue := e.sock.appSendQueue ++ [node]
    hist.delivered := e.hist.delivered ++ [node] }

/-- `stcp_app_send`. -/
def stcpAppSend (src : Bytes) (e : Endpoint) : Endpoint :=
  if src.length > 0 then enqueueForApp src e else e

/-- `stcp_fin_received`. -/
def stcpFinReceived (e : Endpoint) : Endpoint := enqueueForApp [] e

/-! ## One iteration of `control_loop` -/

/-- `max_to_send`: the subtraction is done in 32 bits. -/
def maxToSend (ctx : Ctx) : Nat :=
  min (ctx.peerWindowSize.toUInt32 - (ctx.lastByteSent - ctx.lastAckReceived)).toNat stcpMss

/-- The `APP_DATA` branch. -/
def handleAppData (e : Endpoint) : Endpoint :=
  if maxToSend e.ctx > 0 then
    match dequeuePartial (maxToSend e.ctx) e.sock.appRecvQueue with
    | none => e
    | some (appBuf, rest) =>
        let e := { e with sock.appRecvQueue := rest }
        if appBuf.length > 0 then
          let e := sendPacket appBuf thAckFlag e
          { e with ctx.sequenceNum := e.ctx.sequenceNum + UInt32.ofNat appBuf.length }
        else e
  else e

/-- The `APP_DATA` branch takes nothing, takes an empty node, or takes one chunk
and sends it. -/
theorem handleAppData_cases (e : Endpoint) :
    handleAppData e = e ∨
    ∃ chunk rest, dequeuePartial (maxToSend e.ctx) e.sock.appRecvQueue = some (chunk, rest) ∧
      ((chunk = [] ∧ handleAppData e = { e with sock.appRecvQueue := rest }) ∨
        (chunk ≠ [] ∧ handleAppData e =
          { e with
            sock.appRecvQueue := rest
            hist.sent := e.hist.sent ++ [buildPacket e.ctx chunk thAckFlag]
            ctx.sequenceNum := e.ctx.sequenceNum + UInt32.ofNat chunk.length })) := by
  unfold handleAppData
  split
  · split
    · exact .inl rfl
    · next chunk rest dequeued =>
        refine .inr ⟨chunk, rest, dequeued, ?_⟩
        cases chunk with
        | nil => exact .inl ⟨rfl, rfl⟩
        | cons b bs => exact .inr ⟨by simp, rfl⟩
  · exact .inl rfl

/-- `stcp_network_recv` of a packet into `buf`, and the window update. -/
def receivePacket (p : Packet) (rest : List (Option Packet)) (e : Endpoint) : Endpoint :=
  let copied := p.wire.take (stcpMss + headerLen)
  { e with
    sock.networkRecvQueue := rest
    buf := copied ++ e.buf.drop copied.length
    ctx.peerWindowSize := p.thWin
    hist.received := e.hist.received ++ [p] }

/-- The state change on a FIN. -/
def Ctx.onFin (c : Ctx) : Ctx :=
  match c.connectionState with
  | .established => { c with connectionState := .closeWait }
  | .finWait1 => { c with connectionState := .closing }
  | .finWait2 => { c with done := true }
  | _ => c

/-- The `TH_FIN` branch. -/
def handleFin (p : Packet) (e : Endpoint) : Endpoint :=
  if p.has thFin then
    let e := { e with ctx.finReceived := true, ctx.ackNum := p.thSeq + 1 }
    let e := stcpFinReceived (sendPacket [] thAckFlag e)
    { e with ctx := e.ctx.onFin }
  else e

/-- The state change on an acknowledgement of everything sent. -/
def Ctx.onFullAck (c : Ctx) : Ctx :=
  match c.connectionState with
  | .finWait1 => { c with finAcked := true, connectionState := .finWait2 }
  | .closing => { c with finAcked := true, done := true }
  | .lastAck => { c with finAcked := true, connectionState := .closed, done := true }
  | _ => c

/-- The `TH_ACK` branch: each of its three cases asks for `recv_ack` to equal
`sequence_num`. -/
def handleAck (p : Packet) (e : Endpoint) : Endpoint :=
  if p.has thAckFlag ∧ p.thAck = e.ctx.sequenceNum then { e with ctx := e.ctx.onFullAck }
  else e

/-- `data_len`: a `ssize_t` minus a `size_t`, so the difference wraps. -/
def dataLen (p : Packet) : Nat := (p.wire.length + 2 ^ 64 - p.dataStart) % 2 ^ 64

/-- The bytes handed up: `data_len` bytes of `buf` from `TCP_DATA_START` on.
Bytes past the end of `buf` are undefined in the source and are left out. -/
def dataChunk (p : Packet) (buf : Bytes) : Bytes := (buf.drop p.dataStart).take (dataLen p)

/-- The bookkeeping of in-order data.  `recv_buffer_used` is given back only
when the data was passed up. -/
def Ctx.onData (c : Ctx) (p : Packet) : Ctx :=
  let c := { c with recvBufferUsed := c.recvBufferUsed + UInt16.ofNat (dataLen p) }
  let c :=
    if p.thSeq = c.nextSeqExpected then
      { c with
        nextSeqExpected := p.thSeq + UInt32.ofNat (dataLen p)
        recvBufferUsed := c.recvBufferUsed - UInt16.ofNat (dataLen p) }
    else c
  { c with ackNum := c.ackNum + UInt32.ofNat (dataLen p) }

/-- The data branch, when what is passed up is `chunk`: two counters guard it. -/
def handleChunk (chunk : Bytes) (p : Packet) (e : Endpoint) : Endpoint :=
  if dataLen p > 0 then
    if p.thSeq = e.ctx.ackNum then
      let passed := if p.thSeq = e.ctx.nextSeqExpected then stcpAppSend chunk e else e
      sendPacket [] thAckFlag { passed with ctx := e.ctx.onData p }
    else sendPacket [] thAckFlag e
  else e

/-- The data branch for a packet that `buf` holds.  Its assertions are taken to hold; `readPacket`
has them. -/
def handleData (p : Packet) (e : Endpoint) : Endpoint := handleChunk (dataChunk p e.buf) p e

/-- The state change when the FIN has been sent. -/
def Ctx.onClose (c : Ctx) : Ctx :=
  match c.connectionState with
  | .established => { c with connectionState := .finWait1 }
  | .closeWait => { c with connectionState := .lastAck }
  | _ => c

/-- The `APP_CLOSE_REQUESTED` branch. -/
def handleClose (e : Endpoint) : Endpoint :=
  if e.ctx.finSent then e
  else
    let e := sendPacket [] (thFin ||| thAckFlag) { e with ctx.finSent := true }
    let e := { e with ctx.sequenceNum := e.ctx.sequenceNum + 1 }
    { e with ctx := e.ctx.onClose }

/-- The `NETWORK_DATA` branch for a packet. -/
def handlePacket (p : Packet) (rest : List (Option Packet)) (e : Endpoint) : Endpoint :=
  handleData p (handleAck p (handleFin p (receivePacket p rest e)))

/-- A network read of length 0: the connection is given up in `ESTABLISHED`,
and the iteration ends here in every state. -/
def handleReadError (rest : List (Option Packet)) (e : Endpoint) : Endpoint :=
  let e := { e with sock.networkRecvQueue := rest }
  if e.ctx.connectionState = .established then
    { e with ctx.connectionState := .closed, ctx.done := true }
  else e

/-- One iteration of `control_loop` on the mask `ev`. -/
def controlLoopIteration (ev : Event) (e : Endpoint) : Endpoint :=
  let e := if ev.appData then handleAppData e else e
  match ev.networkData, e.sock.networkRecvQueue with
  | true, none :: rest => handleReadError rest e
  | true, some p :: rest =>
      let e := handlePacket p rest e
      if ev.appCloseRequested then handleClose e else e
  | _, _ => if ev.appCloseRequested then handleClose e else e

/-! ## What each branch does

Each update of the context is named by the fields it may move; each branch is
one of a few records. -/

theorem Ctx.onFin_eq (c : Ctx) :
    ∃ state done, c.onFin = { c with connectionState := state, done := done } := by
  unfold Ctx.onFin
  split
  · exact ⟨_, _, rfl⟩
  · exact ⟨_, _, rfl⟩
  · exact ⟨_, _, rfl⟩
  · exact ⟨c.connectionState, c.done, rfl⟩

theorem Ctx.onFullAck_eq (c : Ctx) :
    ∃ state done acked, c.onFullAck =
      { c with connectionState := state, done := done, finAcked := acked } := by
  unfold Ctx.onFullAck
  split
  · exact ⟨_, _, _, rfl⟩
  · exact ⟨_, _, _, rfl⟩
  · exact ⟨_, _, _, rfl⟩
  · exact ⟨c.connectionState, c.done, c.finAcked, rfl⟩

/-- In-order data moves three counters. -/
theorem Ctx.onData_eq (c : Ctx) (p : Packet) :
    ∃ used expected acked, c.onData p =
      { c with recvBufferUsed := used, nextSeqExpected := expected, ackNum := acked } := by
  unfold Ctx.onData
  dsimp only
  split <;> exact ⟨_, _, _, rfl⟩

theorem Ctx.onClose_eq (c : Ctx) : ∃ state, c.onClose = { c with connectionState := state } := by
  unfold Ctx.onClose
  split
  · exact ⟨_, rfl⟩
  · exact ⟨_, rfl⟩
  · exact ⟨c.connectionState, rfl⟩

theorem handleFin_cases (p : Packet) (e : Endpoint) :
    (p.has thFin = false ∧ handleFin p e = e) ∨
    (p.has thFin = true ∧ ∃ state done, handleFin p e =
      { e with
        ctx.finReceived := true
        ctx.ackNum := p.thSeq + 1
        ctx.connectionState := state
        ctx.done := done
        sock.appSendQueue := e.sock.appSendQueue ++ [[]]
        hist.delivered := e.hist.delivered ++ [[]]
        hist.sent := e.hist.sent ++
          [buildPacket { e.ctx with ackNum := p.thSeq + 1 } [] thAckFlag] }) := by
  unfold handleFin
  split
  · next fin =>
      obtain ⟨state, done, moved⟩ :=
        Ctx.onFin_eq { e.ctx with finReceived := true, ackNum := p.thSeq + 1 }
      refine .inr ⟨fin, state, done, ?_⟩
      simp only [stcpFinReceived, enqueueForApp, sendPacket, moved]
      rfl
  · next noFin => exact .inl ⟨Bool.not_eq_true _ ▸ noFin, rfl⟩

theorem handleAck_eq (p : Packet) (e : Endpoint) :
    ∃ state done acked, handleAck p e =
      { e with ctx.connectionState := state, ctx.done := done, ctx.finAcked := acked } := by
  unfold handleAck
  split
  · obtain ⟨state, done, acked, moved⟩ := e.ctx.onFullAck_eq
    exact ⟨state, done, acked, by rw [moved]⟩
  · exact ⟨e.ctx.connectionState, e.ctx.done, e.ctx.finAcked, rfl⟩

/-- The data branch does nothing, sends the ACK it owes, or accepts the data; only
data that both counters expect is passed up. -/
theorem handleData_cases (p : Packet) (e : Endpoint) :
    (dataLen p = 0 ∧ handleData p e = e) ∨
    (dataLen p > 0 ∧ p.thSeq ≠ e.ctx.ackNum ∧ handleData p e = sendPacket [] thAckFlag e) ∨
    (dataLen p > 0 ∧ p.thSeq = e.ctx.ackNum ∧ p.thSeq ≠ e.ctx.nextSeqExpected ∧
      handleData p e = sendPacket [] thAckFlag { e with ctx := e.ctx.onData p }) ∨
    (dataLen p > 0 ∧ p.thSeq = e.ctx.ackNum ∧ p.thSeq = e.ctx.nextSeqExpected ∧
      handleData p e = sendPacket [] thAckFlag
        { stcpAppSend (dataChunk p e.buf) e with ctx := e.ctx.onData p }) := by
  unfold handleData handleChunk
  split
  · next some =>
      split
      · next inOrder =>
          split
          · next expected => exact .inr (.inr (.inr ⟨some, inOrder, expected, rfl⟩))
          · next unexpected => exact .inr (.inr (.inl ⟨some, inOrder, unexpected, rfl⟩))
      · next outOfOrder => exact .inr (.inl ⟨some, outOfOrder, rfl⟩)
  · next none => exact .inl ⟨Nat.eq_zero_of_not_pos none, rfl⟩

theorem handleClose_cases (e : Endpoint) :
    (e.ctx.finSent = true ∧ handleClose e = e) ∨
    (e.ctx.finSent = false ∧ ∃ state, handleClose e =
      { e with
        ctx.finSent := true
        ctx.sequenceNum := e.ctx.sequenceNum + 1
        ctx.connectionState := state
        hist.sent := e.hist.sent ++ [buildPacket e.ctx [] (thFin ||| thAckFlag)] }) := by
  unfold handleClose
  split
  · next sent => exact .inl ⟨sent, rfl⟩
  · next notSent =>
      obtain ⟨state, moved⟩ := Ctx.onClose_eq
        { e.ctx with finSent := true, sequenceNum := e.ctx.sequenceNum + 1 }
      refine .inr ⟨Bool.not_eq_true _ ▸ notSent, state, ?_⟩
      simp only [sendPacket, moved]
      rfl

/-! ## What an iteration never touches -/

/-- `e'` differs from `e` only in what an iteration of `control_loop` may change. -/
structure Frame (e e' : Endpoint) : Prop where
  isActive : e'.isActive = e.isActive
  phase : e'.phase = e.phase
  written : e'.hist.written = e.hist.written
  closed : e'.hist.closed = e.hist.closed
  closeRequested : e'.sock.closeRequested = e.sock.closeRequested
  initialSequenceNum : e'.ctx.initialSequenceNum = e.ctx.initialSequenceNum
  recvWindowSize : e'.ctx.recvWindowSize = e.ctx.recvWindowSize
  lastByteSent : e'.ctx.lastByteSent = e.ctx.lastByteSent
  lastAckReceived : e'.ctx.lastAckReceived = e.ctx.lastAckReceived

theorem Frame.refl (e : Endpoint) : Frame e e := ⟨rfl, rfl, rfl, rfl, rfl, rfl, rfl, rfl, rfl⟩

theorem Frame.trans {e₁ e₂ e₃ : Endpoint} (first : Frame e₁ e₂) (second : Frame e₂ e₃) :
    Frame e₁ e₃ where
  isActive := second.isActive.trans first.isActive
  phase := second.phase.trans first.phase
  written := second.written.trans first.written
  closed := second.closed.trans first.closed
  closeRequested := second.closeRequested.trans first.closeRequested
  initialSequenceNum := second.initialSequenceNum.trans first.initialSequenceNum
  recvWindowSize := second.recvWindowSize.trans first.recvWindowSize
  lastByteSent := second.lastByteSent.trans first.lastByteSent
  lastAckReceived := second.lastAckReceived.trans first.lastAckReceived

theorem handleAppData_frame (e : Endpoint) : Frame e (handleAppData e) := by
  rcases handleAppData_cases e with same | ⟨chunk, rest, -, ⟨-, same⟩ | ⟨-, same⟩⟩ <;> rw [same]
  · exact .refl e
  · exact ⟨rfl, rfl, rfl, rfl, rfl, rfl, rfl, rfl, rfl⟩
  · exact ⟨rfl, rfl, rfl, rfl, rfl, rfl, rfl, rfl, rfl⟩

theorem handleFin_frame (p : Packet) (e : Endpoint) : Frame e (handleFin p e) := by
  rcases handleFin_cases p e with ⟨-, same⟩ | ⟨-, state, done, same⟩ <;> rw [same]
  · exact .refl e
  · exact ⟨rfl, rfl, rfl, rfl, rfl, rfl, rfl, rfl, rfl⟩

theorem handleAck_frame (p : Packet) (e : Endpoint) : Frame e (handleAck p e) := by
  obtain ⟨state, done, acked, same⟩ := handleAck_eq p e
  rw [same]
  exact ⟨rfl, rfl, rfl, rfl, rfl, rfl, rfl, rfl, rfl⟩

theorem stcpAppSend_frame (src : Bytes) (e : Endpoint) : Frame e (stcpAppSend src e) := by
  unfold stcpAppSend
  split
  · exact ⟨rfl, rfl, rfl, rfl, rfl, rfl, rfl, rfl, rfl⟩
  · exact .refl e

theorem Frame.acceptData {e e₁ : Endpoint} (p : Packet) (passed : Frame e e₁) :
    Frame e (sendPacket [] thAckFlag { e₁ with ctx := e.ctx.onData p }) := by
  obtain ⟨used, expected, acked, counters⟩ := e.ctx.onData_eq p
  obtain ⟨isActive, phase, written, closed, closeRequested, -, -, -, -⟩ := passed
  rw [counters]
  exact ⟨isActive, phase, written, closed, closeRequested, rfl, rfl, rfl, rfl⟩

theorem handleData_frame (p : Packet) (e : Endpoint) : Frame e (handleData p e) := by
  rcases handleData_cases p e with
    ⟨-, same⟩ | ⟨-, -, same⟩ | ⟨-, -, -, same⟩ | ⟨-, -, -, same⟩
  · rw [same]
    exact .refl e
  · rw [same]
    exact ⟨rfl, rfl, rfl, rfl, rfl, rfl, rfl, rfl, rfl⟩
  · rw [same]
    exact (Frame.refl e).acceptData p
  · rw [same]
    exact (stcpAppSend_frame (dataChunk p e.buf) e).acceptData p

theorem handlePacket_frame (p : Packet) (rest : List (Option Packet)) (e : Endpoint) :
    Frame e (handlePacket p rest e) :=
  have received : Frame e (receivePacket p rest e) :=
    ⟨rfl, rfl, rfl, rfl, rfl, rfl, rfl, rfl, rfl⟩
  received.trans ((handleFin_frame p _).trans ((handleAck_frame p _).trans (handleData_frame p _)))

theorem handleClose_frame (e : Endpoint) : Frame e (handleClose e) := by
  rcases handleClose_cases e with ⟨-, same⟩ | ⟨-, state, same⟩ <;> rw [same]
  · exact .refl e
  · exact ⟨rfl, rfl, rfl, rfl, rfl, rfl, rfl, rfl, rfl⟩

/-- The invariant rule of one iteration: what every branch keeps, the iteration
keeps.  Application data is sent first, and the close branch runs only when the
mask asks for it. -/
theorem controlLoopIteration_keeps {motive : Endpoint → Prop} {ev : Event} {e : Endpoint}
    (start : motive e)
    (appData : motive (handleAppData e))
    (readError : ∀ e rest, motive e → e.sock.networkRecvQueue = none :: rest →
      motive (handleReadError rest e))
    (packet : ∀ e p rest, motive e → e.sock.networkRecvQueue = some p :: rest →
      motive (handlePacket p rest e))
    (close : ev.appCloseRequested = true → ∀ e, motive e → motive (handleClose e)) :
    motive (controlLoopIteration ev e) := by
  unfold controlLoopIteration
  have afterApp : motive (if ev.appData then handleAppData e else e) := by
    split
    · exact appData
    · exact start
  generalize (if ev.appData then handleAppData e else e) = e₁ at afterApp
  have afterClose : ∀ e₂, motive e₂ →
      motive (if ev.appCloseRequested then handleClose e₂ else e₂) := by
    intro e₂ before
    split
    · next asked => exact close asked e₂ before
    · exact before
  dsimp only
  split
  · next rest _ head => exact readError e₁ rest afterApp head
  · next p rest _ head => exact afterClose _ (packet e₁ p rest afterApp head)
  · exact afterClose e₁ afterApp

theorem handleReadError_frame (rest : List (Option Packet)) (e : Endpoint) :
    Frame e (handleReadError rest e) := by
  unfold handleReadError
  dsimp only
  split <;> exact ⟨rfl, rfl, rfl, rfl, rfl, rfl, rfl, rfl, rfl⟩

theorem controlLoopIteration_frame (ev : Event) (e : Endpoint) :
    Frame e (controlLoopIteration ev e) := by
  apply controlLoopIteration_keeps (Frame.refl e)
  · exact handleAppData_frame e
  · intro e₁ rest before _
    exact before.trans (handleReadError_frame rest e₁)
  · intro e₁ p rest before _
    exact before.trans (handlePacket_frame p rest e₁)
  · intro _ e₁ before
    exact before.trans (handleClose_frame e₁)

/-! ## The handshake of `transport_init` -/

/-- `transport_init` returned: `transport_thread_func` makes a blocked `myread`
return by one more end-of-file marker. -/
def threadExit (phase : Phase) (e : Endpoint) : Endpoint :=
  enqueueForApp [] { e with phase := phase }

/-- The active side's first move: send SYN. -/
def sendSyn (e : Endpoint) : Endpoint :=
  let e := sendPacket [] thSyn { e with ctx.connectionState := .synSent }
  { e with phase := .awaitSynAck, ctx.sequenceNum := e.ctx.sequenceNum + 1 }

/-- The active side on the packet that should be the SYN-ACK. -/
def onSynAck (p : Packet) (e : Endpoint) : Endpoint :=
  if p.has thSyn ∧ p.has thAckFlag ∧ p.thAck = e.ctx.sequenceNum then
    let e := sendPacket [] thAckFlag
      { e with
        ctx.ackNum := p.thSeq + 1
        ctx.peerWindowSize := p.thWin
        ctx.nextSeqExpected := p.thSeq + 1 }
    { e with phase := .controlLoop, ctx.connectionState := .established }
  else threadExit .refused e

/-- The passive side on the packet that should be the SYN. -/
def onSyn (p : Packet) (e : Endpoint) : Endpoint :=
  if p.has thSyn then
    let e := sendPacket [] (thSyn ||| thAckFlag)
      { e with
        ctx.ackNum := p.thSeq + 1
        ctx.connectionState := .synRcvd
        ctx.nextSeqExpected := p.thSeq + 1
        ctx.peerWindowSize := p.thWin }
    { e with phase := .awaitAck, ctx.sequenceNum := e.ctx.sequenceNum + 1 }
  else threadExit .refused e

/-- The passive side on the packet that should be the final ACK. -/
def onAck (p : Packet) (e : Endpoint) : Endpoint :=
  if p.has thAckFlag ∧ p.thAck = e.ctx.sequenceNum then
    { e with
      phase := .controlLoop
      ctx.peerWindowSize := p.thWin
      ctx.connectionState := .established }
  else threadExit .refused e

/-- One handshake stage: wait for `NETWORK_DATA`, read one packet into a buffer
of one header, and act on it.  A wake-up without network data and a read of
length 0 both refuse the connection. -/
def handshakeStage (act : Packet → Endpoint → Endpoint) (e : Endpoint) : Option Endpoint :=
  match stcpWaitForEvent networkEvent e.sock with
  | none => none
  | some (ev, sock) =>
      let e := { e with sock := sock }
      match ev.networkData, e.sock.networkRecvQueue with
      | true, none :: rest => some (threadExit .refused { e with sock.networkRecvQueue := rest })
      | true, some p :: rest =>
          some (act p
            { e with
              sock.networkRecvQueue := rest
              hist.received := e.hist.received ++ [p] })
      | _, _ => some (threadExit .refused e)

/-! ## The transport thread between two waits -/

/-- What the transport thread does when it is scheduled. -/
def Endpoint.wake (e : Endpoint) : Option Endpoint :=
  match e.phase with
  | .start => some (if e.isActive then sendSyn e else { e with phase := .awaitSyn })
  | .awaitSynAck => handshakeStage onSynAck e
  | .awaitSyn => handshakeStage onSyn e
  | .awaitAck => handshakeStage onAck e
  | .controlLoop =>
      if e.ctx.done then some (threadExit .exited e)
      else
        match stcpWaitForEvent anyEvent e.sock with
        | none => none
        | some (ev, sock) => some (controlLoopIteration ev { e with sock := sock })
  | .refused => none
  | .exited => none

/-- The endpoint with `p` taken from its network queue in the handshake. -/
def Endpoint.take (p : Packet) (rest : List (Option Packet)) (closeRequested : Bool)
    (e : Endpoint) : Endpoint :=
  { e with
    sock.closeRequested := closeRequested
    sock.networkRecvQueue := rest
    hist.received := e.hist.received ++ [p] }

/-- A handshake stage refuses, or acts on the packet at the head of the queue. -/
theorem handshakeStage_cases {act : Packet → Endpoint → Endpoint} {e e' : Endpoint}
    (step : handshakeStage act e = some e') :
    e'.phase = .refused ∨
    ∃ p rest closeRequested, e.sock.networkRecvQueue = some p :: rest ∧
      (closeRequested = true → e.sock.closeRequested = true) ∧
      e' = act p (e.take p rest closeRequested) := by
  unfold handshakeStage at step
  split at step
  · cases step
  · next ev sock waited =>
      obtain ⟨-, -, -, rfl⟩ := stcpWaitForEvent_spec waited
      dsimp only at step
      split at step
      · cases step
        exact .inl rfl
      · next p rest _ head =>
          cases step
          refine .inr ⟨p, rest, _, head, ?_, rfl⟩
          intro requested
          exact (Bool.and_eq_true_iff.mp requested).1
      · cases step
        exact .inl rfl

/-- A wake-up of a running loop is one iteration on the mask the wait returned. -/
theorem Endpoint.wake_running {e e' : Endpoint} (step : e.wake = some e')
    (phase : e.phase = .controlLoop) (running : e.ctx.done = false) :
    ∃ ev sock, stcpWaitForEvent anyEvent e.sock = some (ev, sock) ∧
      e' = controlLoopIteration ev { e with sock := sock } := by
  simp only [Endpoint.wake, phase, running, Bool.false_eq_true, if_false] at step
  split at step
  · cases step
  · next ev sock waited =>
      cases step
      exact ⟨ev, sock, waited, by rw [phase]⟩

/-- A wake-up of a finished loop ends the thread. -/
theorem Endpoint.wake_done {e e' : Endpoint} (step : e.wake = some e')
    (phase : e.phase = .controlLoop) (done : e.ctx.done = true) : e' = threadExit .exited e := by
  simp only [Endpoint.wake, phase, done, if_true] at step
  cases step
  rfl

/-- The active side's record when it accepts the SYN-ACK `p`. -/
def Endpoint.acceptSynAck (p : Packet) (e : Endpoint) : Endpoint :=
  { e with
    phase := .controlLoop
    ctx.ackNum := p.thSeq + 1
    ctx.peerWindowSize := p.thWin
    ctx.nextSeqExpected := p.thSeq + 1
    ctx.connectionState := .established
    hist.sent := e.hist.sent ++ [buildPacket { e.ctx with ackNum := p.thSeq + 1 } [] thAckFlag] }

/-- The passive side's record when it accepts the SYN `p`. -/
def Endpoint.acceptSyn (p : Packet) (e : Endpoint) : Endpoint :=
  { e with
    phase := .awaitAck
    ctx.ackNum := p.thSeq + 1
    ctx.connectionState := .synRcvd
    ctx.nextSeqExpected := p.thSeq + 1
    ctx.peerWindowSize := p.thWin
    ctx.sequenceNum := e.ctx.sequenceNum + 1
    hist.sent := e.hist.sent ++
      [buildPacket { e.ctx with ackNum := p.thSeq + 1 } [] (thSyn ||| thAckFlag)] }

/-- The passive side's record when it accepts the final ACK `p`. -/
def Endpoint.acceptAck (p : Packet) (e : Endpoint) : Endpoint :=
  { e with
    phase := .controlLoop
    ctx.peerWindowSize := p.thWin
    ctx.connectionState := .established }

/-- Everything a wake-up can do. -/
inductive Endpoint.Woken (e : Endpoint) : Endpoint → Prop
  | refused {e' : Endpoint} (refused : e'.phase = .refused) : Woken e e'
  | syn (phase : e.phase = .start) (active : e.isActive = true) : Woken e (sendSyn e)
  | listen (phase : e.phase = .start) (passive : e.isActive = false) :
      Woken e { e with phase := .awaitSyn }
  | synAck {p : Packet} {rest : List (Option Packet)} {closeRequested : Bool}
      (phase : e.phase = .awaitSynAck) (head : e.sock.networkRecvQueue = some p :: rest)
      (asked : closeRequested = true → e.sock.closeRequested = true)
      (flag : p.has thAckFlag = true) (acked : p.thAck = e.ctx.sequenceNum) :
      Woken e ((e.take p rest closeRequested).acceptSynAck p)
  | synRead {p : Packet} {rest : List (Option Packet)} {closeRequested : Bool}
      (phase : e.phase = .awaitSyn) (head : e.sock.networkRecvQueue = some p :: rest)
      (asked : closeRequested = true → e.sock.closeRequested = true) :
      Woken e ((e.take p rest closeRequested).acceptSyn p)
  | ackRead {p : Packet} {rest : List (Option Packet)} {closeRequested : Bool}
      (phase : e.phase = .awaitAck) (head : e.sock.networkRecvQueue = some p :: rest)
      (asked : closeRequested = true → e.sock.closeRequested = true)
      (flag : p.has thAckFlag = true) (acked : p.thAck = e.ctx.sequenceNum) :
      Woken e ((e.take p rest closeRequested).acceptAck p)
  | iteration {ev : Event} {sock : Mysock} (phase : e.phase = .controlLoop)
      (running : e.ctx.done = false) (waited : stcpWaitForEvent anyEvent e.sock = some (ev, sock)) :
      Woken e (controlLoopIteration ev { e with sock := sock })
  | exit (phase : e.phase = .controlLoop) (done : e.ctx.done = true) :
      Woken e (threadExit .exited e)

theorem Endpoint.wake_cases {e e' : Endpoint} (step : e.wake = some e') : e.Woken e' := by
  cases phase : e.phase with
  | start =>
      simp only [Endpoint.wake, phase] at step
      cases step
      split
      · next active => exact .syn phase active
      · next passive => exact .listen phase (Bool.not_eq_true _ ▸ passive)
  | awaitSynAck =>
      simp only [Endpoint.wake, phase] at step
      rcases handshakeStage_cases step with refused | ⟨p, rest, _, head, asked, rfl⟩
      · exact .refused refused
      · unfold onSynAck
        split
        · next accepted => exact .synAck phase head asked accepted.2.1 accepted.2.2
        · exact .refused rfl
  | awaitSyn =>
      simp only [Endpoint.wake, phase] at step
      rcases handshakeStage_cases step with refused | ⟨p, rest, _, head, asked, rfl⟩
      · exact .refused refused
      · unfold onSyn
        split
        · exact .synRead phase head asked
        · exact .refused rfl
  | awaitAck =>
      simp only [Endpoint.wake, phase] at step
      rcases handshakeStage_cases step with refused | ⟨p, rest, _, head, asked, rfl⟩
      · exact .refused refused
      · unfold onAck
        split
        · next accepted => exact .ackRead phase head asked accepted.1 accepted.2
        · exact .refused rfl
  | controlLoop =>
      cases running : e.ctx.done with
      | false =>
          obtain ⟨ev, sock, waited, rfl⟩ := e.wake_running step phase running
          exact .iteration phase running waited
      | true =>
          rw [e.wake_done step phase running]
          exact .exit phase running
  | refused =>
      simp only [Endpoint.wake, phase] at step
      cases step
  | exited =>
      simp only [Endpoint.wake, phase] at step
      cases step

/-! ## The application's and the network's moves

An application calls `myclose` at most once and `mywrite` only before it; the
receive thread appends packets, or one zero-length node when its read fails. -/

def Endpoint.write (buf : Bytes) (e : Endpoint) : Option Endpoint :=
  if e.hist.closed then none
  else some { e with sock := mywrite buf e.sock, hist.written := e.hist.written ++ buf }

def Endpoint.close (e : Endpoint) : Option Endpoint :=
  if e.hist.closed then none
  else some { e with sock := myclose e.sock, hist.closed := true }

def Endpoint.read (bufLen : Nat) (e : Endpoint) : Option Endpoint :=
  (myread bufLen e.sock).map fun result => { e with sock := result.2 }

def Endpoint.arrive (node : Option Packet) (e : Endpoint) : Endpoint :=
  { e with sock.networkRecvQueue := e.sock.networkRecvQueue ++ [node] }

end CompNet.Stcp
