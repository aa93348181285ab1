import CompNet.Lib.Path
import CompNet.Stcp.Close

/-!
# The byte stream of one direction

What an endpoint sends, seen as a path: every packet starts at the sequence
number where the one before it ended, the first is the SYN, the bytes of the
application follow in segments, and nothing but bare ACKs follows the FIN.
`Sender` says so of an endpoint whatever its peer does.  `Receiver` is the other
half: as long as the packets an endpoint reads form such a path, `ack_num`,
`next_seq_expected` and the nodes handed to the application stand where the path
stands.  Neither half mentions the peer's state; the channels join them.
-/

namespace CompNet.Stcp

open CompNet.Lib

/-! ## Positions in a direction -/

/-- How far a direction has come. -/
inductive Stage
  | silent
  | greeted
  | flowing
  | finished
  deriving DecidableEq, Repr

/-- The stage after a packet.  The active opener greets with two packets, the
passive one with one. -/
def Stage.next (fromActive fin : Bool) : Stage → Stage
  | .silent => if fromActive then .greeted else .flowing
  | .greeted => .flowing
  | .flowing => if fin then .finished else .flowing
  | .finished => .finished

/-- The stage of an open direction, by whether its FIN has passed. -/
def Stage.afterFin : Bool → Stage
  | true => .finished
  | false => .flowing

/-- The next sequence number of a direction, and its stage. -/
structure Cursor where
  seq : TcpSeq
  stage : Stage
  deriving DecidableEq, Repr

/-- The sequence numbers a packet takes up. -/
def Packet.span (p : Packet) : Nat :=
  (if p.has thSyn then 1 else 0) + p.data.length + (if p.has thFin then 1 else 0)

/-- `p` is what an endpoint at `c` may send next, and it leaves it at `c'`. -/
structure Advances (fromActive : Bool) (c : Cursor) (p : Packet) (c' : Cursor) : Prop where
  seq : p.thSeq = c.seq
  noOptions : p.thOff = 5
  short : p.data.length ≤ stcpMss
  syn : p.has thSyn = decide (c.stage = .silent)
  ack : fromActive = false ∨ c.stage ≠ .silent → p.has thAckFlag = true
  bare : c.stage ≠ .flowing → p.data = [] ∧ p.has thFin = false
  bareFin : p.has thFin = true → p.data = []
  next : c' = ⟨c.seq + UInt32.ofNat p.span, c.stage.next fromActive (p.has thFin)⟩

/-- The application bytes of a list of packets. -/
def payload (packets : List Packet) : Bytes := (packets.map (·.data)).flatten

@[simp] theorem payload_nil : payload [] = [] := rfl

@[simp] theorem payload_append (first second : List Packet) :
    payload (first ++ second) = payload first ++ payload second := by
  simp [payload]

@[simp] theorem payload_singleton (p : Packet) : payload [p] = p.data := by
  simp [payload]

theorem Stage.next_ne_silent (fromActive fin : Bool) (stage : Stage) :
    stage.next fromActive fin ≠ .silent := by
  cases stage <;> cases fromActive <;> cases fin <;> decide

/-- Where a direction has come to the FIN, only bare ACKs follow. -/
theorem payload_of_finished {fromActive : Bool} {packets : List Packet} {c c' : Cursor}
    (path : Path (Advances fromActive) c packets c') (finished : c.stage = .finished) :
    payload packets = [] := by
  induction path with
  | nil _ => rfl
  | cons edge _ ih =>
      have bare := edge.bare (by rw [finished]; decide)
      have stays := ih (by rw [edge.next, finished]; rfl)
      simpa [payload, bare.1] using stays

/-- No packet of a direction has options. -/
theorem noOptions_of_path {fromActive : Bool} {packets : List Packet} {c c' : Cursor}
    (path : Path (Advances fromActive) c packets c') : ∀ p ∈ packets, p.thOff = 5 := by
  induction path with
  | nil _ => exact fun p member => nomatch member
  | cons edge _ ih =>
      intro p member
      rcases List.mem_cons.mp member with rfl | later
      · exact edge.noOptions
      · exact ih p later

/-! ## The sending half -/

/-- The stage of what an endpoint has sent, from where its thread is. -/
def Endpoint.said (e : Endpoint) : Stage :=
  match e.phase with
  | .start | .awaitSyn | .refused => .silent
  | .awaitSynAck => .greeted
  | .awaitAck => .flowing
  | .controlLoop | .exited => .afterFin e.ctx.finSent

/-- The role of an endpoint that waits in the handshake. -/
def Endpoint.RoleFits (e : Endpoint) : Prop :=
  match e.phase with
  | .awaitSynAck => e.isActive = true
  | .awaitSyn | .awaitAck => e.isActive = false
  | _ => True

/-- The handshake is over and the connection was not refused. -/
def Endpoint.opened (e : Endpoint) : Prop := e.phase = .controlLoop ∨ e.phase = .exited

structure Sender (e : Endpoint) : Prop where
  role : e.RoleFits
  early : ¬ e.opened → e.ctx.finSent = false
  path : Path (Advances e.isActive) ⟨e.ctx.initialSequenceNum, .silent⟩ e.hist.sent
    ⟨e.ctx.sequenceNum, e.said⟩
  books : payload e.hist.sent ++ e.sock.appRecvQueue.flatten = e.hist.written
  drained : e.ctx.finSent = true → e.sock.appRecvQueue = [] ∧ e.hist.closed = true
  asked : e.sock.closeRequested = true → e.hist.closed = true

/-- Which of the three bits the four flag bytes in use have. -/
@[simp] theorem flag_bits :
    (thSyn ≠ 0 ∧ (thSyn &&& thFin != 0) = false) ∧
    ((thAckFlag &&& thSyn != 0) = false ∧ (thAckFlag &&& thFin != 0) = false ∧ thAckFlag ≠ 0) ∧
    (((thSyn ||| thAckFlag) &&& thSyn != 0) = true ∧
      ((thSyn ||| thAckFlag) &&& thFin != 0) = false ∧
      ((thSyn ||| thAckFlag) &&& thAckFlag != 0) = true) ∧
    (((thFin ||| thAckFlag) &&& thSyn != 0) = false ∧
      ((thFin ||| thAckFlag) &&& thFin != 0) = true ∧
      ((thFin ||| thAckFlag) &&& thAckFlag != 0) = true) := by
  decide

@[simp] theorem buildPacket_has (ctx : Ctx) (data : Bytes) (flags flag : UInt8) :
    (buildPacket ctx data flags).has flag = (flags &&& flag != 0) := rfl

@[simp] theorem buildPacket_data (ctx : Ctx) (data : Bytes) (flags : UInt8) :
    (buildPacket ctx data flags).data = data := rfl

/-- A bare ACK moves no direction. -/
theorem advances_ack {fromActive : Bool} {ctx : Ctx} {stage : Stage}
    (greeted : stage = .flowing ∨ stage = .finished) :
    Advances fromActive ⟨ctx.sequenceNum, stage⟩ (buildPacket ctx [] thAckFlag)
      ⟨ctx.sequenceNum, stage⟩ where
  seq := rfl
  noOptions := rfl
  short := by simp
  syn := by rcases greeted with rfl | rfl <;> simp
  ack _ := by simp
  bare _ := by simp
  bareFin _ := rfl
  next := by rcases greeted with rfl | rfl <;> simp [Packet.span, Stage.next]

/-- A segment moves a flowing direction by its length. -/
theorem advances_data {fromActive : Bool} {ctx : Ctx} {chunk : Bytes}
    (short : chunk.length ≤ stcpMss) :
    Advances fromActive ⟨ctx.sequenceNum, .flowing⟩ (buildPacket ctx chunk thAckFlag)
      ⟨ctx.sequenceNum + UInt32.ofNat chunk.length, .flowing⟩ where
  seq := rfl
  noOptions := rfl
  short := short
  syn := by simp
  ack _ := by simp
  bare notFlowing := absurd rfl notFlowing
  bareFin fin := by simp at fin
  next := by simp [Packet.span, Stage.next]

/-- The FIN finishes a flowing direction and takes one sequence number. -/
theorem advances_fin {fromActive : Bool} {ctx : Ctx} :
    Advances fromActive ⟨ctx.sequenceNum, .flowing⟩ (buildPacket ctx [] (thFin ||| thAckFlag))
      ⟨ctx.sequenceNum + 1, .finished⟩ where
  seq := rfl
  noOptions := rfl
  short := by simp
  syn := by simp
  ack _ := by simp
  bare notFlowing := absurd rfl notFlowing
  bareFin _ := rfl
  next := by simp [Packet.span, Stage.next]

/-- The three greetings: SYN, SYN-ACK, and the active side's first ACK. -/
theorem advances_syn {ctx : Ctx} :
    Advances true ⟨ctx.sequenceNum, .silent⟩ (buildPacket ctx [] thSyn)
      ⟨ctx.sequenceNum + 1, .greeted⟩ where
  seq := rfl
  noOptions := rfl
  short := by simp
  syn := by simp
  ack first := by simp at first
  bare _ := by simp
  bareFin _ := rfl
  next := by simp [Packet.span, Stage.next]

theorem advances_synAck (ctx : Ctx) :
    Advances false ⟨ctx.sequenceNum, .silent⟩ (buildPacket ctx [] (thSyn ||| thAckFlag))
      ⟨ctx.sequenceNum + 1, .flowing⟩ where
  seq := rfl
  noOptions := rfl
  short := by simp
  syn := by simp
  ack _ := by simp
  bare _ := by simp
  bareFin _ := rfl
  next := by simp [Packet.span, Stage.next]

theorem advances_firstAck {fromActive : Bool} (ctx : Ctx) :
    Advances fromActive ⟨ctx.sequenceNum, .greeted⟩ (buildPacket ctx [] thAckFlag)
      ⟨ctx.sequenceNum, .flowing⟩ where
  seq := rfl
  noOptions := rfl
  short := by simp
  syn := by simp
  ack _ := by simp
  bare _ := by simp
  bareFin _ := rfl
  next := by simp [Packet.span, Stage.next]

/-! ### The branches of an iteration -/

/-- All that handling a packet sends is bare ACKs, and each says what the
context says when the packet is done with. -/
structure OnlyAcks (e e' : Endpoint) : Prop where
  sent : ∃ n, e'.hist.sent =
    e.hist.sent ++ List.replicate n (buildPacket e'.ctx [] thAckFlag)
  sequenceNum : e'.ctx.sequenceNum = e.ctx.sequenceNum
  finSent : e'.ctx.finSent = e.ctx.finSent
  appRecvQueue : e'.sock.appRecvQueue = e.sock.appRecvQueue

theorem stcpAppSend_eq (src : Bytes) (e : Endpoint) :
    ∃ queue delivered, stcpAppSend src e =
      { e with sock.appSendQueue := queue, hist.delivered := delivered } := by
  unfold stcpAppSend
  split
  · exact ⟨_, _, rfl⟩
  · exact ⟨e.sock.appSendQueue, e.hist.delivered, rfl⟩

/-- The data branch sends at most one ACK, with the counters it leaves behind. -/
theorem handleData_onlyAcks (p : Packet) (e : Endpoint) : OnlyAcks e (handleData p e) := by
  have accept : ∀ e₁ : Endpoint, e₁.hist.sent = e.hist.sent →
      e₁.sock.appRecvQueue = e.sock.appRecvQueue →
      OnlyAcks e (sendPacket [] thAckFlag { e₁ with ctx := e.ctx.onData p }) := by
    intro e₁ sent queue
    obtain ⟨used, expected, acked, counters⟩ := e.ctx.onData_eq p
    rw [counters]
    exact ⟨⟨1, by simp [sendPacket, sent]⟩, rfl, rfl, queue⟩
  rcases handleData_cases p e with
    ⟨-, same⟩ | ⟨-, -, same⟩ | ⟨-, -, -, same⟩ | ⟨-, -, -, same⟩
  · rw [same]
    exact ⟨⟨0, by simp⟩, rfl, rfl, rfl⟩
  · rw [same]
    exact ⟨⟨1, by simp [sendPacket]⟩, rfl, rfl, rfl⟩
  · rw [same]
    exact accept e rfl rfl
  · rw [same]
    obtain ⟨queue, delivered, passed⟩ := stcpAppSend_eq (dataChunk p e.buf) e
    rw [passed]
    exact accept _ rfl rfl

/-- Handling a packet takes it from the network queue and nothing more. -/
theorem handlePacket_received (p : Packet) (rest : List (Option Packet)) (e : Endpoint) :
    (handlePacket p rest e).hist.received = e.hist.received ++ [p] ∧
      (handlePacket p rest e).sock.networkRecvQueue = rest := by
  have data : ∀ e, (handleData p e).hist.received = e.hist.received ∧
      (handleData p e).sock.networkRecvQueue = e.sock.networkRecvQueue := by
    intro e
    rcases handleData_cases p e with
      ⟨-, same⟩ | ⟨-, -, same⟩ | ⟨-, -, -, same⟩ | ⟨-, -, -, same⟩
    · rw [same]
      exact ⟨rfl, rfl⟩
    · rw [same]
      exact ⟨rfl, rfl⟩
    · rw [same]
      exact ⟨rfl, rfl⟩
    · obtain ⟨queue, delivered, passed⟩ := stcpAppSend_eq (dataChunk p e.buf) e
      rw [same, passed]
      exact ⟨rfl, rfl⟩
  obtain ⟨state, done, acked, ack⟩ := handleAck_eq p (handleFin p (receivePacket p rest e))
  obtain ⟨received, queue⟩ := data (handleAck p (handleFin p (receivePacket p rest e)))
  rw [handlePacket, received, queue, ack]
  rcases handleFin_cases p (receivePacket p rest e) with ⟨-, same⟩ | ⟨-, _, _, same⟩
  · rw [same]
    exact ⟨rfl, rfl⟩
  · rw [same]
    exact ⟨rfl, rfl⟩

theorem handlePacket_onlyAcks (p : Packet) (rest : List (Option Packet)) (e : Endpoint) :
    OnlyAcks e (handlePacket p rest e) := by
  unfold handlePacket
  rcases handleFin_cases p (receivePacket p rest e) with ⟨-, fin⟩ | ⟨-, state, done, fin⟩
  · rw [fin]
    obtain ⟨state, done, acked, ack⟩ := handleAck_eq p (receivePacket p rest e)
    obtain ⟨sent, seq, finSent, queue⟩ :=
      handleData_onlyAcks p (handleAck p (receivePacket p rest e))
    rw [ack] at sent seq finSent queue ⊢
    exact ⟨sent, seq, finSent, queue⟩
  · -- data behind a FIN is never in order: ack_num already stands past it
    obtain ⟨state', done', acked, ack⟩ := handleAck_eq p (handleFin p (receivePacket p rest e))
    rw [ack, fin]
    have past : p.thSeq ≠ p.thSeq + 1 := by simp
    rcases handleData_cases p _ with
      ⟨-, same⟩ | ⟨-, -, same⟩ | ⟨-, inOrder, -, -⟩ | ⟨-, inOrder, -, -⟩
    · rw [same]
      exact ⟨⟨1, rfl⟩, rfl, rfl, rfl⟩
    · rw [same]
      exact ⟨⟨2, by simp [sendPacket, receivePacket, buildPacket]⟩, rfl, rfl, rfl⟩
    · exact absurd inOrder past
    · exact absurd inOrder past

/-- The sending half of an endpoint in `control_loop`. -/
def LoopSender (e : Endpoint) : Prop := e.phase = .controlLoop ∧ Sender e

theorem Endpoint.said_loop {e : Endpoint} (looping : e.phase = .controlLoop) :
    e.said = .afterFin e.ctx.finSent := by
  simp only [Endpoint.said, looping]

theorem Endpoint.opened_loop {e : Endpoint} (looping : e.phase = .controlLoop) : e.opened :=
  .inl looping

theorem Endpoint.roleFits_loop {e : Endpoint} (looping : e.phase = .controlLoop) :
    e.RoleFits := by
  simp only [Endpoint.RoleFits, looping]

/-- The part of `Sender` that changes inside the loop. -/
theorem Sender.of_loop {e : Endpoint} (looping : e.phase = .controlLoop)
    (path : Path (Advances e.isActive) ⟨e.ctx.initialSequenceNum, .silent⟩ e.hist.sent
      ⟨e.ctx.sequenceNum, .afterFin e.ctx.finSent⟩)
    (books : payload e.hist.sent ++ e.sock.appRecvQueue.flatten = e.hist.written)
    (drained : e.ctx.finSent = true → e.sock.appRecvQueue = [] ∧ e.hist.closed = true)
    (asked : e.sock.closeRequested = true → e.hist.closed = true) : Sender e where
  role := e.roleFits_loop looping
  early notOpened := absurd (e.opened_loop looping) notOpened
  path := by
    rw [e.said_loop looping]
    exact path
  books := books
  drained := drained
  asked := asked

theorem payload_replicate_ack (n : Nat) (ctx : Ctx) :
    payload (List.replicate n (buildPacket ctx [] thAckFlag)) = [] := by
  simp [payload]

/-- Sending bare ACKs leaves the sending half where it was. -/
theorem LoopSender.onlyAcks {e e' : Endpoint} (sender : LoopSender e) (frame : Frame e e')
    (acks : OnlyAcks e e') : LoopSender e' := by
  obtain ⟨looping, sender⟩ := sender
  have looping' : e'.phase = .controlLoop := frame.phase.trans looping
  obtain ⟨n, sent⟩ := acks.sent
  refine ⟨looping', .of_loop looping' ?_ ?_ ?_ ?_⟩
  · have path := sender.path
    rw [e.said_loop looping, ← acks.finSent, ← acks.sequenceNum, ← frame.isActive,
      ← frame.initialSequenceNum] at path
    have still : Path (Advances e'.isActive)
        ⟨e'.ctx.sequenceNum, .afterFin e'.ctx.finSent⟩
        (List.replicate n (buildPacket e'.ctx [] thAckFlag))
        ⟨e'.ctx.sequenceNum, .afterFin e'.ctx.finSent⟩ := by
      apply Path.replicate
      apply advances_ack
      cases e'.ctx.finSent
      · exact .inl rfl
      · exact .inr rfl
    rw [sent]
    exact Path.append_iff.mpr ⟨_, path, still⟩
  · rw [sent, payload_append, payload_replicate_ack, List.append_nil, acks.appRecvQueue,
      frame.written]
    exact sender.books
  · rw [acks.finSent, acks.appRecvQueue, frame.closed]
    exact sender.drained
  · rw [frame.closeRequested, frame.closed]
    exact sender.asked

/-- Sending application data moves bytes from the queue to the stream. -/
theorem LoopSender.handleAppData {e : Endpoint} (sender : LoopSender e) :
    LoopSender (handleAppData e) := by
  obtain ⟨looping, sender⟩ := sender
  rcases handleAppData_cases e with same | ⟨chunk, rest, dequeued, split⟩
  · rw [same]
    exact ⟨looping, sender⟩
  · have moved := dequeuePartial_flatten dequeued
    have short : chunk.length ≤ stcpMss :=
      Nat.le_trans (dequeuePartial_length_le dequeued) (Nat.min_le_right _ _)
    have notSent : e.ctx.finSent = false := by
      by_contra sent
      rw [Bool.not_eq_false] at sent
      rw [(sender.drained sent).1] at dequeued
      cases dequeued
    have path := sender.path
    rw [e.said_loop looping, notSent] at path
    rcases split with ⟨rfl, same⟩ | ⟨-, same⟩
    · rw [same]
      refine ⟨looping, .of_loop looping ?_ ?_ ?_ sender.asked⟩
      · simp only [notSent]
        exact path
      · rw [List.nil_append] at moved
        simp only [moved]
        exact sender.books
      · intro sent
        exact absurd (sent.symm.trans notSent) (by decide)
    · rw [same]
      refine ⟨looping, .of_loop looping ?_ ?_ ?_ sender.asked⟩
      · simp only [notSent]
        exact path.snoc (advances_data short)
      · have books := sender.books
        rw [← moved] at books
        simpa using books
      · intro sent
        exact absurd (sent.symm.trans notSent) (by decide)

/-- The FIN is sent when the application has closed and its queue is empty. -/
theorem LoopSender.handleClose {e : Endpoint} (sender : LoopSender e)
    (empty : e.sock.appRecvQueue = []) (closed : e.hist.closed = true) :
    LoopSender (handleClose e) := by
  obtain ⟨looping, sender⟩ := sender
  rcases handleClose_cases e with ⟨-, same⟩ | ⟨notSent, state, same⟩
  · rw [same]
    exact ⟨looping, sender⟩
  · have path := sender.path
    rw [e.said_loop looping, notSent] at path
    rw [same]
    refine ⟨looping, .of_loop looping (path.snoc advances_fin) ?_ ?_ sender.asked⟩
    · simpa using sender.books
    · exact fun _ => ⟨empty, closed⟩

theorem handleReadError_onlyAcks (rest : List (Option Packet)) (e : Endpoint) :
    OnlyAcks e (handleReadError rest e) := by
  unfold handleReadError
  dsimp only
  split <;> exact ⟨⟨0, by simp⟩, rfl, rfl, rfl⟩

/-- One iteration keeps the sending half. -/
theorem LoopSender.iteration {ev : Event} {e : Endpoint} (sender : LoopSender e)
    (ready : ev.appCloseRequested = true → e.sock.appRecvQueue = [] ∧ e.hist.closed = true) :
    LoopSender (controlLoopIteration ev e) := by
  have keeps : LoopSender (controlLoopIteration ev e) ∧ (ev.appCloseRequested = true →
      (controlLoopIteration ev e).sock.appRecvQueue = [] ∧
        (controlLoopIteration ev e).hist.closed = true) := by
    apply controlLoopIteration_keeps (motive := fun e => LoopSender e ∧
      (ev.appCloseRequested = true → e.sock.appRecvQueue = [] ∧ e.hist.closed = true))
    · exact ⟨sender, ready⟩
    · refine ⟨sender.handleAppData, fun asked => ?_⟩
      obtain ⟨empty, closed⟩ := ready asked
      refine ⟨?_, (handleAppData_frame e).closed.trans closed⟩
      rcases handleAppData_cases e with same | ⟨chunk, rest, dequeued, -⟩
      · rw [same, empty]
      · rw [empty] at dequeued
        cases dequeued
    · rintro e₁ rest ⟨sender, ready⟩ -
      have frame := handleReadError_frame rest e₁
      have acks := handleReadError_onlyAcks rest e₁
      refine ⟨sender.onlyAcks frame acks, fun asked => ?_⟩
      rw [acks.appRecvQueue, frame.closed]
      exact ready asked
    · rintro e₁ p rest ⟨sender, ready⟩ -
      have frame := handlePacket_frame p rest e₁
      have acks := handlePacket_onlyAcks p rest e₁
      refine ⟨sender.onlyAcks frame acks, fun asked => ?_⟩
      rw [acks.appRecvQueue, frame.closed]
      exact ready asked
    · rintro asked e₁ ⟨sender, ready⟩
      obtain ⟨empty, closed⟩ := ready asked
      refine ⟨sender.handleClose empty closed, fun _ => ?_⟩
      rw [(handleClose_frame e₁).closed]
      refine ⟨?_, closed⟩
      rcases handleClose_cases e₁ with ⟨-, same⟩ | ⟨-, state, same⟩ <;> rw [same] <;> exact empty
  exact keeps.1

/-! ### Every step -/

/-- A wake-up keeps the sending half, unless it refuses the connection. -/
theorem Sender.wake {e e' : Endpoint} (sender : Sender e) (step : e.wake = some e') :
    e'.phase = .refused ∨ Sender e' := by
  have early (notOpened : ¬ e.opened) : e.ctx.finSent = false := sender.early notOpened
  have path := sender.path
  cases e.wake_cases step with
  | refused refused => exact .inl refused
  | syn phase active =>
      right
      rw [show e.said = .silent by simp only [Endpoint.said, phase], active] at path
      refine ⟨active, fun _ => early (by simp [Endpoint.opened, phase]), ?_, ?_, sender.drained,
        sender.asked⟩
      · simp only [sendSyn, sendPacket, active]
        exact path.snoc advances_syn
      · simpa [sendSyn, sendPacket] using sender.books
  | listen phase passive =>
      right
      rw [show e.said = .silent by simp only [Endpoint.said, phase]] at path
      exact ⟨passive, fun _ => early (by simp [Endpoint.opened, phase]), path, sender.books,
        sender.drained, sender.asked⟩
  | @synAck p rest closeRequested phase head asked flag acked =>
      right
      have notSent := early (by simp [Endpoint.opened, phase])
      rw [show e.said = .greeted by simp only [Endpoint.said, phase]] at path
      refine .of_loop rfl ?_ ?_ sender.drained (fun requested => sender.asked (asked requested))
      · have edge : Advances e.isActive _ _ _ :=
          advances_firstAck { e.ctx with ackNum := p.thSeq + 1 }
        simp only [Endpoint.acceptSynAck, Endpoint.take]
        rw [notSent]
        exact path.snoc edge
      · simpa [Endpoint.acceptSynAck, Endpoint.take] using sender.books
  | @synRead p rest closeRequested phase head asked =>
      right
      have passive : e.isActive = false := by
        have role := sender.role
        simpa only [Endpoint.RoleFits, phase] using role
      rw [show e.said = .silent by simp only [Endpoint.said, phase], passive] at path
      refine ⟨passive, fun _ => early (by simp [Endpoint.opened, phase]), ?_, ?_, sender.drained,
        fun requested => sender.asked (asked requested)⟩
      · simp only [Endpoint.acceptSyn, Endpoint.take, passive]
        exact path.snoc (advances_synAck { e.ctx with ackNum := p.thSeq + 1 })
      · simpa [Endpoint.acceptSyn, Endpoint.take] using sender.books
  | ackRead phase head asked flag acked =>
      right
      have notSent := early (by simp [Endpoint.opened, phase])
      rw [show e.said = .flowing by simp only [Endpoint.said, phase]] at path
      refine .of_loop rfl ?_ sender.books sender.drained
        (fun requested => sender.asked (asked requested))
      simp only [Endpoint.acceptAck, Endpoint.take, notSent]
      exact path
  | @iteration ev sock phase running waited =>
      right
      obtain ⟨-, -, closing, rfl⟩ := stcpWaitForEvent_spec waited
      have waiting : LoopSender { e with
          sock.closeRequested := e.sock.closeRequested && !ev.appCloseRequested } := by
        refine ⟨phase, sender.role, sender.early, path, sender.books, sender.drained, ?_⟩
        intro requested
        exact sender.asked (Bool.and_eq_true_iff.mp requested).1
      refine (waiting.iteration fun asked => ?_).2
      exact ⟨(closing asked).2, sender.asked (closing asked).1⟩
  | exit phase done =>
      right
      rw [e.said_loop phase] at path
      exact ⟨trivial, fun notOpened => absurd (.inr rfl) notOpened, path, sender.books,
        sender.drained, sender.asked⟩

/-- Every input keeps the sending half, unless it refuses the connection. -/
theorem Sender.input {e e' : Endpoint} {i : Input} (sender : Sender e)
    (step : e.input i = some e') : e'.phase = .refused ∨ Sender e' := by
  cases i with
  | write buf =>
      right
      simp only [Endpoint.input, Endpoint.write] at step
      split at step
      · cases step
      · next isOpen =>
          cases step
          refine ⟨sender.role, sender.early, sender.path, ?_, ?_, sender.asked⟩
          · simp only [mywrite, List.flatten_append, List.flatten_singleton, ← List.append_assoc,
              sender.books]
          · intro sent
            exact absurd (sender.drained sent).2 isOpen
  | close =>
      right
      simp only [Endpoint.input, Endpoint.close] at step
      split at step
      · cases step
      · cases step
        exact ⟨sender.role, sender.early, sender.path, sender.books,
          fun sent => ⟨(sender.drained sent).1, rfl⟩, fun _ => rfl⟩
  | read bufLen =>
      right
      simp only [Endpoint.input, Endpoint.read, Option.map_eq_some_iff] at step
      obtain ⟨⟨chunk, sock⟩, read, rfl⟩ := step
      obtain ⟨appRecvQueue, closeRequested, -⟩ := myread_frame read
      refine ⟨sender.role, sender.early, sender.path, ?_, ?_, ?_⟩
      · simp only [appRecvQueue]
        exact sender.books
      · simp only [appRecvQueue]
        exact sender.drained
      · simp only [closeRequested]
        exact sender.asked
  | arrive p =>
      cases step
      exact .inr ⟨sender.role, sender.early, sender.path, sender.books, sender.drained,
        sender.asked⟩
  | readError =>
      cases step
      exact .inr ⟨sender.role, sender.early, sender.path, sender.books, sender.drained,
        sender.asked⟩
  | wake => exact sender.wake step

theorem Sender.init (isActive : Bool) (initialSequenceNum : TcpSeq) :
    Sender (Endpoint.init isActive initialSequenceNum) where
  role := trivial
  early _ := rfl
  path := .nil _
  books := rfl
  drained sent := nomatch sent
  asked requested := nomatch requested

/-! ## The receiving half -/

/-- The stage of what an endpoint has read, from where its thread is. -/
def Endpoint.heard (e : Endpoint) : Stage :=
  match e.phase with
  | .start | .awaitSyn | .awaitSynAck | .refused => .silent
  | .awaitAck => .greeted
  | .controlLoop | .exited => .afterFin e.ctx.finReceived

/-- The nodes handed to the application: data nodes that spell the payload read,
and behind them end-of-file markers, once the peer's FIN has been read. -/
structure Delivered (e : Endpoint) (chunks markers : List Bytes) : Prop where
  nodes : e.hist.delivered = chunks ++ markers
  data : ∀ chunk ∈ chunks, chunk ≠ []
  spell : chunks.flatten = payload e.hist.received
  endOfFile : ∀ marker ∈ markers, marker = []
  marked : markers ≠ [] ↔ e.ctx.finReceived = true

/-- The receiving side of `e` stands at `c`. -/
structure InOrder (e : Endpoint) (c : Cursor) : Prop where
  stage : c.stage = e.heard
  ackNum : c.stage ≠ .silent → e.ctx.ackNum = c.seq
  expected : c.stage = .greeted ∨ c.stage = .flowing → e.ctx.nextSeqExpected = c.seq
  bufferEmpty : e.ctx.recvBufferUsed = 0
  delivered : ∃ chunks markers, Delivered e chunks markers

/-- Whatever position the packets read so far lead to, the endpoint stands there. -/
structure Receiver (e : Endpoint) : Prop where
  early : ¬ e.opened → e.ctx.finReceived = false
  inOrder : ∀ base c,
    Path (Advances (!e.isActive)) ⟨base, .silent⟩ e.hist.received c → InOrder e c

/-- A packet without options has its payload behind the header. -/
theorem dataLen_of_noOptions {p : Packet} (noOptions : p.thOff = 5)
    (short : p.data.length ≤ stcpMss) : dataLen p = p.data.length := by
  have start : p.dataStart = headerLen := by
    rw [Packet.dataStart, noOptions]
    rfl
  have bound : stcpMss = 536 := rfl
  rw [dataLen, start, p.length_wire]
  omega

/-- The payload of a short packet survives the copy through `buf`. -/
theorem dataChunk_of_noOptions {p : Packet} {rest : List (Option Packet)} {e : Endpoint}
    (noOptions : p.thOff = 5) (short : p.data.length ≤ stcpMss) :
    dataChunk p (receivePacket p rest e).buf = p.data := by
  have start : p.dataStart = headerLen := by
    rw [Packet.dataStart, noOptions]
    rfl
  have fits : p.wire.length ≤ stcpMss + headerLen := by
    rw [p.length_wire]
    omega
  have copied : (receivePacket p rest e).buf = p.wire ++ e.buf.drop p.wire.length := by
    simp only [receivePacket, List.take_of_length_le fits]
  have inside : headerLen ≤ p.wire.length := by
    rw [p.length_wire]
    omega
  rw [dataChunk, dataLen_of_noOptions noOptions short, start, copied,
    List.drop_append_of_le_length inside, p.drop_wire, List.take_left]

/-- In-order data moves the two sequence counters together and leaves the
buffer count where it was. -/
theorem Ctx.onData_expected {c : Ctx} {p : Packet} (expected : p.thSeq = c.nextSeqExpected) :
    c.onData p =
      { c with
        nextSeqExpected := p.thSeq + UInt32.ofNat (dataLen p)
        ackNum := c.ackNum + UInt32.ofNat (dataLen p) } := by
  unfold Ctx.onData
  simp only [expected, if_true, UInt16.add_sub_cancel]

/-! ### The three kinds of packets -/

/-- A bare packet moves only the close state. -/
theorem handlePacket_bare {p : Packet} (rest : List (Option Packet)) (e : Endpoint)
    (noOptions : p.thOff = 5) (noFin : p.has thFin = false) (empty : p.data = []) :
    ∃ state done acked, handlePacket p rest e =
      { receivePacket p rest e with
        ctx.connectionState := state, ctx.done := done, ctx.finAcked := acked } := by
  have noData : dataLen p = 0 := by
    rw [dataLen_of_noOptions noOptions (by simp [empty]), empty, List.length_nil]
  obtain ⟨state, done, acked, ack⟩ := handleAck_eq p (receivePacket p rest e)
  refine ⟨state, done, acked, ?_⟩
  rcases handleFin_cases p (receivePacket p rest e) with ⟨-, fin⟩ | ⟨fin, -⟩
  · rw [handlePacket, fin, ack]
    rcases handleData_cases p _ with ⟨-, same⟩ | ⟨some, -⟩ | ⟨some, -⟩ | ⟨some, -⟩
    · exact same
    all_goals exact absurd noData (Nat.ne_of_gt some)
  · exact absurd fin (by rw [noFin]; decide)

/-- A bare FIN is acknowledged and leaves one marker. -/
theorem handlePacket_fin {p : Packet} (rest : List (Option Packet)) (e : Endpoint)
    (noOptions : p.thOff = 5) (fin : p.has thFin = true) (empty : p.data = []) :
    ∃ state done acked, handlePacket p rest e =
      { receivePacket p rest e with
        ctx.finReceived := true
        ctx.ackNum := p.thSeq + 1
        ctx.connectionState := state
        ctx.done := done
        ctx.finAcked := acked
        sock.appSendQueue := e.sock.appSendQueue ++ [[]]
        hist.delivered := e.hist.delivered ++ [[]]
        hist.sent := e.hist.sent ++
          [buildPacket { e.ctx with ackNum := p.thSeq + 1 } [] thAckFlag] } := by
  have noData : dataLen p = 0 := by
    rw [dataLen_of_noOptions noOptions (by simp [empty]), empty, List.length_nil]
  rcases handleFin_cases p (receivePacket p rest e) with ⟨noFin, -⟩ | ⟨-, state, done, finished⟩
  · exact absurd fin (by rw [noFin]; decide)
  · obtain ⟨state', done', acked, ack⟩ := handleAck_eq p (handleFin p (receivePacket p rest e))
    refine ⟨state', done', acked, ?_⟩
    rw [handlePacket, ack, finished]
    rcases handleData_cases p _ with ⟨-, same⟩ | ⟨some, -⟩ | ⟨some, -⟩ | ⟨some, -⟩
    · exact same
    all_goals exact absurd noData (Nat.ne_of_gt some)

/-- A segment that both counters expect is passed up and acknowledged. -/
theorem handlePacket_data {p : Packet} (rest : List (Option Packet)) (e : Endpoint)
    (noOptions : p.thOff = 5) (short : p.data.length ≤ stcpMss) (noFin : p.has thFin = false)
    (some : p.data ≠ []) (inOrder : p.thSeq = e.ctx.ackNum)
    (expected : p.thSeq = e.ctx.nextSeqExpected) :
    ∃ state done acked sent, handlePacket p rest e =
      { receivePacket p rest e with
        ctx.nextSeqExpected := p.thSeq + UInt32.ofNat p.data.length
        ctx.ackNum := e.ctx.ackNum + UInt32.ofNat p.data.length
        ctx.connectionState := state
        ctx.done := done
        ctx.finAcked := acked
        sock.appSendQueue := e.sock.appSendQueue ++ [p.data]
        hist.delivered := e.hist.delivered ++ [p.data]
        hist.sent := sent } := by
  have length : dataLen p = p.data.length := dataLen_of_noOptions noOptions short
  have nonempty : p.data.length > 0 := List.length_pos_iff.mpr some
  obtain ⟨state, done, acked, ack⟩ := handleAck_eq p (receivePacket p rest e)
  have chunk : dataChunk p (receivePacket p rest e).buf = p.data :=
    dataChunk_of_noOptions noOptions short
  rcases handleFin_cases p (receivePacket p rest e) with ⟨-, fin⟩ | ⟨fin, -⟩
  · have data := handleData_cases p (handleAck p (receivePacket p rest e))
    rw [handlePacket, fin]
    rw [ack] at data ⊢
    rcases data with
      ⟨none, -⟩ | ⟨-, late, -⟩ | ⟨-, -, late, -⟩ | ⟨-, -, -, same⟩
    · exact absurd (length ▸ none) (Nat.ne_of_gt nonempty)
    · exact absurd inOrder late
    · exact absurd expected late
    · rw [same, Ctx.onData_expected (by exact expected), length]
      dsimp only
      rw [chunk]
      simp only [stcpAppSend, nonempty, if_true, enqueueForApp]
      exact ⟨state, done, acked, _, rfl⟩
  · exact absurd fin (by rw [noFin]; decide)

/-! ### Reading in order -/

theorem Endpoint.heard_loop {e : Endpoint} (looping : e.phase = .controlLoop) :
    e.heard = .afterFin e.ctx.finReceived := by
  simp only [Endpoint.heard, looping]

theorem Stage.afterFin_eq_flowing {fin : Bool} (flowing : Stage.afterFin fin = .flowing) :
    fin = false := by
  cases fin
  · rfl
  · cases flowing

theorem InOrder.loop_stage {e : Endpoint} {c : Cursor} (inOrder : InOrder e c)
    (looping : e.phase = .controlLoop) : c.stage = .afterFin e.ctx.finReceived := by
  rw [inOrder.stage, e.heard_loop looping]

theorem InOrder.loop_greeted {e : Endpoint} {c : Cursor} (inOrder : InOrder e c)
    (looping : e.phase = .controlLoop) : c.stage ≠ .silent := by
  rw [inOrder.loop_stage looping]
  cases e.ctx.finReceived <;> decide

section

variable {fromActive : Bool} {p : Packet} {rest : List (Option Packet)} {e : Endpoint}
  {c c' : Cursor}

theorem Advances.noSyn (edge : Advances fromActive c p c') (greeted : c.stage ≠ .silent) :
    p.has thSyn = false := by
  rw [edge.syn]
  exact decide_eq_false greeted

/-- A bare packet leaves the position where it was. -/
theorem InOrder.bare (looping : e.phase = .controlLoop) (inOrder : InOrder e c)
    (edge : Advances fromActive c p c') (empty : p.data = []) (noFin : p.has thFin = false) :
    InOrder (handlePacket p rest e) c' := by
  have stage := inOrder.loop_stage looping
  have greeted := inOrder.loop_greeted looping
  have same : c' = c := by
    rw [edge.next]
    have span : p.span = 0 := by simp [Packet.span, edge.noSyn greeted, noFin, empty]
    rw [span, noFin, stage]
    cases c
    subst stage
    cases e.ctx.finReceived <;> simp [Stage.next, Stage.afterFin]
  obtain ⟨chunks, markers, nodes, data, spell, endOfFile, marked⟩ := inOrder.delivered
  obtain ⟨state, done, acked, bare⟩ := handlePacket_bare rest e edge.noOptions noFin empty
  rw [same, bare]
  refine ⟨?_, fun _ => inOrder.ackNum greeted, inOrder.expected, inOrder.bufferEmpty, chunks,
    markers, nodes, data, ?_, endOfFile, marked⟩
  · rw [stage]
    simp only [Endpoint.heard, receivePacket, looping]
  · simp [receivePacket, spell, empty]

/-- A FIN takes one number and puts a marker behind the data. -/
theorem InOrder.fin (looping : e.phase = .controlLoop) (inOrder : InOrder e c)
    (edge : Advances fromActive c p c') (empty : p.data = []) (fin : p.has thFin = true) :
    InOrder (handlePacket p rest e) c' := by
  have noSyn := edge.noSyn (inOrder.loop_greeted looping)
  have flowing : c.stage = .flowing := by
    by_contra notFlowing
    exact absurd (fin.symm.trans (edge.bare notFlowing).2) (by decide)
  have next : c' = ⟨c.seq + 1, .finished⟩ := by
    rw [edge.next]
    simp [Packet.span, noSyn, fin, empty, flowing, Stage.next]
  obtain ⟨chunks, markers, nodes, data, spell, endOfFile, marked⟩ := inOrder.delivered
  obtain ⟨state, done, acked, finished⟩ := handlePacket_fin rest e edge.noOptions fin empty
  rw [next, finished]
  refine ⟨?_, ?_, ?_, inOrder.bufferEmpty, chunks, markers ++ [[]], ?_, data, ?_, ?_, ?_⟩
  · simp only [Endpoint.heard, receivePacket, looping]
    rfl
  · intro _
    simp only [edge.seq]
  · intro early
    simp at early
  · simp [nodes]
  · simp [receivePacket, spell, empty]
  · intro marker member
    rcases List.mem_append.mp member with old | new
    · exact endOfFile marker old
    · exact List.mem_singleton.mp new
  · simp

/-- Data is passed up, and the position moves behind it. -/
theorem InOrder.segment (looping : e.phase = .controlLoop) (inOrder : InOrder e c)
    (edge : Advances fromActive c p c') (carries : p.data ≠ []) :
    InOrder (handlePacket p rest e) c' := by
  have greeted := inOrder.loop_greeted looping
  have noSyn := edge.noSyn greeted
  have ackNum := inOrder.ackNum greeted
  have flowing : c.stage = .flowing := by
    by_contra notFlowing
    exact carries (edge.bare notFlowing).1
  have noFin : p.has thFin = false := by
    by_contra fin
    exact carries (edge.bareFin (Bool.not_eq_false _ ▸ fin))
  have notReceived : e.ctx.finReceived = false :=
    Stage.afterFin_eq_flowing (inOrder.loop_stage looping ▸ flowing)
  have expected := inOrder.expected (.inr flowing)
  have next : c' = ⟨c.seq + UInt32.ofNat p.data.length, .flowing⟩ := by
    rw [edge.next]
    simp [Packet.span, noSyn, noFin, flowing, Stage.next]
  obtain ⟨chunks, markers, nodes, data, spell, endOfFile, marked⟩ := inOrder.delivered
  have noMarkers : markers = [] := by
    by_contra some
    exact absurd ((marked.mp some).symm.trans notReceived) (by decide)
  obtain ⟨state, done, acked, sent, accepted⟩ := handlePacket_data rest e edge.noOptions
    edge.short noFin carries (edge.seq.trans ackNum.symm) (edge.seq.trans expected.symm)
  rw [next, accepted]
  subst noMarkers
  refine ⟨?_, ?_, ?_, inOrder.bufferEmpty, chunks ++ [p.data], [], ?_, ?_, ?_, ?_, ?_⟩
  · simp only [Endpoint.heard, receivePacket, looping, notReceived]
    rfl
  · intro _
    simp only [ackNum]
  · intro _
    simp only [edge.seq]
  · simp [nodes]
  · intro chunk member
    rcases List.mem_append.mp member with old | new
    · exact data chunk old
    · rw [List.mem_singleton.mp new]
      exact carries
  · simp [receivePacket, spell]
  · exact endOfFile
  · exact marked

/-- Where the receiving half stands after reading `p` in the loop. -/
theorem InOrder.packet (looping : e.phase = .controlLoop) (inOrder : InOrder e c)
    (edge : Advances fromActive c p c') : InOrder (handlePacket p rest e) c' := by
  by_cases empty : p.data = []
  · cases fin : p.has thFin with
    | false => exact inOrder.bare looping edge empty fin
    | true => exact inOrder.fin looping edge empty fin
  · exact inOrder.segment looping edge empty

end

/-- Only the fields the receiving half is about matter to it. -/
theorem InOrder.of_eq {e e' : Endpoint} {c : Cursor} (inOrder : InOrder e c)
    (heard : e'.heard = e.heard) (finReceived : e'.ctx.finReceived = e.ctx.finReceived)
    (ackNum : e'.ctx.ackNum = e.ctx.ackNum)
    (expected : e'.ctx.nextSeqExpected = e.ctx.nextSeqExpected)
    (used : e'.ctx.recvBufferUsed = e.ctx.recvBufferUsed)
    (delivered : e'.hist.delivered = e.hist.delivered)
    (received : e'.hist.received = e.hist.received) : InOrder e' c where
  stage := inOrder.stage.trans heard.symm
  ackNum := by
    rw [ackNum]
    exact inOrder.ackNum
  expected := by
    rw [expected]
    exact inOrder.expected
  bufferEmpty := used.trans inOrder.bufferEmpty
  delivered := by
    obtain ⟨chunks, markers, nodes, data, spell, endOfFile, marked⟩ := inOrder.delivered
    refine ⟨chunks, markers, delivered.trans nodes, data, ?_, endOfFile, ?_⟩
    · rw [received]
      exact spell
    · rw [finReceived]
      exact marked

/-- The receiving half of an endpoint in `control_loop`. -/
def LoopReceiver (e : Endpoint) : Prop := e.phase = .controlLoop ∧ Receiver e

/-- What leaves the receiving fields alone keeps the receiving half. -/
theorem Receiver.of_eq {e e' : Endpoint} (receiver : Receiver e)
    (isActive : e'.isActive = e.isActive) (phase : e'.phase = e.phase)
    (finReceived : e'.ctx.finReceived = e.ctx.finReceived)
    (ackNum : e'.ctx.ackNum = e.ctx.ackNum)
    (expected : e'.ctx.nextSeqExpected = e.ctx.nextSeqExpected)
    (used : e'.ctx.recvBufferUsed = e.ctx.recvBufferUsed)
    (delivered : e'.hist.delivered = e.hist.delivered)
    (received : e'.hist.received = e.hist.received) : Receiver e' where
  early := by
    rw [finReceived, Endpoint.opened, phase]
    exact receiver.early
  inOrder base c path := by
    rw [isActive, received] at path
    have heard : e'.heard = e.heard := by
      rw [Endpoint.heard, Endpoint.heard, phase, finReceived]
    exact (receiver.inOrder base c path).of_eq heard finReceived ackNum expected used delivered
      received

theorem LoopReceiver.packet {p : Packet} {rest : List (Option Packet)} {e : Endpoint}
    (receiver : LoopReceiver e) : LoopReceiver (handlePacket p rest e) := by
  obtain ⟨looping, receiver⟩ := receiver
  have frame := handlePacket_frame p rest e
  have looping' : (handlePacket p rest e).phase = .controlLoop := frame.phase.trans looping
  refine ⟨looping', fun notOpened => absurd (.inl looping') notOpened, ?_⟩
  intro base c path
  have received : (handlePacket p rest e).hist.received = e.hist.received ++ [p] :=
    (handlePacket_received p rest e).1
  rw [frame.isActive, received] at path
  obtain ⟨middle, before, edge⟩ := Path.snoc_iff.mp path
  exact (receiver.inOrder base middle before).packet looping edge

theorem LoopReceiver.handleAppData {e : Endpoint} (receiver : LoopReceiver e) :
    LoopReceiver (handleAppData e) := by
  obtain ⟨looping, receiver⟩ := receiver
  rcases handleAppData_cases e with same | ⟨_, _, -, ⟨-, same⟩ | ⟨-, same⟩⟩ <;> rw [same]
  · exact ⟨looping, receiver⟩
  · exact ⟨looping, receiver.of_eq rfl rfl rfl rfl rfl rfl rfl rfl⟩
  · exact ⟨looping, receiver.of_eq rfl rfl rfl rfl rfl rfl rfl rfl⟩

theorem LoopReceiver.handleClose {e : Endpoint} (receiver : LoopReceiver e) :
    LoopReceiver (handleClose e) := by
  obtain ⟨looping, receiver⟩ := receiver
  rcases handleClose_cases e with ⟨-, same⟩ | ⟨-, state, same⟩ <;> rw [same]
  · exact ⟨looping, receiver⟩
  · exact ⟨looping, receiver.of_eq rfl rfl rfl rfl rfl rfl rfl rfl⟩

theorem LoopReceiver.iteration {ev : Event} {e : Endpoint} (receiver : LoopReceiver e) :
    LoopReceiver (controlLoopIteration ev e) := by
  apply controlLoopIteration_keeps receiver
  · exact receiver.handleAppData
  · rintro e₁ rest ⟨looping, receiver⟩ -
    unfold handleReadError
    dsimp only
    split <;> exact ⟨looping, receiver.of_eq rfl rfl rfl rfl rfl rfl rfl rfl⟩
  · intro e₁ p rest before _
    exact before.packet
  · intro _ e₁ before
    exact before.handleClose

/-! ### Every step -/

/-- A position that is still silent has passed nothing. -/
theorem received_of_silent {fromActive : Bool} {base : TcpSeq} {packets : List Packet} {c : Cursor}
    (path : Path (Advances fromActive) ⟨base, .silent⟩ packets c) (silent : c.stage = .silent) :
    packets = [] ∧ c = ⟨base, .silent⟩ := by
  rcases List.eq_nil_or_concat packets with rfl | ⟨front, last, rfl⟩
  · exact ⟨rfl, Path.nil_iff.mp path⟩
  · rw [List.concat_eq_append, Path.snoc_iff] at path
    obtain ⟨middle, -, edge⟩ := path
    rw [edge.next] at silent
    exact absurd silent (Stage.next_ne_silent _ _ _)

/-- The packets of the handshake carry no data. -/
theorem Delivered.greeting {e e' : Endpoint} {p : Packet} {chunks markers : List Bytes}
    (delivered : Delivered e chunks markers) (nodes : e'.hist.delivered = e.hist.delivered)
    (received : e'.hist.received = e.hist.received ++ [p]) (empty : p.data = [])
    (finReceived : e'.ctx.finReceived = e.ctx.finReceived) : Delivered e' chunks markers where
  nodes := nodes.trans delivered.nodes
  data := delivered.data
  spell := by
    rw [received, payload_append, payload_singleton, empty, List.append_nil]
    exact delivered.spell
  endOfFile := delivered.endOfFile
  marked := by
    rw [finReceived]
    exact delivered.marked

/-- A packet of the handshake is bare, and moves on a position that the endpoint stands at. -/
theorem Receiver.greeting {e : Endpoint} {p : Packet} {base : TcpSeq} {c : Cursor}
    (receiver : Receiver e)
    (path : Path (Advances (!e.isActive)) ⟨base, .silent⟩ (e.hist.received ++ [p]) c)
    (greets : e.heard ≠ .flowing) :
    ∃ middle, InOrder e middle ∧ Advances (!e.isActive) middle p c ∧ middle.stage = e.heard ∧
      p.data = [] ∧ p.has thFin = false := by
  obtain ⟨middle, before, edge⟩ := Path.snoc_iff.mp path
  have inOrder := receiver.inOrder base middle before
  obtain ⟨empty, noFin⟩ := edge.bare (by rw [inOrder.stage]; exact greets)
  exact ⟨middle, inOrder, edge, inOrder.stage, empty, noFin⟩

/-- A wake-up keeps the receiving half, unless it refuses the connection. -/
theorem Receiver.wake {e e' : Endpoint} (receiver : Receiver e) (role : e.RoleFits)
    (ended : e.ctx.done = true → e.ctx.finReceived = true) (step : e.wake = some e') :
    e'.phase = .refused ∨ Receiver e' := by
  have early (notOpened : ¬ e.opened) : e.ctx.finReceived = false := receiver.early notOpened
  cases e.wake_cases step with
  | refused refused => exact .inl refused
  | syn phase active =>
      have silent : e.heard = .silent := by simp only [Endpoint.heard, phase]
      refine .inr ⟨fun _ => early (by simp [Endpoint.opened, phase]), fun base c path => ?_⟩
      exact (receiver.inOrder base c path).of_eq silent.symm rfl rfl rfl rfl rfl rfl
  | listen phase passive =>
      have silent : e.heard = .silent := by simp only [Endpoint.heard, phase]
      refine .inr ⟨fun _ => early (by simp [Endpoint.opened, phase]), fun base c path => ?_⟩
      exact (receiver.inOrder base c path).of_eq silent.symm rfl rfl rfl rfl rfl rfl
  | @synAck p rest closeRequested phase head asked flag acked =>
      refine .inr ⟨fun notOpened => absurd (.inl rfl) notOpened, fun base c path => ?_⟩
      have active : e.isActive = true := by simpa only [Endpoint.RoleFits, phase] using role
      have notReceived := early (by simp [Endpoint.opened, phase])
      have heard : e.heard = .silent := by simp only [Endpoint.heard, phase]
      obtain ⟨middle, inOrder, edge, stage, empty, noFin⟩ :=
        receiver.greeting path (by rw [heard]; decide)
      have silent : middle.stage = .silent := stage.trans heard
      have next : c = ⟨p.thSeq + 1, .flowing⟩ := by
        have syn := edge.syn
        rw [edge.next, edge.seq]
        simp [Packet.span, syn, noFin, empty, silent, Stage.next, active]
      obtain ⟨chunks, markers, delivered⟩ := inOrder.delivered
      rw [next]
      refine ⟨?_, fun _ => rfl, fun _ => rfl, inOrder.bufferEmpty, chunks, markers,
        delivered.greeting rfl rfl empty rfl⟩
      simp only [Endpoint.heard, Endpoint.acceptSynAck, Endpoint.take, notReceived]
      rfl
  | @synRead p rest closeRequested phase head asked =>
      refine .inr ⟨fun _ => early (by simp [Endpoint.opened, phase]), fun base c path => ?_⟩
      have passive : e.isActive = false := by simpa only [Endpoint.RoleFits, phase] using role
      have heard : e.heard = .silent := by simp only [Endpoint.heard, phase]
      obtain ⟨middle, inOrder, edge, stage, empty, noFin⟩ :=
        receiver.greeting path (by rw [heard]; decide)
      have silent : middle.stage = .silent := stage.trans heard
      have next : c = ⟨p.thSeq + 1, .greeted⟩ := by
        have syn := edge.syn
        rw [edge.next, edge.seq]
        simp [Packet.span, syn, noFin, empty, silent, Stage.next, passive]
      obtain ⟨chunks, markers, delivered⟩ := inOrder.delivered
      rw [next]
      exact ⟨rfl, fun _ => rfl, fun _ => rfl, inOrder.bufferEmpty, chunks, markers,
        delivered.greeting rfl rfl empty rfl⟩
  | @ackRead p rest closeRequested phase head asked flag acked =>
      refine .inr ⟨fun notOpened => absurd (.inl rfl) notOpened, fun base c path => ?_⟩
      have notReceived := early (by simp [Endpoint.opened, phase])
      have heard : e.heard = .greeted := by simp only [Endpoint.heard, phase]
      obtain ⟨middle, inOrder, edge, stage, empty, noFin⟩ :=
        receiver.greeting path (by rw [heard]; decide)
      have greeted : middle.stage = .greeted := stage.trans heard
      have next : c = ⟨middle.seq, .flowing⟩ := by
        have syn := edge.syn
        rw [edge.next]
        simp [Packet.span, syn, noFin, empty, greeted, Stage.next]
      obtain ⟨chunks, markers, delivered⟩ := inOrder.delivered
      rw [next]
      refine ⟨?_, fun _ => inOrder.ackNum (by rw [greeted]; decide),
        fun _ => inOrder.expected (.inl greeted), inOrder.bufferEmpty, chunks, markers,
        delivered.greeting rfl rfl empty rfl⟩
      simp only [Endpoint.heard, Endpoint.acceptAck, Endpoint.take, notReceived]
      rfl
  | @iteration ev sock phase running waited =>
      have waiting : LoopReceiver { e with sock := sock } :=
        ⟨phase, receiver.of_eq rfl rfl rfl rfl rfl rfl rfl rfl⟩
      exact .inr waiting.iteration.2
  | exit phase done =>
      refine .inr ⟨fun notOpened => absurd (.inr rfl) notOpened, fun base c path => ?_⟩
      have inOrder := receiver.inOrder base c path
      have heard : (threadExit .exited e).heard = e.heard := (e.heard_loop phase).symm
      obtain ⟨chunks, markers, nodes, data, spell, endOfFile, -⟩ := inOrder.delivered
      refine ⟨inOrder.stage.trans heard.symm, inOrder.ackNum, inOrder.expected,
        inOrder.bufferEmpty, chunks, markers ++ [[]], ?_, data, spell, ?_, ?_⟩
      · simp [threadExit, enqueueForApp, nodes]
      · intro marker member
        rcases List.mem_append.mp member with old | new
        · exact endOfFile marker old
        · exact List.mem_singleton.mp new
      · exact ⟨fun _ => ended done, fun _ => by simp⟩

/-- Every input keeps the receiving half, unless it refuses the connection. -/
theorem Receiver.input {e e' : Endpoint} {i : Input} (receiver : Receiver e) (role : e.RoleFits)
    (ended : e.ctx.done = true → e.ctx.finReceived = true) (step : e.input i = some e') :
    e'.phase = .refused ∨ Receiver e' := by
  by_cases wakes : i = .wake
  · subst wakes
    exact receiver.wake role ended step
  · obtain ⟨ctx, phase, -, isActive, delivered, received⟩ := e.input_frame step wakes
    right
    refine receiver.of_eq isActive phase ?_ ?_ ?_ ?_ delivered received <;> rw [ctx]

theorem Receiver.init (isActive : Bool) (initialSequenceNum : TcpSeq) :
    Receiver (Endpoint.init isActive initialSequenceNum) where
  early _ := rfl
  inOrder base c path := by
    rw [Path.nil_iff.mp path]
    refine ⟨rfl, fun notSilent => absurd rfl notSilent, ?_, rfl, [], [], rfl, ?_, rfl, ?_, ?_⟩
    · intro early
      simp at early
    · simp
    · simp
    · simp [Endpoint.init, Ctx.init]

end CompNet.Stcp
