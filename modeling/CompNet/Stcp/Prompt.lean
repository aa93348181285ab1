import CompNet.Stcp.Window

/-!
# Acknowledgements are prompt

`Window` says that acknowledgements never go back and never run ahead.  Here
they are also never late: between two wake-ups an endpoint has acknowledged all
that it has read, because every packet that takes up sequence numbers is
answered in the iteration that reads it.  So a connection in which nothing is
left to do has nothing left to say: the handshake is over at both sides, every
byte has been handed up, and a FIN that was sent has been acknowledged.

An application calls `myclose` only on a connection that `myconnect` or
`myaccept` has returned.  A run in which this is so never refuses a connection.
-/

namespace CompNet.Stcp

open CompNet.Lib

/-! ## Answers without delay -/

/-- As `Acks`, and an acknowledgement covers at least the SYN. -/
structure Covers (base : TcpSeq) (k : Nat) (p : Packet) (k' : Nat) : Prop where
  acks : Acks base k p k'
  greeted : p.has thAckFlag = true → 0 < k'

/-- From `e` to `e'` an endpoint read on, and the last it sent acknowledges all
that `e'` has read.  The premise is that what it read is a direction. -/
structure Replies (e e' : Endpoint) : Prop where
  received : ∃ more, e'.hist.received = e.hist.received ++ more
  isActive : e'.isActive = e.isActive
  sent : ∃ new, e'.hist.sent = e.hist.sent ++ new ∧
    ∀ base c, Path (Advances (!e'.isActive)) ⟨base, .silent⟩ e'.hist.received c →
      Path (Covers base) (spanOf e.hist.received) new (spanOf e'.hist.received)

theorem Replies.of_quiet {e e' : Endpoint} (isActive : e'.isActive = e.isActive)
    (received : ∃ more, e'.hist.received = e.hist.received ++ more)
    (span : ∀ base c, Path (Advances (!e'.isActive)) ⟨base, .silent⟩ e'.hist.received c →
      spanOf e'.hist.received = spanOf e.hist.received)
    (sent : e'.hist.sent = e.hist.sent) : Replies e e' := by
  refine ⟨received, isActive, [], by simp [sent], ?_⟩
  intro base c path
  rw [span base c path]
  exact .nil _

theorem Replies.of_still {e e' : Endpoint} (isActive : e'.isActive = e.isActive)
    (received : e'.hist.received = e.hist.received) (sent : e'.hist.sent = e.hist.sent) :
    Replies e e' :=
  .of_quiet isActive ⟨[], by simp [received]⟩ (fun _ _ _ => by rw [received]) sent

theorem Replies.refl (e : Endpoint) : Replies e e := .of_still rfl rfl rfl

theorem Replies.trans {e₁ e₂ e₃ : Endpoint} (first : Replies e₁ e₂) (second : Replies e₂ e₃) :
    Replies e₁ e₃ := by
  obtain ⟨more₁, received₁⟩ := first.received
  obtain ⟨more₂, received₂⟩ := second.received
  obtain ⟨new₁, sent₁, covers₁⟩ := first.sent
  obtain ⟨new₂, sent₂, covers₂⟩ := second.sent
  refine ⟨⟨more₁ ++ more₂, ?_⟩, second.isActive.trans first.isActive, new₁ ++ new₂, ?_, ?_⟩
  · rw [received₂, received₁, List.append_assoc]
  · rw [sent₂, sent₁, List.append_assoc]
  · intro base c path
    have read := path
    rw [received₂, second.isActive, Path.append_iff] at read
    obtain ⟨middle, front, -⟩ := read
    exact Path.append_iff.mpr ⟨_, covers₁ base middle front, covers₂ base c path⟩

/-- Packets that all acknowledge position `m`, at least one if `m` is new. -/
theorem covers_path {base : TcpSeq} {k m : Nat} {packets : List Packet} (le : k ≤ m)
    (greeted : 0 < m) (answered : packets = [] → k = m)
    (tells : ∀ p ∈ packets, p.has thAckFlag = true ∧ p.thAck = base + UInt32.ofNat m ∧
      p.thWin = receiverWindowSize) :
    Path (Covers base) k packets m := by
  induction packets generalizing k with
  | nil =>
      rw [answered rfl]
      exact .nil m
  | cons p packets ih =>
      obtain ⟨flag, acked, window⟩ := tells p List.mem_cons_self
      have edge : Covers base k p m :=
        ⟨⟨le, fun _ => acked, fun silent => absurd (flag.symm.trans silent) (by decide), window⟩,
          fun _ => greeted⟩
      exact .cons edge (ih (Nat.le_refl m) (fun _ => rfl)
        fun q later => tells q (List.mem_cons_of_mem p later))

/-- A direction that has said anything has said SYN. -/
theorem span_pos_of_path {fromActive : Bool} {base : TcpSeq} {packets : List Packet} {c : Cursor}
    (path : Path (Advances fromActive) ⟨base, .silent⟩ packets c) (greeted : c.stage ≠ .silent) :
    0 < spanOf packets := by
  cases path with
  | nil => exact absurd rfl greeted
  | @cons _ middle _ p rest edge _ =>
      have syn := edge.syn
      rw [List.singleton_append.symm, spanOf_append, spanOf_singleton]
      have own : 0 < p.span := by
        simp only [decide_true] at syn
        rw [Packet.span, syn, if_pos rfl]
        omega
      exact Nat.lt_of_lt_of_le own (Nat.le_add_right _ _)

/-- Packets that say what the context says, in order, cover all that was read. -/
theorem Replies.of_new {e e' : Endpoint} {new : List Packet} (receiver : Receiver e')
    (heard : e'.heard ≠ .silent) (window : e'.ctx.recvWindowSize = receiverWindowSize)
    (isActive : e'.isActive = e.isActive)
    (received : ∃ more, e'.hist.received = e.hist.received ++ more)
    (sent : e'.hist.sent = e.hist.sent ++ new)
    (answered : new = [] →
      ∀ base c, Path (Advances (!e'.isActive)) ⟨base, .silent⟩ e'.hist.received c →
        spanOf e'.hist.received = spanOf e.hist.received)
    (tells : ∀ p ∈ new, p.has thAckFlag = true ∧ p.thAck = e'.ctx.ackNum ∧
      p.thWin = e'.ctx.recvWindowSize - e'.ctx.recvBufferUsed) : Replies e e' := by
  refine ⟨received, isActive, new, sent, ?_⟩
  intro base c path
  have inOrder := receiver.inOrder base c path
  have notSilent : c.stage ≠ .silent := by
    rw [inOrder.stage]
    exact heard
  have stands : e'.ctx.ackNum = base + UInt32.ofNat (spanOf e'.hist.received) := by
    rw [inOrder.ackNum notSilent, seq_of_path path]
  obtain ⟨more, grown⟩ := received
  refine covers_path ?_ (span_pos_of_path path notSilent)
    (fun none => (answered none base c path).symm) ?_
  · rw [grown, spanOf_append]
    omega
  · intro p member
    obtain ⟨flag, acked, win⟩ := tells p member
    exact ⟨flag, acked.trans stands, by rw [win, window, inOrder.bufferEmpty]; rfl⟩

/-! ### The branches of an iteration -/

theorem handleData_sends (p : Packet) (e : Endpoint) :
    e.hist.sent.length ≤ (handleData p e).hist.sent.length ∧
      (dataLen p > 0 → e.hist.sent.length < (handleData p e).hist.sent.length) := by
  rcases handleData_cases p e with
    ⟨none, same⟩ | ⟨-, -, same⟩ | ⟨-, -, -, same⟩ | ⟨-, -, -, same⟩
  · rw [same]
    exact ⟨Nat.le_refl _, fun some => absurd none (Nat.ne_of_gt some)⟩
  · rw [same]
    simp [sendPacket]
  · rw [same]
    simp [sendPacket]
  · obtain ⟨queue, delivered, passed⟩ := stcpAppSend_eq (dataChunk p e.buf) e
    rw [same, passed]
    simp [sendPacket]

/-- Only a packet that takes up no sequence numbers goes unanswered. -/
theorem handlePacket_unanswered {p : Packet} {rest : List (Option Packet)} {e : Endpoint}
    (noOptions : p.thOff = 5) (short : p.data.length ≤ stcpMss)
    (quiet : (handlePacket p rest e).hist.sent = e.hist.sent) :
    p.data = [] ∧ p.has thFin = false := by
  obtain ⟨state, done, acked, ack⟩ := handleAck_eq p (handleFin p (receivePacket p rest e))
  obtain ⟨grown, answered⟩ :=
    handleData_sends p (handleAck p (handleFin p (receivePacket p rest e)))
  have length := congrArg List.length quiet
  rw [handlePacket] at length
  rw [ack] at length grown answered
  rcases handleFin_cases p (receivePacket p rest e) with ⟨noFin, same⟩ | ⟨-, _, _, same⟩
  · rw [same] at length grown answered
    refine ⟨?_, noFin⟩
    by_contra some
    have more := answered (by
      rw [dataLen_of_noOptions noOptions short]
      exact List.length_pos_iff.mpr some)
    simp only [receivePacket] at length more
    omega
  · rw [same] at length grown
    simp only [receivePacket, List.length_append, List.length_singleton] at length grown
    omega

theorem LoopReceiver.packet_replies {p : Packet} {e : Endpoint} (rest : List (Option Packet))
    (receiver : LoopReceiver e) (window : e.ctx.recvWindowSize = receiverWindowSize) :
    Replies e (handlePacket p rest e) := by
  have after : LoopReceiver (handlePacket p rest e) := receiver.packet
  have frame := handlePacket_frame p rest e
  have received := (handlePacket_received p rest e).1
  obtain ⟨n, sent⟩ := (handlePacket_onlyAcks p rest e).sent
  refine .of_new after.2 (heard_loop_ne_silent after.1) (frame.recvWindowSize.trans window)
    frame.isActive ⟨[p], received⟩ sent ?_ ?_
  · intro none base c path
    rw [received, frame.isActive] at path
    obtain ⟨middle, before, edge⟩ := Path.snoc_iff.mp path
    have greeted := (receiver.2.inOrder base middle before).loop_greeted receiver.1
    rw [none, List.append_nil] at sent
    obtain ⟨empty, noFin⟩ := handlePacket_unanswered edge.noOptions edge.short sent
    rw [received, spanOf_append, spanOf_singleton]
    simp [Packet.span, edge.noSyn greeted, empty, noFin]
  · intro q member
    rw [List.eq_of_mem_replicate member]
    exact buildPacket_tells (by simp)

/-- An iteration leaves nothing unanswered. -/
theorem LoopReceiver.replies (ev : Event) {e : Endpoint} (receiver : LoopReceiver e)
    (window : e.ctx.recvWindowSize = receiverWindowSize) :
    Replies e (controlLoopIteration ev e) := by
  have keeps : LoopReceiver (controlLoopIteration ev e) ∧
      (controlLoopIteration ev e).ctx.recvWindowSize = receiverWindowSize ∧
      Replies e (controlLoopIteration ev e) := by
    apply controlLoopIteration_keeps (motive := fun e' => LoopReceiver e' ∧
      e'.ctx.recvWindowSize = receiverWindowSize ∧ Replies e e')
    · exact ⟨receiver, window, .refl e⟩
    · have after := receiver.handleAppData
      refine ⟨after, (handleAppData_frame e).recvWindowSize.trans window, ?_⟩
      rcases handleAppData_cases e with same | ⟨chunk, rest, -, ⟨-, same⟩ | ⟨-, same⟩⟩
      · rw [same]
        exact .refl e
      · rw [same]
        exact .of_still rfl rfl rfl
      · have looping := heard_loop_ne_silent after.1
        rw [same] at after looping ⊢
        refine .of_new after.2 looping window rfl ⟨[], by simp⟩ rfl (fun _ _ _ _ => rfl) ?_
        intro p member
        rw [List.mem_singleton.mp member]
        exact buildPacket_tells (by simp)
    · rintro e₁ rest ⟨⟨looping, receiver⟩, window, replies⟩ -
      have frame := handleReadError_frame rest e₁
      refine ⟨⟨frame.phase.trans looping, ?_⟩, frame.recvWindowSize.trans window,
        replies.trans ?_⟩
      · unfold handleReadError
        dsimp only
        split <;> exact receiver.of_eq rfl rfl rfl rfl rfl rfl rfl rfl
      · unfold handleReadError
        dsimp only
        split <;> exact .of_still rfl rfl rfl
    · rintro e₁ p rest ⟨receiver, window, replies⟩ -
      exact ⟨receiver.packet, (handlePacket_frame p rest e₁).recvWindowSize.trans window,
        replies.trans (receiver.packet_replies rest window)⟩
    · rintro - e₁ ⟨receiver, window, replies⟩
      have after := receiver.handleClose
      refine ⟨after, (handleClose_frame e₁).recvWindowSize.trans window, replies.trans ?_⟩
      rcases handleClose_cases e₁ with ⟨-, same⟩ | ⟨-, state, same⟩
      · rw [same]
        exact .refl e₁
      · have looping := heard_loop_ne_silent after.1
        rw [same] at after looping ⊢
        refine .of_new after.2 looping window rfl ⟨[], by simp⟩ rfl (fun _ _ _ _ => rfl) ?_
        intro p member
        rw [List.mem_singleton.mp member]
        exact buildPacket_tells (by simp)
  exact keeps.2.2

/-- So does every input. -/
theorem Endpoint.input_replies {e e' : Endpoint} {i : Input} (sound : Sound e)
    (receiver' : Receiver e') (window : e.ctx.recvWindowSize = receiverWindowSize)
    (step : e.input i = some e') (accepted : e'.phase ≠ .refused) : Replies e e' := by
  have receiver := sound.receiver
  by_cases wakes : i = .wake
  · subst wakes
    cases e.wake_cases step with
    | refused refused => exact absurd refused accepted
    | syn phase active =>
        refine ⟨⟨[], by simp [sendSyn, sendPacket]⟩, rfl, _, rfl, ?_⟩
        intro base c path
        have buffer := (receiver.inOrder base c path).bufferEmpty
        refine .cons ⟨⟨Nat.le_refl _, ?_, fun _ => rfl, ?_⟩, ?_⟩ (.nil _)
        · intro flag
          exact absurd flag (by rw [buildPacket_has]; decide)
        · simp only [buildPacket, window, buffer]
          rfl
        · intro flag
          exact absurd flag (by rw [buildPacket_has]; decide)
    | listen phase passive => exact .of_still rfl rfl rfl
    | synAck phase head asked flag acked =>
        refine .of_new receiver' ?_ window rfl ⟨_, rfl⟩ rfl (fun none => by simp at none) ?_
        · exact heard_loop_ne_silent rfl
        · intro q member
          rw [List.mem_singleton.mp member]
          exact buildPacket_tells (by simp)
    | synRead phase head asked =>
        refine .of_new receiver' ?_ window rfl ⟨_, rfl⟩ rfl (fun none => by simp at none) ?_
        · simp [Endpoint.heard, Endpoint.acceptSyn]
        · intro q member
          rw [List.mem_singleton.mp member]
          exact buildPacket_tells (by simp)
    | @ackRead p rest closeRequested phase head asked flag acked =>
        refine .of_quiet rfl ⟨_, rfl⟩ (fun base c path => ?_) rfl
        have heard : e.heard = .greeted := by simp only [Endpoint.heard, phase]
        obtain ⟨middle, -, edge, stage, empty, noFin⟩ :=
          receiver.greeting path (by rw [heard]; decide)
        have noSyn := edge.noSyn (by rw [stage, heard]; decide)
        have span : p.span = 0 := by simp [Packet.span, noSyn, empty, noFin]
        change spanOf (e.hist.received ++ [p]) = spanOf e.hist.received
        rw [spanOf_append, spanOf_singleton, span, Nat.add_zero]
    | @iteration ev sock phase running waited =>
        have waiting : LoopReceiver { e with sock := sock } :=
          ⟨phase, receiver.of_eq rfl rfl rfl rfl rfl rfl rfl rfl⟩
        obtain ⟨received, isActive, sent⟩ := waiting.replies ev window
        exact ⟨received, isActive, sent⟩
    | exit phase done => exact .of_still rfl rfl rfl
  · obtain ⟨-, -, sent, isActive, -, received⟩ := e.input_frame step wakes
    exact .of_still isActive received sent

/-! ## What an endpoint knows of its own direction -/

/-- The FIN is sent, and the loop waits for its acknowledgement. -/
def Ctx.awaitsAck (c : Ctx) : Bool :=
  !c.done && (c.connectionState == .finWait1 || c.connectionState == .closing ||
    c.connectionState == .lastAck)

/-- Of what its peer has said, which acknowledges `K` in all, `a` has read
acknowledgements up to some `k`; and not of all it has sent while it waits for
one. -/
def Heeds (said : List Packet) (K : Nat) (a : Endpoint) : Prop :=
  ∃ k flying, said = a.hist.received ++ flying ∧
    Path (Covers a.ctx.initialSequenceNum) 0 a.hist.received k ∧
    Path (Covers a.ctx.initialSequenceNum) k flying K ∧
    (a.ctx.awaitsAck = true → k < spanOf a.hist.sent)

theorem Covers.forward_path {base : TcpSeq} {k k' : Nat} {packets : List Packet}
    (path : Path (Covers base) k packets k') : k ≤ k' := by
  induction path with
  | nil k => exact Nat.le_refl k
  | cons edge _ ih => exact Nat.le_trans edge.acks.forward ih

/-- What a step has sent, and no state that waits, leave the knowledge as it was. -/
theorem Heeds.of_eq {said : List Packet} {K : Nat} {a a' : Endpoint} (heeds : Heeds said K a)
    (received : a'.hist.received = a.hist.received)
    (base : a'.ctx.initialSequenceNum = a.ctx.initialSequenceNum)
    (waits : a'.ctx.awaitsAck = true →
      a.ctx.awaitsAck = true ∧ spanOf a.hist.sent ≤ spanOf a'.hist.sent) :
    Heeds said K a' := by
  obtain ⟨k, flying, whole, known, ahead, behind⟩ := heeds
  refine ⟨k, flying, ?_, ?_, ?_, fun waiting => ?_⟩
  · rw [received]
    exact whole
  · rw [received, base]
    exact known
  · rw [base]
    exact ahead
  · obtain ⟨before, grown⟩ := waits waiting
    exact Nat.lt_of_lt_of_le (behind before) grown

/-- The packet at the head of the queue is the next that the peer has said. -/
theorem next_of_inbox {said flying : List Packet} {queue : List (Option Packet)} {n : Nat}
    {p : Packet} {a : Endpoint} (inbox : a.inbox = (said.take n).map some)
    (head : a.sock.networkRecvQueue = some p :: queue) (whole : said = a.hist.received ++ flying) :
    ∃ later, flying = p :: later := by
  rw [Endpoint.inbox, head] at inbox
  have front : a.hist.received ++ [p] <+: said := by
    obtain ⟨read, left, cut, readEq, leftEq⟩ := List.map_eq_append_iff.mp inbox.symm
    have same : read = a.hist.received :=
      List.map_injective_iff.mpr (fun _ _ => Option.some.inj) readEq
    cases left with
    | nil => cases leftEq
    | cons q left =>
        obtain rfl : q = p := Option.some.inj (List.cons.inj leftEq).1
        refine ⟨left ++ said.drop n, ?_⟩
        rw [List.append_assoc, List.singleton_append, ← List.cons_append, ← same,
          ← List.append_assoc, ← cut, List.take_append_drop]
  obtain ⟨later, same⟩ := front
  rw [whole, List.append_assoc] at same
  exact ⟨later, (List.append_cancel_left same).symm⟩

/-- Reading a packet that leaves nothing to wait for. -/
theorem Heeds.read {said : List Packet} {K : Nat} {a a' : Endpoint} {p : Packet}
    {rest : List (Option Packet)} {n : Nat} (heeds : Heeds said K a)
    (inbox : a.inbox = (said.take n).map some)
    (head : a.sock.networkRecvQueue = some p :: rest)
    (received : a'.hist.received = a.hist.received ++ [p])
    (base : a'.ctx.initialSequenceNum = a.ctx.initialSequenceNum)
    (behind : ∀ k' ≤ K, (p.has thAckFlag = true →
        p.thAck = a.ctx.initialSequenceNum + UInt32.ofNat k') →
      a'.ctx.awaitsAck = true → k' < spanOf a'.hist.sent) :
    Heeds said K a' := by
  obtain ⟨k, flying, whole, known, ahead, -⟩ := heeds
  obtain ⟨later, rfl⟩ := next_of_inbox inbox head whole
  obtain ⟨k', edge, ahead⟩ := Path.cons_iff.mp ahead
  refine ⟨k', later, ?_, ?_, ?_, behind k' (Covers.forward_path ahead) edge.acks.acked⟩
  · rw [received, whole, List.append_assoc]
    rfl
  · rw [received, base]
    exact Path.snoc_iff.mpr ⟨k, known, edge⟩
  · rw [base]
    exact ahead

theorem Ctx.onFullAck_awaits (c : Ctx) : c.onFullAck.awaitsAck = false := by
  unfold Ctx.onFullAck Ctx.awaitsAck
  cases state : c.connectionState <;> simp [state]

theorem Ctx.onData_awaits (c : Ctx) (p : Packet) : (c.onData p).awaitsAck = c.awaitsAck := by
  obtain ⟨used, expected, acked, same⟩ := c.onData_eq p
  rw [same]
  rfl

/-- A packet that acknowledges everything sent leaves nothing to wait for. -/
theorem handlePacket_awaits {p : Packet} (rest : List (Option Packet)) {e : Endpoint}
    (flag : p.has thAckFlag = true) (acked : p.thAck = e.ctx.sequenceNum) :
    (handlePacket p rest e).ctx.awaitsAck = false := by
  have sequence : (handleFin p (receivePacket p rest e)).ctx.sequenceNum = e.ctx.sequenceNum := by
    rcases handleFin_cases p (receivePacket p rest e) with ⟨-, same⟩ | ⟨-, _, _, same⟩ <;>
      rw [same] <;> rfl
  have answered : (handleAck p (handleFin p (receivePacket p rest e))).ctx.awaitsAck = false := by
    rw [handleAck, if_pos ⟨flag, acked.trans sequence.symm⟩]
    exact Ctx.onFullAck_awaits _
  rw [handlePacket]
  generalize handleAck p (handleFin p (receivePacket p rest e)) = e₁ at answered
  rcases handleData_cases p e₁ with
    ⟨-, same⟩ | ⟨-, -, same⟩ | ⟨-, -, -, same⟩ | ⟨-, -, -, same⟩ <;> rw [same]
  · exact answered
  · exact answered
  · exact (Ctx.onData_awaits e₁.ctx p).trans answered
  · exact (Ctx.onData_awaits e₁.ctx p).trans answered

theorem OnlyAcks.span {e e' : Endpoint} (acks : OnlyAcks e e') :
    spanOf e'.hist.sent = spanOf e.hist.sent := by
  obtain ⟨n, sent⟩ := acks.sent
  have nothing : spanOf (List.replicate n (buildPacket e'.ctx [] thAckFlag)) = 0 := by
    simp [spanOf, Packet.span]
  rw [sent, spanOf_append, nothing, Nat.add_zero]

/-- An endpoint in `control_loop` whose inbox is the front of what its peer has
said, with what it knows. -/
structure Attends (said : List Packet) (n K : Nat) (e : Endpoint) : Prop where
  sender : LoopSender e
  receiver : LoopReceiver e
  inbox : e.inbox = (said.take n).map some
  heeds : Heeds said K e
  bounded : K ≤ spanOf e.hist.sent

theorem Attends.packet {said : List Packet} {n K : Nat} {e : Endpoint} {p : Packet}
    {rest : List (Option Packet)} {base : TcpSeq} {c : Cursor} (attends : Attends said n K e)
    (direction : Path (Advances (!e.isActive)) ⟨base, .silent⟩ said c)
    (head : e.sock.networkRecvQueue = some p :: rest) :
    Attends said n K (handlePacket p rest e) := by
  have frame := handlePacket_frame p rest e
  have acks := handlePacket_onlyAcks p rest e
  obtain ⟨received, queue⟩ := handlePacket_received p rest e
  have sender := attends.sender.onlyAcks frame acks
  refine ⟨sender, attends.receiver.packet, ?_, ?_, ?_⟩
  · rw [Endpoint.inbox, received, queue]
    have inbox := attends.inbox
    rw [Endpoint.inbox, head] at inbox
    simpa using inbox
  · refine attends.heeds.read attends.inbox head received frame.initialSequenceNum ?_
    intro k' le acked waiting
    have flag : p.has thAckFlag = true := by
      obtain ⟨k, flying, whole, -⟩ := attends.heeds
      obtain ⟨later, rfl⟩ := next_of_inbox attends.inbox head whole
      rw [whole, Path.append_iff] at direction
      obtain ⟨middle, before, onward⟩ := direction
      obtain ⟨_, edge, -⟩ := Path.cons_iff.mp onward
      exact edge.ack (.inr
        ((attends.receiver.2.inOrder base middle before).loop_greeted attends.receiver.1))
    rw [acks.span]
    refine Nat.lt_of_le_of_ne (Nat.le_trans le attends.bounded) ?_
    rintro rfl
    have sequence : e.ctx.sequenceNum =
        e.ctx.initialSequenceNum + UInt32.ofNat (spanOf e.hist.sent) :=
      seq_of_path attends.sender.2.path
    rw [handlePacket_awaits rest flag ((acked flag).trans sequence.symm)] at waiting
    cases waiting
  · rw [acks.span]
    exact attends.bounded

theorem Attends.handleAppData {said : List Packet} {n K : Nat} {e : Endpoint}
    (attends : Attends said n K e) : Attends said n K (handleAppData e) := by
  have sender := attends.sender.handleAppData
  have receiver := attends.receiver.handleAppData
  rcases handleAppData_cases e with same | ⟨chunk, rest, -, ⟨-, same⟩ | ⟨-, same⟩⟩
  · rw [same]
    exact attends
  · rw [same] at sender receiver ⊢
    exact ⟨sender, receiver, attends.inbox,
      attends.heeds.of_eq rfl rfl fun waiting => ⟨waiting, Nat.le_refl _⟩, attends.bounded⟩
  · rw [same] at sender receiver ⊢
    have bounded := attends.bounded
    refine ⟨sender, receiver, attends.inbox,
      attends.heeds.of_eq rfl rfl fun waiting => ⟨waiting, ?_⟩, ?_⟩ <;>
      simp only [spanOf_append] <;> omega

/-- The FIN is ahead of every acknowledgement. -/
theorem Attends.handleClose {said : List Packet} {n K : Nat} {e : Endpoint}
    (attends : Attends said n K e) (empty : e.sock.appRecvQueue = [])
    (closed : e.hist.closed = true) : Attends said n K (handleClose e) := by
  have sender := attends.sender.handleClose empty closed
  have receiver := attends.receiver.handleClose
  rcases handleClose_cases e with ⟨-, same⟩ | ⟨-, state, same⟩
  · rw [same]
    exact attends
  · rw [same] at sender receiver ⊢
    have fin : (buildPacket e.ctx [] (thFin ||| thAckFlag)).span = 1 := by simp [Packet.span]
    have bounded := attends.bounded
    obtain ⟨k, flying, whole, known, ahead, -⟩ := attends.heeds
    have forward := Covers.forward_path ahead
    refine ⟨sender, receiver, attends.inbox, ⟨k, flying, whole, known, ahead, fun _ => ?_⟩, ?_⟩ <;>
      simp only [spanOf_append, spanOf_singleton, fin] <;> omega

theorem Attends.iteration {said : List Packet} {n K : Nat} {e : Endpoint} {base : TcpSeq}
    {c : Cursor} {ev : Event} (attends : Attends said n K e)
    (direction : Path (Advances (!e.isActive)) ⟨base, .silent⟩ said c)
    (ready : ev.appCloseRequested = true → e.sock.appRecvQueue = [] ∧ e.hist.closed = true) :
    Attends said n K (controlLoopIteration ev e) := by
  have keeps : (Attends said n K (controlLoopIteration ev e) ∧
      (controlLoopIteration ev e).isActive = e.isActive) ∧ (ev.appCloseRequested = true →
        (controlLoopIteration ev e).sock.appRecvQueue = [] ∧
          (controlLoopIteration ev e).hist.closed = true) := by
    apply controlLoopIteration_keeps (motive := fun e' => (Attends said n K e' ∧
      e'.isActive = e.isActive) ∧
      (ev.appCloseRequested = true → e'.sock.appRecvQueue = [] ∧ e'.hist.closed = true))
    · exact ⟨⟨attends, rfl⟩, ready⟩
    · refine ⟨⟨attends.handleAppData, (handleAppData_frame e).isActive⟩, fun asked => ?_⟩
      obtain ⟨empty, closed⟩ := ready asked
      refine ⟨?_, (handleAppData_frame e).closed.trans closed⟩
      rcases handleAppData_cases e with same | ⟨chunk, rest, dequeued, -⟩
      · rw [same, empty]
      · rw [empty] at dequeued
        cases dequeued
    · rintro e₁ rest ⟨⟨attends, -⟩, -⟩ head
      have inbox := attends.inbox
      have error : none ∈ e₁.inbox := by simp [Endpoint.inbox, head]
      rw [inbox] at error
      obtain ⟨p, -, impossible⟩ := List.mem_map.mp error
      cases impossible
    · rintro e₁ p rest ⟨⟨attends, active⟩, ready⟩ head
      have frame := handlePacket_frame p rest e₁
      refine ⟨⟨attends.packet (by rw [active]; exact direction) head,
        frame.isActive.trans active⟩, fun asked => ?_⟩
      rw [(handlePacket_onlyAcks p rest e₁).appRecvQueue, frame.closed]
      exact ready asked
    · rintro asked e₁ ⟨⟨attends, active⟩, ready⟩
      obtain ⟨empty, closed⟩ := ready asked
      refine ⟨⟨attends.handleClose empty closed, (handleClose_frame e₁).isActive.trans active⟩,
        fun _ => ?_⟩
      rw [(handleClose_frame e₁).closed]
      refine ⟨?_, closed⟩
      rcases handleClose_cases e₁ with ⟨-, same⟩ | ⟨-, state, same⟩ <;> rw [same] <;> exact empty
  exact keeps.1.1

/-- Every input of an endpoint keeps what it knows. -/
theorem Heeds.input {said : List Packet} {n K : Nat} {e e' : Endpoint} {i : Input}
    {base : TcpSeq} {c : Cursor} (heeds : Heeds said K e) (sound : Sound e)
    (inbox : e.inbox = (said.take n).map some) (bounded : K ≤ spanOf e.hist.sent)
    (direction : Path (Advances (!e.isActive)) ⟨base, .silent⟩ said c)
    (step : e.input i = some e') (accepted : e'.phase ≠ .refused) : Heeds said K e' := by
  by_cases wakes : i = .wake
  · subst wakes
    cases e.wake_cases step with
    | refused refused => exact absurd refused accepted
    | syn phase active =>
        refine heeds.of_eq rfl rfl fun waiting => ?_
        simp [Ctx.awaitsAck, sendSyn, sendPacket] at waiting
    | listen phase passive =>
        exact heeds.of_eq rfl rfl fun waiting => ⟨waiting, Nat.le_refl _⟩
    | synAck phase head asked flag acked =>
        refine heeds.read inbox head rfl rfl fun _ _ _ waiting => ?_
        simp [Ctx.awaitsAck, Endpoint.acceptSynAck] at waiting
    | synRead phase head asked =>
        refine heeds.read inbox head rfl rfl fun _ _ _ waiting => ?_
        simp [Ctx.awaitsAck, Endpoint.acceptSyn] at waiting
    | ackRead phase head asked flag acked =>
        refine heeds.read inbox head rfl rfl fun _ _ _ waiting => ?_
        simp [Ctx.awaitsAck, Endpoint.acceptAck] at waiting
    | @iteration ev sock phase running waited =>
        obtain ⟨-, -, closing, rfl⟩ := stcpWaitForEvent_spec waited
        obtain ⟨role, early, path, books, drained, asked⟩ := sound.sender
        have attends : Attends said n K { e with
            sock.closeRequested := e.sock.closeRequested && !ev.appCloseRequested } :=
          { sender := ⟨phase, role, early, path, books, drained, fun requested =>
              asked (Bool.and_eq_true_iff.mp requested).1⟩
            receiver := ⟨phase, sound.receiver.of_eq rfl rfl rfl rfl rfl rfl rfl rfl⟩
            inbox := inbox
            heeds := heeds.of_eq rfl rfl fun waiting => ⟨waiting, Nat.le_refl _⟩
            bounded := bounded }
        exact (attends.iteration direction fun closes =>
          ⟨(closing closes).2, asked (closing closes).1⟩).heeds
    | exit phase done =>
        exact heeds.of_eq rfl rfl fun waiting => ⟨waiting, Nat.le_refl _⟩
  · obtain ⟨ctx, -, sent, -, -, received⟩ := e.input_frame step wakes
    refine heeds.of_eq received (by rw [ctx]) fun waiting => ?_
    rw [ctx] at waiting
    exact ⟨waiting, by rw [sent]⟩

/-! ## Closing -/

/-- The application closes only a connection it has been given, and a close that
was asked for is not forgotten. -/
structure Remembers (e : Endpoint) : Prop where
  early : ¬ e.opened → e.hist.closed = false
  pending : e.hist.closed = true → e.sock.closeRequested = true ∨ e.ctx.finSent = true

/-- A connection that is still in the handshake has said one thing. -/
def Greeted (e : Endpoint) : Prop :=
  e.phase = .awaitSynAck ∨ e.phase = .awaitAck → spanOf e.hist.sent = 1

theorem handleAppData_finSent (e : Endpoint) :
    (handleAppData e).ctx.finSent = e.ctx.finSent := by
  rcases handleAppData_cases e with same | ⟨_, _, -, ⟨-, same⟩ | ⟨-, same⟩⟩ <;> rw [same]

/-- An iteration that is asked to close has sent the FIN. -/
theorem controlLoopIteration_closes (ev : Event) {e : Endpoint}
    (noError : none ∉ e.sock.networkRecvQueue) :
    (ev.appCloseRequested = true → (controlLoopIteration ev e).ctx.finSent = true) ∧
      (e.ctx.finSent = true → (controlLoopIteration ev e).ctx.finSent = true) := by
  have queue : (if ev.appData then handleAppData e else e).sock.networkRecvQueue =
      e.sock.networkRecvQueue := by
    split
    · rcases handleAppData_cases e with same | ⟨_, _, -, ⟨-, same⟩ | ⟨-, same⟩⟩ <;> rw [same]
    · rfl
  have before : (if ev.appData then handleAppData e else e).ctx.finSent = e.ctx.finSent := by
    split
    · exact handleAppData_finSent e
    · rfl
  unfold controlLoopIteration
  generalize (if ev.appData then handleAppData e else e) = e₁ at queue before
  dsimp only
  split
  · next rest _ head =>
      rw [← queue, head] at noError
      exact absurd List.mem_cons_self noError
  · next p rest _ head =>
      have acks := (handlePacket_onlyAcks p rest e₁).finSent.trans before
      split
      · exact ⟨fun _ => handleClose_finSent _, fun _ => handleClose_finSent _⟩
      · next notAsked => exact ⟨fun asked => absurd asked notAsked, fun sent => acks.trans sent⟩
  · split
    · exact ⟨fun _ => handleClose_finSent _, fun _ => handleClose_finSent _⟩
    · next notAsked => exact ⟨fun asked => absurd asked notAsked, fun sent => before.trans sent⟩

theorem Remembers.input {e e' : Endpoint} {i : Input} (remembers : Remembers e) (sound : Sound e)
    (noError : none ∉ e.sock.networkRecvQueue) (step : e.input i = some e')
    (accepted : e'.phase ≠ .refused) (orderly : i = .close → e.opened) : Remembers e' := by
  obtain ⟨early, pending⟩ := remembers
  -- a close request that is neither new nor reported stays where it was
  have still (phase : e'.phase = e.phase) (closed : e'.hist.closed = e.hist.closed)
      (requested : e'.sock.closeRequested = e.sock.closeRequested)
      (finSent : e'.ctx.finSent = e.ctx.finSent) : Remembers e' := by
    refine ⟨?_, ?_⟩
    · rw [Endpoint.opened, phase, closed]
      exact early
    · rw [closed, requested, finSent]
      exact pending
  have handshake (before : ¬ e.opened) (closed : e'.hist.closed = e.hist.closed) :
      Remembers e' := by
    have notClosed := closed.trans (early before)
    exact ⟨fun _ => notClosed, fun asked => absurd (asked.symm.trans notClosed) (by decide)⟩
  cases i with
  | write buf =>
      simp only [Endpoint.input, Endpoint.write] at step
      split at step <;> cases step
      exact still rfl rfl rfl rfl
  | close =>
      have opened := orderly rfl
      simp only [Endpoint.input, Endpoint.close] at step
      split at step <;> cases step
      exact ⟨fun notOpened => absurd opened notOpened, fun _ => .inl rfl⟩
  | read bufLen =>
      simp only [Endpoint.input, Endpoint.read, Option.map_eq_some_iff] at step
      obtain ⟨⟨chunk, sock⟩, read, rfl⟩ := step
      exact still rfl rfl (myread_frame read).2.1 rfl
  | arrive p =>
      cases step
      exact still rfl rfl rfl rfl
  | readError =>
      cases step
      exact still rfl rfl rfl rfl
  | wake =>
      cases e.wake_cases step with
      | refused refused => exact absurd refused accepted
      | syn phase active => exact handshake (by simp [Endpoint.opened, phase]) rfl
      | listen phase passive => exact handshake (by simp [Endpoint.opened, phase]) rfl
      | synAck phase head asked flag acked => exact handshake (by simp [Endpoint.opened, phase]) rfl
      | synRead phase head asked => exact handshake (by simp [Endpoint.opened, phase]) rfl
      | ackRead phase head asked flag acked =>
          exact handshake (by simp [Endpoint.opened, phase]) rfl
      | @iteration ev sock phase running waited =>
          obtain ⟨-, -, -, rfl⟩ := stcpWaitForEvent_spec waited
          have frame := controlLoopIteration_frame ev { e with
            sock.closeRequested := e.sock.closeRequested && !ev.appCloseRequested }
          have closes := @controlLoopIteration_closes ev { e with
            sock.closeRequested := e.sock.closeRequested && !ev.appCloseRequested } noError
          refine ⟨fun notOpened => absurd (.inl (frame.phase.trans phase)) notOpened, ?_⟩
          intro closed
          rcases pending (frame.closed.symm.trans closed) with requested | sent
          · rcases Bool.eq_false_or_eq_true ev.appCloseRequested with asked | notAsked
            · exact .inr (closes.1 asked)
            · refine .inl (frame.closeRequested.trans ?_)
              simp [requested, notAsked]
          · exact .inr (closes.2 sent)
      | exit phase done =>
          have finSent := (sound.closing.ended done).finSent
          exact ⟨fun notOpened => absurd (.inr rfl) notOpened, fun _ => .inr finSent⟩

theorem Greeted.input {e e' : Endpoint} {i : Input} (greeted : Greeted e) (sound : Sound e)
    (step : e.input i = some e') (accepted : e'.phase ≠ .refused) : Greeted e' := by
  by_cases wakes : i = .wake
  · subst wakes
    have path := sound.sender.path
    cases e.wake_cases step with
    | refused refused => exact absurd refused accepted
    | syn phase active =>
        have silent : e.said = .silent := by simp only [Endpoint.said, phase]
        obtain ⟨empty, -⟩ := received_of_silent path silent
        intro _
        simp [sendSyn, sendPacket, empty, Packet.span]
    | synRead phase head asked =>
        have silent : e.said = .silent := by simp only [Endpoint.said, phase]
        obtain ⟨empty, -⟩ := received_of_silent path silent
        intro _
        simp [Endpoint.acceptSyn, Endpoint.take, empty, Packet.span]
    | @iteration ev sock phase running waited =>
        have frame := controlLoopIteration_frame ev { e with sock := sock }
        intro waits
        rw [frame.phase] at waits
        simp [phase] at waits
    | listen phase passive => intro waits; simp at waits
    | synAck phase head asked flag acked => intro waits; simp [Endpoint.acceptSynAck] at waits
    | ackRead phase head asked flag acked => intro waits; simp [Endpoint.acceptAck] at waits
    | exit phase done => intro waits; simp [threadExit, enqueueForApp] at waits
  · obtain ⟨-, phase, sent, -⟩ := e.input_frame step wakes
    rw [Greeted, phase, sent]
    exact greeted

/-! ## The handshake is never refused -/

theorem handshakeStage_head {act : Packet → Endpoint → Endpoint} {e : Endpoint} {p : Packet}
    {rest : List (Option Packet)} (head : e.sock.networkRecvQueue = some p :: rest)
    (notAsked : e.sock.closeRequested = false) :
    handshakeStage act e = some (act p (e.take p rest false)) := by
  simp [handshakeStage, stcpWaitForEvent, networkEvent, head, notAsked, Endpoint.take]

theorem handshakeStage_empty {act : Packet → Endpoint → Endpoint} {e : Endpoint}
    (empty : e.sock.networkRecvQueue = []) (notAsked : e.sock.closeRequested = false) :
    handshakeStage act e = none := by
  simp [handshakeStage, stcpWaitForEvent, networkEvent, empty, notAsked]

/-- Both directions, prompt and remembered. -/
structure System.Prompt (s : System) : Prop where
  connected : s.Connected
  accepted : ∀ side, (s.endpoint side).phase ≠ .refused
  window : ∀ side, (s.endpoint side).ctx.recvWindowSize = receiverWindowSize
  greeted : ∀ side, Greeted (s.endpoint side)
  remembers : ∀ side, Remembers (s.endpoint side)
  heeds : ∀ side, Heeds (s.endpoint side.other).hist.sent
    (spanOf (s.endpoint side.other).hist.received) (s.endpoint side)

theorem System.init_prompt (initialSequenceNum : Side → TcpSeq) :
    (System.init initialSequenceNum).Prompt where
  connected := System.init_connected initialSequenceNum
  accepted _ := by simp [System.init, Endpoint.init]
  window _ := rfl
  greeted side waits := by cases side <;> simp [System.init, Endpoint.init] at waits
  remembers _ := ⟨fun _ => rfl, fun closed => by cases closed⟩
  heeds _ := ⟨0, [], rfl, .nil 0, .nil 0, fun waiting => by cases waiting⟩

/-- A side has read no more than its peer has said. -/
theorem System.Connected.span_le {s : System} (connected : s.Connected) (side : Side) :
    spanOf (s.endpoint side.other).hist.received ≤ spanOf (s.endpoint side).hist.sent := by
  have sent := (connected.fifo side.other).sent_eq
  rw [Side.other_other] at sent
  rw [sent, spanOf_append]
  omega

theorem Remembers.notAsked {e : Endpoint} (remembers : Remembers e) (sound : Sound e)
    (early : ¬ e.opened) : e.sock.closeRequested = false := by
  by_contra asked
  have closed := sound.sender.asked (Bool.not_eq_false _ ▸ asked)
  exact absurd (closed.symm.trans (remembers.early early)) (by decide)

/-- The direction towards `side`, as `side` reads it. -/
theorem System.Connected.direction {s : System} (connected : s.Connected) (side : Side) :
    ∃ c, Path (Advances (!(s.endpoint side).isActive))
      ⟨(s.endpoint side.other).ctx.initialSequenceNum, .silent⟩
      (s.endpoint side.other).hist.sent c := by
  have peer : (!(s.endpoint side).isActive) = (s.endpoint side.other).isActive := by
    rw [connected.role, connected.role]
    cases side <;> rfl
  rw [peer]
  exact ⟨_, (connected.sound side.other).sender.path⟩

/-- The packet that a side waits for in the handshake acknowledges its SYN. -/
theorem System.Prompt.answered {s : System} (prompt : s.Prompt) {side : Side} {p : Packet}
    {rest : List (Option Packet)}
    (waits : (s.endpoint side).phase = .awaitSynAck ∨ (s.endpoint side).phase = .awaitAck)
    (head : (s.endpoint side).sock.networkRecvQueue = some p :: rest)
    (flag : p.has thAckFlag = true) : p.thAck = (s.endpoint side).ctx.sequenceNum := by
  obtain ⟨k, flying, whole, -, ahead, -⟩ := prompt.heeds side
  obtain ⟨later, rfl⟩ := next_of_inbox (prompt.connected.fifo side).inbox head whole
  obtain ⟨k', edge, ahead⟩ := Path.cons_iff.mp ahead
  have one := prompt.greeted side waits
  have bound := prompt.connected.span_le side
  have forward := Covers.forward_path ahead
  have positive := edge.greeted flag
  obtain rfl : k' = spanOf (s.endpoint side).hist.sent := by omega
  rw [edge.acks.acked flag]
  exact (seq_of_path (prompt.connected.sound side).sender.path).symm

/-- What stands at the head of a queue, in the direction it came from. -/
theorem System.Prompt.head_edge {s : System} (prompt : s.Prompt) {side : Side} {p : Packet}
    {rest : List (Option Packet)}
    (head : (s.endpoint side).sock.networkRecvQueue = some p :: rest) :
    ∃ c c', Advances (!(s.endpoint side).isActive) c p c' ∧ c.stage = (s.endpoint side).heard := by
  obtain ⟨k, flying, whole, -⟩ := prompt.heeds side
  obtain ⟨later, rfl⟩ := next_of_inbox (prompt.connected.fifo side).inbox head whole
  obtain ⟨last, direction⟩ := prompt.connected.direction side
  rw [whole, Path.append_iff] at direction
  obtain ⟨c, before, onward⟩ := direction
  obtain ⟨c', edge, -⟩ := Path.cons_iff.mp onward
  exact ⟨c, c', edge,
    ((prompt.connected.sound side).receiver.inOrder _ c before).stage⟩

/-- A handshake stage that finds a packet it accepts goes on. -/
theorem handshakeStage_accepted {act : Packet → Endpoint → Endpoint} {e e' : Endpoint}
    (noError : none ∉ e.sock.networkRecvQueue) (notAsked : e.sock.closeRequested = false)
    (accepts : ∀ p rest, e.sock.networkRecvQueue = some p :: rest →
      (act p (e.take p rest false)).phase ≠ .refused)
    (step : handshakeStage act e = some e') : e'.phase ≠ .refused := by
  cases queue : e.sock.networkRecvQueue with
  | nil =>
      rw [handshakeStage_empty queue notAsked] at step
      cases step
  | cons node rest =>
      cases node with
      | none =>
          rw [queue] at noError
          exact absurd List.mem_cons_self noError
      | some p =>
          rw [handshakeStage_head queue notAsked] at step
          cases step
          exact accepts p rest queue

theorem System.Prompt.wake_accepted {s : System} (prompt : s.Prompt) {side : Side}
    {e' : Endpoint} (step : (s.endpoint side).wake = some e') : e'.phase ≠ .refused := by
  have sound := prompt.connected.sound side
  have noError := (prompt.connected.fifo side).noError
  have notAsked := (prompt.remembers side).notAsked sound
  cases phase : (s.endpoint side).phase with
  | start =>
      simp only [Endpoint.wake, phase] at step
      cases step
      split <;> simp [sendSyn]
  | awaitSynAck =>
      simp only [Endpoint.wake, phase] at step
      refine handshakeStage_accepted noError (notAsked (by simp [Endpoint.opened, phase])) ?_ step
      intro p rest head
      obtain ⟨c, c', edge, stage⟩ := prompt.head_edge head
      have active : (s.endpoint side).isActive = true := by
        simpa only [Endpoint.RoleFits, phase] using sound.sender.role
      have heard : (s.endpoint side).heard = .silent := by simp only [Endpoint.heard, phase]
      have syn : p.has thSyn = true := edge.syn.trans (by simp [stage, heard])
      have flag : p.has thAckFlag = true := edge.ack (.inl (by simp [active]))
      rw [onSynAck, if_pos ⟨syn, flag, prompt.answered (.inl phase) head flag⟩]
      simp
  | awaitSyn =>
      simp only [Endpoint.wake, phase] at step
      refine handshakeStage_accepted noError (notAsked (by simp [Endpoint.opened, phase])) ?_ step
      intro p rest head
      obtain ⟨c, c', edge, stage⟩ := prompt.head_edge head
      have heard : (s.endpoint side).heard = .silent := by simp only [Endpoint.heard, phase]
      have syn : p.has thSyn = true := edge.syn.trans (by simp [stage, heard])
      rw [onSyn, if_pos syn]
      simp
  | awaitAck =>
      simp only [Endpoint.wake, phase] at step
      refine handshakeStage_accepted noError (notAsked (by simp [Endpoint.opened, phase])) ?_ step
      intro p rest head
      obtain ⟨c, c', edge, stage⟩ := prompt.head_edge head
      have heard : (s.endpoint side).heard = .greeted := by simp only [Endpoint.heard, phase]
      have flag : p.has thAckFlag = true := edge.ack (.inr (by simp [stage, heard]))
      rw [onAck, if_pos ⟨flag, prompt.answered (.inr phase) head flag⟩]
      simp
  | controlLoop =>
      intro refused
      cases running : (s.endpoint side).ctx.done with
      | false =>
          obtain ⟨ev, sock, -, rfl⟩ := Endpoint.wake_running step phase running
          rw [(controlLoopIteration_frame ev _).phase] at refused
          exact absurd (phase.symm.trans refused) (by decide)
      | true =>
          rw [Endpoint.wake_done step phase running] at refused
          cases refused
  | refused =>
      simp only [Endpoint.wake, phase] at step
      cases step
  | exited =>
      simp only [Endpoint.wake, phase] at step
      cases step

/-- An application closes only what it has been given. -/
def System.Orderly (s : System) : Action → Prop
  | .close side => (s.endpoint side).opened
  | _ => True

/-- A run in which every close is orderly. -/
def System.OrderlyRun (start : System) (actions : List Action) (s : System) : Prop :=
  Path (fun s a t => s.step a = some t ∧ s.Orderly a) start actions s

/-- The input behind a step, and the close among them. -/
theorem System.step_input {s s' : System} {a : Action} (step : s.step a = some s') :
    ∃ side i e, (s.endpoint side).input i = some e ∧
      s'.endpoint = Function.update s.endpoint side e ∧ (i = .close → a = .close side) := by
  cases a with
  | deliver side =>
      simp only [System.step] at step
      split at step
      · cases step
      · obtain ⟨middle, acted, rfl⟩ := Option.map_eq_some_iff.mp step
        obtain ⟨e, input, rfl⟩ := Option.map_eq_some_iff.mp acted
        exact ⟨side, _, e, input, rfl, fun closes => by cases closes⟩
  | write side buf =>
      obtain ⟨e, input, rfl⟩ := Option.map_eq_some_iff.mp step
      exact ⟨side, _, e, input, rfl, fun closes => by cases closes⟩
  | close side =>
      obtain ⟨e, input, rfl⟩ := Option.map_eq_some_iff.mp step
      exact ⟨side, _, e, input, rfl, fun _ => rfl⟩
  | read side bufLen =>
      obtain ⟨e, input, rfl⟩ := Option.map_eq_some_iff.mp step
      exact ⟨side, _, e, input, rfl, fun closes => by cases closes⟩
  | wake side =>
      obtain ⟨e, input, rfl⟩ := Option.map_eq_some_iff.mp step
      exact ⟨side, _, e, input, rfl, fun closes => by cases closes⟩

/-- An orderly step keeps it all, and refuses nothing. -/
theorem System.Prompt.step {s s' : System} {a : Action} (prompt : s.Prompt)
    (step : s.step a = some s') (orderly : s.Orderly a) : s'.Prompt := by
  obtain ⟨side, i, e, input, updated, closes⟩ := System.step_input step
  have self : s'.endpoint side = e := by rw [updated, Function.update_self]
  have peer : s'.endpoint side.other = s.endpoint side.other := by
    rw [updated, Function.update_of_ne side.other_ne]
  have accepted : e.phase ≠ .refused := by
    by_cases wakes : i = .wake
    · subst wakes
      exact prompt.wake_accepted input
    · obtain ⟨-, phase, -⟩ := Endpoint.input_frame input wakes
      rw [phase]
      exact prompt.accepted side
  -- what holds of each side by itself
  have both {motive : Endpoint → Prop} (before : ∀ side, motive (s.endpoint side))
      (after : motive e) (side' : Side) : motive (s'.endpoint side') := by
    rw [updated]
    by_cases same : side' = side
    · subst same
      rw [Function.update_self]
      exact after
    · rw [Function.update_of_ne same]
      exact before side'
  have accepts := both (motive := fun e => e.phase ≠ .refused) prompt.accepted accepted
  have connected : s'.Connected := by
    rcases System.Inv.step (.inr prompt.connected) step with ⟨failed, refused⟩ | connected
    · exact absurd refused (accepts failed)
    · exact connected
  have sound := prompt.connected.sound side
  have fifo := prompt.connected.fifo side
  obtain ⟨window, base⟩ := Endpoint.input_constants input accepted
  have replies : Replies (s.endpoint side) e := by
    have after := (connected.sound side).receiver
    rw [self] at after
    exact Endpoint.input_replies sound after (prompt.window side) input accepted
  refine ⟨connected, accepts,
    both (motive := fun e => e.ctx.recvWindowSize = receiverWindowSize) prompt.window
      (window.trans (prompt.window side)),
    both prompt.greeted ((prompt.greeted side).input sound input accepted),
    both prompt.remembers ((prompt.remembers side).input sound fifo.noError input accepted
      fun isClose => ?_), ?_⟩
  · rw [closes isClose] at orderly
    exact orderly
  · intro side'
    by_cases same : side' = side
    · subst same
      obtain ⟨c, direction⟩ := prompt.connected.direction side'
      rw [self, peer]
      exact (prompt.heeds side').input sound fifo.inbox (prompt.connected.span_le side') direction
        input accepted
    · have other : side' = side.other := by
        cases side <;> cases side' <;> first | rfl | exact absurd rfl same
      subst other
      obtain ⟨k, flying, whole, known, ahead, behind⟩ := prompt.heeds side.other
      rw [Side.other_other] at whole ahead ⊢
      obtain ⟨new, sent, covers⟩ := replies.sent
      obtain ⟨c, path, -⟩ := connected.position side.other
      rw [Side.other_other, self, peer] at path
      rw [self, peer]
      refine ⟨k, flying ++ new, ?_, known, ?_, behind⟩
      · rw [sent, whole, List.append_assoc]
      · exact Path.append_iff.mpr ⟨_, ahead, covers _ c path⟩

theorem System.Prompt.run {s s' : System} {actions : List Action} (prompt : s.Prompt)
    (run : s.OrderlyRun actions s') : s'.Prompt :=
  Path.invariant (fun _ _ _ edge prompt => prompt.step edge.1 edge.2) run prompt

/-- However the two sides are scheduled and whatever they write: if applications
close only what they have been given, no side ever refuses the connection. -/
theorem handshake_never_refused {initialSequenceNum : Side → TcpSeq} {actions : List Action}
    {s : System} (run : (System.init initialSequenceNum).OrderlyRun actions s) : ¬ s.Refused := by
  rintro ⟨side, refused⟩
  exact ((System.init_prompt initialSequenceNum).run run).accepted side refused

instance (e : Endpoint) : Decidable e.opened :=
  inferInstanceAs (Decidable (e.phase = .controlLoop ∨ e.phase = .exited))

instance (s : System) : (a : Action) → Decidable (s.Orderly a)
  | .close side => inferInstanceAs (Decidable (s.endpoint side).opened)
  | .write _ _ | .read _ _ | .wake _ | .deliver _ => isTrue trivial

/-- A step that is refused where it is not orderly. -/
def System.orderlyStep (s : System) (a : Action) : Option System :=
  if s.Orderly a then s.step a else none

theorem System.OrderlyRun.of_follow {s s' : System} {actions : List Action}
    (ran : follow System.orderlyStep s actions = some s') : s.OrderlyRun actions s' := by
  refine (Path.of_follow ran).mono fun s a t step => ?_
  unfold System.orderlyStep at step
  split at step
  · next orderly => exact ⟨step, orderly⟩
  · cases step

/-- The short transfer closes both sides, and both were open. -/
theorem handshake_never_refused_shortTransfer :
    ∃ s, (System.init fun _ => 0xffffffff).OrderlyRun shortTransfer s ∧
      (∀ side, (s.endpoint side).hist.closed = true) ∧ ¬ s.Refused := by
  have ran : ((follow System.orderlyStep (System.init fun _ => 0xffffffff) shortTransfer).map
      fun s => ((s.endpoint .active).hist.closed, (s.endpoint .passive).hist.closed)) =
        some (true, true) := by
    decide +kernel
  obtain ⟨s, run, state⟩ := Option.map_eq_some_iff.mp ran
  simp only [Prod.mk.injEq] at state
  refine ⟨s, .of_follow run, fun side => ?_, handshake_never_refused (.of_follow run)⟩
  cases side
  · exact state.1
  · exact state.2

/-! ## When nothing is left to do -/

/-- No thread has anything to do, and no packet is on its way. -/
def System.Quiet (s : System) : Prop :=
  ∀ side, s.step (.wake side) = none ∧ s.step (.deliver side) = none

/-- Behind the FIN nothing takes up sequence numbers. -/
theorem span_of_finished {fromActive : Bool} {packets : List Packet} {c c' : Cursor}
    (path : Path (Advances fromActive) c packets c') (finished : c.stage = .finished) :
    spanOf packets = 0 ∧ c'.stage = .finished := by
  induction path with
  | nil _ => exact ⟨rfl, finished⟩
  | @cons c middle c' p packets edge _ ih =>
      have bare := edge.bare (by rw [finished]; decide)
      have noSyn := edge.noSyn (by rw [finished]; decide)
      obtain ⟨span, stays⟩ := ih (by rw [edge.next, finished]; rfl)
      refine ⟨?_, stays⟩
      rw [List.singleton_append.symm, spanOf_append, spanOf_singleton, span]
      simp [Packet.span, noSyn, bare]

theorem System.quiet_wake {s : System} (quiet : s.Quiet) (side : Side) :
    (s.endpoint side).wake = none :=
  Option.map_eq_none_iff.mp (quiet side).1

/-- Where a thread stands that has nothing to do. -/
inductive Idle (e : Endpoint) : Prop
  | greeting (waits : e.phase = .awaitSynAck ∨ e.phase = .awaitSyn ∨ e.phase = .awaitAck)
      (empty : e.sock.networkRecvQueue = [])
  | looping (phase : e.phase = .controlLoop) (running : e.ctx.done = false)
      (empty : e.sock.networkRecvQueue = []) (written : e.sock.appRecvQueue = [])
      (notAsked : e.sock.closeRequested = false)
  | exited (phase : e.phase = .exited)

theorem handshakeStage_none {act : Packet → Endpoint → Endpoint} {e : Endpoint}
    (asleep : handshakeStage act e = none) : e.sock.networkRecvQueue = [] := by
  unfold handshakeStage at asleep
  split at asleep
  · next waited =>
      unfold stcpWaitForEvent at waited
      dsimp only at waited
      split at waited
      · cases waited
      · next nothing =>
          by_contra some
          simp [networkEvent, some] at nothing
  · dsimp only at asleep
    split at asleep <;> cases asleep

theorem Endpoint.idle_of_asleep {e : Endpoint} (accepted : e.phase ≠ .refused)
    (asleep : e.wake = none) : Idle e := by
  cases phase : e.phase with
  | start =>
      simp only [Endpoint.wake, phase] at asleep
      cases asleep
  | awaitSynAck =>
      simp only [Endpoint.wake, phase] at asleep
      exact .greeting (.inl phase) (handshakeStage_none asleep)
  | awaitSyn =>
      simp only [Endpoint.wake, phase] at asleep
      exact .greeting (.inr (.inl phase)) (handshakeStage_none asleep)
  | awaitAck =>
      simp only [Endpoint.wake, phase] at asleep
      exact .greeting (.inr (.inr phase)) (handshakeStage_none asleep)
  | controlLoop =>
      simp only [Endpoint.wake, phase] at asleep
      split at asleep
      · cases asleep
      · next running =>
          split at asleep
          · next waited =>
              unfold stcpWaitForEvent at waited
              dsimp only at waited
              split at waited
              · cases waited
              · next nothing =>
                  simp only [anyEvent, Bool.true_and, Bool.or_eq_true, not_or,
                    Bool.not_eq_true, Bool.not_eq_false', Bool.and_eq_false_iff,
                    List.isEmpty_iff] at nothing
                  obtain ⟨⟨written, empty⟩, closing⟩ := nothing
                  refine .looping phase (Bool.not_eq_true _ ▸ running) empty written ?_
                  simpa [written] using closing
          · cases asleep
  | refused => exact absurd phase accepted
  | exited => exact .exited phase

/-- A thread ends only when both directions are closed. -/
theorem Sound.exited {e : Endpoint} (sound : Sound e) (exited : e.phase = .exited) :
    e.ctx.FullyClosed := by
  refine sound.closing.ended ?_
  by_contra running
  have looping := (sound.closing.table (.inr exited)).looping (Bool.not_eq_true _ ▸ running)
  exact absurd (exited.symm.trans looping) (by decide)

section Quiet

variable {s : System}

theorem System.channel_empty (quiet : s.Quiet) (side : Side) :
    (s.endpoint side.other).hist.sent.drop (s.arrived side) = [] := by
  have arrived := (quiet side).2
  simp only [System.step] at arrived
  split at arrived
  · next nothing =>
      rw [List.drop_eq_nil_iff]
      exact List.getElem?_eq_none_iff.mp nothing
  · simp [System.act, Endpoint.input] at arrived

/-- Of an idle side everything has been read, unless it has exited. -/
theorem System.inFlight_quiet (quiet : s.Quiet) {side : Side}
    (empty : (s.endpoint side).sock.networkRecvQueue = []) : s.inFlight side = [] := by
  rw [System.inFlight, empty, System.channel_empty quiet side]
  rfl

/-- What a side has heard is what its peer has said, and takes up the same numbers. -/
theorem System.Prompt.heard_eq (prompt : s.Prompt) (quiet : s.Quiet) (side : Side) :
    (s.endpoint side).heard = (s.endpoint side.other).said ∧
      spanOf (s.endpoint side).hist.received = spanOf (s.endpoint side.other).hist.sent ∧
      payload (s.inFlight side) = [] := by
  have idle := Endpoint.idle_of_asleep (prompt.accepted side) (System.quiet_wake quiet side)
  have sent := (prompt.connected.fifo side).sent_eq
  obtain ⟨c, -, inOrder, flying⟩ := prompt.connected.position side.other
  rw [Side.other_other] at inOrder flying
  have nothing (empty : (s.endpoint side).sock.networkRecvQueue = []) :
      (s.endpoint side).heard = (s.endpoint side.other).said ∧
        spanOf (s.endpoint side).hist.received = spanOf (s.endpoint side.other).hist.sent ∧
        payload (s.inFlight side) = [] := by
    have none := System.inFlight_quiet quiet empty
    rw [none, Path.nil_iff] at flying
    refine ⟨?_, ?_, by rw [none]; rfl⟩
    · rw [← inOrder.stage, ← flying]
    · rw [sent, none, List.append_nil]
  cases idle with
  | greeting _ empty => exact nothing empty
  | looping _ _ empty _ _ => exact nothing empty
  | exited phase =>
      have closed := (prompt.connected.sound side).exited phase
      have heard : (s.endpoint side).heard = .finished := by
        simp only [Endpoint.heard, phase, closed.finReceived, Stage.afterFin]
      have finished : c.stage = .finished := inOrder.stage.trans heard
      obtain ⟨span, stays⟩ := span_of_finished flying finished
      refine ⟨heard.trans stays.symm, ?_, payload_of_finished flying finished⟩
      rw [sent, spanOf_append, span, Nat.add_zero]

theorem Stage.afterFin_greeted (fin : Bool) :
    Stage.afterFin fin ≠ .silent ∧ Stage.afterFin fin ≠ .greeted := by
  cases fin <;> decide

/-- The handshake is over: a side that still waits in it would have heard less
than its peer has said. -/
theorem System.Prompt.opened_of_quiet (prompt : s.Prompt) (quiet : s.Quiet) (side : Side) :
    (s.endpoint side).opened := by
  have place side : ((s.endpoint side).phase = .awaitSynAck ∨
      (s.endpoint side).phase = .awaitSyn ∨ (s.endpoint side).phase = .awaitAck) ∨
        (s.endpoint side).opened := by
    cases Endpoint.idle_of_asleep (prompt.accepted side) (System.quiet_wake quiet side) with
    | greeting waits _ => exact .inl waits
    | looping phase _ _ _ _ => exact .inr (.inl phase)
    | exited phase => exact .inr (.inr phase)
  have towardActive := (prompt.heard_eq quiet .active).1
  have towardPassive := (prompt.heard_eq quiet .passive).1
  have asActive := (prompt.connected.sound .active).sender.role
  have asPassive := (prompt.connected.sound .passive).sender.role
  simp only [Side.other, Endpoint.heard, Endpoint.said] at towardActive towardPassive
  simp only [Endpoint.RoleFits, prompt.connected.role] at asActive asPassive
  have opened : (s.endpoint .active).opened ∧ (s.endpoint .passive).opened := by
    rcases place .active with (a | a | a) | (a | a) <;>
      rcases place .passive with (b | b | b) | (b | b) <;>
      simp only [a, b, reduceCtorEq, decide_true, Bool.true_eq_false,
        (Stage.afterFin_greeted _).1, (Stage.afterFin_greeted _).2,
        (Stage.afterFin_greeted _).1.symm, (Stage.afterFin_greeted _).2.symm]
        at towardActive towardPassive asActive asPassive <;>
      simp [Endpoint.opened, a, b]
  cases side
  · exact opened.1
  · exact opened.2

/-- Nothing waits to be sent, and a close that was asked for has been carried out. -/
theorem System.Prompt.drained_of_quiet (prompt : s.Prompt) (quiet : s.Quiet) (side : Side) :
    (s.endpoint side).sock.appRecvQueue = [] ∧
      ((s.endpoint side).hist.closed = true → (s.endpoint side).ctx.finSent = true) := by
  have sound := prompt.connected.sound side
  cases Endpoint.idle_of_asleep (prompt.accepted side) (System.quiet_wake quiet side) with
  | greeting waits _ =>
      have opened := prompt.opened_of_quiet quiet side
      rcases waits with phase | phase | phase <;> simp [Endpoint.opened, phase] at opened
  | looping phase running _ written notAsked =>
      refine ⟨written, fun closed => ?_⟩
      rcases (prompt.remembers side).pending closed with asked | sent
      · exact absurd (asked.symm.trans notAsked) (by decide)
      · exact sent
  | exited phase =>
      have closed := sound.exited phase
      exact ⟨(sound.sender.drained closed.finSent).1, fun _ => closed.finSent⟩

/-- A FIN that was sent has been read. -/
theorem System.Prompt.finReceived_of_quiet (prompt : s.Prompt) (quiet : s.Quiet) {side : Side}
    (finSent : (s.endpoint side).ctx.finSent = true) :
    (s.endpoint side.other).ctx.finReceived = true := by
  have heard := (prompt.heard_eq quiet side.other).1
  rw [Side.other_other] at heard
  have opened := prompt.opened_of_quiet quiet side
  have opened' := prompt.opened_of_quiet quiet side.other
  by_contra notReceived
  rw [Bool.not_eq_true] at notReceived
  rcases opened with phase | phase <;> rcases opened' with phase' | phase' <;>
    simp [Endpoint.heard, Endpoint.said, phase, phase', finSent, notReceived, Stage.afterFin]
      at heard

/-- When both directions are closed, no loop goes on: it would wait for an
acknowledgement that it has read. -/
theorem System.Prompt.exited_of_quiet (prompt : s.Prompt) (quiet : s.Quiet) {side : Side}
    (finSent : (s.endpoint side).ctx.finSent = true)
    (finReceived : (s.endpoint side).ctx.finReceived = true) :
    (s.endpoint side).phase = .exited := by
  have opened := prompt.opened_of_quiet quiet side
  cases Endpoint.idle_of_asleep (prompt.accepted side) (System.quiet_wake quiet side) with
  | greeting waits _ =>
      rcases waits with phase | phase | phase <;> simp [Endpoint.opened, phase] at opened
  | exited phase => exact phase
  | looping phase running empty _ _ =>
      have table := ((prompt.connected.sound side).closing.table opened).table running
      have waiting : (s.endpoint side).ctx.awaitsAck = true := by
        have sent := table.finSent.symm.trans finSent
        have received := table.finReceived.symm.trans finReceived
        cases state : (s.endpoint side).ctx.connectionState <;> rw [state] at sent received <;>
          simp [CState.finIsSent, CState.finIsReceived] at sent received <;>
          simp [Ctx.awaitsAck, running, state]
      obtain ⟨k, flying, whole, -, ahead, behind⟩ := prompt.heeds side
      have nothing : flying = [] := by
        have sent := (prompt.connected.fifo side).sent_eq
        rw [System.inFlight_quiet quiet empty, List.append_nil] at sent
        rw [sent] at whole
        exact List.append_right_eq_self.mp whole.symm
      rw [nothing, Path.nil_iff] at ahead
      have late := behind waiting
      have read := (prompt.heard_eq quiet side.other).2.1
      rw [Side.other_other] at read
      omega

end Quiet

/-- The handshake is over, every byte that was written has been handed to the
other application, and behind the bytes of a side that has closed there is an end
of file.  Both threads have exited if and only if both applications have closed. -/
structure System.Settled (s : System) : Prop where
  opened : ∀ side, (s.endpoint side).opened
  delivered : ∀ side,
    (s.endpoint side.other).hist.delivered.flatten = (s.endpoint side).hist.written
  ended : ∀ side, (s.endpoint side).hist.closed = true →
    [] ∈ (s.endpoint side.other).hist.delivered
  exited : (∀ side, (s.endpoint side).phase = .exited) ↔
    ∀ side, (s.endpoint side).hist.closed = true

theorem System.Prompt.settled {s : System} (prompt : s.Prompt) (quiet : s.Quiet) :
    s.Settled := by
  have drained := prompt.drained_of_quiet quiet
  have finished side (closed : (s.endpoint side).hist.closed = true) :=
    prompt.finReceived_of_quiet quiet ((drained side).2 closed)
  refine ⟨prompt.opened_of_quiet quiet, fun side => ?_, fun side closed => ?_,
    fun exited side => ?_, fun closed side => ?_⟩
  · have accounts := prompt.connected.accounts side
    have payload := (prompt.heard_eq quiet side.other).2.2
    rw [payload, (drained side).1] at accounts
    simpa using accounts
  · obtain ⟨c, -, inOrder, -⟩ := prompt.connected.position side
    obtain ⟨chunks, markers, delivered⟩ := inOrder.delivered
    have marked := delivered.marked.mpr (finished side closed)
    obtain ⟨marker, rest, rfl⟩ := List.exists_cons_of_ne_nil marked
    rw [delivered.nodes, delivered.endOfFile marker List.mem_cons_self]
    simp
  · have sound := prompt.connected.sound side
    exact (sound.sender.drained (sound.exited (exited side)).finSent).2
  · have received := finished side.other (closed side.other)
    rw [Side.other_other] at received
    exact prompt.exited_of_quiet quiet ((drained side).2 (closed side)) received

/-- In every orderly run: when no thread has anything left to do and nothing is
on its way, nothing is left undone. -/
theorem settled_when_quiet {initialSequenceNum : Side → TcpSeq} {actions : List Action}
    {s : System} (run : (System.init initialSequenceNum).OrderlyRun actions s)
    (quiet : s.Quiet) : s.Settled :=
  ((System.init_prompt initialSequenceNum).run run).settled quiet

/-- When both loops have ended, both threads exit, and nothing is left. -/
theorem settled_when_quiet_shortTransfer :
    ∃ s, (System.init fun _ => 0xffffffff).OrderlyRun
        (shortTransfer ++ [.wake .active, .wake .passive]) s ∧ s.Quiet ∧
      (s.endpoint .passive).hist.delivered.flatten = (s.endpoint .active).hist.written := by
  have ran : ((follow System.orderlyStep (System.init fun _ => 0xffffffff)
      (shortTransfer ++ [.wake .active, .wake .passive])).map fun s =>
        ((s.step (.wake .active)).isNone && (s.step (.deliver .active)).isNone,
          (s.step (.wake .passive)).isNone && (s.step (.deliver .passive)).isNone)) =
      some (true, true) := by
    decide +kernel
  obtain ⟨s, run, state⟩ := Option.map_eq_some_iff.mp ran
  simp only [Prod.mk.injEq, Bool.and_eq_true, Option.isNone_iff_eq_none] at state
  have quiet : s.Quiet := by
    intro side
    cases side
    · exact state.1
    · exact state.2
  exact ⟨s, .of_follow run, quiet, (settled_when_quiet (.of_follow run) quiet).delivered .active⟩

end CompNet.Stcp
