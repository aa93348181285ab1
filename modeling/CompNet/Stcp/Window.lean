import CompNet.Stcp.System

/-!
# The send window

`max_to_send` subtracts `last_byte_sent - last_ack_received` from the peer's
window, but nothing ever moves these two, so the loop only bounds one segment
by the window and not what is in flight.  This module says what does hold:
acknowledgements never go back and every advertised window is the whole
`RECEIVER_WINDOW_SIZE`, so the bytes in flight stay inside the window in every
run in which each segment leaves room for itself.
-/

namespace CompNet.Stcp

open CompNet.Lib

/-! ## What the bound on the window is about -/

/-- `th_ack` of the last packet read that acknowledges anything.  Acknowledgements
never go back (`Acks`), so it is the highest. -/
def Endpoint.highestAck (e : Endpoint) : TcpSeq :=
  match (e.hist.received.filter (·.has thAckFlag)).getLast? with
  | some p => p.thAck
  | none => e.ctx.initialSequenceNum

/-- `th_win` of the last packet read. -/
def Endpoint.advertisedWindow (e : Endpoint) : Nat :=
  match e.hist.received.getLast? with
  | some p => p.thWin.toNat
  | none => 0

/-- Data bytes sent and not yet acknowledged: the distance from the highest
acknowledgement to `sequence_num`, without the FIN when it is among them. -/
def Endpoint.unacknowledged (e : Endpoint) : Nat :=
  let distance := (e.ctx.sequenceNum - e.highestAck).toNat
  if e.ctx.finSent then distance - 1 else distance

/-- The bytes the next iteration would take from the application. -/
def Endpoint.nextChunk (e : Endpoint) : Nat :=
  match e.sock.appRecvQueue with
  | [] => 0
  | node :: _ => min node.length (maxToSend e.ctx)

/-- The next segment leaves room for itself in the window. -/
def Endpoint.HasRoom (e : Endpoint) : Prop :=
  e.unacknowledged + e.nextChunk ≤ e.advertisedWindow

/-- A wake-up of a running loop happens only where there is room. -/
def System.Paced (s : System) : Action → Prop
  | .wake side =>
      (s.endpoint side).phase = .controlLoop → (s.endpoint side).ctx.done = false →
        (s.endpoint side).HasRoom
  | _ => True

instance (e : Endpoint) : Decidable e.HasRoom := Nat.decLe _ _

instance (s : System) : (a : Action) → Decidable (s.Paced a)
  | .wake side =>
      inferInstanceAs (Decidable ((s.endpoint side).phase = .controlLoop →
        (s.endpoint side).ctx.done = false → (s.endpoint side).HasRoom))
  | .write _ _ | .close _ | .read _ _ | .deliver _ => isTrue trivial

/-- A run in which every wake-up is paced. -/
def System.PacedRun (start : System) (actions : List Action) (s : System) : Prop :=
  Path (fun s a t => s.step a = some t ∧ s.Paced a) start actions s

/-! ## Positions as natural numbers -/

/-- The sequence numbers a list of packets takes up. -/
def spanOf (packets : List Packet) : Nat := (packets.map Packet.span).sum

@[simp] theorem spanOf_nil : spanOf [] = 0 := rfl

@[simp] theorem spanOf_append (first second : List Packet) :
    spanOf (first ++ second) = spanOf first + spanOf second := by
  simp [spanOf]

@[simp] theorem spanOf_singleton (p : Packet) : spanOf [p] = p.span := by
  simp [spanOf]

/-- A cursor is the start of its direction plus what has passed. -/
theorem seq_of_path {fromActive : Bool} {packets : List Packet} {c c' : Cursor}
    (path : Path (Advances fromActive) c packets c') :
    c'.seq = c.seq + UInt32.ofNat (spanOf packets) := by
  induction path with
  | nil c => simp
  | @cons c middle c' p packets edge rest ih =>
      have next : middle.seq = c.seq + UInt32.ofNat p.span := by rw [edge.next]
      rw [ih, next, List.singleton_append.symm, spanOf_append, spanOf_singleton, UInt32.ofNat_add,
        UInt32.add_assoc]

/-- `p` acknowledges the positions up to `k'`, where those up to `k` already
were, and advertises the whole window. -/
structure Acks (base : TcpSeq) (k : Nat) (p : Packet) (k' : Nat) : Prop where
  forward : k ≤ k'
  acked : p.has thAckFlag = true → p.thAck = base + UInt32.ofNat k'
  silent : p.has thAckFlag = false → k' = k
  window : p.thWin = receiverWindowSize

theorem Acks.forward_path {base : TcpSeq} {k k' : Nat} {packets : List Packet}
    (path : Path (Acks base) k packets k') : k ≤ k' := by
  induction path with
  | nil k => exact Nat.le_refl k
  | cons edge _ ih => exact Nat.le_trans edge.forward ih

/-- Packets that all acknowledge position `m`. -/
theorem acks_path {base : TcpSeq} {k m : Nat} {packets : List Packet} (le : k ≤ m)
    (tells : ∀ p ∈ packets, p.has thAckFlag = true ∧ p.thAck = base + UInt32.ofNat m ∧
      p.thWin = receiverWindowSize) :
    ∃ k' ≤ m, Path (Acks base) k packets k' := by
  induction packets generalizing k with
  | nil => exact ⟨k, le, .nil k⟩
  | cons p packets ih =>
      obtain ⟨flag, acked, window⟩ := tells p List.mem_cons_self
      have edge : Acks base k p m :=
        ⟨le, fun _ => acked, fun silent => absurd (flag.symm.trans silent) (by decide), window⟩
      obtain ⟨k', le', rest⟩ :=
        ih (Nat.le_refl m) fun q later => tells q (List.mem_cons_of_mem p later)
      exact ⟨k', le', .cons edge rest⟩

/-! ## What an endpoint answers -/

/-- From `e` to `e'` an endpoint read on, and whatever it sent acknowledges no
more than `e'` has read.  The premise is that what it read is a direction. -/
structure Answers (e e' : Endpoint) : Prop where
  received : ∃ more, e'.hist.received = e.hist.received ++ more
  isActive : e'.isActive = e.isActive
  sent : ∃ new, e'.hist.sent = e.hist.sent ++ new ∧
    ∀ base c, Path (Advances (!e'.isActive)) ⟨base, .silent⟩ e'.hist.received c →
      ∀ k ≤ spanOf e.hist.received, ∃ k' ≤ spanOf e'.hist.received, Path (Acks base) k new k'

theorem Answers.of_quiet {e e' : Endpoint} (isActive : e'.isActive = e.isActive)
    (received : ∃ more, e'.hist.received = e.hist.received ++ more)
    (sent : e'.hist.sent = e.hist.sent) : Answers e e' := by
  refine ⟨received, isActive, [], by simp [sent], ?_⟩
  intro base c _ k le
  obtain ⟨more, received⟩ := received
  exact ⟨k, by rw [received, spanOf_append]; omega, .nil k⟩

theorem Answers.refl (e : Endpoint) : Answers e e := .of_quiet rfl ⟨[], by simp⟩ rfl

theorem Answers.trans {e₁ e₂ e₃ : Endpoint} (first : Answers e₁ e₂) (second : Answers e₂ e₃) :
    Answers e₁ e₃ := by
  obtain ⟨more₁, received₁⟩ := first.received
  obtain ⟨more₂, received₂⟩ := second.received
  obtain ⟨new₁, sent₁, acks₁⟩ := first.sent
  obtain ⟨new₂, sent₂, acks₂⟩ := second.sent
  refine ⟨⟨more₁ ++ more₂, ?_⟩, second.isActive.trans first.isActive, new₁ ++ new₂, ?_, ?_⟩
  · rw [received₂, received₁, List.append_assoc]
  · rw [sent₂, sent₁, List.append_assoc]
  · intro base c path k le
    have read := path
    rw [received₂, second.isActive, Path.append_iff] at read
    obtain ⟨middle, front, -⟩ := read
    obtain ⟨k₂, le₂, path₂⟩ := acks₁ base middle front k le
    obtain ⟨k₃, le₃, path₃⟩ := acks₂ base c path k₂ le₂
    exact ⟨k₃, le₃, Path.append_iff.mpr ⟨k₂, path₂, path₃⟩⟩

/-- Packets that say what the context says are proper answers: in order, the
context stands at the end of what has been read. -/
theorem Answers.of_new {e e' : Endpoint} {new : List Packet} (receiver : Receiver e')
    (heard : e'.heard ≠ .silent) (window : e'.ctx.recvWindowSize = receiverWindowSize)
    (isActive : e'.isActive = e.isActive)
    (received : ∃ more, e'.hist.received = e.hist.received ++ more)
    (sent : e'.hist.sent = e.hist.sent ++ new)
    (tells : ∀ p ∈ new, p.has thAckFlag = true ∧ p.thAck = e'.ctx.ackNum ∧
      p.thWin = e'.ctx.recvWindowSize - e'.ctx.recvBufferUsed) : Answers e e' := by
  refine ⟨received, isActive, new, sent, ?_⟩
  intro base c path k le
  have inOrder := receiver.inOrder base c path
  have stands : e'.ctx.ackNum = base + UInt32.ofNat (spanOf e'.hist.received) := by
    rw [inOrder.ackNum (by rw [inOrder.stage]; exact heard), seq_of_path path]
  obtain ⟨more, grown⟩ := received
  apply acks_path
  · rw [grown, spanOf_append]
    omega
  · intro p member
    obtain ⟨flag, acked, win⟩ := tells p member
    exact ⟨flag, acked.trans stands, by rw [win, window, inOrder.bufferEmpty]; rfl⟩

theorem heard_loop_ne_silent {e : Endpoint} (looping : e.phase = .controlLoop) :
    e.heard ≠ .silent := by
  rw [e.heard_loop looping]
  cases e.ctx.finReceived <;> decide

/-- The flag, the acknowledgement and the window of a packet built with `ctx`. -/
theorem buildPacket_tells {ctx : Ctx} {data : Bytes} {flags : UInt8}
    (flag : (flags &&& thAckFlag != 0) = true) :
    (buildPacket ctx data flags).has thAckFlag = true ∧
      (buildPacket ctx data flags).thAck = ctx.ackNum ∧
      (buildPacket ctx data flags).thWin = ctx.recvWindowSize - ctx.recvBufferUsed :=
  ⟨flag, rfl, rfl⟩

/-- An iteration answers properly. -/
theorem LoopReceiver.answers (ev : Event) {e : Endpoint} (receiver : LoopReceiver e)
    (window : e.ctx.recvWindowSize = receiverWindowSize) :
    Answers e (controlLoopIteration ev e) := by
  have keeps : LoopReceiver (controlLoopIteration ev e) ∧
      (controlLoopIteration ev e).ctx.recvWindowSize = receiverWindowSize ∧
      Answers e (controlLoopIteration ev e) := by
    apply controlLoopIteration_keeps (motive := fun e' => LoopReceiver e' ∧
      e'.ctx.recvWindowSize = receiverWindowSize ∧ Answers e e')
    · exact ⟨receiver, window, .refl e⟩
    · have after := receiver.handleAppData
      refine ⟨after, (handleAppData_frame e).recvWindowSize.trans window, ?_⟩
      rcases handleAppData_cases e with same | ⟨chunk, rest, -, ⟨-, same⟩ | ⟨-, same⟩⟩
      · rw [same]
        exact .refl e
      · rw [same]
        exact .of_quiet rfl ⟨[], by simp⟩ rfl
      · have looping := heard_loop_ne_silent after.1
        rw [same] at after looping ⊢
        refine .of_new after.2 looping window rfl ⟨[], by simp⟩ rfl ?_
        intro p member
        rw [List.mem_singleton.mp member]
        exact buildPacket_tells (by simp)
    · rintro e₁ rest ⟨⟨looping, receiver⟩, window, answers⟩ -
      have frame := handleReadError_frame rest e₁
      refine ⟨⟨frame.phase.trans looping, ?_⟩, frame.recvWindowSize.trans window, ?_⟩
      · unfold handleReadError
        dsimp only
        split <;> exact receiver.of_eq rfl rfl rfl rfl rfl rfl rfl rfl
      · apply answers.trans
        unfold handleReadError
        dsimp only
        split <;> exact .of_quiet rfl ⟨[], by simp⟩ rfl
    · rintro e₁ p rest ⟨receiver, window, answers⟩ -
      have after : LoopReceiver (handlePacket p rest e₁) := receiver.packet
      have frame := handlePacket_frame p rest e₁
      obtain ⟨n, sent⟩ := (handlePacket_onlyAcks p rest e₁).sent
      refine ⟨after, frame.recvWindowSize.trans window, answers.trans ?_⟩
      refine .of_new after.2 (heard_loop_ne_silent after.1) (frame.recvWindowSize.trans window)
        frame.isActive ⟨[p], (handlePacket_received p rest e₁).1⟩ sent ?_
      intro q member
      rw [List.eq_of_mem_replicate member]
      exact buildPacket_tells (by simp)
    · rintro - e₁ ⟨receiver, window, answers⟩
      have after := receiver.handleClose
      refine ⟨after, (handleClose_frame e₁).recvWindowSize.trans window, answers.trans ?_⟩
      rcases handleClose_cases e₁ with ⟨-, same⟩ | ⟨-, state, same⟩
      · rw [same]
        exact .refl e₁
      · have looping := heard_loop_ne_silent after.1
        rw [same] at after looping ⊢
        refine .of_new after.2 looping window rfl ⟨[], by simp⟩ rfl ?_
        intro p member
        rw [List.mem_singleton.mp member]
        exact buildPacket_tells (by simp)
  exact keeps.2.2

/-- Every input is answered properly, as long as the endpoint stays in order. -/
theorem Endpoint.input_answers {e e' : Endpoint} {i : Input} (receiver : Receiver e)
    (receiver' : Receiver e') (window : e.ctx.recvWindowSize = receiverWindowSize)
    (step : e.input i = some e') (accepted : e'.phase ≠ .refused) : Answers e e' := by
  by_cases wakes : i = .wake
  · subst wakes
    cases e.wake_cases step with
    | refused refused => exact absurd refused accepted
    | syn phase active =>
        refine ⟨⟨[], by simp [sendSyn, sendPacket]⟩, rfl, _, rfl, ?_⟩
        intro base c path k le
        have buffer := (receiver.inOrder base c path).bufferEmpty
        refine ⟨k, le, .cons ⟨Nat.le_refl k, ?_, fun _ => rfl, ?_⟩ (.nil k)⟩
        · intro flag
          exact absurd flag (by rw [buildPacket_has]; decide)
        · simp only [buildPacket, window, buffer]
          rfl
    | listen phase passive => exact .of_quiet rfl ⟨[], by simp⟩ rfl
    | synAck phase head asked flag acked =>
        refine .of_new receiver' ?_ window rfl ⟨_, rfl⟩ rfl ?_
        · exact heard_loop_ne_silent rfl
        · intro q member
          rw [List.mem_singleton.mp member]
          exact buildPacket_tells (by simp)
    | synRead phase head asked =>
        refine .of_new receiver' ?_ window rfl ⟨_, rfl⟩ rfl ?_
        · simp [Endpoint.heard, Endpoint.acceptSyn]
        · intro q member
          rw [List.mem_singleton.mp member]
          exact buildPacket_tells (by simp)
    | ackRead phase head asked flag acked => exact .of_quiet rfl ⟨_, rfl⟩ rfl
    | @iteration ev sock phase running waited =>
        have waiting : LoopReceiver { e with sock := sock } :=
          ⟨phase, receiver.of_eq rfl rfl rfl rfl rfl rfl rfl rfl⟩
        obtain ⟨received, isActive, sent⟩ := waiting.answers ev window
        exact ⟨received, isActive, sent⟩
    | exit phase done => exact .of_quiet rfl ⟨[], by simp [threadExit, enqueueForApp]⟩ rfl
  · obtain ⟨-, -, sent, isActive, -, received⟩ := e.input_frame step wakes
    exact .of_quiet isActive ⟨[], by simp [received]⟩ sent

/-- The two constants of a connection. -/
theorem Endpoint.input_constants {e e' : Endpoint} {i : Input} (step : e.input i = some e')
    (accepted : e'.phase ≠ .refused) :
    e'.ctx.recvWindowSize = e.ctx.recvWindowSize ∧
      e'.ctx.initialSequenceNum = e.ctx.initialSequenceNum := by
  by_cases wakes : i = .wake
  · subst wakes
    cases e.wake_cases step with
    | refused refused => exact absurd refused accepted
    | @iteration ev sock phase running waited =>
        have frame := controlLoopIteration_frame ev { e with sock := sock }
        exact ⟨frame.recvWindowSize, frame.initialSequenceNum⟩
    | _ => exact ⟨rfl, rfl⟩
  · obtain ⟨ctx, -⟩ := e.input_frame step wakes
    rw [ctx]
    exact ⟨rfl, rfl⟩

/-! ## What an endpoint sends -/

/-- The FIN's own sequence number, once it is sent. -/
def Endpoint.finSpan (e : Endpoint) : Nat := if e.ctx.finSent then 1 else 0

theorem dequeuePartial_length {maxLen : Nat} {node chunk : Bytes} {rest rest' : List Bytes}
    (dequeued : dequeuePartial maxLen (node :: rest) = some (chunk, rest')) :
    chunk.length = min node.length maxLen := by
  rw [dequeuePartial] at dequeued
  split at dequeued
  · cases dequeued
    rw [List.length_take]
    omega
  · cases dequeued
    omega

theorem handleAppData_span (e : Endpoint) :
    spanOf (handleAppData e).hist.sent + e.finSpan ≤
      spanOf e.hist.sent + e.nextChunk + (handleAppData e).finSpan := by
  rcases handleAppData_cases e with same | ⟨chunk, rest, dequeued, split⟩
  · rw [same]
    omega
  · have length : chunk.length ≤ e.nextChunk := by
      unfold Endpoint.nextChunk
      cases queue : e.sock.appRecvQueue with
      | nil =>
          rw [queue] at dequeued
          cases dequeued
      | cons node tail =>
          rw [queue] at dequeued
          exact Nat.le_of_eq (dequeuePartial_length dequeued)
    rcases split with ⟨-, same⟩ | ⟨-, same⟩
    · rw [same]
      simp only [Endpoint.finSpan]
      omega
    · have span : (buildPacket e.ctx chunk thAckFlag).span = chunk.length := by
        simp [Packet.span]
      rw [same]
      simp only [Endpoint.finSpan, spanOf_append, spanOf_singleton, span]
      omega

/-- One iteration sends at most the next chunk and the FIN. -/
theorem controlLoopIteration_span (ev : Event) (e : Endpoint) :
    spanOf (controlLoopIteration ev e).hist.sent + e.finSpan ≤
      spanOf e.hist.sent + e.nextChunk + (controlLoopIteration ev e).finSpan := by
  have acks : ∀ {e₁ e₂ : Endpoint}, OnlyAcks e₁ e₂ →
      spanOf e₂.hist.sent = spanOf e₁.hist.sent ∧ e₂.finSpan = e₁.finSpan := by
    intro e₁ e₂ acks
    obtain ⟨n, sent⟩ := acks.sent
    have nothing : spanOf (List.replicate n (buildPacket e₂.ctx [] thAckFlag)) = 0 := by
      simp [spanOf, Packet.span]
    refine ⟨by rw [sent, spanOf_append, nothing, Nat.add_zero], ?_⟩
    simp only [Endpoint.finSpan, acks.finSent]
  apply controlLoopIteration_keeps (motive := fun e' => spanOf e'.hist.sent + e.finSpan ≤
    spanOf e.hist.sent + e.nextChunk + e'.finSpan)
  · omega
  · exact handleAppData_span e
  · intro e₁ rest before _
    obtain ⟨span, fin⟩ := acks (handleReadError_onlyAcks rest e₁)
    omega
  · intro e₁ p rest before _
    obtain ⟨span, fin⟩ := acks (handlePacket_onlyAcks p rest e₁)
    omega
  · intro _ e₁ before
    rcases handleClose_cases e₁ with ⟨-, same⟩ | ⟨notSent, state, same⟩
    · rw [same]
      exact before
    · have span : (buildPacket e₁.ctx [] (thFin ||| thAckFlag)).span = 1 := by
        simp [Packet.span]
      rw [same]
      simp only [Endpoint.finSpan, notSent, spanOf_append, spanOf_singleton, span,
        Bool.false_eq_true, if_false, if_true] at before ⊢
      omega

/-- Apart from the SYN, only an iteration of a running loop sends anything that
takes up sequence numbers. -/
theorem Endpoint.input_span {e e' : Endpoint} {i : Input} (sender : Sender e)
    (step : e.input i = some e') (accepted : e'.phase ≠ .refused) :
    (i = .wake ∧ e.phase = .controlLoop ∧ e.ctx.done = false ∧
      spanOf e'.hist.sent + e.finSpan ≤ spanOf e.hist.sent + e.nextChunk + e'.finSpan) ∨
    spanOf e'.hist.sent ≤ 1 ∨
    (spanOf e'.hist.sent = spanOf e.hist.sent ∧ e'.finSpan = e.finSpan) := by
  by_cases wakes : i = .wake
  · subst wakes
    have path := sender.path
    cases e.wake_cases step with
    | refused refused => exact absurd refused accepted
    | syn phase active =>
        have silent : e.said = .silent := by simp only [Endpoint.said, phase]
        obtain ⟨empty, -⟩ := received_of_silent path silent
        refine .inr (.inl ?_)
        simp [sendSyn, sendPacket, empty, Packet.span]
    | listen phase passive => exact .inr (.inr ⟨rfl, rfl⟩)
    | synAck phase head asked flag acked =>
        refine .inr (.inr ⟨?_, rfl⟩)
        simp [Endpoint.acceptSynAck, Endpoint.take, Packet.span]
    | synRead phase head asked =>
        have silent : e.said = .silent := by simp only [Endpoint.said, phase]
        obtain ⟨empty, -⟩ := received_of_silent path silent
        refine .inr (.inl ?_)
        simp [Endpoint.acceptSyn, Endpoint.take, empty, Packet.span]
    | ackRead phase head asked flag acked => exact .inr (.inr ⟨rfl, rfl⟩)
    | @iteration ev sock phase running waited =>
        obtain ⟨-, -, -, rfl⟩ := stcpWaitForEvent_spec waited
        exact .inl ⟨rfl, phase, running, controlLoopIteration_span ev _⟩
    | exit phase done => exact .inr (.inr ⟨rfl, rfl⟩)
  · obtain ⟨ctx, -, sent, -⟩ := e.input_frame step wakes
    refine .inr (.inr ⟨by rw [sent], ?_⟩)
    simp only [Endpoint.finSpan, ctx]

/-! ## Both directions -/

/-- The acknowledgements of `b` on their way to `a`, as positions in `a`'s
stream: `a` knows of `k₁`, the last one in flight says `k₂`, and `b` has read at
least that far.  What `a` has sent stays inside the window beyond `k₁`. -/
structure Windowed (a b : Endpoint) (k₁ k₂ : Nat) : Prop where
  known : Path (Acks a.ctx.initialSequenceNum) 0 a.hist.received k₁
  flying : ∃ flying, b.hist.sent = a.hist.received ++ flying ∧
    Path (Acks a.ctx.initialSequenceNum) k₁ flying k₂
  bounded : k₂ ≤ spanOf b.hist.received
  room : spanOf a.hist.sent ≤ k₁ + receiverWindowSize.toNat + a.finSpan

/-- The sender of a direction takes a step. -/
theorem Windowed.sender {a a' b : Endpoint} {k₁ k₂ : Nat} {more rest : List Packet}
    (windowed : Windowed a b k₁ k₂) (received : a'.hist.received = a.hist.received ++ more)
    (linked : b.hist.sent = a'.hist.received ++ rest)
    (base : a'.ctx.initialSequenceNum = a.ctx.initialSequenceNum)
    (room : spanOf a'.hist.sent ≤ k₁ + receiverWindowSize.toNat + a'.finSpan) :
    ∃ k₁', Windowed a' b k₁' k₂ := by
  obtain ⟨flying, sent, path⟩ := windowed.flying
  have cut : flying = more ++ rest := by
    rw [sent, received, List.append_assoc] at linked
    exact List.append_cancel_left linked
  rw [cut, Path.append_iff] at path
  obtain ⟨k₁', read, left⟩ := path
  have forward := Acks.forward_path read
  refine ⟨k₁', ?_, ⟨rest, linked, ?_⟩, windowed.bounded, by omega⟩
  · rw [received, base]
    exact Path.append_iff.mpr ⟨k₁, windowed.known, read⟩
  · rw [base]
    exact left

/-- The receiver of a direction takes a step. -/
theorem Windowed.receiver {a b b' : Endpoint} {k₁ k₂ : Nat} {c : Cursor}
    (windowed : Windowed a b k₁ k₂) (answers : Answers b b')
    (path : Path (Advances (!b'.isActive)) ⟨a.ctx.initialSequenceNum, .silent⟩
      b'.hist.received c) :
    ∃ k₂', Windowed a b' k₁ k₂' := by
  obtain ⟨flying, sent, acks⟩ := windowed.flying
  obtain ⟨new, sent', answer⟩ := answers.sent
  obtain ⟨k₂', bounded, further⟩ := answer _ c path k₂ windowed.bounded
  refine ⟨k₂', windowed.known, ⟨flying ++ new, ?_, ?_⟩, bounded, windowed.room⟩
  · rw [sent', sent, List.append_assoc]
  · exact Path.append_iff.mpr ⟨k₂, acks, further⟩

/-- In an open connection the last packet read is an acknowledgement. -/
theorem System.Connected.lastAck {s : System} (connected : s.Connected) {side : Side}
    (opened : (s.endpoint side).opened) :
    ∃ front last, (s.endpoint side).hist.received = front ++ [last] ∧
      last.has thAckFlag = true := by
  obtain ⟨c, path, inOrder, -⟩ := connected.position side.other
  rw [Side.other_other] at path inOrder
  have stage : c.stage = .flowing ∨ c.stage = .finished := by
    rw [inOrder.stage, Endpoint.heard]
    rcases opened with phase | phase <;> rw [phase] <;>
      cases (s.endpoint side).ctx.finReceived <;> simp [Stage.afterFin]
  rcases List.eq_nil_or_concat (s.endpoint side).hist.received with empty | ⟨front, last, eq⟩
  · rw [empty, Path.nil_iff] at path
    rw [path] at stage
    simp at stage
  · rw [List.concat_eq_append] at eq
    refine ⟨front, last, eq, ?_⟩
    rw [eq, Path.snoc_iff] at path
    obtain ⟨middle, -, edge⟩ := path
    apply edge.ack
    rw [or_iff_not_imp_left]
    intro fromActive silent
    rw [Bool.not_eq_false] at fromActive
    rw [edge.next, silent, fromActive] at stage
    simp [Stage.next] at stage

/-- The distance of two positions in one direction, while it is small. -/
theorem seq_distance {base : TcpSeq} {k n : Nat} (le : k ≤ n) (small : n - k < 2 ^ 32) :
    (base + UInt32.ofNat n - (base + UInt32.ofNat k)).toNat = n - k := by
  have whole : UInt32.ofNat n = UInt32.ofNat (n - k) + UInt32.ofNat k := by
    rw [← UInt32.ofNat_add, Nat.sub_add_cancel le]
  have shift : base + UInt32.ofNat n = UInt32.ofNat (n - k) + (base + UInt32.ofNat k) := by
    rw [whole, ← UInt32.add_assoc, UInt32.add_comm base, UInt32.add_assoc]
  rw [shift, UInt32.add_sub_cancel, UInt32.toNat_ofNat', Nat.mod_eq_of_lt small]

/-- What `a` sees of the window, in terms of positions. -/
theorem System.Connected.windowValues {s : System} {side : Side} {k₁ k₂ : Nat}
    (connected : s.Connected) (opened : (s.endpoint side).opened)
    (windowed : Windowed (s.endpoint side) (s.endpoint side.other) k₁ k₂) :
    (s.endpoint side).advertisedWindow = receiverWindowSize.toNat ∧
      (s.endpoint side).unacknowledged =
        spanOf (s.endpoint side).hist.sent - k₁ - (s.endpoint side).finSpan := by
  obtain ⟨front, last, received, flag⟩ := connected.lastAck opened
  have known := windowed.known
  rw [received, Path.snoc_iff] at known
  obtain ⟨k, -, edge⟩ := known
  have highest : (s.endpoint side).highestAck =
      (s.endpoint side).ctx.initialSequenceNum + UInt32.ofNat k₁ := by
    simp only [Endpoint.highestAck, received, List.filter_append, List.filter_singleton, flag,
      List.getLast?_append]
    exact edge.acked flag
  have sequence : (s.endpoint side).ctx.sequenceNum =
      (s.endpoint side).ctx.initialSequenceNum +
        UInt32.ofNat (spanOf (s.endpoint side).hist.sent) :=
    seq_of_path (connected.sound side).sender.path
  have behind : k₁ ≤ spanOf (s.endpoint side).hist.sent := by
    obtain ⟨flying, -, path⟩ := windowed.flying
    have sent := (connected.fifo side.other).sent_eq
    rw [Side.other_other] at sent
    rw [sent, spanOf_append]
    have forward := Acks.forward_path path
    have bounded := windowed.bounded
    omega
  have room := windowed.room
  have window : receiverWindowSize.toNat = 3072 := rfl
  have fin : (s.endpoint side).finSpan ≤ 1 := by
    unfold Endpoint.finSpan
    split <;> omega
  refine ⟨?_, ?_⟩
  · simp [Endpoint.advertisedWindow, received, edge.window]
  · simp only [Endpoint.unacknowledged, highest, sequence]
    rw [seq_distance behind (by omega)]
    unfold Endpoint.finSpan
    split <;> omega

/-! ## Runs -/

/-- Every step is one input at one side. -/
theorem System.step_cases {s s' : System} {a : Action} (step : s.step a = some s') :
    ∃ side i e, (s.endpoint side).input i = some e ∧
      s'.endpoint = Function.update s.endpoint side e ∧ (i = .wake → a = .wake side) := by
  cases a with
  | deliver side =>
      simp only [System.step] at step
      split at step
      · cases step
      · obtain ⟨middle, acted, rfl⟩ := Option.map_eq_some_iff.mp step
        obtain ⟨e, input, rfl⟩ := Option.map_eq_some_iff.mp acted
        exact ⟨side, _, e, input, rfl, fun wakes => by cases wakes⟩
  | write side buf =>
      obtain ⟨e, input, rfl⟩ := Option.map_eq_some_iff.mp step
      exact ⟨side, _, e, input, rfl, fun wakes => by cases wakes⟩
  | close side =>
      obtain ⟨e, input, rfl⟩ := Option.map_eq_some_iff.mp step
      exact ⟨side, _, e, input, rfl, fun wakes => by cases wakes⟩
  | read side bufLen =>
      obtain ⟨e, input, rfl⟩ := Option.map_eq_some_iff.mp step
      exact ⟨side, _, e, input, rfl, fun wakes => by cases wakes⟩
  | wake side =>
      obtain ⟨e, input, rfl⟩ := Option.map_eq_some_iff.mp step
      exact ⟨side, _, e, input, rfl, fun _ => rfl⟩

/-- The invariant of paced runs. -/
structure System.WindowInv (s : System) : Prop where
  connected : s.Connected
  window : ∀ side, (s.endpoint side).ctx.recvWindowSize = receiverWindowSize
  windowed : ∀ side, ∃ k₁ k₂, Windowed (s.endpoint side) (s.endpoint side.other) k₁ k₂

theorem System.init_windowInv (initialSequenceNum : Side → TcpSeq) :
    (System.init initialSequenceNum).WindowInv where
  connected := System.init_connected initialSequenceNum
  window _ := rfl
  windowed _ := ⟨0, 0, .nil 0, ⟨[], rfl, .nil 0⟩, Nat.le_refl 0, Nat.zero_le _⟩

/-- The sender's side of one step: what it sends fits, because the wake-up was
paced or sends no data. -/
theorem System.WindowInv.room {s : System} {side : Side} {i : Input} {e : Endpoint} {k₁ k₂ : Nat}
    (inv : s.WindowInv) (windowed : Windowed (s.endpoint side) (s.endpoint side.other) k₁ k₂)
    (input : (s.endpoint side).input i = some e) (accepted : e.phase ≠ .refused)
    (paced : i = .wake → s.Paced (.wake side)) :
    spanOf e.hist.sent ≤ k₁ + receiverWindowSize.toNat + e.finSpan := by
  have room := windowed.room
  have fin : (s.endpoint side).finSpan ≤ 1 := by
    unfold Endpoint.finSpan
    split <;> omega
  rcases Endpoint.input_span (inv.connected.sound side).sender input accepted with
    ⟨wakes, phase, running, span⟩ | short | ⟨span, fin⟩
  · obtain ⟨window, unacknowledged⟩ := inv.connected.windowValues (.inl phase) windowed
    have fits : (s.endpoint side).unacknowledged + (s.endpoint side).nextChunk ≤
        (s.endpoint side).advertisedWindow := paced wakes phase running
    rw [window, unacknowledged] at fits
    cases finSent : (s.endpoint side).ctx.finSent with
    | false =>
        have zero : (s.endpoint side).finSpan = 0 := by simp [Endpoint.finSpan, finSent]
        omega
    | true =>
        -- after the FIN nothing is left to send
        have drained := ((inv.connected.sound side).sender.drained finSent).1
        have nothing : (s.endpoint side).nextChunk = 0 := by simp [Endpoint.nextChunk, drained]
        omega
  · have window : receiverWindowSize.toNat = 3072 := rfl
    omega
  · omega

/-- A paced step keeps the window, unless it refuses the connection. -/
theorem System.WindowInv.step {s s' : System} {a : Action} (inv : s.WindowInv)
    (step : s.step a = some s') (paced : s.Paced a) : s'.Refused ∨ s'.WindowInv := by
  rcases System.Inv.step (.inr inv.connected) step with refused | connected
  · exact .inl refused
  by_cases refused : s'.Refused
  · exact .inl refused
  right
  obtain ⟨side, i, e, input, updated, wakes⟩ := System.step_cases step
  have self : s'.endpoint side = e := by rw [updated, Function.update_self]
  have peer : s'.endpoint side.other = s.endpoint side.other := by
    rw [updated, Function.update_of_ne side.other_ne]
  have accepted : e.phase ≠ .refused := fun phase => refused ⟨side, by rw [self, phase]⟩
  obtain ⟨window, base⟩ := Endpoint.input_constants input accepted
  have answers : Answers (s.endpoint side) e := by
    have after := (connected.sound side).receiver
    rw [self] at after
    exact Endpoint.input_answers (inv.connected.sound side).receiver after (inv.window side) input
      accepted
  refine ⟨connected, ?_, ?_⟩
  · intro side'
    by_cases same : side' = side
    · subst same
      rw [self, window]
      exact inv.window side'
    · rw [updated, Function.update_of_ne same]
      exact inv.window side'
  · intro side'
    by_cases same : side' = side
    · subst same
      obtain ⟨k₁, k₂, windowed⟩ := inv.windowed side'
      obtain ⟨more, received⟩ := answers.received
      have linked := (connected.fifo side').sent_eq
      rw [peer, self] at linked
      have room := inv.room windowed input accepted fun isWake => wakes isWake ▸ paced
      obtain ⟨k₁', after⟩ := windowed.sender received linked base room
      rw [self, peer]
      exact ⟨k₁', k₂, after⟩
    · have other : side' = side.other := by
        cases side <;> cases side' <;> first | rfl | exact absurd rfl same
      subst other
      obtain ⟨k₁, k₂, windowed⟩ := inv.windowed side.other
      rw [Side.other_other] at windowed ⊢
      obtain ⟨c, path, -⟩ := connected.position side.other
      rw [Side.other_other, self, peer] at path
      obtain ⟨k₂', after⟩ := windowed.receiver answers path
      rw [self, peer]
      exact ⟨k₁, k₂', after⟩

theorem System.WindowInv.run {s s' : System} {actions : List Action}
    (inv : s.Refused ∨ s.WindowInv) (run : s.PacedRun actions s') :
    s'.Refused ∨ s'.WindowInv := by
  refine Path.invariant (motive := fun s => s.Refused ∨ s.WindowInv) ?_ run inv
  rintro s a t ⟨step, paced⟩ (refused | inv)
  · obtain ⟨side, i, e, input, updated, -⟩ := System.step_cases step
    obtain ⟨failed, refused⟩ := refused
    refine .inl ⟨failed, ?_⟩
    rw [updated]
    by_cases same : failed = side
    · subst same
      rw [Function.update_self]
      exact Endpoint.refused_input refused input
    · rw [Function.update_of_ne same]
      exact refused
  · exact inv.step step paced

/-- In every run in which each wake-up of a running loop leaves room for the
segment it sends, what an endpoint of an open connection has sent and not seen
acknowledged fits into the window last advertised to it. -/
theorem window_respected_of_paced {initialSequenceNum : Side → TcpSeq} {actions : List Action}
    {s : System} (run : (System.init initialSequenceNum).PacedRun actions s) {side : Side}
    (opened : (s.endpoint side).opened) (accepted : ¬ s.Refused) :
    (s.endpoint side).unacknowledged ≤ (s.endpoint side).advertisedWindow := by
  rcases System.WindowInv.run (.inr (System.init_windowInv initialSequenceNum)) run with
    refused | inv
  · exact absurd refused accepted
  · obtain ⟨k₁, k₂, windowed⟩ := inv.windowed side
    obtain ⟨window, unacknowledged⟩ := inv.connected.windowValues opened windowed
    have room := windowed.room
    omega

/-- A step that is refused where it is not paced. -/
def System.pacedStep (s : System) (a : Action) : Option System :=
  if s.Paced a then s.step a else none

theorem System.PacedRun.of_follow {s s' : System} {actions : List Action}
    (ran : follow System.pacedStep s actions = some s') : s.PacedRun actions s' := by
  refine (Path.of_follow ran).mono fun s a t step => ?_
  unfold System.pacedStep at step
  split at step
  · next paced => exact ⟨step, paced⟩
  · cases step

/-- The short transfer is paced: after it the last byte is acknowledged. -/
theorem window_respected_shortTransfer :
    ∃ s, (System.init fun _ => 0xffffffff).PacedRun shortTransfer s ∧
      (s.endpoint .active).hist.written = [1, 2, 3] ∧
      (s.endpoint .active).unacknowledged ≤ (s.endpoint .active).advertisedWindow := by
  have ran : ((follow System.pacedStep (System.init fun _ => 0xffffffff) shortTransfer).map fun s =>
      ((s.endpoint .active).hist.written, (s.endpoint .active).phase,
        (s.endpoint .passive).phase)) = some ([1, 2, 3], .controlLoop, .controlLoop) := by
    decide +kernel
  obtain ⟨s, run, state⟩ := Option.map_eq_some_iff.mp ran
  simp only [Prod.mk.injEq] at state
  obtain ⟨written, phase, phase'⟩ := state
  have accepted : ¬ s.Refused := by
    intro someRefused
    rcases someRefused with ⟨side, refused⟩
    cases side
    · rw [phase] at refused
      cases refused
    · rw [phase'] at refused
      cases refused
  exact ⟨s, .of_follow run, written,
    window_respected_of_paced (.of_follow run) (.inl phase) accepted⟩

/-- A handshake, and six segments of one full size each before any of them is
delivered. -/
def sixSegments : List Action :=
  [.wake .active, .wake .passive, .deliver .passive, .wake .passive, .deliver .active,
    .wake .active, .deliver .passive, .wake .passive] ++
  (List.replicate 6 [.write .active (List.replicate 536 0), .wake .active]).flatten

/-- 3216 bytes are in flight, and the window is 3072. -/
theorem window_overrun :
    ¬ ∀ (initialSequenceNum : Side → TcpSeq) (actions : List Action) (s : System),
      (System.init initialSequenceNum).Run actions s →
        (∀ side, (s.endpoint side).opened) →
        ∀ side, (s.endpoint side).unacknowledged ≤ (s.endpoint side).advertisedWindow := by
  intro respected
  have ran : ((follow System.step (System.init fun _ => 1) sixSegments).map fun s =>
      ((s.endpoint .active).phase, (s.endpoint .passive).phase,
        (s.endpoint .active).unacknowledged, (s.endpoint .active).advertisedWindow)) =
      some (.controlLoop, .controlLoop, 3216, 3072) := by
    decide +kernel
  obtain ⟨s, run, state⟩ := Option.map_eq_some_iff.mp ran
  simp only [Prod.mk.injEq] at state
  obtain ⟨phase, phase', sent, window⟩ := state
  have opened : ∀ side, (s.endpoint side).opened := by
    intro side
    cases side
    · exact .inl phase
    · exact .inl phase'
  have bound := respected _ _ s (.of_follow run) opened .active
  omega

end CompNet.Stcp
