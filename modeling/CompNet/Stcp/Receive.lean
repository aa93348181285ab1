import CompNet.Stcp.Unreliable

/-!
# What a segment does to the receiving side

`control_loop` takes a segment apart in three branches that share `ack_num`: the
`TH_FIN` branch moves it past the FIN, the data branch compares the segment with
it and moves it past the data.  `handlePacket_takes` says what the branches come
to together.  `Endpoint.Iterated` puts that into a whole iteration, whose other
branches only send, and the results are about every packet that a run reads.
-/

namespace CompNet.Stcp

open CompNet.Lib

/-! ## One segment -/

/-- The receiving side of an endpoint. -/
structure Intake where
  ackNum : TcpSeq
  nextSeqExpected : TcpSeq
  finReceived : Bool
  recvBufferUsed : UInt16
  appSendQueue : List Bytes
  delivered : List Bytes

def Endpoint.intake (e : Endpoint) : Intake where
  ackNum := e.ctx.ackNum
  nextSeqExpected := e.ctx.nextSeqExpected
  finReceived := e.ctx.finReceived
  recvBufferUsed := e.ctx.recvBufferUsed
  appSendQueue := e.sock.appSendQueue
  delivered := e.hist.delivered

@[simp] theorem Endpoint.intake_ackNum (e : Endpoint) : e.intake.ackNum = e.ctx.ackNum := rfl

@[simp] theorem Endpoint.intake_nextSeqExpected (e : Endpoint) :
    e.intake.nextSeqExpected = e.ctx.nextSeqExpected := rfl

@[simp] theorem Endpoint.intake_finReceived (e : Endpoint) :
    e.intake.finReceived = e.ctx.finReceived := rfl

@[simp] theorem Endpoint.intake_recvBufferUsed (e : Endpoint) :
    e.intake.recvBufferUsed = e.ctx.recvBufferUsed := rfl

@[simp] theorem Endpoint.intake_appSendQueue (e : Endpoint) :
    e.intake.appSendQueue = e.sock.appSendQueue := rfl

@[simp] theorem Endpoint.intake_delivered (e : Endpoint) :
    e.intake.delivered = e.hist.delivered := rfl

/-- One more node for the application. -/
def Intake.enqueue (node : Bytes) (r : Intake) : Intake :=
  { r with appSendQueue := r.appSendQueue ++ [node], delivered := r.delivered ++ [node] }

/-- A FIN is taken wherever it stands, and its data is not. -/
def Intake.finish (p : Packet) (r : Intake) : Intake :=
  { r.enqueue [] with finReceived := true, ackNum := p.thSeq + 1 }

/-- Data that only `ack_num` expects is acknowledged and stays in the buffer count. -/
def Intake.strand (p : Packet) (r : Intake) : Intake :=
  { r with
    ackNum := r.ackNum + UInt32.ofNat (dataLen p)
    recvBufferUsed := r.recvBufferUsed + UInt16.ofNat (dataLen p) }

/-- Data that both counters expect is acknowledged and passed up. -/
def Intake.pass (p : Packet) (chunk : Bytes) (r : Intake) : Intake :=
  { (if chunk.length > 0 then r.enqueue chunk else r) with
    ackNum := r.ackNum + UInt32.ofNat (dataLen p)
    nextSeqExpected := p.thSeq + UInt32.ofNat (dataLen p) }

/-- Acknowledgements have been sent, each with the counters as they are now. -/
def Answered (e e' : Endpoint) : Prop :=
  ∃ n, e'.hist.sent = e.hist.sent ++ List.replicate (n + 1) (buildPacket e'.ctx [] thAckFlag)

/-- Everything that a segment can do to the receiving side. -/
inductive Takes (p : Packet) (chunk : Bytes) (e e' : Endpoint) : Prop
  | fin (flag : p.has thFin = true) (after : e'.intake = e.intake.finish p)
      (answered : Answered e e')
  | bare (noFin : p.has thFin = false) (empty : dataLen p = 0) (after : e'.intake = e.intake)
      (sent : e'.hist.sent = e.hist.sent)
  | late (noFin : p.has thFin = false) (some : dataLen p > 0) (late : p.thSeq ≠ e.ctx.ackNum)
      (after : e'.intake = e.intake) (answered : Answered e e')
  | stranded (noFin : p.has thFin = false) (some : dataLen p > 0)
      (inOrder : p.thSeq = e.ctx.ackNum) (unexpected : p.thSeq ≠ e.ctx.nextSeqExpected)
      (after : e'.intake = e.intake.strand p) (answered : Answered e e')
  | passed (noFin : p.has thFin = false) (some : dataLen p > 0)
      (inOrder : p.thSeq = e.ctx.ackNum) (expected : p.thSeq = e.ctx.nextSeqExpected)
      (after : e'.intake = e.intake.pass p chunk) (answered : Answered e e')

/-- A segment that is not acknowledged has changed nothing. -/
theorem Takes.answered {p : Packet} {chunk : Bytes} {e e' : Endpoint}
    (takes : Takes p chunk e e') :
    Answered e e' ∨ (e'.intake = e.intake ∧ e'.hist.sent = e.hist.sent) := by
  cases takes with
  | fin _ _ answered => exact .inl answered
  | bare _ _ after sent => exact .inr ⟨after, sent⟩
  | late _ _ _ _ answered => exact .inl answered
  | stranded _ _ _ _ _ answered => exact .inl answered
  | passed _ _ _ _ _ answered => exact .inl answered

theorem Ctx.onData_unexpected {c : Ctx} {p : Packet} (unexpected : p.thSeq ≠ c.nextSeqExpected) :
    c.onData p =
      { c with
        ackNum := c.ackNum + UInt32.ofNat (dataLen p)
        recvBufferUsed := c.recvBufferUsed + UInt16.ofNat (dataLen p) } := by
  unfold Ctx.onData
  simp only [unexpected, if_false]

theorem handlePacket_takes (p : Packet) (rest : List (Option Packet)) (e : Endpoint) :
    Takes p (dataChunk p (receivePacket p rest e).buf) e (handlePacket p rest e) := by
  unfold handlePacket
  rcases handleFin_cases p (receivePacket p rest e) with ⟨noFin, fin⟩ | ⟨flag, _, _, fin⟩
  · obtain ⟨_, _, _, ack⟩ := handleAck_eq p (receivePacket p rest e)
    have data := handleData_cases p (handleAck p (receivePacket p rest e))
    rw [fin]
    rw [ack] at data ⊢
    rcases data with
      ⟨empty, same⟩ | ⟨some, late, same⟩ | ⟨some, inOrder, unexpected, same⟩ |
        ⟨some, inOrder, expected, same⟩
    · rw [same]
      exact .bare noFin empty rfl rfl
    · rw [same]
      exact .late noFin some late rfl ⟨0, rfl⟩
    · rw [same, Ctx.onData_unexpected (by exact unexpected)]
      exact .stranded noFin some inOrder unexpected rfl ⟨0, rfl⟩
    · rw [same, Ctx.onData_expected (by exact expected)]
      refine .passed noFin some inOrder expected ?_ ⟨0, ?_⟩
      · unfold Intake.pass stcpAppSend
        dsimp only
        split <;> rfl
      · unfold stcpAppSend
        dsimp only
        split <;> rfl
  · -- ack_num already stands past the FIN, so that no data in it is in order
    obtain ⟨_, _, _, ack⟩ := handleAck_eq p (handleFin p (receivePacket p rest e))
    rw [ack, fin]
    have past : p.thSeq ≠ p.thSeq + 1 := by simp
    rcases handleData_cases p _ with
      ⟨-, same⟩ | ⟨-, -, same⟩ | ⟨-, inOrder, -, -⟩ | ⟨-, inOrder, -, -⟩
    · rw [same]
      exact .fin flag rfl ⟨0, rfl⟩
    · rw [same]
      exact .fin flag rfl ⟨1, by simp [sendPacket, receivePacket, buildPacket]⟩
    · exact absurd inOrder past
    · exact absurd inOrder past

theorem Intake.finReceived_pass (p : Packet) (chunk : Bytes) (r : Intake) :
    (r.pass p chunk).finReceived = r.finReceived := by
  unfold Intake.pass
  dsimp only
  split <;> rfl

/-! ## The payload of a segment -/

/-- The bytes of `p` behind its header: from `4 * th_off` to the end of the packet. -/
def Packet.body (p : Packet) : Bytes := p.wire.drop p.dataStart

/-- The iteration that reads `p` passes data up. -/
def PassesUp (p : Packet) (e : Endpoint) : Prop :=
  p.has thFin = false ∧ p.thSeq = e.ctx.ackNum ∧ p.thSeq = e.ctx.nextSeqExpected

instance (p : Packet) (e : Endpoint) : Decidable (PassesUp p e) :=
  inferInstanceAs (Decidable (_ ∧ _ ∧ _))

/-- `stcp_app_send` makes no node of no bytes. -/
theorem Intake.flatten_pass (p : Packet) (chunk : Bytes) (r : Intake) :
    (r.pass p chunk).delivered.flatten = r.delivered.flatten ++ chunk := by
  unfold Intake.pass
  dsimp only
  split
  · simp [Intake.enqueue]
  · next empty =>
      rw [List.eq_nil_of_length_eq_zero (Nat.eq_zero_of_not_pos empty), List.append_nil]

/-- Data is passed up once, and only data that both counters expect. -/
theorem handlePacket_delivered (p : Packet) (rest : List (Option Packet)) (e : Endpoint) :
    (handlePacket p rest e).hist.delivered.flatten = e.hist.delivered.flatten ++
      if PassesUp p e ∧ dataLen p > 0 then dataChunk p (receivePacket p rest e).buf else [] := by
  have same {r : Intake} (after : (handlePacket p rest e).intake = r) :
      (handlePacket p rest e).hist.delivered = r.delivered := by
    rw [← after, Endpoint.intake_delivered]
  cases handlePacket_takes p rest e with
  | fin flag after _ =>
      have noData : ¬ (PassesUp p e ∧ dataLen p > 0) := by
        intro given
        exact absurd (flag.symm.trans given.1.1) (by decide)
      rw [same after, if_neg noData]
      simp [Intake.finish, Intake.enqueue]
  | bare _ empty after _ =>
      have noData : ¬ (PassesUp p e ∧ dataLen p > 0) :=
        fun given => Nat.ne_of_gt given.2 empty
      rw [same after, if_neg noData]
      exact (List.append_nil _).symm
  | late _ _ late after _ =>
      have noData : ¬ (PassesUp p e ∧ dataLen p > 0) := fun given => late given.1.2.1
      rw [same after, if_neg noData]
      exact (List.append_nil _).symm
  | stranded _ _ _ unexpected after _ =>
      have noData : ¬ (PassesUp p e ∧ dataLen p > 0) := fun given => unexpected given.1.2.2
      rw [same after, if_neg noData]
      exact (List.append_nil _).symm
  | passed noFin some inOrder expected after _ =>
      have data : PassesUp p e ∧ dataLen p > 0 := ⟨⟨noFin, inOrder, expected⟩, some⟩
      rw [same after, if_pos data]
      rw [Intake.flatten_pass, Endpoint.intake_delivered]

/-! ## One iteration

The branches around the packet send with the counters as they are and leave the
receiving side alone. -/

theorem buildPacket_acks (ctx : Ctx) (data : Bytes) :
    (buildPacket ctx data thAckFlag).has thAckFlag = true ∧
      (buildPacket ctx data (thFin ||| thAckFlag)).has thAckFlag = true ∧
      (buildPacket ctx data (thSyn ||| thAckFlag)).has thAckFlag = true := by
  simp only [buildPacket_has]
  decide

/-- `e'` differs from `e` in nothing that a packet changes on the receiving side; what was sent in
between satisfies `sort` and shows the counters. -/
structure Steady (sort : Packet → Prop) (e e' : Endpoint) : Prop where
  intake : e'.intake = e.intake
  window : e'.ctx.recvWindowSize = e.ctx.recvWindowSize
  phase : e'.phase = e.phase
  isActive : e'.isActive = e.isActive
  received : e'.hist.received = e.hist.received
  established : e'.ctx.connectionState = .established →
    e.ctx.connectionState = .established ∧ e'.ctx.done = e.ctx.done
  sent : ∃ new, e'.hist.sent = e.hist.sent ++ new ∧ ∀ q ∈ new, sort q ∧ q.has thAckFlag = true ∧
    q.thAck = e.ctx.ackNum ∧ q.thWin = e.ctx.recvWindowSize - e.ctx.recvBufferUsed

section

variable {sort : Packet → Prop} {e e' : Endpoint} (steady : Steady sort e e')
include steady

theorem Steady.ackNum : e'.ctx.ackNum = e.ctx.ackNum := congrArg Intake.ackNum steady.intake

theorem Steady.nextSeqExpected : e'.ctx.nextSeqExpected = e.ctx.nextSeqExpected :=
  congrArg Intake.nextSeqExpected steady.intake

theorem Steady.finReceived : e'.ctx.finReceived = e.ctx.finReceived :=
  congrArg Intake.finReceived steady.intake

theorem Steady.recvBufferUsed : e'.ctx.recvBufferUsed = e.ctx.recvBufferUsed :=
  congrArg Intake.recvBufferUsed steady.intake

end

theorem Steady.refl (sort : Packet → Prop) (e : Endpoint) : Steady sort e e :=
  ⟨rfl, rfl, rfl, rfl, rfl, fun state => ⟨state, rfl⟩, [], by simp, by simp⟩

theorem Steady.trans {sort : Packet → Prop} {e₁ e₂ e₃ : Endpoint} (first : Steady sort e₁ e₂)
    (second : Steady sort e₂ e₃) : Steady sort e₁ e₃ where
  intake := second.intake.trans first.intake
  window := second.window.trans first.window
  phase := second.phase.trans first.phase
  isActive := second.isActive.trans first.isActive
  received := second.received.trans first.received
  established state := by
    obtain ⟨state, done⟩ := second.established state
    obtain ⟨state, done'⟩ := first.established state
    exact ⟨state, done.trans done'⟩
  sent := by
    obtain ⟨new, sent, tell⟩ := first.sent
    obtain ⟨new', sent', tell'⟩ := second.sent
    refine ⟨new ++ new', by rw [sent', sent, List.append_assoc], ?_⟩
    intro q member
    rcases List.mem_append.mp member with old | young
    · exact tell q old
    · rw [← first.ackNum, ← first.recvBufferUsed, ← first.window]
      exact tell' q young

theorem handleAppData_steady (e : Endpoint) :
    Steady (fun q => q.data ≠ []) e (handleAppData e) := by
  rcases handleAppData_cases e with same | ⟨chunk, rest, -, ⟨-, same⟩ | ⟨some, same⟩⟩
  · rw [same]
    exact .refl _ e
  · rw [same]
    exact ⟨rfl, rfl, rfl, rfl, rfl, fun state => ⟨state, rfl⟩, [], by simp, by simp⟩
  · rw [same]
    refine ⟨rfl, rfl, rfl, rfl, rfl, fun state => ⟨state, rfl⟩, _, rfl, ?_⟩
    intro q member
    rw [List.mem_singleton.mp member]
    exact ⟨some, (buildPacket_acks _ _).1, rfl, rfl⟩

theorem handleAppData_queue (e : Endpoint) :
    (handleAppData e).sock.networkRecvQueue = e.sock.networkRecvQueue := by
  rcases handleAppData_cases e with same | ⟨chunk, rest, -, ⟨-, same⟩ | ⟨-, same⟩⟩ <;> rw [same]

theorem Ctx.onClose_ne_established (c : Ctx) : c.onClose.connectionState ≠ .established := by
  unfold Ctx.onClose
  split <;> simp_all

theorem handleClose_steady (e : Endpoint) : Steady (fun q => q.data = []) e (handleClose e) := by
  rcases handleClose_cases e with ⟨-, same⟩ | ⟨notSent, state, same⟩
  · rw [same]
    exact .refl _ e
  · have leaves : (handleClose e).ctx.connectionState ≠ .established := by
      unfold handleClose
      rw [notSent]
      exact Ctx.onClose_ne_established _
    rw [same] at leaves ⊢
    refine ⟨rfl, rfl, rfl, rfl, rfl, fun state => absurd state leaves, _, rfl, ?_⟩
    intro q member
    rw [List.mem_singleton.mp member]
    exact ⟨rfl, (buildPacket_acks _ _).2.1, rfl, rfl⟩

theorem handleReadError_steady (sort : Packet → Prop) (rest : List (Option Packet))
    (e : Endpoint) : Steady sort e (handleReadError rest e) := by
  unfold handleReadError
  dsimp only
  split
  · exact ⟨rfl, rfl, rfl, rfl, rfl, nofun, [], by simp, by simp⟩
  · exact ⟨rfl, rfl, rfl, rfl, rfl, fun state => ⟨state, rfl⟩, [], by simp, by simp⟩

/-- The packet at the head of the network queue. -/
def Endpoint.nextPacket (e : Endpoint) : Option Packet := e.sock.networkRecvQueue.head?.join

/-- Everything an iteration can do to the receiving side: application data goes out first, then a
packet may be read, then the FIN may go out. -/
inductive Endpoint.Iterated (e e' : Endpoint) : Prop
  | idle (e₁ : Endpoint) (none : e.nextPacket = none)
      (before : Steady (fun q => q.data ≠ []) e e₁) (after : Steady (fun q => q.data = []) e₁ e')
  | read (p : Packet) (rest : List (Option Packet)) (e₁ : Endpoint) (next : e.nextPacket = some p)
      (before : Steady (fun q => q.data ≠ []) e e₁)
      (after : Steady (fun q => q.data = []) (handlePacket p rest e₁) e')

theorem controlLoopIteration_iterated {ev : Event} {e : Endpoint}
    (ready : ev.networkData = !e.sock.networkRecvQueue.isEmpty) :
    e.Iterated (controlLoopIteration ev e) := by
  unfold controlLoopIteration
  have before : Steady (fun q => q.data ≠ []) e (if ev.appData then handleAppData e else e) ∧
      (if ev.appData then handleAppData e else e).sock.networkRecvQueue =
        e.sock.networkRecvQueue := by
    split
    · exact ⟨handleAppData_steady e, handleAppData_queue e⟩
    · exact ⟨.refl _ e, rfl⟩
  generalize (if ev.appData then handleAppData e else e) = e₁ at before
  obtain ⟨before, queue⟩ := before
  have after : ∀ e₂, Steady (fun q => q.data = []) e₂
      (if ev.appCloseRequested then handleClose e₂ else e₂) := by
    intro e₂
    split
    · exact handleClose_steady e₂
    · exact .refl _ e₂
  dsimp only
  split
  · next rest _ head =>
      refine .idle e₁ ?_ before (handleReadError_steady _ rest e₁)
      rw [Endpoint.nextPacket, ← queue, head]
      rfl
  · next p rest _ head =>
      refine .read p rest e₁ ?_ before (after _)
      rw [Endpoint.nextPacket, ← queue, head]
      rfl
  · next noError noPacket =>
      refine .idle e₁ ?_ before (after e₁)
      rw [queue] at noError noPacket
      cases nodes : e.sock.networkRecvQueue with
      | nil => rw [Endpoint.nextPacket, nodes]; rfl
      | cons node rest =>
          rw [nodes] at ready
          cases node with
          | none => exact absurd nodes (noError rest ready)
          | some p => exact absurd nodes (noPacket p rest ready)

/-- The wait clears a close request and touches nothing else. -/
theorem Endpoint.wake_iterated {e e' : Endpoint} (step : e.wake = some e')
    (phase : e.phase = .controlLoop) (running : e.ctx.done = false) : e.Iterated e' := by
  obtain ⟨ev, sock, waited, rfl⟩ := e.wake_running step phase running
  have ready : ev.networkData = !e.sock.networkRecvQueue.isEmpty := by
    rw [stcpWaitForEvent_any waited]
  obtain ⟨-, -, -, rfl⟩ := stcpWaitForEvent_spec waited
  have waiting : Steady (fun q => q.data ≠ []) e
      { e with sock.closeRequested := e.sock.closeRequested && !ev.appCloseRequested } :=
    ⟨rfl, rfl, rfl, rfl, rfl, fun state => ⟨state, rfl⟩, [], by simp, by simp⟩
  cases controlLoopIteration_iterated
      (e := { e with sock.closeRequested := e.sock.closeRequested && !ev.appCloseRequested })
      ready with
  | idle e₁ none before after => exact .idle e₁ none (waiting.trans before) after
  | read p rest e₁ next before after => exact .read p rest e₁ next (waiting.trans before) after

/-! ## The handshake refused -/

/-- The thread has ended: one more end-of-file marker, and nothing else. -/
structure TurnedAway (e e' : Endpoint) : Prop where
  phase : e'.phase = .refused
  ctx : e'.ctx = e.ctx
  isActive : e'.isActive = e.isActive
  sent : e'.hist.sent = e.hist.sent
  delivered : e'.hist.delivered = e.hist.delivered ++ [[]]

theorem handshakeStage_refused {act : Packet → Endpoint → Endpoint} {e e' : Endpoint}
    (turnsAway : ∀ p e, (act p e).phase = .refused → act p e = threadExit .refused e)
    (step : handshakeStage act e = some e') (refused : e'.phase = .refused) : TurnedAway e e' := by
  unfold handshakeStage at step
  split at step
  · cases step
  · next ev sock waited =>
      dsimp only at step
      split at step
      · cases step
        exact ⟨rfl, rfl, rfl, rfl, rfl⟩
      · next p rest _ head =>
          cases step
          rw [turnsAway p _ refused]
          exact ⟨rfl, rfl, rfl, rfl, rfl⟩
      · cases step
        exact ⟨rfl, rfl, rfl, rfl, rfl⟩

/-- Each stage does what its test asks for or turns the peer away. -/
theorem refused_of_ite {test : Prop} [Decidable test] {accepted e : Endpoint}
    (goesOn : accepted.phase ≠ .refused)
    (refused : (if test then accepted else threadExit .refused e).phase = .refused) :
    (if test then accepted else threadExit .refused e) = threadExit .refused e := by
  split
  · next passed =>
      rw [if_pos passed] at refused
      exact absurd refused goesOn
  · rfl

/-- Only the handshake refuses. -/
theorem Endpoint.wake_refused {e e' : Endpoint} (step : e.wake = some e')
    (refused : e'.phase = .refused) : TurnedAway e e' ∧ ¬ e.opened := by
  cases phase : e.phase with
  | start =>
      simp only [Endpoint.wake, phase] at step
      cases step
      split at refused <;> cases refused
  | awaitSynAck =>
      simp only [Endpoint.wake, phase] at step
      exact ⟨handshakeStage_refused (fun _ _ => refused_of_ite (by simp)) step refused,
        by simp [Endpoint.opened, phase]⟩
  | awaitSyn =>
      simp only [Endpoint.wake, phase] at step
      exact ⟨handshakeStage_refused (fun _ _ => refused_of_ite (by simp)) step refused,
        by simp [Endpoint.opened, phase]⟩
  | awaitAck =>
      simp only [Endpoint.wake, phase] at step
      exact ⟨handshakeStage_refused (fun _ _ => refused_of_ite (by simp)) step refused,
        by simp [Endpoint.opened, phase]⟩
  | controlLoop =>
      cases running : e.ctx.done with
      | false =>
          obtain ⟨ev, sock, -, rfl⟩ := e.wake_running step phase running
          rw [(controlLoopIteration_frame _ _).phase] at refused
          exact absurd (phase.symm.trans refused) (by decide)
      | true =>
          rw [e.wake_done step phase running] at refused
          cases refused
  | refused =>
      simp only [Endpoint.wake, phase] at step
      cases step
  | exited =>
      simp only [Endpoint.wake, phase] at step
      cases step

/-! ## What every run keeps -/

/-- `th_ack` of the last acknowledgement sent. -/
def Endpoint.lastAckSent (e : Endpoint) : Option TcpSeq :=
  (e.hist.sent.filter (·.has thAckFlag)).getLast?.map (·.thAck)

theorem Endpoint.lastAckSent_append {e e' : Endpoint} {new : List Packet} {n : TcpSeq}
    (sent : e'.hist.sent = e.hist.sent ++ new)
    (tell : ∀ q ∈ new, q.has thAckFlag = true ∧ q.thAck = n)
    (before : new = [] → e.lastAckSent = some n) : e'.lastAckSent = some n := by
  rcases List.eq_nil_or_concat new with none | ⟨front, q, last⟩
  · rw [none, List.append_nil] at sent
    rw [← before none, Endpoint.lastAckSent, Endpoint.lastAckSent, sent]
  · rw [List.concat_eq_append] at last
    obtain ⟨flag, acks⟩ := tell q (by simp [last])
    have split : e'.hist.sent.filter (·.has thAckFlag) =
        (e.hist.sent ++ front).filter (·.has thAckFlag) ++ [q] := by
      rw [sent, last, ← List.append_assoc, List.filter_append, List.filter_singleton, flag]
      rfl
    rw [Endpoint.lastAckSent, split, List.getLast?_concat, Option.map_some, acks]

theorem Answered.lastAckSent {e e' : Endpoint} (answered : Answered e e') :
    e'.lastAckSent = some e'.ctx.ackNum := by
  obtain ⟨n, sent⟩ := answered
  refine Endpoint.lastAckSent_append sent ?_ nofun
  intro q member
  rw [List.eq_of_mem_replicate member]
  exact ⟨(buildPacket_acks _ _).1, rfl⟩

theorem Takes.lastAckSent {p : Packet} {chunk : Bytes} {e e' : Endpoint}
    (takes : Takes p chunk e e') (before : e.lastAckSent = some e.ctx.ackNum) :
    e'.lastAckSent = some e'.ctx.ackNum := by
  rcases takes.answered with answered | ⟨same, sent⟩
  · exact answered.lastAckSent
  · rw [← Endpoint.intake_ackNum, same, Endpoint.intake_ackNum, ← before, Endpoint.lastAckSent,
      Endpoint.lastAckSent, sent]

theorem Steady.lastAckSent {sort : Packet → Prop} {e e' : Endpoint} (steady : Steady sort e e')
    (before : e.lastAckSent = some e.ctx.ackNum) : e'.lastAckSent = some e'.ctx.ackNum := by
  obtain ⟨new, sent, tell⟩ := steady.sent
  rw [steady.ackNum]
  refine Endpoint.lastAckSent_append sent ?_ fun _ => before
  intro q member
  obtain ⟨-, flag, acks, -⟩ := tell q member
  exact ⟨flag, acks⟩

/-- The invariant of the receiving side: until a FIN is read the two counters are one, and
what has been acknowledged last is what has been accepted last. -/
structure Synced (e : Endpoint) : Prop where
  window : e.ctx.recvWindowSize = receiverWindowSize
  untouched : (e.opened → e.ctx.connectionState = .established) →
    e.ctx.done = false ∧ e.ctx.finReceived = false
  counters : e.ctx.finReceived = false → e.ctx.nextSeqExpected = e.ctx.ackNum
  acked : e.phase = .awaitAck ∨ e.phase = .controlLoop → e.lastAckSent = some e.ctx.ackNum

theorem Synced.steady {sort : Packet → Prop} {e e' : Endpoint} (synced : Synced e)
    (phase : e.phase = .controlLoop) (steady : Steady sort e e') : Synced e' where
  window := steady.window.trans synced.window
  untouched state := by
    have looping : e'.phase = .controlLoop := steady.phase.trans phase
    obtain ⟨before, done⟩ := steady.established (state (.inl looping))
    obtain ⟨running, noFin⟩ := synced.untouched fun _ => before
    exact ⟨done.trans running, steady.finReceived.trans noFin⟩
  counters noFin := by
    rw [steady.finReceived] at noFin
    rw [steady.nextSeqExpected, steady.ackNum]
    exact synced.counters noFin
  acked _ := steady.lastAckSent (synced.acked (.inr phase))

theorem Ctx.onFin_ne_established (c : Ctx) : c.onFin.connectionState ≠ .established := by
  unfold Ctx.onFin
  split <;> simp_all

theorem Ctx.onFullAck_established {c : Ctx}
    (state : c.onFullAck.connectionState = .established) : c.onFullAck = c := by
  unfold Ctx.onFullAck at state ⊢
  split <;> simp_all

theorem handleData_state (p : Packet) (e : Endpoint) :
    (handleData p e).ctx.connectionState = e.ctx.connectionState ∧
      (handleData p e).ctx.done = e.ctx.done := by
  have accept (e₁ : Endpoint) :
      (sendPacket [] thAckFlag { e₁ with ctx := e.ctx.onData p }).ctx.connectionState =
          e.ctx.connectionState ∧
        (sendPacket [] thAckFlag { e₁ with ctx := e.ctx.onData p }).ctx.done = e.ctx.done := by
    obtain ⟨used, expected, acked, counters⟩ := e.ctx.onData_eq p
    rw [counters]
    exact ⟨rfl, rfl⟩
  rcases handleData_cases p e with
    ⟨-, same⟩ | ⟨-, -, same⟩ | ⟨-, -, -, same⟩ | ⟨-, -, -, same⟩
  · rw [same]
    exact ⟨rfl, rfl⟩
  · rw [same]
    exact ⟨rfl, rfl⟩
  · rw [same]
    exact accept e
  · rw [same]
    exact accept _

/-- Only a packet without FIN that finds `ESTABLISHED` leaves it. -/
theorem handlePacket_established {p : Packet} {rest : List (Option Packet)} {e : Endpoint}
    (state : (handlePacket p rest e).ctx.connectionState = .established) :
    p.has thFin = false ∧ e.ctx.connectionState = .established ∧
      (handlePacket p rest e).ctx.done = e.ctx.done := by
  unfold handlePacket at state ⊢
  obtain ⟨stays, done⟩ := handleData_state p (handleAck p (handleFin p (receivePacket p rest e)))
  rw [stays] at state
  rw [done]
  have acked : (handleFin p (receivePacket p rest e)).ctx.connectionState = .established ∧
      (handleAck p (handleFin p (receivePacket p rest e))).ctx.done =
        (handleFin p (receivePacket p rest e)).ctx.done := by
    generalize handleFin p (receivePacket p rest e) = e₁ at state
    unfold handleAck at state ⊢
    split at state
    · next full =>
        have same := Ctx.onFullAck_established state
        rw [if_pos full]
        dsimp only at state ⊢
        rw [same] at state ⊢
        exact ⟨state, rfl⟩
    · next partly =>
        rw [if_neg partly]
        exact ⟨state, rfl⟩
  rw [acked.2]
  have opened := acked.1
  unfold handleFin at opened ⊢
  split at opened
  · exact absurd opened (Ctx.onFin_ne_established _)
  · next noFin =>
      rw [if_neg noFin]
      exact ⟨Bool.not_eq_true _ ▸ noFin, opened, rfl⟩

theorem Synced.packet {p : Packet} {rest : List (Option Packet)} {e : Endpoint} (synced : Synced e)
    (phase : e.phase = .controlLoop) : Synced (handlePacket p rest e) where
  window := (handlePacket_frame p rest e).recvWindowSize.trans synced.window
  untouched state := by
    have looping : (handlePacket p rest e).phase = .controlLoop :=
      (handlePacket_frame p rest e).phase.trans phase
    obtain ⟨noFin, before, done⟩ := handlePacket_established (state (.inl looping))
    obtain ⟨running, unread⟩ := synced.untouched fun _ => before
    refine ⟨done.trans running, ?_⟩
    rw [← Endpoint.intake_finReceived]
    cases handlePacket_takes p rest e with
    | fin flag _ _ => exact absurd (flag.symm.trans noFin) (by decide)
    | bare _ _ after _ => rw [after, Endpoint.intake_finReceived, unread]
    | late _ _ _ after _ => rw [after, Endpoint.intake_finReceived, unread]
    | stranded _ _ _ _ after _ => rw [after, Intake.strand, Endpoint.intake_finReceived, unread]
    | passed _ _ _ _ after _ =>
        rw [after, Intake.finReceived_pass, Endpoint.intake_finReceived, unread]
  counters unread := by
    rw [← Endpoint.intake_nextSeqExpected, ← Endpoint.intake_ackNum]
    rw [← Endpoint.intake_finReceived] at unread
    cases handlePacket_takes p rest e with
    | fin _ after _ =>
        rw [after] at unread
        cases unread
    | bare _ _ after _ =>
        rw [after] at unread ⊢
        exact synced.counters unread
    | late _ _ _ after _ =>
        rw [after] at unread ⊢
        exact synced.counters unread
    | stranded _ _ inOrder unexpected after _ =>
        rw [after] at unread
        exact absurd (inOrder.trans (synced.counters unread).symm) unexpected
    | passed _ _ inOrder _ after _ =>
        rw [after, Intake.pass]
        dsimp only
        rw [inOrder, Endpoint.intake_ackNum]
  acked _ := (handlePacket_takes p rest e).lastAckSent (synced.acked (.inr phase))

theorem Synced.iterated {e e' : Endpoint} (synced : Synced e) (phase : e.phase = .controlLoop)
    (iterated : e.Iterated e') : Synced e' := by
  cases iterated with
  | idle e₁ _ before after =>
      exact (synced.steady phase before).steady (before.phase.trans phase) after
  | read p rest e₁ _ before after =>
      have looping : e₁.phase = .controlLoop := before.phase.trans phase
      exact ((synced.steady phase before).packet looping).steady
        ((handlePacket_frame p rest e₁).phase.trans looping) after

theorem Synced.wake {e e' : Endpoint} (synced : Synced e) (step : e.wake = some e') :
    Synced e' := by
  have early (closed : ¬ e.opened) : e.ctx.done = false ∧ e.ctx.finReceived = false :=
    synced.untouched fun opened => absurd opened closed
  cases e.wake_cases step with
  | refused refused =>
      obtain ⟨away, closed⟩ := e.wake_refused step refused
      refine ⟨?_, fun _ => ?_, ?_, ?_⟩
      · rw [away.ctx]
        exact synced.window
      · rw [away.ctx]
        exact early closed
      · rw [away.ctx]
        exact synced.counters
      · rw [away.phase]
        simp
  | syn phase _ =>
      exact ⟨synced.window, fun _ => early (by simp [Endpoint.opened, phase]), synced.counters,
        by simp [sendSyn]⟩
  | listen phase _ =>
      exact ⟨synced.window, fun _ => early (by simp [Endpoint.opened, phase]), synced.counters,
        by simp⟩
  | synAck phase =>
      refine ⟨synced.window, fun _ => early (by simp [Endpoint.opened, phase]), fun _ => rfl,
        fun _ => Endpoint.lastAckSent_append (e := e) rfl ?_ (by simp)⟩
      intro q member
      rw [List.mem_singleton.mp member]
      exact ⟨(buildPacket_acks _ _).1, rfl⟩
  | synRead phase =>
      refine ⟨synced.window, fun _ => early (by simp [Endpoint.opened, phase]), fun _ => rfl,
        fun _ => Endpoint.lastAckSent_append (e := e) rfl ?_ (by simp)⟩
      intro q member
      rw [List.mem_singleton.mp member]
      exact ⟨(buildPacket_acks _ _).2.2, rfl⟩
  | ackRead phase =>
      exact ⟨synced.window, fun _ => early (by simp [Endpoint.opened, phase]), synced.counters,
        fun _ => synced.acked (.inl phase)⟩
  | iteration phase running waited =>
      exact synced.iterated phase (e.wake_iterated step phase running)
  | exit phase done =>
      exact ⟨synced.window, fun state => synced.untouched fun _ => state (.inr rfl),
        synced.counters, by simp [threadExit, enqueueForApp]⟩

theorem Synced.input {e e' : Endpoint} {i : Input} (synced : Synced e)
    (step : e.input i = some e') : Synced e' := by
  by_cases woken : i = .wake
  · rw [woken] at step
    exact synced.wake step
  · obtain ⟨ctx, phase, sent, -, -, -⟩ := Endpoint.input_frame step woken
    have last : e'.lastAckSent = e.lastAckSent := by
      rw [Endpoint.lastAckSent, sent, Endpoint.lastAckSent]
    refine ⟨?_, ?_, ?_, ?_⟩
    · rw [ctx]
      exact synced.window
    · rw [ctx, Endpoint.opened, phase]
      exact synced.untouched
    · rw [ctx]
      exact synced.counters
    · rw [ctx, phase, last]
      exact synced.acked

theorem Synced.init (isActive : Bool) (initialSequenceNum : TcpSeq) :
    Synced (Endpoint.init isActive initialSequenceNum) :=
  ⟨rfl, fun _ => ⟨rfl, rfl⟩, fun _ => rfl, nofun⟩

theorem Synced.run {e e' : Endpoint} (synced : Synced e)
    (run : Relation.ReflTransGen AnyStep e e') : Synced e' := by
  induction run with
  | refl => exact synced
  | tail _ step ih =>
      obtain ⟨i, step⟩ := step
      exact ih.input step

/-! ## Segments in order -/

/-- The nodes that a receiver owes the application for `p`: its data, and behind it the
end-of-file marker of its FIN. -/
def Packet.nodes (p : Packet) : List Bytes :=
  (if p.data = [] then [] else [p.data]) ++ if p.has thFin then [[]] else []

/-- The whole of `p` has been accepted. -/
structure FullyAccepted (p : Packet) (e e' : Endpoint) : Prop where
  queued : e'.sock.appSendQueue = e.sock.appSendQueue ++ p.nodes
  advanced : e'.ctx.ackNum =
    e.ctx.ackNum + UInt32.ofNat p.data.length + if p.has thFin then 1 else 0
  acked : e'.lastAckSent = some e'.ctx.ackNum

theorem Endpoint.wake_ready {e : Endpoint} {p : Packet} (phase : e.phase = .controlLoop)
    (running : e.ctx.done = false) (next : e.nextPacket = some p) : ∃ e', e.wake = some e' := by
  have queued : e.sock.networkRecvQueue.isEmpty = false := by
    cases nodes : e.sock.networkRecvQueue with
    | nil =>
        rw [Endpoint.nextPacket, nodes] at next
        cases next
    | cons node rest => rfl
  simp [Endpoint.wake, phase, running, stcpWaitForEvent, anyEvent, queued]

/-- What is accepted of an in-order segment, from the counters it meets. -/
theorem Takes.accepted_iff {p : Packet} {e e' : Endpoint} (takes : Takes p p.data e e')
    (length : dataLen p = p.data.length) (inOrder : p.thSeq = e.ctx.ackNum)
    (expected : e.ctx.nextSeqExpected = e.ctx.ackNum) :
    (e'.sock.appSendQueue = e.sock.appSendQueue ++ p.nodes ∧
        e'.ctx.ackNum =
          e.ctx.ackNum + UInt32.ofNat p.data.length + if p.has thFin then 1 else 0) ↔
      ¬ (p.has thFin = true ∧ p.data ≠ []) := by
  have some_iff : dataLen p > 0 ↔ p.data ≠ [] := by
    rw [length]
    exact List.length_pos_iff
  rw [← Endpoint.intake_appSendQueue, ← Endpoint.intake_ackNum]
  cases takes with
  | fin flag after _ =>
      rw [after]
      simp only [Intake.finish, Intake.enqueue, Packet.nodes, flag, if_true, true_and]
      by_cases data : p.data = []
      · simp [data, inOrder]
      · simp [data]
  | bare noFin empty after _ =>
      have data : p.data = [] := List.eq_nil_of_length_eq_zero (length ▸ empty)
      rw [after]
      simp [Packet.nodes, noFin, data]
  | late _ _ late _ _ => exact absurd inOrder late
  | stranded _ _ _ unexpected _ _ => exact absurd (inOrder.trans expected.symm) unexpected
  | passed noFin some _ _ after _ =>
      have data : p.data ≠ [] := some_iff.mp some
      rw [after]
      simp [Intake.pass, Intake.enqueue, Packet.nodes, noFin, data, length, List.length_pos_iff]

/-- In every state that a run reaches in `ESTABLISHED`, an in-order segment is accepted as a whole
exactly when it does not carry both data and a FIN. -/
theorem in_order_accepted_iff {isActive : Bool} {initialSequenceNum : TcpSeq} {e : Endpoint}
    {p : Packet}
    (run : Relation.ReflTransGen AnyStep (Endpoint.init isActive initialSequenceNum) e)
    (looping : e.phase = .controlLoop) (state : e.ctx.connectionState = .established)
    (next : e.nextPacket = some p) (noOptions : p.thOff = 5) (short : p.data.length ≤ stcpMss)
    (inOrder : p.thSeq = e.ctx.ackNum) :
    ∃ e', e.wake = some e' ∧
      (FullyAccepted p e e' ↔ ¬ (p.has thFin = true ∧ p.data ≠ [])) := by
  have synced := (Synced.init isActive initialSequenceNum).run run
  obtain ⟨running, unread⟩ := synced.untouched fun _ => state
  obtain ⟨e', step⟩ := e.wake_ready looping running next
  refine ⟨e', step, ?_⟩
  cases e.wake_iterated step looping running with
  | idle _ none _ _ => exact absurd (none.symm.trans next) nofun
  | read q rest e₁ read before after =>
      obtain rfl : q = p := Option.some.inj (read.symm.trans next)
      have acked : e'.lastAckSent = some e'.ctx.ackNum :=
        (synced.wake step).acked
          (.inr (after.phase.trans ((handlePacket_frame _ rest e₁).phase.trans
            (before.phase.trans looping))))
      have queue : e₁.sock.appSendQueue = e.sock.appSendQueue :=
        congrArg Intake.appSendQueue before.intake
      have expected : e₁.ctx.nextSeqExpected = e₁.ctx.ackNum :=
        (synced.steady looping before).counters
          (before.finReceived.trans unread)
      have takes := handlePacket_takes q rest e₁
      rw [dataChunk_of_noOptions noOptions short] at takes
      have accepted := takes.accepted_iff (dataLen_of_noOptions noOptions short)
        (inOrder.trans before.ackNum.symm) expected
      rw [← Endpoint.intake_appSendQueue, ← Endpoint.intake_ackNum, ← after.intake, queue,
        before.ackNum] at accepted
      constructor
      · intro whole
        exact accepted.mp ⟨whole.queued, whole.advanced⟩
      · intro plain
        obtain ⟨queued, advanced⟩ := accepted.mpr plain
        exact ⟨queued, advanced, acked⟩

/-- The peer's half of the handshake. -/
def peerSynAck : Packet :=
  buildPacket { Ctx.init 1 with ackNum := 2 } [] (thSyn ||| thAckFlag)

/-- An active endpoint after the handshake, with one packet to read. -/
def greeted (p : Packet) : Endpoint :=
  { justEstablished 1 1 with
    sock.networkRecvQueue := [some p]
    hist.sent := [buildPacket (Ctx.init 1) [] thSyn,
      buildPacket { Ctx.init 1 with sequenceNum := 2, ackNum := 2 } [] thAckFlag]
    hist.received := [peerSynAck] }

theorem greeted_reached (p : Packet) :
    Relation.ReflTransGen AnyStep (Endpoint.init true 1) (greeted p) :=
  .tail (.tail (.tail (.tail .refl ⟨.wake, rfl⟩) ⟨.arrive peerSynAck, rfl⟩) ⟨.wake, rfl⟩)
    ⟨.arrive p, rfl⟩

theorem in_order_accepted_iff_segment :
    ∃ e', (greeted (segmentAt 0 [7])).wake = some e' ∧
      FullyAccepted (segmentAt 0 [7]) (greeted (segmentAt 0 [7])) e' := by
  obtain ⟨e', step, accepted⟩ :=
    in_order_accepted_iff (greeted_reached (segmentAt 0 [7])) rfl rfl rfl rfl (by decide) rfl
  exact ⟨e', step, accepted.mpr (by decide)⟩

/-- The last byte of a stream and the FIN in one segment. -/
def lastByte : Packet := { segmentAt 0 [7] with thFlags := thFin ||| thAckFlag }

/-- Of such a segment in order only the FIN is taken, at the place of the byte. -/
theorem lastByte_lost :
    Relation.ReflTransGen AnyStep (Endpoint.init true 1) (greeted lastByte) ∧
      (greeted lastByte).phase = .controlLoop ∧
      (greeted lastByte).ctx.connectionState = .established ∧
      (greeted lastByte).nextPacket = some lastByte ∧ lastByte.thOff = 5 ∧
      lastByte.data.length ≤ stcpMss ∧ lastByte.thSeq = (greeted lastByte).ctx.ackNum ∧
      ∃ e', (greeted lastByte).wake = some e' ∧ e'.sock.appSendQueue = [[]] ∧
        ¬ FullyAccepted lastByte (greeted lastByte) e' := by
  have ends : ((greeted lastByte).wake.map fun e => e.sock.appSendQueue) = some [[]] := by
    decide +kernel
  obtain ⟨e', step, queue⟩ := Option.map_eq_some_iff.mp ends
  refine ⟨greeted_reached lastByte, rfl, rfl, rfl, rfl, by decide, rfl, e', step, queue, ?_⟩
  intro accepted
  have queued := accepted.queued
  rw [queue] at queued
  cases queued

end CompNet.Stcp
