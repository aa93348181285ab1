import CompNet.Lib.Dialogue
import CompNet.Stcp.Prompt
import CompNet.Stcp.Receive

/-!
# Every run comes to rest

`settled_when_quiet` says what has happened once nothing is left to do.  Here
that is reached: every wake-up and every delivery uses up effort that the
applications' calls have put in.  An application's byte is worth more than the
segment it leaves in, a segment more than the acknowledgements it is answered
with, and an acknowledgement is answered with nothing.

That the loop sends at all rests on the window: no packet ever advertises less
than the whole of it, and nothing is ever subtracted from it.
-/

namespace CompNet.Stcp

open CompNet.Lib

/-! ## The window stays open -/

/-- What reading a packet relies on. -/
structure Packet.Usual (p : Packet) : Prop where
  noOptions : p.thOff = 5
  short : p.data.length ≤ stcpMss
  window : p.thWin = receiverWindowSize

theorem System.Prompt.usual {s : System} (prompt : s.Prompt) {side : Side} {p : Packet}
    (queued : some p ∈ (s.endpoint side).sock.networkRecvQueue) : p.Usual := by
  obtain ⟨c, direction⟩ := prompt.connected.direction side
  obtain ⟨k, flying, whole, known, ahead, -⟩ := prompt.heeds side
  have inbox := (prompt.connected.fifo side).inbox
  have sent : p ∈ (s.endpoint side.other).hist.sent := by
    have inside : some p ∈ (s.endpoint side).inbox := List.mem_append_right _ queued
    rw [inbox] at inside
    obtain ⟨q, member, same⟩ := List.mem_map.mp inside
    cases same
    exact List.mem_of_mem_take member
  have shape := Path.forall_mem
    (motive := fun p => p.thOff = 5 ∧ p.data.length ≤ stcpMss)
    (fun _ _ _ edge => ⟨edge.noOptions, edge.short⟩) direction p sent
  have covers := Path.append_iff.mpr ⟨k, known, ahead⟩
  rw [← whole] at covers
  exact ⟨shape.1, shape.2, Path.forall_mem (motive := fun p => p.thWin = receiverWindowSize)
    (fun _ _ _ edge => edge.acks.window) covers p sent⟩

/-- The peer's window is the whole of it, and nothing is subtracted from it. -/
structure Endpoint.Roomy (e : Endpoint) : Prop where
  window : e.ctx.peerWindowSize = receiverWindowSize
  still : e.ctx.lastByteSent = e.ctx.lastAckReceived

theorem Endpoint.Roomy.maxToSend {e : Endpoint} (roomy : e.Roomy) :
    maxToSend e.ctx = stcpMss := by
  simp [Stcp.maxToSend, roomy.window, roomy.still, receiverWindowSize, stcpMss]

theorem Endpoint.Roomy.of_frame {e e' : Endpoint} (roomy : e.Roomy) (frame : Frame e e')
    (window : e'.ctx.peerWindowSize = receiverWindowSize) : e'.Roomy where
  window := window
  still := by rw [frame.lastByteSent, frame.lastAckReceived, roomy.still]

theorem handlePacket_window (p : Packet) (rest : List (Option Packet)) (e : Endpoint) :
    (handlePacket p rest e).ctx.peerWindowSize = p.thWin := by
  have fin : (handleFin p (receivePacket p rest e)).ctx.peerWindowSize = p.thWin := by
    rcases handleFin_cases p (receivePacket p rest e) with ⟨-, same⟩ | ⟨-, _, _, same⟩ <;>
      rw [same] <;> rfl
  obtain ⟨state, done, acked, ack⟩ := handleAck_eq p (handleFin p (receivePacket p rest e))
  have data (e : Endpoint) : (handleData p e).ctx.peerWindowSize = e.ctx.peerWindowSize := by
    obtain ⟨used, expected, acked, moved⟩ := e.ctx.onData_eq p
    rcases handleData_cases p e with
      ⟨-, same⟩ | ⟨-, -, same⟩ | ⟨-, -, -, same⟩ | ⟨-, -, -, same⟩ <;> rw [same]
    · rfl
    · change (e.ctx.onData p).peerWindowSize = e.ctx.peerWindowSize
      rw [moved]
    · change (e.ctx.onData p).peerWindowSize = e.ctx.peerWindowSize
      rw [moved]
  rw [handlePacket, data, ack]
  exact fin

/-- What the queue holds is usual, and the window is open. -/
structure Endpoint.Clear (e : Endpoint) : Prop where
  roomy : e.Roomy
  usual : ∀ p, some p ∈ e.sock.networkRecvQueue → p.Usual

theorem Endpoint.Clear.of_frame {e e' : Endpoint} (clear : e.Clear) (frame : Frame e e')
    (window : e'.ctx.peerWindowSize = e.ctx.peerWindowSize)
    (queue : e'.sock.networkRecvQueue ⊆ e.sock.networkRecvQueue) : e'.Clear where
  roomy := clear.roomy.of_frame frame (window.trans clear.roomy.window)
  usual p queued := clear.usual p (queue queued)

theorem Endpoint.Clear.appData {e : Endpoint} (clear : e.Clear) : (handleAppData e).Clear := by
  refine clear.of_frame (handleAppData_frame e) ?_ ?_
  · rcases handleAppData_cases e with same | ⟨_, _, -, ⟨-, same⟩ | ⟨-, same⟩⟩ <;> rw [same]
  · rw [handleAppData_queue]
    exact List.Subset.refl _

theorem Endpoint.Clear.readError {e : Endpoint} {rest : List (Option Packet)} (clear : e.Clear)
    (head : e.sock.networkRecvQueue = none :: rest) : (handleReadError rest e).Clear := by
  refine clear.of_frame (handleReadError_frame rest e) ?_ ?_ <;> unfold handleReadError <;>
    dsimp only <;> split
  · rfl
  · rfl
  · rw [head]
    exact List.subset_cons_self _ _
  · rw [head]
    exact List.subset_cons_self _ _

theorem Endpoint.Clear.packet {e : Endpoint} {p : Packet} {rest : List (Option Packet)}
    (clear : e.Clear) (head : e.sock.networkRecvQueue = some p :: rest) :
    (handlePacket p rest e).Clear where
  roomy := clear.roomy.of_frame (handlePacket_frame p rest e)
    ((handlePacket_window p rest e).trans (clear.usual p (by simp [head])).window)
  usual q queued := by
    rw [(handlePacket_received p rest e).2] at queued
    exact clear.usual q (by rw [head]; exact List.mem_cons_of_mem _ queued)

theorem Endpoint.Clear.close {e : Endpoint} (clear : e.Clear) : (handleClose e).Clear := by
  refine clear.of_frame (handleClose_frame e) ?_ ?_ <;>
    rcases handleClose_cases e with ⟨-, same⟩ | ⟨-, _, same⟩ <;> rw [same]
  · exact List.Subset.refl _
  · exact List.Subset.refl _

theorem Endpoint.Clear.iteration {e : Endpoint} (clear : e.Clear) (ev : Event) :
    (controlLoopIteration ev e).Clear := by
  apply controlLoopIteration_keeps (motive := Endpoint.Clear) clear clear.appData
  · intro e₁ rest before head
    exact before.readError head
  · intro e₁ p rest before head
    exact before.packet head
  · intro _ e₁ before
    exact before.close

theorem Endpoint.Clear.input {e e' : Endpoint} {i : Input} (clear : e.Clear)
    (step : e.input i = some e') (accepted : e'.phase ≠ .refused) : e'.Roomy := by
  by_cases wakes : i = .wake
  · subst wakes
    cases e.wake_cases step with
    | refused refused => exact absurd refused accepted
    | syn phase active => exact ⟨clear.roomy.window, clear.roomy.still⟩
    | listen phase passive => exact ⟨clear.roomy.window, clear.roomy.still⟩
    | synAck phase head asked flag acked =>
        exact ⟨(clear.usual _ (by simp [head])).window, clear.roomy.still⟩
    | synRead phase head asked =>
        exact ⟨(clear.usual _ (by simp [head])).window, clear.roomy.still⟩
    | ackRead phase head asked flag acked =>
        exact ⟨(clear.usual _ (by simp [head])).window, clear.roomy.still⟩
    | @iteration ev sock phase running waited =>
        obtain ⟨-, -, -, rfl⟩ := stcpWaitForEvent_spec waited
        have waiting : Endpoint.Clear { e with
            sock.closeRequested := e.sock.closeRequested && !ev.appCloseRequested } :=
          ⟨⟨clear.roomy.window, clear.roomy.still⟩, clear.usual⟩
        exact (waiting.iteration ev).roomy
    | exit phase done => exact ⟨clear.roomy.window, clear.roomy.still⟩
  · obtain ⟨ctx, -⟩ := Endpoint.input_frame step wakes
    exact ⟨by rw [ctx]; exact clear.roomy.window, by rw [ctx]; exact clear.roomy.still⟩

/-- Both directions prompt, and both windows open. -/
structure System.Lively (s : System) : Prop where
  prompt : s.Prompt
  roomy : ∀ side, (s.endpoint side).Roomy

theorem System.Lively.clear {s : System} (lively : s.Lively) (side : Side) :
    (s.endpoint side).Clear :=
  ⟨lively.roomy side, fun _ => lively.prompt.usual⟩

theorem System.init_lively (initialSequenceNum : Side → TcpSeq) :
    (System.init initialSequenceNum).Lively :=
  ⟨System.init_prompt initialSequenceNum, fun _ => ⟨rfl, rfl⟩⟩

theorem System.Lively.step {s s' : System} {a : Action} (lively : s.Lively)
    (step : s.step a = some s') (orderly : s.Orderly a) : s'.Lively := by
  have prompt := lively.prompt.step step orderly
  refine ⟨prompt, fun side' => ?_⟩
  obtain ⟨side, i, e, input, updated, -⟩ := System.step_input step
  have accepted := prompt.accepted side'
  rw [updated] at accepted ⊢
  by_cases same : side' = side
  · subst same
    rw [Function.update_self] at accepted ⊢
    exact (lively.clear side').input input accepted
  · rw [Function.update_of_ne same]
    exact lively.roomy side'

theorem System.Lively.run {s s' : System} {actions : List Action} (lively : s.Lively)
    (run : s.OrderlyRun actions s') : s'.Lively :=
  Path.invariant (fun _ _ _ edge lively => lively.step edge.1 edge.2) run lively

/-! ## What there is still to do -/

/-- Reading a packet: one that takes up sequence numbers is answered with two
acknowledgements at most, any other with none. -/
def Packet.effort (p : Packet) : Nat := if p.span = 0 then 1 else 5

/-- Reading a network queue. -/
def queueEffort (queue : List (Option Packet)) : Nat :=
  (queue.map fun node => node.elim 1 Packet.effort).sum

/-- On its way a packet has its delivery before it, too. -/
def sendingEffort (packets : List Packet) : Nat := (packets.map fun p => p.effort + 1).sum

/-- Sending what an application has written, at worst byte by byte. -/
def writingEffort (nodes : List Bytes) : Nat := 7 * nodes.flatten.length + nodes.length

/-- What is left of the handshake and of the loop. -/
def Phase.effort : Phase → Nat
  | .start => 40
  | .awaitSynAck | .awaitSyn => 20
  | .awaitAck => 10
  | .controlLoop => 1
  | .refused | .exited => 0

/-- What there is to do at an endpoint, but for a close that was asked for. -/
def Endpoint.work (e : Endpoint) : Nat :=
  e.phase.effort + queueEffort e.sock.networkRecvQueue + writingEffort e.sock.appRecvQueue

def Endpoint.effort (e : Endpoint) : Nat := e.work + 7 * e.sock.closeRequested.toNat

@[simp] theorem queueEffort_cons (node : Option Packet) (queue : List (Option Packet)) :
    queueEffort (node :: queue) = node.elim 1 Packet.effort + queueEffort queue := by
  simp [queueEffort]

@[simp] theorem queueEffort_append (first second : List (Option Packet)) :
    queueEffort (first ++ second) = queueEffort first + queueEffort second := by
  simp [queueEffort]

@[simp] theorem sendingEffort_nil : sendingEffort [] = 0 := rfl

@[simp] theorem sendingEffort_append (first second : List Packet) :
    sendingEffort (first ++ second) = sendingEffort first + sendingEffort second := by
  simp [sendingEffort]

@[simp] theorem sendingEffort_singleton (p : Packet) : sendingEffort [p] = p.effort + 1 := by
  simp [sendingEffort]

theorem Packet.effort_le (p : Packet) : p.effort ≤ 5 := by
  unfold Packet.effort
  split <;> omega

theorem Packet.effort_pos (p : Packet) : 0 < p.effort := by
  unfold Packet.effort
  split <;> omega

/-- An acknowledgement takes up nothing. -/
theorem bareAck_effort (ctx : Ctx) : (buildPacket ctx [] thAckFlag).effort = 1 := by
  simp [Packet.effort, Packet.span]

/-- With `credit` in hand, `e` came to `e'` and has `left` over. -/
def Spends (credit left : Nat) (e e' : Endpoint) : Prop :=
  ∃ new, e'.hist.sent = e.hist.sent ++ new ∧
    e'.work + sendingEffort new + left ≤ e.work + credit

theorem Spends.refl (n : Nat) (e : Endpoint) : Spends n n e e := ⟨[], by simp, by simp⟩

theorem Spends.trans {a b c : Nat} {e₁ e₂ e₃ : Endpoint} (first : Spends a b e₁ e₂)
    (second : Spends b c e₂ e₃) : Spends a c e₁ e₃ := by
  obtain ⟨new₁, sent₁, spent₁⟩ := first
  obtain ⟨new₂, sent₂, spent₂⟩ := second
  refine ⟨new₁ ++ new₂, by rw [sent₂, sent₁, List.append_assoc], ?_⟩
  rw [sendingEffort_append]
  omega

theorem Spends.less {a b c : Nat} {e e' : Endpoint} (spends : Spends a b e e') (le : c ≤ b) :
    Spends a c e e' := by
  obtain ⟨new, sent, spent⟩ := spends
  exact ⟨new, sent, by omega⟩

/-- A chunk is worth the segment it is sent in, and an empty node the look at it. -/
theorem writingEffort_dequeue {maxLen : Nat} {queue rest : List Bytes} {chunk : Bytes}
    (dequeued : dequeuePartial maxLen queue = some (chunk, rest)) :
    writingEffort rest + 7 * chunk.length ≤ writingEffort queue ∧
      (chunk = [] → 0 < maxLen → writingEffort rest + 1 ≤ writingEffort queue) := by
  have whole := congrArg List.length (dequeuePartial_flatten dequeued)
  rw [List.length_append] at whole
  cases queue with
  | nil => cases dequeued
  | cons node tail =>
      simp only [dequeuePartial] at dequeued
      split at dequeued
      · next long =>
          cases dequeued
          simp only [writingEffort, List.length_cons] at whole ⊢
          refine ⟨by omega, fun empty some => ?_⟩
          rw [List.take_eq_nil_iff] at empty
          rcases empty with zero | rfl
          · omega
          · exact absurd long (Nat.not_lt_zero _)
      · cases dequeued
        simp only [writingEffort, List.length_cons] at whole ⊢
        exact ⟨by omega, fun _ _ => by omega⟩

theorem handleAppData_spends {e : Endpoint} (roomy : e.Roomy)
    (written : e.sock.appRecvQueue ≠ []) (n : Nat) : Spends n (n + 1) e (handleAppData e) := by
  have dequeues : ∃ chunk rest,
      dequeuePartial (maxToSend e.ctx) e.sock.appRecvQueue = some (chunk, rest) := by
    obtain ⟨node, tail, queue⟩ := List.exists_cons_of_ne_nil written
    rw [queue, dequeuePartial]
    split
    · exact ⟨_, _, rfl⟩
    · exact ⟨_, _, rfl⟩
  obtain ⟨chunk, rest, dequeued⟩ := dequeues
  have sends : 0 < maxToSend e.ctx := by
    rw [roomy.maxToSend]
    decide
  obtain ⟨bytes, node⟩ := writingEffort_dequeue dequeued
  rw [handleAppData, if_pos sends, dequeued]
  dsimp only
  split
  · next some =>
      refine ⟨_, rfl, ?_⟩
      have cost := (buildPacket e.ctx chunk thAckFlag).effort_le
      simp only [Endpoint.work, sendPacket, sendingEffort_singleton]
      omega
  · next empty =>
      refine ⟨[], by simp, ?_⟩
      have less := node (List.length_eq_zero_iff.mp (Nat.eq_zero_of_not_pos empty)) sends
      simp only [Endpoint.work, sendingEffort_nil]
      omega

/-- What the loop answers a packet with. -/
theorem handlePacket_answers (p : Packet) (rest : List (Option Packet)) (e : Endpoint) :
    ∃ n ≤ 2, (handlePacket p rest e).hist.sent = e.hist.sent ++
      List.replicate n (buildPacket (handlePacket p rest e).ctx [] thAckFlag) := by
  obtain ⟨n, sent⟩ := (handlePacket_onlyAcks p rest e).sent
  refine ⟨n, ?_, sent⟩
  have length := congrArg List.length sent
  rw [List.length_append, List.length_replicate] at length
  have fin : (handleFin p (receivePacket p rest e)).hist.sent.length ≤ e.hist.sent.length + 1 := by
    rcases handleFin_cases p (receivePacket p rest e) with ⟨-, same⟩ | ⟨-, _, _, same⟩ <;>
      rw [same]
    · exact Nat.le_succ _
    · simp [receivePacket]
  have ack : (handleAck p (handleFin p (receivePacket p rest e))).hist.sent =
      (handleFin p (receivePacket p rest e)).hist.sent := by
    obtain ⟨state, done, acked, same⟩ := handleAck_eq p (handleFin p (receivePacket p rest e))
    rw [same]
  have data (e : Endpoint) : (handleData p e).hist.sent.length ≤ e.hist.sent.length + 1 := by
    rcases handleData_cases p e with
      ⟨-, same⟩ | ⟨-, -, same⟩ | ⟨-, -, -, same⟩ | ⟨-, -, -, same⟩
    · rw [same]
      omega
    · simp [same, sendPacket]
    · simp [same, sendPacket]
    · obtain ⟨queue, delivered, passed⟩ := stcpAppSend_eq (dataChunk p e.buf) e
      rw [same, passed]
      simp [sendPacket]
  have whole := data (handleAck p (handleFin p (receivePacket p rest e)))
  rw [ack] at whole
  rw [handlePacket] at length
  omega

theorem handlePacket_spends {e : Endpoint} {p : Packet} {rest : List (Option Packet)}
    (usual : p.Usual) (head : e.sock.networkRecvQueue = some p :: rest) (n : Nat) :
    Spends n (n + 1) e (handlePacket p rest e) := by
  have phase := (handlePacket_frame p rest e).phase
  have app := (handlePacket_onlyAcks p rest e).appRecvQueue
  have queue := (handlePacket_received p rest e).2
  have answered : ∃ new, (handlePacket p rest e).hist.sent = e.hist.sent ++ new ∧
      sendingEffort new < p.effort := by
    by_cases nothing : p.span = 0
    · have noFin : p.has thFin = false := by
        by_contra fin
        simp [Packet.span, fin] at nothing
      have empty : p.data = [] := by
        simp only [Packet.span] at nothing
        exact List.length_eq_zero_iff.mp (by omega)
      obtain ⟨state, done, acked, bare⟩ := handlePacket_bare rest e usual.noOptions noFin empty
      exact ⟨[], by simp [bare, receivePacket], p.effort_pos⟩
    · obtain ⟨m, few, sent⟩ := handlePacket_answers p rest e
      refine ⟨_, sent, ?_⟩
      have cost : p.effort = 5 := if_neg nothing
      rw [sendingEffort, List.map_replicate, List.sum_replicate_nat, bareAck_effort, cost]
      omega
  obtain ⟨new, sent, cheap⟩ := answered
  refine ⟨new, sent, ?_⟩
  simp only [Endpoint.work, phase, app, queue, head, queueEffort_cons, Option.elim]
  omega

theorem handleClose_spends (e : Endpoint) (n : Nat) : Spends (n + 6) n e (handleClose e) := by
  rcases handleClose_cases e with ⟨-, same⟩ | ⟨-, state, same⟩ <;> rw [same]
  · exact ⟨[], by simp, by simp⟩
  · refine ⟨_, rfl, ?_⟩
    have cost := (buildPacket e.ctx [] (thFin ||| thAckFlag)).effort_le
    simp only [Endpoint.work, sendingEffort_singleton]
    omega

theorem handleReadError_spends {e : Endpoint} {rest : List (Option Packet)}
    (head : e.sock.networkRecvQueue = none :: rest) (n : Nat) :
    Spends n (n + 1) e (handleReadError rest e) := by
  unfold handleReadError
  dsimp only
  split
  · refine ⟨[], by simp, ?_⟩
    simp only [Endpoint.work, head, queueEffort_cons, Option.elim, sendingEffort_nil]
    omega
  · refine ⟨[], by simp, ?_⟩
    simp only [Endpoint.work, head, queueEffort_cons, Option.elim, sendingEffort_nil]
    omega

/-- An iteration has something left over for each event but the close, which
needs `6` of its `7`. -/
theorem Endpoint.Clear.iteration_spends {e : Endpoint} (clear : e.Clear) {ev : Event}
    (written : ev.appData = true → e.sock.appRecvQueue ≠ [])
    (arrived : ev.networkData = true → e.sock.networkRecvQueue ≠ []) :
    Spends (if ev.appCloseRequested then 6 else 0)
      ((if ev.appData then 1 else 0) + (if ev.networkData then 1 else 0)) e
      (controlLoopIteration ev e) := by
  have sends (credit : Nat) : Spends credit (credit + if ev.appData then 1 else 0) e
      (if ev.appData then handleAppData e else e) := by
    split
    · next asked => exact handleAppData_spends clear.roomy (written asked) credit
    · exact .refl _ e
  have cleared : (if ev.appData then handleAppData e else e).Clear ∧
      (if ev.appData then handleAppData e else e).sock.networkRecvQueue =
        e.sock.networkRecvQueue := by
    split
    · exact ⟨clear.appData, handleAppData_queue e⟩
    · exact ⟨clear, rfl⟩
  unfold controlLoopIteration
  generalize (if ev.appData then handleAppData e else e) = e₁ at sends cleared
  generalize (if ev.appData then 1 else 0) = saved at sends ⊢
  obtain ⟨clear₁, queue⟩ := cleared
  have closes (e₂ : Endpoint) (left : Nat) :
      Spends ((if ev.appCloseRequested then 6 else 0) + left) left e₂
        (if ev.appCloseRequested then handleClose e₂ else e₂) := by
    split
    · rw [Nat.add_comm]
      exact handleClose_spends e₂ left
    · rw [Nat.zero_add]
      exact .refl left e₂
  generalize (if ev.appCloseRequested then 6 else 0) = credit at closes ⊢
  cases read : ev.networkData with
  | false => exact (sends credit).trans (closes e₁ saved)
  | true =>
      have some := arrived read
      rw [← queue] at some
      obtain ⟨node, rest, head⟩ := List.exists_cons_of_ne_nil some
      dsimp only
      rw [head, if_pos rfl]
      cases node with
      | none =>
          have read := handleReadError_spends head (credit + saved)
          exact ((sends credit).trans read).less (by omega)
      | some p =>
          have usual := clear₁.usual p (by simp [head])
          exact ((sends credit).trans (handlePacket_spends usual head (credit + saved))).trans
            (closes _ (saved + 1))

/-- The packets of a wake-up and what is left to do come to less than there was. -/
def Lessens (e e' : Endpoint) : Prop :=
  ∃ new, e'.hist.sent = e.hist.sent ++ new ∧ e'.effort + sendingEffort new < e.effort

/-- A stage of the handshake reads one packet and sends at most one. -/
theorem Lessens.of_stage {e e' : Endpoint} {p : Packet} {rest : List (Option Packet)}
    {new : List Packet} (head : e.sock.networkRecvQueue = some p :: rest)
    (sent : e'.hist.sent = e.hist.sent ++ new) (queue : e'.sock.networkRecvQueue = rest)
    (written : e'.sock.appRecvQueue = e.sock.appRecvQueue)
    (asked : e'.sock.closeRequested = true → e.sock.closeRequested = true)
    (further : e'.phase.effort + sendingEffort new ≤ e.phase.effort) : Lessens e e' := by
  refine ⟨new, sent, ?_⟩
  have cost := p.effort_pos
  have closing : e'.sock.closeRequested.toNat ≤ e.sock.closeRequested.toNat :=
    Bool.toNat_le_toNat asked
  simp only [Endpoint.effort, Endpoint.work, queue, written, head, queueEffort_cons, Option.elim]
  omega

/-- A wait ends with something to report. -/
theorem stcpWaitForEvent_reports {flags ev : Event} {sock sock' : Mysock}
    (waited : stcpWaitForEvent flags sock = some (ev, sock')) :
    ev.appData = true ∨ ev.networkData = true ∨ ev.appCloseRequested = true := by
  simp only [stcpWaitForEvent] at waited
  split at waited
  · next some =>
      cases waited
      simpa [Bool.or_eq_true, or_assoc] using some
  · cases waited

theorem Endpoint.Clear.iteration_lessens {e : Endpoint} {ev : Event} {sock : Mysock}
    (clear : e.Clear) (waited : stcpWaitForEvent anyEvent e.sock = some (ev, sock)) :
    Lessens e (controlLoopIteration ev { e with sock := sock }) := by
  obtain ⟨written, arrived, closing, same⟩ := stcpWaitForEvent_spec waited
  have queues : sock.networkRecvQueue = e.sock.networkRecvQueue ∧
      sock.appRecvQueue = e.sock.appRecvQueue := by simp [same]
  have waiting : Endpoint.Clear { e with sock := sock } :=
    ⟨⟨clear.roomy.window, clear.roomy.still⟩, by rw [queues.1]; exact clear.usual⟩
  have spends : Spends _ _ _ (controlLoopIteration ev { e with sock := sock }) :=
    waiting.iteration_spends (by rw [queues.2]; exact written) (by rw [queues.1]; exact arrived)
  have asked := (controlLoopIteration_frame ev { e with sock := sock }).closeRequested
  generalize controlLoopIteration ev { e with sock := sock } = e' at spends asked
  obtain ⟨new, sent, spent⟩ := spends
  refine ⟨new, sent, ?_⟩
  simp only [Endpoint.work, queues] at spent
  rw [Endpoint.effort, Endpoint.effort, asked, same, Endpoint.work, Endpoint.work]
  rcases Bool.eq_false_or_eq_true ev.appCloseRequested with close | noClose
  · rw [if_pos close] at spent
    rw [(closing close).1, close, Bool.not_true, Bool.and_false, Bool.toNat_false, Bool.toNat_true]
    omega
  · have some : 0 < (if ev.appData then 1 else 0) + (if ev.networkData then 1 else 0) := by
      rcases stcpWaitForEvent_reports waited with app | network | close
      · rw [if_pos app]
        omega
      · rw [if_pos network]
        omega
      · exact absurd (close.symm.trans noClose) (by decide)
    have notAsked : ¬ ev.appCloseRequested = true := by
      rw [noClose]
      decide
    rw [if_neg notAsked] at spent
    rw [noClose, Bool.not_false, Bool.and_true]
    dsimp only
    omega

theorem Endpoint.Clear.wake_lessens {e e' : Endpoint} (clear : e.Clear)
    (step : e.wake = some e') (accepted : e'.phase ≠ .refused) : Lessens e e' := by
  cases e.wake_cases step with
  | refused refused => exact absurd refused accepted
  | syn phase active =>
      refine ⟨_, rfl, ?_⟩
      simp only [Endpoint.effort, Endpoint.work, sendSyn, sendPacket, phase, Phase.effort,
        sendingEffort_singleton]
      generalize buildPacket _ [] thSyn = p
      have cost := p.effort_le
      omega
  | listen phase passive =>
      refine ⟨[], by simp, ?_⟩
      simp only [Endpoint.effort, Endpoint.work, phase, Phase.effort, sendingEffort_nil]
      omega
  | synAck phase head asked flag acked =>
      refine .of_stage head rfl rfl rfl asked ?_
      simp only [Endpoint.acceptSynAck, phase, Phase.effort, sendingEffort_singleton,
        bareAck_effort]
      omega
  | synRead phase head asked =>
      refine .of_stage head rfl rfl rfl asked ?_
      simp only [Endpoint.acceptSyn, phase, Phase.effort, sendingEffort_singleton]
      generalize buildPacket _ [] (thSyn ||| thAckFlag) = p
      have cost := p.effort_le
      omega
  | ackRead phase head asked flag acked =>
      refine .of_stage head (List.append_nil _).symm rfl rfl asked ?_
      simp only [Endpoint.acceptAck, phase, Phase.effort, sendingEffort_nil]
      omega
  | iteration phase running waited => exact clear.iteration_lessens waited
  | exit phase done =>
      refine ⟨[], by simp [threadExit, enqueueForApp], ?_⟩
      simp only [Endpoint.effort, Endpoint.work, threadExit, enqueueForApp, phase, Phase.effort,
        sendingEffort_nil]
      omega

/-! ## What threads and network do by themselves -/

/-- A wake-up or a delivery. -/
def System.OwnStep (s s' : System) : Prop :=
  ∃ side, s.step (.wake side) = some s' ∨ s.step (.deliver side) = some s'

/-- The packets on their way to `side`. -/
def System.channel (s : System) (side : Side) : List Packet :=
  (s.endpoint side.other).hist.sent.drop (s.arrived side)

def System.effortAt (s : System) (side : Side) : Nat :=
  (s.endpoint side).effort + sendingEffort (s.channel side)

def System.effort (s : System) : Nat := s.effortAt .active + s.effortAt .passive

theorem System.effort_eq (s : System) (side : Side) :
    s.effort = s.effortAt side + s.effortAt side.other := by
  cases side
  · rfl
  · exact Nat.add_comm _ _

theorem System.Lively.wake_lt {s s' : System} {side : Side} (lively : s.Lively)
    (step : s.step (.wake side) = some s') : s'.effort < s.effort := by
  obtain ⟨e', woken, rfl⟩ := Option.map_eq_some_iff.mp step
  obtain ⟨new, sent, less⟩ :=
    (lively.clear side).wake_lessens woken (lively.prompt.wake_accepted woken)
  have others := side.other_ne
  have bound := (lively.prompt.connected.fifo side.other).bound
  rw [Side.other_other] at bound
  rw [System.effort_eq _ side, System.effort_eq s side]
  simp only [System.effortAt, System.channel, Function.update_self, Function.update_of_ne others,
    Side.other_other, sent, List.drop_append_of_le_length bound, sendingEffort_append]
  omega

theorem System.deliver_lt {s s' : System} {side : Side}
    (step : s.step (.deliver side) = some s') : s'.effort < s.effort := by
  simp only [System.step] at step
  split at step
  · cases step
  · next p next =>
      obtain ⟨middle, acted, rfl⟩ := Option.map_eq_some_iff.mp step
      obtain ⟨e', arrived, rfl⟩ := Option.map_eq_some_iff.mp acted
      cases arrived
      have others := side.other_ne
      have head : s.channel side =
          p :: (s.endpoint side.other).hist.sent.drop (s.arrived side + 1) := by
        obtain ⟨inside, same⟩ := List.getElem?_eq_some_iff.mp next
        rw [System.channel, List.drop_eq_getElem_cons inside, same]
      rw [System.effort_eq _ side, System.effort_eq s side, System.effortAt, System.effortAt,
        System.effortAt, System.effortAt, head]
      simp only [System.channel, Function.update_self, Function.update_of_ne others,
        Side.other_other]
      rw [← List.singleton_append, sendingEffort_append, sendingEffort_singleton]
      simp only [Endpoint.effort, Endpoint.work, Endpoint.arrive, queueEffort_append]
      have reading : queueEffort [some p] = p.effort := by simp [queueEffort]
      omega

theorem System.Lively.own_lt {s s' : System} (lively : s.Lively) (step : s.OwnStep s') :
    s'.effort < s.effort := by
  obtain ⟨side, woken | delivered⟩ := step
  · exact lively.wake_lt woken
  · exact System.deliver_lt delivered

/-- A thread only reads what the application has done. -/
theorem Endpoint.wake_application {e e' : Endpoint} (step : e.wake = some e')
    (accepted : e'.phase ≠ .refused) :
    e'.hist.written = e.hist.written ∧ e'.hist.closed = e.hist.closed := by
  cases e.wake_cases step with
  | refused refused => exact absurd refused accepted
  | syn | listen | synAck | synRead | ackRead | exit => exact ⟨rfl, rfl⟩
  | @iteration ev sock phase running waited =>
      have frame := controlLoopIteration_frame ev { e with sock := sock }
      exact ⟨frame.written, frame.closed⟩

/-- What the applications of `s` have done is what those of `s'` have done. -/
def System.SameCalls (s s' : System) : Prop :=
  ∀ side, (s'.endpoint side).hist.written = (s.endpoint side).hist.written ∧
    (s'.endpoint side).hist.closed = (s.endpoint side).hist.closed

theorem System.Lively.own {s s' : System} (lively : s.Lively) (step : s.OwnStep s') :
    s'.Lively ∧ s.SameCalls s' := by
  have same {side : Side} {e : Endpoint} {arrived : Side → Nat}
      (calls : e.hist.written = (s.endpoint side).hist.written ∧
        e.hist.closed = (s.endpoint side).hist.closed) :
      s.SameCalls ⟨Function.update s.endpoint side e, arrived⟩ := by
    intro side'
    dsimp only
    by_cases here : side' = side
    · subst here
      rw [Function.update_self]
      exact calls
    · rw [Function.update_of_ne here]
      exact ⟨rfl, rfl⟩
  obtain ⟨side, woken | delivered⟩ := step
  · have lively' := lively.step woken trivial
    obtain ⟨e', went, rfl⟩ := Option.map_eq_some_iff.mp woken
    exact ⟨lively', same (Endpoint.wake_application went (lively.prompt.wake_accepted went))⟩
  · have lively' := lively.step delivered trivial
    simp only [System.step] at delivered
    split at delivered
    · cases delivered
    · obtain ⟨middle, acted, rfl⟩ := Option.map_eq_some_iff.mp delivered
      obtain ⟨e', arrived, rfl⟩ := Option.map_eq_some_iff.mp acted
      cases arrived
      exact ⟨lively', same ⟨rfl, rfl⟩⟩

/-- Once the applications have done what they do, the threads and the network
come to rest, whatever is scheduled when, and then nothing is left undone. -/
theorem transfer_completes {initialSequenceNum : Side → TcpSeq} {actions : List Action}
    {s : System} (run : (System.init initialSequenceNum).OrderlyRun actions s) :
    Inevitable System.OwnStep (fun s' => s'.Quiet ∧ s'.Settled ∧ s.SameCalls s') s := by
  refine .of_fuel (motive := fun s' => s'.Lively ∧ s.SameCalls s') System.effort ?_ ?_
    ⟨(System.init_lively initialSequenceNum).run run, fun _ => ⟨rfl, rfl⟩⟩
  · rintro s₁ s₂ ⟨lively, same⟩ step
    obtain ⟨lively', same'⟩ := lively.own step
    refine ⟨⟨lively', fun side => ?_⟩, lively.own_lt step⟩
    exact ⟨(same' side).1.trans (same side).1, (same' side).2.trans (same side).2⟩
  · rintro s₁ ⟨lively, same⟩
    by_cases go : ∃ s₂, s₁.OwnStep s₂
    · exact .inr go
    · have quiet : s₁.Quiet := by
        refine fun side => ⟨?_, ?_⟩
        · exact Option.eq_none_iff_forall_ne_some.mpr fun s₂ woken => go ⟨s₂, side, .inl woken⟩
        · exact Option.eq_none_iff_forall_ne_some.mpr fun s₂ came => go ⟨s₂, side, .inr came⟩
      exact .inl ⟨quiet, lively.prompt.settled quiet, same⟩

/-- The handshake, after which both sides have written and closed before a loop
has turned. -/
def earlyCalls : List Action :=
  shortTransfer.take 8 ++
    [.write .active [1, 2, 3], .close .active, .write .passive [4], .close .passive]

/-- The applications' part is over before anything has been sent. -/
theorem transfer_completes_earlyCalls :
    ∃ s, (System.init fun _ => 0xffffffff).OrderlyRun earlyCalls s ∧
      (∀ side, (s.endpoint side).hist.closed = true) ∧
      Inevitable System.OwnStep (fun s' => s'.Quiet ∧ s'.Settled ∧ s.SameCalls s') s := by
  have ran : ((follow System.orderlyStep (System.init fun _ => 0xffffffff) earlyCalls).map
      fun s => ((s.endpoint .active).hist.closed, (s.endpoint .passive).hist.closed)) =
        some (true, true) := by
    decide +kernel
  obtain ⟨s, run, state⟩ := Option.map_eq_some_iff.mp ran
  simp only [Prod.mk.injEq] at state
  refine ⟨s, .of_follow run, fun side => ?_, transfer_completes (.of_follow run)⟩
  cases side
  · exact state.1
  · exact state.2

end CompNet.Stcp
