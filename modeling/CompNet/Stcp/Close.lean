import CompNet.Stcp.Transport
import Mathlib.Logic.Relation

/-!
# The close state machine of one endpoint

One endpoint in `control_loop` against an arbitrary peer: any well-formed
packets, any read errors, any application that stops writing when it closes.
`CloseInv` ties the three FIN flags to `connection_state`; it is carried
through the branches of one iteration in the order the source runs them
(`CloseTable` may be left for a finished table in the middle of an iteration,
because the FIN branch changes the state that the ACK branch of the same
packet then tests), and from there to every run.
-/

namespace CompNet.Stcp

/-! ## The table -/

def CState.finIsSent : CState → Bool
  | .finWait1 | .finWait2 | .closing | .lastAck => true
  | _ => false

def CState.finIsReceived : CState → Bool
  | .closeWait | .closing | .lastAck => true
  | _ => false

def CState.finIsAcked : CState → Bool
  | .finWait2 => true
  | _ => false

/-- States of a connection between the handshake and its end. -/
def CState.isOpen : CState → Bool
  | .closed | .synSent | .synRcvd => false
  | _ => true

/-- The flags of a running loop are those of its state. -/
structure Ctx.CloseTable (c : Ctx) : Prop where
  running : c.done = false
  isOpen : c.connectionState.isOpen = true
  finSent : c.finSent = c.connectionState.finIsSent
  finReceived : c.finReceived = c.connectionState.finIsReceived
  finAcked : c.finAcked = c.connectionState.finIsAcked

/-- The loop is over and both directions are closed and acknowledged. -/
structure Ctx.FullyClosed (c : Ctx) : Prop where
  done : c.done = true
  finSent : c.finSent = true
  finReceived : c.finReceived = true
  finAcked : c.finAcked = true

def Ctx.TableOrClosed (c : Ctx) : Prop := c.CloseTable ∨ c.FullyClosed

/-- Packets with `TH_FIN` among the packets sent. -/
def finCount (sent : List Packet) : Nat := sent.countP (·.has thFin)

/-- At most one FIN, and exactly one once `fin_sent` is set. -/
def FinOnce (e : Endpoint) : Prop := finCount e.hist.sent = if e.ctx.finSent then 1 else 0

/-! ## The branches of one iteration -/

/-- Sending a packet without FIN and touching no FIN flag keeps `FinOnce`. -/
theorem FinOnce.send {e e' : Endpoint} {p : Packet} (once : FinOnce e)
    (sent : e'.hist.sent = e.hist.sent ++ [p]) (noFin : p.has thFin = false)
    (flag : e'.ctx.finSent = e.ctx.finSent) : FinOnce e' := by
  unfold FinOnce finCount at *
  rw [sent, flag, List.countP_append, once, List.countP_singleton, noFin]
  simp

theorem FinOnce.keep {e e' : Endpoint} (once : FinOnce e)
    (sent : e'.hist.sent = e.hist.sent) (flag : e'.ctx.finSent = e.ctx.finSent) :
    FinOnce e' := by
  unfold FinOnce at *
  rw [sent, flag, once]

/-- A pure ACK or a data segment carries no FIN. -/
theorem buildPacket_ack_noFin (ctx : Ctx) (data : Bytes) :
    (buildPacket ctx data thAckFlag).has thFin = false := by
  simp only [Packet.has, buildPacket]
  decide

theorem buildPacket_fin_hasFin (ctx : Ctx) (data : Bytes) :
    (buildPacket ctx data (thFin ||| thAckFlag)).has thFin = true := by
  simp only [Packet.has, buildPacket]
  decide

/-- What an iteration has established so far, at each of its stages. -/
def Staged (e : Endpoint) : Prop := e.ctx.TableOrClosed ∧ FinOnce e

/-- Only the five fields of the table matter to it. -/
theorem Ctx.CloseTable.of_eq {c c' : Ctx} (table : c.CloseTable)
    (done : c'.done = c.done) (state : c'.connectionState = c.connectionState)
    (sent : c'.finSent = c.finSent) (received : c'.finReceived = c.finReceived)
    (acked : c'.finAcked = c.finAcked) : c'.CloseTable where
  running := by rw [done, table.running]
  isOpen := by rw [state, table.isOpen]
  finSent := by rw [sent, state, table.finSent]
  finReceived := by rw [received, state, table.finReceived]
  finAcked := by rw [acked, state, table.finAcked]

theorem Ctx.TableOrClosed.of_eq {c c' : Ctx} (staged : c.TableOrClosed)
    (done : c'.done = c.done) (state : c'.connectionState = c.connectionState)
    (sent : c'.finSent = c.finSent) (received : c'.finReceived = c.finReceived)
    (acked : c'.finAcked = c.finAcked) : c'.TableOrClosed := by
  rcases staged with table | closed
  · exact .inl (table.of_eq done state sent received acked)
  · exact .inr ⟨by rw [done, closed.done], by rw [sent, closed.finSent],
      by rw [received, closed.finReceived], by rw [acked, closed.finAcked]⟩

theorem handleAppData_table {e : Endpoint} (table : e.ctx.CloseTable) (once : FinOnce e) :
    (handleAppData e).ctx.CloseTable ∧ FinOnce (handleAppData e) := by
  rcases handleAppData_cases e with same | ⟨chunk, rest, -, ⟨-, same⟩ | ⟨-, same⟩⟩
  · rw [same]
    exact ⟨table, once⟩
  · rw [same]
    exact ⟨table, once⟩
  · rw [same]
    exact ⟨table.of_eq rfl rfl rfl rfl rfl,
      once.send rfl (buildPacket_ack_noFin _ _) rfl⟩

theorem Ctx.CloseTable.onFin {c : Ctx} {n : TcpSeq} (table : c.CloseTable) :
    ({ c with finReceived := true, ackNum := n } : Ctx).onFin.TableOrClosed := by
  obtain ⟨running, isOpen, sent, received, acked⟩ := table
  unfold Ctx.onFin
  cases state : c.connectionState <;> rw [state] at isOpen sent received acked
  case established => exact .inl ⟨running, rfl, sent, rfl, acked⟩
  case finWait1 => exact .inl ⟨running, rfl, sent, rfl, acked⟩
  case finWait2 => exact .inr ⟨rfl, sent, rfl, acked⟩
  case closing => exact .inl ⟨running, by simp [CState.isOpen], by simpa [state] using sent,
    by simp [CState.finIsReceived], by simpa [state] using acked⟩
  case closeWait => exact .inl ⟨running, by simp [CState.isOpen],
    by simpa [state] using sent, by simp [CState.finIsReceived],
    by simpa [state] using acked⟩
  case lastAck => exact .inl ⟨running, by simp [CState.isOpen], by simpa [state] using sent,
    by simp [CState.finIsReceived], by simpa [state] using acked⟩
  all_goals cases isOpen

theorem Ctx.onFin_finSent (c : Ctx) : c.onFin.finSent = c.finSent := by
  obtain ⟨state, done, moved⟩ := c.onFin_eq
  rw [moved]

theorem handleFin_staged {p : Packet} {e : Endpoint} (table : e.ctx.CloseTable)
    (once : FinOnce e) : Staged (handleFin p e) := by
  unfold handleFin
  split
  · exact ⟨table.onFin, once.send rfl (buildPacket_ack_noFin _ _) (Ctx.onFin_finSent _)⟩
  · exact ⟨.inl table, once⟩

theorem Ctx.TableOrClosed.onFullAck {c : Ctx} (staged : c.TableOrClosed) :
    c.onFullAck.TableOrClosed := by
  unfold Ctx.onFullAck
  split
  · next state =>
      rcases staged with ⟨running, -, sent, received, -⟩ | ⟨done, sent, received, -⟩
      · rw [state] at sent received
        exact .inl ⟨running, rfl, sent, received, rfl⟩
      · exact .inr ⟨done, sent, received, rfl⟩
  · next state =>
      rcases staged with ⟨-, -, sent, received, -⟩ | ⟨-, sent, received, -⟩
      · rw [state] at sent received
        exact .inr ⟨rfl, sent, received, rfl⟩
      · exact .inr ⟨rfl, sent, received, rfl⟩
  · next state =>
      rcases staged with ⟨-, -, sent, received, -⟩ | ⟨-, sent, received, -⟩
      · rw [state] at sent received
        exact .inr ⟨rfl, sent, received, rfl⟩
      · exact .inr ⟨rfl, sent, received, rfl⟩
  · exact staged

theorem Ctx.onFullAck_finSent (c : Ctx) : c.onFullAck.finSent = c.finSent := by
  obtain ⟨state, done, acked, moved⟩ := c.onFullAck_eq
  rw [moved]

theorem handleAck_staged {p : Packet} {e : Endpoint} (staged : Staged e) :
    Staged (handleAck p e) := by
  unfold handleAck
  split
  · exact ⟨staged.1.onFullAck, staged.2.keep rfl (Ctx.onFullAck_finSent _)⟩
  · exact staged

theorem stcpAppSend_sent (src : Bytes) (e : Endpoint) :
    (stcpAppSend src e).hist.sent = e.hist.sent := by
  unfold stcpAppSend
  split <;> rfl

theorem Ctx.TableOrClosed.onData {c : Ctx} (p : Packet) (staged : c.TableOrClosed) :
    (c.onData p).TableOrClosed := by
  obtain ⟨used, expected, acked, counters⟩ := c.onData_eq p
  rw [counters]
  exact staged.of_eq rfl rfl rfl rfl rfl

theorem Ctx.onData_finSent (c : Ctx) (p : Packet) : (c.onData p).finSent = c.finSent := by
  obtain ⟨used, expected, acked, counters⟩ := c.onData_eq p
  rw [counters]

/-- The data branch touches no field of the table and sends at most one ACK. -/
theorem handleData_staged {p : Packet} {e : Endpoint} (staged : Staged e) :
    Staged (handleData p e) := by
  obtain ⟨table, once⟩ := staged
  unfold handleData handleChunk
  split
  · split
    · refine ⟨table.onData p, once.send ?_ (buildPacket_ack_noFin (e.ctx.onData p) [])
        (Ctx.onData_finSent _ _)⟩
      dsimp only [sendPacket]
      split
      · rw [stcpAppSend_sent]
      · rfl
    · exact ⟨table, once.send rfl (buildPacket_ack_noFin _ _) rfl⟩
  · exact ⟨table, once⟩

theorem Ctx.CloseTable.onClose {c : Ctx} {n : TcpSeq} (table : c.CloseTable)
    (notSent : c.finSent = false) :
    ({ c with finSent := true, sequenceNum := n } : Ctx).onClose.CloseTable := by
  obtain ⟨running, isOpen, sent, received, acked⟩ := table
  unfold Ctx.onClose
  rw [notSent] at sent
  cases state : c.connectionState <;> rw [state] at isOpen sent received acked
  case established => exact ⟨running, rfl, rfl, received, acked⟩
  case closeWait => exact ⟨running, rfl, rfl, received, acked⟩
  all_goals first | exact absurd sent (by decide) | exact absurd isOpen (by decide)

theorem Ctx.onClose_finSent (c : Ctx) : c.onClose.finSent = c.finSent := by
  obtain ⟨state, moved⟩ := c.onClose_eq
  rw [moved]

theorem handleClose_staged {e : Endpoint} (staged : Staged e) : Staged (handleClose e) := by
  obtain ⟨table, once⟩ := staged
  unfold handleClose
  split
  · exact ⟨table, once⟩
  · next notSent =>
      rw [Bool.not_eq_true] at notSent
      rcases table with table | closed
      · refine ⟨.inl (table.onClose notSent), ?_⟩
        unfold FinOnce finCount at *
        rw [notSent] at once
        simp only [sendPacket, Ctx.onClose_finSent, List.countP_append, once,
          List.countP_singleton, buildPacket_fin_hasFin]
        rfl
      · rw [closed.finSent] at notSent
        cases notSent

/-! ## Runs -/

/-- What can happen to one endpoint whose peer is arbitrary. -/
inductive Input
  | write (buf : Bytes)
  | close
  | read (bufLen : Nat)
  | arrive (p : Packet)
  | readError
  | wake

/-- The effect of one input; `none` where the input cannot happen. -/
def Endpoint.input (e : Endpoint) : Input → Option Endpoint
  | .write buf => e.write buf
  | .close => e.close
  | .read bufLen => e.read bufLen
  | .arrive p => some (e.arrive (some p))
  | .readError => some (e.arrive none)
  | .wake => e.wake

/-- A packet without options. -/
def Input.WellFormed : Input → Prop
  | .arrive p => p.thOff = 5
  | _ => True

/-- One step of an endpoint against an arbitrary peer that sends well-formed packets. -/
def SoloStep (e e' : Endpoint) : Prop := ∃ i : Input, i.WellFormed ∧ e.input i = some e'

/-- An endpoint that `transport_init` has just brought to `control_loop`. -/
structure Fresh (e : Endpoint) : Prop where
  phase : e.phase = .controlLoop
  state : e.ctx.connectionState = .established
  running : e.ctx.done = false
  finSent : e.ctx.finSent = false
  finReceived : e.ctx.finReceived = false
  finAcked : e.ctx.finAcked = false
  noFin : finCount e.hist.sent = 0

/-- The wake-up in which the network read fails in `ESTABLISHED`. -/
def FailedRead (e : Endpoint) : Prop :=
  e.ctx.connectionState = .established ∧ ∃ rest, e.sock.networkRecvQueue = none :: rest

/-- The invariant of a run: the table while the loop runs, and FIN at most once. -/
structure CloseInv (e : Endpoint) : Prop where
  table : e.ctx.done = false → e.ctx.CloseTable
  once : FinOnce e
  looping : e.ctx.done = false → e.phase = .controlLoop
  notStarted : e.phase = .controlLoop ∨ e.phase = .exited

theorem CloseInv.of_fresh {e : Endpoint} (fresh : Fresh e) : CloseInv e where
  table _ := ⟨fresh.running, by rw [fresh.state]; rfl, by rw [fresh.state, fresh.finSent]; rfl,
    by rw [fresh.state, fresh.finReceived]; rfl, by rw [fresh.state, fresh.finAcked]; rfl⟩
  once := by
    unfold FinOnce
    rw [fresh.noFin, fresh.finSent]
    rfl
  looping _ := fresh.phase
  notStarted := .inl fresh.phase

/-- One iteration from a running loop keeps the table, or ends the loop fully
closed, or ends it on a failed read. -/
theorem controlLoopIteration_cases {ev : Event} {e : Endpoint} (table : e.ctx.CloseTable)
    (once : FinOnce e) :
    Staged (controlLoopIteration ev e) ∨
      (FailedRead e ∧ (controlLoopIteration ev e).ctx.done = true ∧
        FinOnce (controlLoopIteration ev e)) := by
  unfold controlLoopIteration
  -- the APP_DATA branch leaves the state and the network queue as they were
  have queue : (if ev.appData then handleAppData e else e).sock.networkRecvQueue =
      e.sock.networkRecvQueue := by
    split
    · rcases handleAppData_cases e with same | ⟨_, _, -, ⟨-, same⟩ | ⟨-, same⟩⟩ <;> rw [same]
    · rfl
  have state : (if ev.appData then handleAppData e else e).ctx.connectionState =
      e.ctx.connectionState := by
    split
    · rcases handleAppData_cases e with same | ⟨_, _, -, ⟨-, same⟩ | ⟨-, same⟩⟩ <;> rw [same]
    · rfl
  have start : (if ev.appData then handleAppData e else e).ctx.CloseTable ∧
      FinOnce (if ev.appData then handleAppData e else e) := by
    split
    · exact handleAppData_table table once
    · exact ⟨table, once⟩
  generalize (if ev.appData then handleAppData e else e) = e₁ at queue state start
  obtain ⟨table₁, once₁⟩ := start
  have closing : ∀ e₂, Staged e₂ →
      Staged (if ev.appCloseRequested then handleClose e₂ else e₂) := by
    intro e₂ staged
    split
    · exact handleClose_staged staged
    · exact staged
  dsimp only
  split
  · next rest ready head =>
      unfold handleReadError
      dsimp only
      split
      · next established =>
          refine .inr ⟨⟨by rw [← state, established], rest, by rw [← queue, head]⟩, rfl, ?_⟩
          exact once₁.keep rfl rfl
      · exact .inl ⟨.inl (table₁.of_eq rfl rfl rfl rfl rfl), once₁.keep rfl rfl⟩
  · next p rest ready head =>
      have received : (receivePacket p rest e₁).ctx.CloseTable :=
        table₁.of_eq rfl rfl rfl rfl rfl
      exact .inl (closing _ (handleData_staged (handleAck_staged
        (handleFin_staged received (once₁.keep rfl rfl)))))
  · exact .inl (closing _ ⟨.inl table₁, once₁⟩)

theorem Ctx.TableOrClosed.table {c : Ctx} (staged : c.TableOrClosed) (running : c.done = false) :
    c.CloseTable := by
  rcases staged with table | closed
  · exact table
  · rw [closed.done] at running
    cases running

/-- Everything but a wake-up leaves the context, the phase and what crossed the
borders of the transport thread. -/
theorem Endpoint.input_frame {e e' : Endpoint} {i : Input} (step : e.input i = some e')
    (notWake : i ≠ .wake) :
    e'.ctx = e.ctx ∧ e'.phase = e.phase ∧ e'.hist.sent = e.hist.sent ∧
      e'.isActive = e.isActive ∧ e'.hist.delivered = e.hist.delivered ∧
      e'.hist.received = e.hist.received := by
  cases i with
  | write buf =>
      simp only [Endpoint.input, Endpoint.write] at step
      split at step
      · cases step
      · cases step
        exact ⟨rfl, rfl, rfl, rfl, rfl, rfl⟩
  | close =>
      simp only [Endpoint.input, Endpoint.close] at step
      split at step
      · cases step
      · cases step
        exact ⟨rfl, rfl, rfl, rfl, rfl, rfl⟩
  | read bufLen =>
      simp only [Endpoint.input, Endpoint.read, Option.map_eq_some_iff] at step
      obtain ⟨result, -, rfl⟩ := step
      exact ⟨rfl, rfl, rfl, rfl, rfl, rfl⟩
  | arrive p =>
      cases step
      exact ⟨rfl, rfl, rfl, rfl, rfl, rfl⟩
  | readError =>
      cases step
      exact ⟨rfl, rfl, rfl, rfl, rfl, rfl⟩
  | wake => exact absurd rfl notWake

/-- Every step keeps the invariant; a step that ends the loop is a wake-up that
reads a failure in `ESTABLISHED` or leaves all three flags set. -/
theorem CloseInv.input {e e' : Endpoint} {i : Input} (inv : CloseInv e)
    (step : e.input i = some e') :
    CloseInv e' ∧
      (e.ctx.done = false → e'.ctx.done = true → FailedRead e ∨ e'.ctx.FullyClosed) := by
  by_cases notWake : i = .wake
  · subst notWake
    change e.wake = some e' at step
    rcases inv.notStarted with looping | exited
    · cases running : e.ctx.done with
      | false =>
          obtain ⟨ev, sock, waited, rfl⟩ := e.wake_running step looping running
          have sameQueue : sock.networkRecvQueue = e.sock.networkRecvQueue := by
            rw [(stcpWaitForEvent_spec waited).2.2.2]
          have phase : (controlLoopIteration ev { e with sock := sock }).phase = .controlLoop :=
            (controlLoopIteration_frame ev _).phase.trans looping
          have table : ({ e with sock := sock } : Endpoint).ctx.CloseTable := inv.table running
          rcases controlLoopIteration_cases table (inv.once.keep rfl rfl) with ⟨staged, once⟩ |
            ⟨⟨state, rest, failed⟩, done, once⟩
          · refine ⟨⟨staged.table, once, fun _ => phase, .inl phase⟩, fun _ done => .inr ?_⟩
            rcases staged with table | closed
            · rw [table.running] at done
              cases done
            · exact closed
          · refine ⟨⟨?_, once, ?_, .inl phase⟩, fun _ _ => .inl ⟨state, rest, ?_⟩⟩
            · intro running
              rw [done] at running
              cases running
            · exact fun _ => phase
            · rw [← sameQueue]
              exact failed
      | true =>
          rw [e.wake_done step looping running]
          refine ⟨⟨?_, inv.once.keep rfl rfl, ?_, .inr rfl⟩, fun h => nomatch h⟩
          · intro running'
            exact absurd (running'.symm.trans running) (by decide)
          · intro running'
            exact absurd (running'.symm.trans running) (by decide)
    · simp only [Endpoint.wake, exited] at step
      cases step
  · obtain ⟨ctx, phase, sent, -⟩ := e.input_frame step notWake
    refine ⟨⟨?_, inv.once.keep sent (by rw [ctx]), ?_, ?_⟩, ?_⟩
    · rw [ctx]
      exact inv.table
    · rw [ctx, phase]
      exact inv.looping
    · rw [phase]
      exact inv.notStarted
    · intro running done
      rw [ctx, running] at done
      cases done

theorem CloseInv.step {e e' : Endpoint} (inv : CloseInv e) (step : SoloStep e e') :
    CloseInv e' ∧
      (e.ctx.done = false → e'.ctx.done = true → FailedRead e ∨ e'.ctx.FullyClosed) := by
  obtain ⟨i, -, step⟩ := step
  exact inv.input step

theorem CloseInv.run {e e' : Endpoint} (inv : CloseInv e)
    (run : Relation.ReflTransGen SoloStep e e') : CloseInv e' := by
  induction run with
  | refl => exact inv
  | tail _ step ih => exact (ih.step step).1

/-! ## The close state machine -/

/-- Against any peer, in every state a run reaches while the loop is running, the
three FIN flags are exactly what `connection_state` says; at most one FIN is
ever sent; and the loop ends only on a failed read in `ESTABLISHED` or with
both directions closed and our FIN acknowledged. -/
theorem close_flags_match_state {start e : Endpoint} (fresh : Fresh start)
    (run : Relation.ReflTransGen SoloStep start e) :
    (e.ctx.done = false →
      (e.ctx.finSent = true ↔
        e.ctx.connectionState ∈ [CState.finWait1, .finWait2, .closing, .lastAck]) ∧
      (e.ctx.finReceived = true ↔
        e.ctx.connectionState ∈ [CState.closeWait, .closing, .lastAck]) ∧
      (e.ctx.finAcked = true ↔ e.ctx.connectionState = .finWait2)) ∧
    finCount e.hist.sent ≤ 1 ∧
    (∀ e', SoloStep e e' → e.ctx.done = false → e'.ctx.done = true →
      FailedRead e ∨
        (e'.ctx.finSent = true ∧ e'.ctx.finReceived = true ∧ e'.ctx.finAcked = true)) := by
  have inv := (CloseInv.of_fresh fresh).run run
  refine ⟨?_, ?_, ?_⟩
  · intro running
    have table := inv.table running
    rw [table.finSent, table.finReceived, table.finAcked]
    cases e.ctx.connectionState <;> decide
  · have once : finCount e.hist.sent = _ := inv.once
    rw [once]
    split <;> decide
  · intro e' step running done
    rcases (inv.step step).2 running done with failed | closed
    · exact .inl failed
    · exact .inr ⟨closed.finSent, closed.finReceived, closed.finAcked⟩

/-- An active endpoint right after the handshake, before either side has sent data. -/
def justEstablished (initialSequenceNum peerSequenceNum : TcpSeq) : Endpoint where
  isActive := true
  phase := .controlLoop
  ctx :=
    { Ctx.init initialSequenceNum with
      connectionState := .established
      sequenceNum := initialSequenceNum + 1
      ackNum := peerSequenceNum + 1
      nextSeqExpected := peerSequenceNum + 1 }

/-- The application of such an endpoint closes: one FIN, and `FIN_WAIT_1`. -/
theorem close_flags_match_state_after_close :
    ∃ e : Endpoint, e.ctx.connectionState = .finWait1 ∧ e.ctx.finSent = true ∧
      finCount e.hist.sent ≤ 1 := by
  let start := justEstablished 1 1
  let closed : Endpoint := { start with sock := myclose start.sock, hist.closed := true }
  let woken : Endpoint := controlLoopIteration ⟨false, false, true⟩ { closed with sock := {} }
  have fresh : Fresh start := ⟨rfl, rfl, rfl, rfl, rfl, rfl, rfl⟩
  have run : Relation.ReflTransGen SoloStep start woken :=
    .tail (.tail .refl ⟨.close, trivial, rfl⟩) ⟨.wake, trivial, rfl⟩
  have result := close_flags_match_state fresh run
  have state : woken.ctx.connectionState = .finWait1 := rfl
  exact ⟨woken, state, (result.1 rfl).1.mpr (by rw [state]; decide), result.2.1⟩

/-! ## Close requests

`stcp_wait_for_event` clears the request that it reports, so that the iteration it
starts is the only one to act on it.  Packets may be of any form here. -/

/-- One step of an endpoint against any peer. -/
def AnyStep (e e' : Endpoint) : Prop := ∃ i : Input, e.input i = some e'

theorem CloseInv.run_any {e e' : Endpoint} (inv : CloseInv e)
    (run : Relation.ReflTransGen AnyStep e e') : CloseInv e' := by
  induction run with
  | refl => exact inv
  | tail _ step ih =>
      obtain ⟨i, step⟩ := step
      exact (ih.input step).1

/-- The FIN has been sent, or the loop is over. -/
def ClosedOn (e : Endpoint) : Prop := e.ctx.finSent = true ∨ e.ctx.done = true

theorem handleClose_finSent (e : Endpoint) : (handleClose e).ctx.finSent = true := by
  rcases handleClose_cases e with ⟨sent, same⟩ | ⟨-, state, same⟩
  · rw [same]
    exact sent
  · rw [same]

/-- A failed read is the end of the iteration: only `CLOSE_WAIT` has neither sent its FIN
nor ends the loop there. -/
theorem handleReadError_closedOn {e : Endpoint} (rest : List (Option Packet))
    (table : e.ctx.CloseTable) :
    ClosedOn (handleReadError rest e) ↔ e.ctx.connectionState ≠ .closeWait := by
  have sent := table.finSent
  have running := table.running
  have isOpen := table.isOpen
  unfold handleReadError ClosedOn
  dsimp only
  cases state : e.ctx.connectionState <;> rw [state] at sent isOpen
  case established => simp
  case closeWait => simp [sent, running, CState.finIsSent]
  case closed => cases isOpen
  case synSent => cases isOpen
  case synRcvd => cases isOpen
  all_goals simp [sent, CState.finIsSent]

/-- The mask of a wait for any event. -/
theorem stcpWaitForEvent_any {ev : Event} {sock sock' : Mysock}
    (waited : stcpWaitForEvent anyEvent sock = some (ev, sock')) :
    ev = ⟨!sock.appRecvQueue.isEmpty, !sock.networkRecvQueue.isEmpty,
      sock.closeRequested && sock.appRecvQueue.isEmpty⟩ := by
  simp only [stcpWaitForEvent] at waited
  split at waited
  · cases waited
    simp [anyEvent]
  · cases waited

/-- In every state that a run reaches, the wait clears the close request that it reports, and the
iteration acts on it unless it reads a failure in `CLOSE_WAIT`. -/
theorem close_request_kept_iff {start e : Endpoint} (fresh : Fresh start)
    (run : Relation.ReflTransGen AnyStep start e) (running : e.ctx.done = false) {ev : Event}
    {sock : Mysock} (waited : stcpWaitForEvent anyEvent e.sock = some (ev, sock))
    (asked : ev.appCloseRequested = true) :
    sock.closeRequested = false ∧
      (ClosedOn (controlLoopIteration ev { e with sock := sock }) ↔
        ¬ (e.ctx.connectionState = .closeWait ∧
          ∃ rest, e.sock.networkRecvQueue = none :: rest)) := by
  have table : ({ e with sock := sock } : Endpoint).ctx.CloseTable :=
    ((CloseInv.of_fresh fresh).run_any run).table running
  obtain ⟨-, -, request, same⟩ := stcpWaitForEvent_spec waited
  obtain ⟨requested, written⟩ := request asked
  have queue : sock.networkRecvQueue = e.sock.networkRecvQueue := by rw [same]
  have cleared : sock.closeRequested = false := by
    rw [same, asked, requested]
    rfl
  have noData : ev.appData = false := by
    rw [stcpWaitForEvent_any waited, written]
    rfl
  have ready : ev.networkData = !e.sock.networkRecvQueue.isEmpty := by
    rw [stcpWaitForEvent_any waited]
  refine ⟨cleared, ?_⟩
  unfold controlLoopIteration
  simp only [noData, Bool.false_eq_true, if_false, asked, if_true, queue]
  cases queued : e.sock.networkRecvQueue with
  | nil =>
      rw [queued] at ready
      simp only [ready, List.isEmpty_nil, Bool.not_true]
      refine iff_of_true (.inl (handleClose_finSent _)) ?_
      intro given
      rcases given with ⟨-, rest, absent⟩
      cases absent
  | cons node rest =>
      rw [queued] at ready
      simp only [ready, List.isEmpty_cons, Bool.not_false]
      cases node with
      | none =>
          rw [handleReadError_closedOn rest table]
          refine not_congr ⟨fun state => ⟨state, rest, rfl⟩, fun both => both.1⟩
      | some p =>
          refine iff_of_true (.inl (handleClose_finSent _)) ?_
          intro given
          rcases given with ⟨-, rest', absent⟩
          cases absent

/-- The peer's FIN right after the handshake. -/
def peerFin : Packet :=
  buildPacket { Ctx.init 1 with sequenceNum := 2, ackNum := 2 } [] (thFin ||| thAckFlag)

/-- The peer has closed and gone, and then the application closes. -/
def closingLast : Endpoint :=
  ((((justEstablished 1 1).arrive (some peerFin)).wake.bind Endpoint.close).map
    (Endpoint.arrive none)).getD (justEstablished 1 1)

theorem closingLast_reached : Relation.ReflTransGen AnyStep (justEstablished 1 1) closingLast :=
  .tail (.tail (.tail (.tail .refl ⟨.arrive peerFin, rfl⟩) ⟨.wake, rfl⟩) ⟨.close, rfl⟩)
    ⟨.readError, rfl⟩

/-- The request is reported together with the failed read, and nothing is left of it. -/
theorem closingLast_loses_request :
    (∃ ev sock, stcpWaitForEvent anyEvent closingLast.sock = some (ev, sock) ∧
      ev.appCloseRequested = true ∧
      ¬ ClosedOn (controlLoopIteration ev { closingLast with sock := sock }) ∧
      (controlLoopIteration ev { closingLast with sock := sock }).sock.closeRequested = false) ∧
    ¬ ∀ (start e : Endpoint) (ev : Event) (sock : Mysock), Fresh start →
      Relation.ReflTransGen AnyStep start e → e.ctx.done = false →
      stcpWaitForEvent anyEvent e.sock = some (ev, sock) → ev.appCloseRequested = true →
      ClosedOn (controlLoopIteration ev { e with sock := sock }) := by
  have waited : stcpWaitForEvent anyEvent closingLast.sock =
      some (⟨false, true, true⟩, { closingLast.sock with closeRequested := false }) := rfl
  have open' : ¬ ClosedOn (controlLoopIteration ⟨false, true, true⟩
      { closingLast with sock := { closingLast.sock with closeRequested := false } }) := by
    intro given
    rcases given with sent | done
    · cases sent
    · cases done
  refine ⟨⟨_, _, waited, rfl, open', rfl⟩, fun all => open' ?_⟩
  exact all (justEstablished 1 1) closingLast _ _
    ⟨rfl, rfl, rfl, rfl, rfl, rfl, rfl⟩ closingLast_reached
    rfl waited rfl

/-- In `ESTABLISHED` the request is acted on. -/
theorem close_request_kept_iff_justEstablished :
    ClosedOn (controlLoopIteration ⟨false, false, true⟩
      { justEstablished 1 1 with sock := {}, hist.closed := true }) := by
  let closed : Endpoint :=
    { justEstablished 1 1 with sock := myclose (justEstablished 1 1).sock, hist.closed := true }
  have run : Relation.ReflTransGen AnyStep (justEstablished 1 1) closed := .tail .refl ⟨.close, rfl⟩
  have kept := close_request_kept_iff ⟨rfl, rfl, rfl, rfl, rfl, rfl, rfl⟩ run rfl
    (show stcpWaitForEvent anyEvent closed.sock = some (⟨false, false, true⟩, {}) from rfl) rfl
  refine kept.2.mpr ?_
  intro given
  rcases given with ⟨state, -⟩
  cases state

end CompNet.Stcp
