import CompNet.Stcp.Effort
import CompNet.Stcp.Reading

/-!
# Programs over STCP

An application gets its socket from `myconnect` or `myaccept` when the handshake
is over, reads and writes with `myread` and `mywrite`, and calls `myclose` when
it is done.  What it sees of the transport layer is two pipes: a program does the
same over STCP as over a pair of pipes, and where the programs come to an end
over pipes whatever the schedule, they come to the same end over STCP, and both
transport threads exit.

The abstract system is a `Dialogue`: the pipe towards a side holds what its peer
has written and it has not read, wherever in the two endpoints and the network
the bytes are.
-/

namespace CompNet.Stcp

open CompNet.Lib

/-! ## What is handed up -/

/-- `e'` has put nodes into `app_send_queue`, none longer than a segment. -/
structure HandsUp (e e' : Endpoint) : Prop where
  nodes : ∃ nodes, e'.hist.delivered = e.hist.delivered ++ nodes ∧
    e'.sock.appSendQueue = e.sock.appSendQueue ++ nodes ∧
    ∀ node ∈ nodes, node.length ≤ stcpMss
  eof : e'.sock.eof = e.sock.eof

theorem HandsUp.of_still {e e' : Endpoint} (delivered : e'.hist.delivered = e.hist.delivered)
    (queue : e'.sock.appSendQueue = e.sock.appSendQueue) (eof : e'.sock.eof = e.sock.eof) :
    HandsUp e e' :=
  ⟨⟨[], by simp [delivered], by simp [queue], by simp⟩, eof⟩

theorem HandsUp.refl (e : Endpoint) : HandsUp e e := .of_still rfl rfl rfl

theorem HandsUp.trans {e₁ e₂ e₃ : Endpoint} (first : HandsUp e₁ e₂) (second : HandsUp e₂ e₃) :
    HandsUp e₁ e₃ := by
  obtain ⟨nodes₁, delivered₁, queue₁, short₁⟩ := first.nodes
  obtain ⟨nodes₂, delivered₂, queue₂, short₂⟩ := second.nodes
  refine ⟨⟨nodes₁ ++ nodes₂, ?_, ?_, ?_⟩, second.eof.trans first.eof⟩
  · rw [delivered₂, delivered₁, List.append_assoc]
  · rw [queue₂, queue₁, List.append_assoc]
  · exact List.forall_mem_append.mpr ⟨short₁, short₂⟩

theorem stcpAppSend_nodes (src : Bytes) (e : Endpoint) :
    ∃ nodes, stcpAppSend src e =
        { e with
          sock.appSendQueue := e.sock.appSendQueue ++ nodes
          hist.delivered := e.hist.delivered ++ nodes } ∧
      ∀ node ∈ nodes, node = src := by
  unfold stcpAppSend
  split
  · exact ⟨[src], rfl, by simp⟩
  · exact ⟨[], by simp, by simp⟩

theorem handleFin_handsUp (p : Packet) (e : Endpoint) : HandsUp e (handleFin p e) := by
  rcases handleFin_cases p e with ⟨-, same⟩ | ⟨-, _, _, same⟩ <;> rw [same]
  · exact .refl e
  · exact ⟨⟨[[]], rfl, rfl, by simp⟩, rfl⟩

theorem handleData_handsUp {p : Packet} (usual : p.Usual) (e : Endpoint) :
    HandsUp e (handleData p e) := by
  have short : (dataChunk p e.buf).length ≤ stcpMss := by
    have length := dataLen_of_noOptions usual.noOptions usual.short
    have fits := usual.short
    rw [dataChunk, List.length_take, length]
    omega
  rcases handleData_cases p e with
    ⟨-, same⟩ | ⟨-, -, same⟩ | ⟨-, -, -, same⟩ | ⟨-, -, -, same⟩
  · rw [same]
    exact .refl e
  · rw [same]
    exact .of_still rfl rfl rfl
  · rw [same]
    exact .of_still rfl rfl rfl
  · obtain ⟨nodes, passed, only⟩ := stcpAppSend_nodes (dataChunk p e.buf) e
    rw [same, passed]
    exact ⟨⟨nodes, rfl, rfl, fun node member => only node member ▸ short⟩, rfl⟩

theorem handlePacket_handsUp {p : Packet} (usual : p.Usual) (rest : List (Option Packet))
    (e : Endpoint) : HandsUp e (handlePacket p rest e) := by
  have read : HandsUp e (receivePacket p rest e) := .of_still rfl rfl rfl
  have ack (e : Endpoint) : HandsUp e (handleAck p e) := by
    obtain ⟨state, done, acked, same⟩ := handleAck_eq p e
    rw [same]
    exact .of_still rfl rfl rfl
  exact ((read.trans (handleFin_handsUp p _)).trans (ack _)).trans (handleData_handsUp usual _)

theorem Endpoint.Clear.iteration_handsUp {e : Endpoint} (clear : e.Clear) (ev : Event) :
    HandsUp e (controlLoopIteration ev e) := by
  have keeps : HandsUp e (controlLoopIteration ev e) ∧ (controlLoopIteration ev e).Clear := by
    apply controlLoopIteration_keeps (motive := fun e' => HandsUp e e' ∧ e'.Clear)
    · exact ⟨.refl e, clear⟩
    · refine ⟨?_, clear.appData⟩
      rcases handleAppData_cases e with same | ⟨_, _, -, ⟨-, same⟩ | ⟨-, same⟩⟩ <;> rw [same]
      · exact .refl e
      · exact .of_still rfl rfl rfl
      · exact .of_still rfl rfl rfl
    · rintro e₁ rest ⟨before, clear₁⟩ head
      refine ⟨before.trans ?_, clear₁.readError head⟩
      unfold handleReadError
      dsimp only
      split <;> exact .of_still rfl rfl rfl
    · rintro e₁ p rest ⟨before, clear₁⟩ head
      have usual := clear₁.usual p (by simp [head])
      exact ⟨before.trans (handlePacket_handsUp usual rest e₁), clear₁.packet head⟩
    · rintro - e₁ ⟨before, clear₁⟩
      refine ⟨before.trans ?_, clear₁.close⟩
      rcases handleClose_cases e₁ with ⟨-, same⟩ | ⟨-, _, same⟩ <;> rw [same]
      · exact .refl e₁
      · exact .of_still rfl rfl rfl
  exact keeps.1

theorem Endpoint.Clear.wake_handsUp {e e' : Endpoint} (clear : e.Clear)
    (step : e.wake = some e') (accepted : e'.phase ≠ .refused) : HandsUp e e' := by
  cases e.wake_cases step with
  | refused refused => exact absurd refused accepted
  | syn | listen | synAck | synRead | ackRead => exact .of_still rfl rfl rfl
  | @iteration ev sock phase running waited =>
      obtain ⟨-, -, -, same⟩ := stcpWaitForEvent_spec waited
      have waiting : Endpoint.Clear { e with sock := sock } :=
        ⟨⟨clear.roomy.window, clear.roomy.still⟩, by rw [same]; exact clear.usual⟩
      have waits : HandsUp e { e with sock := sock } := by
        rw [same]
        exact .of_still rfl rfl rfl
      exact waits.trans (waiting.iteration_handsUp ev)
  | exit phase done => exact ⟨⟨[[]], rfl, rfl, by simp⟩, rfl⟩

/-! ## What an application has read -/

/-- The receiving end of `e` as its application sees it. -/
def Endpoint.appEnd (e : Endpoint) (returned : Bytes) : Reading where
  sock := { appSendQueue := e.sock.appSendQueue, eof := e.sock.eof }
  enqueued := e.hist.delivered
  returned := returned

/-- `returned` is what an application has read of `e`. -/
structure Served (e : Endpoint) (returned : Bytes) : Prop where
  balanced : (e.appEnd returned).Balanced
  faithful : (e.appEnd returned).Faithful
  short : ∀ node ∈ e.sock.appSendQueue, node.length ≤ stcpMss

theorem Served.init (isActive : Bool) (initialSequenceNum : TcpSeq) :
    Served (Endpoint.init isActive initialSequenceNum) [] where
  balanced := .streaming rfl rfl
  faithful := ⟨rfl, fun eof => by cases eof⟩
  short node member := by cases member

theorem Served.of_reading {e e' : Endpoint} {returned : Bytes} (served : Served e returned)
    (delivered : e'.hist.delivered = e.hist.delivered)
    (queue : e'.sock.appSendQueue = e.sock.appSendQueue) (eof : e'.sock.eof = e.sock.eof) :
    Served e' returned := by
  have same : e'.appEnd returned = e.appEnd returned := by
    simp [Endpoint.appEnd, delivered, queue, eof]
  refine ⟨?_, ?_, ?_⟩
  · rw [same]
    exact served.balanced
  · rw [same]
    exact served.faithful
  · rw [queue]
    exact served.short

theorem Served.handsUp {e e' : Endpoint} {returned : Bytes} (served : Served e returned)
    (handsUp : HandsUp e e') : Served e' returned := by
  obtain ⟨nodes, delivered, queue, short⟩ := handsUp.nodes
  have keeps : ∀ (r : Reading) (nodes : List Bytes), r.Balanced → r.Faithful →
      Reading.Balanced { r with
        sock.appSendQueue := r.sock.appSendQueue ++ nodes
        enqueued := r.enqueued ++ nodes } ∧
      Reading.Faithful { r with
        sock.appSendQueue := r.sock.appSendQueue ++ nodes
        enqueued := r.enqueued ++ nodes } := by
    intro r nodes
    induction nodes generalizing r with
    | nil =>
        intro balanced faithful
        simpa using ⟨balanced, faithful⟩
    | cons node nodes ih =>
        intro balanced faithful
        simpa [List.append_assoc] using ih _ (balanced.enqueue node)
          (faithful.enqueue balanced node)
  obtain ⟨balanced, faithful⟩ := keeps _ nodes served.balanced served.faithful
  have same : e'.appEnd returned = { e.appEnd returned with
      sock.appSendQueue := e.sock.appSendQueue ++ nodes
      enqueued := e.hist.delivered ++ nodes } := by
    simp [Endpoint.appEnd, delivered, queue, handsUp.eof]
  refine ⟨?_, ?_, ?_⟩
  · rw [same]
    exact balanced
  · rw [same]
    exact faithful
  · rw [queue]
    exact List.forall_mem_append.mpr ⟨served.short, short⟩

/-- Short nodes are told from markers. -/
theorem Served.telling {e : Endpoint} {returned : Bytes} {bufLen : Nat}
    (served : Served e returned) (asks : 0 < bufLen) :
    (e.appEnd returned).Telling (.read bufLen) := by
  intro _ node rest queue some zero
  have short := served.short node (by
    have same : e.sock.appSendQueue = node :: rest := queue
    simp [same])
  have positive := List.length_pos_iff.mpr some
  have bound : stcpMss = 536 := rfl
  omega

theorem myread_none {bufLen : Nat} {sock : Mysock} (waits : myread bufLen sock = none) :
    sock.eof = false ∧ sock.appSendQueue = [] := by
  rcases Bool.eq_false_or_eq_true sock.eof with eof | reading
  · rw [myread, if_pos eof] at waits
    cases waits
  · cases queue : sock.appSendQueue with
    | nil => exact ⟨reading, rfl⟩
    | cons node rest =>
        rw [myread_data reading queue] at waits
        cases waits

/-- A call of `myread` that asks for something. -/
theorem Served.read {e : Endpoint} {returned chunk : Bytes} {bufLen : Nat} {sock : Mysock}
    (served : Served e returned) (asks : 0 < bufLen)
    (got : myread bufLen e.sock = some (chunk, sock)) :
    Served { e with sock := sock } (returned ++ chunk) ∧ chunk.length ≤ bufLen ∧
      chunk.length ≤ stcpMss ∧ (chunk = [] → sock.eof = true) := by
  rcases Bool.eq_false_or_eq_true e.sock.eof with eof | reading
  · rw [myread, if_pos eof] at got
    cases got
    rw [List.append_nil]
    exact ⟨served.of_reading rfl rfl rfl, Nat.zero_le _, Nat.zero_le _, fun _ => eof⟩
  cases queue : e.sock.appSendQueue with
  | nil =>
      rw [myread, if_neg (by rw [reading]; decide), queue] at got
      cases got
  | cons node rest =>
      rw [myread_data reading queue] at got
      cases got
      have step : (e.appEnd returned).input (.read bufLen) = some
          { e.appEnd returned with
            sock :=
              { appSendQueue := leftOver bufLen node rest
                eof := min bufLen node.length % 2 ^ 32 == 0 }
            returned := returned ++ node.take bufLen } := by
        have seen : myread bufLen (e.appEnd returned).sock = _ := myread_data reading queue
        rw [Reading.input, seen]
        rfl
      have returns := Reading.read_cases step
      have inside := served.short node (by simp [queue])
      refine ⟨⟨served.balanced.read returns,
        served.faithful.read served.balanced (served.telling asks) returns, ?_⟩, ?_, ?_, ?_⟩
      · intro node' member
        have others (later : node' ∈ rest) := served.short node' (by simp [queue, later])
        by_cases more : bufLen < node.length
        · rw [leftOver_more more] at member
          rcases List.mem_cons.mp member with rfl | later
          · rw [List.length_drop]
            omega
          · exact others later
        · rw [leftOver_all (Nat.le_of_not_lt more)] at member
          exact others member
      · exact List.length_take_le _ _
      · exact Nat.le_trans (List.length_take_le' _ _) inside
      · intro empty
        rcases List.take_eq_nil_iff.mp empty with zero | rfl
        · omega
        · simp

/-! ## The hosts -/

theorem Side.other_involutive : Function.Involutive Side.other := Side.other_other

/-- The two endpoints, the programs over them, and what each program has read. -/
structure Hosts (β : Side → Type) where
  system : System
  program : ∀ side, StreamProg UInt8 (β side)
  returned : Side → Bytes

section Hosts

variable {β : Side → Type}

/-- Before `transport_init`, and before the first call of either program. -/
def Hosts.init (initialSequenceNum : Side → TcpSeq) (program : ∀ side, StreamProg UInt8 (β side)) :
    Hosts β where
  system := System.init initialSequenceNum
  program := program
  returned _ := []

/-- `h` after a call at `side`. -/
def Hosts.called (h : Hosts β) (side : Side) (e : Endpoint) (p : StreamProg UInt8 (β side))
    (returned : Bytes) : Hosts β where
  system := { h.system with endpoint := Function.update h.system.endpoint side e }
  program := Function.update h.program side p
  returned := Function.update h.returned side returned

/-- A wake-up, a delivery, or a call of a program that has its socket; a program
that has returned calls `myclose`. -/
inductive Hosts.Step (h : Hosts β) : Hosts β → Prop
  | own {s : System} (step : h.system.OwnStep s) : Step h { h with system := s }
  | write {side : Side} {buf : Bytes} {next : Int → StreamProg UInt8 (β side)} {e : Endpoint}
      (opened : (h.system.endpoint side).opened) (call : h.program side = .write buf next)
      (wrote : (h.system.endpoint side).write buf = some e) :
      Step h (h.called side e (next (intOf buf.length)) (h.returned side))
  | read {side : Side} {count : Nat} {next : Int → Bytes → StreamProg UInt8 (β side)}
      {chunk : Bytes} {sock : Mysock} (opened : (h.system.endpoint side).opened)
      (call : h.program side = .read count next)
      (got : myread count (h.system.endpoint side).sock = some (chunk, sock)) :
      Step h (h.called side { h.system.endpoint side with sock := sock }
        (next (intOf chunk.length) chunk) (h.returned side ++ chunk))
  | close {side : Side} {result : β side} {e : Endpoint}
      (opened : (h.system.endpoint side).opened) (call : h.program side = .ret result)
      (closed : (h.system.endpoint side).close = some e) :
      Step h (h.called side e (.ret result) (h.returned side))

/-- What the programs see: towards each side, what its peer has written and it has
not read. -/
def Hosts.dialogue (h : Hosts β) : Dialogue Side UInt8 β where
  program := h.program
  pipe side := (h.system.endpoint side.other).hist.written.drop (h.returned side).length

/-- What `mywrite` returns is the length of the buffer. -/
def ShortWrite (buf : Bytes) : Prop := buf.length < 2 ^ 31

instance (buf : Bytes) : Decidable (ShortWrite buf) := Nat.decLt _ _

/-- What holds of the hosts in every run. -/
structure Hosts.Inv (h : Hosts β) : Prop where
  lively : h.system.Lively
  served : ∀ side, Served (h.system.endpoint side) (h.returned side)
  closed : ∀ side, (h.system.endpoint side).hist.closed = true → h.dialogue.ended side
  short : ∀ side, (h.program side).Keeps ShortWrite fun _ => True

theorem Hosts.init_inv (initialSequenceNum : Side → TcpSeq)
    {program : ∀ side, StreamProg UInt8 (β side)}
    (short : ∀ side, (program side).Keeps ShortWrite fun _ => True) :
    (Hosts.init initialSequenceNum program).Inv where
  lively := System.init_lively initialSequenceNum
  served side := .init (decide (side = .active)) (initialSequenceNum side)
  closed side closed := by cases closed
  short := short

/-! ### The bytes between two programs -/

/-- What has been handed up is the front of what was written; with an end of file
behind it, it is all of it, and the writer has closed. -/
theorem System.Connected.handed {s : System} (connected : s.Connected) (side : Side) :
    ∃ more, (beforeMarker (s.endpoint side.other).hist.delivered).flatten ++ more =
        (s.endpoint side).hist.written ∧
      ([] ∈ (s.endpoint side.other).hist.delivered →
        more = [] ∧ (s.endpoint side).hist.closed = true) := by
  obtain ⟨c, -, inOrder, flying⟩ := connected.position side
  obtain ⟨chunks, markers, nodes, data, spell, endOfFile, marked⟩ := inOrder.delivered
  have accounts := connected.accounts side
  have noData : markers.flatten = [] := List.flatten_eq_nil_iff.mpr endOfFile
  have before : beforeMarker (chunks ++ markers) = chunks := takeWhile_nonempty data endOfFile
  rw [nodes, List.flatten_append, noData, List.append_nil, List.append_assoc] at accounts
  rw [nodes, before]
  refine ⟨_, accounts, fun ended => ?_⟩
  have received : (s.endpoint side.other).ctx.finReceived = true := by
    refine marked.mp fun none => ?_
    rw [none, List.append_nil] at ended
    exact data [] ended rfl
  have opened : (s.endpoint side.other).opened := by
    by_contra notOpened
    have early := ((connected.sound side.other).closing.early notOpened).2.2.1
    exact absurd (received.symm.trans early) (by decide)
  have finished : c.stage = .finished := by
    rw [inOrder.stage, Endpoint.heard]
    rcases opened with phase | phase <;> rw [phase, received] <;> rfl
  have nothing := payload_of_finished flying finished
  have said : (s.endpoint side).said = .finished := (span_of_finished flying finished).2
  have finSent : (s.endpoint side).ctx.finSent = true := by
    by_contra notSent
    rw [Bool.not_eq_true] at notSent
    simp only [Endpoint.said] at said
    split at said <;> simp [notSent, Stage.afterFin] at said
  obtain ⟨drained, closed⟩ := (connected.sound side).sender.drained finSent
  exact ⟨by rw [nothing, drained]; rfl, closed⟩

/-- The pipe towards `side` starts with what it has been handed and has not read. -/
theorem Hosts.Inv.pipe {h : Hosts β} (inv : h.Inv) {side : Side} {e : Endpoint} {chunk : Bytes}
    (served : Served e (h.returned side ++ chunk))
    (delivered : e.hist.delivered = (h.system.endpoint side).hist.delivered) :
    ∃ rest, h.dialogue.pipe side = chunk ++ rest ∧
      (e.sock.eof = true → rest = [] ∧ h.dialogue.ended side.other) := by
  obtain ⟨more, whole, last⟩ := inv.lively.prompt.connected.handed side.other
  rw [Side.other_other] at whole last
  have bytes : ∃ unread, h.returned side ++ chunk ++ unread =
      (beforeMarker (h.system.endpoint side).hist.delivered).flatten := by
    rw [← delivered]
    exact ⟨_, served.balanced.bytes⟩
  obtain ⟨unread, bytes⟩ := bytes
  refine ⟨unread ++ more, ?_, fun eof => ?_⟩
  · rw [Hosts.dialogue]
    dsimp only
    rw [← whole, ← bytes, List.append_assoc, List.append_assoc, List.drop_left]
  · obtain ⟨ended, all⟩ := served.faithful.eof eof
    simp only [Endpoint.appEnd, delivered] at ended all
    obtain ⟨none, closed⟩ := last ended
    rw [all, List.append_right_eq_self] at bytes
    exact ⟨by rw [bytes, none]; rfl, inv.closed side.other closed⟩

/-! ### Each step -/

/-- What the system has to do by itself, and the closes to come. -/
def Hosts.fuel (h : Hosts β) : Nat :=
  h.system.effort + 8 * ((!(h.system.endpoint .active).hist.closed).toNat +
    (!(h.system.endpoint .passive).hist.closed).toNat)

theorem System.Lively.own_handsUp {s s' : System} (lively : s.Lively) (step : s.OwnStep s')
    (side : Side) : HandsUp (s.endpoint side) (s'.endpoint side) := by
  obtain ⟨side', woken | came⟩ := step
  · obtain ⟨e, went, rfl⟩ := Option.map_eq_some_iff.mp woken
    dsimp only
    by_cases here : side = side'
    · subst here
      rw [Function.update_self]
      exact (lively.clear side).wake_handsUp went (lively.prompt.wake_accepted went)
    · rw [Function.update_of_ne here]
      exact .refl _
  · simp only [System.step] at came
    split at came
    · cases came
    · obtain ⟨middle, acted, rfl⟩ := Option.map_eq_some_iff.mp came
      obtain ⟨e, arrived, rfl⟩ := Option.map_eq_some_iff.mp acted
      cases arrived
      dsimp only
      by_cases here : side = side'
      · subst here
        rw [Function.update_self]
        exact .of_still rfl rfl rfl
      · rw [Function.update_of_ne here]
        exact .refl _

/-- What threads and network do by themselves no program sees. -/
theorem Hosts.Inv.own {h : Hosts β} {s : System} (inv : h.Inv) (step : h.system.OwnStep s) :
    Hosts.Inv { h with system := s } ∧ Hosts.dialogue { h with system := s } = h.dialogue ∧
      Hosts.fuel { h with system := s } < h.fuel := by
  obtain ⟨lively, same⟩ := inv.lively.own step
  have less := inv.lively.own_lt step
  refine ⟨⟨lively, fun side => ?_, fun side closed => ?_, inv.short⟩, ?_, ?_⟩
  · exact (inv.served side).handsUp (inv.lively.own_handsUp step side)
  · rw [(same side).2] at closed
    exact inv.closed side closed
  · rw [Hosts.dialogue, Hosts.dialogue, Dialogue.mk.injEq]
    refine ⟨rfl, ?_⟩
    funext side
    rw [(same side.other).1]
  · rw [Hosts.fuel, Hosts.fuel, (same .active).2, (same .passive).2]
    exact Nat.add_lt_add_right less _

section Call

variable {h : Hosts β} {side : Side} {e : Endpoint} {p : StreamProg UInt8 (β side)}
  {returned : Bytes}

theorem Hosts.Inv.called (inv : h.Inv) (lively : (h.called side e p returned).system.Lively)
    (served : Served e returned) (closed : e.hist.closed = true → ∃ result, p = .ret result)
    (short : p.Keeps ShortWrite fun _ => True) : (h.called side e p returned).Inv := by
  refine ⟨lively, fun side' => ?_, fun side' => ?_, fun side' => ?_⟩ <;>
    by_cases here : side' = side
  · subst here
    simpa [Hosts.called] using served
  · simpa [Hosts.called, here] using inv.served side'
  · subst here
    simpa [Hosts.called, Hosts.dialogue, Dialogue.ended] using closed
  · simpa [Hosts.called, Hosts.dialogue, Dialogue.ended, here] using inv.closed side'
  · subst here
    simpa [Hosts.called] using short
  · simpa [Hosts.called, here] using inv.short side'

/-- What a call takes out of its pipe, and what it puts into its peer's. -/
theorem Hosts.called_dialogue {taken : Nat} {given : Bytes}
    (reads : returned.length = (h.returned side).length + taken)
    (writes : e.hist.written = (h.system.endpoint side).hist.written ++ given)
    (ahead : (h.returned side.other).length ≤ (h.system.endpoint side).hist.written.length) :
    (h.called side e p returned).dialogue = h.dialogue.turn Side.other side taken given p := by
  rw [Hosts.dialogue, Dialogue.turn, Dialogue.mk.injEq]
  refine ⟨rfl, ?_⟩
  funext side'
  have others := side.other_ne
  by_cases here : side' = side
  · subst here
    simp [Hosts.called, Hosts.dialogue, others, others.symm, reads, List.drop_drop]
  · have other : side' = side.other := by
      cases side <;> cases side' <;> first | rfl | exact absurd rfl here
    subst other
    simp [Hosts.called, Hosts.dialogue, others, writes, List.drop_append_of_le_length ahead]

theorem Hosts.Inv.ahead (inv : h.Inv) (side : Side) :
    (h.returned side).length ≤ (h.system.endpoint side.other).hist.written.length := by
  obtain ⟨more, whole, -⟩ := inv.lively.prompt.connected.handed side.other
  rw [Side.other_other] at whole
  have bytes : h.returned side ++ _ =
      (beforeMarker (h.system.endpoint side).hist.delivered).flatten :=
    (inv.served side).balanced.bytes
  rw [← whole, ← bytes, List.append_assoc, List.length_append]
  exact Nat.le_add_right _ _

theorem Hosts.Inv.ahead_other (inv : h.Inv) (side : Side) :
    (h.returned side.other).length ≤ (h.system.endpoint side).hist.written.length := by
  have ahead := inv.ahead side.other
  rwa [Side.other_other] at ahead

/-- A call is an input of the system. -/
theorem Hosts.Inv.called_lively (inv : h.Inv) {a : Action} {i : Input}
    (input : (h.system.endpoint side).input i = some e)
    (is : h.system.step a = h.system.act side i) (orderly : h.system.Orderly a) :
    (h.called side e p returned).system.Lively := by
  refine inv.lively.step (a := a) ?_ orderly
  rw [is, System.act, input]
  rfl

/-- `mywrite` puts the buffer into the pipe towards the peer. -/
theorem Hosts.Inv.write {buf : Bytes} {next : Int → StreamProg UInt8 (β side)} (inv : h.Inv)
    (call : h.program side = .write buf next)
    (wrote : (h.system.endpoint side).write buf = some e) :
    (h.called side e (next (intOf buf.length)) (h.returned side)).Inv ∧
      (h.called side e (next (intOf buf.length)) (h.returned side)).dialogue =
        h.dialogue.turn Side.other side 0 buf (next buf.length) := by
  have short := inv.short side
  rw [call] at short
  rw [(intOf_eq_iff _).mpr short.1]
  have lively : (h.called side e (next buf.length) (h.returned side)).system.Lively :=
    inv.called_lively (i := .write buf) (a := .write side buf) wrote rfl trivial
  unfold Endpoint.write at wrote
  split at wrote
  · cases wrote
  · next running =>
      cases wrote
      refine ⟨inv.called lively ((inv.served side).of_reading rfl rfl rfl)
        (fun closed => absurd closed running) (short.2 _), ?_⟩
      exact Hosts.called_dialogue rfl rfl (inv.ahead_other side)

/-- A close that is asked for costs less than one that is to come. -/
theorem Hosts.close_fuel (running : (h.system.endpoint side).hist.closed = false) :
    (h.called side { h.system.endpoint side with
      sock := myclose (h.system.endpoint side).sock, hist.closed := true } p returned).fuel <
        h.fuel := by
  have others := side.other_ne
  have asks := Bool.toNat_le (h.system.endpoint side).sock.closeRequested
  have effort : (h.called side { h.system.endpoint side with
      sock := myclose (h.system.endpoint side).sock, hist.closed := true } p
        returned).system.effort ≤ h.system.effort + 7 := by
    rw [System.effort_eq _ side, System.effort_eq h.system side]
    simp only [Hosts.called, System.effortAt, System.channel, Function.update_self,
      Function.update_of_ne others, Side.other_other, Endpoint.effort, Endpoint.work, myclose,
      Bool.toNat_true]
    omega
  unfold Hosts.fuel
  cases side <;> simp only [Hosts.called, Function.update_self, running, Bool.not_true,
    Bool.not_false, Bool.toNat_true, Bool.toNat_false] at effort ⊢
  · rw [Function.update_of_ne (by decide)]
    omega
  · rw [Function.update_of_ne (by decide)]
    omega

/-- `myclose` is seen by no program. -/
theorem Hosts.Inv.close {result : β side} (inv : h.Inv)
    (opened : (h.system.endpoint side).opened) (call : h.program side = .ret result)
    (closed : (h.system.endpoint side).close = some e) :
    (h.called side e (.ret result) (h.returned side)).Inv ∧
      (h.called side e (.ret result) (h.returned side)).dialogue = h.dialogue ∧
      (h.called side e (.ret result) (h.returned side)).fuel < h.fuel := by
  have lively : (h.called side e (.ret result) (h.returned side)).system.Lively :=
    inv.called_lively (i := .close) (a := .close side) closed rfl opened
  unfold Endpoint.close at closed
  split at closed
  · cases closed
  · next running =>
      cases closed
      refine ⟨inv.called lively ((inv.served side).of_reading rfl rfl rfl)
        (fun _ => ⟨result, rfl⟩) trivial, ?_, ?_⟩
      · refine .trans (Hosts.called_dialogue ?_ ?_ (inv.ahead_other side))
          (Dialogue.turn_nothing call)
        · rfl
        · exact (List.append_nil _).symm
      · exact Hosts.close_fuel (Bool.not_eq_true _ ▸ running)

/-- `myread` is a read from the pipe. -/
theorem Hosts.Inv.read {count : Nat} {next : Int → Bytes → StreamProg UInt8 (β side)}
    {chunk : Bytes} {sock : Mysock} (inv : h.Inv) (asks : 0 < count)
    (call : h.program side = .read count next)
    (got : myread count (h.system.endpoint side).sock = some (chunk, sock)) :
    (h.called side { h.system.endpoint side with sock := sock } (next (intOf chunk.length) chunk)
      (h.returned side ++ chunk)).Inv ∧
    h.dialogue.Moves Side.other side
      (h.called side { h.system.endpoint side with sock := sock } (next (intOf chunk.length) chunk)
        (h.returned side ++ chunk)).dialogue := by
  obtain ⟨served, fits, few, last⟩ := (inv.served side).read asks got
  obtain ⟨rest, pipe, ended⟩ := inv.pipe served rfl
  have short := inv.short side
  rw [call] at short
  have open_ : (h.system.endpoint side).hist.closed ≠ true := by
    intro closed
    obtain ⟨result, returned⟩ := inv.closed side closed
    cases call.symm.trans returned
  have honest : intOf chunk.length = chunk.length := by
    have bound : stcpMss = 536 := rfl
    exact (intOf_eq_iff _).mpr (by omega)
  have input : (h.system.endpoint side).input (.read count) =
      some { h.system.endpoint side with sock := sock } := by
    rw [Endpoint.input, Endpoint.read, got]
    rfl
  refine ⟨inv.called (inv.called_lively (a := .read side count) input rfl trivial) served
    (fun closed => absurd closed open_) (short _ _), ?_⟩
  have turned : (h.called side { h.system.endpoint side with sock := sock }
      (next (intOf chunk.length) chunk) (h.returned side ++ chunk)).dialogue =
        h.dialogue.turn Side.other side chunk.length [] (next (intOf chunk.length) chunk) :=
    Hosts.called_dialogue List.length_append (List.append_nil _).symm (inv.ahead_other side)
  rw [turned, honest]
  refine .turn ?_
  change (h.program side).Turn _ _ _ _ _
  rw [call, pipe]
  by_cases empty : chunk = []
  · subst empty
    obtain ⟨rfl, gone⟩ := ended (last rfl)
    exact .eof asks gone
  · have turn : (StreamProg.read count next).Turn (chunk ++ rest) (h.dialogue.ended side.other)
        chunk.length [] (next chunk.length ((chunk ++ rest).take chunk.length)) :=
      .read _ (List.length_pos_iff.mpr empty) fits (by simp)
    rwa [List.take_left] at turn

end Call

/-! ### Every run -/

/-- A step of the hosts is a step of the dialogue, or one that no program sees and
that brings the hosts closer to rest. -/
theorem Hosts.Inv.simulates {h h' : Hosts β} {result : ∀ side, β side} (inv : h.Inv)
    (settles : h.dialogue.Settles Side.other result) (step : h.Step h') :
    h'.Inv ∧ (Dialogue.Step Side.other h.dialogue h'.dialogue ∨
      (h'.dialogue = h.dialogue ∧ h'.fuel < h.fuel)) := by
  cases step with
  | own step =>
      obtain ⟨inv', same, less⟩ := inv.own step
      exact ⟨inv', .inr ⟨same, less⟩⟩
  | @write side buf next e opened call wrote =>
      obtain ⟨inv', turned⟩ := inv.write call wrote
      have turn : (h.dialogue.program side).Turn (h.dialogue.pipe side)
          (h.dialogue.ended side.other) 0 buf (next buf.length) := by
        change (h.program side).Turn _ _ _ _ _
        rw [call]
        exact .write
      exact ⟨inv', .inl ⟨side, turned ▸ .turn turn⟩⟩
  | @read side count next chunk sock opened call got =>
      obtain ⟨inv', moves⟩ := inv.read (settles.asks call) call got
      exact ⟨inv', .inl ⟨side, moves⟩⟩
  | close opened call closed =>
      obtain ⟨inv', same, less⟩ := inv.close opened call closed
      exact ⟨inv', .inr ⟨same, less⟩⟩

/-- Both programs have returned, and both transport threads have exited. -/
def Hosts.Finished (result : ∀ side, β side) (h : Hosts β) : Prop :=
  ∀ side, h.program side = .ret (result side) ∧ (h.system.endpoint side).phase = .exited

/-- A call of `myread` waits only for what is still to be written. -/
theorem Hosts.Inv.blocked {h : Hosts β} (inv : h.Inv) (settled : h.system.Settled) {side : Side}
    {count : Nat} (waits : myread count (h.system.endpoint side).sock = none) :
    h.dialogue.pipe side = [] ∧ (h.system.endpoint side.other).hist.closed = false := by
  obtain ⟨reading, queue⟩ := myread_none waits
  obtain ⟨markers, bytes⟩ := (inv.served side).balanced.streaming_of_reading reading
  simp only [Endpoint.appEnd, queue, List.count_nil, beforeMarker_nil, List.flatten_nil,
    List.append_nil] at markers bytes
  have unmarked : [] ∉ (h.system.endpoint side).hist.delivered :=
    List.count_eq_zero.mp markers.symm
  have whole := settled.delivered side.other
  have ended := settled.ended side.other
  rw [Side.other_other] at whole ended
  refine ⟨?_, ?_⟩
  · have all : beforeMarker (h.system.endpoint side).hist.delivered =
        (h.system.endpoint side).hist.delivered := by
      have data : ∀ node ∈ (h.system.endpoint side).hist.delivered, node ≠ [] :=
        fun node member empty => unmarked (empty ▸ member)
      have same := takeWhile_nonempty data fun marker (none : marker ∈ []) => by cases none
      rwa [List.append_nil] at same
    rw [Hosts.dialogue]
    dsimp only
    rw [bytes, all, whole, List.drop_length]
  · by_contra closed
    exact unmarked (ended (Bool.not_eq_false _ ▸ closed))

/-- Hosts that have not finished are never stuck. -/
theorem Hosts.Inv.progress {h : Hosts β} {result : ∀ side, β side} (inv : h.Inv)
    (settles : h.dialogue.Settles Side.other result) :
    h.Finished result ∨ ∃ h', h.Step h' := by
  by_cases go : ∃ h', h.Step h'
  · exact .inr go
  have quiet : h.system.Quiet := by
    refine fun side => ⟨?_, ?_⟩
    · exact Option.eq_none_iff_forall_ne_some.mpr fun s woken => go ⟨_, .own ⟨side, .inl woken⟩⟩
    · exact Option.eq_none_iff_forall_ne_some.mpr fun s came => go ⟨_, .own ⟨side, .inr came⟩⟩
  have settled := inv.lively.prompt.settled quiet
  have closed side (ended : h.dialogue.ended side) :
      (h.system.endpoint side).hist.closed = true := by
    by_contra running
    obtain ⟨_, returned⟩ := ended
    exact go ⟨_, .close (settled.opened side) returned (if_neg running)⟩
  -- a program that is not done waits for bytes that no one has written
  have stuck : ∀ d, ¬ Dialogue.Step Side.other h.dialogue d := by
    rintro d ⟨side, ⟨turn⟩⟩
    cases head : h.program side with
    | ret _ => exact turn.not_ret _ head
    | write buf next =>
        have running : ¬ (h.system.endpoint side).hist.closed = true := by
          intro isClosed
          obtain ⟨_, returned⟩ := inv.closed side isClosed
          cases head.symm.trans returned
        exact go ⟨_, .write (settled.opened side) head (if_neg running)⟩
    | read count next =>
        cases got : myread count (h.system.endpoint side).sock with
        | some result => exact go ⟨_, .read (settled.opened side) head got⟩
        | none =>
            obtain ⟨dry, running⟩ := inv.blocked settled got
            change (h.program side).Turn _ _ _ _ _ at turn
            rw [head] at turn
            rcases turn.of_read with ⟨moves, -, there, -⟩ | ⟨-, -, gone, -⟩
            · rw [dry] at there
              exact absurd moves (Nat.not_lt.mpr there)
            · exact absurd ((closed side.other gone).symm.trans running) (by decide)
  have returned := settles.reached stuck
  exact .inl fun side => ⟨returned side,
    settled.exited.mpr (fun side => closed side ⟨_, returned side⟩) side⟩

/-- Programs that come to an end over pipes, whatever the schedule, come to the
same end over STCP, and both transport threads exit: however threads, packets and
calls are interleaved, and wherever the sequence numbers start. -/
theorem programs_settle {program : ∀ side, StreamProg UInt8 (β side)} {result : ∀ side, β side}
    (short : ∀ side, (program side).Keeps ShortWrite fun _ => True)
    (settles : Dialogue.Settles Side.other result ⟨program, fun _ => []⟩)
    (initialSequenceNum : Side → TcpSeq) :
    Inevitable Hosts.Step (Hosts.Finished result) (Hosts.init initialSequenceNum program) := by
  refine .of_simulation (R := fun h d => h.Inv ∧ h.dialogue = d ∧ d.Settles Side.other result)
    Hosts.fuel ?_ ?_ ⟨Hosts.init_inv initialSequenceNum short, rfl, ?_⟩
    (settles.acc Dialogue.Returned.still)
  · rintro h d h' ⟨inv, rfl, settles⟩ step
    obtain ⟨inv', moved | ⟨same, less⟩⟩ := inv.simulates settles step
    · exact .inl ⟨_, moved, inv', rfl, settles.after_step Dialogue.Returned.still moved⟩
    · exact .inr ⟨⟨inv', same, settles⟩, less⟩
  · rintro h d ⟨inv, rfl, settles⟩
    exact inv.progress settles
  · exact settles

end Hosts

/-- A byte that is sent back. -/
def echo : ∀ _ : Side, StreamProg UInt8 Bytes
  | .active => .write [7] fun _ => .read 1 fun _ got => .ret got
  | .passive => .read 1 fun _ got => .write (got.take 1) fun _ => .ret got

/-- The sequence numbers wrap while the byte is sent. -/
theorem programs_settle_echo :
    Inevitable Hosts.Step (Hosts.Finished fun _ => [7])
      (Hosts.init (fun _ => 0xffffffff) echo) := by
  refine programs_settle (fun side => ?_) ?_ _
  · cases side
    · exact ⟨by decide, fun _ _ _ => trivial⟩
    · exact fun _ got => ⟨Nat.lt_of_le_of_lt (List.length_take_le 1 got) (by decide),
        fun _ => trivial⟩
  · have byte : (StreamProg.read 1 fun _ got => StreamProg.ret got).Reads [7] ([7] : Bytes) := by
      refine .read Nat.one_pos (Nat.le_refl 1) fun k moves fits => ?_
      obtain rfl : k = 1 := by omega
      exact .ret [7]
    refine .write (i := .active) Side.other_involutive rfl ?_
    refine .reads (i := .passive) (f := fun got => .write (got.take 1) fun _ => .ret got)
      Side.other_involutive byte rfl rfl ?_
    refine .write (i := .passive) Side.other_involutive rfl ?_
    refine .reads (i := .active) Side.other_involutive byte rfl rfl ?_
    refine .now fun side => ?_
    cases side <;> rfl

end CompNet.Stcp
