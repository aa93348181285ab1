import CompNet.Stcp.Receive

/-!
# What an endpoint acknowledges

Two readings of `th_ack` over whole runs.  Under the first it is one past the last
byte or FIN received in order: `Endpoint.inOrderEnd` computes that from the packets
read, and `ack_num` follows it as long as every FIN read is in order and bare.
Under the second the bytes it covers have been passed up: `Endpoint.advanced`
collects the data that moved `ack_num`, and all of it is passed up as long as the
counter that guards `stcp_app_send` agrees with `ack_num`.
-/

namespace CompNet.Stcp

open CompNet.Lib

/-! ## Runs that read only certain packets -/

/-- The packet that the next wake-up reads in `control_loop`. -/
def Endpoint.reading (e : Endpoint) : Option Packet :=
  if e.phase = .controlLoop ∧ e.ctx.done = false then e.nextPacket else none

/-- A step in which `control_loop` reads no packet but those that are `fine`. -/
def ReadStep (fine : Endpoint → Packet → Prop) (e : Endpoint) (i : Input) (e' : Endpoint) : Prop :=
  (match i with
    | .wake => ∀ p ∈ e.reading, fine e p
    | _ => True) ∧
    e.input i = some e'

section

variable {fine : Endpoint → Packet → Prop} {e e' : Endpoint} {inputs : List Input}

theorem Endpoint.reading_loop (phase : e.phase = .controlLoop) (running : e.ctx.done = false) :
    e.reading = e.nextPacket := if_pos ⟨phase, running⟩

theorem Endpoint.reading_early (phase : e.phase ≠ .controlLoop) : e.reading = none :=
  if_neg fun given => phase given.1

/-- Runs are computed by following the inputs as long as what is read is fine. -/
theorem readPath_of_follow [∀ e p, Decidable (fine e p)]
    (ran : follow (fun e i =>
      if ∀ p ∈ e.reading, fine e p then e.input i else none) e inputs = some e') :
    Path (ReadStep fine) e inputs e' := by
  refine (Path.of_follow ran).mono ?_
  intro s i t step
  split at step
  · next allowed =>
      refine ⟨?_, step⟩
      cases i with
      | wake => exact allowed
      | _ => trivial
  · cases step

end

/-! ## Segments out of order -/

/-- The receiving side of `e'` is that of `e`. -/
structure Unmoved (e e' : Endpoint) : Prop where
  ackNum : e'.ctx.ackNum = e.ctx.ackNum
  nextSeqExpected : e'.ctx.nextSeqExpected = e.ctx.nextSeqExpected
  finReceived : e'.ctx.finReceived = e.ctx.finReceived
  appSendQueue : e'.sock.appSendQueue = e.sock.appSendQueue

theorem Unmoved.of_intake {e e' : Endpoint} (same : e'.intake = e.intake) : Unmoved e e' where
  ackNum := congrArg Intake.ackNum same
  nextSeqExpected := congrArg Intake.nextSeqExpected same
  finReceived := congrArg Intake.finReceived same
  appSendQueue := congrArg Intake.appSendQueue same

/-- The in-order test of the data branch comes after the FIN has been taken. -/
theorem Takes.unmoved_iff {p : Packet} {chunk : Bytes} {e e' : Endpoint}
    (takes : Takes p chunk e e') (outOfOrder : p.thSeq ≠ e.ctx.ackNum) :
    Unmoved e e' ↔ p.has thFin = false := by
  cases takes with
  | fin flag after _ =>
      refine iff_of_false ?_ (by rw [flag]; decide)
      intro unmoved
      have queue := unmoved.appSendQueue
      rw [← Endpoint.intake_appSendQueue e', after] at queue
      simp [Intake.finish, Intake.enqueue] at queue
  | bare noFin _ after _ => exact iff_of_true (.of_intake after) noFin
  | late noFin _ _ after _ => exact iff_of_true (.of_intake after) noFin
  | stranded _ _ inOrder _ _ _ => exact absurd inOrder outOfOrder
  | passed _ _ inOrder _ _ _ => exact absurd inOrder outOfOrder

/-! ### One past what was received in order -/

/-- What a receiver that expects `next` expects after `p`: a segment in order counts with its data
and its FIN, any other does not count. -/
def Packet.nextInOrder (next : TcpSeq) (p : Packet) : TcpSeq :=
  if p.thSeq = next then next + UInt32.ofNat p.body.length + if p.has thFin then 1 else 0
  else next

/-- How many packets an endpoint reads in the handshake. -/
def Endpoint.greetings (e : Endpoint) : Nat := if e.isActive then 1 else 2

/-- One past the last byte or FIN received in order; the first packet read is the peer's SYN. -/
def Endpoint.inOrderEnd (e : Endpoint) : TcpSeq :=
  match e.hist.received with
  | [] => 0
  | syn :: _ => (e.hist.received.drop e.greetings).foldl Packet.nextInOrder (syn.thSeq + 1)

/-- Every acknowledgement that the step from `e` to `e'` sends is one past what was received in
order: application data goes out before the step reads its packet, all else goes out behind it. -/
def AcksInOrder (e e' : Endpoint) : Prop :=
  ∃ new, e'.hist.sent = e.hist.sent ++ new ∧ ∀ q ∈ new, q.has thAckFlag = true →
    q.thAck = if q.data = [] then e'.inOrderEnd else e.inOrderEnd

/-- `p` has its header inside, and if it has a FIN, the FIN is in order and alone. -/
structure TidyFin (e : Endpoint) (p : Packet) : Prop where
  header : headerLen ≤ p.dataStart ∧ p.dataStart ≤ p.wire.length
  fin : p.has thFin = true → p.thSeq = e.ctx.ackNum ∧ p.body = []

/-- The sequence space of the data is the same with the length cut to 64 bits. -/
theorem ofNat_dataLen {p : Packet} (inside : p.dataStart ≤ p.wire.length) :
    UInt32.ofNat (dataLen p) = UInt32.ofNat p.body.length := by
  have length : p.body.length = p.wire.length - p.dataStart := List.length_drop
  have cut : dataLen p = p.body.length % 2 ^ 64 := by
    rw [dataLen, length]
    omega
  rw [cut]
  apply UInt32.toNat.inj
  simp only [UInt32.toNat_ofNat']
  omega

/-- A segment with a tidy FIN moves `ack_num` past what it brings in order. -/
theorem Takes.nextInOrder {p : Packet} {chunk : Bytes} {e e' : Endpoint}
    (takes : Takes p chunk e e') (tidy : TidyFin e p) :
    e'.ctx.ackNum = p.nextInOrder e.ctx.ackNum := by
  have length := ofNat_dataLen tidy.header.2
  rw [← Endpoint.intake_ackNum]
  unfold Packet.nextInOrder
  cases takes with
  | fin flag after _ =>
      obtain ⟨inOrder, alone⟩ := tidy.fin flag
      rw [after, if_pos inOrder, if_pos flag, alone, ← inOrder]
      simp [Intake.finish]
  | bare noFin empty after _ =>
      rw [empty] at length
      rw [after, noFin, ← length]
      simp
  | late _ _ late after _ => rw [after, if_neg late, Endpoint.intake_ackNum]
  | stranded noFin _ inOrder _ after _ =>
      rw [after, if_pos inOrder, noFin, ← length]
      simp [Intake.strand]
  | passed noFin _ inOrder _ after _ =>
      rw [after, if_pos inOrder, noFin, ← length]
      simp [Intake.pass]

/-- What handling a segment sends carries no data and shows the counters behind it. -/
theorem Takes.sent {p : Packet} {chunk : Bytes} {e e' : Endpoint} (takes : Takes p chunk e e') :
    ∃ new, e'.hist.sent = e.hist.sent ++ new ∧
      ∀ q ∈ new, q.data = [] ∧ q.thAck = e'.ctx.ackNum ∧
        q.thWin = e'.ctx.recvWindowSize - e'.ctx.recvBufferUsed := by
  rcases takes.answered with ⟨n, sent⟩ | ⟨-, sent⟩
  · refine ⟨_, sent, ?_⟩
    intro q member
    rw [List.eq_of_mem_replicate member]
    exact ⟨rfl, rfl, rfl⟩
  · exact ⟨[], by rw [sent, List.append_nil], nofun⟩

theorem Endpoint.greetings_pos (e : Endpoint) : 0 < e.greetings := by
  unfold Endpoint.greetings
  split <;> decide

theorem Steady.inOrderEnd {sort : Packet → Prop} {e e' : Endpoint} (steady : Steady sort e e') :
    e'.inOrderEnd = e.inOrderEnd := by
  unfold Endpoint.inOrderEnd Endpoint.greetings
  rw [steady.received, steady.isActive]

/-- In the handshake only the peer's SYN counts. -/
theorem Endpoint.inOrderEnd_greeting {e : Endpoint} {syn : Packet} {more : List Packet}
    (read : e.hist.received = syn :: more) (early : e.hist.received.length ≤ e.greetings) :
    e.inOrderEnd = syn.thSeq + 1 := by
  rw [Endpoint.inOrderEnd, List.drop_eq_nil_of_le early, read]
  rfl

/-- Behind the handshake each packet read is one more segment. -/
theorem Endpoint.inOrderEnd_append {e e' : Endpoint} {p : Packet}
    (received : e'.hist.received = e.hist.received ++ [p]) (isActive : e'.isActive = e.isActive)
    (greeted : e.greetings ≤ e.hist.received.length) :
    e'.inOrderEnd = p.nextInOrder e.inOrderEnd := by
  have same : e'.greetings = e.greetings := by rw [Endpoint.greetings, isActive, Endpoint.greetings]
  unfold Endpoint.inOrderEnd
  rw [received, same, List.drop_append_of_le_length greeted]
  cases read : e.hist.received with
  | nil =>
      rw [read] at greeted
      exact absurd e.greetings_pos (Nat.not_lt.mpr greeted)
  | cons syn rest =>
      simp only [List.cons_append, List.foldl_append, List.foldl_cons, List.foldl_nil]

/-- The invariant of such runs. -/
structure Tracked (e : Endpoint) : Prop where
  role : e.RoleFits
  silent : e.phase = .start ∨ e.phase = .awaitSyn ∨ e.phase = .awaitSynAck →
    e.hist.received = []
  greeted : e.phase = .awaitAck → ∃ syn, e.hist.received = [syn] ∧ e.ctx.ackNum = syn.thSeq + 1
  inOrder : e.phase = .controlLoop →
    e.greetings ≤ e.hist.received.length ∧ e.ctx.ackNum = e.inOrderEnd

theorem Tracked.of_loop {e : Endpoint} (phase : e.phase = .controlLoop)
    (greeted : e.greetings ≤ e.hist.received.length) (inOrder : e.ctx.ackNum = e.inOrderEnd) :
    Tracked e := by
  refine ⟨?_, ?_, ?_, fun _ => ⟨greeted, inOrder⟩⟩
  · rw [Endpoint.RoleFits, phase]
    trivial
  · rw [phase]
    simp
  · rw [phase]
    simp

theorem Tracked.steady {sort : Packet → Prop} {e e' : Endpoint} (tracked : Tracked e)
    (phase : e.phase = .controlLoop) (steady : Steady sort e e') : Tracked e' := by
  obtain ⟨greeted, inOrder⟩ := tracked.inOrder phase
  refine .of_loop (steady.phase.trans phase) ?_ ?_
  · rw [steady.received, Endpoint.greetings, steady.isActive]
    exact greeted
  · rw [steady.inOrderEnd, ← inOrder]
    exact steady.ackNum

theorem Tracked.packet {p : Packet} {rest : List (Option Packet)} {e : Endpoint}
    (tracked : Tracked e) (phase : e.phase = .controlLoop) (tidy : TidyFin e p) :
    Tracked (handlePacket p rest e) := by
  obtain ⟨greeted, inOrder⟩ := tracked.inOrder phase
  have received := (handlePacket_received p rest e).1
  have frame := handlePacket_frame p rest e
  refine .of_loop (frame.phase.trans phase) ?_ ?_
  · rw [received, List.length_append, Endpoint.greetings, frame.isActive]
    exact Nat.le_add_right_of_le greeted
  · rw [Endpoint.inOrderEnd_append received frame.isActive greeted, ← inOrder]
    exact (handlePacket_takes p rest e).nextInOrder tidy

/-- What a steady stretch sends is in order when the state is. -/
theorem Tracked.tells {sort : Packet → Prop} {e e' : Endpoint} (tracked : Tracked e)
    (phase : e.phase = .controlLoop) (steady : Steady sort e e') :
    ∃ new, e'.hist.sent = e.hist.sent ++ new ∧
      ∀ q ∈ new, sort q ∧ q.thAck = e.inOrderEnd := by
  obtain ⟨new, sent, tell⟩ := steady.sent
  refine ⟨new, sent, ?_⟩
  intro q member
  obtain ⟨kind, -, acks, -⟩ := tell q member
  exact ⟨kind, acks.trans (tracked.inOrder phase).2⟩

/-- An iteration sends its data with what was in order before it, and everything else with what is
in order behind it. -/
theorem Tracked.iterated {e e' : Endpoint} (tracked : Tracked e) (phase : e.phase = .controlLoop)
    (tidy : ∀ p ∈ e.nextPacket, TidyFin e p) (iterated : e.Iterated e') :
    Tracked e' ∧ AcksInOrder e e' := by
  cases iterated with
  | idle e₁ _ before after =>
      have looping : e₁.phase = .controlLoop := before.phase.trans phase
      have tracked₁ := tracked.steady phase before
      refine ⟨tracked₁.steady looping after, ?_⟩
      obtain ⟨data, sent, first⟩ := tracked.tells phase before
      obtain ⟨last, sent', second⟩ := tracked₁.tells looping after
      refine ⟨data ++ last, by rw [sent', sent, List.append_assoc], ?_⟩
      intro q member _
      rcases List.mem_append.mp member with old | young
      · rw [if_neg (first q old).1]
        exact (first q old).2
      · rw [if_pos (second q young).1, after.inOrderEnd]
        exact (second q young).2
  | read p rest e₁ next before after =>
      have looping : e₁.phase = .controlLoop := before.phase.trans phase
      have looping' : (handlePacket p rest e₁).phase = .controlLoop :=
        (handlePacket_frame p rest e₁).phase.trans looping
      have tidy₁ : TidyFin e₁ p := by
        obtain ⟨header, fin⟩ := tidy p next
        rw [← before.ackNum] at fin
        exact ⟨header, fin⟩
      have tracked₁ := tracked.steady phase before
      have tracked₂ : Tracked (handlePacket p rest e₁) := tracked₁.packet looping tidy₁
      refine ⟨tracked₂.steady looping' after, ?_⟩
      obtain ⟨data, sent, first⟩ := tracked.tells phase before
      obtain ⟨acks, answered, second⟩ := (handlePacket_takes p rest e₁).sent
      obtain ⟨last, sent', third⟩ := tracked₂.tells looping' after
      refine ⟨data ++ acks ++ last, ?_, ?_⟩
      · rw [sent', answered, sent]
        simp only [List.append_assoc]
      · intro q member _
        rcases List.mem_append.mp member with early | young
        · rcases List.mem_append.mp early with old | answer
          · rw [if_neg (first q old).1]
            exact (first q old).2
          · rw [if_pos (second q answer).1, after.inOrderEnd, ← (tracked₂.inOrder looping').2]
            exact (second q answer).2.1
        · rw [if_pos (third q young).1, after.inOrderEnd]
          exact (third q young).2

theorem AcksInOrder.of_quiet {e e' : Endpoint} (sent : e'.hist.sent = e.hist.sent) :
    AcksInOrder e e' := ⟨[], by rw [sent, List.append_nil], nofun⟩

theorem AcksInOrder.of_one {e e' : Endpoint} {q : Packet} (sent : e'.hist.sent = e.hist.sent ++ [q])
    (empty : q.data = []) (acks : q.has thAckFlag = true → q.thAck = e'.inOrderEnd) :
    AcksInOrder e e' := by
  refine ⟨[q], sent, ?_⟩
  intro q' member flag
  obtain rfl := List.mem_singleton.mp member
  rw [if_pos empty]
  exact acks flag

theorem Tracked.wake {e e' : Endpoint} (tracked : Tracked e)
    (tidy : ∀ p ∈ e.reading, TidyFin e p) (step : e.wake = some e') :
    Tracked e' ∧ AcksInOrder e e' := by
  have role := tracked.role
  cases e.wake_cases step with
  | refused refused =>
      obtain ⟨away, -⟩ := e.wake_refused step refused
      refine ⟨⟨?_, ?_, ?_, ?_⟩, .of_quiet away.sent⟩
      · rw [Endpoint.RoleFits, away.phase]
        trivial
      all_goals
        rw [away.phase]
        simp
  | syn phase active =>
      refine ⟨⟨active, fun _ => tracked.silent (.inl phase), by rintro ⟨⟩, by rintro ⟨⟩⟩,
        .of_one (q := buildPacket { e.ctx with connectionState := .synSent } [] thSyn) rfl rfl ?_⟩
      intro flag
      rw [buildPacket_has] at flag
      exact absurd flag (by decide)
  | listen phase passive =>
      exact ⟨⟨passive, fun _ => tracked.silent (.inl phase), by rintro ⟨⟩, by rintro ⟨⟩⟩,
        .of_quiet rfl⟩
  | @synAck p rest requested phase head _ _ _ =>
      have unread := tracked.silent (.inr (.inr phase))
      rw [Endpoint.RoleFits, phase] at role
      have read : e.hist.received ++ [p] = [p] := by rw [unread, List.nil_append]
      have greetings : e.greetings = 1 := if_pos role
      have length := (congrArg List.length read).trans greetings.symm
      have last : ((e.take p rest requested).acceptSynAck p).inOrderEnd = p.thSeq + 1 :=
        Endpoint.inOrderEnd_greeting read (Nat.le_of_eq length)
      exact ⟨.of_loop rfl (Nat.le_of_eq length.symm) last.symm, .of_one rfl rfl fun _ => last.symm⟩
  | @synRead p rest requested phase head _ =>
      have unread := tracked.silent (.inr (.inl phase))
      rw [Endpoint.RoleFits, phase] at role
      have read : e.hist.received ++ [p] = [p] := by rw [unread, List.nil_append]
      have last : ((e.take p rest requested).acceptSyn p).inOrderEnd = p.thSeq + 1 :=
        Endpoint.inOrderEnd_greeting read
          (Nat.le_trans (Nat.le_of_eq (congrArg List.length read)) e.greetings_pos)
      exact ⟨⟨role, by simp [Endpoint.acceptSyn], fun _ => ⟨p, read, rfl⟩, by rintro ⟨⟩⟩,
        .of_one rfl rfl fun _ => last.symm⟩
  | @ackRead p rest requested phase head _ _ _ =>
      obtain ⟨syn, read, acked⟩ := tracked.greeted phase
      rw [Endpoint.RoleFits, phase] at role
      have both : e.hist.received ++ [p] = [syn, p] := by rw [read, List.singleton_append]
      have greetings : e.greetings = 2 := if_neg (by rw [role]; decide)
      have length := (congrArg List.length both).trans greetings.symm
      have last : ((e.take p rest requested).acceptAck p).inOrderEnd = syn.thSeq + 1 :=
        Endpoint.inOrderEnd_greeting both (Nat.le_of_eq length)
      exact ⟨.of_loop rfl (Nat.le_of_eq length.symm) (acked.trans last.symm), .of_quiet rfl⟩
  | iteration phase running _ =>
      rw [Endpoint.reading_loop phase running] at tidy
      exact tracked.iterated phase tidy (e.wake_iterated step phase running)
  | exit phase _ =>
      exact ⟨⟨trivial, by simp [threadExit, enqueueForApp], by rintro ⟨⟩, by rintro ⟨⟩⟩,
        .of_quiet rfl⟩

theorem Tracked.step {e e' : Endpoint} {i : Input} (tracked : Tracked e)
    (step : ReadStep TidyFin e i e') : Tracked e' := by
  obtain ⟨tidy, step⟩ := step
  by_cases woken : i = .wake
  · rw [woken] at tidy step
    exact (tracked.wake tidy step).1
  · obtain ⟨ctx, phase, -, isActive, -, received⟩ := Endpoint.input_frame step woken
    have same : e'.inOrderEnd = e.inOrderEnd := by
      unfold Endpoint.inOrderEnd Endpoint.greetings
      rw [received, isActive]
    refine ⟨?_, ?_, ?_, ?_⟩
    · rw [Endpoint.RoleFits, phase, isActive]
      exact tracked.role
    · rw [phase, received]
      exact tracked.silent
    · rw [phase, received, ctx]
      exact tracked.greeted
    · rw [phase, received, ctx, same, Endpoint.greetings, isActive]
      exact tracked.inOrder

theorem Tracked.init (isActive : Bool) (initialSequenceNum : TcpSeq) :
    Tracked (Endpoint.init isActive initialSequenceNum) :=
  ⟨trivial, fun _ => rfl, nofun, nofun⟩

/-- An out-of-order segment changes nothing on the receiving side exactly when it has no FIN, and
in every run in which each FIN read is in order and alone, every acknowledgement sent is one past
the last byte or FIN received in order. -/
theorem out_of_order_ignored_iff (e : Endpoint) :
    (∀ (p : Packet) (rest : List (Option Packet)), p.thSeq ≠ e.ctx.ackNum →
      (Unmoved e (handlePacket p rest e) ↔ p.has thFin = false)) ∧
    ∀ (isActive : Bool) (initialSequenceNum : TcpSeq) (inputs : List Input) (e' : Endpoint),
      Path (ReadStep TidyFin) (Endpoint.init isActive initialSequenceNum) inputs e →
      ReadStep TidyFin e .wake e' → AcksInOrder e e' := by
  refine ⟨fun p rest => (handlePacket_takes p rest e).unmoved_iff, ?_⟩
  intro isActive initialSequenceNum inputs e' run step
  have tracked : Tracked e :=
    run.invariant (fun _ _ _ step tracked => tracked.step step) (.init isActive initialSequenceNum)
  exact (tracked.wake step.1 step.2).2

theorem greeted_path (fine : Endpoint → Packet → Prop) (p : Packet) :
    Path (ReadStep fine) (Endpoint.init true 1)
      [.wake, .arrive peerSynAck, .wake, .arrive p] (greeted p) :=
  .cons ⟨nofun, rfl⟩ (.cons ⟨trivial, rfl⟩ (.cons ⟨nofun, rfl⟩ (.cons ⟨trivial, rfl⟩ (.nil _))))

theorem greeted_read {fine : Endpoint → Packet → Prop} {p : Packet} {e' : Endpoint}
    (allowed : fine (greeted p) p) (step : (greeted p).wake = some e') :
    ReadStep fine (greeted p) .wake e' := by
  refine ⟨?_, step⟩
  intro q member
  obtain rfl : p = q := Option.some.inj member
  exact allowed

/-- A segment from further on is answered with what is expected. -/
theorem out_of_order_ignored_iff_segment :
    Unmoved (greeted (segmentAt 5 [7]))
        (handlePacket (segmentAt 5 [7]) [] (greeted (segmentAt 5 [7]))) ∧
      ∃ e', (greeted (segmentAt 5 [7])).wake = some e' ∧
        AcksInOrder (greeted (segmentAt 5 [7])) e' := by
  refine ⟨((out_of_order_ignored_iff _).1 _ _ (by decide)).mpr (by decide), ?_⟩
  obtain ⟨e', step⟩ : ∃ e', (greeted (segmentAt 5 [7])).wake = some e' :=
    Endpoint.wake_ready rfl rfl rfl
  have tidy : TidyFin (greeted (segmentAt 5 [7])) (segmentAt 5 [7]) :=
    ⟨by decide, fun flag => absurd flag (by decide)⟩
  exact ⟨e', step,
    (out_of_order_ignored_iff _).2 true 1 _ e' (greeted_path _ _) (greeted_read tidy step)⟩

/-- A FIN five bytes ahead of what has arrived. -/
def earlyFin : Packet := { segmentAt 5 [] with thFlags := thFin ||| thAckFlag }

/-- Such a FIN is taken, and the acknowledgement covers the five bytes. -/
theorem earlyFin_taken :
    Relation.ReflTransGen AnyStep (Endpoint.init true 1) (greeted earlyFin) ∧
      earlyFin.thSeq ≠ (greeted earlyFin).ctx.ackNum ∧
      ¬ Unmoved (greeted earlyFin) (handlePacket earlyFin [] (greeted earlyFin)) ∧
      ∃ e', (greeted earlyFin).wake = some e' ∧ e'.lastAckSent = some 8 ∧ e'.inOrderEnd = 2 := by
  have ends : ((greeted earlyFin).wake.map fun e => (e.lastAckSent, e.inOrderEnd)) =
      some (some 8, 2) := by
    decide +kernel
  obtain ⟨e', step, result⟩ := Option.map_eq_some_iff.mp ends
  obtain ⟨acked, expected⟩ := Prod.mk.inj result
  refine ⟨greeted_reached earlyFin, by decide, ?_, e', step, acked, expected⟩
  intro unmoved
  exact absurd unmoved.finReceived (by decide +kernel)

/-! ## Acknowledged data -/

/-- A segment without options and of at most `STCP_MSS` bytes. -/
def Packet.Plain (p : Packet) : Prop := p.thOff = 5 ∧ p.data.length ≤ stcpMss

instance (p : Packet) : Decidable p.Plain := inferInstanceAs (Decidable (_ ∧ _))

/-- The data of `p`, if the data branch moves `ack_num` for it. -/
def Endpoint.advancing (p : Packet) (e : Endpoint) : Bytes :=
  let atData := handleAck p (handleFin p (receivePacket p e.sock.networkRecvQueue.tail e))
  if (handleData p atData).ctx.ackNum = atData.ctx.ackNum then [] else p.data

/-- The data that moves `ack_num` in the data branch in one step. -/
def Endpoint.advances (e : Endpoint) : Input → Bytes
  | .wake =>
      match e.reading with
      | some p => e.advancing p
      | none => []
  | _ => []

/-- All data that moves `ack_num` in the data branch in a run. -/
def Endpoint.advanced (e : Endpoint) : List Input → Bytes
  | [] => []
  | i :: inputs =>
      e.advances i ++
        match e.input i with
        | some e' => e'.advanced inputs
        | none => []

/-- `p` brings data that `ack_num` expects and `next_seq_expected` does not. -/
structure Strands (e : Endpoint) (p : Packet) : Prop where
  data : p.data ≠ []
  noFin : p.has thFin = false
  inOrder : p.thSeq = e.ctx.ackNum
  unexpected : p.thSeq ≠ e.ctx.nextSeqExpected

theorem handleData_ackNum (p : Packet) (e : Endpoint) :
    (handleData p e).ctx.ackNum =
      if p.thSeq = e.ctx.ackNum then e.ctx.ackNum + UInt32.ofNat (dataLen p)
      else e.ctx.ackNum := by
  have accept (e₁ : Endpoint) :
      (sendPacket [] thAckFlag { e₁ with ctx := e.ctx.onData p }).ctx.ackNum =
        e.ctx.ackNum + UInt32.ofNat (dataLen p) := by
    show (e.ctx.onData p).ackNum = _
    unfold Ctx.onData
    dsimp only
    split <;> rfl
  rcases handleData_cases p e with
    ⟨empty, same⟩ | ⟨-, late, same⟩ | ⟨-, inOrder, -, same⟩ | ⟨-, inOrder, -, same⟩
  · rw [same, empty]
    simp
  · rw [same, if_neg late]
    rfl
  · rw [same, if_pos inOrder]
    exact accept e
  · rw [same, if_pos inOrder]
    exact accept _

/-- The data branch finds `ack_num` past a FIN. -/
theorem ackNum_atData (p : Packet) (rest : List (Option Packet)) (e : Endpoint) :
    (handleAck p (handleFin p (receivePacket p rest e))).ctx.ackNum =
      if p.has thFin = true then p.thSeq + 1 else e.ctx.ackNum := by
  obtain ⟨_, _, _, ack⟩ := handleAck_eq p (handleFin p (receivePacket p rest e))
  rw [ack]
  rcases handleFin_cases p (receivePacket p rest e) with ⟨noFin, fin⟩ | ⟨flag, _, _, fin⟩
  · rw [fin, noFin]
    rfl
  · rw [fin, flag]
    rfl

theorem ofNat_eq_zero {n : Nat} (small : n < 2 ^ 32) (zero : UInt32.ofNat n = 0) : n = 0 := by
  have numbers := congrArg UInt32.toNat zero
  rw [UInt32.toNat_ofNat', UInt32.toNat_zero] at numbers
  omega

/-- Data moves `ack_num` exactly when it is in order and comes without FIN. -/
theorem Endpoint.advancing_eq {p : Packet} (plain : p.Plain) (e : Endpoint) :
    e.advancing p = if p.has thFin = false ∧ p.thSeq = e.ctx.ackNum then p.data else [] := by
  have length : dataLen p = p.data.length := dataLen_of_noOptions plain.1 plain.2
  have small : p.data.length < 2 ^ 32 := Nat.lt_of_le_of_lt plain.2 (by decide)
  unfold Endpoint.advancing
  dsimp only
  rw [handleData_ackNum, ackNum_atData, length]
  cases flag : p.has thFin with
  | false =>
      simp only [Bool.false_eq_true, if_false, true_and]
      by_cases inOrder : p.thSeq = e.ctx.ackNum
      · rw [if_pos inOrder, if_pos inOrder]
        split
        · next same =>
            have zero := ofNat_eq_zero small (by simpa using same)
            exact (List.eq_nil_of_length_eq_zero zero).symm
        · rfl
      · rw [if_neg inOrder, if_pos rfl, if_neg inOrder]
  | true => simp

/-- The data that is passed up in one step. -/
def Endpoint.passes (e : Endpoint) : Input → Bytes
  | .wake =>
      match e.reading with
      | some p => if PassesUp p e then p.data else []
      | none => []
  | _ => []

theorem handlePacket_passes {p : Packet} (plain : p.Plain) (rest : List (Option Packet))
    (e : Endpoint) :
    (handlePacket p rest e).hist.delivered.flatten =
      e.hist.delivered.flatten ++ if PassesUp p e then p.data else [] := by
  rw [handlePacket_delivered, dataChunk_of_noOptions plain.1 plain.2,
    dataLen_of_noOptions plain.1 plain.2]
  cases data : p.data with
  | nil => simp
  | cons b bs => simp

theorem Steady.flatten {sort : Packet → Prop} {e e' : Endpoint} (steady : Steady sort e e') :
    e'.hist.delivered.flatten = e.hist.delivered.flatten :=
  congrArg (fun r => r.delivered.flatten) steady.intake

theorem Endpoint.wake_passes {e e' : Endpoint} (plain : ∀ p ∈ e.reading, p.Plain)
    (step : e.wake = some e') :
    e'.hist.delivered.flatten = e.hist.delivered.flatten ++ e.passes .wake := by
  have quiet (unread : e.reading = none)
      (same : e'.hist.delivered.flatten = e.hist.delivered.flatten) :
      e'.hist.delivered.flatten = e.hist.delivered.flatten ++ e.passes .wake := by
    rw [same, Endpoint.passes, unread, List.append_nil]
  have early (phase : e.phase ≠ .controlLoop)
      (same : e'.hist.delivered.flatten = e.hist.delivered.flatten) :=
    quiet (Endpoint.reading_early phase) same
  cases e.wake_cases step with
  | refused refused =>
      obtain ⟨away, closed⟩ := e.wake_refused step refused
      refine early (fun phase => closed (.inl phase)) ?_
      rw [away.delivered, List.flatten_append]
      exact List.append_nil _
  | syn phase _ => exact early (by rw [phase]; decide) rfl
  | listen phase _ => exact early (by rw [phase]; decide) rfl
  | synAck phase => exact early (by rw [phase]; decide) rfl
  | synRead phase => exact early (by rw [phase]; decide) rfl
  | ackRead phase => exact early (by rw [phase]; decide) rfl
  | iteration phase running _ =>
      have reading := Endpoint.reading_loop phase running
      cases e.wake_iterated step phase running with
      | idle e₁ none before after =>
          exact quiet (reading.trans none) (after.flatten.trans before.flatten)
      | read p rest e₁ next before after =>
          have read : e.reading = some p := reading.trans next
          have same : PassesUp p e₁ ↔ PassesUp p e := by
            rw [PassesUp, PassesUp, before.ackNum, before.nextSeqExpected]
          rw [after.flatten, handlePacket_passes (plain p read), before.flatten, Endpoint.passes,
            read]
          simp only [same]
  | exit phase done =>
      refine quiet ?_ ?_
      · rw [Endpoint.reading, if_neg]
        intro given
        exact absurd (done.symm.trans given.2) (by decide)
      · show (e.hist.delivered ++ [[]]).flatten = _
        rw [List.flatten_append]
        exact List.append_nil _

theorem ReadStep.passes {e e' : Endpoint} {i : Input}
    (step : ReadStep (fun _ p => p.Plain) e i e') :
    e'.hist.delivered.flatten = e.hist.delivered.flatten ++ e.passes i := by
  obtain ⟨plain, step⟩ := step
  by_cases woken : i = .wake
  · rw [woken] at plain step ⊢
    exact Endpoint.wake_passes plain step
  · have none : e.passes i = [] := by
      cases i with
      | wake => exact absurd rfl woken
      | _ => rfl
    rw [(Endpoint.input_frame step woken).2.2.2.2.1, none, List.append_nil]

/-- `p` is plain and strands no data. -/
def Unstranded (e : Endpoint) (p : Packet) : Prop := p.Plain ∧ ¬ Strands e p

theorem Endpoint.advancing_of_unstranded {p : Packet} {e : Endpoint} (kept : Unstranded e p) :
    e.advancing p = if PassesUp p e then p.data else [] := by
  rw [Endpoint.advancing_eq kept.1]
  by_cases passes : PassesUp p e
  · rw [if_pos passes, if_pos ⟨passes.1, passes.2.1⟩]
  · rw [if_neg passes]
    split
    · next inOrder =>
        by_contra data
        exact kept.2
          ⟨data, inOrder.1, inOrder.2, fun expected => passes ⟨inOrder.1, inOrder.2, expected⟩⟩
    · rfl

/-- What is passed up moved `ack_num`; if nothing else did, no data was stranded. -/
theorem ReadStep.passes_le {e e' : Endpoint} {i : Input}
    (step : ReadStep (fun _ p => p.Plain) e i e') :
    (e.passes i).length ≤ (e.advances i).length ∧
      ((e.advances i).length ≤ (e.passes i).length → ReadStep Unstranded e i e') := by
  obtain ⟨plain, step⟩ := step
  cases i with
  | wake =>
      cases read : e.reading with
      | none =>
          simp only [Endpoint.passes, Endpoint.advances, read]
          exact ⟨Nat.le_refl _, fun _ => ⟨by simp [read], step⟩⟩
      | some p =>
          have plain : p.Plain := plain p read
          simp only [Endpoint.passes, Endpoint.advances, read]
          by_cases strands : Strands e p
          · have unexpected : ¬ PassesUp p e := fun passes => strands.unexpected passes.2.2
            have advances : e.advancing p = p.data := by
              rw [Endpoint.advancing_eq plain, if_pos ⟨strands.noFin, strands.inOrder⟩]
            have some : p.data.length > 0 := List.length_pos_iff.mpr strands.data
            rw [if_neg unexpected, advances, List.length_nil]
            exact ⟨Nat.zero_le _, fun none => absurd none (Nat.not_le.mpr some)⟩
          · have kept : Unstranded e p := ⟨plain, strands⟩
            rw [Endpoint.advancing_of_unstranded kept]
            refine ⟨Nat.le_refl _, fun _ => ⟨?_, step⟩⟩
            intro q member
            obtain rfl : p = q := Option.some.inj (read.symm.trans member)
            exact kept
  | _ => exact ⟨Nat.le_refl _, fun _ => ⟨trivial, step⟩⟩

theorem ReadStep.plain {e e' : Endpoint} {i : Input} (step : ReadStep Unstranded e i e') :
    ReadStep (fun _ p => p.Plain) e i e' := by
  obtain ⟨kept, step⟩ := step
  refine ⟨?_, step⟩
  cases i with
  | wake => exact fun p member => (kept p member).1
  | _ => trivial

theorem ReadStep.advances {e e' : Endpoint} {i : Input} (step : ReadStep Unstranded e i e') :
    e.advances i = e.passes i := by
  obtain ⟨kept, -⟩ := step
  cases i with
  | wake =>
      unfold Endpoint.advances Endpoint.passes
      cases read : e.reading with
      | none => rfl
      | some p => exact Endpoint.advancing_of_unstranded (kept p read)
  | _ => rfl

theorem Endpoint.advanced_cons {e e' : Endpoint} {i : Input} {inputs : List Input}
    (step : e.input i = some e') :
    e.advanced (i :: inputs) = e.advances i ++ e'.advanced inputs := by
  rw [Endpoint.advanced, step]

/-- In a run that strands no data, all data that moved `ack_num` is passed up, in its order. -/
theorem delivered_of_unstranded {e e' : Endpoint} {inputs : List Input}
    (run : Path (ReadStep Unstranded) e inputs e') :
    e'.hist.delivered.flatten = e.hist.delivered.flatten ++ e.advanced inputs := by
  induction run with
  | nil e => exact (List.append_nil _).symm
  | cons edge _ ih =>
      rw [ih, edge.plain.passes, Endpoint.advanced_cons edge.2, edge.advances, List.append_assoc]

/-- A run that has passed up as much as moved `ack_num` has stranded no data. -/
theorem unstranded_of_delivered {e e' : Endpoint} {inputs : List Input}
    (run : Path (ReadStep fun _ p => p.Plain) e inputs e') :
    e'.hist.delivered.flatten.length ≤
        e.hist.delivered.flatten.length + (e.advanced inputs).length ∧
      (e.hist.delivered.flatten.length + (e.advanced inputs).length ≤
          e'.hist.delivered.flatten.length →
        Path (ReadStep Unstranded) e inputs e') := by
  induction run with
  | nil e => exact ⟨Nat.le_refl _, fun _ => .nil e⟩
  | cons edge _ ih =>
      obtain ⟨atMost, whole⟩ := ih
      obtain ⟨less, kept⟩ := edge.passes_le
      have passed := congrArg List.length edge.passes
      rw [List.length_append] at passed
      rw [Endpoint.advanced_cons edge.2, List.length_append]
      refine ⟨by omega, fun all => .cons (kept (by omega)) (whole (by omega))⟩

/-! ### The window -/

/-- `recv_buffer_used` at the time `q` was sent, from what it left of `recv_window_size`. -/
def Packet.bufferUsed (q : Packet) : UInt16 := receiverWindowSize - q.thWin

theorem Packet.bufferUsed_eq {q : Packet} {used : UInt16}
    (window : q.thWin = receiverWindowSize - used) : q.bufferUsed = used := by
  rw [Packet.bufferUsed, window, UInt16.sub_eq_iff_eq_add, UInt16.add_comm, UInt16.sub_add_cancel]

/-- Nothing is in the receive buffer, now or at any time a packet was sent. -/
structure Unbuffered (e : Endpoint) : Prop where
  window : e.ctx.recvWindowSize = receiverWindowSize
  used : e.ctx.recvBufferUsed = 0
  sent : ∀ q ∈ e.hist.sent, q.bufferUsed = 0

/-- New packets show the counter they were sent with. -/
theorem Unbuffered.of_sent {e e' : Endpoint} {new : List Packet} (unbuffered : Unbuffered e)
    (window : e'.ctx.recvWindowSize = e.ctx.recvWindowSize)
    (used : e'.ctx.recvBufferUsed = e.ctx.recvBufferUsed)
    (sent : e'.hist.sent = e.hist.sent ++ new)
    (tell : ∀ q ∈ new, q.thWin = e'.ctx.recvWindowSize - e'.ctx.recvBufferUsed) :
    Unbuffered e' := by
  have empty : e'.ctx.recvBufferUsed = 0 := used.trans unbuffered.used
  have size : e'.ctx.recvWindowSize = receiverWindowSize := window.trans unbuffered.window
  refine ⟨size, empty, ?_⟩
  intro q member
  rw [sent] at member
  rcases List.mem_append.mp member with old | young
  · exact unbuffered.sent q old
  · have shown := tell q young
    rw [size, empty] at shown
    exact Packet.bufferUsed_eq shown

theorem Unbuffered.steady {sort : Packet → Prop} {e e' : Endpoint} (unbuffered : Unbuffered e)
    (steady : Steady sort e e') : Unbuffered e' := by
  obtain ⟨new, sent, tell⟩ := steady.sent
  refine unbuffered.of_sent steady.window steady.recvBufferUsed sent ?_
  intro q member
  rw [steady.window, steady.recvBufferUsed]
  exact (tell q member).2.2.2

theorem Intake.recvBufferUsed_pass (p : Packet) (chunk : Bytes) (r : Intake) :
    (r.pass p chunk).recvBufferUsed = r.recvBufferUsed := by
  unfold Intake.pass
  dsimp only
  split <;> rfl

theorem Unbuffered.packet {p : Packet} {rest : List (Option Packet)} {e : Endpoint}
    (unbuffered : Unbuffered e) (kept : Unstranded e p) : Unbuffered (handlePacket p rest e) := by
  have takes := handlePacket_takes p rest e
  obtain ⟨new, sent, tell⟩ := takes.sent
  refine unbuffered.of_sent (handlePacket_frame p rest e).recvWindowSize ?_ sent
    fun q member => (tell q member).2.2
  rw [← Endpoint.intake_recvBufferUsed]
  cases takes with
  | fin _ after _ => rw [after, Intake.finish, Intake.enqueue, Endpoint.intake_recvBufferUsed]
  | bare _ _ after _ => rw [after, Endpoint.intake_recvBufferUsed]
  | late _ _ _ after _ => rw [after, Endpoint.intake_recvBufferUsed]
  | stranded noFin some inOrder unexpected _ _ =>
      rw [dataLen_of_noOptions kept.1.1 kept.1.2] at some
      exact absurd ⟨List.length_pos_iff.mp some, noFin, inOrder, unexpected⟩ kept.2
  | passed _ _ _ _ after _ =>
      rw [after, Intake.recvBufferUsed_pass, Endpoint.intake_recvBufferUsed]

theorem Unbuffered.wake {e e' : Endpoint} (unbuffered : Unbuffered e)
    (kept : ∀ p ∈ e.reading, Unstranded e p) (step : e.wake = some e') : Unbuffered e' := by
  have quiet (window : e'.ctx.recvWindowSize = e.ctx.recvWindowSize)
      (used : e'.ctx.recvBufferUsed = e.ctx.recvBufferUsed)
      (sent : e'.hist.sent = e.hist.sent) : Unbuffered e' :=
    unbuffered.of_sent window used (sent.trans (List.append_nil _).symm) nofun
  have one {q : Packet} (window : e'.ctx.recvWindowSize = e.ctx.recvWindowSize)
      (used : e'.ctx.recvBufferUsed = e.ctx.recvBufferUsed)
      (sent : e'.hist.sent = e.hist.sent ++ [q])
      (shown : q.thWin = e'.ctx.recvWindowSize - e'.ctx.recvBufferUsed) : Unbuffered e' := by
    refine unbuffered.of_sent window used sent ?_
    intro q' member
    rw [List.mem_singleton.mp member]
    exact shown
  cases e.wake_cases step with
  | refused refused =>
      obtain ⟨away, -⟩ := e.wake_refused step refused
      exact quiet (by rw [away.ctx]) (by rw [away.ctx]) away.sent
  | syn => exact one rfl rfl rfl rfl
  | listen => exact quiet rfl rfl rfl
  | synAck => exact one rfl rfl rfl rfl
  | synRead => exact one rfl rfl rfl rfl
  | ackRead => exact quiet rfl rfl rfl
  | iteration phase running _ =>
      rw [Endpoint.reading_loop phase running] at kept
      cases e.wake_iterated step phase running with
      | idle e₁ _ before after => exact (unbuffered.steady before).steady after
      | read p rest e₁ next before after =>
          have kept₁ : Unstranded e₁ p := by
            refine ⟨(kept p next).1, fun strands => (kept p next).2 ?_⟩
            exact ⟨strands.data, strands.noFin, strands.inOrder.trans before.ackNum,
              before.nextSeqExpected ▸ strands.unexpected⟩
          exact ((unbuffered.steady before).packet kept₁).steady after
  | exit => exact quiet rfl rfl rfl

theorem Unbuffered.step {e e' : Endpoint} {i : Input} (unbuffered : Unbuffered e)
    (step : ReadStep Unstranded e i e') : Unbuffered e' := by
  obtain ⟨kept, step⟩ := step
  by_cases woken : i = .wake
  · rw [woken] at kept step
    exact unbuffered.wake kept step
  · obtain ⟨ctx, -, sent, -, -, -⟩ := Endpoint.input_frame step woken
    exact unbuffered.of_sent (by rw [ctx]) (by rw [ctx]) (sent.trans (List.append_nil _).symm) nofun

theorem Unbuffered.init (isActive : Bool) (initialSequenceNum : TcpSeq) :
    Unbuffered (Endpoint.init isActive initialSequenceNum) := ⟨rfl, rfl, nofun⟩

/-- In a run whose segments are plain, no packet is sent while `recv_buffer_used` is above
`recv_window_size`, and all data that moved `ack_num` in the data branch has been passed up, exactly
when no step read data that `ack_num` expected and `next_seq_expected` did not. -/
theorem acknowledged_delivered_iff {isActive : Bool} {initialSequenceNum : TcpSeq}
    {inputs : List Input} {e : Endpoint}
    (run : Path (ReadStep fun _ p => p.Plain) (Endpoint.init isActive initialSequenceNum)
      inputs e) :
    (∀ q ∈ e.hist.sent, q.bufferUsed ≤ receiverWindowSize ∧ q.thWin ≤ receiverWindowSize) ∧
        (Endpoint.init isActive initialSequenceNum).advanced inputs =
          e.hist.delivered.flatten ↔
      Path (ReadStep fun e p => p.Plain ∧ ¬ Strands e p) (Endpoint.init isActive initialSequenceNum)
        inputs e := by
  constructor
  · intro given
    rcases given with ⟨-, all⟩
    refine (unstranded_of_delivered run).2 ?_
    rw [all]
    exact Nat.le_of_eq (Nat.zero_add _)
  · intro kept
    have unbuffered : Unbuffered e :=
      Path.invariant (fun _ _ _ step unbuffered => unbuffered.step step) kept
        (.init isActive initialSequenceNum)
    refine ⟨?_, (delivered_of_unstranded kept).symm⟩
    intro q member
    have used := unbuffered.sent q member
    have window : receiverWindowSize = q.thWin := by
      rw [Packet.bufferUsed, UInt16.sub_eq_iff_eq_add, UInt16.zero_add] at used
      exact used
    rw [used, window]
    exact ⟨UInt16.zero_le, UInt16.le_refl _⟩

/-- One byte right after the handshake is passed up. -/
theorem acknowledged_delivered_iff_segment :
    ∃ e, (greeted (segmentAt 0 [7])).wake = some e ∧ e.hist.delivered.flatten = [7] ∧
      (Endpoint.init true 1).advanced
          ([.wake, .arrive peerSynAck, .wake, .arrive (segmentAt 0 [7])] ++ [.wake]) =
        e.hist.delivered.flatten := by
  have ends : ((greeted (segmentAt 0 [7])).wake.map fun e => e.hist.delivered.flatten) =
      some [7] := by
    decide +kernel
  obtain ⟨e, step, delivered⟩ := Option.map_eq_some_iff.mp ends
  have plain : Path (ReadStep fun _ p => p.Plain) (Endpoint.init true 1) _ e :=
    (greeted_path _ (segmentAt 0 [7])).snoc (greeted_read (by decide) step)
  have kept : Path (ReadStep fun e p => p.Plain ∧ ¬ Strands e p) (Endpoint.init true 1) _ e :=
    (greeted_path _ (segmentAt 0 [7])).snoc
      (greeted_read ⟨by decide, fun strands => strands.unexpected rfl⟩ step)
  exact ⟨e, step, delivered, ((acknowledged_delivered_iff plain).mpr kept).2⟩

/-- The peer closes, and then sends six full segments from where its FIN ended. -/
def afterFin : List Input :=
  [.wake, .arrive peerSynAck, .wake, .arrive peerFin, .wake] ++
    (List.range 6).flatMap fun k =>
      [.arrive (segmentAt (1 + 536 * UInt32.ofNat k) (List.replicate 536 0)), .wake]

/-- All of it is acknowledged and none of it is passed up, until the window wraps. -/
theorem afterFin_swallowed :
    ∃ e, Path (ReadStep fun _ p => p.Plain) (Endpoint.init true 1) afterFin e ∧
      ((Endpoint.init true 1).advanced afterFin).length = 3216 ∧
      e.hist.delivered.flatten = [] ∧
      ∃ q ∈ e.hist.sent, ¬ q.bufferUsed ≤ receiverWindowSize ∧ q.thWin = 65392 := by
  have ends : ((follow (fun e i => if ∀ p ∈ e.reading, p.Plain then e.input i else none)
      (Endpoint.init true 1) afterFin).map fun e =>
        (e.hist.delivered.flatten, e.hist.sent.getLast?.map (·.thWin))) =
      some ([], some 65392) := by
    decide +kernel
  obtain ⟨e, ran, result⟩ := Option.map_eq_some_iff.mp ends
  obtain ⟨delivered, window⟩ := Prod.mk.inj result
  obtain ⟨q, last, window⟩ := Option.map_eq_some_iff.mp window
  refine ⟨e, readPath_of_follow ran, by decide +kernel, delivered, q, List.mem_of_getLast? last, ?_,
    window⟩
  rw [Packet.bufferUsed, window]
  decide

end CompNet.Stcp
