import CompNet.Stcp.Stream

/-!
# A receiver on an unreliable network

The peer cuts its stream into segments and ends it with a FIN; the network loses,
repeats and reorders them.  A segment is passed up only if both `ack_num` and
`next_seq_expected` ask for it.  A FIN moves `ack_num` alone, behind the end of the
stream, where it stays: the counters are the same as long as no FIN has been read, and
`ack_num` fits no segment afterwards.
-/

namespace CompNet.Stcp

open CompNet.Lib

/-- What a peer sends whose stream, cut into `chunks`, starts at `base`. -/
inductive Segment (base : TcpSeq) (chunks : List Bytes) (p : Packet) : Prop
  | data (front : List Bytes) (chunk : Bytes) (back : List Bytes)
      (cut : chunks = front ++ chunk :: back)
      (noOptions : p.thOff = 5) (noFin : p.has thFin = false)
      (seq : p.thSeq = base + UInt32.ofNat front.flatten.length) (carries : p.data = chunk) :
      Segment base chunks p
  | fin (noOptions : p.thOff = 5) (fin : p.has thFin = true)
      (seq : p.thSeq = base + UInt32.ofNat chunks.flatten.length) (empty : p.data = []) :
      Segment base chunks p
  | ack (noOptions : p.thOff = 5) (noFin : p.has thFin = false) (empty : p.data = []) :
      Segment base chunks p

/-- The peer is compliant: segments of at most `STCP_MSS` bytes, and less than 2^32 - 1 bytes
altogether. -/
structure Compliant (chunks : List Bytes) : Prop where
  short : ∀ chunk ∈ chunks, chunk.length ≤ stcpMss
  bounded : chunks.flatten.length < 2 ^ 32 - 1

/-- Nothing but segments of the stream arrives. -/
def Input.From (base : TcpSeq) (chunks : List Bytes) : Input → Prop
  | .arrive p => Segment base chunks p
  | _ => True

/-- The receiver has entered `control_loop` and has passed nothing up. -/
structure Listening (base : TcpSeq) (chunks : List Bytes) (e : Endpoint) : Prop where
  phase : e.phase = .controlLoop
  ackNum : e.ctx.ackNum = base
  nextSeqExpected : e.ctx.nextSeqExpected = base
  delivered : e.hist.delivered = []
  queue : ∀ p, some p ∈ e.sock.networkRecvQueue → Segment base chunks p

/-! ## The invariant -/

/-- What has been passed up is the first of the chunks, and `next_seq_expected` is behind it. -/
structure InSync (base : TcpSeq) (chunks : List Bytes) (e : Endpoint) : Prop where
  phase : e.phase = .controlLoop ∨ e.phase = .exited
  queue : ∀ p, some p ∈ e.sock.networkRecvQueue → Segment base chunks p
  passed : ∃ front back, chunks = front ++ back ∧ e.hist.delivered.flatten = front.flatten ∧
    e.ctx.nextSeqExpected = base + UInt32.ofNat front.flatten.length
  counters : e.ctx.ackNum = e.ctx.nextSeqExpected ∨
    e.ctx.ackNum = base + UInt32.ofNat chunks.flatten.length + 1

section

variable {base : TcpSeq} {chunks : List Bytes} {e e' : Endpoint} {p : Packet}

theorem offset_inj {m n : Nat} (left : m < 2 ^ 32) (right : n < 2 ^ 32)
    (same : base + UInt32.ofNat m = base + UInt32.ofNat n) : m = n := by
  have equal : UInt32.ofNat m = UInt32.ofNat n := (UInt32.add_right_inj base).mp same
  have values := congrArg UInt32.toNat equal
  rw [UInt32.toNat_ofNat_of_lt' left, UInt32.toNat_ofNat_of_lt' right] at values
  exact values

/-- Changes elsewhere. -/
theorem InSync.of_eq (sync : InSync base chunks e)
    (phase : e'.phase = .controlLoop ∨ e'.phase = .exited)
    (queue : ∀ p, some p ∈ e'.sock.networkRecvQueue → some p ∈ e.sock.networkRecvQueue)
    (delivered : e'.hist.delivered.flatten = e.hist.delivered.flatten)
    (ackNum : e'.ctx.ackNum = e.ctx.ackNum)
    (nextSeqExpected : e'.ctx.nextSeqExpected = e.ctx.nextSeqExpected) : InSync base chunks e' where
  phase := phase
  queue p member := sync.queue p (queue p member)
  passed := by
    rw [delivered, nextSeqExpected]
    exact sync.passed
  counters := by
    rw [ackNum, nextSeqExpected]
    exact sync.counters

/-- A segment ends inside the stream. -/
theorem offset_lt {front back : List Bytes} {chunk : Bytes} (cut : chunks = front ++ chunk :: back)
    (some : chunk ≠ []) : front.flatten.length < chunks.flatten.length := by
  have nonempty : 0 < chunk.length := List.length_pos_iff.mpr some
  rw [cut, List.flatten_append, List.flatten_cons, List.length_append, List.length_append]
  omega

/-- Behind the end of the stream there is no segment. -/
theorem offset_ne_end (compliant : Compliant chunks) {front back : List Bytes} {chunk : Bytes}
    (cut : chunks = front ++ chunk :: back) (some : chunk ≠ []) :
    base + UInt32.ofNat front.flatten.length ≠ base + UInt32.ofNat chunks.flatten.length + 1 := by
  have less := offset_lt cut some
  have bounded := compliant.bounded
  intro same
  rw [UInt32.add_assoc, ← UInt32.ofNat_one, ← UInt32.ofNat_add] at same
  have equal := offset_inj (by omega) (by omega) same
  omega

/-- A segment at the place of the next byte carries on from what has been passed up. -/
theorem passed_snoc (compliant : Compliant chunks) {front back front' back' : List Bytes}
    {chunk : Bytes}
    (split : chunks = front ++ back) (cut : chunks = front' ++ chunk :: back')
    (here : base + UInt32.ofNat front'.flatten.length = base + UInt32.ofNat front.flatten.length) :
    (front' ++ [chunk]).flatten = front.flatten ++ chunk ∧
      chunks = (front' ++ [chunk]) ++ back' := by
  have bounded := compliant.bounded
  have whole : chunks.flatten = front.flatten ++ back.flatten := by rw [split, List.flatten_append]
  have whole' : chunks.flatten = front'.flatten ++ (chunk :: back').flatten := by
    rw [cut, List.flatten_append]
  have length : front.flatten.length ≤ chunks.flatten.length := by
    rw [whole, List.length_append]
    omega
  have length' : front'.flatten.length ≤ chunks.flatten.length := by
    rw [whole', List.length_append]
    omega
  have equal := offset_inj (by omega) (by omega) here
  have same : front'.flatten = front.flatten := (List.append_inj (whole'.symm.trans whole) equal).1
  constructor
  · rw [List.flatten_append, same, List.flatten_singleton]
  · rw [cut, List.append_assoc, List.singleton_append]

/-- Data that is not expected leaves the counters and what has been passed up. -/
theorem handlePacket_late (rest : List (Option Packet)) (e : Endpoint) (noFin : p.has thFin = false)
    (late : p.thSeq ≠ e.ctx.ackNum) :
    (handlePacket p rest e).ctx.ackNum = e.ctx.ackNum ∧
      (handlePacket p rest e).ctx.nextSeqExpected = e.ctx.nextSeqExpected ∧
      (handlePacket p rest e).hist.delivered = e.hist.delivered := by
  obtain ⟨state, done, acked, ack⟩ := handleAck_eq p (receivePacket p rest e)
  rcases handleFin_cases p (receivePacket p rest e) with ⟨-, fin⟩ | ⟨fin, -⟩
  · have data := handleData_cases p (handleAck p (receivePacket p rest e))
    rw [handlePacket, fin]
    rw [ack] at data ⊢
    rcases data with ⟨-, same⟩ | ⟨-, -, same⟩ | ⟨-, inOrder, -⟩ | ⟨-, inOrder, -⟩
    · rw [same]
      exact ⟨rfl, rfl, rfl⟩
    · rw [same]
      exact ⟨rfl, rfl, rfl⟩
    · exact absurd inOrder late
    · exact absurd inOrder late
  · exact absurd fin (by rw [noFin]; decide)

/-- A segment that is expected is passed up. -/
theorem InSync.segment (compliant : Compliant chunks) (sync : InSync base chunks e)
    {rest : List (Option Packet)} {front' back' : List Bytes} {chunk : Bytes}
    (phase : (handlePacket p rest e).phase = .controlLoop ∨
      (handlePacket p rest e).phase = .exited)
    (queue : ∀ q, some q ∈ (handlePacket p rest e).sock.networkRecvQueue →
      some q ∈ e.sock.networkRecvQueue)
    (cut : chunks = front' ++ chunk :: back') (noOptions : p.thOff = 5)
    (noFin : p.has thFin = false) (seq : p.thSeq = base + UInt32.ofNat front'.flatten.length)
    (carries : p.data = chunk) (some_data : p.data ≠ []) (inOrder : p.thSeq = e.ctx.ackNum) :
    InSync base chunks (handlePacket p rest e) := by
  -- after a FIN no segment has the number that `ack_num` holds
  have expected : p.thSeq = e.ctx.nextSeqExpected := by
    rcases sync.counters with same | ended
    · exact inOrder.trans same
    · rw [ended, seq] at inOrder
      exact absurd inOrder (offset_ne_end compliant cut (by rw [← carries]; exact some_data))
  have short : p.data.length ≤ stcpMss := by
    rw [carries]
    exact compliant.short chunk (by rw [cut]; simp)
  obtain ⟨state, done, acked, sent, same⟩ :=
    handlePacket_data rest e noOptions short noFin some_data inOrder expected
  obtain ⟨front, back, split, delivered, next⟩ := sync.passed
  obtain ⟨flatten, split'⟩ := passed_snoc compliant split cut
    (seq.symm.trans (expected.trans next))
  refine ⟨phase, fun q member => sync.queue q (queue q member),
    ⟨front' ++ [chunk], back', split', ?_, ?_⟩, .inl ?_⟩
  · rw [same, flatten]
    show (e.hist.delivered ++ [p.data]).flatten = _
    rw [List.flatten_append, delivered, carries, List.flatten_singleton]
  · rw [same]
    show p.thSeq + UInt32.ofNat p.data.length = _
    rw [seq, carries, List.flatten_append, List.flatten_singleton, List.length_append,
      UInt32.ofNat_add, UInt32.add_assoc]
  · rw [same]
    show e.ctx.ackNum + UInt32.ofNat p.data.length = p.thSeq + UInt32.ofNat p.data.length
    rw [inOrder]

theorem InSync.packet (compliant : Compliant chunks) (sync : InSync base chunks e)
    {rest : List (Option Packet)} (head : e.sock.networkRecvQueue = some p :: rest) :
    InSync base chunks (handlePacket p rest e) := by
  have phase : (handlePacket p rest e).phase = .controlLoop ∨
      (handlePacket p rest e).phase = .exited := by
    rw [(handlePacket_frame p rest e).phase]
    exact sync.phase
  have queue : ∀ q, some q ∈ (handlePacket p rest e).sock.networkRecvQueue →
      some q ∈ e.sock.networkRecvQueue := by
    intro q member
    rw [(handlePacket_received p rest e).2] at member
    rw [head]
    exact List.mem_cons_of_mem _ member
  have segment := sync.queue p (by rw [head]; exact List.mem_cons_self)
  cases segment with
  | ack noOptions noFin empty =>
      obtain ⟨state, done, acked, same⟩ := handlePacket_bare rest e noOptions noFin empty
      refine sync.of_eq phase queue ?_ ?_ ?_ <;> rw [same] <;> rfl
  | fin noOptions fin seq empty =>
      obtain ⟨state, done, acked, same⟩ := handlePacket_fin rest e noOptions fin empty
      refine ⟨phase, fun q member => sync.queue q (queue q member), ?_, .inr ?_⟩
      · obtain ⟨front, back, split, delivered, expected⟩ := sync.passed
        refine ⟨front, back, split, ?_, ?_⟩
        · rw [same]
          show (e.hist.delivered ++ [[]]).flatten = front.flatten
          rw [List.flatten_append, delivered]
          exact List.append_nil _
        · rw [same]
          exact expected
      · rw [same]
        show p.thSeq + 1 = _
        rw [seq]
  | data front' chunk back' cut noOptions noFin seq carries =>
      by_cases inOrder : p.thSeq = e.ctx.ackNum
      case neg =>
        obtain ⟨acked, expected, delivered⟩ := handlePacket_late rest e noFin inOrder
        exact sync.of_eq phase queue (by rw [delivered]) acked expected
      case pos =>
        by_cases empty : p.data = []
        · obtain ⟨state, done, acked, same⟩ := handlePacket_bare rest e noOptions noFin empty
          refine sync.of_eq phase queue ?_ ?_ ?_ <;> rw [same] <;> rfl
        · exact sync.segment compliant phase queue cut noOptions noFin seq carries empty inOrder

theorem InSync.iteration (compliant : Compliant chunks) (sync : InSync base chunks e) (ev : Event) :
    InSync base chunks (controlLoopIteration ev e) := by
  apply controlLoopIteration_keeps sync
  · rcases handleAppData_cases e with same | ⟨chunk, rest, -, ⟨-, same⟩ | ⟨-, same⟩⟩
    · rw [same]
      exact sync
    · rw [same]
      exact sync.of_eq sync.phase (fun _ member => member) rfl rfl rfl
    · rw [same]
      exact sync.of_eq sync.phase (fun _ member => member) rfl rfl rfl
  · intro e₁ rest before head
    have behind : ∀ q, some q ∈ rest → some q ∈ e₁.sock.networkRecvQueue := by
      intro q member
      rw [head]
      exact List.mem_cons_of_mem _ member
    unfold handleReadError
    dsimp only
    split
    · exact before.of_eq before.phase behind rfl rfl rfl
    · exact before.of_eq before.phase behind rfl rfl rfl
  · intro e₁ p rest before head
    exact before.packet compliant head
  · intro _ e₁ before
    rcases handleClose_cases e₁ with ⟨-, same⟩ | ⟨-, state, same⟩
    · rw [same]
      exact before
    · rw [same]
      exact before.of_eq before.phase (fun _ member => member) rfl rfl rfl

theorem InSync.wake (compliant : Compliant chunks) (sync : InSync base chunks e)
    (step : e.wake = some e') : InSync base chunks e' := by
  rcases sync.phase with looping | exited
  · cases running : e.ctx.done with
    | false =>
        obtain ⟨ev, sock, waited, rfl⟩ := e.wake_running step looping running
        obtain ⟨-, -, -, same⟩ := stcpWaitForEvent_spec waited
        have waiting : InSync base chunks { e with sock := sock } := by
          refine sync.of_eq (.inl looping) (fun q member => ?_) rfl rfl rfl
          rw [same] at member
          exact member
        exact waiting.iteration compliant ev
    | true =>
        rw [e.wake_done step looping running]
        refine sync.of_eq (.inr rfl) (fun _ member => member) ?_ rfl rfl
        show (e.hist.delivered ++ [[]]).flatten = e.hist.delivered.flatten
        rw [List.flatten_append]
        exact List.append_nil _
  · simp only [Endpoint.wake, exited] at step
    cases step

theorem InSync.input (compliant : Compliant chunks) {i : Input} (sync : InSync base chunks e)
    (sender : i.From base chunks) (step : e.input i = some e') : InSync base chunks e' := by
  cases i with
  | wake => exact sync.wake compliant step
  | write buf =>
      simp only [Endpoint.input, Endpoint.write] at step
      split at step
      · cases step
      · cases step
        exact sync.of_eq sync.phase (fun _ member => member) rfl rfl rfl
  | close =>
      simp only [Endpoint.input, Endpoint.close] at step
      split at step
      · cases step
      · cases step
        exact sync.of_eq sync.phase (fun _ member => member) rfl rfl rfl
  | read bufLen =>
      simp only [Endpoint.input, Endpoint.read, Option.map_eq_some_iff] at step
      obtain ⟨⟨chunk, sock⟩, read, rfl⟩ := step
      refine sync.of_eq sync.phase (fun q member => ?_) rfl rfl rfl
      rw [(myread_frame read).2.2] at member
      exact member
  | arrive p =>
      cases step
      refine ⟨sync.phase, fun q member => ?_, sync.passed, sync.counters⟩
      rcases List.mem_append.mp member with old | new
      · exact sync.queue q old
      · rw [Option.some.inj (List.mem_singleton.mp new)]
        exact sender
  | readError =>
      cases step
      refine ⟨sync.phase, fun q member => ?_, sync.passed, sync.counters⟩
      rcases List.mem_append.mp member with old | new
      · exact sync.queue q old
      · cases List.mem_singleton.mp new

theorem Listening.inSync (listening : Listening base chunks e) : InSync base chunks e where
  phase := .inl listening.phase
  queue := listening.queue
  passed := by
    refine ⟨[], chunks, rfl, ?_, ?_⟩
    · rw [listening.delivered]
    · rw [listening.nextSeqExpected]
      exact (UInt32.add_zero base).symm
  counters := .inl (listening.ackNum.trans listening.nextSeqExpected.symm)

theorem InSync.run (compliant : Compliant chunks) (sync : InSync base chunks e)
    {inputs : List Input}
    (sender : ∀ i ∈ inputs, i.From base chunks)
    (run : Path (fun e i e' => e.input i = some e') e inputs e') : InSync base chunks e' := by
  induction run with
  | nil e => exact sync
  | cons edge _ ih =>
      have next := sync.input compliant (sender _ List.mem_cons_self) edge
      exact ih next fun i member => sender i (List.mem_cons_of_mem _ member)

end

/-- Whatever the network loses, repeats or reorders, and whatever else happens at the receiver,
what has been passed up is a prefix of the stream. -/
theorem receiver_prefix {base : TcpSeq} {chunks : List Bytes} {start e : Endpoint}
    {inputs : List Input}
    (compliant : Compliant chunks) (listening : Listening base chunks start)
    (sender : ∀ i ∈ inputs, i.From base chunks)
    (run : Path (fun e i e' => e.input i = some e') start inputs e) :
    e.hist.delivered.flatten <+: chunks.flatten := by
  have sync := listening.inSync.run compliant sender run
  obtain ⟨front, back, split, delivered, -⟩ := sync.passed
  rw [split, delivered, List.flatten_append]
  exact List.prefix_append _ _

/-- A segment of a stream that starts at 2. -/
def segmentAt (offset : TcpSeq) (data : Bytes) : Packet :=
  buildPacket { Ctx.init 1 with sequenceNum := 2 + offset, ackNum := 2 } data thAckFlag

/-- The second of two segments comes first and is lost, the first comes twice. -/
def swapped : List Input :=
  [.arrive (segmentAt 1 [8]), .arrive (segmentAt 0 [7]), .arrive (segmentAt 0 [7]),
    .wake, .wake, .wake]

theorem receiver_prefix_swapped :
    ∃ e, Path (fun e i e' => e.input i = some e') (justEstablished 1 1) swapped e ∧
      e.hist.delivered = [[7]] ∧ e.hist.delivered.flatten <+: [7, 8] := by
  have ends :
      (follow Endpoint.input (justEstablished 1 1) swapped).map (fun e => e.hist.delivered) =
      some [[7]] := by
    decide +kernel
  obtain ⟨e, ran, delivered⟩ := Option.map_eq_some_iff.mp ends
  have compliant : Compliant [[7], [8]] := ⟨by decide, by decide⟩
  have listening : Listening 2 [[7], [8]] (justEstablished 1 1) :=
    ⟨rfl, rfl, rfl, rfl, fun p member => absurd member List.not_mem_nil⟩
  have second : Segment 2 [[7], [8]] (segmentAt 1 [8]) :=
    .data [[7]] [8] [] rfl rfl (by decide) rfl rfl
  have first : Segment 2 [[7], [8]] (segmentAt 0 [7]) :=
    .data [] [7] [[8]] rfl rfl (by decide) rfl rfl
  have sender : ∀ i ∈ swapped, i.From 2 [[7], [8]] := by
    intro i member
    simp only [swapped, List.mem_cons, List.not_mem_nil, or_false] at member
    rcases member with rfl | rfl | rfl | rfl | rfl | rfl
    · exact second
    · exact first
    · exact first
    all_goals trivial
  have path := Path.of_follow ran
  exact ⟨e, path, delivered, receiver_prefix compliant listening sender path⟩

end CompNet.Stcp
