import CompNet.Stcp.Receive
import CompNet.Stcp.Window

/-!
# What one endpoint sends

The sending half of an endpoint against a peer that does as it likes.  `Sender` keeps the packets
sent so far on a path of `Advances`; here that path is read off packet by packet.  Where a packet
stands at its place, the packets before it decide its sequence number: the SYN, the payload bytes
and the FIN are what takes up numbers.
-/

namespace CompNet.Stcp

open CompNet.Lib

/-! ## The numbers that packets take up -/

/-- The packets that carry application data. -/
def segments (packets : List Packet) : List Packet := packets.filter fun p => !p.data.isEmpty

/-- A packet that only acknowledges. -/
structure Packet.PureAck (p : Packet) : Prop where
  ack : p.has thAckFlag = true
  noSyn : p.has thSyn = false
  noFin : p.has thFin = false
  empty : p.data = []

/-- The next sequence number of an endpoint that has sent `packets`, the SYN among them. -/
def nextUnsent (initialSequenceNum : TcpSeq) (packets : List Packet) : TcpSeq :=
  initialSequenceNum + 1 + UInt32.ofNat ((payload packets).length + finCount packets)

theorem payload_segments (packets : List Packet) :
    payload (segments packets) = payload packets := by
  induction packets with
  | nil => rfl
  | cons p packets ih =>
      rw [← List.singleton_append, payload_append, segments, List.filter_append, payload_append]
      rw [segments] at ih
      rw [ih]
      cases data : p.data <;> simp [data]

section

variable {fromActive : Bool} {packets : List Packet} {c c' : Cursor}

theorem Stage.next_finished (fromActive fin : Bool) {stage : Stage}
    (finished : stage = .finished) : stage.next fromActive fin = .finished := by
  rw [finished]
  rfl

/-- A direction that is over stays over. -/
theorem finished_of_path (path : Path (Advances fromActive) c packets c')
    (finished : c.stage = .finished) : c'.stage = .finished := by
  apply path.invariant (motive := fun c => c.stage = .finished) _ finished
  intro c p c' edge finished
  rw [edge.next]
  exact Stage.next_finished _ _ finished

/-- Before a direction is over, no FIN has passed. -/
theorem finCount_of_path (path : Path (Advances fromActive) c packets c')
    (unfinished : c'.stage ≠ .finished) : finCount packets = 0 := by
  induction path with
  | nil _ => rfl
  | @cons c middle c' p packets edge rest ih =>
      have noFin : p.has thFin = false := by
        by_contra fin
        rw [Bool.not_eq_false] at fin
        apply unfinished
        apply finished_of_path rest
        have flowing : c.stage = .flowing := by
          by_contra other
          exact absurd ((edge.bare other).2.symm.trans fin) Bool.false_ne_true
        rw [edge.next, flowing, fin]
        rfl
      have later := ih unfinished
      rw [finCount] at later ⊢
      rw [List.countP_cons, later, noFin]
      rfl

/-- Behind the greeting, payload bytes and FINs take up the numbers. -/
theorem spanOf_of_greeted (path : Path (Advances fromActive) c packets c')
    (greeted : c.stage ≠ .silent) :
    spanOf packets = (payload packets).length + finCount packets := by
  induction path with
  | nil _ => rfl
  | @cons c middle c' p packets edge rest ih =>
      have noSyn : p.has thSyn = false := edge.noSyn greeted
      have later := ih (by rw [edge.next]; exact Stage.next_ne_silent _ _ _)
      have span : p.span = p.data.length + finCount [p] := by
        simp [Packet.span, noSyn, finCount, List.countP_cons]
      rw [← List.singleton_append, spanOf_append, spanOf_singleton, payload_append,
        List.length_append, payload_singleton, later, span, finCount, finCount, finCount,
        List.countP_append]
      omega

/-- From the start of a direction on, the SYN takes up one more. -/
theorem spanOf_of_silent {p : Packet} (path : Path (Advances fromActive) c (p :: packets) c')
    (silent : c.stage = .silent) :
    spanOf (p :: packets) = 1 + ((payload (p :: packets)).length + finCount (p :: packets)) := by
  obtain ⟨middle, edge, rest⟩ := Path.cons_iff.mp path
  obtain ⟨empty, noFin⟩ := edge.bare (by rw [silent]; nofun)
  have later := spanOf_of_greeted rest (by rw [edge.next]; exact Stage.next_ne_silent _ _ _)
  have span : p.span = 1 := by simp [Packet.span, edge.syn, silent, empty, noFin]
  rw [← List.singleton_append, spanOf_append, spanOf_singleton, payload_append,
    payload_singleton, empty, later, span, finCount, finCount, List.countP_append]
  simp [noFin]

/-- The number of the packet behind `p :: packets`, from the start of the direction on. -/
theorem seq_of_started {p : Packet} {initialSequenceNum : TcpSeq}
    (path : Path (Advances fromActive) ⟨initialSequenceNum, .silent⟩ (p :: packets) c') :
    c'.seq = nextUnsent initialSequenceNum (p :: packets) := by
  rw [seq_of_path path, spanOf_of_silent path rfl, nextUnsent, UInt32.ofNat_add,
    ← UInt32.add_assoc]
  rfl

end

/-! ## Packets at their places -/

/-- A data segment stands among the packets behind those that carry the segments before it. -/
theorem segments_place {packets : List Packet} {k : Nat} {p : Packet}
    (place : (segments packets)[k]? = some p) :
    ∃ before after, packets = before ++ p :: after ∧
      segments before = (segments packets).take k := by
  obtain ⟨inside, is⟩ := List.getElem?_eq_some_iff.mp place
  have cut := (List.take_append_drop k (segments packets)).symm
  rw [List.drop_eq_getElem_cons inside, is] at cut
  obtain ⟨front, back, whole, front_eq, back_eq⟩ := List.filter_eq_append_iff.mp cut
  obtain ⟨skipped, after, rest, silent, -, -⟩ := List.filter_eq_cons_iff.mp back_eq
  refine ⟨front ++ skipped, after, by rw [whole, rest, List.append_assoc], ?_⟩
  have none : segments skipped = [] := List.filter_eq_nil_iff.mpr silent
  rw [← front_eq, segments, List.filter_append, ← segments, ← segments, none, List.append_nil]

/-- One packet of an endpoint's direction: where it stands, what it does there, and what follows. -/
structure Placed (e : Endpoint) (before : List Packet) (p : Packet) (after : List Packet)
    (c c' : Cursor) : Prop where
  front : Path (Advances e.isActive) ⟨e.ctx.initialSequenceNum, .silent⟩ before c
  edge : Advances e.isActive c p c'
  back : Path (Advances e.isActive) c' after ⟨e.ctx.sequenceNum, e.said⟩

theorem Sender.placed {e : Endpoint} {before after : List Packet} {p : Packet} (sender : Sender e)
    (sent : e.hist.sent = before ++ p :: after) : ∃ c c', Placed e before p after c c' := by
  have path := sender.path
  rw [sent] at path
  obtain ⟨c, front, rest⟩ := Path.append_iff.mp path
  obtain ⟨c', edge, back⟩ := Path.cons_iff.mp rest
  exact ⟨c, c', front, edge, back⟩

section

variable {e : Endpoint} {before after : List Packet} {p : Packet} {c c' : Cursor}

/-- A packet without SYN has the next sequence number of the packets before it. -/
theorem Placed.seq (placed : Placed e before p after c c') (noSyn : p.has thSyn = false) :
    p.thSeq = nextUnsent e.ctx.initialSequenceNum before := by
  rw [placed.edge.seq]
  cases before with
  | nil =>
      obtain rfl := Path.nil_iff.mp placed.front
      exact absurd (noSyn.symm.trans placed.edge.syn) (by simp)
  | cons first before => exact seq_of_started placed.front

theorem Placed.noSyn_of_flowing (placed : Placed e before p after c c')
    (flowing : c.stage = .flowing) : p.has thSyn = false := by
  rw [placed.edge.syn, flowing]
  rfl

theorem Placed.noFin_of_flowing (placed : Placed e before p after c c')
    (flowing : c.stage = .flowing) : finCount before = 0 := by
  apply finCount_of_path placed.front
  rw [flowing]
  nofun

theorem Placed.flowing_of_data (placed : Placed e before p after c c') (data : p.data ≠ []) :
    c.stage = .flowing := by
  by_contra other
  exact data (placed.edge.bare other).1

theorem Placed.flowing_of_fin (placed : Placed e before p after c c') (fin : p.has thFin = true) :
    c.stage = .flowing := by
  by_contra other
  exact absurd ((placed.edge.bare other).2.symm.trans fin) Bool.false_ne_true

/-- The sequence number of a packet that carries data or the FIN. -/
theorem Placed.seq_flowing (placed : Placed e before p after c c') (flowing : c.stage = .flowing) :
    p.thSeq = e.ctx.initialSequenceNum + 1 + UInt32.ofNat (payload before).length := by
  rw [placed.seq (placed.noSyn_of_flowing flowing), nextUnsent, placed.noFin_of_flowing flowing,
    Nat.add_zero]

theorem Placed.finished_of_fin (placed : Placed e before p after c c')
    (fin : p.has thFin = true) : c'.stage = .finished := by
  rw [placed.edge.next, placed.flowing_of_fin fin, fin]
  rfl

/-- Behind the FIN there is no data. -/
theorem Placed.payload_after_fin (placed : Placed e before p after c c')
    (fin : p.has thFin = true) : payload after = [] :=
  payload_of_finished placed.back (placed.finished_of_fin fin)

end

/-! ## Runs -/

/-- The sending half of an endpoint that chose `initialSequenceNum`. -/
structure SendsFrom (initialSequenceNum : TcpSeq) (e : Endpoint) : Prop where
  start : e.ctx.initialSequenceNum = initialSequenceNum
  sender : Sender e

theorem Endpoint.wake_initial {e e' : Endpoint} (step : e.wake = some e') :
    e'.phase = .refused ∨ e'.ctx.initialSequenceNum = e.ctx.initialSequenceNum := by
  cases e.wake_cases step with
  | refused refused => exact .inl refused
  | syn phase active => exact .inr rfl
  | listen phase passive => exact .inr rfl
  | synAck phase head asked flag acked => exact .inr rfl
  | synRead phase head asked => exact .inr rfl
  | ackRead phase head asked flag acked => exact .inr rfl
  | iteration phase running waited =>
      exact .inr (controlLoopIteration_frame _ _).initialSequenceNum
  | exit phase done => exact .inr rfl

/-- A run keeps the sending half, unless the connection is refused. -/
theorem SendsFrom.run {initialSequenceNum : TcpSeq} {e e' : Endpoint}
    (sends : SendsFrom initialSequenceNum e) (run : Relation.ReflTransGen AnyStep e e') :
    e'.phase = .refused ∨ SendsFrom initialSequenceNum e' := by
  induction run with
  | refl => exact .inr sends
  | tail _ step ih =>
      obtain ⟨i, step⟩ := step
      rcases ih with refused | ⟨start, sender⟩
      · exact .inl (Endpoint.refused_input refused step)
      · rcases sender.input step with refused | sender
        · exact .inl refused
        · by_cases wakes : i = .wake
          · subst wakes
            rcases Endpoint.wake_initial step with refused | same
            · exact .inl refused
            · exact .inr ⟨same.trans start, sender⟩
          · obtain ⟨ctx, -⟩ := Endpoint.input_frame step wakes
            rw [← ctx] at start
            exact .inr ⟨start, sender⟩

theorem SendsFrom.of_run {isActive : Bool} {initialSequenceNum : TcpSeq} {e : Endpoint}
    (run : Relation.ReflTransGen AnyStep (Endpoint.init isActive initialSequenceNum) e)
    (opened : e.opened) : SendsFrom initialSequenceNum e := by
  have start : SendsFrom initialSequenceNum (Endpoint.init isActive initialSequenceNum) :=
    ⟨rfl, .init isActive initialSequenceNum⟩
  rcases start.run run with refused | sends
  · rcases opened with looping | exited
    · exact absurd (refused.symm.trans looping) nofun
    · exact absurd (refused.symm.trans exited) nofun
  · exact sends

/-- The FIN stands behind all that was ever written. -/
theorem Sender.written_before_fin {e : Endpoint} {before after : List Packet} {p : Packet}
    {c c' : Cursor} (sender : Sender e) (opened : e.opened)
    (sent : e.hist.sent = before ++ p :: after) (placed : Placed e before p after c c')
    (fin : p.has thFin = true) : payload before = e.hist.written := by
  have finished : e.said = .finished := finished_of_path placed.back (placed.finished_of_fin fin)
  have finSent : e.ctx.finSent = true := by
    by_contra notSent
    rw [Bool.not_eq_true] at notSent
    rcases opened with phase | phase <;> rw [Endpoint.said, phase, notSent] at finished <;>
      cases finished
  have books := sender.books
  have cut : before ++ p :: after = before ++ [p] ++ after := by simp
  rw [(sender.drained finSent).1, List.flatten_nil, List.append_nil, sent, cut, payload_append,
    payload_append, payload_singleton, placed.edge.bareFin fin, placed.payload_after_fin fin,
    List.append_nil, List.append_nil] at books
  exact books

/-- What an endpoint sends once its handshake is over, whatever its peer sends and however the
application writes before it closes. -/
theorem sent_in_sequence {isActive : Bool} {initialSequenceNum : TcpSeq} {e : Endpoint}
    (run : Relation.ReflTransGen AnyStep (Endpoint.init isActive initialSequenceNum) e)
    (opened : e.opened) :
    (∀ p ∈ segments e.hist.sent, 1 ≤ p.data.length ∧ p.data.length ≤ 536) ∧
    payload (segments e.hist.sent) <+: e.hist.written ∧
    (∀ k p, (segments e.hist.sent)[k]? = some p → p.thSeq = initialSequenceNum + 1 +
      UInt32.ofNat (payload ((segments e.hist.sent).take k)).length) ∧
    (∀ before p after, e.hist.sent = before ++ p :: after → p.PureAck →
      p.thSeq = nextUnsent initialSequenceNum before) ∧
    (∀ before p after, e.hist.sent = before ++ p :: after → p.has thFin = true →
      payload before = e.hist.written ∧ p.thSeq = nextUnsent initialSequenceNum before ∧
        finCount before = 0 ∧ ∀ q ∈ after, q.data = []) := by
  obtain ⟨rfl, sender⟩ := SendsFrom.of_run run opened
  refine ⟨?_, ?_, ?_, ?_, ?_⟩
  · intro p member
    obtain ⟨inside, data⟩ := List.mem_filter.mp member
    obtain ⟨before, after, sent⟩ := List.append_of_mem inside
    obtain ⟨c, c', placed⟩ := sender.placed sent
    refine ⟨?_, placed.edge.short⟩
    rw [Nat.one_le_iff_ne_zero, Ne, List.length_eq_zero_iff]
    simpa using data
  · rw [payload_segments, ← sender.books]
    exact List.prefix_append _ _
  · intro k p place
    have data : p.data ≠ [] := by
      have member := List.mem_of_getElem? place
      simpa using (List.mem_filter.mp member).2
    obtain ⟨before, after, sent, earlier⟩ := segments_place place
    obtain ⟨c, c', placed⟩ := sender.placed sent
    rw [placed.seq_flowing (placed.flowing_of_data data), ← earlier, payload_segments]
  · intro before p after sent pure
    obtain ⟨c, c', placed⟩ := sender.placed sent
    exact placed.seq pure.noSyn
  · intro before p after sent fin
    obtain ⟨c, c', placed⟩ := sender.placed sent
    have flowing := placed.flowing_of_fin fin
    refine ⟨sender.written_before_fin opened sent placed fin,
      placed.seq (placed.noSyn_of_flowing flowing), placed.noFin_of_flowing flowing, ?_⟩
    intro q member
    have none := placed.payload_after_fin fin
    rw [payload, List.flatten_eq_nil_iff] at none
    exact none q.data (List.mem_map_of_mem member)

/-- An endpoint that opened, sent two bytes and closed. -/
def twoBytes : Endpoint :=
  { justEstablished 1 1 with
    ctx :=
      { (justEstablished 1 1).ctx with
        sequenceNum := 5
        finSent := true
        connectionState := .finWait1 }
    hist :=
      { written := [7, 8]
        closed := true
        sent := [buildPacket (Ctx.init 1) [] thSyn,
          buildPacket { Ctx.init 1 with sequenceNum := 2, ackNum := 2 } [] thAckFlag,
          buildPacket { Ctx.init 1 with sequenceNum := 2, ackNum := 2 } [7, 8] thAckFlag,
          buildPacket { Ctx.init 1 with sequenceNum := 4, ackNum := 2 } [] (thFin ||| thAckFlag)]
        received := [peerSynAck] } }

theorem twoBytes_reached : Relation.ReflTransGen AnyStep (Endpoint.init true 1) twoBytes :=
  .tail (.tail (.tail (.tail (.tail (.tail (.tail .refl ⟨.wake, rfl⟩) ⟨.arrive peerSynAck, rfl⟩)
    ⟨.wake, rfl⟩) ⟨.write [7, 8], rfl⟩) ⟨.wake, rfl⟩) ⟨.close, rfl⟩) ⟨.wake, rfl⟩

theorem sent_in_sequence_twoBytes :
    Relation.ReflTransGen AnyStep (Endpoint.init true 1) twoBytes ∧
      payload (segments twoBytes.hist.sent) <+: [7, 8] ∧
      ∀ k p, (segments twoBytes.hist.sent)[k]? = some p → p.thSeq =
        1 + 1 + UInt32.ofNat (payload ((segments twoBytes.hist.sent).take k)).length := by
  obtain ⟨-, bytes, numbers, -, -⟩ := sent_in_sequence twoBytes_reached (.inl rfl)
  exact ⟨twoBytes_reached, bytes, numbers⟩

end CompNet.Stcp
