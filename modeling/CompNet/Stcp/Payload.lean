import CompNet.Stcp.Receive
import CompNet.Stcp.TcpSum

/-!
# The payload in the buffer

`stcp_network_recv` reports the length of the packet, also when `buf` holds less of it, and
`data_len` is that length less `4 * th_off`.  Where the two do not fit, the branch reads behind
`buf` or asks `malloc` for nearly the whole address space, and an assertion may end the program:
the one on the checksum of as many bytes as were reported, or the one on the node for the
application.  `readPacket` is the branch with both; `handlePacket` is what it comes to when they
hold.
-/

namespace CompNet.Stcp

open CompNet.Lib

/-! ## The branch with its assertions -/

/-- What the assertions depend on outside the endpoint: the byte order, the addresses of the
connection, the bytes behind `buf`, and whether a node of so many bytes can be allocated (the
empty one of `stcp_fin_received` always can). -/
structure Host where
  order : ByteOrder
  addresses : Addresses
  behind : Nat → UInt8
  allocates : Nat → Bool

/-- Reading `n` bytes from `buf + start` on, wherever that leads. -/
def Host.read (host : Host) (buf : Bytes) (start n : Nat) : Bytes :=
  (List.range n).map fun i => buf[start + i]?.getD (host.behind (start + i - buf.length))

/-- How the branch ends. -/
inductive Ending
  /-- The assertion in `stcp_network_recv` fails. -/
  | badChecksum
  /-- `assert(node->data)` in `_mysock_enqueue_buffer` fails. -/
  | noMemory
  | goesOn (e : Endpoint)
  deriving DecidableEq

/-- What the branch computes: `data_len`, and the offset in `buf` and the length that
`stcp_app_send` is given, as far as it gets. -/
structure PacketRead where
  dataLen : Option Nat := none
  handed : Option (Nat × Nat) := none
  ending : Ending
  deriving DecidableEq

/-- The assertion in `stcp_network_recv`. -/
def ChecksumHolds (host : Host) (p : Packet) (rest : List (Option Packet)) (e : Endpoint) : Prop :=
  mysockVerifyChecksum host.order host.addresses
    (host.read (receivePacket p rest e).buf 0 p.wire.length) = some true

instance (host : Host) (p : Packet) (rest : List (Option Packet)) (e : Endpoint) :
    Decidable (ChecksumHolds host p rest e) :=
  inferInstanceAs (Decidable (_ = _))

/-- The `NETWORK_DATA` branch for a packet, with its assertions. -/
def readPacket (host : Host) (p : Packet) (rest : List (Option Packet)) (e : Endpoint) :
    PacketRead :=
  if ChecksumHolds host p rest e then
    let e := handleAck p (handleFin p (receivePacket p rest e))
    if dataLen p > 0 ∧ p.thSeq = e.ctx.ackNum ∧ p.thSeq = e.ctx.nextSeqExpected then
      { dataLen := some (dataLen p)
        handed := some (p.dataStart, dataLen p)
        ending :=
          if host.allocates (dataLen p) then
            .goesOn (handleChunk (host.read e.buf p.dataStart (dataLen p)) p e)
          else .noMemory }
    else { dataLen := some (dataLen p), ending := .goesOn (handleChunk [] p e) }
  else { ending := .badChecksum }

/-! ## What it hands up -/

/-- The length arithmetic of `control_loop` fits the packet `p`, as far as the program gets. -/
structure PayloadExact (host : Host) (p : Packet) (rest : List (Option Packet)) (e : Endpoint) :
    Prop where
  noWrap : ∀ n, (readPacket host p rest e).dataLen = some n →
    (n : Int) = p.wire.length - p.dataStart
  inside : ∀ n, (readPacket host p rest e).dataLen = some n →
    p.dataStart + n ≤ (p.wire.take (stcpMss + headerLen)).length
  handedUp : ∀ start n, (readPacket host p rest e).handed = some (start, n) →
    start = p.dataStart ∧ start + n = p.wire.length ∧
      host.read (receivePacket p rest e).buf start n = p.body
  delivered : ∀ e', (readPacket host p rest e).ending = .goesOn e' →
    e'.hist.delivered.flatten = e.hist.delivered.flatten ++ if PassesUp p e then p.body else []

/-! ## The bytes read -/

theorem Host.read_inside {host : Host} {buf : Bytes} {start n : Nat}
    (inside : start + n ≤ buf.length) : host.read buf start n = (buf.drop start).take n := by
  apply List.ext_getElem
  · simp only [Host.read, List.length_map, List.length_range, List.length_take, List.length_drop]
    omega
  · intro i left right
    have place : start + i < buf.length := by
      simp only [Host.read, List.length_map, List.length_range] at left
      omega
    simp [Host.read, List.getElem?_eq_getElem place]

theorem dataLen_of_inside {p : Packet} (inside : p.dataStart ≤ p.wire.length)
    (short : p.wire.length < 2 ^ 64) : dataLen p = p.wire.length - p.dataStart := by
  unfold dataLen
  omega

/-- A packet that `buf` can hold is cut where its header ends. -/
theorem dataChunk_of_inside {p : Packet} {rest : List (Option Packet)} {e : Endpoint}
    (inside : p.dataStart ≤ p.wire.length) (fits : p.wire.length ≤ stcpMss + headerLen) :
    dataChunk p (receivePacket p rest e).buf = p.body := by
  have bound : stcpMss + headerLen = 556 := rfl
  have copied : (receivePacket p rest e).buf = p.wire ++ e.buf.drop p.wire.length := by
    simp only [receivePacket, List.take_of_length_le fits]
  have length : p.body.length = p.wire.length - p.dataStart := List.length_drop
  rw [dataChunk, dataLen_of_inside inside (by omega), copied,
    List.drop_append_of_le_length inside, ← length]
  exact List.take_left

/-- Of such a packet, the data is read inside `buf`. -/
theorem Host.read_dataChunk {host : Host} {p : Packet} {rest : List (Option Packet)}
    {e : Endpoint} (inside : p.dataStart ≤ p.wire.length)
    (fits : p.wire.length ≤ stcpMss + headerLen) :
    host.read (receivePacket p rest e).buf p.dataStart (dataLen p) =
      dataChunk p (receivePacket p rest e).buf := by
  have bound : stcpMss + headerLen = 556 := rfl
  have length : dataLen p = p.wire.length - p.dataStart := dataLen_of_inside inside (by omega)
  apply Host.read_inside
  simp only [receivePacket, List.length_append, List.take_of_length_le fits]
  omega

/-! ## The branch, case by case -/

section

variable {host : Host} {p : Packet} {rest : List (Option Packet)} {e : Endpoint}

/-- The branches before the data branch leave `buf` alone, and only a FIN moves a counter: it
moves `ack_num` past the packet. -/
theorem atData_spec (p : Packet) (rest : List (Option Packet)) (e : Endpoint) :
    (handleAck p (handleFin p (receivePacket p rest e))).buf = (receivePacket p rest e).buf ∧
      ((p.thSeq = (handleAck p (handleFin p (receivePacket p rest e))).ctx.ackNum ∧
          p.thSeq = (handleAck p (handleFin p (receivePacket p rest e))).ctx.nextSeqExpected) ↔
        PassesUp p e) := by
  obtain ⟨_, _, _, ack⟩ := handleAck_eq p (handleFin p (receivePacket p rest e))
  rw [ack]
  rcases handleFin_cases p (receivePacket p rest e) with ⟨noFin, fin⟩ | ⟨flag, _, _, fin⟩
  · rw [fin]
    exact ⟨rfl, fun expected => ⟨noFin, expected⟩, fun passes => passes.2⟩
  · rw [fin]
    have past : p.thSeq ≠ p.thSeq + 1 := by simp
    refine ⟨rfl, fun expected => absurd expected.1 past, ?_⟩
    intro passes
    exact absurd (flag.symm.trans passes.1) (by decide)

/-- Data that is not passed up is not looked at. -/
theorem handleChunk_unused {chunk other : Bytes}
    (unused : ¬ (dataLen p > 0 ∧ p.thSeq = e.ctx.ackNum ∧ p.thSeq = e.ctx.nextSeqExpected)) :
    handleChunk chunk p e = handleChunk other p e := by
  unfold handleChunk
  split
  · next some =>
      split
      · next inOrder =>
          have unexpected : p.thSeq ≠ e.ctx.nextSeqExpected :=
            fun expected => unused ⟨some, inOrder, expected⟩
          rw [if_neg unexpected, if_neg unexpected]
      · rfl
  · rfl

/-- A packet that passes data up: the branch hands up `data_len` bytes of memory from the end of
the header on, or has no memory for them. -/
theorem readPacket_passes (holds : ChecksumHolds host p rest e) (passes : PassesUp p e)
    (data : dataLen p > 0) :
    readPacket host p rest e =
      { dataLen := some (dataLen p)
        handed := some (p.dataStart, dataLen p)
        ending :=
          if host.allocates (dataLen p) then
            .goesOn (handleChunk
              (host.read (receivePacket p rest e).buf p.dataStart (dataLen p)) p
              (handleAck p (handleFin p (receivePacket p rest e))))
          else .noMemory } := by
  obtain ⟨buf, expected⟩ := atData_spec p rest e
  unfold readPacket
  rw [if_pos holds]
  dsimp only
  rw [if_pos ⟨data, expected.mpr passes⟩, buf]

/-- Any other packet: nothing is handed up, and the branch is that of `handlePacket`. -/
theorem readPacket_keeps (holds : ChecksumHolds host p rest e)
    (keeps : ¬ (PassesUp p e ∧ dataLen p > 0)) :
    readPacket host p rest e =
      { dataLen := some (dataLen p), ending := .goesOn (handlePacket p rest e) } := by
  have expected := (atData_spec p rest e).2
  have unused : ¬ (dataLen p > 0 ∧
      p.thSeq = (handleAck p (handleFin p (receivePacket p rest e))).ctx.ackNum ∧
      p.thSeq = (handleAck p (handleFin p (receivePacket p rest e))).ctx.nextSeqExpected) :=
    fun given => keeps ⟨expected.mp given.2, given.1⟩
  unfold readPacket
  rw [if_pos holds]
  dsimp only
  rw [if_neg unused, handlePacket, handleData, handleChunk_unused unused]

/-- On a packet that fits, an iteration that goes on is that of `handlePacket`. -/
theorem readPacket_fits {e' : Endpoint} (header : p.dataStart ≤ p.wire.length)
    (fits : p.wire.length ≤ stcpMss + headerLen)
    (goesOn : (readPacket host p rest e).ending = .goesOn e') : e' = handlePacket p rest e := by
  by_cases holds : ChecksumHolds host p rest e
  · by_cases passes : PassesUp p e ∧ dataLen p > 0
    · rw [readPacket_passes holds passes.1 passes.2, Host.read_dataChunk header fits] at goesOn
      dsimp only at goesOn
      split at goesOn
      · rw [Ending.goesOn.injEq] at goesOn
        rw [← goesOn, handlePacket, handleData, (atData_spec p rest e).1]
      · exact Ending.noConfusion goesOn
    · rw [readPacket_keeps holds passes] at goesOn
      exact (Ending.goesOn.inj goesOn).symm
  · rw [readPacket, if_neg holds] at goesOn
    exact Ending.noConfusion goesOn

end

/-! ## Which packets fit -/

/-- Past the assertion on the checksum, `data_len` is computed. -/
theorem readPacket_dataLen {host : Host} {p : Packet} {rest : List (Option Packet)} {e : Endpoint}
    (holds : ChecksumHolds host p rest e) :
    (readPacket host p rest e).dataLen = some (dataLen p) := by
  by_cases passes : PassesUp p e ∧ dataLen p > 0
  · rw [readPacket_passes holds passes.1 passes.2]
  · rw [readPacket_keeps holds passes]

/-- What is handed up starts where the header ends and is `data_len` long. -/
theorem readPacket_handed {host : Host} {p : Packet} {rest : List (Option Packet)} {e : Endpoint}
    {start n : Nat} (handed : (readPacket host p rest e).handed = some (start, n)) :
    start = p.dataStart ∧ n = dataLen p := by
  by_cases holds : ChecksumHolds host p rest e
  · by_cases passes : PassesUp p e ∧ dataLen p > 0
    · rw [readPacket_passes holds passes.1 passes.2, Option.some_inj, Prod.mk.injEq] at handed
      exact ⟨handed.1.symm, handed.2.symm⟩
    · rw [readPacket_keeps holds passes] at handed
      exact absurd handed (by simp)
  · rw [readPacket, if_neg holds] at handed
    exact absurd handed (by simp)

/-- A host on which no node takes half of the address space. -/
def halfHost : Host where
  order := .little
  addresses := ⟨1, 2⟩
  behind _ := 0
  allocates n := decide (n < 2 ^ 63)

/-- For every packet that the network can bring, either the program ends at the assertion on the
checksum, before any arithmetic, or the arithmetic fits exactly when the packet holds the header it
announces and `buf` holds the packet. -/
theorem payload_exact_iff (host : Host) (e : Endpoint) (p : Packet) (rest : List (Option Packet))
    (carried : p.wire.length ≤ 1500) :
    PayloadExact host p rest e ↔
      ¬ ChecksumHolds host p rest e ∨
        p.thOff.val * 4 ≤ p.wire.length ∧ p.wire.length ≤ stcpMss + headerLen := by
  have bound : stcpMss + headerLen = 556 := rfl
  constructor
  · intro exact
    by_cases holds : ChecksumHolds host p rest e
    · have noWrap := exact.noWrap _ (readPacket_dataLen holds)
      have inside := exact.inside _ (readPacket_dataLen holds)
      rw [List.length_take] at inside
      unfold Packet.dataStart at noWrap inside
      right
      omega
    · exact .inl holds
  · rintro (refused | given)
    · have ended : readPacket host p rest e = { ending := .badChecksum } := if_neg refused
      constructor <;> simp [ended]
    · rcases given with ⟨header, fits⟩
      have start : p.dataStart ≤ p.wire.length := header
      have length : dataLen p = p.wire.length - p.dataStart := dataLen_of_inside header (by omega)
      have computed (n : Nat) (some : (readPacket host p rest e).dataLen = some n) :
          n = dataLen p := by
        by_cases holds : ChecksumHolds host p rest e
        · rw [readPacket_dataLen holds] at some
          exact (Option.some_inj.mp some).symm
        · rw [readPacket, if_neg holds] at some
          exact absurd some (by simp)
      refine ⟨?_, ?_, ?_, ?_⟩
      · intro n some
        rw [computed n some]
        omega
      · intro n some
        rw [computed n some, List.length_take]
        omega
      · intro first n handed
        obtain ⟨rfl, rfl⟩ := readPacket_handed handed
        refine ⟨rfl, by omega, ?_⟩
        rw [Host.read_dataChunk start fits, dataChunk_of_inside start fits]
      · intro e' goesOn
        rw [readPacket_fits start fits goesOn, handlePacket_delivered,
          dataChunk_of_inside start fits]
        by_cases data : dataLen p > 0
        · simp only [data, and_true]
        · have none : p.body = [] := List.drop_eq_nil_of_le (by omega)
          rw [none, ite_self, ite_self]

theorem payload_exact_iff_segment :
    ChecksumHolds halfHost { segmentAt 0 [7] with thSum := 40141 } [] (justEstablished 1 1) ∧
      PayloadExact halfHost { segmentAt 0 [7] with thSum := 40141 } [] (justEstablished 1 1) :=
  ⟨by decide +kernel, (payload_exact_iff halfHost _ _ _ (by decide)).mpr (.inr (by decide))⟩

/-- A packet longer than `buf` that passes data up: what `stcp_app_send` is given ends behind
`buf`. -/
theorem readPacket_overruns {host : Host} {p : Packet} {rest : List (Option Packet)} {e : Endpoint}
    (header : p.dataStart ≤ p.wire.length) (long : stcpMss + headerLen < p.wire.length)
    (carried : p.wire.length ≤ 1500) (holds : ChecksumHolds host p rest e)
    (passes : PassesUp p e) :
    ∃ n, (readPacket host p rest e).handed = some (p.dataStart, n) ∧
      stcpMss + headerLen < p.dataStart + n := by
  have bound : stcpMss + headerLen = 556 := rfl
  have length : dataLen p = p.wire.length - p.dataStart := dataLen_of_inside header (by omega)
  have start : p.dataStart ≤ 60 := by
    unfold Packet.dataStart
    omega
  rw [readPacket_passes holds passes (by omega)]
  exact ⟨_, rfl, by omega⟩

/-- A packet that ends inside its header and passes data up: `stcp_app_send` is given a length that
has wrapped, and where no such node can be allocated the program ends there. -/
theorem readPacket_wraps {host : Host} {p : Packet} {rest : List (Option Packet)} {e : Endpoint}
    (cut : p.wire.length < p.dataStart) (holds : ChecksumHolds host p rest e)
    (passes : PassesUp p e) (bounded : ∀ n ≥ 2 ^ 63, host.allocates n = false) :
    (readPacket host p rest e).handed =
        some (p.dataStart, 2 ^ 64 - (p.dataStart - p.wire.length)) ∧
      (readPacket host p rest e).ending = .noMemory := by
  have start : p.dataStart ≤ 60 := by
    unfold Packet.dataStart
    omega
  have wraps : dataLen p = 2 ^ 64 - (p.dataStart - p.wire.length) := by
    unfold dataLen
    omega
  have large : dataLen p ≥ 2 ^ 63 := by omega
  rw [readPacket_passes holds passes (by omega), bounded _ large, wraps]
  exact ⟨rfl, rfl⟩

/-- A packet of 20 bytes that announces a header of 60. -/
def longHeader : Packet := { segmentAt 0 [] with thOff := 15, thSum := 974 }

/-- The length of its payload wraps, `stcp_app_send` is called with it, and the program ends. -/
theorem longHeader_wraps :
    readPacket halfHost longHeader [] (justEstablished 1 1) =
        { dataLen := some (2 ^ 64 - 40), handed := some (60, 2 ^ 64 - 40), ending := .noMemory } ∧
      ¬ PayloadExact halfHost longHeader [] (justEstablished 1 1) := by
  have ended : readPacket halfHost longHeader [] (justEstablished 1 1) =
      { dataLen := some (2 ^ 64 - 40), handed := some (60, 2 ^ 64 - 40), ending := .noMemory } := by
    decide +kernel
  refine ⟨ended, ?_⟩
  intro exact
  have noWrap := exact.noWrap (2 ^ 64 - 40) (by rw [ended])
  exact absurd noWrap (by decide)

end CompNet.Stcp
