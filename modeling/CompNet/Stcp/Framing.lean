import CompNet.Lib.ByteStream
import CompNet.Stcp.Accept

/-!
# Packets on a TCP connection

`network_io_tcp.c`: packets cross a TCP connection as a length of two bytes in network byte order
and that many bytes.  `_tcp_io` moves a buffer through as many calls of `read` or `write` as it
takes.  The functions are programs over the connection's byte stream; a call is answered by its
return value, and the branches for the values that mean an error or the end of the connection are
those of the source.
-/

namespace CompNet.Stcp

open CompNet.Lib

/-! ## The functions -/

/-- `io_func_t`. -/
inductive IoFunc
  | read
  | write

/-- `buf` with `bytes` stored from `offset` on. -/
def store (buf : Bytes) (offset : Nat) (bytes : Bytes) : Bytes :=
  buf.take offset ++ bytes ++ buf.drop (offset + bytes.length)

/-- The loop of `_tcp_io` with `bytes_remaining` of `count` bytes to go, so that `cbuf` points
`count - bytes_remaining` bytes into `buf`: the return value and the buffer. -/
def tcpIoLoop (ioFunc : IoFunc) (count bytesRemaining : Nat) (buf : Bytes) :
    StreamProg UInt8 (Int × Bytes) :=
  if bytesRemaining > 0 then
    match ioFunc with
    | .write =>
        .write ((buf.drop (count - bytesRemaining)).take bytesRemaining) fun rc =>
          if rc ≤ 0 then .ret (rc, buf)
          else tcpIoLoop ioFunc count (bytesRemaining - rc.toNat) buf
    | .read =>
        .read bytesRemaining fun rc got =>
          let buf := store buf (count - bytesRemaining) got
          if rc ≤ 0 then .ret (rc, buf)
          else tcpIoLoop ioFunc count (bytesRemaining - rc.toNat) buf
  else .ret (count, buf)
termination_by bytesRemaining
decreasing_by all_goals omega

/-- `_tcp_io`, as the calls it makes. -/
def tcpIoCalls (buf : Bytes) (count : Nat) (ioFunc : IoFunc) : StreamProg UInt8 (Int × Bytes) :=
  tcpIoLoop ioFunc count count buf

/-- What the two functions read of the connection: its role, and what `_tcp_connect` and `accept`
return. -/
structure TcpContext where
  isActive : Bool
  listening : Bool
  tcpConnect : Int
  accept : Int

/-- `htons`, as the two bytes lie in memory. -/
def htons (n : Nat) : Bytes := be16 (UInt16.ofNat n)

/-- `ntohs` of two bytes in memory. -/
def ntohs (bytes : Bytes) : Nat :=
  match bytes with
  | [high, low] => high.toNat * 256 + low.toNat
  | _ => 0

/-- `_network_send_packet`. -/
def networkSendPacket (ctx : TcpContext) (src : Bytes) (len : Nat) : StreamProg UInt8 Int :=
  if ctx.tcpConnect < 0 then pure (-1)
  else do
    let (rc, _) ← tcpIoCalls (htons len) 2 .write
    if rc < 0 then pure (-1)
    else
      let (rc, _) ← tcpIoCalls src len .write
      if rc < 0 then pure (-1) else pure len

/-- `_network_recv_packet`: the return value and the buffer. -/
def networkRecvPacket (ctx : TcpContext) (dst : Bytes) (maxLen : Nat) :
    StreamProg UInt8 (Int × Bytes) :=
  if ctx.isActive && ctx.tcpConnect < 0 then pure (-1, dst)
  else if ctx.listening && ctx.accept < 0 then pure (ctx.accept, dst)
  else do
    -- the two bytes of `packet_len` are not initialised
    let (rc, packetLen) ← tcpIoCalls [0, 0] 2 .read
    if rc ≤ 0 then pure (rc, dst)
    else
      let packetLen := ntohs packetLen
      let (rc, dst) ← tcpIoCalls dst (min packetLen maxLen) .read
      if rc ≤ 0 then pure (rc, dst)
      else if packetLen > maxLen then
        let dummy := List.replicate (packetLen - maxLen) 0
        let _ ← tcpIoCalls dummy (packetLen - maxLen) .read
        pure (packetLen, dst)
      else pure (packetLen, dst)

/-- `_network_send_packet` for one packet after the other: the return values. -/
def sendPackets (ctx : TcpContext) : List Bytes → StreamProg UInt8 (List Int)
  | [] => pure []
  | packet :: packets => do
      let rc ← networkSendPacket ctx packet packet.length
      let rcs ← sendPackets ctx packets
      pure (rc :: rcs)

/-- Calls of `_network_recv_packet` on one connection, one after the other, each with the context
and the buffer it is made with: each return value and as many bytes of the buffer.  A listening
context reads the first packet of a connection that it accepts. -/
def recvPackets (maxLen : Nat) :
    List (TcpContext × Bytes) → StreamProg UInt8 (List (Int × Bytes))
  | [] => pure []
  | (ctx, dst) :: calls => do
      let (rc, dst) ← networkRecvPacket ctx dst maxLen
      let packets ← recvPackets maxLen calls
      pure ((rc, dst.take rc.toNat) :: packets)

/-! ## Whole buffers -/

/-- Storing two pieces one behind the other stores both. -/
theorem store_store {buf first second : Bytes} {offset : Nat} (inside : offset ≤ buf.length) :
    store (store buf offset first) (offset + first.length) second =
      store buf offset (first ++ second) := by
  have front : (buf.take offset ++ first).length = offset + first.length := by
    rw [List.length_append, List.length_take, Nat.min_eq_left inside]
  have back : (buf.take offset ++ first ++ buf.drop (offset + first.length)).drop
      (offset + first.length + second.length) = buf.drop (offset + (first ++ second).length) := by
    rw [← front, List.drop_length_add_append, front, List.drop_drop, List.length_append,
      Nat.add_assoc]
  unfold store
  rw [back, List.take_append_of_le_length (Nat.le_of_eq front.symm),
    List.take_of_length_le (Nat.le_of_eq front), List.append_assoc _ first second]

theorem length_store {buf bytes : Bytes} {offset : Nat}
    (inside : offset + bytes.length ≤ buf.length) :
    (store buf offset bytes).length = buf.length := by
  simp only [store, List.length_append, List.length_take, List.length_drop]
  omega

theorem take_store {buf bytes : Bytes} : (store buf 0 bytes).take bytes.length = bytes := by
  simp [store]

theorem tcpIoLoop_zero (ioFunc : IoFunc) (count : Nat) (buf : Bytes) :
    tcpIoLoop ioFunc count 0 buf = .ret ((count : Int), buf) := by
  rw [tcpIoLoop.eq_def, if_neg (Nat.lt_irrefl 0)]

/-- However its calls are cut short, the loop writes what is left of the buffer. -/
theorem tcpIoLoop_writes {count bytesRemaining : Nat} {buf : Bytes}
    (within : bytesRemaining ≤ count) (inside : count ≤ buf.length) :
    (tcpIoLoop .write count bytesRemaining buf).Writes
      ((buf.drop (count - bytesRemaining)).take bytesRemaining) ((count : Int), buf) := by
  induction bytesRemaining using Nat.strongRecOn with
  | ind bytesRemaining ih =>
      by_cases some : bytesRemaining > 0
      · have length : ((buf.drop (count - bytesRemaining)).take bytesRemaining).length =
            bytesRemaining := by
          rw [List.length_take, List.length_drop]
          omega
        rw [tcpIoLoop, if_pos some]
        refine .write ?_ (List.prefix_refl _) fun k moves fits => ?_
        · rw [← List.length_pos_iff, length]
          exact some
        · rw [length] at fits
          rw [if_neg (by omega), Int.toNat_natCast, List.drop_take, List.drop_drop]
          have next := ih (bytesRemaining - k) (by omega) (by omega)
          rw [show count - (bytesRemaining - k) = count - bytesRemaining + k by omega] at next
          exact next
      · obtain rfl : bytesRemaining = 0 := by omega
        rw [tcpIoLoop_zero, List.take_zero]
        exact .ret _

/-- However its calls are cut short, the loop reads as many bytes as are left to read. -/
theorem tcpIoLoop_reads {count : Nat} {buf bytes : Bytes} (within : bytes.length ≤ count)
    (inside : count ≤ buf.length) :
    (tcpIoLoop .read count bytes.length buf).Reads bytes
      ((count : Int), store buf (count - bytes.length) bytes) := by
  generalize remaining : bytes.length = bytesRemaining
  induction bytesRemaining using Nat.strongRecOn generalizing bytes buf with
  | ind bytesRemaining ih =>
      subst remaining
      by_cases some : bytes.length > 0
      · rw [tcpIoLoop, if_pos some]
        refine .read some (Nat.le_refl _) fun k moves fits => ?_
        dsimp only
        rw [if_neg (by omega), Int.toNat_natCast]
        have left : (bytes.drop k).length = bytes.length - k := List.length_drop
        have taken : (bytes.take k).length = k := by
          rw [List.length_take]
          omega
        have room : (store buf (count - bytes.length) (bytes.take k)).length = buf.length :=
          length_store (by omega)
        have offset :
            count - (bytes.length - k) = count - bytes.length + (bytes.take k).length := by
          omega
        have next := ih (bytes.length - k) (by omega) (by omega) (room ▸ inside) left
        rw [offset, store_store (by omega), List.take_append_drop] at next
        exact next
      · obtain rfl : bytes = [] := List.length_eq_zero_iff.mp (by omega)
        rw [List.length_nil, tcpIoLoop_zero]
        have same : store buf (count - 0) [] = buf := by simp [store]
        rw [same]
        exact .ret _

theorem tcpIoCalls_writes {buf : Bytes} :
    (tcpIoCalls buf buf.length .write).Writes buf (buf.length, buf) := by
  have whole := tcpIoLoop_writes (Nat.le_refl buf.length) (Nat.le_refl buf.length)
  rw [Nat.sub_self, List.drop_zero, List.take_length] at whole
  exact whole

theorem tcpIoCalls_reads (buf bytes : Bytes) (inside : bytes.length ≤ buf.length) :
    (tcpIoCalls buf bytes.length .read).Reads bytes (bytes.length, store buf 0 bytes) := by
  have whole := tcpIoLoop_reads (Nat.le_refl bytes.length) inside
  rw [Nat.sub_self] at whole
  exact whole

/-- What the receive thread gets from a stream is what the calls of `read` come to. -/
theorem tcpIo_reads {buf stream bytes rest : Bytes} {count : Nat} (room : count ≤ buf.length)
    (got : tcpIo count stream = some (bytes, rest)) :
    stream = bytes ++ rest ∧
      (tcpIoCalls buf count .read).Reads bytes (count, store buf 0 bytes) := by
  unfold tcpIo at got
  split at got
  · next enough =>
      rw [List.splitAt_eq, Option.some.injEq, Prod.mk.injEq] at got
      obtain ⟨rfl, rfl⟩ := got
      have length : (stream.take count).length = count := List.length_take_of_le enough.2
      have inside : (stream.take count).length ≤ buf.length := by omega
      have reads := tcpIoCalls_reads buf (stream.take count) inside
      rw [length] at reads
      exact ⟨(List.take_append_drop count stream).symm, reads⟩
  · cases got

/-! ## Whole packets -/

/-- A packet as it crosses the connection. -/
def framed (packet : Bytes) : Bytes := htons packet.length ++ packet

@[simp] theorem length_htons (n : Nat) : (htons n).length = 2 := rfl

theorem ntohs_htons {n : Nat} (small : n < 2 ^ 16) : ntohs (htons n) = n := by
  have high : (UInt16.ofNat n >>> 8).toUInt8.toNat = n / 256 % 256 := by
    rw [UInt16.toNat_toUInt8, UInt16.toNat_shiftRight, UInt16.toNat_ofNat_of_lt' small]
    rw [Nat.shiftRight_eq_div_pow]
    rfl
  have low : (UInt16.ofNat n).toUInt8.toNat = n % 256 := by
    rw [UInt16.toNat_toUInt8, UInt16.toNat_ofNat_of_lt' small]
  rw [htons, be16, ntohs, high, low]
  omega

/-- The calls that a context makes on the socket itself succeed. -/
structure TcpContext.Ready (ctx : TcpContext) : Prop where
  connected : 0 ≤ ctx.tcpConnect
  accepted : 0 ≤ ctx.accept

theorem networkSendPacket_writes {ctx : TcpContext} (ready : ctx.Ready) (packet : Bytes) :
    (networkSendPacket ctx packet packet.length).Writes (framed packet) packet.length := by
  rw [networkSendPacket, if_neg (Int.not_lt.mpr ready.connected)]
  have header : (tcpIoCalls (htons packet.length) 2 .write).Writes (htons packet.length)
      ((2 : Nat), htons packet.length) := tcpIoCalls_writes
  refine header.bind ?_
  dsimp only
  rw [if_neg (by decide)]
  refine tcpIoCalls_writes.bind_last ?_
  dsimp only
  rw [if_neg (Int.not_lt.mpr (Int.natCast_nonneg _))]
  exact .ret _

/-- A call that reads a packet no longer than its buffer. -/
theorem networkRecvPacket_reads {ctx : TcpContext} {maxLen : Nat} {dst packet : Bytes}
    (ready : ctx.Ready) (room : dst.length = maxLen) (some : 0 < packet.length)
    (fits : packet.length ≤ maxLen) (short : packet.length < 2 ^ 16) :
    (networkRecvPacket ctx dst maxLen).Reads (framed packet)
      (packet.length, store dst 0 packet) := by
  have connected : ¬ (ctx.isActive && decide (ctx.tcpConnect < 0)) = true := by
    simp [Int.not_lt.mpr ready.connected]
  have accepted : ¬ (ctx.listening && decide (ctx.accept < 0)) = true := by
    simp [Int.not_lt.mpr ready.accepted]
  have header : (tcpIoCalls [0, 0] 2 .read).Reads (htons packet.length)
      ((2 : Nat), store [0, 0] 0 (htons packet.length)) :=
    tcpIoCalls_reads [0, 0] (htons packet.length) (Nat.le_refl 2)
  rw [networkRecvPacket, if_neg connected, if_neg accepted, framed]
  refine header.bind ?_
  dsimp only
  have stored : store [0, 0] 0 (htons packet.length) = htons packet.length := by simp [store]
  rw [if_neg (by decide), stored, ntohs_htons short, Nat.min_eq_left fits]
  refine (tcpIoCalls_reads dst packet (room ▸ fits)).bind_last ?_
  dsimp only
  rw [if_neg (by omega), if_neg (by omega)]
  exact .ret _

theorem sendPackets_writes {ctx : TcpContext} (ready : ctx.Ready) (packets : List Bytes) :
    (sendPackets ctx packets).Writes (packets.map framed).flatten
      (packets.map fun packet => (packet.length : Int)) := by
  induction packets with
  | nil => exact .ret _
  | cons packet packets ih =>
      rw [sendPackets, List.map_cons, List.map_cons, List.flatten_cons]
      refine (networkSendPacket_writes ready packet).bind ?_
      exact ih.bind_last (.ret _)

theorem recvPackets_reads {maxLen : Nat} {packets : List Bytes} {calls : List (TcpContext × Bytes)}
    (enough : calls.length = packets.length)
    (ready : ∀ call ∈ calls, call.1.Ready ∧ call.2.length = maxLen) (bounded : maxLen < 2 ^ 16)
    (fits : ∀ packet ∈ packets, 0 < packet.length ∧ packet.length ≤ maxLen) :
    (recvPackets maxLen calls).Reads (packets.map framed).flatten
      (packets.map fun packet => ((packet.length : Int), packet)) := by
  induction packets generalizing calls with
  | nil =>
      obtain rfl := List.length_eq_zero_iff.mp enough
      exact .ret _
  | cons packet packets ih =>
      obtain ⟨⟨ctx, dst⟩, calls, rfl⟩ := List.exists_cons_of_length_eq_add_one enough
      obtain ⟨⟨isReady, room⟩, readyNext⟩ := List.forall_mem_cons.mp ready
      obtain ⟨⟨some, short⟩, fitsNext⟩ := List.forall_mem_cons.mp fits
      have first := networkRecvPacket_reads isReady room some short
        (Nat.lt_of_le_of_lt short bounded)
      have later := ih (Nat.succ.inj enough) readyNext fitsNext
      rw [recvPackets, List.map_cons, List.map_cons, List.flatten_cons]
      refine first.bind (later.bind_last ?_)
      dsimp only
      rw [Int.toNat_natCast, take_store]
      exact .ret _

/-! ## Both ends of a connection -/

/-- However the two ends take turns and however their calls are cut short: as long as one of them
has not returned from its last call there is a call that moves something, only finitely many calls
do, and then the receiver has the packets. -/
theorem packets_received {sender : TcpContext} {packets : List Bytes}
    {calls : List (TcpContext × Bytes)} (ready : sender.Ready)
    (enough : calls.length = packets.length)
    (receivers : ∀ call ∈ calls, call.1.Ready ∧ call.2.length = 1500)
    (fits : ∀ packet ∈ packets, 1 ≤ packet.length ∧ packet.length ≤ 1500) :
    Acc (fun l' l => Link.Step l l') ⟨sendPackets sender packets, [], recvPackets 1500 calls⟩ ∧
    ∀ l, Relation.ReflTransGen Link.Step
        ⟨sendPackets sender packets, [], recvPackets 1500 calls⟩ l →
      (∃ l', Link.Step l l') ∨
        l = ⟨.ret (packets.map fun packet => (packet.length : Int)), [],
          .ret (packets.map fun packet => ((packet.length : Int), packet))⟩ := by
  have flow : Link.Flow ⟨sendPackets sender packets, [], recvPackets 1500 calls⟩
      (packets.map framed).flatten (packets.map fun packet => (packet.length : Int))
      (packets.map fun packet => ((packet.length : Int), packet)) :=
    ⟨sendPackets_writes ready packets, recvPackets_reads enough receivers (by decide) fits⟩
  refine ⟨flow.acc, fun l run => ?_⟩
  obtain ⟨pending, flow⟩ := flow.run run
  exact flow.progress

/-- A connected end with a buffer. -/
def connectedCall : TcpContext × Bytes := (⟨false, false, 0, 0⟩, List.replicate 1500 0)

theorem connectedCall_ready : connectedCall.1.Ready := ⟨Int.le_refl 0, Int.le_refl 0⟩

theorem packets_received_twoPackets :
    Acc (fun l' l => Link.Step l l') ⟨sendPackets connectedCall.1 [[7], [8, 9]], [],
        recvPackets 1500 [connectedCall, connectedCall]⟩ ∧
    ∀ l, Relation.ReflTransGen Link.Step
        ⟨sendPackets connectedCall.1 [[7], [8, 9]], [],
          recvPackets 1500 [connectedCall, connectedCall]⟩ l →
      (∃ l', Link.Step l l') ∨ l = ⟨.ret [1, 2], [], .ret [(1, [7]), (2, [8, 9])]⟩ := by
  have receivers : ∀ call ∈ [connectedCall, connectedCall],
      call.1.Ready ∧ call.2.length = 1500 := by
    intro call member
    obtain rfl : call = connectedCall := by simpa using member
    exact ⟨connectedCall_ready, List.length_replicate⟩
  have fits : ∀ packet ∈ ([[7], [8, 9]] : List Bytes),
      1 ≤ packet.length ∧ packet.length ≤ 1500 := by decide
  exact packets_received connectedCall_ready rfl receivers fits

end CompNet.Stcp
