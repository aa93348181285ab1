import Mathlib.Algebra.Order.Ring.Int
import Mathlib.Data.List.Basic

/-!
# STCP packets and the mysocket layer

The data that the STCP transport thread shares with the application and with
the network receive thread: packets (`transport.h`), the three buffer queues of
a mysocket context (`mysock_impl.h`), the queue operations (`mysock.c`), the
application calls (`mysock_api.c`) and `stcp_wait_for_event` (`stcp_api.c`).

A packet is kept as its header fields and the bytes that follow the 20-byte
header.  `Packet.wire` lays the header out again, because `control_loop` cuts
the payload out of the received bytes at `4 * th_off`, whatever `th_off` is.
A queue is the list of its nodes' contents, head first; the zero-length node
that the receive thread enqueues on an error is `none` in the network queue and
`[]` in the queue towards the application, where it is the end-of-file marker.
-/

namespace CompNet.Stcp

/-- `tcp_seq`. -/
abbrev TcpSeq := UInt32

/-- Bytes of application data. -/
abbrev Bytes := List UInt8

/-! ## Packets -/

def thFin : UInt8 := 0x01
def thSyn : UInt8 := 0x02
def thAckFlag : UInt8 := 0x10

/-- `STCP_MSS`. -/
def stcpMss : Nat := 536

/-- `sizeof(STCPHeader)`. -/
def headerLen : Nat := 20

/-- Fields of four bits have literals. -/
instance fourBits : NeZero 16 := ⟨by decide⟩

/-- `STCPHeader` and what follows it.  The ports, the checksum and the urgent
pointer are filled in below the transport layer and are read by nothing in it,
except that they are bytes of the packet. -/
structure Packet where
  thSport : UInt16
  thDport : UInt16
  thSeq : TcpSeq
  thAck : TcpSeq
  thX2 : Fin 16
  thOff : Fin 16
  thFlags : UInt8
  thWin : UInt16
  thSum : UInt16
  thUrp : UInt16
  data : Bytes
  deriving DecidableEq, Repr

/-- The two bytes of a 16-bit field in network byte order. -/
def be16 (n : UInt16) : Bytes := [(n >>> 8).toUInt8, n.toUInt8]

/-- The four bytes of a 32-bit field in network byte order. -/
def be32 (n : UInt32) : Bytes :=
  [(n >>> 24).toUInt8, (n >>> 16).toUInt8, (n >>> 8).toUInt8, n.toUInt8]

/-- The 20 header bytes as they lie in the packet. -/
def Packet.header (p : Packet) : Bytes :=
  be16 p.thSport ++ be16 p.thDport ++ be32 p.thSeq ++ be32 p.thAck ++
    [UInt8.ofNat (p.thOff.val * 16 + p.thX2.val), p.thFlags] ++
    be16 p.thWin ++ be16 p.thSum ++ be16 p.thUrp

/-- All bytes of the packet. -/
def Packet.wire (p : Packet) : Bytes := p.header ++ p.data

@[simp] theorem Packet.length_header (p : Packet) : p.header.length = headerLen := rfl

@[simp] theorem Packet.length_wire (p : Packet) :
    p.wire.length = headerLen + p.data.length := by
  simp [Packet.wire]

theorem Packet.drop_wire (p : Packet) : p.wire.drop headerLen = p.data := by
  simp [Packet.wire, List.drop_append]

/-- `header->th_flags & flag`. -/
def Packet.has (p : Packet) (flag : UInt8) : Bool := p.thFlags &&& flag != 0

/-- `TCP_DATA_START`. -/
def Packet.dataStart (p : Packet) : Nat := p.thOff.val * 4

/-! ## Mysocket contexts -/

/-- The part of `mysock_context_t` that the transport thread, the receive
thread and the application share once a connection exists. -/
structure Mysock where
  closeRequested : Bool := false
  eof : Bool := false
  networkRecvQueue : List (Option Packet) := []
  appSendQueue : List Bytes := []
  appRecvQueue : List Bytes := []
  deriving DecidableEq, Repr

/-- `_mysock_dequeue_buffer` with `remove_partial`: the bytes copied out and the
queue left behind; `none` while the queue is empty, where the call blocks. -/
def dequeuePartial (maxLen : Nat) : List Bytes → Option (Bytes × List Bytes)
  | [] => none
  | node :: rest =>
      if node.length > maxLen then some (node.take maxLen, node.drop maxLen :: rest)
      else some (node, rest)

/-- A partial dequeue only moves bytes from the queue to the caller. -/
theorem dequeuePartial_flatten {maxLen : Nat} {queue rest : List Bytes} {chunk : Bytes}
    (dequeued : dequeuePartial maxLen queue = some (chunk, rest)) :
    chunk ++ rest.flatten = queue.flatten := by
  cases queue with
  | nil => cases dequeued
  | cons node tail =>
      simp only [dequeuePartial] at dequeued
      split at dequeued
      · cases dequeued
        simp [← List.append_assoc]
      · cases dequeued
        simp

theorem dequeuePartial_length_le {maxLen : Nat} {queue rest : List Bytes} {chunk : Bytes}
    (dequeued : dequeuePartial maxLen queue = some (chunk, rest)) :
    chunk.length ≤ maxLen := by
  cases queue with
  | nil => cases dequeued
  | cons node tail =>
      simp only [dequeuePartial] at dequeued
      split at dequeued
      · cases dequeued
        rw [List.length_take]
        exact Nat.min_le_left _ _
      · cases dequeued
        omega

/-! ## Application calls -/

/-- `mywrite`: the whole buffer becomes one node. -/
def mywrite (buf : Bytes) (sock : Mysock) : Mysock :=
  { sock with appRecvQueue := sock.appRecvQueue ++ [buf] }

/-- `myclose`, up to the point where it waits for the transport thread. -/
def myclose (sock : Mysock) : Mysock := { sock with closeRequested := true }

/-- `myread`: the bytes returned and the context left behind; `none` while the
call blocks.  The length is held in an `int` before it is compared with zero. -/
def myread (bufLen : Nat) (sock : Mysock) : Option (Bytes × Mysock) :=
  if sock.eof then some ([], sock)
  else
    match dequeuePartial bufLen sock.appSendQueue with
    | none => none
    | some (chunk, rest) =>
        some (chunk, { sock with appSendQueue := rest, eof := chunk.length % 2 ^ 32 == 0 })

/-- `myread` moves only what is queued for the application. -/
theorem myread_frame {bufLen : Nat} {sock sock' : Mysock} {chunk : Bytes}
    (read : myread bufLen sock = some (chunk, sock')) :
    sock'.appRecvQueue = sock.appRecvQueue ∧ sock'.closeRequested = sock.closeRequested ∧
      sock'.networkRecvQueue = sock.networkRecvQueue := by
  unfold myread at read
  split at read
  · cases read
    exact ⟨rfl, rfl, rfl⟩
  · split at read
    · cases read
    · cases read
      exact ⟨rfl, rfl, rfl⟩

/-! ## Waiting for an event -/

/-- The bit mask of `stcp_event_type_t`. -/
structure Event where
  appData : Bool
  networkData : Bool
  appCloseRequested : Bool
  deriving DecidableEq, Repr

/-- `ANY_EVENT`. -/
def anyEvent : Event := ⟨true, true, true⟩

/-- `NETWORK_DATA`. -/
def networkEvent : Event := ⟨false, true, false⟩

/-- `stcp_wait_for_event` without a timeout: the mask returned and the context
with the close request cleared if it was reported; `none` while nothing is
ready and the thread sleeps.  The close request is reported whatever the flags
are: its flag test is commented out in the source. -/
def stcpWaitForEvent (flags : Event) (sock : Mysock) : Option (Event × Mysock) :=
  let ev : Event :=
    { appData := flags.appData && !sock.appRecvQueue.isEmpty
      networkData := flags.networkData && !sock.networkRecvQueue.isEmpty
      appCloseRequested := sock.closeRequested && sock.appRecvQueue.isEmpty }
  if ev.appData || ev.networkData || ev.appCloseRequested then
    some (ev, { sock with closeRequested := sock.closeRequested && !ev.appCloseRequested })
  else none

/-- What a returned mask says about the queues, and what the wait changed. -/
theorem stcpWaitForEvent_spec {flags ev : Event} {sock sock' : Mysock}
    (waited : stcpWaitForEvent flags sock = some (ev, sock')) :
    (ev.appData = true → sock.appRecvQueue ≠ []) ∧
      (ev.networkData = true → sock.networkRecvQueue ≠ []) ∧
      (ev.appCloseRequested = true → sock.closeRequested = true ∧ sock.appRecvQueue = []) ∧
      sock' = { sock with closeRequested := sock.closeRequested && !ev.appCloseRequested } := by
  simp only [stcpWaitForEvent] at waited
  split at waited
  · cases waited
    refine ⟨?_, ?_, ?_, rfl⟩ <;> simp
  · cases waited

end CompNet.Stcp
