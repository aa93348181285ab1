import CompNet.Stcp.Mysock
import CompNet.Lib.Path
import Mathlib.Data.List.Nodup

/-!
# The backlog of a listening socket

`connection_demux.c`: the slots of the connections that the application has not
accepted yet, the number of those in use, and the list of the slots whose handshake is
over.  Three threads work on it, each under the lock: the receive thread puts a
connection into a slot when a SYN arrives, the transport thread of the connection
appends the slot to the list, and `myaccept` takes the first one off and clears it.
An `assert` that fails is an `Assertion`.
-/

namespace CompNet.Stcp

open CompNet.Lib

/-! ## Addresses -/

/-- `struct sockaddr`, byte for byte. -/
abbrev SockAddr := Bytes

/-- `sizeof(struct sockaddr_in)`. -/
def sockaddrInLen : Nat := 16

/-- An address of the family `AF_INET`. -/
def Ipv4 (addr : SockAddr) : Prop := addr.length = sockaddrInLen ∧ addr.take 2 = [2, 0]

instance (addr : SockAddr) : Decidable (Ipv4 addr) := inferInstanceAs (Decidable (_ ∧ _))

/-! ## The queue -/

/-- `connect_request_t`. -/
structure ConnectRequest where
  peerAddr : SockAddr
  peerAddrLen : Nat
  sd : Int
  userData : Nat
  deriving DecidableEq, Repr

/-- `INVALIDATE_CONNECT_REQUEST`. -/
def ConnectRequest.invalid : ConnectRequest := ⟨List.replicate sockaddrInLen 0, 0, -1, 0⟩

def ConnectRequest.occupied (r : ConnectRequest) : Bool := r.sd != -1

/-- `listen_queue_t`; `completed_queue` points to slots. -/
structure ListenQueue where
  maxLen : Nat
  curLen : Nat
  connectionQueue : List ConnectRequest
  completedQueue : List Nat
  deriving DecidableEq, Repr

/-- The asserts on the queue, on the accepted socket and on the context of a new one. -/
inductive Assertion
  | connectionContext
  | peerAddrLen
  | queueEntry
  | queueEntrySd
  | connectionReq
  | request
  | newCtx
  | curLen
  | newSocket
  | bytesRead
  deriving DecidableEq, Repr

/-- What the listening socket and the threads behind it share: the queue, the table of the
mysocket descriptors in use, and the TCP socket that was accepted last. -/
structure Demux where
  queue : ListenQueue
  globalCtx : List Bool
  newSocket : Int
  deriving DecidableEq, Repr

/-- `_mysock_set_backlog`, called once. -/
def mysockSetBacklog (backlog : UInt32) : ListenQueue where
  maxLen := (backlog + 1).toNat
  curLen := 0
  connectionQueue := List.replicate (backlog + 1).toNat .invalid
  completedQueue := []

/-- The first free descriptor. -/
def freeDescriptor (globalCtx : List Bool) : Option Nat := globalCtx.findIdx? (fun used => !used)

/-- `_mysock_new_mysocket`, given whether a context could be allocated. -/
def mysockNewMysocket (allocated : Bool) (globalCtx : List Bool) :
    Except Assertion (Int × List Bool) :=
  if allocated then
    match freeDescriptor globalCtx with
    | some k => .ok (k, globalCtx.set k true)
    | none => .ok (-1, globalCtx)
  else .error .connectionContext

/-- `packet_len < sizeof(struct tcphdr) || !(th_flags & TH_SYN)`, the other way round. -/
def isSyn (packet : Bytes) : Bool :=
  decide (headerLen ≤ packet.length) && packet.getD 13 0 &&& thSyn != 0

/-- The walk that looks for a request of the same peer. -/
def isRetransmission (peerAddr : SockAddr) (peerAddrLen : Nat) :
    List ConnectRequest → Except Assertion Bool
  | [] => .ok false
  | r :: rest =>
      if r.sd = -1 ∨ peerAddrLen = r.peerAddrLen then
        if r.peerAddr.take peerAddrLen = peerAddr.take peerAddrLen then .ok true
        else isRetransmission peerAddr peerAddrLen rest
      else .error .peerAddrLen

/-- `_network_update_passive_state`, as far as the listening socket sees it. -/
def networkUpdatePassiveState (d : Demux) : Demux := { d with newSocket := -1 }

/-- A connection in the slot `k`; `cur_len` has been incremented before. -/
def establish (allocated : Bool) (peerAddr : SockAddr) (peerAddrLen userData : Nat) (k : Nat)
    (d : Demux) : Except Assertion (Bool × Demux) := do
  let (sd, globalCtx) ← mysockNewMysocket allocated d.globalCtx
  if sd < 0 then
    pure (false, { d with
      queue.connectionQueue := d.queue.connectionQueue.set k .invalid
      queue.curLen := d.queue.curLen - 1 })
  else
    pure (true, networkUpdatePassiveState { d with
      queue.connectionQueue := d.queue.connectionQueue.set k ⟨peerAddr, peerAddrLen, sd, userData⟩
      globalCtx := globalCtx })

/-- `_mysock_enqueue_connection`: whether the connection was queued. -/
def mysockEnqueueConnection (allocated : Bool) (packet : Bytes) (peerAddr : SockAddr)
    (peerAddrLen userData : Nat) (d : Demux) : Except Assertion (Bool × Demux) := do
  if isSyn packet then
    if ← isRetransmission peerAddr peerAddrLen d.queue.connectionQueue then pure (false, d)
    else if d.queue.curLen < d.queue.maxLen then
      match d.queue.connectionQueue.findIdx? (fun r => decide (r.sd < 0)) with
      | none => throw .queueEntry
      | some k =>
          if d.queue.connectionQueue[k]?.map ConnectRequest.sd = some (-1) then
            establish allocated peerAddr peerAddrLen userData k
              { d with queue.curLen := d.queue.curLen + 1 }
          else throw .queueEntrySd
    else pure (false, d)
  else pure (false, d)

/-- `_mysock_passive_connection_complete`. -/
def mysockPassiveConnectionComplete (mySd : Int) (q : ListenQueue) : Except Assertion ListenQueue :=
  match q.connectionQueue.findIdx? (fun r => r.sd == mySd) with
  | none => .error .connectionReq
  | some k => .ok { q with completedQueue := q.completedQueue ++ [k] }

/-- `_mysock_get_context`. -/
def mysockGetContext (sd : Int) (globalCtx : List Bool) : Bool :=
  decide (0 ≤ sd) && globalCtx.getD sd.toNat false

/-- `_mysock_dequeue_connection`: the descriptor handed out and the queue that is left; `none`
while it waits for a connection. -/
def mysockDequeueConnection (globalCtx : List Bool) (q : ListenQueue) :
    Option (Except Assertion (Int × ListenQueue)) :=
  match q.completedQueue with
  | [] => none
  | k :: rest => some <|
      match q.connectionQueue[k]? with
      | none => .error .request
      | some r =>
          if mysockGetContext r.sd globalCtx then
            if 0 < q.curLen then
              .ok (r.sd, { q with
                connectionQueue := q.connectionQueue.set k .invalid
                curLen := q.curLen - 1
                completedQueue := rest })
            else .error .curLen
          else .error .newCtx

/-! ## Runs

The steps are those of the three threads; `elsewhere` are the sockets that the application
opens and closes besides, which leaves the descriptors of queued connections in use.  The
connections that wait for their handshake, those that have completed it and those that
`myaccept` has handed out are recorded. -/

inductive ListenStep
  | syn (allocated : Bool) (packet : Bytes) (peerAddr : SockAddr) (userData : Nat)
  | complete (sd : Int)
  | accept
  | elsewhere (globalCtx : List Bool)

structure Backlog where
  demux : Demux
  waiting : List Int := []
  completed : List Int := []
  accepted : List Int := []
  deriving DecidableEq, Repr

/-- The listening socket after `mylisten`. -/
def Backlog.start (backlog : UInt32) (globalCtx : List Bool) (newSocket : Int) : Backlog where
  demux := ⟨mysockSetBacklog backlog, globalCtx, newSocket⟩

/-- The effect of a step; `none` where it cannot be taken. -/
def Backlog.step (x : Backlog) : ListenStep → Option (Except Assertion Backlog)
  | .syn allocated packet peerAddr userData => some do
      let (queued, demux) ←
        mysockEnqueueConnection allocated packet peerAddr sockaddrInLen userData x.demux
      let sds := (freeDescriptor x.demux.globalCtx).toList.map Int.ofNat
      pure { x with demux := demux, waiting := if queued then x.waiting ++ sds else x.waiting }
  | .complete sd => some do
      let queue ← mysockPassiveConnectionComplete sd x.demux.queue
      pure { x with
        demux.queue := queue
        waiting := x.waiting.erase sd
        completed := x.completed ++ [sd] }
  | .accept =>
      (mysockDequeueConnection x.demux.globalCtx x.demux.queue).map fun result => do
        let (sd, queue) ← result
        pure { x with demux.queue := queue, accepted := x.accepted ++ [sd] }
  | .elsewhere globalCtx => some (.ok { x with demux.globalCtx := globalCtx })

/-- A SYN of a peer that is not in the queue yet, which has room. -/
structure Admitted (packet : Bytes) (peerAddr : SockAddr) (d : Demux) : Prop where
  syn : isSyn packet = true
  unknown : ∀ r ∈ d.queue.connectionQueue, r.peerAddr ≠ peerAddr
  room : d.queue.curLen < d.queue.maxLen

/-- What a packet needs for its connection to be queued: a descriptor, besides. -/
structure Queueable (packet : Bytes) (peerAddr : SockAddr) (d : Demux) : Prop
    extends Admitted packet peerAddr d where
  descriptor : false ∈ d.globalCtx

/-- The steps that the threads take: the peers have IPv4 addresses, a connection completes once,
and the descriptors of queued connections stay in use. -/
def ListenStep.Allowed (x : Backlog) : ListenStep → Prop
  | .syn _ _ peerAddr _ => Ipv4 peerAddr
  | .complete sd => sd ∈ x.waiting
  | .accept => True
  | .elsewhere globalCtx => ∀ r ∈ x.demux.queue.connectionQueue, r.occupied = true →
      mysockGetContext r.sd globalCtx = true

instance (x : Backlog) : (step : ListenStep) → Decidable (step.Allowed x)
  | .syn _ _ peerAddr _ => inferInstanceAs (Decidable (Ipv4 peerAddr))
  | .complete sd => inferInstanceAs (Decidable (sd ∈ x.waiting))
  | .accept => inferInstanceAs (Decidable True)
  | .elsewhere globalCtx => inferInstanceAs (Decidable (∀ r ∈ x.demux.queue.connectionQueue,
      r.occupied = true → mysockGetContext r.sd globalCtx = true))

/-- One step of a run: a step of the threads that returns. -/
def ListenStep.Returns (x : Backlog) (step : ListenStep) (y : Backlog) : Prop :=
  step.Allowed x ∧ x.step step = some (.ok y)

/-! ## The invariant -/

/-- A slot in use belongs to a socket of an IPv4 peer. -/
structure ConnectRequest.Valid (globalCtx : List Bool) (r : ConnectRequest) : Prop where
  context : mysockGetContext r.sd globalCtx = true
  addrLen : r.peerAddrLen = sockaddrInLen
  ipv4 : Ipv4 r.peerAddr

/-- The queue, given how many slots it has. -/
structure QueueInv (slots : Nat) (globalCtx : List Bool) (q : ListenQueue) : Prop where
  maxLen : q.maxLen = slots
  size : q.connectionQueue.length = slots
  count : q.curLen = q.connectionQueue.countP ConnectRequest.occupied
  free : ∀ r ∈ q.connectionQueue, r.occupied = false → r = .invalid
  used : ∀ r ∈ q.connectionQueue, r.occupied = true → r.Valid globalCtx
  distinct : ∀ (i j : Nat) (r s : ConnectRequest),
    q.connectionQueue[i]? = some r → q.connectionQueue[j]? = some s →
    r.occupied = true → s.occupied = true → r.sd = s.sd ∨ r.peerAddr = s.peerAddr → i = j
  completedNodup : q.completedQueue.Nodup
  completedUsed : ∀ k ∈ q.completedQueue, ∃ r, q.connectionQueue[k]? = some r ∧ r.occupied = true

/-- The descriptors of the slots in a list. -/
def ListenQueue.sdsOf (q : ListenQueue) (slots : List Nat) : List Int :=
  slots.map fun k => ((q.connectionQueue[k]?).map ConnectRequest.sd).getD (-1)

structure Backlog.Inv (slots : Nat) (x : Backlog) : Prop where
  queue : QueueInv slots x.demux.globalCtx x.demux.queue
  waitingNodup : x.waiting.Nodup
  waiting : ∀ sd ∈ x.waiting, ∃ k r, x.demux.queue.connectionQueue[k]? = some r ∧
    r.occupied = true ∧ r.sd = sd ∧ k ∉ x.demux.queue.completedQueue
  log : x.completed = x.accepted ++ x.demux.queue.sdsOf x.demux.queue.completedQueue

section

variable {slots : Nat} {globalCtx : List Bool} {q : ListenQueue} {d : Demux} {x y : Backlog}

theorem occupied_iff {r : ConnectRequest} : r.occupied = true ↔ r.sd ≠ -1 := bne_iff_ne

theorem ConnectRequest.Valid.nonneg {r : ConnectRequest} (valid : r.Valid globalCtx) :
    0 ≤ r.sd := by
  have context := valid.context
  rw [mysockGetContext, Bool.and_eq_true, decide_eq_true_eq] at context
  exact context.1

/-- A free slot has the descriptor -1. -/
theorem QueueInv.sd_neg (inv : QueueInv slots globalCtx q) {r : ConnectRequest}
    (member : r ∈ q.connectionQueue) (negative : r.sd < 0) : r.occupied = false := by
  by_contra used
  rw [Bool.not_eq_false] at used
  have nonneg := (inv.used r member used).nonneg
  omega

/-! ### SYN packets -/

/-- Every slot holds an address of the one length, a free slot included. -/
theorem QueueInv.addr_length (inv : QueueInv slots globalCtx q) {r : ConnectRequest}
    (member : r ∈ q.connectionQueue) : r.peerAddr.length = sockaddrInLen := by
  cases used : r.occupied with
  | false =>
      rw [inv.free r member used]
      rfl
  | true => exact (inv.used r member used).ipv4.1

/-- The walk over the slots ends, and says whether a slot has the address. -/
theorem QueueInv.retransmission (inv : QueueInv slots globalCtx q) {peerAddr : SockAddr}
    (ipv4 : Ipv4 peerAddr) :
    isRetransmission peerAddr sockaddrInLen q.connectionQueue =
      .ok (decide (∃ r ∈ q.connectionQueue, r.peerAddr = peerAddr)) := by
  have lengths : ∀ r ∈ q.connectionQueue, r.sd = -1 ∨ sockaddrInLen = r.peerAddrLen := by
    intro r member
    by_cases used : r.sd = -1
    · exact .inl used
    · exact .inr (inv.used r member (occupied_iff.mpr used)).addrLen.symm
  have whole : ∀ r ∈ q.connectionQueue, r.peerAddr.take sockaddrInLen = r.peerAddr :=
    fun r member => List.take_of_length_le (Nat.le_of_eq (inv.addr_length member))
  generalize q.connectionQueue = requests at lengths whole
  induction requests with
  | nil => simp [isRetransmission]
  | cons r rest ih =>
      have others := ih (fun x member => lengths x (List.mem_cons_of_mem r member))
        (fun x member => whole x (List.mem_cons_of_mem r member))
      rw [isRetransmission, if_pos (lengths r List.mem_cons_self), whole r List.mem_cons_self,
        List.take_of_length_le (Nat.le_of_eq ipv4.1), others]
      by_cases same : r.peerAddr = peerAddr
      · simp [same]
      · simp [same]

/-- While there is room, there is a free slot. -/
theorem QueueInv.freeSlot (inv : QueueInv slots globalCtx q) (room : q.curLen < q.maxLen) :
    ∃ k, q.connectionQueue.findIdx? (fun r => decide (r.sd < 0)) = some k ∧
      q.connectionQueue[k]? = some .invalid := by
  have some_free : ∃ r ∈ q.connectionQueue, r.occupied = false := by
    by_contra none_free
    have all_used : ∀ r ∈ q.connectionQueue, r.occupied = true := by
      intro r member
      by_contra free
      exact none_free ⟨r, member, Bool.not_eq_true _ ▸ free⟩
    have full := List.countP_eq_length.mpr all_used
    have counted := inv.count
    have size := inv.size
    have maxLen := inv.maxLen
    omega
  obtain ⟨r, member, free⟩ := some_free
  cases found : q.connectionQueue.findIdx? (fun r => decide (r.sd < 0)) with
  | none =>
      have nonneg := List.findIdx?_eq_none_iff.mp found r member
      rw [inv.free r member free] at nonneg
      exact absurd nonneg (by decide)
  | some k =>
      obtain ⟨bound, negative, _⟩ := List.findIdx?_eq_some_iff_getElem.mp found
      have inside : q.connectionQueue[k] ∈ q.connectionQueue := List.getElem_mem bound
      have empty := inv.free _ inside (inv.sd_neg inside (of_decide_eq_true negative))
      exact ⟨k, rfl, by rw [List.getElem?_eq_getElem bound, empty]⟩

/-- What stands in a slot after one slot was written. -/
theorem getElem?_set_cases {α : Type} {l : List α} {k i : Nat} {a b : α}
    (found : (l.set k a)[i]? = some b) : (i = k ∧ b = a) ∨ (i ≠ k ∧ l[i]? = some b) := by
  rw [List.getElem?_set] at found
  by_cases same : k = i
  · rw [if_pos same] at found
    split at found
    · exact .inl ⟨same.symm, (Option.some.inj found).symm⟩
    · cases found
  · rw [if_neg same] at found
    exact .inr ⟨Ne.symm same, found⟩

/-- A slot in use is not the free one, and stays where it is. -/
theorem QueueInv.ne_free {k i : Nat} {r : ConnectRequest}
    (free : q.connectionQueue[k]? = some .invalid) (found : q.connectionQueue[i]? = some r)
    (used : r.occupied = true) : k ≠ i := by
  intro same
  rw [same, found] at free
  rw [Option.some.inj free] at used
  cases used

/-- Putting a new connection into a free slot. -/
theorem QueueInv.fill (inv : QueueInv slots globalCtx q) {k : Nat} {r : ConnectRequest}
    {globalCtx' : List Bool} (free : q.connectionQueue[k]? = some .invalid)
    (fresh : mysockGetContext r.sd globalCtx = false)
    (address : ∀ s ∈ q.connectionQueue, s.peerAddr ≠ r.peerAddr)
    (kept : ∀ sd, mysockGetContext sd globalCtx = true → mysockGetContext sd globalCtx' = true)
    (valid : r.Valid globalCtx') :
    QueueInv slots globalCtx' { q with
      connectionQueue := q.connectionQueue.set k r
      curLen := q.curLen + 1 } := by
  obtain ⟨bound, empty⟩ := List.getElem?_eq_some_iff.mp free
  have used : r.occupied = true := by
    rw [occupied_iff]
    have nonneg := valid.nonneg
    omega
  -- the new request differs from every other one in use
  have apart : ∀ s, s ∈ q.connectionQueue → s.occupied = true →
      ¬ (s.sd = r.sd ∨ s.peerAddr = r.peerAddr) := by
    intro s member other same
    rcases same with same | same
    · have context := (inv.used s member other).context
      rw [same, fresh] at context
      cases context
    · exact address s member same
  exact {
    maxLen := inv.maxLen
    size := by rw [List.length_set, inv.size]
    count := by
      rw [List.countP_set bound, empty, used, inv.count]
      simp [ConnectRequest.occupied, ConnectRequest.invalid]
    free := by
      intro s member other
      rcases List.mem_or_eq_of_mem_set member with member | rfl
      · exact inv.free s member other
      · rw [used] at other
        cases other
    used := by
      intro s member other
      rcases List.mem_or_eq_of_mem_set member with member | rfl
      · have old := inv.used s member other
        exact ⟨kept _ old.context, old.addrLen, old.ipv4⟩
      · exact valid
    distinct := by
      intro i j s t atI atJ usedS usedT same
      rcases getElem?_set_cases atI with ⟨iIs, sIs⟩ | ⟨_, atI⟩
      · rcases getElem?_set_cases atJ with ⟨jIs, _⟩ | ⟨_, atJ⟩
        · rw [iIs, jIs]
        · rw [sIs] at same
          exact absurd (same.imp Eq.symm Eq.symm) (apart t (List.mem_of_getElem? atJ) usedT)
      · rcases getElem?_set_cases atJ with ⟨_, tIs⟩ | ⟨_, atJ⟩
        · rw [tIs] at same
          exact absurd same (apart s (List.mem_of_getElem? atI) usedS)
        · exact inv.distinct i j s t atI atJ usedS usedT same
    completedNodup := inv.completedNodup
    completedUsed := by
      intro i member
      obtain ⟨s, found, other⟩ := inv.completedUsed i member
      exact ⟨s, by rw [List.getElem?_set_ne (ne_free free found other), found], other⟩ }

theorem freeDescriptor_none (full : false ∉ globalCtx) : freeDescriptor globalCtx = none := by
  unfold freeDescriptor
  rw [List.findIdx?_eq_none_iff]
  intro used member
  cases used with
  | false => exact absurd member full
  | true => rfl

theorem freeDescriptor_some (free : false ∈ globalCtx) :
    ∃ n, freeDescriptor globalCtx = some n ∧ globalCtx[n]? = some false := by
  cases found : freeDescriptor globalCtx with
  | none =>
      have used := List.findIdx?_eq_none_iff.mp found false free
      cases used
  | some n =>
      obtain ⟨bound, unused, _⟩ := List.findIdx?_eq_some_iff_getElem.mp found
      refine ⟨n, rfl, ?_⟩
      rw [List.getElem?_eq_getElem bound]
      simpa using unused

theorem mysockGetContext_eq {n : Nat} {globalCtx : List Bool} {used : Bool}
    (found : globalCtx[n]? = some used) : mysockGetContext n globalCtx = used := by
  unfold mysockGetContext
  rw [Int.toNat_natCast, List.getD_eq_getElem?_getD, found]
  simp

theorem mysockGetContext_set {sd : Int} {n : Nat} (used : mysockGetContext sd globalCtx = true) :
    mysockGetContext sd (globalCtx.set n true) = true := by
  unfold mysockGetContext at used ⊢
  rw [Bool.and_eq_true, List.getD_eq_getElem?_getD] at used ⊢
  refine ⟨used.1, ?_⟩
  rw [List.getElem?_set]
  split
  · next same =>
      split
      · rfl
      · next outside =>
          rw [← same, List.getElem?_eq_none (by omega)] at used
          exact absurd used.2 (by decide)
  · exact used.2

/-- A packet that is admitted goes to a free slot. -/
theorem QueueInv.enqueue_eq (inv : QueueInv slots d.globalCtx d.queue) (allocated : Bool)
    {packet : Bytes} {peerAddr : SockAddr} (userData : Nat) (ipv4 : Ipv4 peerAddr)
    (admitted : Admitted packet peerAddr d) :
    ∃ k, d.queue.connectionQueue[k]? = some .invalid ∧
      mysockEnqueueConnection allocated packet peerAddr sockaddrInLen userData d =
        establish allocated peerAddr sockaddrInLen userData k
          { d with queue.curLen := d.queue.curLen + 1 } := by
  obtain ⟨k, found, free⟩ := inv.freeSlot admitted.room
  have unknown : ¬ ∃ r ∈ d.queue.connectionQueue, r.peerAddr = peerAddr := by
    intro known
    rcases known with ⟨r, member, same⟩
    exact admitted.unknown r member same
  have sd : d.queue.connectionQueue[k]?.map ConnectRequest.sd = some (-1) := by
    rw [free]
    rfl
  refine ⟨k, free, ?_⟩
  unfold mysockEnqueueConnection
  rw [if_pos admitted.syn, inv.retransmission ipv4, decide_eq_false unknown]
  simp only [bind, Except.bind, Bool.false_eq_true, if_false]
  rw [if_pos admitted.room, found]
  simp only
  rw [if_pos sd]

/-- A packet that is not admitted is dropped at once. -/
theorem QueueInv.enqueue_refused (inv : QueueInv slots d.globalCtx d.queue) (allocated : Bool)
    {packet : Bytes} {peerAddr : SockAddr} (userData : Nat) (ipv4 : Ipv4 peerAddr)
    (refused : ¬ Admitted packet peerAddr d) :
    mysockEnqueueConnection allocated packet peerAddr sockaddrInLen userData d =
      .ok (false, d) := by
  unfold mysockEnqueueConnection
  by_cases syn : isSyn packet = true
  · rw [if_pos syn, inv.retransmission ipv4]
    by_cases known : ∃ r ∈ d.queue.connectionQueue, r.peerAddr = peerAddr
    · rw [decide_eq_true known]
      rfl
    · have full : ¬ d.queue.curLen < d.queue.maxLen := by
        intro room
        exact refused ⟨syn, fun r member same => known ⟨r, member, same⟩, room⟩
      rw [decide_eq_false known]
      simp only [bind, Except.bind, Bool.false_eq_true, if_false]
      rw [if_neg full]
      rfl
  · rw [if_neg syn]
    rfl

/-- A packet that cannot be queued leaves everything as it was, also where the slot had been
found already. -/
theorem QueueInv.enqueue_dropped (inv : QueueInv slots d.globalCtx d.queue)
    {packet : Bytes} {peerAddr : SockAddr} (userData : Nat) (ipv4 : Ipv4 peerAddr)
    (not : ¬ Queueable packet peerAddr d) :
    mysockEnqueueConnection true packet peerAddr sockaddrInLen userData d = .ok (false, d) := by
  by_cases admitted : Admitted packet peerAddr d
  · have full : freeDescriptor d.globalCtx = none :=
      freeDescriptor_none fun free => not ⟨admitted, free⟩
    obtain ⟨k, free, enqueued⟩ := inv.enqueue_eq true userData ipv4 admitted
    have cleared : d.queue.connectionQueue.set k .invalid = d.queue.connectionQueue := by
      obtain ⟨bound, empty⟩ := List.getElem?_eq_some_iff.mp free
      rw [← empty, List.set_getElem_self]
    rw [enqueued]
    unfold establish mysockNewMysocket
    rw [if_pos rfl, full]
    simp only [bind, Except.bind]
    rw [if_pos (by decide), cleared]
    rfl
  · exact inv.enqueue_refused true userData ipv4 admitted

/-- A packet that can be queued gets a free slot and a descriptor that was not in use. -/
theorem QueueInv.enqueue_queued (inv : QueueInv slots d.globalCtx d.queue)
    {packet : Bytes} {peerAddr : SockAddr} (userData : Nat) (ipv4 : Ipv4 peerAddr)
    (able : Queueable packet peerAddr d) :
    ∃ k n : Nat, d.queue.connectionQueue[k]? = some .invalid ∧ d.globalCtx[n]? = some false ∧
      freeDescriptor d.globalCtx = some n ∧
      mysockEnqueueConnection true packet peerAddr sockaddrInLen userData d = .ok (true, {
        queue := { d.queue with
          connectionQueue := d.queue.connectionQueue.set k ⟨peerAddr, sockaddrInLen, n, userData⟩
          curLen := d.queue.curLen + 1 }
        globalCtx := d.globalCtx.set n true
        newSocket := -1 }) := by
  obtain ⟨n, descriptor, unused⟩ := freeDescriptor_some able.descriptor
  obtain ⟨k, free, enqueued⟩ := inv.enqueue_eq true userData ipv4 able.toAdmitted
  refine ⟨k, n, free, unused, descriptor, ?_⟩
  rw [enqueued]
  unfold establish mysockNewMysocket
  rw [if_pos rfl, descriptor]
  simp only [bind, Except.bind]
  rw [if_neg (by omega)]
  rfl

/-- Without a context, an admitted packet ends in the assertion of the allocation. -/
theorem QueueInv.enqueue_unallocated (inv : QueueInv slots d.globalCtx d.queue)
    {packet : Bytes} {peerAddr : SockAddr} (userData : Nat) (ipv4 : Ipv4 peerAddr)
    (admitted : Admitted packet peerAddr d) :
    mysockEnqueueConnection false packet peerAddr sockaddrInLen userData d =
      .error .connectionContext := by
  obtain ⟨k, _, enqueued⟩ := inv.enqueue_eq false userData ipv4 admitted
  rw [enqueued]
  rfl

/-- Everything that a packet can do: it is dropped and leaves no trace, there is no context for
it, or it gets a free slot and a free descriptor. -/
theorem QueueInv.enqueue_cases (inv : QueueInv slots d.globalCtx d.queue) (allocated : Bool)
    (packet : Bytes) {peerAddr : SockAddr} (userData : Nat) (ipv4 : Ipv4 peerAddr) :
    ¬ Queueable packet peerAddr d ∧
        mysockEnqueueConnection allocated packet peerAddr sockaddrInLen userData d =
          .ok (false, d) ∨
      allocated = false ∧
        mysockEnqueueConnection allocated packet peerAddr sockaddrInLen userData d =
          .error .connectionContext ∨
      allocated = true ∧ Queueable packet peerAddr d := by
  by_cases admitted : Admitted packet peerAddr d
  · cases allocated with
    | false => exact .inr (.inl ⟨rfl, inv.enqueue_unallocated userData ipv4 admitted⟩)
    | true =>
        by_cases able : Queueable packet peerAddr d
        · exact .inr (.inr ⟨rfl, able⟩)
        · exact .inl ⟨able, inv.enqueue_dropped userData ipv4 able⟩
  · have refused := inv.enqueue_refused allocated userData ipv4 admitted
    exact .inl ⟨fun able => admitted able.toAdmitted, refused⟩

/-! ### Completed connections -/

/-- A completed connection is appended to the list. -/
theorem QueueInv.append (inv : QueueInv slots globalCtx q) {k : Nat} {r : ConnectRequest}
    (found : q.connectionQueue[k]? = some r) (used : r.occupied = true)
    (new : k ∉ q.completedQueue) :
    QueueInv slots globalCtx { q with completedQueue := q.completedQueue ++ [k] } :=
  { inv with
    completedNodup := by
      rw [List.nodup_append]
      refine ⟨inv.completedNodup, List.nodup_singleton k, ?_⟩
      intro i member j last same
      rw [List.mem_singleton] at last
      rw [same, last] at member
      exact new member
    completedUsed := by
      intro i member
      rcases List.mem_append.mp member with member | last
      · exact inv.completedUsed i member
      · rw [List.mem_singleton] at last
        exact ⟨r, by rw [last, found], used⟩ }

/-- The first completed connection is taken off the list and its slot cleared. -/
theorem QueueInv.clear (inv : QueueInv slots globalCtx q) {k : Nat} {rest : List Nat}
    {r : ConnectRequest} (first : q.completedQueue = k :: rest)
    (found : q.connectionQueue[k]? = some r) (used : r.occupied = true) :
    QueueInv slots globalCtx { q with
      connectionQueue := q.connectionQueue.set k .invalid
      curLen := q.curLen - 1
      completedQueue := rest } := by
  obtain ⟨bound, value⟩ := List.getElem?_eq_some_iff.mp found
  have nodup := inv.completedNodup
  rw [first, List.nodup_cons] at nodup
  exact {
    maxLen := inv.maxLen
    size := by rw [List.length_set, inv.size]
    count := by
      rw [List.countP_set bound, value, used, inv.count]
      simp [ConnectRequest.occupied, ConnectRequest.invalid]
    free := by
      intro s member other
      rcases List.mem_or_eq_of_mem_set member with member | cleared
      · exact inv.free s member other
      · exact cleared
    used := by
      intro s member other
      rcases List.mem_or_eq_of_mem_set member with member | rfl
      · exact inv.used s member other
      · cases other
    distinct := by
      intro i j s t atI atJ usedS usedT same
      rcases getElem?_set_cases atI with ⟨_, rfl⟩ | ⟨_, atI⟩
      · cases usedS
      · rcases getElem?_set_cases atJ with ⟨_, rfl⟩ | ⟨_, atJ⟩
        · cases usedT
        · exact inv.distinct i j s t atI atJ usedS usedT same
    completedNodup := nodup.2
    completedUsed := by
      intro i member
      have other : k ≠ i := by
        intro same
        rw [same] at nodup
        exact nodup.1 member
      obtain ⟨s, atI, usedS⟩ := inv.completedUsed i (by rw [first]; exact .tail k member)
      exact ⟨s, by rw [List.getElem?_set_ne other, atI], usedS⟩ }

/-- Writing a slot does not change the descriptors of the others. -/
theorem ListenQueue.sdsOf_set {q' : ListenQueue} {k : Nat} {r : ConnectRequest} {ks : List Nat}
    (written : q'.connectionQueue = q.connectionQueue.set k r) (others : k ∉ ks) :
    q'.sdsOf ks = q.sdsOf ks := by
  unfold ListenQueue.sdsOf
  apply List.map_congr_left
  intro i member
  have other : k ≠ i := by
    intro same
    rw [same] at others
    exact others member
  rw [written, List.getElem?_set_ne other]

/-! ### Steps -/

/-- A connection is queued. -/
theorem Backlog.Inv.queued (inv : Backlog.Inv slots x) {packet : Bytes} {peerAddr : SockAddr}
    {userData : Nat} (ipv4 : Ipv4 peerAddr) (able : Queueable packet peerAddr x.demux) :
    ∃ y, x.step (.syn true packet peerAddr userData) = some (.ok y) ∧ y.Inv slots := by
  obtain ⟨k, n, free, unused, descriptor, enqueued⟩ :=
    inv.queue.enqueue_queued userData ipv4 able
  have fresh := mysockGetContext_eq unused
  have bound := (List.getElem?_eq_some_iff.mp unused).1
  have taken : mysockGetContext n (x.demux.globalCtx.set n true) = true :=
    mysockGetContext_eq (by rw [List.getElem?_set_self bound])
  have slot := (List.getElem?_eq_some_iff.mp free).1
  have completed : k ∉ x.demux.queue.completedQueue := by
    intro member
    obtain ⟨r, found, used⟩ := inv.queue.completedUsed k member
    exact QueueInv.ne_free free found used rfl
  rw [Backlog.step, enqueued, descriptor]
  refine ⟨_, rfl, ?_⟩
  exact {
    queue := inv.queue.fill free fresh able.unknown (fun _ used => mysockGetContext_set used)
      ⟨taken, rfl, ipv4⟩
    waitingNodup := by
      show (x.waiting ++ [(n : Int)]).Nodup
      rw [List.nodup_append]
      refine ⟨inv.waitingNodup, List.nodup_singleton _, ?_⟩
      intro sd member last isLast same
      obtain ⟨i, r, found, used, rfl, _⟩ := inv.waiting sd member
      have context := (inv.queue.used r (List.mem_of_getElem? found) used).context
      rw [same, List.mem_singleton.mp isLast, fresh] at context
      cases context
    waiting := by
      intro sd member
      rcases List.mem_append.mp member with member | last
      · obtain ⟨i, r, found, used, isSd, pending⟩ := inv.waiting sd member
        exact ⟨i, r, by rw [List.getElem?_set_ne (QueueInv.ne_free free found used), found],
          used, isSd, pending⟩
      · have isLast : sd = n := List.mem_singleton.mp last
        refine ⟨k, _, List.getElem?_set_self slot, ?_, isLast.symm, completed⟩
        rw [occupied_iff]
        show (n : Int) ≠ -1
        omega
    log := by
      show x.completed = x.accepted ++ _
      rw [inv.log]
      congr 1
      exact (ListenQueue.sdsOf_set rfl completed).symm }

/-- The queue after a packet, whether it was queued or not; the only assertion it can meet is
that of the allocation. -/
theorem Backlog.Inv.syn (inv : Backlog.Inv slots x) (allocated : Bool) (packet : Bytes)
    {peerAddr : SockAddr} (userData : Nat) (ipv4 : Ipv4 peerAddr) :
    allocated = false ∧
        x.step (.syn allocated packet peerAddr userData) = some (.error .connectionContext) ∨
      ∃ y, x.step (.syn allocated packet peerAddr userData) = some (.ok y) ∧ y.Inv slots := by
  rcases inv.queue.enqueue_cases allocated packet userData ipv4 with
    ⟨_, dropped⟩ | ⟨missing, failed⟩ | ⟨rfl, able⟩
  · refine .inr ⟨x, ?_, inv⟩
    rw [Backlog.step, dropped]
    rfl
  · refine .inl ⟨missing, ?_⟩
    rw [Backlog.step, failed]
    rfl
  · exact .inr (inv.queued ipv4 able)

/-- The slot of a connection that waits for its handshake is found by its descriptor. -/
theorem Backlog.Inv.slotOf (inv : Backlog.Inv slots x) {sd : Int} (member : sd ∈ x.waiting) :
    ∃ k r, x.demux.queue.connectionQueue.findIdx? (fun r => r.sd == sd) = some k ∧
      x.demux.queue.connectionQueue[k]? = some r ∧ r.occupied = true ∧ r.sd = sd ∧
      k ∉ x.demux.queue.completedQueue := by
  obtain ⟨k, r, found, used, isSd, pending⟩ := inv.waiting sd member
  cases search : x.demux.queue.connectionQueue.findIdx? (fun r => r.sd == sd) with
  | none =>
      have differs := List.findIdx?_eq_none_iff.mp search r (List.mem_of_getElem? found)
      rw [isSd, beq_self_eq_true] at differs
      cases differs
  | some i =>
      obtain ⟨bound, same, _⟩ := List.findIdx?_eq_some_iff_getElem.mp search
      have equal : x.demux.queue.connectionQueue[i].sd = r.sd := by
        rw [isSd]
        exact eq_of_beq same
      have usedI : x.demux.queue.connectionQueue[i].occupied = true := by
        rw [occupied_iff] at used ⊢
        rw [equal]
        exact used
      have isK := inv.queue.distinct i k _ r (List.getElem?_eq_getElem bound) found usedI used
        (.inl equal)
      exact ⟨k, r, by rw [isK], found, used, isSd, pending⟩

theorem Backlog.Inv.complete (inv : Backlog.Inv slots x) {sd : Int} (member : sd ∈ x.waiting) :
    ∃ y, x.step (.complete sd) = some (.ok y) ∧ y.Inv slots := by
  obtain ⟨k, r, search, found, used, isSd, pending⟩ := inv.slotOf member
  rw [Backlog.step, mysockPassiveConnectionComplete, search]
  refine ⟨_, rfl, ?_⟩
  exact {
    queue := inv.queue.append found used pending
    waitingNodup := inv.waitingNodup.erase sd
    waiting := by
      intro sd' member'
      obtain ⟨other, member'⟩ := inv.waitingNodup.mem_erase_iff.mp member'
      obtain ⟨i, s, atI, usedS, isSd', pendingI⟩ := inv.waiting sd' member'
      refine ⟨i, s, atI, usedS, isSd', ?_⟩
      intro appended
      rcases List.mem_append.mp appended with old | last
      · exact pendingI old
      · rw [List.mem_singleton.mp last, found] at atI
        rw [← isSd', ← Option.some.inj atI, isSd] at other
        exact other rfl
    log := by
      show x.completed ++ [sd] = x.accepted ++ (x.demux.queue.completedQueue ++ [k]).map _
      rw [inv.log, List.map_append, List.append_assoc]
      congr 2
      rw [List.map_singleton, found, ← isSd]
      rfl }

/-- `myaccept` waits, or hands out the first completed connection. -/
theorem Backlog.Inv.accept (inv : Backlog.Inv slots x) :
    x.step .accept = none ∧ x.demux.queue.completedQueue = [] ∨
      ∃ y, x.step .accept = some (.ok y) ∧ y.Inv slots := by
  rw [Backlog.step, mysockDequeueConnection]
  cases first : x.demux.queue.completedQueue with
  | nil => exact .inl ⟨rfl, rfl⟩
  | cons k rest =>
      obtain ⟨r, found, used⟩ := inv.queue.completedUsed k (by rw [first]; exact .head rest)
      have member := List.mem_of_getElem? found
      have counted : 0 < x.demux.queue.curLen := by
        rw [inv.queue.count, List.countP_pos_iff]
        exact ⟨r, member, used⟩
      have nodup := inv.queue.completedNodup
      rw [first, List.nodup_cons] at nodup
      simp only
      rw [found]
      simp only
      rw [if_pos (inv.queue.used r member used).context, if_pos counted]
      refine .inr ⟨_, rfl, ?_⟩
      exact {
        queue := inv.queue.clear first found used
        waitingNodup := inv.waitingNodup
        waiting := by
          intro sd member
          obtain ⟨i, s, atI, usedS, isSd, pending⟩ := inv.waiting sd member
          rw [first, List.mem_cons, not_or] at pending
          refine ⟨i, s, ?_, usedS, isSd, pending.2⟩
          rw [List.getElem?_set_ne (Ne.symm pending.1), atI]
        log := by
          have log := inv.log
          rw [first] at log
          show x.completed = x.accepted ++ [r.sd] ++ _
          rw [log, List.append_assoc]
          congr 1
          unfold ListenQueue.sdsOf
          rw [List.map_cons, found]
          congr 1
          exact (ListenQueue.sdsOf_set rfl nodup.1).symm }

/-- What a step of the threads can do: a new connection finds no context, `myaccept` waits, or the
step returns and keeps the invariant. -/
theorem Backlog.Inv.step (inv : Backlog.Inv slots x) {step : ListenStep}
    (allowed : step.Allowed x) :
    (∃ packet peerAddr userData, step = .syn false packet peerAddr userData ∧
        x.step step = some (.error .connectionContext)) ∨
      x.step step = none ∧ step = .accept ∧ x.demux.queue.completedQueue = [] ∨
      ∃ y, x.step step = some (.ok y) ∧ y.Inv slots := by
  cases step with
  | syn allocated packet peerAddr userData =>
      rcases inv.syn allocated packet userData allowed with ⟨rfl, failed⟩ | returned
      · exact .inl ⟨packet, peerAddr, userData, rfl, failed⟩
      · exact .inr (.inr returned)
  | complete sd => exact .inr (.inr (inv.complete allowed))
  | accept =>
      rcases inv.accept with ⟨waits, empty⟩ | accepted
      · exact .inr (.inl ⟨waits, rfl, empty⟩)
      · exact .inr (.inr accepted)
  | elsewhere globalCtx =>
      refine .inr (.inr ⟨_, rfl, ?_⟩)
      exact { inv with
        queue := { inv.queue with
          used := by
            intro r member used
            have old := inv.queue.used r member used
            exact ⟨allowed r member used, old.addrLen, old.ipv4⟩ } }

theorem Backlog.Inv.start (backlog : UInt32) (globalCtx : List Bool) (newSocket : Int) :
    (Backlog.start backlog globalCtx newSocket).Inv (backlog + 1).toNat := by
  have free : ∀ r ∈ (mysockSetBacklog backlog).connectionQueue, r = .invalid :=
    fun r member => List.eq_of_mem_replicate member
  have unused : ∀ r ∈ (mysockSetBacklog backlog).connectionQueue, r.occupied = true → False := by
    intro r member used
    rw [free r member] at used
    cases used
  exact {
    queue := {
      maxLen := rfl
      size := List.length_replicate
      count := (List.countP_eq_zero.mpr unused).symm
      free := fun r member _ => free r member
      used := fun r member used => (unused r member used).elim
      distinct := fun i j r s atI _ used _ _ =>
        (unused r (List.mem_of_getElem? atI) used).elim
      completedNodup := List.nodup_nil
      completedUsed := fun k member => absurd member List.not_mem_nil }
    waitingNodup := List.nodup_nil
    waiting := fun sd member => absurd member List.not_mem_nil
    log := rfl }

theorem Backlog.Inv.returns (inv : Backlog.Inv slots x) {step : ListenStep}
    (returned : step.Returns x y) : y.Inv slots := by
  obtain ⟨allowed, stepped⟩ := returned
  rcases inv.step allowed with ⟨_, _, _, _, failed⟩ | ⟨waits, _⟩ | ⟨z, stepped', inv'⟩
  · rw [failed] at stepped
    cases stepped
  · rw [waits] at stepped
    cases stepped
  · rw [stepped'] at stepped
    cases stepped
    exact inv'

theorem Backlog.Inv.run (inv : Backlog.Inv slots x) {steps : List ListenStep}
    (run : Path ListenStep.Returns x steps y) : y.Inv slots :=
  run.invariant (fun _ _ _ returned inv => inv.returns returned) inv

end

/-! ## What the listening socket guarantees -/

/-- The counter, the slots and the list of completed connections agree; `myaccept` hands the
completed connections out in their order and waits only if there is none left; a dropped packet
changes nothing; and no assertion fires but that of the allocation of a context. -/
structure Backlog.Consistent (backlog : UInt32) (x : Backlog) : Prop where
  count : x.demux.queue.curLen = x.demux.queue.connectionQueue.countP (fun r => r.sd != -1)
  bound : x.demux.queue.curLen ≤ backlog.toNat + 1
  distinct : ∀ (i j : Nat) (r s : ConnectRequest),
    x.demux.queue.connectionQueue[i]? = some r → x.demux.queue.connectionQueue[j]? = some s →
    r.sd ≠ -1 → s.sd ≠ -1 → r.sd = s.sd ∨ r.peerAddr = s.peerAddr → i = j
  completedNodup : x.demux.queue.completedQueue.Nodup
  completedUsed : ∀ k ∈ x.demux.queue.completedQueue, ∃ r,
    x.demux.queue.connectionQueue[k]? = some r ∧ r.sd ≠ -1
  inOrder : x.completed = x.accepted ++ x.demux.queue.sdsOf x.demux.queue.completedQueue
  waits : x.step .accept = none → x.accepted = x.completed
  dropped : ∀ (allocated : Bool) (packet : Bytes) (peerAddr : SockAddr) (userData : Nat)
    (d : Demux), Ipv4 peerAddr →
    mysockEnqueueConnection allocated packet peerAddr sockaddrInLen userData x.demux =
      .ok (false, d) → d = x.demux
  asserts : ∀ (step : ListenStep) (a : Assertion), step.Allowed x → x.step step = some (.error a) →
    a = .connectionContext ∧ ∃ packet peerAddr userData, step = .syn false packet peerAddr userData

theorem Backlog.Inv.consistent {backlog : UInt32} {x : Backlog}
    (inv : x.Inv (backlog + 1).toNat) : x.Consistent backlog where
  count := inv.queue.count
  bound := by
    have counted := List.countP_le_length (p := ConnectRequest.occupied)
      (l := x.demux.queue.connectionQueue)
    have wrapped := Nat.mod_le (backlog.toNat + 1) (2 ^ 32)
    rw [← inv.queue.count, inv.queue.size, UInt32.toNat_add] at counted
    exact Nat.le_trans counted wrapped
  distinct := fun i j r s atI atJ usedR usedS same =>
    inv.queue.distinct i j r s atI atJ (occupied_iff.mpr usedR) (occupied_iff.mpr usedS) same
  completedNodup := inv.queue.completedNodup
  completedUsed := by
    intro k member
    obtain ⟨r, found, used⟩ := inv.queue.completedUsed k member
    exact ⟨r, found, occupied_iff.mp used⟩
  inOrder := inv.log
  waits := by
    intro waits
    rcases inv.accept with ⟨_, empty⟩ | ⟨y, accepted, _⟩
    · rw [inv.log, empty]
      exact (List.append_nil x.accepted).symm
    · rw [accepted] at waits
      cases waits
  dropped := by
    intro allocated packet peerAddr userData d ipv4 dropped
    rcases inv.queue.enqueue_cases allocated packet userData ipv4 with
      ⟨_, unchanged⟩ | ⟨_, failed⟩ | ⟨rfl, able⟩
    · rw [unchanged] at dropped
      cases dropped
      rfl
    · rw [failed] at dropped
      cases dropped
    · obtain ⟨k, n, _, _, _, queued⟩ := inv.queue.enqueue_queued userData ipv4 able
      rw [queued] at dropped
      cases dropped
  asserts := by
    intro step a allowed fired
    rcases inv.step allowed with ⟨packet, peerAddr, userData, isSyn, failed⟩ | ⟨waits, _⟩ |
      ⟨y, returned, _⟩
    · rw [failed] at fired
      cases fired
      exact ⟨rfl, packet, peerAddr, userData, isSyn⟩
    · rw [waits] at fired
      cases fired
    · rw [returned] at fired
      cases fired

/-- In every state that the threads can bring a listening socket to, whatever arrives, the queue
is consistent. -/
theorem listen_queue_consistent (backlog : UInt32) (globalCtx : List Bool) (newSocket : Int)
    (steps : List ListenStep) (x : Backlog)
    (run : Path ListenStep.Returns (Backlog.start backlog globalCtx newSocket) steps x) :
    x.Consistent backlog := by
  have start := Backlog.Inv.start backlog globalCtx newSocket
  exact (start.run run).consistent

/-- A SYN of 20 bytes. -/
def synPacket : Bytes := List.replicate 13 0 ++ [thSyn] ++ List.replicate 6 0

/-- The address with the last byte `host`. -/
def peerAt (host : UInt8) : SockAddr := [2, 0, 4, 210, 10, 0, 0, host] ++ List.replicate 8 0

/-- Two peers connect, a third finds the queue full, and the second is accepted. -/
def twoPeers : List ListenStep :=
  [.syn true synPacket (peerAt 1) 0, .syn true synPacket (peerAt 2) 0,
    .syn true synPacket (peerAt 3) 0, .complete 2, .complete 1, .accept]

def afterTwoPeers : Backlog where
  demux := {
    queue := {
      maxLen := 2
      curLen := 1
      connectionQueue := [⟨peerAt 1, sockaddrInLen, 1, 0⟩, .invalid]
      completedQueue := [0] }
    globalCtx := [true, true, true, false]
    newSocket := -1 }
  completed := [2, 1]
  accepted := [2]

theorem listen_queue_consistent_twoPeers : afterTwoPeers.Consistent 1 := by
  have ran : follow (afterAllowed ListenStep.Allowed Backlog.step)
      (Backlog.start 1 [true, false, false, false] (-1)) twoPeers = some afterTwoPeers := by
    decide +kernel
  exact listen_queue_consistent 1 [true, false, false, false] (-1) twoPeers afterTwoPeers
    (Path.of_follow_allowed ran)

end CompNet.Stcp
