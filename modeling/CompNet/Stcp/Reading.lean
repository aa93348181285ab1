import CompNet.Stcp.Mysock
import CompNet.Lib.Path
import Mathlib.Data.List.Induction

/-!
# Reading from a mysocket

`app_send_queue` between the transport thread, which enqueues chunks of data and end-of-file
markers, and the application, which takes them out with `myread`.  A marker is a node without
bytes, and `myread` knows it by the zero that the dequeue returns.  A buffer of length zero makes
the dequeue return zero as well, and a call takes bytes out of one node only: the first section
says when the end-of-file flag can be trusted in spite of the one, the second when the cuts
between the nodes cannot be seen in spite of the other.
-/

namespace CompNet.Stcp

open CompNet.Lib

/-! ## Enqueueing and reading -/

/-- The queue, with all that was ever enqueued and all that was ever returned. -/
structure Reading where
  sock : Mysock := {}
  enqueued : List Bytes := []
  returned : Bytes := []

/-- `_mysock_enqueue_buffer` on `app_send_queue`, or a call of `myread`. -/
inductive ReadInput
  | enqueue (node : Bytes)
  | read (bufLen : Nat)

/-- The effect of one input; `none` while `myread` blocks. -/
def Reading.input (r : Reading) : ReadInput → Option Reading
  | .enqueue node =>
      some { r with
        sock.appSendQueue := r.sock.appSendQueue ++ [node]
        enqueued := r.enqueued ++ [node] }
  | .read bufLen =>
      (myread bufLen r.sock).map fun result =>
        { r with sock := result.2, returned := r.returned ++ result.1 }

/-- The nodes before the first end-of-file marker. -/
def beforeMarker (queue : List Bytes) : List Bytes := queue.takeWhile fun node => !node.isEmpty

/-- The nodes before the first marker ever enqueued that are still in the queue: none once that
marker has left it. -/
def Reading.unread (r : Reading) : List Bytes :=
  if r.sock.appSendQueue.count [] < r.enqueued.count [] then []
  else beforeMarker r.sock.appSendQueue

/-- No byte is lost, and the end of file is reported only at the end of file. -/
structure Reading.Faithful (r : Reading) : Prop where
  bytes : r.returned ++ r.unread.flatten = (beforeMarker r.enqueued).flatten
  eof : r.sock.eof = true → [] ∈ r.enqueued ∧ r.returned = (beforeMarker r.enqueued).flatten

/-- The number of bytes that a read copies out of a node with data is not zero as an `int`, unless
these are the last bytes before a marker. -/
def Reading.Telling (r : Reading) : ReadInput → Prop
  | .enqueue _ => True
  | .read bufLen =>
      r.sock.eof = false → ∀ node rest, r.sock.appSendQueue = node :: rest → node ≠ [] →
        min bufLen node.length % 2 ^ 32 = 0 → node.length ≤ bufLen ∧ rest.head? = some []

/-! ### The queue up to the first marker -/

@[simp] theorem beforeMarker_nil : beforeMarker [] = [] := rfl

@[simp] theorem beforeMarker_marker (rest : List Bytes) : beforeMarker ([] :: rest) = [] := rfl

theorem beforeMarker_cons {node : Bytes} (rest : List Bytes) (data : node ≠ []) :
    beforeMarker (node :: rest) = node :: beforeMarker rest := by
  simp [beforeMarker, data]

theorem beforeMarker_of_marked {queue : List Bytes} (node : Bytes) (marked : [] ∈ queue) :
    beforeMarker (queue ++ [node]) = beforeMarker queue := by
  induction queue with
  | nil => cases marked
  | cons first queue ih =>
      by_cases data : first = []
      · rw [data, List.cons_append, beforeMarker_marker, beforeMarker_marker]
      · have marked : [] ∈ queue := by
          rcases List.mem_cons.mp marked with rfl | later
          · exact absurd rfl data
          · exact later
        rw [List.cons_append, beforeMarker_cons _ data, beforeMarker_cons _ data, ih marked]

theorem beforeMarker_of_unmarked {queue : List Bytes} (node : Bytes) (unmarked : [] ∉ queue) :
    (beforeMarker (queue ++ [node])).flatten = (beforeMarker queue).flatten ++ node := by
  induction queue with
  | nil => cases node <;> simp [beforeMarker]
  | cons first queue ih =>
      have data : first ≠ [] := by
        rintro rfl
        exact unmarked List.mem_cons_self
      rw [List.cons_append, beforeMarker_cons _ data, beforeMarker_cons _ data, List.flatten_cons,
        List.flatten_cons, ih fun later => unmarked (List.mem_cons_of_mem _ later),
        List.append_assoc]

/-- What a call leaves of a queue of nodes. -/
def leftOver (bufLen : Nat) (node : Bytes) (rest : List Bytes) : List Bytes :=
  if bufLen < node.length then node.drop bufLen :: rest else rest

theorem leftOver_more {bufLen : Nat} {node : Bytes} {rest : List Bytes}
    (more : bufLen < node.length) : leftOver bufLen node rest = node.drop bufLen :: rest :=
  if_pos more

theorem leftOver_all {bufLen : Nat} {node : Bytes} {rest : List Bytes}
    (all : node.length ≤ bufLen) : leftOver bufLen node rest = rest :=
  if_neg (Nat.not_lt.mpr all)

theorem drop_ne_nil {bufLen : Nat} {node : Bytes} (more : bufLen < node.length) :
    node.drop bufLen ≠ [] := by
  rw [Ne, List.drop_eq_nil_iff]
  exact Nat.not_le.mpr more

/-- What a call of `myread` does to the node at the head of the queue. -/
theorem myread_data {bufLen : Nat} {node : Bytes} {rest : List Bytes} {sock : Mysock}
    (reading : sock.eof = false) (queue : sock.appSendQueue = node :: rest) :
    myread bufLen sock = some (node.take bufLen,
      { sock with
        appSendQueue := leftOver bufLen node rest
        eof := min bufLen node.length % 2 ^ 32 == 0 }) := by
  unfold myread
  rw [reading, queue]
  by_cases more : bufLen < node.length
  · simp [dequeuePartial, more, leftOver_more]
  · have all : node.length ≤ bufLen := Nat.le_of_not_lt more
    simp [dequeuePartial, more, leftOver_all all, List.take_of_length_le all, Nat.min_eq_right all]

/-- Data taken out of the head node was in front of what stays before the first marker. -/
theorem beforeMarker_taken (bufLen : Nat) {node : Bytes} (rest : List Bytes) (data : node ≠ []) :
    node.take bufLen ++ (beforeMarker (leftOver bufLen node rest)).flatten =
      (beforeMarker (node :: rest)).flatten := by
  rw [beforeMarker_cons rest data, List.flatten_cons]
  by_cases more : bufLen < node.length
  · rw [leftOver_more more, beforeMarker_cons rest (drop_ne_nil more), List.flatten_cons,
      ← List.append_assoc, List.take_append_drop]
  · have all : node.length ≤ bufLen := Nat.le_of_not_lt more
    rw [leftOver_all all, List.take_of_length_le all]

theorem count_taken {bufLen : Nat} {node : Bytes} (rest : List Bytes) (data : node ≠ []) :
    (leftOver bufLen node rest).count [] = (node :: rest).count [] := by
  rw [List.count_cons_of_ne data]
  by_cases more : bufLen < node.length
  · rw [leftOver_more more]
    exact List.count_cons_of_ne (drop_ne_nil more)
  · rw [leftOver_all (Nat.le_of_not_lt more)]

/-! ### Every run -/

/-- The two ways a queue can stand to what was enqueued: the first marker is still to come out of
it, or it has come out and the flag is set. -/
inductive Reading.Balanced (r : Reading) : Prop
  | streaming (markers : r.sock.appSendQueue.count [] = r.enqueued.count [])
      (bytes : r.returned ++ (beforeMarker r.sock.appSendQueue).flatten =
        (beforeMarker r.enqueued).flatten)
  | ended (markers : r.sock.appSendQueue.count [] < r.enqueued.count [])
      (eof : r.sock.eof = true) (bytes : r.returned = (beforeMarker r.enqueued).flatten)

theorem Reading.Balanced.bytes {r : Reading} (balanced : r.Balanced) :
    r.returned ++ r.unread.flatten = (beforeMarker r.enqueued).flatten := by
  cases balanced with
  | streaming markers bytes =>
      rw [Reading.unread, if_neg (by rw [markers]; exact Nat.lt_irrefl _)]
      exact bytes
  | ended markers eof bytes =>
      rw [Reading.unread, if_pos markers, List.flatten_nil, List.append_nil]
      exact bytes

theorem Reading.Balanced.enqueue {r : Reading} (balanced : r.Balanced) (node : Bytes) :
    Reading.Balanced { r with
      sock.appSendQueue := r.sock.appSendQueue ++ [node]
      enqueued := r.enqueued ++ [node] } := by
  cases balanced with
  | streaming markers bytes =>
      refine .streaming (by simp [markers]) ?_
      dsimp only
      by_cases marked : [] ∈ r.enqueued
      · have queued : [] ∈ r.sock.appSendQueue := by
          rw [← List.count_pos_iff, markers, List.count_pos_iff]
          exact marked
        rw [beforeMarker_of_marked node marked, beforeMarker_of_marked node queued]
        exact bytes
      · have unqueued : [] ∉ r.sock.appSendQueue := by
          rw [← List.count_eq_zero, markers, List.count_eq_zero]
          exact marked
        rw [beforeMarker_of_unmarked node marked, beforeMarker_of_unmarked node unqueued,
          ← List.append_assoc, bytes]
  | ended markers eof bytes =>
      refine .ended (by simpa using markers) eof ?_
      have marked : [] ∈ r.enqueued :=
        List.count_pos_iff.mp (Nat.lt_of_le_of_lt (Nat.zero_le _) markers)
      dsimp only
      rw [beforeMarker_of_marked node marked]
      exact bytes

/-- Everything a call of `myread` that returns can do. -/
inductive Reading.Returns (r : Reading) (bufLen : Nat) : Reading → Prop
  | ended (eof : r.sock.eof = true) : Returns r bufLen r
  | marker {rest : List Bytes} (reading : r.sock.eof = false)
      (queue : r.sock.appSendQueue = [] :: rest) :
      Returns r bufLen { r with sock := { r.sock with appSendQueue := rest, eof := true } }
  | data {node : Bytes} {rest : List Bytes} (reading : r.sock.eof = false)
      (queue : r.sock.appSendQueue = node :: rest) (some : node ≠ []) :
      Returns r bufLen { r with
        sock :=
          { r.sock with
            appSendQueue := leftOver bufLen node rest
            eof := min bufLen node.length % 2 ^ 32 == 0 }
        returned := r.returned ++ node.take bufLen }

theorem Reading.read_cases {r r' : Reading} {bufLen : Nat}
    (step : r.input (.read bufLen) = some r') : r.Returns bufLen r' := by
  obtain ⟨⟨chunk, sock⟩, read, rfl⟩ := Option.map_eq_some_iff.mp step
  cases reading : r.sock.eof with
  | true =>
      rw [myread, if_pos reading] at read
      cases read
      simpa using .ended reading
  | false =>
      cases queue : r.sock.appSendQueue with
      | nil =>
          simp only [myread, reading, queue, dequeuePartial] at read
          cases read
      | cons node rest =>
          rw [myread_data reading queue] at read
          cases read
          by_cases some : node = []
          · subst some
            simpa [leftOver] using Returns.marker reading queue
          · exact .data reading queue some

theorem Reading.Balanced.read {r r' : Reading} {bufLen : Nat} (balanced : r.Balanced)
    (returns : r.Returns bufLen r') : r'.Balanced := by
  cases returns with
  | ended eof => exact balanced
  | marker reading queue =>
      cases balanced with
      | streaming markers bytes =>
          rw [queue, List.count_cons_self] at markers
          rw [queue, beforeMarker_marker, List.flatten_nil, List.append_nil] at bytes
          exact .ended (by dsimp only; omega) rfl bytes
      | ended markers eof bytes => exact absurd (eof.symm.trans reading) nofun
  | data reading queue some =>
      cases balanced with
      | streaming markers bytes =>
          rw [queue] at markers bytes
          refine .streaming ((count_taken _ some).trans markers) ?_
          dsimp only
          rw [List.append_assoc, beforeMarker_taken bufLen _ some]
          exact bytes
      | ended markers eof bytes => exact absurd (eof.symm.trans reading) nofun

theorem Reading.Balanced.input {r r' : Reading} {i : ReadInput} (balanced : r.Balanced)
    (step : r.input i = some r') : r'.Balanced := by
  cases i with
  | enqueue node =>
      cases step
      exact balanced.enqueue node
  | read bufLen => exact balanced.read (Reading.read_cases step)

/-- While a node with data is at the head, the first marker has not come out. -/
theorem Reading.Balanced.streaming_of_reading {r : Reading} (balanced : r.Balanced)
    (reading : r.sock.eof = false) :
    r.sock.appSendQueue.count [] = r.enqueued.count [] ∧
      r.returned ++ (beforeMarker r.sock.appSendQueue).flatten =
        (beforeMarker r.enqueued).flatten := by
  cases balanced with
  | streaming markers bytes => exact ⟨markers, bytes⟩
  | ended markers eof bytes => exact absurd (eof.symm.trans reading) nofun

theorem Reading.Faithful.enqueue {r : Reading} (faithful : r.Faithful) (balanced : r.Balanced)
    (node : Bytes) : Reading.Faithful { r with
      sock.appSendQueue := r.sock.appSendQueue ++ [node]
      enqueued := r.enqueued ++ [node] } where
  bytes := (balanced.enqueue node).bytes
  eof set := by
    obtain ⟨marked, all⟩ := faithful.eof set
    refine ⟨List.mem_append_left _ marked, ?_⟩
    dsimp only
    rw [beforeMarker_of_marked node marked]
    exact all

/-- A telling call keeps the flag true to its meaning. -/
theorem Reading.Faithful.read {r r' : Reading} {bufLen : Nat} (faithful : r.Faithful)
    (balanced : r.Balanced) (telling : r.Telling (.read bufLen))
    (returns : r.Returns bufLen r') : r'.Faithful := by
  refine ⟨(balanced.read returns).bytes, ?_⟩
  cases returns with
  | ended eof => exact faithful.eof
  | marker reading queue =>
      intro _
      obtain ⟨markers, bytes⟩ := balanced.streaming_of_reading reading
      rw [queue, List.count_cons_self] at markers
      rw [queue, beforeMarker_marker, List.flatten_nil, List.append_nil] at bytes
      exact ⟨List.count_pos_iff.mp (markers ▸ Nat.succ_pos _), bytes⟩
  | @data node rest reading queue some =>
      intro set
      obtain ⟨all, marked⟩ := telling reading node rest queue some (beq_iff_eq.mp set)
      obtain ⟨after, rfl⟩ := List.head?_eq_some_iff.mp marked
      obtain ⟨markers, bytes⟩ := balanced.streaming_of_reading reading
      rw [queue, beforeMarker_cons _ some, beforeMarker_marker, List.flatten_singleton] at bytes
      rw [queue, List.count_cons_of_ne some, List.count_cons_self] at markers
      dsimp only
      rw [List.take_of_length_le all]
      exact ⟨List.count_pos_iff.mp (markers ▸ Nat.succ_pos _), bytes⟩

/-- A call that is not telling sets the flag too early. -/
theorem Reading.telling_of_faithful {r r' : Reading} {bufLen : Nat} (balanced : r.Balanced)
    (returns : r.Returns bufLen r') (faithful : r'.Faithful) : r.Telling (.read bufLen) := by
  intro reading node rest queue some zero
  have balanced' := balanced.read returns
  cases returns with
  | ended eof => exact absurd (eof.symm.trans reading) nofun
  | marker _ marker =>
      rw [queue] at marker
      cases marker
      exact absurd rfl some
  | @data node' rest' _ queue' _ =>
      rw [queue] at queue'
      cases queue'
      obtain ⟨marked, all⟩ := faithful.eof (beq_iff_eq.mpr zero)
      obtain ⟨markers, bytes⟩ := balanced.streaming_of_reading reading
      rw [queue] at markers bytes
      rw [← bytes, ← beforeMarker_taken bufLen rest some, ← List.append_assoc,
        List.self_eq_append_right] at all
      have left : bufLen < node.length → False := by
        intro more
        rw [leftOver_more more, beforeMarker_cons _ (drop_ne_nil more), List.flatten_cons,
          List.append_eq_nil_iff] at all
        exact drop_ne_nil more all.1
      have whole : node.length ≤ bufLen := Nat.le_of_not_lt left
      rw [leftOver_all whole] at all
      refine ⟨whole, ?_⟩
      cases rest with
      | nil =>
          rw [List.count_cons_of_ne some, List.count_nil] at markers
          exact absurd marked (List.count_eq_zero.mp markers.symm)
      | cons next rest =>
          by_cases empty : next = []
          · rw [empty]
            rfl
          · rw [beforeMarker_cons _ empty, List.flatten_cons, List.append_eq_nil_iff] at all
            exact absurd all.1 empty

/-- `inputs` lead from `r` to `r'`. -/
def Reading.Run (r : Reading) (inputs : List ReadInput) (r' : Reading) : Prop :=
  Path (fun r i r' => r.input i = some r') r inputs r'

theorem Reading.Balanced.run {inputs : List ReadInput} {r : Reading}
    (run : Reading.Run {} inputs r) : r.Balanced := by
  apply Path.invariant _ run (.streaming rfl rfl)
  exact fun r i r' step balanced => balanced.input step

/-- A run is faithful in all its states exactly when all its calls are telling. -/
theorem faithful_iff_telling (inputs : List ReadInput) (r : Reading) :
    (∀ before after s, inputs = before ++ after → Reading.Run {} before s → s.Run after r →
      s.Faithful) ↔
    ∀ before i after s, inputs = before ++ i :: after → Reading.Run {} before s →
      s.Run (i :: after) r → s.Telling i := by
  constructor
  · intro faithful before i after s cut front back
    obtain ⟨t, step, rest⟩ := Path.cons_iff.mp back
    cases i with
    | enqueue node => exact trivial
    | read bufLen =>
        apply Reading.telling_of_faithful (.run front) (Reading.read_cases step)
        exact faithful (before ++ [.read bufLen]) after t (by simp [cut]) (front.snoc step) rest
  · intro telling before
    induction before using List.reverseRecOn with
    | nil =>
        intro after s cut front back
        obtain rfl := Path.nil_iff.mp front
        exact ⟨rfl, nofun⟩
    | append_singleton before i ih =>
        intro after t cut front back
        obtain ⟨s, earlier, step⟩ := Path.snoc_iff.mp front
        have cut : inputs = before ++ i :: after := by simp [cut]
        have rest : s.Run (i :: after) r := .cons step back
        have balanced := Reading.Balanced.run earlier
        have faithful := ih (i :: after) s cut earlier rest
        cases i with
        | enqueue node =>
            cases step
            exact faithful.enqueue balanced node
        | read bufLen =>
            exact faithful.read balanced (telling before _ after s cut earlier rest)
              (Reading.read_cases step)

/-- One byte is enqueued and read. -/
def oneByte : Reading := { sock := {}, enqueued := [[1]], returned := [1] }

theorem oneByte_reached : Reading.Run {} [.enqueue [1], .read 1] oneByte := Path.of_follow rfl

theorem faithful_iff_telling_oneByte :
    Reading.Run {} [.enqueue [1], .read 1] oneByte ∧ oneByte.Faithful := by
  refine ⟨oneByte_reached, ?_⟩
  apply (faithful_iff_telling _ oneByte).mpr _ _ [] oneByte rfl oneByte_reached (.nil _)
  intro before i after s cut front back
  rcases before with _ | ⟨first, before⟩
  · cases cut
    exact trivial
  · rcases before with _ | ⟨second, before⟩
    · cases cut
      obtain ⟨t, step, rest⟩ := Path.cons_iff.mp front
      obtain rfl := Path.nil_iff.mp rest
      cases step
      intro reading node rest queue some zero
      cases queue
      exact absurd zero (by decide)
    · simp at cut

/-- A call with a buffer of length zero while a byte is queued. -/
def emptyBuffer : Reading :=
  { sock := { appSendQueue := [[1]], eof := true }, enqueued := [[1]], returned := [] }

/-- It reports the end of file, and the byte is never read. -/
theorem emptyBuffer_unfaithful :
    Reading.Run {} [.enqueue [1], .read 0] emptyBuffer ∧ ¬ emptyBuffer.Faithful ∧
      ∀ bufLen, emptyBuffer.input (.read bufLen) = some emptyBuffer := by
  refine ⟨Path.of_follow rfl, ?_, fun bufLen => rfl⟩
  intro faithful
  exact absurd (faithful.eof rfl).2 (by decide)

/-! ## Cuts between the nodes -/

/-- The nodes from the first marker on. -/
def closingNodes : Option (List Bytes) → List Bytes
  | none => []
  | some after => [] :: after

/-- The bytes up to the end of file, in nodes with data, and what follows the marker if the marker
is there. -/
structure Content where
  nodes : List Bytes
  data : ∀ node ∈ nodes, node ≠ []
  closing : Option (List Bytes)

/-- The content as `app_send_queue` holds it. -/
def Content.queue (c : Content) : List Bytes := c.nodes ++ closingNodes c.closing

/-- A `size_t` stored in an `int`. -/
def intOf (length : Nat) : Int :=
  if length % 2 ^ 32 < 2 ^ 31 then (length % 2 ^ 32 : Nat) else (length % 2 ^ 32 : Nat) - 2 ^ 32

/-- What calls of `myread` return, one after the other, up to the first one that blocks: the
return value and the bytes in the buffer. -/
def readAll (sock : Mysock) : List Nat → List (Int × Bytes)
  | [] => []
  | bufLen :: bufLens =>
      match myread bufLen sock with
      | none => []
      | some (chunk, sock) => (intOf chunk.length, chunk) :: readAll sock bufLens

/-- What calls return that read a stream of bytes, closed or not: each one as much as its buffer
holds and the stream has. -/
def readStream (stream : Bytes) (closed : Bool) : List Nat → List (Int × Bytes)
  | [] => []
  | bufLen :: bufLens =>
      if stream = [] ∧ closed = false then []
      else
        ((min bufLen stream.length : Nat), stream.take bufLen) ::
          readStream (stream.drop bufLen) closed bufLens

/-- The offsets at which one node ends and the next one begins. -/
def boundaries : List Bytes → List Nat
  | [] => []
  | [_] => []
  | node :: next :: rest => node.length :: (boundaries (next :: rest)).map (node.length + ·)

/-- The calls from `offset` on have no boundary inside the range of bytes they ask for, and what
they get is counted by an `int`. -/
def Uncut (nodes : List Bytes) (offset : Nat) : List Nat → Prop
  | [] => True
  | bufLen :: bufLens =>
      (∀ cut ∈ boundaries nodes, ¬ (offset < cut ∧ cut < offset + bufLen)) ∧
        min bufLen (nodes.flatten.length - offset) < 2 ^ 31 ∧
        Uncut nodes (offset + bufLen) bufLens

/-! ### Boundaries -/

@[simp] theorem boundaries_cons_cons (node next : Bytes) (rest : List Bytes) :
    boundaries (node :: next :: rest) =
      node.length :: (boundaries (next :: rest)).map (node.length + ·) := rfl

/-- No boundary comes before the end of the first node or behind the last byte. -/
theorem boundaries_range {node : Bytes} {rest : List Bytes} {cut : Nat}
    (member : cut ∈ boundaries (node :: rest)) :
    node.length ≤ cut ∧ cut ≤ (node :: rest).flatten.length := by
  induction rest generalizing node cut with
  | nil => cases member
  | cons next rest ih =>
      rw [List.flatten_cons, List.length_append]
      rcases List.mem_cons.mp member with rfl | later
      · omega
      · obtain ⟨cut, inside, rfl⟩ := List.mem_map.mp later
        have range := ih inside
        omega

/-- Reading on from `first`, where `nodes'` is what is left of `nodes`. -/
theorem uncut_shift {nodes nodes' : List Bytes} {first offset : Nat} {bufLens : List Nat}
    (cuts : ∀ cut, 0 < cut → (cut ∈ boundaries nodes' ↔ first + cut ∈ boundaries nodes))
    (length : nodes'.flatten.length = nodes.flatten.length - first) :
    Uncut nodes (first + offset) bufLens ↔ Uncut nodes' offset bufLens := by
  induction bufLens generalizing offset with
  | nil => rfl
  | cons bufLen bufLens ih =>
      have inside : (∀ cut ∈ boundaries nodes,
          ¬ (first + offset < cut ∧ cut < first + offset + bufLen)) ↔
          ∀ cut ∈ boundaries nodes', ¬ (offset < cut ∧ cut < offset + bufLen) := by
        constructor
        · intro uncut cut member between
          exact uncut (first + cut) ((cuts cut (by omega)).mp member) (by omega)
        · intro uncut cut member between
          obtain ⟨cut, rfl⟩ : ∃ c, cut = first + c := ⟨cut - first, by omega⟩
          exact uncut cut ((cuts cut (by omega)).mpr member) (by omega)
      rw [Uncut, Uncut, inside, Nat.add_assoc, ih, length, Nat.sub_sub]

theorem boundaries_drop {bufLen : Nat} {node : Bytes} (rest : List Bytes) (cut : Nat)
    (more : bufLen < node.length) :
    cut ∈ boundaries (node.drop bufLen :: rest) ↔ bufLen + cut ∈ boundaries (node :: rest) := by
  cases rest with
  | nil => simp [boundaries]
  | cons next rest =>
      simp only [boundaries_cons_cons, List.mem_cons, List.mem_map, List.length_drop]
      constructor
      · rintro (rfl | ⟨c, member, rfl⟩)
        · exact .inl (by omega)
        · exact .inr ⟨c, member, by omega⟩
      · rintro (same | ⟨c, member, same⟩)
        · exact .inl (by omega)
        · exact .inr ⟨c, member, by omega⟩

theorem boundaries_next {node : Bytes} (rest : List Bytes) {cut : Nat} (inside : 0 < cut) :
    cut ∈ boundaries rest ↔ node.length + cut ∈ boundaries (node :: rest) := by
  cases rest with
  | nil => simp [boundaries]
  | cons next rest =>
      rw [boundaries_cons_cons, List.mem_cons, List.mem_map]
      constructor
      · intro member
        exact .inr ⟨cut, member, rfl⟩
      · rintro (same | ⟨c, member, same⟩)
        · omega
        · obtain rfl : c = cut := by omega
          exact member

theorem flatten_leftOver (bufLen : Nat) (node : Bytes) {rest : List Bytes}
    (inOne : bufLen ≤ node.length ∨ rest = []) :
    (leftOver bufLen node rest).flatten = (node :: rest).flatten.drop bufLen := by
  rw [List.flatten_cons]
  by_cases more : bufLen < node.length
  · rw [leftOver_more more, List.flatten_cons, List.drop_append_of_le_length (Nat.le_of_lt more)]
  · have all : node.length ≤ bufLen := Nat.le_of_not_lt more
    rw [leftOver_all all]
    rcases inOne with exactly | rfl
    · rw [Nat.le_antisymm exactly all, List.drop_left]
    · simp [all]

/-- A call that stays in one node leaves its successors the boundaries that they would have had. -/
theorem uncut_leftOver {bufLen : Nat} {node : Bytes} {rest : List Bytes} {bufLens : List Nat}
    (inOne : bufLen ≤ node.length ∨ rest = []) :
    Uncut (node :: rest) (0 + bufLen) bufLens ↔ Uncut (leftOver bufLen node rest) 0 bufLens := by
  rw [Nat.add_comm]
  apply uncut_shift
  · intro cut inside
    by_cases more : bufLen < node.length
    · rw [leftOver_more more]
      exact boundaries_drop rest cut more
    · have all : node.length ≤ bufLen := Nat.le_of_not_lt more
      rw [leftOver_all all]
      rcases inOne with exactly | rfl
      · rw [Nat.le_antisymm exactly all]
        exact boundaries_next rest inside
      · exact iff_of_false nofun nofun
  · rw [flatten_leftOver bufLen node inOne, List.length_drop]

/-! ### Calls one after the other -/

theorem intOf_eq_iff (length : Nat) : intOf length = (length : Int) ↔ length < 2 ^ 31 := by
  unfold intOf
  split <;> omega

/-- Only where a call gets as much as the stream has for it does it stay in one node. -/
theorem uncut_iff_inOne {bufLen : Nat} {node : Bytes} {rest : List Bytes} (some : node ≠ []) :
    (∀ cut ∈ boundaries (node :: rest), ¬ (0 < cut ∧ cut < 0 + bufLen)) ↔
      bufLen ≤ node.length ∨ rest = [] := by
  constructor
  · intro uncut
    cases rest with
    | nil => exact .inr rfl
    | cons next rest =>
        left
        by_contra beyond
        exact uncut node.length List.mem_cons_self
          ⟨List.length_pos_iff.mpr some, by omega⟩
  · rintro (short | rfl) cut member ⟨_, inside⟩
    · have range := (boundaries_range member).1
      omega
    · cases member

theorem taken_iff_inOne {bufLen : Nat} {node : Bytes} {rest : List Bytes}
    (data : ∀ next ∈ rest, next ≠ []) :
    node.take bufLen = (node :: rest).flatten.take bufLen ↔
      bufLen ≤ node.length ∨ rest = [] := by
  rw [List.flatten_cons]
  constructor
  · intro same
    by_contra beyond
    obtain ⟨beyond, others⟩ := not_or.mp beyond
    obtain ⟨next, rest, rfl⟩ := List.exists_cons_of_ne_nil others
    have some := List.length_pos_iff.mpr (data next List.mem_cons_self)
    have lengths := congrArg List.length same
    rw [List.length_take, List.length_take, List.length_append, List.flatten_cons,
      List.length_append] at lengths
    omega
  · rintro (short | rfl)
    · rw [List.take_append_of_le_length short]
    · rw [List.flatten_nil, List.append_nil]

/-- The first of several calls returns what the stream has for it exactly when it is uncut. -/
theorem first_agrees_iff {bufLen : Nat} {node : Bytes} {rest : List Bytes} (some : node ≠ [])
    (data : ∀ next ∈ rest, next ≠ []) :
    (intOf (node.take bufLen).length, node.take bufLen) =
        (((min bufLen (node :: rest).flatten.length : Nat) : Int),
          (node :: rest).flatten.take bufLen) ↔
      (∀ cut ∈ boundaries (node :: rest), ¬ (0 < cut ∧ cut < 0 + bufLen)) ∧
        min bufLen ((node :: rest).flatten.length - 0) < 2 ^ 31 := by
  rw [Prod.mk.injEq, uncut_iff_inOne some, ← taken_iff_inOne data, and_comm, Nat.sub_zero]
  apply and_congr_right
  intro same
  rw [same, List.length_take]
  exact intOf_eq_iff _

theorem uncut_nil (offset : Nat) (bufLens : List Nat) : Uncut [] offset bufLens := by
  induction bufLens generalizing offset with
  | nil => exact trivial
  | cons bufLen bufLens ih => exact ⟨nofun, by simp, ih _⟩

/-- At the end of file every call returns nothing. -/
theorem readAll_over {sock : Mysock} (eof : sock.eof = true) (bufLens : List Nat) :
    readAll sock bufLens = readStream [] true bufLens := by
  induction bufLens with
  | nil => rfl
  | cons bufLen bufLens ih =>
      rw [readAll, myread, if_pos eof, readStream, if_neg (by simp), List.drop_nil, ← ih]
      simp [intOf]

theorem readAll_data {bufLen : Nat} {node : Bytes} {rest : List Bytes} {sock : Mysock}
    (reading : sock.eof = false) (queue : sock.appSendQueue = node :: rest) (bufLens : List Nat) :
    readAll sock (bufLen :: bufLens) = (intOf (node.take bufLen).length, node.take bufLen) ::
      readAll
        { sock with
          appSendQueue := leftOver bufLen node rest
          eof := min bufLen node.length % 2 ^ 32 == 0 } bufLens := by
  rw [readAll, myread_data reading queue]

theorem leftOver_append (bufLen : Nat) (node : Bytes) (rest after : List Bytes) :
    leftOver bufLen node (rest ++ after) = leftOver bufLen node rest ++ after := by
  by_cases more : bufLen < node.length
  · rw [leftOver_more more, leftOver_more more, List.cons_append]
  · rw [leftOver_all (Nat.le_of_not_lt more), leftOver_all (Nat.le_of_not_lt more)]

theorem leftOver_data {bufLen : Nat} {node : Bytes} {rest : List Bytes}
    (data : ∀ next ∈ rest, next ≠ []) : ∀ next ∈ leftOver bufLen node rest, next ≠ [] := by
  by_cases more : bufLen < node.length
  · rw [leftOver_more more]
    intro next member
    rcases List.mem_cons.mp member with rfl | later
    · exact drop_ne_nil more
    · exact data next later
  · rw [leftOver_all (Nat.le_of_not_lt more)]
    exact data

theorem readAll_empty {sock : Mysock} {closing : Option (List Bytes)} (reading : sock.eof = false)
    (queue : sock.appSendQueue = closingNodes closing) (bufLens : List Nat) :
    readAll sock bufLens = readStream [] closing.isSome bufLens := by
  cases bufLens with
  | nil => rfl
  | cons bufLen bufLens =>
      cases closing with
      | none =>
          rw [readAll, myread, queue]
          simp [reading, closingNodes, dequeuePartial, readStream]
      | some after =>
          rw [readAll_data reading queue, readAll_over (by simp), readStream, if_neg (by simp)]
          simp [intOf]

/-- Calls see the stream and not the nodes exactly when they are uncut. -/
theorem readAll_eq_iff {closing : Option (List Bytes)} {bufLens : List Nat}
    (positive : ∀ bufLen ∈ bufLens, 0 < bufLen) {nodes : List Bytes}
    (data : ∀ node ∈ nodes, node ≠ []) {sock : Mysock} (reading : sock.eof = false)
    (queue : sock.appSendQueue = nodes ++ closingNodes closing) :
    readAll sock bufLens = readStream nodes.flatten closing.isSome bufLens ↔
      Uncut nodes 0 bufLens := by
  induction bufLens generalizing nodes sock with
  | nil => exact iff_of_true rfl trivial
  | cons bufLen bufLens ih =>
      cases nodes with
      | nil => exact iff_of_true (readAll_empty reading queue _) (uncut_nil 0 _)
      | cons node rest =>
          obtain ⟨some, data⟩ := List.forall_mem_cons.mp data
          obtain ⟨positive, later⟩ := List.forall_mem_cons.mp positive
          have notEmpty : ¬ ((node :: rest).flatten = [] ∧ closing.isSome = false) := by
            rintro ⟨empty, -⟩
            exact some (List.append_eq_nil_iff.mp empty).1
          rw [readAll_data reading queue, readStream, if_neg notEmpty, List.cons.injEq,
            first_agrees_iff some data, Uncut, and_assoc]
          apply and_congr_right
          intro uncut
          apply and_congr_right
          intro small
          have inOne := (uncut_iff_inOne some).mp uncut
          rw [uncut_leftOver inOne, ← flatten_leftOver bufLen node inOne]
          apply ih later (leftOver_data data)
          · have taken : 0 < min bufLen node.length :=
              Nat.lt_min.mpr ⟨positive, List.length_pos_iff.mpr some⟩
            have fits :
                min bufLen node.length ≤ min bufLen ((node :: rest).flatten.length - 0) := by
              rw [List.flatten_cons, List.length_append]
              omega
            rw [beq_eq_false_iff_ne]
            omega
          · exact leftOver_append bufLen node rest _

/-- A connection whose queue has this content. -/
def Content.sock (c : Content) : Mysock := { appSendQueue := c.queue }

/-- Two ways of cutting a stream into nodes look the same to a sequence of calls, and like the
stream itself, exactly when the calls are uncut in both. -/
theorem read_alike_iff {a b : Content} {bufLens : List Nat}
    (bytes : a.nodes.flatten = b.nodes.flatten)
    (closing : a.closing.isSome = b.closing.isSome)
    (positive : ∀ bufLen ∈ bufLens, 0 < bufLen) :
    (readAll a.sock bufLens = readAll b.sock bufLens ∧
      readAll a.sock bufLens = readStream a.nodes.flatten a.closing.isSome bufLens) ↔
    Uncut a.nodes 0 bufLens ∧ Uncut b.nodes 0 bufLens := by
  have first : readAll a.sock bufLens = readStream a.nodes.flatten a.closing.isSome bufLens ↔
      Uncut a.nodes 0 bufLens := readAll_eq_iff positive a.data rfl rfl
  have second : readAll b.sock bufLens = readStream b.nodes.flatten b.closing.isSome bufLens ↔
      Uncut b.nodes 0 bufLens := readAll_eq_iff positive b.data rfl rfl
  rw [← first, ← second, ← bytes, ← closing]
  constructor
  · rintro ⟨alike, stream⟩
    exact ⟨stream, alike.symm.trans stream⟩
  · rintro ⟨stream, stream'⟩
    exact ⟨stream.trans stream'.symm, stream⟩

/-- Two bytes in one node. -/
def inOneNode : Content := ⟨[[1, 2]], by decide, some []⟩

/-- The same two bytes in two nodes. -/
def inTwoNodes : Content := ⟨[[1], [2]], by decide, some []⟩

theorem read_alike_iff_byByte :
    readAll inOneNode.sock [1, 1, 1] = readAll inTwoNodes.sock [1, 1, 1] ∧
      readAll inOneNode.sock [1, 1, 1] = [(1, [1]), (1, [2]), (0, [])] := by
  have uncut : Uncut inOneNode.nodes 0 [1, 1, 1] ∧ Uncut inTwoNodes.nodes 0 [1, 1, 1] := by
    simp [Uncut, inOneNode, inTwoNodes, boundaries]
  have positive : ∀ bufLen ∈ [1, 1, 1], 0 < bufLen := by decide
  have bytes : inOneNode.nodes.flatten = inTwoNodes.nodes.flatten := rfl
  have alike := (read_alike_iff bytes rfl positive).mpr uncut
  exact ⟨alike.1, rfl⟩

/-- A call with room for both bytes gets only the first where they are in two nodes. -/
theorem inTwoNodes_cut :
    inOneNode.nodes.flatten = inTwoNodes.nodes.flatten ∧
      readAll inOneNode.sock [2] = [(2, [1, 2])] ∧ readAll inTwoNodes.sock [2] = [(1, [1])] :=
  ⟨rfl, rfl, rfl⟩

end CompNet.Stcp
