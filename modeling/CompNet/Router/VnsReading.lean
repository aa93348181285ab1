import CompNet.Proxy.Interrupts
import CompNet.Router.VnsMessages

/-!
# Reading from the VNS server

The two loops of `sr_read_from_server_expect`, which read the length of a message and
its body.  They are left when the bytes they wait for are there, or on an error; a
call that returns 0, as each does after the end of the stream, is none, and the loop
calls again.  `messageReturns_iff` says for which streams the function returns.
-/

namespace CompNet.Router

open CompNet.Lib
open CompNet.Proxy (recv recv_brings recv_interrupted)

/-! ## Loops -/

/-- What one of the loops ends with. -/
inductive Reading
  | done (bytes : Bytes) (rest : List Proxy.Arrival)
  | failed
  deriving DecidableEq, Repr

/-- A loop that waits for `need` bytes and has those of `got`.  An interrupted call is
repeated, and so is one that returns 0. -/
def readLoop : Nat → Nat → List Proxy.Arrival → Bytes → Option Reading
  | 0, _, _, _ => none
  | fuel + 1, need, arrivals, got =>
      if need ≤ got.length then some (.done got arrivals)
      else
        match recv (need - got.length) arrivals with
        | (.bytes more, rest) => readLoop fuel need rest (got ++ more)
        | (.interrupted, rest) => readLoop fuel need rest got
        | (.failed, _) => some .failed

/-- The `int` that the first four bytes of a message are. -/
def lengthOf (b : Bytes) : Int := (ntohl b : Int).bmod (2 ^ 32)

/-- `sr_read_from_server_expect`, with what is still to come behind the message. -/
def srReadFromServerExpect (malloc : Nat → Option Bytes) (env : VnsEnv) (expected fuel : Nat)
    (arrivals : List Proxy.Arrival) :
    Option (Except Fault (Int × Served) × List Proxy.Arrival) := do
  match ← readLoop fuel 4 arrivals [] with
  | .failed => some (.ok (-1, .nothing), [])
  | .done first rest =>
      if lengthOf first > 10000 ∨ lengthOf first < 0 then some (.ok (-1, .nothing), rest)
      else
        match malloc (lengthOf first).toNat with
        | none => some (.ok (-1, .nothing), rest)
        | some mem =>
            match ← readLoop fuel ((lengthOf first).toNat - 4) rest [] with
            | .failed => some (.ok (-1, .nothing), [])
            | .done body rest => some (srServeMessage env expected mem body, rest)

/-- Short reads and interrupted calls, and then the end of the stream. -/
def ShortReads (arrivals : List Proxy.Arrival) : Prop :=
  ∀ arrival ∈ arrivals, arrival = .interrupted ∨ ∃ bytes ≠ [], arrival = .chunk bytes

/-- The bytes of a schedule. -/
def stream (arrivals : List Proxy.Arrival) : Bytes := arrivals.flatMap Proxy.Arrival.brings

/-- A bound on the calls before the end of the stream. -/
def work (arrivals : List Proxy.Arrival) : Nat := (arrivals.map Proxy.Arrival.work).sum

theorem ShortReads.tail {arrival : Proxy.Arrival} {arrivals : List Proxy.Arrival}
    (short : ShortReads (arrival :: arrivals)) : ShortReads arrivals :=
  fun other member => short other (List.mem_cons_of_mem arrival member)

/-- One call before the end of the stream. -/
theorem recv_shortReads {arrivals : List Proxy.Arrival} (short : ShortReads arrivals) {room : Nat}
    (wanted : 0 < room) (more : arrivals ≠ []) :
    ∃ rest, ShortReads rest ∧ work rest < work arrivals ∧
      ((∃ bytes, recv room arrivals = (.bytes bytes, rest) ∧ bytes.length ≤ room ∧
          stream arrivals = bytes ++ stream rest) ∨
        (recv room arrivals = (.interrupted, rest) ∧ stream arrivals = stream rest)) := by
  obtain ⟨arrival, arrivals, rfl⟩ := List.exists_cons_of_ne_nil more
  rcases short arrival List.mem_cons_self with rfl | ⟨bytes, some, rfl⟩
  · exact ⟨arrivals, short.tail, by simp [work, Proxy.Arrival.work], .inr ⟨rfl, rfl⟩⟩
  · by_cases long : room < bytes.length
    · have cut : recv room (.chunk bytes :: arrivals) =
          (.bytes (bytes.take room), .chunk (bytes.drop room) :: arrivals) := if_pos long
      refine ⟨.chunk (bytes.drop room) :: arrivals, ?_, ?_, .inl ⟨_, cut, ?_, recv_brings cut⟩⟩
      · intro other member
        rcases List.mem_cons.mp member with rfl | member
        · refine .inr ⟨bytes.drop room, fun none => ?_, rfl⟩
          have ends := List.drop_eq_nil_iff.mp none
          omega
        · exact short.tail other member
      · simp only [work, List.map_cons, List.sum_cons, Proxy.Arrival.work, List.length_drop]
        omega
      · rw [List.length_take]
        exact Nat.min_le_left _ _
    · have whole : recv room (.chunk bytes :: arrivals) = (.bytes bytes, arrivals) := if_neg long
      refine ⟨arrivals, short.tail, ?_, .inl ⟨bytes, whole, by omega, recv_brings whole⟩⟩
      simp [work, Proxy.Arrival.work]

/-- At the end of the stream nothing changes any more. -/
theorem readLoop_spins {need : Nat} {arrivals : List Proxy.Arrival} {got : Bytes}
    (short : ShortReads arrivals) (few : got.length + (stream arrivals).length < need)
    (fuel : Nat) : readLoop fuel need arrivals got = none := by
  induction fuel generalizing arrivals got with
  | zero => rfl
  | succ fuel ih =>
      rw [readLoop, if_neg (by omega)]
      by_cases ended : arrivals = []
      · subst ended
        rw [recv]
        exact ih short (by rwa [List.append_nil])
      · obtain ⟨rest, later, -, ⟨bytes, read, -, split⟩ | ⟨read, split⟩⟩ :=
          recv_shortReads short (show 0 < need - got.length by omega) ended
        · rw [read]
          apply ih later
          rw [split, List.length_append] at few
          rw [List.length_append]
          omega
        · rw [read]
          rw [split] at few
          exact ih later few

/-- A loop whose bytes come has them after as many calls as the schedule has work for. -/
theorem readLoop_done {need fuel : Nat} {arrivals : List Proxy.Arrival} {got : Bytes}
    (short : ShortReads arrivals) (le : got.length ≤ need)
    (enough : need ≤ got.length + (stream arrivals).length) (calls : work arrivals < fuel) :
    ∃ front rest, readLoop fuel need arrivals got = some (.done (got ++ front) rest) ∧
      (got ++ front).length = need ∧ stream arrivals = front ++ stream rest ∧
      ShortReads rest ∧ work rest ≤ work arrivals := by
  induction fuel generalizing arrivals got with
  | zero => omega
  | succ fuel ih =>
      rw [readLoop]
      by_cases complete : need ≤ got.length
      · rw [if_pos complete]
        refine ⟨[], arrivals, by rw [List.append_nil], ?_, rfl, short, Nat.le_refl _⟩
        rw [List.append_nil]
        omega
      · rw [if_neg complete]
        have more : arrivals ≠ [] := by
          rintro rfl
          exact complete enough
        obtain ⟨rest, later, less, ⟨bytes, read, room, split⟩ | ⟨read, split⟩⟩ :=
          recv_shortReads short (show 0 < need - got.length by omega) more
        · rw [read]
          rw [split, List.length_append] at enough
          obtain ⟨front, behind, run, size, whole, good, fewer⟩ :=
            @ih rest (got ++ bytes) later (by rw [List.length_append]; omega)
              (by rw [List.length_append]; omega) (by omega)
          rw [List.append_assoc] at run size
          refine ⟨bytes ++ front, behind, run, size, ?_, good, by omega⟩
          rw [split, whole, List.append_assoc]
        · rw [read]
          rw [split] at enough
          obtain ⟨front, behind, run, size, whole, good, fewer⟩ :=
            ih later le enough (by omega)
          exact ⟨front, behind, run, size, split.trans whole, good, by omega⟩

theorem readLoop_mono {need fuel : Nat} {arrivals : List Proxy.Arrival} {got : Bytes}
    {reading : Reading} (run : readLoop fuel need arrivals got = some reading) (k : Nat) :
    readLoop (fuel + k) need arrivals got = some reading := by
  induction fuel generalizing arrivals got with
  | zero => cases run
  | succ fuel ih =>
      rw [Nat.add_right_comm, readLoop]
      rw [readLoop] at run
      split at run
      · next complete => rwa [if_pos complete]
      · next more =>
          rw [if_neg more]
          cases call : recv (need - got.length) arrivals with
          | mk heard rest =>
              rw [call] at run
              cases heard with
              | bytes bytes => exact ih run
              | interrupted => exact ih run
              | failed => exact run

/-- What a loop returns, it returns after so many calls. -/
theorem readLoop_sound {need fuel : Nat} {arrivals : List Proxy.Arrival} {reading : Reading}
    (short : ShortReads arrivals) (run : readLoop fuel need arrivals [] = some reading) :
    ∃ rest, reading = .done ((stream arrivals).take need) rest ∧
      stream rest = (stream arrivals).drop need ∧ need ≤ (stream arrivals).length ∧
      ShortReads rest := by
  have enough : need ≤ (stream arrivals).length := by
    by_contra few
    rw [readLoop_spins short (by rw [List.length_nil]; omega)] at run
    cases run
  obtain ⟨front, rest, run', size, whole, good, -⟩ :=
    @readLoop_done need (fuel + (work arrivals + 1)) arrivals [] short (Nat.zero_le _)
      (by rw [List.length_nil]; omega) (by omega)
  rw [readLoop_mono run, Option.some.injEq, List.nil_append] at run'
  rw [List.nil_append] at size
  refine ⟨rest, ?_, ?_, enough, good⟩
  · rw [run', whole, List.take_left' size]
  · rw [whole, List.drop_left' size]

/-! ## Messages -/

/-- The stream has a length, and as many bytes as it says unless it is refused. -/
def Completes (malloc : Nat → Option Bytes) (bytes : Bytes) : Prop :=
  4 ≤ bytes.length ∧
    (0 ≤ lengthOf (bytes.take 4) → lengthOf (bytes.take 4) ≤ 10000 →
      malloc (lengthOf (bytes.take 4)).toNat ≠ none → lengthOf (bytes.take 4) ≤ bytes.length)

/-- The function returns after finitely many calls. -/
def MessageReturns (malloc : Nat → Option Bytes) (env : VnsEnv) (expected : Nat)
    (arrivals : List Proxy.Arrival) : Prop :=
  ∃ fuel result, srReadFromServerExpect malloc env expected fuel arrivals = some result

section

variable {malloc : Nat → Option Bytes} {env : VnsEnv} {expected fuel : Nat}
  {arrivals rest behind : List Proxy.Arrival} {front mem body : Bytes}
  (first : readLoop fuel 4 arrivals [] = some (.done front rest))
include first

theorem srReadFromServerExpect_refused
    (refused : lengthOf front > 10000 ∨ lengthOf front < 0) :
    srReadFromServerExpect malloc env expected fuel arrivals =
      some (.ok (-1, .nothing), rest) := by
  rw [srReadFromServerExpect, first, Option.bind_eq_bind, Option.bind_some]
  exact if_pos refused

variable (accepted : ¬ (lengthOf front > 10000 ∨ lengthOf front < 0))
include accepted

theorem srReadFromServerExpect_noMemory (memory : malloc (lengthOf front).toNat = none) :
    srReadFromServerExpect malloc env expected fuel arrivals =
      some (.ok (-1, .nothing), rest) := by
  rw [srReadFromServerExpect, first, Option.bind_eq_bind, Option.bind_some]
  dsimp only
  rw [if_neg accepted, memory]

/-- The message is served with the body that its length announces. -/
theorem srReadFromServerExpect_served (memory : malloc (lengthOf front).toNat = some mem)
    (second : readLoop fuel ((lengthOf front).toNat - 4) rest [] = some (.done body behind)) :
    srReadFromServerExpect malloc env expected fuel arrivals =
      some (srServeMessage env expected mem body, behind) := by
  rw [srReadFromServerExpect, first, Option.bind_eq_bind, Option.bind_some]
  dsimp only
  rw [if_neg accepted, memory]
  dsimp only
  rw [second, Option.bind_some]

end

section

variable {malloc : Nat → Option Bytes} {env : VnsEnv} {expected : Nat}
  {arrivals : List Proxy.Arrival} (short : ShortReads arrivals)
include short

theorem MessageReturns.completes (returns : MessageReturns malloc env expected arrivals) :
    Completes malloc (stream arrivals) := by
  obtain ⟨fuel, result, run⟩ := returns
  rw [srReadFromServerExpect] at run
  obtain ⟨reading, first, run⟩ := Option.bind_eq_some_iff.mp run
  obtain ⟨rest, rfl, behind, enough, later⟩ := readLoop_sound short first
  refine ⟨enough, fun notNegative small memory => ?_⟩
  have accepted : ¬ (lengthOf ((stream arrivals).take 4) > 10000 ∨
      lengthOf ((stream arrivals).take 4) < 0) := by
    omega
  obtain ⟨mem, allocated⟩ := Option.ne_none_iff_exists'.mp memory
  simp only [if_neg accepted, allocated] at run
  obtain ⟨reading, second, -⟩ := Option.bind_eq_some_iff.mp run
  obtain ⟨-, -, -, body, -⟩ := readLoop_sound later second
  rw [behind, List.length_drop] at body
  omega

theorem Completes.returns (completes : Completes malloc (stream arrivals)) :
    MessageReturns malloc env expected arrivals := by
  obtain ⟨enough, body⟩ := completes
  obtain ⟨front, rest, first, size, whole, later, fewer⟩ :=
    @readLoop_done 4 (work arrivals + 1) arrivals [] short (Nat.zero_le _)
      (by rw [List.length_nil]; omega) (by omega)
  rw [List.nil_append] at first size
  have length : (stream arrivals).take 4 = front := by rw [whole, List.take_left' size]
  have total := congrArg List.length whole
  rw [List.length_append] at total
  rw [length] at body
  by_cases refused : lengthOf front > 10000 ∨ lengthOf front < 0
  · exact ⟨_, _, srReadFromServerExpect_refused first refused⟩
  · cases memory : malloc (lengthOf front).toNat with
    | none => exact ⟨_, _, srReadFromServerExpect_noMemory first refused memory⟩
    | some mem =>
        have there := body (by omega) (by omega) (by simp [memory])
        obtain ⟨text, behind, second, -⟩ :=
          @readLoop_done ((lengthOf front).toNat - 4) (work arrivals + 1) rest [] later
            (Nat.zero_le _) (by rw [List.length_nil]; omega) (by omega)
        exact ⟨_, _, srReadFromServerExpect_served first refused memory second⟩

end

/-- Reading ends if and only if the stream does not end in front of a message, in its length
or in the body it announces. -/
theorem messageReturns_iff (malloc : Nat → Option Bytes) (env : VnsEnv) (expected : Nat)
    {arrivals : List Proxy.Arrival} (short : ShortReads arrivals) :
    MessageReturns malloc env expected arrivals ↔ Completes malloc (stream arrivals) :=
  ⟨MessageReturns.completes short, Completes.returns short⟩

/-- A message that closes the session, cut inside its length and its body. -/
def cutBye : List Proxy.Arrival :=
  [.chunk [0, 0], .interrupted, .chunk ([0, 12] ++ byeBody.take 5), .chunk (byeBody.drop 5)]

theorem messageReturns_iff_cutBye :
    MessageReturns (fun n => some (List.replicate n 0)) oneInterfaceEnv 0 cutBye ↔
      Completes (fun n => some (List.replicate n 0)) (stream cutBye) :=
  messageReturns_iff _ _ _ fun arrival member => by
    simp only [cutBye, List.mem_cons, List.not_mem_nil, or_false] at member
    rcases member with rfl | rfl | rfl | rfl
    · exact .inr ⟨_, by decide, rfl⟩
    · exact .inl rfl
    · exact .inr ⟨_, by decide, rfl⟩
    · exact .inr ⟨_, by decide, rfl⟩

/-- The stream ends between messages, inside a length, and inside the body of a message of
twelve bytes. -/
theorem endOfStream_spins :
    ¬ MessageReturns (fun n => some (List.replicate n 0)) oneInterfaceEnv 0 [] ∧
      ¬ MessageReturns (fun n => some (List.replicate n 0)) oneInterfaceEnv 0 [.chunk [0]] ∧
      ¬ MessageReturns (fun n => some (List.replicate n 0)) oneInterfaceEnv 0
        [.chunk ([0, 0, 0, 12] ++ byeBody.take 5)] := by
  have one : ∀ bytes : Bytes, bytes ≠ [] → ShortReads [.chunk bytes] := by
    intro bytes some arrival member
    rw [List.mem_singleton] at member
    exact .inr ⟨bytes, some, member⟩
  refine ⟨fun returns => ?_, fun returns => ?_, fun returns => ?_⟩
  · have completes := returns.completes fun arrival member => absurd member List.not_mem_nil
    exact absurd completes.1 (by decide)
  · have completes := returns.completes (one _ (by decide))
    exact absurd completes.1 (by decide)
  · have completes := returns.completes (one _ (by decide))
    have whole := completes.2 (by decide) (by decide) (by decide)
    exact absurd whole (by decide)

end CompNet.Router
