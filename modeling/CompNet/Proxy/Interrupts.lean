import Mathlib.Data.List.Infix
import CompNet.Proxy.AbsoluteUri
import CompNet.Proxy.Relay

/-!
# Interrupted calls of `recv` and `send`

Both loops of `proxy.c` go on after a call that a signal has interrupted, and both
have by then added its return value -1 to their total.  In `receive_from_socket`
the total is one short from there on and what arrives next is written one byte too
early; in `send_to_socket` the byte sent last goes out a second time.  Before the
first byte the position is in front of the buffer.  The two results say that this
happens on every schedule in which a call is interrupted while there still is
something to transfer, and on no other.
-/

namespace CompNet.Proxy

open CompNet.Lib

/-! ## Receiving -/

/-- The bytes an arrival brings. -/
def Arrival.brings : Arrival → Bytes
  | .chunk bytes => bytes
  | .interrupted => []
  | .failed => []

/-- The request ends in a blank line, which stands nowhere before. -/
def OnlyBlank (request : Bytes) : Prop :=
  crlf ++ crlf <:+ request ∧
    ∀ front, front <+: request → crlf ++ crlf <:+ front → front = request

instance (request : Bytes) : Decidable (OnlyBlank request) :=
  decidable_of_iff
    (crlf ++ crlf <:+ request ∧
      ∀ front ∈ request.inits, crlf ++ crlf <:+ front → front = request)
    (by simp only [List.mem_inits, OnlyBlank])

/-- Short reads and interrupted calls that bring the request. -/
structure Delivers (arrivals : List Arrival) (request : Bytes) : Prop where
  each : ∀ arrival ∈ arrivals, arrival = .interrupted ∨ ∃ bytes ≠ [], arrival = .chunk bytes
  whole : arrivals.flatMap Arrival.brings = request

/-- Nothing is still to come when a call is interrupted. -/
def Undisturbed (arrivals : List Arrival) : Prop :=
  ∀ before behind, arrivals = before ++ .interrupted :: behind →
    behind.flatMap Arrival.brings = []

theorem undisturbed_chunk {bytes : Bytes} {arrivals : List Arrival} :
    Undisturbed (.chunk bytes :: arrivals) ↔ Undisturbed arrivals := by
  constructor
  · intro calm before behind split
    exact calm (.chunk bytes :: before) behind (by rw [split, List.cons_append])
  · intro calm before behind split
    cases before with
    | nil => exact absurd (List.cons.inj split).1 (by simp)
    | cons first before => exact calm before behind (List.cons.inj split).2

theorem undisturbed_of_nothing {arrivals : List Arrival}
    (nothing : arrivals.flatMap Arrival.brings = []) : Undisturbed arrivals := by
  intro before behind split
  rw [split, List.flatMap_append, List.flatMap_cons] at nothing
  exact (List.append_eq_nil_iff.mp (List.append_eq_nil_iff.mp nothing).2).2

/-- One call of `recv` loses nothing. -/
theorem recv_brings {room : Nat} {arrivals rest : List Arrival} {got : Bytes}
    (data : recv room arrivals = (.bytes got, rest)) :
    arrivals.flatMap Arrival.brings = got ++ rest.flatMap Arrival.brings := by
  cases arrivals with
  | nil =>
      cases data
      rfl
  | cons arrival arrivals =>
      cases arrival with
      | chunk bytes =>
          rw [recv] at data
          split at data
          · cases data
            simp only [List.flatMap_cons, Arrival.brings]
            rw [← List.append_assoc, List.take_append_drop]
          · cases data
            rw [List.flatMap_cons, Arrival.brings]
      | interrupted => cases data
      | failed => cases data

theorem recv_interrupted {room : Nat} {arrivals rest : List Arrival}
    (stopped : recv room arrivals = (.interrupted, rest)) :
    arrivals.flatMap Arrival.brings = rest.flatMap Arrival.brings := by
  cases arrivals with
  | nil => cases stopped
  | cons arrival arrivals =>
      cases arrival with
      | chunk bytes =>
          rw [recv] at stopped
          split at stopped <;> cases stopped
      | interrupted =>
          cases stopped
          rfl
      | failed => cases stopped

/-- Whatever the loop returns counts no byte twice. -/
theorem receiveLoop_le {fuel : Nat} {arrivals : List Arrival} {total ret : Int}
    {buffer out : Bytes} (run : receiveLoop fuel arrivals total buffer = some (ret, out))
    (fine : 0 ≤ ret) : ret ≤ total + (arrivals.flatMap Arrival.brings).length := by
  induction fuel generalizing arrivals total buffer with
  | zero => cases run
  | succ fuel ih =>
      rw [receiveLoop] at run
      split at run
      · cases run
        omega
      · next rest stopped =>
          rw [recv_interrupted stopped]
          split at run
          · cases run
            omega
          · have bound := ih run
            omega
      · next got rest data =>
          rw [recv_brings data, List.length_append]
          split at run
          · cases run
            omega
          · split at run
            · cases run
            · dsimp only at run
              split at run
              · cases run
                omega
              · have bound := ih run
                omega

/-- An interrupted call makes the return value too small. -/
theorem receiveLoop_interrupted {fuel : Nat} {arrivals : List Arrival} {total ret : Int}
    {buffer out : Bytes}
    (run : receiveLoop fuel (.interrupted :: arrivals) total buffer = some (ret, out)) :
    ret < 0 ∨ ret < total + (arrivals.flatMap Arrival.brings).length := by
  cases fuel with
  | zero => cases run
  | succ fuel =>
      rw [receiveLoop, recv] at run
      split at run
      · next heard => cases heard
      · next rest heard =>
          cases heard
          split at run
          · cases run
            left
            omega
          · by_cases fine : 0 ≤ ret
            · have bound := receiveLoop_le run fine
              right
              omega
            · left
              omega
      · next heard => cases heard

/-- The loop from the state in which `front` has been received and counted. -/
theorem receiveLoop_exact_iff {request front : Bytes} {arrivals : List Arrival} {fuel : Nat}
    (only : OnlyBlank request) (fits : request.length ≤ recvBufferSize)
    (each : ∀ arrival ∈ arrivals, arrival = .interrupted ∨ ∃ bytes ≠ [], arrival = .chunk bytes)
    (whole : front ++ arrivals.flatMap Arrival.brings = request) (more : front ≠ request)
    (enough : (arrivals.map Arrival.work).sum < fuel) :
    (∃ buffer,
        receiveLoop fuel arrivals front.length front = some ((request.length : Int), buffer) ∧
          buffer.take request.length = request) ↔
      Undisturbed arrivals := by
  induction arrivals generalizing front fuel with
  | nil =>
      rw [List.flatMap_nil, List.append_nil] at whole
      exact absurd whole more
  | cons arrival arrivals ih =>
      have others := fun arrival member => each arrival (List.mem_cons_of_mem _ member)
      rcases each arrival List.mem_cons_self with rfl | ⟨bytes, some, rfl⟩
      · -- the request is not complete, so that this call counts
        rw [List.flatMap_cons, Arrival.brings, List.nil_append] at whole
        constructor
        · intro given
          rcases given with ⟨buffer, run, -⟩
          have length := congrArg List.length whole
          rw [List.length_append] at length
          have short := receiveLoop_interrupted run
          omega
        · intro calm
          have nothing := calm [] arrivals rfl
          rw [nothing, List.append_nil] at whole
          exact absurd whole more
      · rw [List.flatMap_cons, Arrival.brings, ← List.append_assoc] at whole
        rw [undisturbed_chunk]
        simp only [List.map_cons, List.sum_cons, Arrival.work] at enough
        obtain ⟨fuel, rfl⟩ : ∃ m, fuel = m + 1 := ⟨fuel - 1, by omega⟩
        have room : ¬ recvBufferSize - front.length < bytes.length := by
          have length := congrArg List.length whole
          rw [List.length_append, List.length_append] at length
          omega
        have data : recv (recvBufferSize - front.length) (.chunk bytes :: arrivals) =
            (.bytes bytes, arrivals) := if_neg room
        rw [receiveLoop_bytes some data]
        by_cases complete : front ++ bytes = request
        · rw [if_pos (by rw [complete]; exact List.isSuffixOf_iff_suffix.mpr only.1), complete]
          rw [complete] at whole
          have calm := undisturbed_of_nothing (List.append_right_eq_self.mp whole)
          apply iff_of_true _ calm
          exact ⟨request, rfl, List.take_length⟩
        · have open_ : ¬ (crlf ++ crlf).isSuffixOf (front ++ bytes) = true := by
            intro blank
            apply complete
            apply only.2 _ ⟨_, whole⟩ (List.isSuffixOf_iff_suffix.mp blank)
          rw [if_neg open_]
          exact ih others whole complete (by omega)

/-- A request of at most 2048 bytes is received exactly, with every write inside the
buffer, if and only if no call is interrupted while some of it is still to come. -/
theorem receiveFromSocket_exact_iff {request : Bytes} {arrivals : List Arrival}
    (only : OnlyBlank request) (fits : request.length ≤ recvBufferSize)
    (delivers : Delivers arrivals request) :
    (∃ buffer, receiveFromSocket arrivals = some ((request.length : Int), buffer) ∧
        buffer.take request.length = request) ↔
      Undisturbed arrivals := by
  have more : [] ≠ request := by
    intro none
    have blank := only.1.length_le
    rw [← none] at blank
    exact absurd blank (by simp [crlf])
  exact receiveLoop_exact_iff only fits delivers.each delivers.whole more (Nat.lt_succ_self _)

/-- `GET http://h/ HTTP/1.0` and a blank line. -/
def rootText : Bytes := rootRequest ++ crlf ++ crlf

/-- The text in two reads, the second of which is interrupted at first. -/
def interruptedRead : List Arrival := [.chunk get, .interrupted, .chunk (rootText.drop 3)]

theorem rootText_received :
    (∃ buffer, receiveFromSocket [.chunk get, .chunk (rootText.drop 3), .interrupted] =
        some ((rootText.length : Int), buffer) ∧ buffer.take rootText.length = rootText) ↔
      Undisturbed [.chunk get, .chunk (rootText.drop 3), .interrupted] :=
  receiveFromSocket_exact_iff (by decide) (by decide)
    ⟨fun arrival member => by
      simp only [List.mem_cons, List.not_mem_nil, or_false] at member
      rcases member with rfl | rfl | rfl
      · exact Or.inr ⟨get, by decide, rfl⟩
      · exact Or.inr ⟨rootText.drop 3, by decide, rfl⟩
      · exact Or.inl rfl, by decide⟩

/-- The `T` of the method is lost, and the first byte is written in front of the
buffer if the very first call is interrupted. -/
theorem interruptedRead_loses_byte :
    OnlyBlank rootText ∧ rootText.length = 26 ∧
      interruptedRead.flatMap Arrival.brings = rootText ∧
        receiveFromSocket interruptedRead = some (25, rootText.take 2 ++ rootText.drop 3) ∧
          receiveFromSocket [.interrupted, .chunk rootText] = none := by
  decide

/-! ## Sending -/

/-- The most that a call takes. -/
def Sent.takes : Sent → Nat
  | .took n => n
  | .interrupted => 0
  | .failed => 0

/-- No call is interrupted before the calls so far have taken `length` bytes. -/
def InTime (length : Nat) (schedule : List Sent) : Prop :=
  ∀ before behind, schedule = before ++ .interrupted :: behind →
    length ≤ (before.map Sent.takes).sum

theorem inTime_took {length n : Nat} {schedule : List Sent} :
    InTime length (.took n :: schedule) ↔ InTime (length - n) schedule := by
  constructor
  · intro timely before behind split
    have enough := timely (.took n :: before) behind (by rw [split, List.cons_append])
    rw [List.map_cons, List.sum_cons, Sent.takes] at enough
    omega
  · intro timely before behind split
    cases before with
    | nil => exact absurd (List.cons.inj split).1 (by simp)
    | cons first before =>
        obtain ⟨rfl, tails⟩ := List.cons.inj split
        have enough := timely before behind tails
        rw [List.map_cons, List.sum_cons, Sent.takes]
        omega

theorem inTime_zero (schedule : List Sent) : InTime 0 schedule :=
  fun _ _ _ => Nat.zero_le _

theorem sendLoop_done {schedule : List Sent} {text wire : Bytes} {total : Int}
    (done : text.length ≤ total) : sendLoop text schedule total wire = some (0, wire) := by
  cases schedule with
  | nil =>
      rw [sendLoop]
      exact if_pos done
  | cons sent schedule => cases sent <;> exact if_pos done

/-- Once the total is behind what has gone out, too much goes out. -/
theorem sendLoop_long {schedule : List Sent} {text wire out : Bytes} {total : Int}
    (behind : total < wire.length) (run : sendLoop text schedule total wire = some (0, out)) :
    text.length < out.length := by
  induction schedule generalizing total wire with
  | nil =>
      by_cases done : text.length ≤ total
      · rw [sendLoop_done done] at run
        cases run
        omega
      · rw [sendLoop, if_neg done] at run
        split at run
        · cases run
        · cases run
          rw [List.length_append, List.length_drop]
          omega
  | cons sent schedule ih =>
      by_cases done : text.length ≤ total
      · rw [sendLoop_done done] at run
        cases run
        omega
      · cases sent with
        | took n =>
            rw [sendLoop, if_neg done] at run
            split at run
            · cases run
            · apply ih _ run
              rw [List.length_append]
              omega
        | interrupted =>
            rw [sendLoop, if_neg done] at run
            split at run
            · cases run
            · exact ih (by omega) run
        | failed =>
            rw [sendLoop, if_neg done] at run
            split at run <;> cases run

/-- The loop from the state in which the first `total` bytes have gone out. -/
theorem sendLoop_exact_iff {schedule : List Sent} {text : Bytes} {total : Nat}
    (fine : ∀ sent ∈ schedule, sent ≠ .failed) (le : total ≤ text.length) :
    sendLoop text schedule total (text.take total) = some (0, text) ↔
      InTime (text.length - total) schedule := by
  induction schedule generalizing total with
  | nil =>
      apply iff_of_true
      · have nothing : NoSendErrors [] := fun sent member => absurd member List.not_mem_nil
        rw [sendLoop_took nothing le, List.take_append_drop]
      · intro before behind split
        exact absurd split (by simp)
  | cons sent schedule ih =>
      have others := fun sent member => fine sent (List.mem_cons_of_mem _ member)
      cases sent with
      | took n =>
          by_cases done : text.length ≤ total
          · have all : total = text.length := by omega
            rw [sendLoop_done (by omega), all, List.take_length, Nat.sub_self]
            exact iff_of_true rfl (inTime_zero _)
          · have part : ((text.drop total).take n).length = min n (text.length - total) := by
              rw [List.length_take, List.length_drop]
            have gone : text.take total ++ (text.drop total).take n =
                text.take (total + ((text.drop total).take n).length) := by
              rw [List.take_add, part, ← List.length_drop, ← List.take_eq_take_min]
            have left : text.length - total - n =
                text.length - (total + ((text.drop total).take n).length) := by
              omega
            rw [sendLoop, if_neg (by omega), if_neg (by omega), inTime_took, left]
            simp only [Int.toNat_natCast]
            rw [← Int.natCast_add, gone]
            exact ih others (by omega)
      | interrupted =>
          by_cases done : text.length ≤ total
          · have all : total = text.length := by omega
            rw [sendLoop_done (by omega), all, List.take_length, Nat.sub_self]
            exact iff_of_true rfl (inTime_zero _)
          · rw [sendLoop, if_neg (by omega), if_neg (by omega)]
            apply iff_of_false
            · intro run
              have long := sendLoop_long (by rw [List.length_take]; omega) run
              omega
            · intro timely
              have enough := timely [] schedule rfl
              rw [List.map_nil, List.sum_nil] at enough
              omega
      | failed => exact absurd rfl (fine _ List.mem_cons_self)

/-- Each byte goes out exactly once, and none from outside the buffer, if and only if
no call is interrupted before everything has been taken. -/
theorem sendToSocket_exact_iff {schedule : List Sent} (fine : ∀ sent ∈ schedule, sent ≠ .failed)
    (text : Bytes) : sendToSocket schedule text = some (0, text) ↔ InTime text.length schedule :=
  sendLoop_exact_iff fine (Nat.zero_le _)

theorem rootText_sent :
    sendToSocket [.took 3, .took 40, .interrupted] rootText = some (0, rootText) ↔
      InTime rootText.length [.took 3, .took 40, .interrupted] :=
  sendToSocket_exact_iff (by decide) rootText

/-- The `T` of the method goes out twice; the first read is in front of the buffer if
the very first call is interrupted. -/
theorem interruptedSend_repeats_byte :
    sendToSocket [.took 3, .interrupted] rootText =
        some (0, get ++ rootText.drop 2) ∧
      get ++ rootText.drop 2 ≠ rootText ∧ sendToSocket [.interrupted] rootText = none := by
  decide

end CompNet.Proxy
