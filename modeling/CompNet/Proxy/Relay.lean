import CompNet.Proxy.Parse

/-!
# One client of the proxy

`proxy.c` from the accepted connection on: the request is received and parsed, a
request of the proxy's own is sent to the server, and what the server answers is
sent to the client.  The sockets are schedules of what each call of `recv` and
`send` meets.  The receive loop stops when its buffer is full and when what it
has so far ends in a blank line; `relayed_iff` says for which answers, arriving
in which chunks, the client still gets all of the answer.
-/

namespace CompNet.Proxy

open CompNet.Lib

/-- `RECV_BUFFER_SIZE`. -/
def recvBufferSize : Nat := 2048

/-! ## Receiving -/

/-- What a socket has for the next calls of `recv`; at the end the peer has
closed. -/
inductive Arrival
  | chunk (bytes : Bytes)
  | interrupted
  | failed
  deriving DecidableEq, Repr

/-- The result of one `recv`. -/
inductive Received
  | bytes (got : Bytes)
  | interrupted
  | failed
  deriving DecidableEq, Repr

/-- `recv` with room for `room` bytes; what does not fit stays for the next call. -/
def recv (room : Nat) : List Arrival → Received × List Arrival
  | [] => (.bytes [], [])
  | .interrupted :: rest => (.interrupted, rest)
  | .failed :: rest => (.failed, rest)
  | .chunk bytes :: rest =>
      if room < bytes.length then (.bytes (bytes.take room), .chunk (bytes.drop room) :: rest)
      else (.bytes bytes, rest)

/-- The test for a blank line at the end of the first `total` bytes. -/
def endsBlank (buffer : Bytes) (total : Int) : Bool :=
  4 ≤ total && (crlf ++ crlf).isSuffixOf (buffer.take total.toNat)

/-- The loop of `receive_from_socket`, with what has been written to the buffer.
An interrupted call returns -1, which is added to the total; bytes that arrive
while the total is negative are written in front of the buffer.  A break with
`bytes_read` negative returns -1. -/
def receiveLoop : Nat → List Arrival → Int → Bytes → Option (Int × Bytes)
  | 0, _, _, _ => none
  | fuel + 1, arrivals, total, buffer =>
      match recv (recvBufferSize - total).toNat arrivals with
      | (.failed, _) => some (-1, buffer)
      | (.interrupted, rest) =>
          if endsBlank buffer (total - 1) then some (-1, buffer)
          else receiveLoop fuel rest (total - 1) buffer
      | (.bytes got, rest) =>
          if got.isEmpty then some (total, buffer)
          else if total < 0 then none
          else
            let written := buffer.take total.toNat ++ got ++ buffer.drop (total.toNat + got.length)
            if endsBlank written (total + got.length) then some (total + got.length, written)
            else receiveLoop fuel rest (total + got.length) written

/-- A bound on the calls of `recv` that return something. -/
def Arrival.work : Arrival → Nat
  | .chunk bytes => bytes.length + 1
  | _ => 1

/-- `receive_from_socket`: the return value and the bytes in the buffer. -/
def receiveFromSocket (arrivals : List Arrival) : Option (Int × Bytes) :=
  receiveLoop ((arrivals.map Arrival.work).sum + 1) arrivals 0 []

/-! ## Sending -/

/-- What the next calls of `send` meet; after the last of them a call takes all it
is given. -/
inductive Sent
  | took (n : Nat)
  | interrupted
  | failed
  deriving DecidableEq, Repr

/-- The loop of `send_to_socket`, with the bytes that have gone out.  An
interrupted call returns -1, which is added to the total. -/
def sendLoop (text : Bytes) : List Sent → Int → Bytes → Option (Int × Bytes)
  | [], total, wire =>
      if text.length ≤ total then some (0, wire)
      else if total < 0 then none
      else some (0, wire ++ text.drop total.toNat)
  | sent :: rest, total, wire =>
      if text.length ≤ total then some (0, wire)
      else if total < 0 then none
      else
        match sent with
        | .took n =>
            let part := (text.drop total.toNat).take n
            sendLoop text rest (total + part.length) (wire ++ part)
        | .interrupted => sendLoop text rest (total - 1) wire
        | .failed => some (-1, wire)

/-- `send_to_socket`: the return value and the bytes that went out. -/
def sendToSocket (schedule : List Sent) (text : Bytes) : Option (Int × Bytes) :=
  sendLoop text schedule 0 []

/-! ## The request -/

/-- `"GET"`. -/
def get : Bytes := [71, 69, 84]

/-- `"80"`. -/
def defaultPort : Bytes := [56, 48]

/-- `"GET %s HTTP/1.0\r\nHost: %s\r\nConnection: close\r\n\r\n"`. -/
def serverRequest (path host : Bytes) : Bytes :=
  get ++ [space] ++ path ++ [space, 72, 84, 84, 80, 47, 49, 46, 48] ++ crlf ++
    [72, 111, 115, 116, 58, 32] ++ host ++ crlf ++
    [67, 111, 110, 110, 101, 99, 116, 105, 111, 110, 58, 32, 99, 108, 111, 115, 101] ++ crlf ++ crlf

/-- `"HTTP/1.0 400 Bad Request\r\n\r\n"`. -/
def badRequest : Bytes :=
  [72, 84, 84, 80, 47, 49, 46, 48, 32, 52, 48, 48, 32, 66, 97, 100, 32, 82, 101, 113, 117, 101, 115,
    116] ++ crlf ++ crlf

/-- `"HTTP/1.0 501 Not Implemented\r\n\r\n"`. -/
def notImplemented : Bytes :=
  [72, 84, 84, 80, 47, 49, 46, 48, 32, 53, 48, 49, 32, 78, 111, 116, 32, 73, 109, 112, 108,
    101, 109,
    101, 110, 116, 101, 100] ++ crlf ++ crlf

/-- What `parse_request` leaves: an error code, or the request for the server and
where to connect to. -/
inductive Request
  | failed (code : Int)
  | ready (text host port : Bytes)
  deriving DecidableEq, Repr

/-- `parse_request`. -/
def parseRequest (errno : Errno) (request : Bytes) : Option Request := do
  let (ret, req) ← parsedRequestParse errno parsedRequestCreate request
  if ret < 0 then some (.failed (-400))
  else
    let f ← req.fields
    if f.method ≠ get then some (.failed (-501))
    else
      let text := serverRequest f.path f.host
      if recvBufferSize ≤ text.length then some (.failed (-1))
      else some (.ready text f.host (f.port.getD defaultPort))

/-! ## The conversation -/

/-- What the proxy finds around it: `errno` when it starts, the two sockets, and
which servers `proxy_client_socket_setup` can connect to. -/
structure Env where
  errno : Errno
  clientArrivals : List Arrival
  clientSends : List Sent
  serverArrivals : List Arrival
  serverSends : List Sent
  connects : Bytes → Bytes → Bool

/-- The return value of `chat_with_client` and the bytes it has sent. -/
structure Chat where
  ret : Int
  toServer : Bytes
  toClient : Bytes
  deriving DecidableEq, Repr

/-- The answer to a request that could not be parsed. -/
def refuse (env : Env) (code : Int) : Option Chat :=
  if code = -400 then do
    let (_, wire) ← sendToSocket env.clientSends badRequest
    some ⟨-1, [], wire⟩
  else if code = -501 then do
    let (_, wire) ← sendToSocket env.clientSends notImplemented
    some ⟨-1, [], wire⟩
  else some ⟨-1, [], []⟩

/-- What follows once the server has the request. -/
def relay (env : Env) (toServer : Bytes) : Option Chat := do
  let (total, buffer) ← receiveFromSocket env.serverArrivals
  if total < 0 then some ⟨-1, toServer, []⟩
  else
    let (ret, toClient) ← sendToSocket env.clientSends (buffer.take total.toNat)
    some ⟨if ret < 0 then -1 else 0, toServer, toClient⟩

/-- `chat_with_client`. -/
def chatWithClient (env : Env) : Option Chat := do
  let (total, buffer) ← receiveFromSocket env.clientArrivals
  if total < 0 then some ⟨-1, [], []⟩
  else
    match ← parseRequest env.errno (buffer.take total.toNat) with
    | .failed code => refuse env code
    | .ready text host port =>
        if env.connects host port then
          let (ret, toServer) ← sendToSocket env.serverSends text
          if ret < 0 then some ⟨-1, toServer, []⟩
          else relay env toServer
        else some ⟨-1, [], []⟩

/-! ## Sending without errors -/

/-- The schedule of calls of `send` that all take something or nothing. -/
def NoSendErrors (schedule : List Sent) : Prop := ∀ sent ∈ schedule, ∃ n, sent = .took n

theorem sendLoop_took {schedule : List Sent} (fine : NoSendErrors schedule) {text wire : Bytes}
    {total : Nat} (le : total ≤ text.length) :
    sendLoop text schedule total wire = some (0, wire ++ text.drop total) := by
  induction schedule generalizing total wire with
  | nil =>
      rw [sendLoop]
      by_cases done : text.length ≤ total
      · rw [if_pos (by omega), List.drop_eq_nil_of_le done, List.append_nil]
      · rw [if_neg (by omega), if_neg (by omega)]
        rfl
  | cons sent rest ih =>
      obtain ⟨n, rfl⟩ := fine sent List.mem_cons_self
      rw [sendLoop]
      by_cases done : text.length ≤ total
      · rw [if_pos (by omega), List.drop_eq_nil_of_le done, List.append_nil]
      · rw [if_neg (by omega), if_neg (by omega)]
        have split := List.take_append_drop n (text.drop total)
        have fits : total + ((text.drop total).take n).length ≤ text.length := by
          rw [List.length_take, List.length_drop]
          omega
        have behind : text.drop (total + ((text.drop total).take n).length) =
            (text.drop total).drop n := by
          rw [← List.drop_drop]
          calc (text.drop total).drop ((text.drop total).take n).length
              = ((text.drop total).take n ++ (text.drop total).drop n).drop
                  ((text.drop total).take n).length := by rw [split]
            _ = (text.drop total).drop n := List.drop_left
        simp only [Int.toNat_natCast]
        rw [← Int.natCast_add,
          ih (fun sent member => fine sent (List.mem_cons_of_mem _ member)) fits,
          behind, List.append_assoc, split]

/-- Without errors everything is sent, however the calls split it. -/
theorem sendToSocket_took {schedule : List Sent} (fine : NoSendErrors schedule) (text : Bytes) :
    sendToSocket schedule text = some (0, text) := by
  have sent : sendLoop text schedule (0 : Nat) [] = _ := sendLoop_took fine (Nat.zero_le _)
  rw [sendToSocket]
  simpa using sent

/-! ## Receiving without errors -/

/-- What the receive loop makes of the chunks that arrive, starting with `front` in
its buffer. -/
def received (front : Bytes) : List Bytes → Bytes
  | [] => front
  | c :: rest =>
      if recvBufferSize - front.length < c.length then
        front ++ c.take (recvBufferSize - front.length)
      else if (crlf ++ crlf).isSuffixOf (front ++ c) then front ++ c
      else received (front ++ c) rest

theorem endsBlank_length (buffer : Bytes) :
    endsBlank buffer buffer.length = (crlf ++ crlf).isSuffixOf buffer := by
  rw [endsBlank, Int.toNat_natCast, List.take_length]
  by_cases ends : (crlf ++ crlf).isSuffixOf buffer = true
  · have long : 4 ≤ buffer.length := (List.isSuffixOf_iff_suffix.mp ends).length_le
    have long : (4 : Int) ≤ buffer.length := by omega
    rw [ends, decide_eq_true long]
    rfl
  · rw [Bool.not_eq_true] at ends
    rw [ends, Bool.and_false]

section

variable {fuel : Nat} {front got : Bytes} {arrivals rest : List Arrival}

theorem room_eq (front : Bytes) :
    ((recvBufferSize : Int) - front.length).toNat = recvBufferSize - front.length :=
  Int.toNat_sub _ _

theorem receiveLoop_eof
    (eof : recv (recvBufferSize - front.length) arrivals = (.bytes [], rest)) :
    receiveLoop (fuel + 1) arrivals front.length front = some ((front.length : Int), front) := by
  rw [receiveLoop, room_eq, eof]
  rfl

theorem receiveLoop_bytes (some : got ≠ [])
    (data : recv (recvBufferSize - front.length) arrivals = (.bytes got, rest)) :
    receiveLoop (fuel + 1) arrivals front.length front =
      if (crlf ++ crlf).isSuffixOf (front ++ got) then
        .some (((front ++ got).length : Int), front ++ got)
      else receiveLoop fuel rest (front ++ got).length (front ++ got) := by
  have written : front.take front.length ++ got ++ front.drop (front.length + got.length) =
      front ++ got := by
    rw [List.take_length, List.drop_eq_nil_of_le (by omega), List.append_nil]
  have total : (front.length : Int) + got.length = ((front ++ got).length : Nat) := by
    rw [List.length_append, Int.natCast_add]
  have notEmpty : got.isEmpty = false := by simpa using some
  rw [receiveLoop, room_eq, data]
  simp only [notEmpty, Bool.false_eq_true, if_false, Int.toNat_natCast, written, total,
    endsBlank_length]
  rw [if_neg (by omega)]

end

theorem receiveLoop_chunks {chunks : List Bytes} (nonempty : ∀ c ∈ chunks, c ≠ []) {fuel : Nat}
    {front : Bytes} (fits : front.length ≤ recvBufferSize)
    (enough : ((chunks.map Arrival.chunk).map Arrival.work).sum < fuel) :
    receiveLoop fuel (chunks.map .chunk) front.length front =
      some (((received front chunks).length : Int), received front chunks) := by
  induction chunks generalizing fuel front with
  | nil =>
      obtain ⟨fuel, rfl⟩ : ∃ m, fuel = m + 1 := ⟨fuel - 1, by omega⟩
      exact receiveLoop_eof rfl
  | cons c rest ih =>
      have some : c ≠ [] := nonempty c List.mem_cons_self
      simp only [List.map_cons, List.sum_cons, Arrival.work] at enough
      obtain ⟨fuel, rfl⟩ : ∃ m, fuel = m + 2 := ⟨fuel - 2, by
        have := List.length_pos_iff.mpr some
        omega⟩
      rw [received, List.map_cons]
      split
      · next overflow =>
          have data : recv (recvBufferSize - front.length) (.chunk c :: rest.map .chunk) =
              (.bytes (c.take (recvBufferSize - front.length)),
                .chunk (c.drop (recvBufferSize - front.length)) :: rest.map .chunk) :=
                  if_pos overflow
          by_cases full : recvBufferSize - front.length = 0
          · rw [full, List.take_zero, List.append_nil]
            rw [full, List.take_zero] at data
            exact receiveLoop_eof (by rw [full]; exact data)
          · -- the buffer is full now, so that the next call is asked for nothing
            have got : c.take (recvBufferSize - front.length) ≠ [] := by simp [full, some]
            have size : (front ++ c.take (recvBufferSize - front.length)).length =
                recvBufferSize := by
              rw [List.length_append, List.length_take]
              omega
            rw [receiveLoop_bytes got data]
            split
            · rfl
            · apply receiveLoop_eof
              · rw [size, Nat.sub_self]
                exact if_pos (by rw [List.length_drop]; omega)
      · next inside =>
          have data : recv (recvBufferSize - front.length) (.chunk c :: rest.map .chunk) =
              (.bytes c, rest.map .chunk) := if_neg inside
          rw [receiveLoop_bytes some data]
          split
          · rfl
          · apply ih (fun c member => nonempty c (List.mem_cons_of_mem _ member))
            · rw [List.length_append]
              omega
            · omega

theorem receiveFromSocket_chunks {chunks : List Bytes} (nonempty : ∀ c ∈ chunks, c ≠ []) :
    receiveFromSocket (chunks.map .chunk) =
      some (((received [] chunks).length : Int), received [] chunks) := by
  have empty : ([] : Bytes).length ≤ recvBufferSize := Nat.zero_le _
  exact receiveLoop_chunks nonempty empty (Nat.lt_succ_self _)

/-- The answer fits into the buffer, and only its last chunk may end it with a blank
line. -/
def ComesThrough (front : Bytes) (chunks : List Bytes) : Prop :=
  front.length + chunks.flatten.length ≤ recvBufferSize ∧
    ∀ before behind, chunks = before ++ behind → before ≠ [] → behind ≠ [] →
      ¬ crlf ++ crlf <:+ front ++ before.flatten

theorem received_iff {chunks : List Bytes} (nonempty : ∀ c ∈ chunks, c ≠ []) {front : Bytes}
    (fits : front.length ≤ recvBufferSize) :
    received front chunks = front ++ chunks.flatten ↔ ComesThrough front chunks := by
  induction chunks generalizing front with
  | nil =>
      simp only [received, ComesThrough, List.flatten_nil, List.append_nil, List.length_nil,
        Nat.add_zero, true_iff]
      refine ⟨fits, fun before behind none some => ?_⟩
      exact absurd (List.append_eq_nil_iff.mp none.symm).1 some
  | cons c rest ih =>
      have some : c ≠ [] := nonempty c List.mem_cons_self
      have others : ∀ c ∈ rest, c ≠ [] := fun c member => nonempty c (List.mem_cons_of_mem _ member)
      rw [received]
      split
      · next overflow =>
          constructor
          · intro same
            have length := congrArg List.length same
            simp only [List.length_append, List.length_take, List.flatten_cons] at length
            omega
          · intro given
            rcases given with ⟨short, -⟩
            simp only [List.flatten_cons, List.length_append] at short
            omega
      · next inside =>
          split
          · next blank =>
              -- the loop ends here, which is right if there is nothing more
              rw [List.flatten_cons, ← List.append_assoc]
              constructor
              · intro same
                have none : rest.flatten = [] := List.self_eq_append_right.mp same
                have last : rest = [] := by
                  cases rest with
                  | nil => rfl
                  | cons d rest =>
                      have empty := (List.append_eq_nil_iff.mp none).1
                      exact absurd empty (others d List.mem_cons_self)
                subst last
                refine ⟨by simp; omega, fun before behind split here there => ?_⟩
                have lengths := congrArg List.length split
                have one := List.length_pos_iff.mpr here
                have two := List.length_pos_iff.mpr there
                simp only [List.length_append, List.length_cons, List.length_nil] at lengths
                omega
              · intro given
                rcases given with ⟨-, open_⟩
                have last : rest = [] := by
                  by_contra more
                  exact open_ [c] rest rfl (by simp) more
                    (by simpa using List.isSuffixOf_iff_suffix.mp blank)
                rw [last, List.flatten_nil, List.append_nil]
          · next more =>
              rw [List.flatten_cons, ← List.append_assoc,
                ih others (by rw [List.length_append]; omega)]
              rw [ComesThrough, ComesThrough, List.flatten_cons, List.length_append,
                List.length_append, Nat.add_assoc]
              refine and_congr Iff.rfl ⟨fun open_ before behind split here there => ?_,
                fun open_ before behind split here there => ?_⟩
              · obtain ⟨d, before, rfl⟩ := List.exists_cons_of_ne_nil here
                obtain ⟨rfl, tails⟩ := List.cons.inj split
                rw [List.flatten_cons, ← List.append_assoc]
                cases before with
                | nil =>
                    intro ends
                    exact more (List.isSuffixOf_iff_suffix.mpr (by simpa using ends))
                | cons d before => exact open_ (d :: before) behind tails (by simp) there
              · have later := open_ (c :: before) behind (by simp [split]) (by simp) there
                rwa [List.flatten_cons, ← List.append_assoc] at later

/-! ## The answer -/

/-- After a successful request, and with no errors at the sockets, the client gets
exactly what the server sent if and only if it comes through the receive loop. -/
theorem relayed_iff {env : Env} {total : Nat} {buffer text host port : Bytes} {chunks : List Bytes}
    (asked : receiveFromSocket env.clientArrivals = some ((total : Int), buffer))
    (parsed : parseRequest env.errno (buffer.take total) = some (.ready text host port))
    (connected : env.connects host port = true)
    (answer : env.serverArrivals = chunks.map .chunk) (nonempty : ∀ c ∈ chunks, c ≠ [])
    (serverFine : NoSendErrors env.serverSends) (clientFine : NoSendErrors env.clientSends) :
    (∃ chat, chatWithClient env = some chat ∧ chat.toClient = chunks.flatten) ↔
      ComesThrough [] chunks := by
  have empty : ([] : Bytes).length ≤ recvBufferSize := Nat.zero_le _
  have chat : chatWithClient env = some ⟨0, text, received [] chunks⟩ := by
    have got := receiveFromSocket_chunks nonempty
    have notNegative : ¬ (total : Int) < 0 := by omega
    have notNegative' : ¬ ((received [] chunks).length : Int) < 0 := by omega
    simp only [chatWithClient, asked, Option.bind_eq_bind, Option.bind_some, if_neg notNegative,
      Int.toNat_natCast, parsed, connected, if_true, sendToSocket_took serverFine, relay,
      answer, got,
      if_neg notNegative', List.take_length, sendToSocket_took clientFine]
    rfl
  rw [← received_iff nonempty empty, List.nil_append, chat]
  constructor
  · intro given
    rcases given with ⟨_, sent, same⟩
    cases sent
    exact same
  · intro same
    exact ⟨_, rfl, same⟩

/-- A client that asks for the root of `h`, and a server whose answer arrives in
the chunks given. -/
def rootConversation (chunks : List Bytes) : Env where
  errno := .other
  clientArrivals := [.chunk ([71, 69, 84, 32, 104, 116, 116, 112, 58, 47, 47, 104, 47, 32,
    72, 84, 84,
    80, 47, 49, 46, 48] ++ crlf ++ crlf)]
  clientSends := []
  serverArrivals := chunks.map .chunk
  serverSends := []
  connects := fun _ _ => true

/-- `HTTP/1.0 200 OK` and a blank line. -/
def okHead : Bytes := [72, 84, 84, 80, 47, 49, 46, 48, 32, 50, 48, 48, 32, 79, 75] ++ crlf ++ crlf

theorem relayed_iff_oneChunk :
    (∃ chat, chatWithClient (rootConversation [okHead ++ [104, 105]]) = some chat ∧
      chat.toClient = [okHead ++ [104, 105]].flatten) ↔ ComesThrough [] [okHead ++ [104, 105]] :=
  relayed_iff rfl rfl rfl rfl (by decide) (by simp [NoSendErrors, rootConversation])
    (by simp [NoSendErrors, rootConversation])

/-- The head of an answer and its body arrive one after the other: the body is
lost. -/
theorem relay_drops_body :
    chatWithClient (rootConversation [okHead, [104, 105]]) =
        some ⟨0, serverRequest [slash] [104], okHead⟩ ∧
      okHead ≠ [okHead, [104, 105]].flatten := by
  decide

end CompNet.Proxy
