import CompNet.Router.Session
import CompNet.Router.VnsReading

/-!
# The main loop

`while( sr_read_from_server(&sr) == 1);` on a stream of bytes.  `mainLoop_messages` says that
the messages of the server are served one by one, in whatever pieces they arrive;
`mainLoop_consistent` that, whatever arrives, the routes lead to interfaces from the first
message on that has told the router of its interfaces and been accepted.
-/

namespace CompNet.Router

open CompNet.Lib

/-- The loop, at most `turns` of them, with the router each message finds and what it comes to.
What else a turn finds, such as the ARP cache, the other thread changes in between. -/
def mainLoop (malloc : Nat → Option Bytes) (around : Nat → VnsEnv) (fuel : Nat) :
    Nat → Nat → Instance → List Proxy.Arrival →
      Option (List (Instance × Except Fault (Int × Served)))
  | 0, _, _, _ => some []
  | turns + 1, k, sr, arrivals => do
      let (result, rest) ←
        srReadFromServerExpect malloc { around k with sr := sr } 0 fuel arrivals
      match result with
      | .error fault => some [(sr, .error fault)]
      | .ok (ret, served) =>
          if ret = 1 then do
            let later ← mainLoop malloc around fuel turns (k + 1)
              { sr with ifList := served.ifList sr.ifList } rest
            some ((sr, .ok (ret, served)) :: later)
          else some [(sr, .ok (ret, served))]

/-- What a message of the server says to the client. -/
def ServerMessage.meaning (env : VnsEnv) : ServerMessage → Except Fault (Int × Served)
  | .authRequest salt =>
      if env.key then .ok (if env.sends then 1 else -1, .salt salt) else .ok (-1, .nothing)
  | .authStatus _ => .ok (1, .nothing)
  | .hardwareInfo interfaces =>
      let ifList := env.sr.ifList ++ interfaces.map VNSInterface.client
      .ok (if srVerifyRoutingTable ifList env.sr.routingTable ≠ 0 then -1 else 1, .hardware ifList)
  | .packet name frame =>
      match srGetInterface env.sr name with
      | none => .error .nullPointer
      | some iface =>
          if arpForOther iface frame then .ok (1, .nothing)
          else
            srHandlepacketAction env.sr env.entries env.mem frame name >>= fun action =>
              .ok (1, .frame frame name action)

/-- What the messages say, one after the other, until one ends the loop. -/
def serveAll (around : Nat → VnsEnv) :
    Nat → Instance → List ServerMessage → List (Instance × Except Fault (Int × Served))
  | _, _, [] => []
  | k, sr, message :: messages =>
      let result := message.meaning { around k with sr := sr }
      (sr, result) ::
        match result with
        | .error _ => []
        | .ok (ret, served) =>
            if ret = 1 then
              serveAll around (k + 1) { sr with ifList := served.ifList sr.ifList } messages
            else []

/-! ## Messages on the stream -/

section

variable {malloc : Nat → Option Bytes} {env : VnsEnv} {expected fuel : Nat}
  {arrivals : List Proxy.Arrival} {rest : Bytes}

theorem lengthOf_htonl {n : Nat} (small : n ≤ 10000) : lengthOf (htonl n) = n := by
  have value : ntohl (htonl n) = n := ntohl_htonl (by omega)
  calc
    lengthOf (htonl n) = Int.bmod n (2 ^ 32) :=
      congrArg (fun m : Nat => Int.bmod m (2 ^ 32)) value
    _ = n := Int.bmod_eq_of_le (by omega) (by omega)

/-- One message is taken from the stream, in whatever pieces it arrives. -/
theorem srReadFromServerExpect_wire {message : ServerMessage} (sound : message.Sound)
    (short : ShortReads arrivals) (whole : stream arrivals = message.wire ++ rest)
    (memory : ∀ n, ∃ mem, malloc n = some mem ∧ mem.length = n) (calls : work arrivals < fuel) :
    ∃ behind, srReadFromServerExpect malloc env expected fuel arrivals =
        some (if taken expected message.type then serve env message.wire message.type
          else .ok (-1, .nothing), behind) ∧
      ShortReads behind ∧ stream behind = rest ∧ work behind ≤ work arrivals := by
  obtain ⟨least, most⟩ := sound.length
  have size : message.wire.length = 8 + message.pack.length := length_wire _ _
  have front : message.wire = htonl message.wire.length ++ message.wire.drop 4 := by
    rw [size]
    rfl
  have total := congrArg List.length whole
  rw [List.length_append] at total
  -- the length
  obtain ⟨first, after, reads, four, split, later, fewer⟩ :=
    @readLoop_done 4 fuel arrivals [] short (Nat.zero_le _) (by rw [List.length_nil]; omega) calls
  rw [List.nil_append] at reads four
  have same : first ++ stream after =
      htonl message.wire.length ++ (message.wire.drop 4 ++ rest) := by
    rw [← split, whole, ← List.append_assoc, ← front]
  obtain ⟨rfl, behind⟩ := List.append_inj same four
  have length : lengthOf (htonl message.wire.length) = message.wire.length := lengthOf_htonl most
  -- the body
  obtain ⟨mem, allocated, room⟩ := memory message.wire.length
  have left : (stream after).length = message.wire.length - 4 + rest.length := by
    rw [behind, List.length_append, List.length_drop]
  obtain ⟨body, last, reads', count, split', later', fewer'⟩ :=
    @readLoop_done (message.wire.length - 4) fuel after [] later (Nat.zero_le _)
      (by rw [List.length_nil]; omega) (by omega)
  rw [List.nil_append] at reads' count
  have same' : body ++ stream last = message.wire.drop 4 ++ rest := by rw [← split', behind]
  obtain ⟨rfl, ends⟩ := List.append_inj same' (by rw [count, List.length_drop])
  refine ⟨last, ?_, later', ends, by omega⟩
  rw [srReadFromServerExpect_served reads (by rw [length]; omega)
    (by rw [length, Int.toNat_natCast]; exact allocated)
    (by rw [length, Int.toNat_natCast]; exact reads'),
    srServeMessage_wire env expected message room]

end

/-- The client makes of the bytes what the message says. -/
theorem serve_wire {env : VnsEnv} {message : ServerMessage} (sound : message.Sound)
    (named : ∀ iface ∈ env.sr.ifList, 0 ∉ iface.name) :
    serve env message.wire message.type = message.meaning env := by
  cases message with
  | authRequest salt =>
      have size : salt.length = 20 := sound
      have mLen : read (ServerMessage.authRequest salt).wire 0 4 = .ok (htonl (8 + salt.length)) :=
        read_wire _ _
      have salted : read (ServerMessage.authRequest salt).wire 8 20 = .ok salt := by
        have front : (ServerMessage.authRequest salt).wire =
            (htonl (8 + salt.length) ++ htonl vnsAuthRequest) ++ (salt ++ []) := by
          rw [List.append_nil]
          rfl
        rw [front]
        exact read_append rfl size
      have count : ((((8 + salt.length : Nat) : Int) - 8) % 2 ^ 64 % 2 ^ 32).toNat = 20 := by
        rw [size]
        rfl
      show serveAuthRequest env _ = _
      rw [serveAuthRequest, ServerMessage.meaning]
      split
      · rw [mLen, ok_bind, ntohl_htonl (by omega)]
        dsimp only
        rw [count, salted, ok_bind]
        rfl
      · rfl
  | authStatus msg =>
      have ok : read (ServerMessage.authStatus msg).wire 8 1 = .ok [1] :=
        @read_append _ [1] msg 8 1 rfl rfl
      show serveAuthStatus _ = _
      rw [serveAuthStatus, ok, ok_bind, if_neg (by decide)]
      rfl
  | hardwareInfo interfaces =>
      have told := serveHwinfo_wire env (show 8 + 216 * interfaces.length ≤ 10000 by
          have few : interfaces.length ≤ 46 := sound.1
          omega)
        fun intf member => ⟨(sound.2 intf member).1, (sound.2 intf member).2.le.trans (by omega)⟩
      exact told
  | packet name frame => exact servePacket_wire sound.1.1 sound.1.2 named sound.2.1 sound.2.2

/-- The names of the interfaces end. -/
theorem meaning_named (env : VnsEnv) {message : ServerMessage} (sound : message.Sound)
    (named : ∀ iface ∈ env.sr.ifList, 0 ∉ iface.name) (ret : Int) (served : Served)
    (done : message.meaning env = .ok (ret, served)) :
    ∀ iface ∈ served.ifList env.sr.ifList, 0 ∉ iface.name := by
  cases message with
  | authRequest salt =>
      rw [ServerMessage.meaning] at done
      split at done <;> cases done <;> exact named
  | authStatus msg =>
      cases done
      exact named
  | hardwareInfo interfaces =>
      cases done
      intro iface member
      rcases List.mem_append.mp member with before | told
      · exact named iface before
      · obtain ⟨intf, inside, rfl⟩ := List.mem_map.mp told
        exact (sound.2 intf inside).1
  | packet name frame =>
      rw [ServerMessage.meaning] at done
      split at done
      · cases done
      split at done
      · cases done
        exact named
      · cases decided : srHandlepacketAction env.sr env.entries env.mem frame name with
        | error fault =>
            rw [decided] at done
            cases done
        | ok action =>
            rw [decided] at done
            cases done
            exact named

/-- The messages of a stream are served one by one. -/
theorem mainLoop_eq {malloc : Nat → Option Bytes} {around : Nat → VnsEnv} {fuel : Nat}
    {messages : List ServerMessage} {arrivals : List Proxy.Arrival} (k : Nat) (sr : Instance)
    (sound : ∀ message ∈ messages, message.Sound) (named : ∀ iface ∈ sr.ifList, 0 ∉ iface.name)
    (short : ShortReads arrivals) (whole : stream arrivals = messages.flatMap ServerMessage.wire)
    (memory : ∀ n, ∃ mem, malloc n = some mem ∧ mem.length = n) (calls : work arrivals < fuel) :
    mainLoop malloc around fuel messages.length k sr arrivals =
      some (serveAll around k sr messages) := by
  induction messages generalizing k sr arrivals with
  | nil => rfl
  | cons message messages ih =>
      obtain ⟨here, later⟩ := List.forall_mem_cons.mp sound
      rw [List.flatMap_cons] at whole
      obtain ⟨behind, served, short', rest, fewer⟩ :=
        @srReadFromServerExpect_wire malloc { around k with sr := sr } 0 fuel arrivals _ message
          here short whole memory calls
      have any : taken 0 message.type = true := rfl
      rw [any, if_pos rfl, serve_wire here named] at served
      have after := meaning_named { around k with sr := sr } here named
      rw [List.length_cons, mainLoop, serveAll, served, Option.bind_eq_bind, Option.bind_some]
      dsimp only
      cases done : message.meaning { around k with sr := sr } with
      | error fault => rfl
      | ok result =>
          obtain ⟨ret, served⟩ := result
          dsimp only
          split
          · rw [ih (k + 1) _ later (after ret served done) short' rest (by omega)]
            rfl
          · rfl

/-- Whatever the pieces are that the messages arrive in, the main loop makes of them what they
say, one after the other. -/
theorem mainLoop_messages {malloc : Nat → Option Bytes} {around : Nat → VnsEnv} {fuel : Nat}
    {messages : List ServerMessage} {arrivals : List Proxy.Arrival} (routes : List Route)
    (sound : ∀ message ∈ messages, message.Sound) (short : ShortReads arrivals)
    (whole : stream arrivals = messages.flatMap ServerMessage.wire)
    (memory : ∀ n, ∃ mem, malloc n = some mem ∧ mem.length = n) (calls : work arrivals < fuel) :
    mainLoop malloc around fuel messages.length 0 ⟨[], routes⟩ arrivals =
      some (serveAll around 0 ⟨[], routes⟩ messages) :=
  mainLoop_eq 0 _ sound (by simp) short whole memory calls

/-- The interface e1, and a frame on it. -/
def twoMessages : List ServerMessage :=
  [.hardwareInfo [routerPort.interface], .packet [101, 49] (List.replicate 60 0)]

/-- The messages, cut inside the first length and inside the second body. -/
def twoArrivals : List Proxy.Arrival :=
  [.chunk ((twoMessages.flatMap ServerMessage.wire).take 3), .interrupted,
    .chunk (((twoMessages.flatMap ServerMessage.wire).drop 3).take 250),
    .chunk ((twoMessages.flatMap ServerMessage.wire).drop 253)]

theorem twoMessages_sound : ∀ message ∈ twoMessages, message.Sound := by
  intro message member
  simp only [twoMessages, List.mem_cons, List.not_mem_nil, or_false] at member
  rcases member with rfl | rfl
  · exact ⟨by decide, by simp [routerPort, RouterPort.interface, ShortName]⟩
  · exact ⟨⟨by decide, by decide⟩, by decide, by decide⟩

theorem twoArrivals_short : ShortReads twoArrivals := by
  intro arrival member
  simp only [twoArrivals, List.mem_cons, List.not_mem_nil, or_false] at member
  rcases member with rfl | rfl | rfl | rfl
  · exact .inr ⟨_, by decide, rfl⟩
  · exact .inl rfl
  · exact .inr ⟨_, by decide, rfl⟩
  · exact .inr ⟨_, by decide, rfl⟩

theorem stream_twoArrivals : stream twoArrivals = twoMessages.flatMap ServerMessage.wire := by
  decide +kernel

theorem mainLoop_messages_two :
    mainLoop (fun n => some (List.replicate n 0)) (fun _ => oneInterfaceEnv) 1000
        twoMessages.length 0 ⟨[], oneInterface.routingTable⟩ twoArrivals =
      some (serveAll (fun _ => oneInterfaceEnv) 0 ⟨[], oneInterface.routingTable⟩ twoMessages) :=
  mainLoop_messages oneInterface.routingTable twoMessages_sound twoArrivals_short
    stream_twoArrivals (fun n => ⟨_, rfl, List.length_replicate⟩) (by decide +kernel)

/-! ## Routes and interfaces -/

/-- Every route leads to an interface. -/
def RoutesLead (sr : Instance) : Prop :=
  ∀ rt ∈ sr.routingTable, ∃ iface ∈ sr.ifList, iface.name = rt.interface

theorem RoutesLead.mono {sr : Instance} {ifList : List Interface} (lead : RoutesLead sr)
    (more : sr.ifList.map Interface.name <+: ifList.map Interface.name) :
    RoutesLead { sr with ifList := ifList } := by
  intro rt member
  obtain ⟨iface, inside, same⟩ := lead rt member
  obtain ⟨other, there, named⟩ :=
    List.mem_map.mp (more.subset (List.mem_map_of_mem inside))
  exact ⟨other, there, named.trans same⟩

theorem routesLead_of_verified {sr : Instance} {ifList : List Interface}
    (verified : srVerifyRoutingTable ifList sr.routingTable = 0) :
    RoutesLead { sr with ifList := ifList } := by
  intro rt member
  rw [srVerifyRoutingTable] at verified
  split at verified
  · cases verified
  · have found := List.filter_eq_nil_iff.mp (List.length_eq_zero_iff.mp verified) rt member
    simpa using found

theorem updateLast_names {f : Interface → Interface} {before after : List Interface}
    (updated : updateLast f before = .ok after) (keeps : ∀ iface, (f iface).name = iface.name) :
    after.map Interface.name = before.map Interface.name := by
  rw [updateLast] at updated
  cases last : before.getLast? with
  | none =>
      rw [last] at updated
      cases updated
  | some iface =>
      rw [last] at updated
      cases updated
      rw [List.map_append, List.map_singleton, keeps, ← List.map_singleton, ← List.map_append,
        List.dropLast_append_getLast? iface last]

/-- An entry does not take an interface away. -/
theorem srHandleHwEntry_names {mem : Memory} {buf : Bytes} {i : Nat}
    {before after : List Interface} (handled : srHandleHwEntry mem buf i before = .ok after) :
    before.map Interface.name <+: after.map Interface.name := by
  rw [srHandleHwEntry] at handled
  obtain ⟨key, -, handled⟩ := ok_of_bind handled
  dsimp only at handled
  split at handled
  · obtain ⟨name, -, handled⟩ := ok_of_bind handled
    cases handled
    rw [List.map_append]
    exact List.prefix_append _ _
  split at handled
  · obtain ⟨ip, -, handled⟩ := ok_of_bind handled
    rw [updateLast_names handled fun _ => rfl]
  split at handled
  · obtain ⟨addr, -, handled⟩ := ok_of_bind handled
    rw [updateLast_names handled fun _ => rfl]
  · cases handled
    exact List.prefix_refl _

theorem srHandleHwinfo_names {mem : Memory} {buf : Bytes} {turns i : Nat}
    {before after : List Interface} (handled : srHandleHwinfo mem buf turns i before = .ok after) :
    before.map Interface.name <+: after.map Interface.name := by
  induction turns generalizing i before with
  | zero =>
      cases handled
      exact List.prefix_refl _
  | succ turns ih =>
      rw [srHandleHwinfo] at handled
      obtain ⟨between, first, later⟩ := ok_of_bind handled
      exact (srHandleHwEntry_names first).trans (ih later)

/-- What a message that is accepted leaves of the interfaces. -/
structure Grown (sr : Instance) (served : Served) : Prop where
  names : sr.ifList.map Interface.name <+: (served.ifList sr.ifList).map Interface.name
  lead : ∀ ifList, served = .hardware ifList →
    srVerifyRoutingTable ifList sr.routingTable = 0

theorem grown_of_other {sr : Instance} {served : Served}
    (other : ∀ ifList, served ≠ .hardware ifList) : Grown sr served := by
  refine ⟨?_, fun ifList same => absurd same (other ifList)⟩
  cases served with
  | hardware ifList => exact absurd rfl (other ifList)
  | _ => exact List.prefix_refl _

theorem serveHwinfo_grown {env : VnsEnv} {buf : Bytes} {served : Served}
    (done : serveHwinfo env buf = .ok (1, served)) : Grown env.sr served := by
  rw [serveHwinfo] at done
  obtain ⟨mLen, -, done⟩ := ok_of_bind done
  obtain ⟨ifList, handled, done⟩ := ok_of_bind done
  rw [pure_eq_ok, Except.ok.injEq, Prod.mk.injEq] at done
  obtain ⟨ret, rfl⟩ := done
  refine ⟨srHandleHwinfo_names handled, ?_⟩
  intro other same
  cases same
  by_contra wrong
  rw [if_pos wrong] at ret
  cases ret

theorem serve_grown {env : VnsEnv} {buf : Bytes} {command : Nat} {served : Served}
    (done : serve env buf command = .ok (1, served)) : Grown env.sr served := by
  rw [serve] at done
  split at done
  · rw [servePacket] at done
    obtain ⟨other, -, done⟩ := ok_of_bind done
    split at done
    · cases done
      exact grown_of_other (by simp)
    · rw [passPacket] at done
      obtain ⟨mLen, -, done⟩ := ok_of_bind done
      obtain ⟨dump, -, done⟩ := ok_of_bind done
      obtain ⟨action, -, done⟩ := ok_of_bind done
      cases done
      exact grown_of_other (by simp)
  split at done
  · obtain ⟨message, -, done⟩ := ok_of_bind done
    cases done
  split at done
  · obtain ⟨message, -, done⟩ := ok_of_bind done
    cases done
    exact grown_of_other (by simp)
  split at done
  · exact serveHwinfo_grown done
  split at done
  · rw [serveRtable] at done
    obtain ⟨name, -, done⟩ := ok_of_bind done
    dsimp only at done
    split at done
    · obtain ⟨mLen, -, done⟩ := ok_of_bind done
      obtain ⟨contents, -, done⟩ := ok_of_bind done
      cases done
      exact grown_of_other (by simp)
    · cases done
  split at done
  · rw [serveAuthRequest] at done
    split at done
    · obtain ⟨mLen, -, done⟩ := ok_of_bind done
      obtain ⟨salt, -, done⟩ := ok_of_bind done
      rw [pure_eq_ok, Except.ok.injEq, Prod.mk.injEq] at done
      rw [← done.2]
      exact grown_of_other (by simp)
    · cases done
  split at done
  · rw [serveAuthStatus] at done
    obtain ⟨ok, -, done⟩ := ok_of_bind done
    split at done
    · obtain ⟨message, -, done⟩ := ok_of_bind done
      cases done
    · cases done
      exact grown_of_other (by simp)
  · cases done
    exact grown_of_other (by simp)

/-- What is accepted from the stream keeps the interfaces. -/
theorem srReadFromServerExpect_grown {malloc : Nat → Option Bytes} {env : VnsEnv} {fuel : Nat}
    {arrivals rest : List Proxy.Arrival} {served : Served}
    (reads : srReadFromServerExpect malloc env 0 fuel arrivals = some (.ok (1, served), rest)) :
    Grown env.sr served := by
  rw [srReadFromServerExpect] at reads
  obtain ⟨reading, -, reads⟩ := Option.bind_eq_some_iff.mp reads
  cases reading with
  | failed => simp at reads
  | done first rest =>
      dsimp only at reads
      split at reads
      · simp at reads
      split at reads
      · simp at reads
      obtain ⟨reading, -, reads⟩ := Option.bind_eq_some_iff.mp reads
      cases reading with
      | failed => simp at reads
      | done body rest =>
          rw [Option.some.injEq, Prod.mk.injEq, srServeMessage] at reads
          obtain ⟨buf, -, reads⟩ := ok_of_bind reads.1
          obtain ⟨buf, -, reads⟩ := ok_of_bind reads
          obtain ⟨command, -, reads⟩ := ok_of_bind reads
          dsimp only at reads
          split at reads
          · exact serve_grown reads
          · cases reads

section

variable {malloc : Nat → Option Bytes} {around : Nat → VnsEnv} {fuel turns k : Nat}
  {sr : Instance} {arrivals : List Proxy.Arrival}
  {trace : List (Instance × Except Fault (Int × Served))}

/-- One turn: the loop ends, or has accepted a message and goes on. -/
theorem mainLoop_cases
    (run : mainLoop malloc around fuel (turns + 1) k sr arrivals = some trace) :
    (∃ result, trace = [(sr, result)] ∧ ∀ served, result ≠ .ok (1, served)) ∨
      ∃ served rest later, Grown sr served ∧
        mainLoop malloc around fuel turns (k + 1) { sr with ifList := served.ifList sr.ifList }
          rest = some later ∧
        trace = (sr, .ok (1, served)) :: later := by
  rw [mainLoop] at run
  obtain ⟨⟨result, rest⟩, reads, run⟩ := Option.bind_eq_some_iff.mp run
  dsimp only at run
  cases result with
  | error fault =>
      cases run
      exact .inl ⟨.error fault, rfl, by simp⟩
  | ok result =>
      obtain ⟨ret, served⟩ := result
      dsimp only at run
      split at run
      · next accepted =>
          subst accepted
          obtain ⟨later, rest_run, run⟩ := Option.bind_eq_some_iff.mp run
          cases run
          exact .inr ⟨served, rest, later, srReadFromServerExpect_grown reads, rest_run, rfl⟩
      · next refused =>
          cases run
          refine .inl ⟨.ok (ret, served), rfl, fun other same => refused ?_⟩
          cases same
          rfl

/-- Routes that lead to interfaces go on leading to them. -/
theorem mainLoop_lead (run : mainLoop malloc around fuel turns k sr arrivals = some trace)
    (lead : RoutesLead sr) : ∀ entry ∈ trace, RoutesLead entry.1 := by
  induction turns generalizing k sr arrivals trace with
  | zero =>
      cases run
      simp
  | succ turns ih =>
      rcases mainLoop_cases run with ⟨result, rfl, -⟩ | ⟨served, rest, later, grown, goes, rfl⟩
      · intro entry member
        rw [List.mem_singleton.mp member]
        exact lead
      · intro entry member
        rcases List.mem_cons.mp member with rfl | member
        · exact lead
        · exact ih goes (lead.mono grown.names) entry member

/-- Whatever arrives, from the first message on that has told the router of its interfaces and
been accepted, every route leads to an interface. -/
theorem mainLoop_consistent {told : Instance} {ifList : List Interface}
    {before after : List (Instance × Except Fault (Int × Served))}
    (run : mainLoop malloc around fuel turns k sr arrivals = some trace)
    (accepted : trace = before ++ (told, .ok (1, .hardware ifList)) :: after) :
    ∀ entry ∈ after, RoutesLead entry.1 := by
  induction turns generalizing k sr arrivals trace before with
  | zero =>
      cases run
      exact absurd accepted (by simp)
  | succ turns ih =>
      rcases mainLoop_cases run with
        ⟨result, rfl, other⟩ | ⟨served, rest, later, grown, goes, rfl⟩
      · have last : (told, Except.ok (1, .hardware ifList)) ∈ [(sr, result)] := by
          rw [accepted]
          simp
        rw [List.mem_singleton, Prod.mk.injEq] at last
        exact absurd last.2.symm (other _)
      · cases before with
        | nil =>
            rw [List.nil_append, List.cons.injEq, Prod.mk.injEq] at accepted
            obtain ⟨⟨rfl, same⟩, rfl⟩ := accepted
            cases same
            exact mainLoop_lead goes (routesLead_of_verified (grown.lead ifList rfl))
        | cons entry before =>
            rw [List.cons_append, List.cons.injEq] at accepted
            exact ih goes accepted.2

end

/-- The client is told of e1. -/
theorem serveAll_two :
    serveAll (fun _ => oneInterfaceEnv) 0 ⟨[], oneInterface.routingTable⟩ twoMessages =
      [] ++ (⟨[], oneInterface.routingTable⟩, .ok (1, .hardware [routerPort.interface.client])) ::
        serveAll (fun _ => oneInterfaceEnv) 1
          ⟨[routerPort.interface.client], oneInterface.routingTable⟩
          [.packet [101, 49] (List.replicate 60 0)] :=
  rfl

theorem mainLoop_consistent_two :
    RoutesLead ⟨[routerPort.interface.client], oneInterface.routingTable⟩ :=
  mainLoop_consistent
    (mainLoop_eq 0 ⟨[], oneInterface.routingTable⟩ twoMessages_sound (by simp) twoArrivals_short
      stream_twoArrivals (fun n => ⟨List.replicate n 0, rfl, List.length_replicate⟩)
      (show work twoArrivals < 1000 by decide +kernel)) serveAll_two _ List.mem_cons_self

end CompNet.Router
