import CompNet.Router.VnsServer

/-!
# The session of a router

The server of `srhandler.py` and the client of `sr_vns_comm.c`, with the messages between
them: the salt, the digest, the status, `VNSOPEN`, the interfaces, and then frames both ways.
The server broadcasts a frame from the switch to every client that has connected, however far
the session has come.  `session_ends_iff` says for which runs the client gives up,
`session_frames` what the others have exchanged.
-/

namespace CompNet.Router

open CompNet.Lib

/-! ## The server -/

/-- An entry of the dictionary of a `RouterInfo`, parsed. -/
structure RouterPort where
  name : Bytes
  ip : Bytes
  mac : Bytes
  ipSize : ip.length = 4
  macSize : mac.length = 6
  port : Nat

/-- The interface that is made of it. -/
def RouterPort.interface (info : RouterPort) : VNSInterface where
  name := info.name
  mac := info.mac
  ip := info.ip
  mask := [255, 255, 255, 255]
  macSize := info.macSize
  ipSize := info.ipSize
  maskSize := rfl

/-- `SRServerListener`, with one client.  In a dictionary the first entry of a key counts. -/
structure SRServerListener where
  interfaces : Option (List VNSInterface)
  intfnameToPort : List (Bytes × Nat)
  portToIntfname : List (Nat × Bytes)
  srclient : Bool

/-- `_handle_RouterInfo`. -/
def SRServerListener.handleRouterInfo (info : List RouterPort) (server : SRServerListener) :
    SRServerListener :=
  { server with
    interfaces := some (info.map RouterPort.interface)
    intfnameToPort := info.reverse.map (fun entry => (entry.name, entry.port)) ++
      server.intfnameToPort
    portToIntfname := info.reverse.map (fun entry => (entry.port, entry.name)) ++
      server.portToIntfname }

/-- What a handler comes to: a message for the client, an event for the switch, or an
exception. -/
inductive Handled
  | nothing
  | send (message : ServerMessage)
  | packetOut (frame : Bytes) (port : Nat)
  | exception

/-- `_handle_recv_msg`, with the status that `_handle_auth_reply` formats.  The message is parsed
by `ltprotocol`, which is assumed to read what `wire` lays out. -/
def SRServerListener.handleRecvMsg (server : SRServerListener) (status bytes : Bytes) : Handled :=
  let type := ntohl (field bytes 4 4)
  let body := bytes.drop 8
  if type = vnsAuthReply then
    match unpackAuthReply body with
    | none => .exception
    | some _ => .send (.authStatus status)
  else if type = 1 then
    if body.length ≠ 100 then .exception
    else
      match server.interfaces with
      | none => .nothing
      | some interfaces => .send (.hardwareInfo interfaces)
  else if type = vnsPacket then
    if body.length < 16 then .exception
    else
      match server.intfnameToPort.lookup ((body.take 16).filter (· != 0)) with
      | none => .exception
      | some port => .packetOut (body.drop 16) port
  else .nothing

/-! ## The client -/

/-- How far the client has come: the command it expects, or any. -/
inductive Phase
  | authRequest
  | authStatus
  | running
  | ended
  deriving DecidableEq, Repr

/-- The command of `sr_connect_to_server` for a topology and not for a template. -/
def openCommand (topoId : Nat) (host user : Bytes) : Bytes :=
  wire 1 ([UInt8.ofNat (topoId / 256), UInt8.ofNat topoId, 0, 0] ++ packString 32 host ++
    packString 32 user ++ List.replicate 32 0)

/-- The bytes of `sr_send_packet`. -/
def packetBytes (iface frame : Bytes) : Bytes := wire vnsPacket (packString 16 iface ++ frame)

/-- Whether `sr_send_packet` comes to write them. -/
def sendsPacket (sr : Instance) (iface frame : Bytes) : Bool :=
  14 ≤ frame.length && srEtherAddrsMatchInterface sr frame iface

/-- `sr_read_from_server_expect` for one message that comes whole, with the reply it sends. -/
def clientServes (env : VnsEnv) (auth : AuthEnv) (expected : Nat) (message : ServerMessage) :
    Except Fault (Int × Served × Option Bytes) :=
  if message.wire.length > 10000 then .ok (-1, .nothing, none)
  else
    match auth.malloc message.wire.length with
    | none => .ok (-1, .nothing, none)
    | some mem =>
        if message.type = vnsAuthRequest ∧ taken expected message.type then do
          let (sent, reply) ← srHandleAuthRequest auth message.wire
          pure (if sent = 0 then -1 else 1, .nothing, reply)
        else do
          let (ret, served) ← srServeMessage env expected mem (message.wire.drop 4)
          pure (ret, served, none)

/-! ## Both -/

/-- The two sides and the messages between them; then what has happened: the interfaces the
client was sent, the frames that were broadcast and those the client has served, the packets
it has sent and the events that were raised for them. -/
structure Session where
  server : SRServerListener
  toClient : List ServerMessage
  toServer : List Bytes
  phase : Phase
  sr : Instance
  command : Bytes
  told : List VNSInterface
  broadcasts : List (Bytes × Bytes)
  log : List ((Bytes × Bytes) × Served)
  sent : List (Bytes × Bytes)
  raised : List (Bytes × Nat)
  failed : Bool

/-- Before the client connects. -/
def Session.start (routes : List Route) (topoId : Nat) (host user : Bytes) : Session where
  server := ⟨none, [], [], false⟩
  toClient := []
  toServer := []
  phase := .authRequest
  sr := ⟨[], routes⟩
  command := openCommand topoId host user
  told := []
  broadcasts := []
  log := []
  sent := []
  raised := []
  failed := false

inductive SessionEvent
  | routerInfo (info : List RouterPort)
  | connect (salt : Bytes)
  | packetIn (port : Nat) (frame : Bytes)
  | serverReads (status : Bytes)
  | clientReads (env : VnsEnv) (auth : AuthEnv)
  | clientSends (iface frame : Bytes) (write : Bytes → Int)

/-- What the server makes of the first message. -/
def Session.serverHandles (s : Session) : Handled → Session
  | .nothing => s
  | .send message =>
      { s with
        toClient := s.toClient ++ [message]
        told := match message with
          | .hardwareInfo interfaces => s.told ++ interfaces
          | _ => s.told }
  | .packetOut frame port => { s with raised := s.raised ++ [(frame, port)] }
  | .exception => { s with failed := true }

/-- The interfaces after a message. -/
def Served.ifList (before : List Interface) : Served → List Interface
  | .hardware ifList => ifList
  | _ => before

/-- A message that the main loop has served. -/
def Session.looped (s : Session) (served : Served) : ServerMessage → Session
  | .packet name frame => { s with log := s.log ++ [((name, frame), served)] }
  | .hardwareInfo _ => { s with sr := { s.sr with ifList := served.ifList s.sr.ifList } }
  | .authRequest _ => s
  | .authStatus _ => s

/-- What the client goes on with when it has served a message.  It gives up if `send` does not
take the whole command; a part of it is no message. -/
def Session.goesOn (s : Session) (send : Bytes → Int) (message : ServerMessage) (served : Served)
    (reply : Option Bytes) : Session :=
  let s := { s with toServer := s.toServer ++ reply.toList }
  match s.phase with
  | .authRequest => { s with phase := .authStatus }
  | .authStatus =>
      if send s.command = s.command.length then
        { s with phase := .running, toServer := s.toServer ++ [s.command] }
      else { s with phase := .ended }
  | .running => s.looped served message
  | .ended => s

/-- `sr_connect_to_server` and the main loop go on if 1 is returned. -/
def Session.answered (s : Session) (send : Bytes → Int) (message : ServerMessage) :
    Except Fault (Int × Served × Option Bytes) → Session
  | .ok (ret, served, reply) =>
      if ret = 1 then s.goesOn send message served reply else { s with phase := .ended }
  | .error _ => { s with phase := .ended }

/-- The command that is expected; 0 is any. -/
def Phase.expected : Phase → Nat
  | .authRequest => vnsAuthRequest
  | .authStatus => vnsAuthStatus
  | .running => 0
  | .ended => 0

def SessionEvent.exec (s : Session) : SessionEvent → Session
  | .routerInfo info => { s with server := s.server.handleRouterInfo info }
  | .connect salt =>
      if s.server.srclient then s
      else
        { s with
          server := { s.server with srclient := true }
          toClient := s.toClient ++ [.authRequest salt] }
  | .packetIn port frame =>
      match s.server.portToIntfname.lookup port with
      | none => s
      | some name =>
          if s.server.srclient then
            { s with
              toClient := s.toClient ++ [.packet name frame]
              broadcasts := s.broadcasts ++ [(name, frame)] }
          else s
  | .serverReads status =>
      match s.toServer with
      | [] => s
      | bytes :: rest =>
          { s with toServer := rest }.serverHandles (s.server.handleRecvMsg status bytes)
  | .clientReads env auth =>
      if s.phase = .ended then s
      else
        match s.toClient with
        | [] => s
        | message :: rest =>
            { s with toClient := rest }.answered auth.send message
              (clientServes { env with sr := s.sr } auth s.phase.expected message)
  | .clientSends iface frame write =>
      if s.phase = .running ∧ sendsPacket s.sr iface frame ∧
          (packetBytes iface frame).length ≤ write (packetBytes iface frame) then
        { s with
          toServer := s.toServer ++ [packetBytes iface frame]
          sent := s.sent ++ [(iface, frame)] }
      else s

/-- One event after the other, in any order. -/
def Session.run (s : Session) (events : List SessionEvent) : Session :=
  events.foldl SessionEvent.exec s

/-! ## Messages the client serves -/

/-- A name that the field of a frame has room for. -/
def ShortName (name : Bytes) : Prop := 0 ∉ name ∧ name.length < 16

/-- A message that the client has room for, with a whole frame. -/
def ServerMessage.Sound : ServerMessage → Prop
  | .authRequest salt => salt.length = 20
  | .authStatus msg => msg.length + 9 ≤ 10000
  | .hardwareInfo interfaces =>
      interfaces.length ≤ 46 ∧ ∀ intf ∈ interfaces, ShortName intf.name
  | .packet name frame => ShortName name ∧ 42 ≤ frame.length ∧ frame.length + 24 ≤ 10000

/-- The lengths of messages that the client has room for. -/
theorem ServerMessage.Sound.length {message : ServerMessage} (sound : message.Sound) :
    8 ≤ message.wire.length ∧ message.wire.length ≤ 10000 := by
  have size := length_wire message.type message.pack
  rw [ServerMessage.wire]
  cases message with
  | authRequest salt =>
      have salted : salt.length = 20 := sound
      rw [size, ServerMessage.pack]
      omega
  | authStatus msg =>
      have short : msg.length + 9 ≤ 10000 := sound
      rw [size, ServerMessage.pack, List.length_cons]
      omega
  | hardwareInfo interfaces =>
      have few : interfaces.length ≤ 46 := sound.1
      rw [size, ServerMessage.pack, length_hardware]
      omega
  | packet name frame =>
      have most : frame.length + 24 ≤ 10000 := sound.2.2
      rw [size, ServerMessage.pack, List.length_append, length_packString]
      omega

/-- A client with a key, a name, and memory for messages; `send` takes what it is given whole. -/
structure AuthEnv.Ready (auth : AuthEnv) : Prop where
  key : ∃ file, auth.file = some file ∧ file ≠ []
  name : ∃ user, cstring auth.user = some user
  array : auth.user.length = 32
  memory : ∀ n, auth.malloc n ≠ none
  whole : ∀ bytes, auth.send bytes = bytes.length

section

variable {env : VnsEnv} {auth : AuthEnv} {expected : Nat} {message : ServerMessage}

theorem clientServes_refused (full : auth.malloc message.wire.length = none) :
    clientServes env auth expected message = .ok (-1, .nothing, none) := by
  rw [clientServes, full]
  exact ite_self _

theorem clientServes_untaken (untaken : taken expected message.type = false) :
    clientServes env auth expected message = .ok (-1, .nothing, none) := by
  cases memory : auth.malloc message.wire.length with
  | none => exact clientServes_refused memory
  | some mem =>
      have refused : ¬ (message.type = vnsAuthRequest ∧ taken expected message.type = true) := by
        simp [untaken]
      rw [clientServes, memory]
      dsimp only
      rw [if_neg refused,
        srServeMessage_wire env expected message (auth.mallocSize _ mem memory), untaken]
      exact ite_self _

theorem clientServes_other (sound : message.Sound) (memory : auth.malloc message.wire.length ≠ none)
    (other : message.type ≠ vnsAuthRequest) (takes : taken expected message.type = true) :
    clientServes env auth expected message =
      serve env message.wire message.type >>= fun result => .ok (result.1, result.2, none) := by
  obtain ⟨mem, allocated⟩ := Option.ne_none_iff_exists'.mp memory
  rw [clientServes, if_neg (Nat.not_lt.mpr sound.length.2), allocated]
  dsimp only
  rw [if_neg (fun given => other given.1),
    srServeMessage_wire env expected message (auth.mallocSize _ mem allocated), if_pos takes]
  rfl

theorem clientServes_authRequest {salt : Bytes} (ready : auth.Ready) (size : salt.length = 20)
    (takes : taken expected vnsAuthRequest = true) :
    ∃ user words, user.length < 2 ^ 32 ∧
      clientServes env auth expected (.authRequest salt) =
        .ok (1, .nothing, some (authReply user words)) := by
  obtain ⟨⟨file, opened, nonempty⟩, ⟨user, name⟩, array, memory, whole⟩ := ready
  have length : (ServerMessage.authRequest salt).wire.length = 28 := by
    rw [ServerMessage.wire, length_wire, ServerMessage.pack, size]
  have stored : field (ServerMessage.authRequest salt).wire 0 4 =
      htonl (ServerMessage.authRequest salt).wire.length := by
    rw [ServerMessage.wire, length_wire]
    rfl
  obtain ⟨mem, allocated⟩ := Option.ne_none_iff_exists'.mp (memory (12 + user.length + 20))
  have short : user.length < 2 ^ 32 := by
    have inside : user.length ≤ auth.user.length := by
      obtain ⟨-, post, text⟩ := cstring_eq_some name
      rw [text, List.length_append]
      exact Nat.le_add_right _ _
    omega
  refine ⟨user, Sha1.digest ((ServerMessage.authRequest salt).wire.drop 8 ++ keyBlock auth file),
    short, ?_⟩
  obtain ⟨buf, received⟩ := Option.ne_none_iff_exists'.mp
    (memory (ServerMessage.authRequest salt).wire.length)
  rw [clientServes, if_neg (by omega), received]
  dsimp only
  rw [if_pos ⟨rfl, takes⟩, srHandleAuthRequest_eq (by omega) stored (by omega) opened nonempty,
    sendAuthReply_ok _ name allocated, if_pos (whole _)]
  rfl

theorem clientServes_authStatus {msg : Bytes} (sound : (ServerMessage.authStatus msg).Sound)
    (memory : auth.malloc (ServerMessage.authStatus msg).wire.length ≠ none)
    (takes : taken expected vnsAuthStatus = true) :
    clientServes env auth expected (.authStatus msg) = .ok (1, .nothing, none) := by
  have ok : read (ServerMessage.authStatus msg).wire 8 1 = .ok [1] := by
    rw [ServerMessage.wire, wire]
    exact @read_append _ [1] msg 8 1 rfl rfl
  rw [clientServes_other sound memory (show vnsAuthStatus ≠ vnsAuthRequest by decide) takes]
  show (serveAuthStatus (ServerMessage.authStatus msg).wire >>= _) = _
  rw [serveAuthStatus, ok, ok_bind, if_neg (by decide)]
  rfl

theorem clientServes_hardwareInfo {interfaces : List VNSInterface}
    (sound : (ServerMessage.hardwareInfo interfaces).Sound)
    (memory : auth.malloc (ServerMessage.hardwareInfo interfaces).wire.length ≠ none) :
    clientServes env auth 0 (.hardwareInfo interfaces) =
      .ok (if srVerifyRoutingTable (env.sr.ifList ++ interfaces.map VNSInterface.client)
          env.sr.routingTable ≠ 0 then -1 else 1,
        .hardware (env.sr.ifList ++ interfaces.map VNSInterface.client), none) := by
  have few : interfaces.length ≤ 46 := sound.1
  have told := serveHwinfo_wire env (show 8 + 216 * interfaces.length ≤ 10000 by omega)
    fun intf member => ⟨(sound.2 intf member).1, (sound.2 intf member).2.le.trans (by omega)⟩
  rw [clientServes_other sound memory (show vnsHwinfo ≠ vnsAuthRequest by decide) rfl]
  show (serveHwinfo env (ServerMessage.hardwareInfo interfaces).wire >>= _) = _
  rw [told]
  rfl

theorem clientServes_packet {name frame : Bytes} (sound : (ServerMessage.packet name frame).Sound)
    (memory : auth.malloc (ServerMessage.packet name frame).wire.length ≠ none)
    (named : ∀ iface ∈ env.sr.ifList, 0 ∉ iface.name) :
    clientServes env auth 0 (.packet name frame) =
      match srGetInterface env.sr name with
      | none => .error .nullPointer
      | some iface =>
          if arpForOther iface frame then .ok (1, .nothing, none)
          else
            srHandlepacketAction env.sr env.entries env.mem frame name >>= fun action =>
              .ok (1, .frame frame name action, none) := by
  have served := servePacket_wire sound.1.1 sound.1.2 named sound.2.1 sound.2.2
  rw [clientServes_other sound memory (show vnsPacket ≠ vnsAuthRequest by decide) rfl]
  show (servePacket env (ServerMessage.packet name frame).wire >>= _) = _
  rw [served]
  cases srGetInterface env.sr name with
  | none => rfl
  | some iface =>
      dsimp only
      split
      · rfl
      · cases srHandlepacketAction env.sr env.entries env.mem frame name <;> rfl

end

/-! ## All runs -/

/-- The client has room for what it is told, and the routes lead to the interfaces. -/
def SessionEvent.Sound (routes : List Route) : SessionEvent → Prop
  | .routerInfo info =>
      info.length ≤ 46 ∧ (∀ entry ∈ info, ShortName entry.name) ∧
        srVerifyRoutingTable (info.map fun entry => entry.interface.client) routes = 0
  | .connect salt => salt.length = 20
  | .packetIn _ frame => 42 ≤ frame.length ∧ frame.length + 24 ≤ 10000
  | .serverReads status => status.length + 9 ≤ 10000
  | .clientReads _ auth => auth.Ready
  | .clientSends _ _ write => ∀ bytes, write bytes = bytes.length ∨ write bytes < 0

/-- Interfaces that the server has been told of. -/
structure Announced (intfnameToPort : List (Bytes × Nat)) (routes : List Route)
    (interfaces : List VNSInterface) : Prop where
  few : interfaces.length ≤ 46
  short : ∀ intf ∈ interfaces, ShortName intf.name
  ports : ∀ intf ∈ interfaces, (intfnameToPort.lookup intf.name).isSome
  verified : srVerifyRoutingTable (interfaces.map VNSInterface.client) routes = 0

/-- What holds after every run. -/
structure Session.Sound (routes : List Route) (s : Session) : Prop where
  table : s.sr.routingTable = routes
  messages : ∀ message ∈ s.toClient, message.Sound
  announced : ∀ interfaces, s.server.interfaces = some interfaces →
    Announced s.server.intfnameToPort routes interfaces
  ports : ∀ entry ∈ s.server.portToIntfname, ShortName entry.2
  known : ∀ iface ∈ s.sr.ifList, ∃ intf ∈ s.told, intf.name = iface.name
  coming : ∀ interfaces, .hardwareInfo interfaces ∈ s.toClient → ∀ intf ∈ interfaces, intf ∈ s.told
  told : ∀ intf ∈ s.told, ShortName intf.name

section

variable {routes : List Route} {s : Session}

theorem sound_start (routes : List Route) (topoId : Nat) (host user : Bytes) :
    (Session.start routes topoId host user).Sound routes where
  table := rfl
  messages := by simp [Session.start]
  announced := by simp [Session.start]
  ports := by simp [Session.start]
  known := by simp [Session.start]
  coming := by simp [Session.start]
  told := by simp [Session.start]

/-- The client's interfaces have names that end. -/
theorem Session.Sound.named (sound : s.Sound routes) : ∀ iface ∈ s.sr.ifList, 0 ∉ iface.name := by
  intro iface member
  obtain ⟨intf, told, same⟩ := sound.known iface member
  rw [← same]
  exact (sound.told intf told).1

theorem Session.Sound.routerInfo {info : List RouterPort} (sound : s.Sound routes)
    (event : (SessionEvent.routerInfo info).Sound routes) :
    (SessionEvent.exec s (.routerInfo info)).Sound routes := by
  obtain ⟨few, short, verified⟩ := event
  refine { sound with announced := ?_, ports := ?_ }
  · intro interfaces same
    cases same
    refine ⟨by rw [List.length_map]; exact few, ?_, ?_, by rw [List.map_map]; exact verified⟩
    · intro intf member
      obtain ⟨entry, inside, rfl⟩ := List.mem_map.mp member
      exact short entry inside
    · intro intf member
      obtain ⟨entry, inside, rfl⟩ := List.mem_map.mp member
      refine List.lookup_isSome_iff.mpr ⟨(entry.name, entry.port), ?_, beq_self_eq_true _⟩
      apply List.mem_append_left
      exact List.mem_map.mpr ⟨entry, List.mem_reverse.mpr inside, rfl⟩
  · intro entry member
    rcases List.mem_append.mp member with new | old
    · obtain ⟨port, inside, rfl⟩ := List.mem_map.mp new
      exact short port (List.mem_reverse.mp inside)
    · exact sound.ports entry old

/-- Another message for the client. -/
theorem Session.Sound.message {message : ServerMessage} {more : List VNSInterface}
    (sound : s.Sound routes) (whole : message.Sound)
    (told : ∀ intf ∈ more, ShortName intf.name)
    (coming : ∀ interfaces, message = .hardwareInfo interfaces → ∀ intf ∈ interfaces,
      intf ∈ s.told ++ more) :
    ({ s with toClient := s.toClient ++ [message], told := s.told ++ more } : Session).Sound
      routes := by
  refine { sound with messages := ?_, known := ?_, coming := ?_, told := ?_ }
  · intro other member
    rcases List.mem_append.mp member with old | new
    · exact sound.messages other old
    · rw [List.mem_singleton.mp new]
      exact whole
  · intro iface member
    obtain ⟨intf, before, same⟩ := sound.known iface member
    exact ⟨intf, List.mem_append_left more before, same⟩
  · intro interfaces member intf inside
    rcases List.mem_append.mp member with old | new
    · exact List.mem_append_left more (sound.coming interfaces old intf inside)
    · exact coming interfaces (List.mem_singleton.mp new).symm intf inside
  · intro intf member
    rcases List.mem_append.mp member with old | new
    · exact sound.told intf old
    · exact told intf new

/-- What the client goes on with differs only in how far it is, in what it sends and has
served, and in its interfaces. -/
theorem Session.goesOn_eq (s : Session) (send : Bytes → Int) (message : ServerMessage)
    (served : Served) (reply : Option Bytes) :
    ∃ phase toServer log ifList,
      s.goesOn send message served reply =
        { s with
          phase := phase
          toServer := toServer
          log := log
          sr := { s.sr with ifList := ifList } } ∧
      (ifList = s.sr.ifList ∨
        ∃ interfaces, s.phase = .running ∧ message = .hardwareInfo interfaces ∧
          ifList = served.ifList s.sr.ifList) := by
  cases far : s.phase with
  | authRequest => exact ⟨_, _, s.log, s.sr.ifList, by rw [Session.goesOn, far], .inl rfl⟩
  | authStatus =>
      rw [Session.goesOn, far]
      dsimp only
      split
      · exact ⟨_, _, s.log, s.sr.ifList, rfl, .inl rfl⟩
      · exact ⟨_, _, s.log, s.sr.ifList, rfl, .inl rfl⟩
  | ended => exact ⟨_, _, s.log, s.sr.ifList, by rw [Session.goesOn, far], .inl rfl⟩
  | running =>
      cases message with
      | hardwareInfo interfaces =>
          exact ⟨_, _, s.log, _, by rw [Session.goesOn, far]; rfl, .inr ⟨_, rfl, rfl, rfl⟩⟩
      | packet name frame =>
          exact ⟨_, _, _, s.sr.ifList, by rw [Session.goesOn, far]; rfl, .inl rfl⟩
      | authRequest salt =>
          exact ⟨_, _, s.log, s.sr.ifList, by rw [Session.goesOn, far]; rfl, .inl rfl⟩
      | authStatus msg =>
          exact ⟨_, _, s.log, s.sr.ifList, by rw [Session.goesOn, far]; rfl, .inl rfl⟩

/-- The first message has been served. -/
theorem Session.Sound.consumed {message : ServerMessage} {rest : List ServerMessage}
    (sound : s.Sound routes) (queue : s.toClient = message :: rest) {ifList : List Interface}
    (known : ∀ iface ∈ ifList, ∃ intf ∈ s.told, intf.name = iface.name) (phase : Phase)
    (toServer : List Bytes) (log : List ((Bytes × Bytes) × Served)) :
    ({ s with
      toClient := rest
      phase := phase
      toServer := toServer
      log := log
      sr := { s.sr with ifList := ifList } } : Session).Sound routes := by
  have later (other : ServerMessage) (member : other ∈ rest) : other ∈ s.toClient := by
    rw [queue]
    exact List.mem_cons_of_mem message member
  exact { sound with
    messages := fun other member => sound.messages other (later other member)
    known := known
    coming := fun interfaces member => sound.coming interfaces (later _ member) }

/-- What the client makes of the first message. -/
theorem Session.Sound.clientReads_eq {message : ServerMessage} {rest : List ServerMessage}
    {env : VnsEnv} {auth : AuthEnv} (sound : s.Sound routes) (queue : s.toClient = message :: rest)
    (going : s.phase ≠ .ended) :
    ∃ phase toServer log ifList,
      SessionEvent.exec s (.clientReads env auth) =
        { s with
          toClient := rest
          phase := phase
          toServer := toServer
          log := log
          sr := { s.sr with ifList := ifList } } ∧
      (ifList = s.sr.ifList ∨ ∃ interfaces, message = .hardwareInfo interfaces ∧
        ifList = s.sr.ifList ++ interfaces.map VNSInterface.client) := by
  rw [SessionEvent.exec, if_neg going, queue]
  dsimp only
  cases done : clientServes { env with sr := s.sr } auth s.phase.expected message with
  | error fault => exact ⟨.ended, s.toServer, s.log, s.sr.ifList, rfl, .inl rfl⟩
  | ok result =>
      obtain ⟨ret, served, reply⟩ := result
      rw [Session.answered]
      split
      · next one =>
        obtain ⟨phase, toServer, log, ifList, same, which⟩ :=
          ({ s with toClient := rest } : Session).goesOn_eq auth.send message served reply
        refine ⟨phase, toServer, log, ifList, same, ?_⟩
        rcases which with old | ⟨interfaces, running, rfl, new⟩
        · exact .inl old
        · have whole := sound.messages (.hardwareInfo interfaces) (by rw [queue]; simp)
          have far : s.phase.expected = 0 := by
            rw [show s.phase = .running from running]
            rfl
          by_cases memory : auth.malloc (ServerMessage.hardwareInfo interfaces).wire.length = none
          · rw [clientServes_refused memory, Except.ok.injEq, Prod.mk.injEq] at done
            exact absurd (done.1.trans one) (by decide)
          · rw [far, clientServes_hardwareInfo whole memory, Except.ok.injEq, Prod.mk.injEq,
              Prod.mk.injEq] at done
            obtain ⟨-, rfl, -⟩ := done
            exact .inr ⟨interfaces, rfl, new⟩
      · exact ⟨.ended, s.toServer, s.log, s.sr.ifList, rfl, .inl rfl⟩

theorem clientReads_ended {env : VnsEnv} {auth : AuthEnv} (ended : s.phase = .ended) :
    SessionEvent.exec s (.clientReads env auth) = s := by
  rw [SessionEvent.exec, if_pos ended]

theorem clientReads_nil {env : VnsEnv} {auth : AuthEnv} (none : s.toClient = []) :
    SessionEvent.exec s (.clientReads env auth) = s := by
  rw [SessionEvent.exec, none]
  exact ite_self s

theorem Session.Sound.clientReads {env : VnsEnv} {auth : AuthEnv} (sound : s.Sound routes) :
    (SessionEvent.exec s (.clientReads env auth)).Sound routes := by
  by_cases ended : s.phase = .ended
  · rw [clientReads_ended ended]
    exact sound
  cases queue : s.toClient with
  | nil =>
      rw [clientReads_nil queue]
      exact sound
  | cons message rest =>
      obtain ⟨phase, toServer, log, ifList, same, which⟩ :=
        @Session.Sound.clientReads_eq _ _ _ _ env auth sound queue ended
      rw [same]
      refine sound.consumed queue ?_ phase toServer log
      rcases which with rfl | ⟨interfaces, rfl, rfl⟩
      · exact sound.known
      · intro iface member
        rcases List.mem_append.mp member with before | told
        · exact sound.known iface before
        · obtain ⟨intf, inside, rfl⟩ := List.mem_map.mp told
          exact ⟨intf, sound.coming interfaces (by rw [queue]; simp) intf inside, rfl⟩

/-- The messages that the server sends in return. -/
theorem handleRecvMsg_send {server : SRServerListener} {status bytes : Bytes}
    {message : ServerMessage} (handled : server.handleRecvMsg status bytes = .send message) :
    message = .authStatus status ∨
      ∃ interfaces, server.interfaces = some interfaces ∧ message = .hardwareInfo interfaces := by
  rw [SRServerListener.handleRecvMsg] at handled
  split at handled
  · split at handled
    · cases handled
    · cases handled
      exact .inl rfl
  split at handled
  · split at handled
    · cases handled
    split at handled
    · cases handled
    · next interfaces known =>
        cases handled
        exact .inr ⟨interfaces, known, rfl⟩
  split at handled
  · split at handled
    · cases handled
    split at handled
    · cases handled
    · cases handled
  · cases handled

theorem Session.Sound.serverReads {status : Bytes} (sound : s.Sound routes)
    (short : status.length + 9 ≤ 10000) :
    (SessionEvent.exec s (.serverReads status)).Sound routes := by
  rw [SessionEvent.exec]
  split
  · exact sound
  · next bytes rest queue =>
      have rested : ({ s with toServer := rest } : Session).Sound routes := { sound with }
      cases handled : s.server.handleRecvMsg status bytes with
      | nothing => exact rested
      | packetOut frame port => exact { sound with }
      | exception => exact { sound with }
      | send message =>
          rcases handleRecvMsg_send handled with rfl | ⟨interfaces, known, rfl⟩
          · have more := @Session.Sound.message routes _ (.authStatus status) [] rested short
              (by simp) (by simp)
            rw [List.append_nil] at more
            exact more
          · have announced := sound.announced interfaces known
            refine @Session.Sound.message routes _ (.hardwareInfo interfaces) interfaces rested
              ⟨announced.few, announced.short⟩ announced.short ?_
            rintro other ⟨⟩ intf member
            exact List.mem_append_right s.told member

/-- An event keeps what holds after every run. -/
theorem Session.Sound.exec {event : SessionEvent} (sound : s.Sound routes)
    (whole : event.Sound routes) : (event.exec s).Sound routes := by
  cases event with
  | routerInfo info => exact sound.routerInfo whole
  | connect salt =>
      rw [SessionEvent.exec]
      split
      · exact sound
      · have more := @Session.Sound.message routes _ (.authRequest salt) [] sound whole (by simp)
          (by simp)
        rw [List.append_nil] at more
        exact { more with }
  | packetIn port frame =>
      rw [SessionEvent.exec]
      split
      · exact sound
      · next name found =>
          split
          · obtain ⟨front, back, entries, -⟩ := List.lookup_eq_some_iff.mp found
            have short := sound.ports (port, name) (by rw [entries]; simp)
            have more := @Session.Sound.message routes _ (.packet name frame) [] sound
              ⟨short, whole⟩ (by simp) (by simp)
            rw [List.append_nil] at more
            exact { more with }
          · exact sound
  | serverReads status => exact sound.serverReads whole
  | clientReads env auth => exact sound.clientReads
  | clientSends iface frame write =>
      rw [SessionEvent.exec]
      split
      · exact { sound with }
      · exact sound

theorem Session.Sound.run {events : List SessionEvent} (sound : s.Sound routes)
    (whole : ∀ event ∈ events, event.Sound routes) : (s.run events).Sound routes := by
  induction events generalizing s with
  | nil => exact sound
  | cons event events ih =>
      obtain ⟨here, later⟩ := List.forall_mem_cons.mp whole
      exact ih (sound.exec here) later

/-! ## Frames that come too early -/

/-- A frame is broadcast for an interface that the client has been told of, or that it has at
least been sent. -/
def Session.Timely (s : Session) : SessionEvent → Prop
  | .packetIn port _ => ∀ name, s.server.portToIntfname.lookup port = some name →
      s.server.srclient = true → ∃ intf ∈ s.told, intf.name = name
  | _ => True

instance decidableTimely (s : Session) : (event : SessionEvent) → Decidable (s.Timely event)
  | .packetIn port _ =>
      decidable_of_iff (∀ name ∈ (s.server.portToIntfname.lookup port).toList,
        s.server.srclient = true → ∃ intf ∈ s.told, intf.name = name) (by
          simp only [Option.mem_toList, Session.Timely])
  | .routerInfo _ => isTrue trivial
  | .connect _ => isTrue trivial
  | .serverReads _ => isTrue trivial
  | .clientReads _ _ => isTrue trivial
  | .clientSends _ _ _ => isTrue trivial

/-- The client has ended, or a frame is on its way for an interface that it will not know. -/
def Session.Doomed (s : Session) : Prop :=
  s.phase = .ended ∨ ∃ front name frame back,
    s.toClient = front ++ .packet name frame :: back ∧
      (∀ iface ∈ s.sr.ifList, iface.name ≠ name) ∧
      ∀ interfaces, .hardwareInfo interfaces ∈ front → ∀ intf ∈ interfaces, intf.name ≠ name

theorem Session.Doomed.more {s' : Session} (doomed : s.Doomed) (phase : s'.phase = s.phase)
    (sr : s'.sr = s.sr) (more : s.toClient <+: s'.toClient) : s'.Doomed := by
  rcases doomed with ended | ⟨front, name, frame, back, queue, unknown, front_unknown⟩
  · exact .inl (phase.trans ended)
  · obtain ⟨behind, whole⟩ := more
    refine .inr ⟨front, name, frame, back ++ behind, ?_, by rw [sr]; exact unknown, front_unknown⟩
    rw [← whole, queue, List.append_assoc, List.cons_append]

/-- A frame for an interface that is not known ends the client. -/
theorem clientReads_unknown {name frame : Bytes} {rest : List ServerMessage} {env : VnsEnv}
    {auth : AuthEnv} (sound : s.Sound routes) (queue : s.toClient = .packet name frame :: rest)
    (unknown : ∀ iface ∈ s.sr.ifList, iface.name ≠ name) :
    (SessionEvent.exec s (.clientReads env auth)).phase = .ended := by
  have whole := sound.messages (.packet name frame) (by rw [queue]; simp)
  rw [SessionEvent.exec]
  split
  · next ended => exact ended
  · next going =>
      rw [queue]
      dsimp only
      cases far : s.phase with
      | ended => exact absurd far going
      | authRequest =>
          rw [clientServes_untaken rfl]
          rfl
      | authStatus =>
          rw [clientServes_untaken rfl]
          rfl
      | running =>
          have none : srGetInterface s.sr name = none := by
            rw [srGetInterface, List.find?_eq_none]
            intro iface member
            simpa using unknown iface member
          by_cases memory : auth.malloc (ServerMessage.packet name frame).wire.length = Option.none
          · rw [clientServes_refused memory]
            rfl
          · have served := @clientServes_packet { env with sr := s.sr } auth name frame whole memory
              sound.named
            rw [none] at served
            rw [Phase.expected, served]
            rfl

theorem Session.Doomed.clientReads {env : VnsEnv} {auth : AuthEnv} (sound : s.Sound routes)
    (doomed : s.Doomed) : (SessionEvent.exec s (.clientReads env auth)).Doomed := by
  by_cases ended : s.phase = .ended
  · rw [clientReads_ended ended]
    exact doomed
  obtain ⟨front, name, frame, back, queue, unknown, later⟩ := doomed.resolve_left ended
  cases front with
  | nil => exact .inl (clientReads_unknown sound queue unknown)
  | cons message front =>
      obtain ⟨phase, toServer, log, ifList, same, which⟩ :=
        @Session.Sound.clientReads_eq _ _ _ _ env auth sound queue ended
      rw [same]
      refine .inr ⟨front, name, frame, back, rfl, ?_, fun interfaces member =>
        later interfaces (List.mem_cons_of_mem message member)⟩
      rcases which with rfl | ⟨interfaces, rfl, rfl⟩
      · exact unknown
      · intro iface member
        rcases List.mem_append.mp member with before | told
        · exact unknown iface before
        · obtain ⟨intf, inside, rfl⟩ := List.mem_map.mp told
          exact later interfaces List.mem_cons_self intf inside

theorem Session.Doomed.exec {event : SessionEvent} (sound : s.Sound routes) (doomed : s.Doomed) :
    (event.exec s).Doomed := by
  cases event with
  | clientReads env auth => exact doomed.clientReads sound
  | routerInfo info => exact doomed.more rfl rfl (List.prefix_refl _)
  | connect salt =>
      rw [SessionEvent.exec]
      split
      · exact doomed
      · exact doomed.more rfl rfl (List.prefix_append _ _)
  | packetIn port frame =>
      rw [SessionEvent.exec]
      split
      · exact doomed
      · split
        · exact doomed.more rfl rfl (List.prefix_append _ _)
        · exact doomed
  | serverReads status =>
      rw [SessionEvent.exec]
      split
      · exact doomed
      · next bytes rest queue =>
          cases s.server.handleRecvMsg status bytes with
          | send message => exact doomed.more rfl rfl (List.prefix_append _ _)
          | _ => exact doomed.more rfl rfl (List.prefix_refl _)
  | clientSends iface frame write =>
      rw [SessionEvent.exec]
      split
      · exact doomed.more rfl rfl (List.prefix_refl _)
      · exact doomed

theorem Session.Doomed.run {events : List SessionEvent} (sound : s.Sound routes) (doomed : s.Doomed)
    (whole : ∀ event ∈ events, event.Sound routes) : (s.run events).Doomed := by
  induction events generalizing s with
  | nil => exact doomed
  | cons event events ih =>
      obtain ⟨here, later⟩ := List.forall_mem_cons.mp whole
      exact ih (sound.exec here) (doomed.exec sound) later

/-- A frame that comes too early dooms the client. -/
theorem Session.Sound.doomed {event : SessionEvent} (sound : s.Sound routes)
    (early : ¬ s.Timely event) : (event.exec s).Doomed := by
  cases event with
  | packetIn port frame =>
      simp only [Session.Timely, not_forall] at early
      obtain ⟨name, found, connected, unknown⟩ := early
      have never (intf : VNSInterface) (told : intf ∈ s.told) : intf.name ≠ name := fun same =>
        unknown ⟨intf, told, same⟩
      rw [SessionEvent.exec, found]
      dsimp only
      rw [if_pos connected]
      refine .inr ⟨s.toClient, name, frame, [], rfl, ?_, ?_⟩
      · intro iface member same
        obtain ⟨intf, told, named⟩ := sound.known iface member
        exact never intf told (named.trans same)
      · intro interfaces member intf inside
        exact never intf (sound.coming interfaces member intf inside)
  | _ => exact absurd trivial early

/-! ## Frames in time -/

/-- How a frame has been served: it asked for the address of another, or has been handled. -/
def Logged (told : List VNSInterface) (entry : (Bytes × Bytes) × Served) : Prop :=
  (∃ intf ∈ told, intf.name = entry.1.1 ∧ arpForOther intf.client entry.1.2 = true ∧
      entry.2 = .nothing) ∨
    ∃ action, entry.2 = .frame entry.1.2 entry.1.1 action

/-- A packet went out at a port that the name of its interface has had. -/
def Out (intfnameToPort : List (Bytes × Nat)) (packet : Bytes × Bytes) (event : Bytes × Nat) :
    Prop :=
  event.1 = packet.2 ∧ (packet.1, event.2) ∈ intfnameToPort

/-- Where the session is: what the two sides have on their way to each other, and what has
become of everything else. -/
structure Session.At (s : Session) (joined : Bool) (control : List ServerMessage)
    (frames : List (Bytes × Bytes)) (hello : List Bytes) (packets : List (Bytes × Bytes))
    (stage : Phase) (hardware known : List VNSInterface) : Prop where
  srclient : s.server.srclient = joined
  toClient : s.toClient = control ++ frames.map fun f => .packet f.1 f.2
  toServer : s.toServer = hello ++ packets.map fun f => packetBytes f.1 f.2
  phase : s.phase = stage
  told : s.told = hardware
  ifList : s.sr.ifList = known.map VNSInterface.client
  command : ∃ topoId host user, s.command = openCommand topoId host user
  failed : s.failed = false
  framesTold : ∀ f ∈ frames, ∃ intf ∈ hardware, intf.name = f.1
  packetsTold : ∀ f ∈ packets, ∃ intf ∈ hardware, intf.name = f.1
  broadcasts : s.broadcasts = s.log.map Prod.fst ++ frames
  log : ∀ entry ∈ s.log, Logged hardware entry
  sent : ∃ done, s.sent = done ++ packets ∧
    List.Forall₂ (Out s.server.intfnameToPort) done s.raised

/-- The stages of a session in which no frame came too early. -/
inductive Session.Clean (routes : List Route) (s : Session) : Prop
  | idle (here : s.At false [] [] [] [] .authRequest [] [])
  | asked (salt : Bytes) (here : s.At true [.authRequest salt] [] [] [] .authRequest [] [])
  | replied (user : Bytes) (words : Words) (short : user.length < 2 ^ 32)
      (here : s.At true [] [] [authReply user words] [] .authStatus [] [])
  | admitted (msg : Bytes) (here : s.At true [.authStatus msg] [] [] [] .authStatus [] [])
  | opening (here : s.At true [] [] [s.command] [] .running [] [])
  | unknown (here : s.At true [] [] [] [] .running [] [])
  | told (interfaces : List VNSInterface) (frames : List (Bytes × Bytes))
      (announced : Announced s.server.intfnameToPort routes interfaces)
      (here : s.At true [.hardwareInfo interfaces] frames [] [] .running interfaces [])
  | ready (interfaces : List VNSInterface) (frames packets : List (Bytes × Bytes))
      (announced : Announced s.server.intfnameToPort routes interfaces)
      (here : s.At true [] frames [] packets .running interfaces interfaces)

theorem clean_start (routes : List Route) (topoId : Nat) (host user : Bytes) :
    (Session.start routes topoId host user).Clean routes :=
  .idle
    { srclient := rfl
      toClient := rfl
      toServer := rfl
      phase := rfl
      told := rfl
      ifList := rfl
      command := ⟨topoId, host, user, rfl⟩
      failed := rfl
      framesTold := by simp
      packetsTold := by simp
      broadcasts := rfl
      log := by simp [Session.start]
      sent := ⟨[], rfl, .nil⟩ }

theorem Announced.mono {ports more : List (Bytes × Nat)} {interfaces : List VNSInterface}
    (announced : Announced ports routes interfaces) :
    Announced (more ++ ports) routes interfaces := by
  refine { announced with ports := fun intf member => ?_ }
  obtain ⟨entry, inside, same⟩ := List.lookup_isSome_iff.mp (announced.ports intf member)
  exact List.lookup_isSome_iff.mpr ⟨entry, List.mem_append_right more inside, same⟩

variable {joined : Bool} {control : List ServerMessage} {frames packets : List (Bytes × Bytes)}
  {hello : List Bytes} {stage : Phase} {hardware known : List VNSInterface}

/-- The server is told of interfaces. -/
theorem Session.At.routerInfo
    (here : s.At joined control frames hello packets stage hardware known)
    (info : List RouterPort) :
    (SessionEvent.exec s (.routerInfo info)).At joined control frames hello packets stage hardware
      known := by
  obtain ⟨done, sent, out⟩ := here.sent
  refine { here with sent := ⟨done, sent, out.imp fun packet event went => ?_⟩ }
  exact ⟨went.1, List.mem_append_right _ went.2⟩

theorem Session.Clean.routerInfo (clean : s.Clean routes) (info : List RouterPort) :
    (SessionEvent.exec s (.routerInfo info)).Clean routes := by
  cases clean with
  | idle here => exact .idle (here.routerInfo info)
  | asked salt here => exact .asked salt (here.routerInfo info)
  | replied user words short here => exact .replied user words short (here.routerInfo info)
  | admitted msg here => exact .admitted msg (here.routerInfo info)
  | opening here => exact .opening (here.routerInfo info)
  | unknown here => exact .unknown (here.routerInfo info)
  | told interfaces frames announced here =>
      exact .told interfaces frames announced.mono (here.routerInfo info)
  | ready interfaces frames packets announced here =>
      exact .ready interfaces frames packets announced.mono (here.routerInfo info)

theorem Session.Clean.connect (clean : s.Clean routes) (salt : Bytes) :
    (SessionEvent.exec s (.connect salt)).Clean routes := by
  cases joined : s.server.srclient with
  | true =>
      rw [SessionEvent.exec, if_pos joined]
      exact clean
  | false =>
      have only : s.At false [] [] [] [] .authRequest [] [] := by
        cases clean with
        | idle here => exact here
        | asked _ here => exact absurd (joined.symm.trans here.srclient) Bool.false_ne_true
        | replied _ _ _ here => exact absurd (joined.symm.trans here.srclient) Bool.false_ne_true
        | admitted _ here => exact absurd (joined.symm.trans here.srclient) Bool.false_ne_true
        | opening here => exact absurd (joined.symm.trans here.srclient) Bool.false_ne_true
        | unknown here => exact absurd (joined.symm.trans here.srclient) Bool.false_ne_true
        | told _ _ _ here => exact absurd (joined.symm.trans here.srclient) Bool.false_ne_true
        | ready _ _ _ _ here => exact absurd (joined.symm.trans here.srclient) Bool.false_ne_true
      rw [SessionEvent.exec, if_neg (by simp [joined])]
      refine .asked salt { only with srclient := rfl, toClient := ?_ }
      rw [only.toClient]
      rfl

/-- A frame for an interface that the client has been sent. -/
theorem Session.At.packetIn (here : s.At joined control frames hello packets stage hardware known)
    {name : Bytes} (frame : Bytes) (told : ∃ intf ∈ hardware, intf.name = name) :
    ({ s with
      toClient := s.toClient ++ [.packet name frame]
      broadcasts := s.broadcasts ++ [(name, frame)] } : Session).At joined control
      (frames ++ [(name, frame)]) hello packets stage hardware known := by
  refine { here with toClient := ?_, framesTold := ?_, broadcasts := ?_ }
  · rw [here.toClient, List.map_append, List.append_assoc]
    rfl
  · intro f member
    rcases List.mem_append.mp member with old | new
    · exact here.framesTold f old
    · rw [List.mem_singleton.mp new]
      exact told
  · rw [here.broadcasts, List.append_assoc]

theorem Session.Clean.packetIn (clean : s.Clean routes) {port : Nat} {frame : Bytes}
    (timely : s.Timely (.packetIn port frame)) :
    (SessionEvent.exec s (.packetIn port frame)).Clean routes := by
  rw [SessionEvent.exec]
  split
  · exact clean
  · next name found =>
      split
      · next joined =>
          obtain ⟨intf, told, named⟩ := timely name found joined
          have nothing (none : s.told = []) : False := by
            rw [none] at told
            exact List.not_mem_nil told
          cases clean with
          | idle here => exact (nothing here.told).elim
          | asked _ here => exact (nothing here.told).elim
          | replied _ _ _ here => exact (nothing here.told).elim
          | admitted _ here => exact (nothing here.told).elim
          | opening here => exact (nothing here.told).elim
          | unknown here => exact (nothing here.told).elim
          | told interfaces frames announced here =>
              exact .told interfaces _ announced
                (here.packetIn frame ⟨intf, here.told ▸ told, named⟩)
          | ready interfaces frames packets announced here =>
              exact .ready interfaces _ packets announced
                (here.packetIn frame ⟨intf, here.told ▸ told, named⟩)
      · exact clean

/-! ## Messages the server handles -/

theorem type_wire {type : Nat} (body : Bytes) (small : type < 2 ^ 32) :
    ntohl (field (wire type body) 4 4) = type := by
  have four : field (wire type body) 4 4 = htonl type := by
    rw [wire, List.append_assoc]
    rfl
  rw [four, ntohl_htonl small]

theorem body_wire (type : Nat) (body : Bytes) : (wire type body).drop 8 = body := rfl

section

variable {server : SRServerListener} {status : Bytes}

theorem handleRecvMsg_authReply {user : Bytes} (words : Words) (short : user.length < 2 ^ 32) :
    server.handleRecvMsg status (authReply user words) = .send (.authStatus status) := by
  have unpacked := unpackAuthReply_authReply words short
  rw [SRServerListener.handleRecvMsg, authReply, type_wire _ (by decide), if_pos rfl, ← authReply,
    unpacked]

theorem handleRecvMsg_open (topoId : Nat) (host user : Bytes) :
    server.handleRecvMsg status (openCommand topoId host user) =
      match server.interfaces with
      | none => .nothing
      | some interfaces => .send (.hardwareInfo interfaces) := by
  rw [SRServerListener.handleRecvMsg, openCommand, type_wire _ (by decide), if_neg (by decide),
    if_pos rfl, body_wire, if_neg]
  simp only [List.length_append, length_packString, List.length_replicate, List.length_cons,
    List.length_nil]
  omega

theorem handleRecvMsg_packet {name : Bytes} (frame : Bytes) {port : Nat} (short : ShortName name)
    (known : server.intfnameToPort.lookup name = some port) :
    server.handleRecvMsg status (packetBytes name frame) = .packetOut frame port := by
  have stripped : (packString 16 name).filter (· != 0) = name := by
    rw [packString_of_le short.2.le, List.filter_append, List.filter_replicate,
      if_neg (by simp), List.append_nil, List.filter_eq_self]
    intro c member
    have other : c ≠ 0 := fun zero => short.1 (zero ▸ member)
    simpa using other
  rw [SRServerListener.handleRecvMsg, packetBytes, type_wire _ (by decide), if_neg (by decide),
    if_neg (by decide), if_pos rfl, body_wire, if_neg,
    List.take_left' (length_packString 16 name), stripped, known,
    List.drop_left' (length_packString 16 name)]
  rw [List.length_append, length_packString]
  omega

end

theorem serverReads_nil {status : Bytes} (none : s.toServer = []) :
    SessionEvent.exec s (.serverReads status) = s := by
  rw [SessionEvent.exec, none]

theorem serverReads_cons {status bytes : Bytes} {rest : List Bytes}
    (queue : s.toServer = bytes :: rest) :
    SessionEvent.exec s (.serverReads status) =
      ({ s with toServer := rest } : Session).serverHandles
        (s.server.handleRecvMsg status bytes) := by
  rw [SessionEvent.exec, queue]

/-- The port of a packet that the client has sent. -/
theorem Session.At.packetOut {f : Bytes × Bytes} {port : Nat}
    (here : s.At joined control frames [] (f :: packets) stage hardware known)
    (found : s.server.intfnameToPort.lookup f.1 = some port) :
    ({ s with
      toServer := packets.map fun f => packetBytes f.1 f.2
      raised := s.raised ++ [(f.2, port)] } : Session).At joined control frames [] packets stage
        hardware known := by
  obtain ⟨done, sent, out⟩ := here.sent
  refine { here with
    toServer := rfl
    packetsTold := fun g member => here.packetsTold g (List.mem_cons_of_mem f member)
    sent := ⟨done ++ [f], ?_, ?_⟩ }
  · rw [sent, List.append_assoc]
    rfl
  · obtain ⟨front, back, entries, -⟩ := List.lookup_eq_some_iff.mp found
    refine List.rel_append out (.cons ⟨rfl, ?_⟩ .nil)
    rw [entries]
    simp

theorem Session.Clean.serverReads (sound : s.Sound routes) (clean : s.Clean routes)
    (status : Bytes) : (SessionEvent.exec s (.serverReads status)).Clean routes := by
  cases clean with
  | idle here =>
      rw [serverReads_nil here.toServer]
      exact .idle here
  | asked salt here =>
      rw [serverReads_nil here.toServer]
      exact .asked salt here
  | admitted msg here =>
      rw [serverReads_nil here.toServer]
      exact .admitted msg here
  | unknown here =>
      rw [serverReads_nil here.toServer]
      exact .unknown here
  | told interfaces frames announced here =>
      rw [serverReads_nil here.toServer]
      exact .told interfaces frames announced here
  | replied user words short here =>
      rw [serverReads_cons here.toServer, handleRecvMsg_authReply words short]
      refine .admitted status { here with toClient := ?_, toServer := rfl }
      show s.toClient ++ _ = _
      rw [here.toClient]
      rfl
  | opening here =>
      obtain ⟨topoId, host, user, command⟩ := here.command
      have handled := @handleRecvMsg_open s.server status topoId host user
      rw [← command] at handled
      rw [serverReads_cons here.toServer, handled]
      cases known : s.server.interfaces with
      | none => exact .unknown { here with toServer := rfl }
      | some interfaces =>
          have announced := sound.announced interfaces known
          refine .told interfaces [] announced { here with
            toClient := ?_
            toServer := rfl
            told := ?_
            framesTold := by simp
            packetsTold := by simp
            log := fun entry member => ?_ }
          · show s.toClient ++ _ = _
            rw [here.toClient]
            rfl
          · show s.told ++ interfaces = interfaces
            rw [here.told, List.nil_append]
          · rcases here.log entry member with ⟨intf, told, -⟩ | served
            · exact absurd told List.not_mem_nil
            · exact .inr served
  | ready interfaces frames packets announced here =>
      cases packets with
      | nil =>
          rw [serverReads_nil here.toServer]
          exact .ready interfaces frames [] announced here
      | cons f packets =>
          obtain ⟨intf, told, named⟩ := here.packetsTold f List.mem_cons_self
          have short := announced.short intf told
          obtain ⟨port, found⟩ := Option.isSome_iff_exists.mp (announced.ports intf told)
          rw [named] at short found
          rw [serverReads_cons here.toServer, handleRecvMsg_packet f.2 short found]
          exact .ready interfaces frames packets announced (here.packetOut found)

/-! ## Messages the client reads -/

theorem clientReads_cons {message : ServerMessage} {rest : List ServerMessage} {env : VnsEnv}
    {auth : AuthEnv} (going : s.phase ≠ .ended) (queue : s.toClient = message :: rest) :
    SessionEvent.exec s (.clientReads env auth) =
      ({ s with toClient := rest } : Session).answered auth.send message
        (clientServes { env with sr := s.sr } auth s.phase.expected message) := by
  rw [SessionEvent.exec, if_neg going, queue]

/-- The interface of a frame is one that the client has. -/
theorem Session.At.interface (here : s.At joined control frames hello packets stage hardware known)
    {name : Bytes} {intf : VNSInterface} (member : intf ∈ known) (named : intf.name = name) :
    ∃ found ∈ known, found.name = name ∧ srGetInterface s.sr name = some found.client := by
  rw [srGetInterface, here.ifList]
  cases search : (known.map VNSInterface.client).find? fun iface => iface.name == name with
  | none =>
      have never := List.find?_eq_none.mp search intf.client (List.mem_map_of_mem member)
      exact absurd (beq_iff_eq.mpr named) never
  | some iface =>
      obtain ⟨found, inside, rfl⟩ := List.mem_map.mp (List.mem_of_find?_eq_some search)
      have same := List.find?_some search
      exact ⟨found, inside, beq_iff_eq.mp same, rfl⟩

/-- A frame is served, and noted. -/
theorem Session.At.served {f : Bytes × Bytes} {served : Served}
    (here : s.At joined [] (f :: frames) hello packets stage hardware known)
    (logged : Logged hardware (f, served)) :
    ({ s with
      toClient := frames.map fun f => .packet f.1 f.2
      log := s.log ++ [(f, served)] } : Session).At joined [] frames hello packets stage hardware
        known := by
  refine { here with
    toClient := rfl
    framesTold := fun g member => here.framesTold g (List.mem_cons_of_mem f member)
    broadcasts := ?_
    log := ?_ }
  · rw [here.broadcasts, List.map_append, List.append_assoc]
    rfl
  · intro entry member
    rcases List.mem_append.mp member with old | new
    · exact here.log entry old
    · rw [List.mem_singleton.mp new]
      exact logged

theorem Session.Clean.clientReads (sound : s.Sound routes) (clean : s.Clean routes)
    {env : VnsEnv} {auth : AuthEnv} (ready : auth.Ready) :
    (SessionEvent.exec s (.clientReads env auth)).Clean routes := by
  cases clean with
  | idle here =>
      rw [clientReads_nil here.toClient]
      exact .idle here
  | replied user words short here =>
      rw [clientReads_nil here.toClient]
      exact .replied user words short here
  | opening here =>
      rw [clientReads_nil here.toClient]
      exact .opening here
  | unknown here =>
      rw [clientReads_nil here.toClient]
      exact .unknown here
  | asked salt here =>
      have size := sound.messages (.authRequest salt) (by rw [here.toClient]; simp)
      have going : s.phase ≠ .ended := by simp [here.phase]
      obtain ⟨user, words, short, done⟩ :=
        @clientServes_authRequest { env with sr := s.sr } auth vnsAuthRequest salt ready size rfl
      rw [clientReads_cons going here.toClient, here.phase, Phase.expected, done,
        Session.answered, if_pos rfl, Session.goesOn]
      dsimp only
      refine .replied user words short { here with toClient := rfl, toServer := ?_, phase := rfl }
      rw [here.toServer]
      rfl
  | admitted msg here =>
      have going : s.phase ≠ .ended := by simp [here.phase]
      have whole := sound.messages (.authStatus msg) (by rw [here.toClient]; simp)
      have done := @clientServes_authStatus { env with sr := s.sr } auth vnsAuthStatus msg whole
        (ready.memory _) rfl
      rw [clientReads_cons going here.toClient, here.phase, Phase.expected, done,
        Session.answered, if_pos rfl, Session.goesOn]
      dsimp only
      rw [if_pos (ready.whole s.command)]
      refine .opening { here with toClient := rfl, toServer := ?_, phase := rfl }
      rw [here.toServer]
      rfl
  | told interfaces frames announced here =>
      have going : s.phase ≠ .ended := by simp [here.phase]
      have done := @clientServes_hardwareInfo { env with sr := s.sr } auth interfaces
        ⟨announced.few, announced.short⟩ (ready.memory _)
      have verified : srVerifyRoutingTable (s.sr.ifList ++ interfaces.map VNSInterface.client)
          s.sr.routingTable = 0 := by
        rw [here.ifList, sound.table]
        exact announced.verified
      dsimp only at done
      rw [verified, if_neg (by decide)] at done
      rw [clientReads_cons going here.toClient, here.phase, Phase.expected, done,
        Session.answered, if_pos rfl, Session.goesOn]
      dsimp only
      refine .ready interfaces frames [] announced
        { here with toClient := rfl, toServer := ?_, phase := rfl, ifList := ?_ }
      · show s.toServer ++ [] = []
        rw [here.toServer]
        rfl
      · show s.sr.ifList ++ interfaces.map VNSInterface.client = _
        rw [here.ifList]
        rfl
  | ready interfaces frames packets announced here =>
      cases frames with
      | nil =>
          rw [clientReads_nil here.toClient]
          exact .ready interfaces [] packets announced here
      | cons f frames =>
          have going : s.phase ≠ .ended := by simp [here.phase]
          have whole := sound.messages (.packet f.1 f.2) (by rw [here.toClient]; simp)
          obtain ⟨intf, told, named⟩ := here.framesTold f List.mem_cons_self
          obtain ⟨found, inside, same, known⟩ := here.interface told named
          have done := @clientServes_packet { env with sr := s.sr } auth f.1 f.2 whole
            (ready.memory _) sound.named
          obtain ⟨action, ok⟩ :=
            @srHandlepacketAction_ok f.1 f.2 s.sr env.entries env.mem _ whole.2.1 known
          dsimp only at done
          rw [known] at done
          rw [clientReads_cons going here.toClient, here.phase, Phase.expected, done]
          dsimp only
          have kept : s.toServer ++ [] = packets.map fun f => packetBytes f.1 f.2 := by
            rw [List.append_nil]
            exact here.toServer
          by_cases other : arpForOther found.client f.2 = true
          · have served := @Session.At.served _ _ _ _ _ _ _ _ f .nothing here
              (.inl ⟨found, inside, same, other, rfl⟩)
            rw [if_pos other, Session.answered, if_pos rfl, Session.goesOn]
            exact .ready interfaces frames packets announced
              { served with toServer := kept, phase := rfl }
          · have served := @Session.At.served _ _ _ _ _ _ _ _ f (.frame f.2 f.1 action) here
              (.inr ⟨action, rfl⟩)
            rw [if_neg other, ok, ok_bind, Session.answered, if_pos rfl, Session.goesOn]
            exact .ready interfaces frames packets announced
              { served with toServer := kept, phase := rfl }

/-- A packet is sent through an interface that the router has. -/
theorem sendsPacket_interface {sr : Instance} {iface frame : Bytes}
    (sends : sendsPacket sr iface frame = true) :
    ∃ found, srGetInterface sr iface = some found := by
  have source := (Bool.and_eq_true_iff.mp sends).2
  rw [srEtherAddrsMatchInterface] at source
  split at source
  · cases source
  · next found search => exact ⟨found, search⟩

theorem Session.Clean.clientSends (clean : s.Clean routes) (iface frame : Bytes)
    (write : Bytes → Int) :
    (SessionEvent.exec s (.clientSends iface frame write)).Clean routes := by
  rw [SessionEvent.exec]
  split
  · next sends =>
      obtain ⟨running, checked, -⟩ := sends
      obtain ⟨found, search⟩ := sendsPacket_interface checked
      have nothing (none : s.sr.ifList = []) : False := by
        rw [srGetInterface, none] at search
        cases search
      cases clean with
      | idle here => exact absurd (running.symm.trans here.phase) (by decide)
      | asked _ here => exact absurd (running.symm.trans here.phase) (by decide)
      | replied _ _ _ here => exact absurd (running.symm.trans here.phase) (by decide)
      | admitted _ here => exact absurd (running.symm.trans here.phase) (by decide)
      | opening here => exact (nothing here.ifList).elim
      | unknown here => exact (nothing here.ifList).elim
      | told _ _ _ here => exact (nothing here.ifList).elim
      | ready interfaces frames packets announced here =>
          have member := List.mem_of_find?_eq_some search
          rw [here.ifList] at member
          obtain ⟨intf, inside, rfl⟩ := List.mem_map.mp member
          have named : intf.name = iface := srGetInterface_name search
          obtain ⟨done, sent, out⟩ := here.sent
          refine .ready interfaces frames (packets ++ [(iface, frame)]) announced { here with
            toServer := ?_
            packetsTold := ?_
            sent := ⟨done, ?_, out⟩ }
          · show s.toServer ++ _ = _
            rw [here.toServer, List.map_append, List.append_assoc]
            rfl
          · intro f member
            rcases List.mem_append.mp member with old | new
            · exact here.packetsTold f old
            · rw [List.mem_singleton.mp new]
              exact ⟨intf, inside, named⟩
          · show s.sent ++ _ = _
            rw [sent, List.append_assoc]
  · exact clean

/-- A timely event keeps the session clean. -/
theorem Session.Clean.exec {event : SessionEvent} (sound : s.Sound routes) (clean : s.Clean routes)
    (whole : event.Sound routes) (timely : s.Timely event) : (event.exec s).Clean routes := by
  cases event with
  | routerInfo info => exact clean.routerInfo info
  | connect salt => exact clean.connect salt
  | packetIn port frame => exact clean.packetIn timely
  | serverReads status => exact clean.serverReads sound status
  | clientReads env auth => exact clean.clientReads sound whole
  | clientSends iface frame write => exact clean.clientSends iface frame write

/-- Every event of a run is timely. -/
def Session.TimelyRun : Session → List SessionEvent → Prop
  | _, [] => True
  | s, event :: events => s.Timely event ∧ (event.exec s).TimelyRun events

instance decidableTimelyRun : (s : Session) → (events : List SessionEvent) →
    Decidable (s.TimelyRun events)
  | _, [] => isTrue trivial
  | s, event :: events =>
      have := decidableTimelyRun (event.exec s) events
      inferInstanceAs (Decidable (s.Timely event ∧ (event.exec s).TimelyRun events))

theorem Session.Clean.run {events : List SessionEvent} (sound : s.Sound routes)
    (clean : s.Clean routes) (whole : ∀ event ∈ events, event.Sound routes)
    (timely : s.TimelyRun events) : (s.run events).Clean routes := by
  induction events generalizing s with
  | nil => exact clean
  | cons event events ih =>
      obtain ⟨here, later⟩ := List.forall_mem_cons.mp whole
      exact ih (sound.exec here) (clean.exec sound here timely.1) later timely.2

/-- A run that is not timely dooms the client. -/
theorem Session.Sound.run_doomed {events : List SessionEvent} (sound : s.Sound routes)
    (whole : ∀ event ∈ events, event.Sound routes) (early : ¬ s.TimelyRun events) :
    (s.run events).Doomed := by
  induction events generalizing s with
  | nil => exact absurd trivial early
  | cons event events ih =>
      obtain ⟨here, later⟩ := List.forall_mem_cons.mp whole
      by_cases timely : s.Timely event
      · exact ih (sound.exec here) later fun rest => early ⟨timely, rest⟩
      · exact @Session.Doomed.run routes _ events (sound.exec here) (sound.doomed timely) later

theorem Session.Clean.going (clean : s.Clean routes) : s.phase ≠ .ended := by
  cases clean with
  | idle here => simp [here.phase]
  | asked _ here => simp [here.phase]
  | replied _ _ _ here => simp [here.phase]
  | admitted _ here => simp [here.phase]
  | opening here => simp [here.phase]
  | unknown here => simp [here.phase]
  | told _ _ _ here => simp [here.phase]
  | ready _ _ _ _ here => simp [here.phase]

/-- The frames among messages. -/
def framesOf (messages : List ServerMessage) : List (Bytes × Bytes) :=
  messages.filterMap fun message =>
    match message with
    | .packet name frame => some (name, frame)
    | _ => none

theorem framesOf_packets (frames : List (Bytes × Bytes)) :
    framesOf (frames.map fun f => .packet f.1 f.2) = frames := by
  rw [framesOf, List.filterMap_map]
  exact List.filterMap_some

/-- What a session has exchanged, where no frame came too early. -/
structure Session.Exchanged (s : Session) : Prop where
  failed : s.failed = false
  broadcasts : s.broadcasts = s.log.map Prod.fst ++ framesOf s.toClient
  log : ∀ entry ∈ s.log, Logged s.told entry
  raised : ∃ done, done <+: s.sent ∧ List.Forall₂ (Out s.server.intfnameToPort) done s.raised ∧
    (s.toServer = [] → done = s.sent)

theorem Session.At.exchanged (here : s.At joined control frames hello packets stage hardware known)
    (none : framesOf control = []) : s.Exchanged := by
  obtain ⟨done, sent, out⟩ := here.sent
  refine ⟨here.failed, ?_, by rw [here.told]; exact here.log, done, ⟨packets, sent.symm⟩, out, ?_⟩
  · have append : framesOf s.toClient = framesOf control ++ frames := by
      rw [here.toClient, framesOf, List.filterMap_append]
      exact congrArg _ (framesOf_packets frames)
    rw [append, none, List.nil_append, here.broadcasts]
  · intro empty
    rw [here.toServer, List.append_eq_nil_iff, List.map_eq_nil_iff] at empty
    rw [sent, empty.2, List.append_nil]

theorem Session.Clean.exchanged (clean : s.Clean routes) : s.Exchanged := by
  cases clean with
  | idle here => exact here.exchanged rfl
  | asked _ here => exact here.exchanged rfl
  | replied _ _ _ here => exact here.exchanged rfl
  | admitted _ here => exact here.exchanged rfl
  | opening here => exact here.exchanged rfl
  | unknown here => exact here.exchanged rfl
  | told _ _ _ here => exact here.exchanged rfl
  | ready _ _ _ _ here => exact here.exchanged rfl

end

/-! ## The session -/

/-- The client gives up if and only if a frame was broadcast for an interface that it had not
been sent; a client that has not read all of its messages may still be on its way to that. -/
theorem session_ends_iff {routes : List Route} {topoId : Nat} {host user : Bytes}
    {events : List SessionEvent} (whole : ∀ event ∈ events, event.Sound routes)
    (quiet : ((Session.start routes topoId host user).run events).toClient = [] ∨
      ((Session.start routes topoId host user).run events).phase = .ended) :
    ((Session.start routes topoId host user).run events).phase = .ended ↔
      ¬ (Session.start routes topoId host user).TimelyRun events := by
  have sound := sound_start routes topoId host user
  constructor
  · intro ended timely
    exact ((clean_start routes topoId host user).run sound whole timely).going ended
  · intro early
    rcases sound.run_doomed whole early with ended | ⟨front, name, frame, back, queue, -⟩
    · exact ended
    · refine quiet.resolve_left fun empty => ?_
      rw [queue] at empty
      exact absurd empty (by simp)

/-- The interface e1 of the router, at port 1. -/
def routerPort : RouterPort := ⟨[101, 49], [10, 0, 0, 1], [2, 0, 0, 0, 0, 1], rfl, rfl, 1⟩

/-- A frame of zeros that is broadcast before the interfaces are known. -/
def earlyEvents : List SessionEvent :=
  [.routerInfo [routerPort], .connect (List.replicate 20 7), .packetIn 1 (List.replicate 60 0),
    .clientReads oneInterfaceEnv keyedEnv, .clientReads oneInterfaceEnv keyedEnv]

theorem keyedEnv_ready : keyedEnv.Ready where
  key := ⟨_, rfl, by decide⟩
  name := ⟨[117], rfl⟩
  array := rfl
  memory n := Option.some_ne_none _
  whole bytes := rfl

theorem earlyEvents_sound : ∀ event ∈ earlyEvents, event.Sound oneInterface.routingTable := by
  intro event member
  simp only [earlyEvents, List.mem_cons, List.not_mem_nil, or_false] at member
  rcases member with rfl | rfl | rfl | rfl | rfl
  · exact ⟨by decide, by simp [routerPort, ShortName], by decide⟩
  · exact List.length_replicate
  · exact ⟨by decide, by decide⟩
  · exact keyedEnv_ready
  · exact keyedEnv_ready

theorem session_ends_iff_early :
    ((Session.start oneInterface.routingTable 0 [] [117]).run earlyEvents).phase = .ended ↔
      ¬ (Session.start oneInterface.routingTable 0 [] [117]).TimelyRun earlyEvents :=
  session_ends_iff earlyEvents_sound (.inr (by decide +kernel))

/-- Without such a frame all frames are served in the order of the broadcasts, each once, and
all packets go out in the order they were sent in, at ports their interfaces have had. -/
theorem session_frames {routes : List Route} {topoId : Nat} {host user : Bytes}
    {events : List SessionEvent} (whole : ∀ event ∈ events, event.Sound routes)
    (timely : (Session.start routes topoId host user).TimelyRun events) :
    ((Session.start routes topoId host user).run events).Exchanged :=
  ((clean_start routes topoId host user).run (sound_start routes topoId host user) whole
    timely).exchanged

/-- A frame with the address of e1 as its source. -/
def goodbyeFrame : Bytes := List.replicate 6 1 ++ [2, 0, 0, 0, 0, 1] ++ List.replicate 48 1

/-- The whole session: the client is let in and told of e1, then a frame comes and one goes. -/
def wholeEvents : List SessionEvent :=
  [.routerInfo [routerPort], .connect (List.replicate 20 7),
    .clientReads oneInterfaceEnv keyedEnv, .serverReads [111, 107],
    .clientReads oneInterfaceEnv keyedEnv, .serverReads [],
    .packetIn 1 (List.replicate 60 0), .clientReads oneInterfaceEnv keyedEnv,
    .clientReads oneInterfaceEnv keyedEnv,
    .clientSends [101, 49] goodbyeFrame fun bytes => bytes.length, .serverReads []]

theorem session_frames_whole :
    ((Session.start oneInterface.routingTable 0 [] [117]).run wholeEvents).Exchanged := by
  refine @session_frames oneInterface.routingTable _ _ _ _ ?_ (by decide +kernel)
  intro event member
  simp only [wholeEvents, List.mem_cons, List.not_mem_nil, or_false] at member
  rcases member with rfl | rfl | rfl | rfl | rfl | rfl | rfl | rfl | rfl | rfl | rfl
  · exact ⟨by decide, by simp [routerPort, ShortName], by decide⟩
  · exact List.length_replicate
  · exact keyedEnv_ready
  · exact (by decide : 2 + 9 ≤ 10000)
  · exact keyedEnv_ready
  · exact (by decide : 0 + 9 ≤ 10000)
  · exact ⟨by decide, by decide⟩
  · exact keyedEnv_ready
  · exact keyedEnv_ready
  · exact fun bytes => .inl rfl
  · exact (by decide : 0 + 9 ≤ 10000)

end CompNet.Router
