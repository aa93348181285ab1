import CompNet.Lib.CString
import CompNet.Router.Bounds

/-!
# Messages of the VNS server

The part of `sr_read_from_server_expect` that has the length of a message: it
allocates a buffer of that length, stores the length in it, reads the body behind it
and serves the command.  The length is checked from above only and the strings of a
message are trusted to end in it.  `decodedInside_iff` says for which messages every
access is inside the buffer and the router gets the frame with its length.
-/

namespace CompNet.Router

open CompNet.Lib

/-! ## Commands -/

/-- `VNSCLOSE`. -/
def vnsClose : Nat := 2
/-- `VNSPACKET`. -/
def vnsPacket : Nat := 4
/-- `VNSBANNER`. -/
def vnsBanner : Nat := 8
/-- `VNSHWINFO`. -/
def vnsHwinfo : Nat := 16
/-- `VNS_RTABLE`. -/
def vnsRtable : Nat := 32
/-- `VNS_AUTH_REQUEST`. -/
def vnsAuthRequest : Nat := 128
/-- `VNS_AUTH_STATUS`. -/
def vnsAuthStatus : Nat := 512

/-- `ntohl` of four bytes in memory. -/
def ntohl (b : Bytes) : Nat := b.foldl (fun n c => 256 * n + c.toNat) 0

/-- The four bytes of `htonl`. -/
def htonl (n : Nat) : Bytes :=
  [UInt8.ofNat (n / 16777216), UInt8.ofNat (n / 65536), UInt8.ofNat (n / 256), UInt8.ofNat n]

theorem ntohl_htonl {n : Nat} (lt : n < 2 ^ 32) : ntohl (htonl n) = n := by
  simp [ntohl, htonl]
  omega

/-- What a message finds: the router, what `malloc` returns, whether there is a log file,
which files can be written, whether the key can be read, and whether `send` takes the
reply. -/
structure VnsEnv where
  sr : Instance
  entries : List ArpEntry
  mem : Memory
  logfile : Bool
  opens : Bytes → Bool
  key : Bool
  sends : Bool

/-- What a message comes to. -/
inductive Served
  | nothing
  | frame (packet : Bytes) (interface : IfName) (action : Action)
  | text (message : Bytes)
  | hardware (ifList : List Interface)
  | table (name contents : Bytes)
  | salt (bytes : Bytes)
  | refused (message : Bytes)
  deriving DecidableEq, Repr

/-! ## Strings -/

/-- The string at a place in the buffer. -/
def stringAt (buf : Bytes) (i : Nat) : Except Fault Bytes :=
  match cstring (buf.drop i) with
  | some str => .ok str
  | none => .error .outOfBounds

/-- `strncmp` of a name and the string at a place in the buffer, byte by byte; the result
says whether they are equal. -/
def strncmpAt (buf : Bytes) : Nat → Nat → Bytes → Except Fault Bool
  | 0, _, _ => .ok true
  | n + 1, i, name => do
      let c ← read buf i 1
      if c ≠ [name.headD 0] then pure false
      else if name.headD 0 = 0 then pure true
      else strncmpAt buf n (i + 1) name.tail

/-- `sr_get_interface` for a name in the buffer; `sr_IFACE_NAMELEN` is 32. -/
def srGetInterfaceAt (buf : Bytes) (i : Nat) : List Interface → Except Fault (Option Interface)
  | [] => .ok none
  | iface :: rest => do
      if ← strncmpAt buf 32 i iface.name then pure (some iface)
      else srGetInterfaceAt buf i rest

/-- The name that is at offset 8. -/
def nameAt (buf : Bytes) : IfName := (field buf 8 32).takeWhile (· != 0)

/-! ## Packets -/

/-- `len - sizeof(c_packet_ethernet_header) + sizeof(struct sr_ethernet_hdr)`, a `size_t`,
as the `unsigned int` it is passed as. -/
def frameLength (len : Nat) : Nat := (((len : Int) - 38 + 14) % 2 ^ 64 % 2 ^ 32).toNat

/-- `sr_arp_req_not_for_us`, on the frame at offset 24. -/
def srArpReqNotForUs (sr : Instance) (buf : Bytes) (len : Nat) : Except Fault Bool := do
  let iface ← srGetInterfaceAt buf 8 sr.ifList
  if len < 42 then pure false
  else do
    let iface ← ofPointer iface
    let type ← read buf 36 2
    if type = pairBytes ethertypeArp then do
      let op ← read buf 44 2
      if op = [0, 1] then do
        let tip := ipOf (← read buf 62 4)
        pure (tip != iface.ip)
      else pure false
    else pure false

/-- `sr_log_packet`, on the frame at offset 24; `PACKET_DUMP_SIZE` is 1024.  What is dumped
is a number of bytes that the `int` has been converted to. -/
def srLogPacket (logfile : Bool) (buf : Bytes) (len : Int) : Except Fault Bytes :=
  if logfile then read buf 24 (min 1024 (len.bmod (2 ^ 32)) % 2 ^ 32).toNat else pure []

/-- The packet is logged and passed to the router. -/
def passPacket (env : VnsEnv) (buf : Bytes) : Except Fault (Int × Served) := do
  let mLen := ntohl (← read buf 0 4)
  let _ ← srLogPacket env.logfile buf ((mLen : Int) - 24)
  let packet := field buf 24 (frameLength buf.length)
  let action ← srHandlepacketAction env.sr env.entries env.mem packet (nameAt buf)
  pure (1, .frame packet (nameAt buf) action)

/-- The case `VNSPACKET`.  A length that has wrapped does not come as far as
`sr_handlepacket`. -/
def servePacket (env : VnsEnv) (buf : Bytes) : Except Fault (Int × Served) := do
  if ← srArpReqNotForUs env.sr buf (frameLength buf.length) then pure (1, .nothing)
  else passPacket env buf

/-! ## Hardware -/

/-- `sr_set_ether_ip` and `sr_set_ether_addr` on the last interface. -/
def updateLast (f : Interface → Interface) (ifList : List Interface) :
    Except Fault (List Interface) := do
  let last ← ofPointer ifList.getLast?
  pure (ifList.dropLast ++ [f last])

/-- One turn of the loop of `sr_handle_hwinfo`, on the entry at a place in the buffer.  What
a new interface has besides its name is left as `malloc` returned it. -/
def srHandleHwEntry (mem : Memory) (buf : Bytes) (i : Nat) (ifList : List Interface) :
    Except Fault (List Interface) := do
  let key := ntohl (← read buf i 4)
  if key = 1 then do
    let name := (← read buf (i + 4) 32).takeWhile (· != 0)
    pure (ifList ++ [⟨name, mem.mac 32, ipOf (mem.bytes 40 4)⟩])
  else if key = 64 then do
    let ip := ipOf (← read buf (i + 4) 4)
    updateLast (fun iface => { iface with ip := ip }) ifList
  else if key = 32 then do
    let addr := macOf (← read buf (i + 4) 6)
    updateLast (fun iface => { iface with addr := addr }) ifList
  else pure ifList

/-- The loop of `sr_handle_hwinfo`. -/
def srHandleHwinfo (mem : Memory) (buf : Bytes) :
    Nat → Nat → List Interface → Except Fault (List Interface)
  | 0, _, ifList => .ok ifList
  | turns + 1, i, ifList => do
      let ifList ← srHandleHwEntry mem buf i ifList
      srHandleHwinfo mem buf turns (i + 36) ifList

/-- `sr_verify_routing_table`. -/
def srVerifyRoutingTable (ifList : List Interface) (routes : List Route) : Nat :=
  if ifList.isEmpty || routes.isEmpty then 999
  else (routes.filter fun rt => !ifList.any fun iface => iface.name == rt.interface).length

/-- The case `VNSHWINFO`. -/
def serveHwinfo (env : VnsEnv) (buf : Bytes) : Except Fault (Int × Served) := do
  let mLen := ntohl (← read buf 0 4)
  let entries := (((mLen : Int) - 8) % 2 ^ 64 / 36).bmod (2 ^ 32)
  let ifList ← srHandleHwinfo env.mem buf entries.toNat 8 env.sr.ifList
  let ret := if srVerifyRoutingTable ifList env.sr.routingTable ≠ 0 then -1 else 1
  pure (ret, .hardware ifList)

/-! ## The other commands -/

/-- `sr_handle_rtable`; `"rtable."` stands in front of the name. -/
def serveRtable (env : VnsEnv) (buf : Bytes) : Except Fault (Int × Served) := do
  let name := [114, 116, 97, 98, 108, 101, 46] ++ (← stringAt buf 8)
  if env.opens name then do
    let mLen := ntohl (← read buf 0 4)
    let contents ← read buf 40 (((mLen : Int) - 8 - 32) % 2 ^ 32).toNat
    pure (1, .table name contents)
  else pure (-1, .nothing)

/-- `sr_handle_auth_request`. -/
def serveAuthRequest (env : VnsEnv) (buf : Bytes) : Except Fault (Int × Served) := do
  if env.key then do
    let mLen := ntohl (← read buf 0 4)
    let salt ← read buf 8 (((mLen : Int) - 8) % 2 ^ 64 % 2 ^ 32).toNat
    pure (if env.sends then 1 else -1, .salt salt)
  else pure (-1, .nothing)

/-- `sr_handle_auth_status`. -/
def serveAuthStatus (buf : Bytes) : Except Fault (Int × Served) := do
  let ok ← read buf 8 1
  if ok = [0] then do
    let message ← stringAt buf 9
    pure (-1, .refused message)
  else pure (1, .nothing)

/-- The `switch`. -/
def serve (env : VnsEnv) (buf : Bytes) (command : Nat) : Except Fault (Int × Served) := do
  if command = vnsPacket then servePacket env buf
  else if command = vnsClose then do
    let message ← stringAt buf 8
    pure (0, .text message)
  else if command = vnsBanner then do
    let message ← stringAt buf 8
    pure (1, .text message)
  else if command = vnsHwinfo then serveHwinfo env buf
  else if command = vnsRtable then serveRtable env buf
  else if command = vnsAuthRequest then serveAuthRequest env buf
  else if command = vnsAuthStatus then serveAuthStatus buf
  else pure (1, .nothing)

/-- A command that is served when `expected` was asked for; 0 asks for any. -/
def taken (expected command : Nat) : Bool :=
  expected == 0 || command == expected || command == vnsClose

/-- `sr_read_from_server_expect` once it has the length: the buffer that `malloc` has
returned has that length, and the body is what is read behind the first four bytes.  The
command is stored back in the order of the host, and nothing reads it again. -/
def srServeMessage (env : VnsEnv) (expected : Nat) (mem body : Bytes) :
    Except Fault (Int × Served) := do
  let buf ← write mem 0 (htonl mem.length)
  let buf ← write buf 4 body
  let command := ntohl (← read buf 4 4)
  if taken expected command then serve env buf command else pure (-1, .nothing)

/-! ## Names -/

/-- A name that the bytes go along with to their end, with no NUL among them. -/
def RunsOff (rest : Bytes) (n : Nat) (name : Bytes) : Prop :=
  rest.length < n ∧ rest <+: name ∧ 0 ∉ rest

theorem runsOff_cons {c : UInt8} {tail name : Bytes} {n : Nat} :
    RunsOff (c :: tail) (n + 1) name ↔ name.headD 0 = c ∧ c ≠ 0 ∧ RunsOff tail n name.tail := by
  cases name with
  | nil =>
      constructor
      · intro off
        exact absurd (List.prefix_nil.mp off.2.1) (List.cons_ne_nil _ _)
      · intro given
        exact absurd given.1.symm given.2.1
  | cons d name =>
      simp only [RunsOff, List.length_cons, Nat.add_lt_add_iff_right, List.cons_prefix_cons,
        List.mem_cons, not_or, List.headD_cons, List.tail_cons]
      constructor
      · intro off
        exact ⟨off.2.1.1.symm, Ne.symm off.2.2.1, off.1, off.2.1.2, off.2.2.2⟩
      · intro given
        obtain ⟨same, other, short, starts, clean⟩ := given
        exact ⟨short, ⟨same.symm, starts⟩, Ne.symm other, clean⟩

theorem strncmpAt_cons {buf tail : Bytes} {i : Nat} {c : UInt8} (rest : buf.drop i = c :: tail)
    (n : Nat) (name : Bytes) :
    strncmpAt buf (n + 1) i name =
      if name.headD 0 = c then
        if c = 0 then .ok true else strncmpAt buf n (i + 1) name.tail
      else .ok false := by
  have size := congrArg List.length rest
  rw [List.length_drop, List.length_cons] at size
  have first : read buf i 1 = .ok [c] := by
    rw [read_ok (by omega), field, rest]
    rfl
  rw [strncmpAt, first, ok_bind]
  by_cases same : name.headD 0 = c
  · rw [if_pos same, same, if_neg (fun differ => differ rfl)]
    rfl
  · rw [if_neg same, if_pos (by simpa using Ne.symm same)]
    rfl

theorem strncmpAt_cases (buf : Bytes) (n i : Nat) (name : Bytes) :
    (strncmpAt buf n i name = .error .outOfBounds ∧ RunsOff (buf.drop i) n name) ∨
    ∃ same, strncmpAt buf n i name = .ok same ∧ ¬ RunsOff (buf.drop i) n name ∧
      (same = true → 0 ∈ buf.drop i ∨ n ≤ (buf.drop i).length) := by
  induction n generalizing i name with
  | zero =>
      refine .inr ⟨true, rfl, fun off => ?_, fun _ => .inr (Nat.zero_le _)⟩
      exact Nat.not_lt_zero _ off.1
  | succ n ih =>
      cases rest : buf.drop i with
      | nil =>
          have ends := List.drop_eq_nil_iff.mp rest
          left
          rw [strncmpAt, read_error (by omega)]
          exact ⟨rfl, Nat.succ_pos n, List.nil_prefix, List.not_mem_nil⟩
      | cons c tail =>
          have behind : buf.drop (i + 1) = tail := by
            rw [← List.drop_drop, rest]
            rfl
          rw [strncmpAt_cons rest, runsOff_cons]
          by_cases same : name.headD 0 = c
          · by_cases zero : c = 0
            · rw [if_pos same, if_pos zero]
              refine .inr ⟨true, rfl, fun off => off.2.1 zero, fun _ => .inl ?_⟩
              rw [zero]
              exact List.mem_cons_self
            · rw [if_pos same, if_neg zero]
              rcases ih (i + 1) name.tail with ⟨stops, off⟩ | ⟨equal, goes, stays, room⟩
              · rw [behind] at off
                exact .inl ⟨stops, same, zero, off⟩
              · rw [behind] at stays room
                refine .inr ⟨equal, goes, fun off => stays off.2.2, fun yes => ?_⟩
                rcases room yes with inside | enough
                · exact .inl (List.mem_cons_of_mem c inside)
                · exact .inr (Nat.succ_le_succ enough)
          · rw [if_neg same]
            exact .inr ⟨false, rfl, fun off => same off.1, fun yes => by cases yes⟩

/-- The comparisons with the names of the interfaces end inside the buffer. -/
def NameInside (sr : Instance) (buf : Bytes) : Prop :=
  ∀ iface ∈ sr.ifList, ¬ RunsOff (buf.drop 8) 32 iface.name

theorem srGetInterfaceAt_cases (buf : Bytes) (i : Nat) (ifList : List Interface) :
    (srGetInterfaceAt buf i ifList = .error .outOfBounds ∧
      ∃ iface ∈ ifList, RunsOff (buf.drop i) 32 iface.name) ∨
    ∃ found, srGetInterfaceAt buf i ifList = .ok found ∧
      ∀ iface ∈ ifList, ¬ RunsOff (buf.drop i) 32 iface.name := by
  induction ifList with
  | nil => exact .inr ⟨none, rfl, fun iface member => absurd member List.not_mem_nil⟩
  | cons iface rest ih =>
      rw [srGetInterfaceAt]
      rcases strncmpAt_cases buf 32 i iface.name with ⟨stops, off⟩ | ⟨same, goes, stays, room⟩
      · left
        rw [stops, error_bind]
        exact ⟨rfl, iface, List.mem_cons_self, off⟩
      · rw [goes, ok_bind]
        cases same with
        | true =>
            -- the string ends inside, so that no other name runs off either
            refine .inr ⟨some iface, rfl, fun other _ off => ?_⟩
            rcases room rfl with inside | enough
            · exact off.2.2 inside
            · exact absurd off.1 (by omega)
        | false =>
            rw [if_neg Bool.false_ne_true]
            rcases ih with ⟨fails, other, member, off⟩ | ⟨found, done, others⟩
            · exact .inl ⟨fails, other, List.mem_cons_of_mem _ member, off⟩
            · refine .inr ⟨found, done, fun other member => ?_⟩
              rcases List.mem_cons.mp member with rfl | member
              · exact stays
              · exact others other member

/-! ## Commands inside the buffer -/

theorem stringAt_cases (buf : Bytes) (i : Nat) :
    (0 ∈ buf.drop i ∧ stringAt buf i = .ok ((buf.drop i).takeWhile (· != 0))) ∨
    (0 ∉ buf.drop i ∧ stringAt buf i = .error .outOfBounds) := by
  by_cases inside : 0 ∈ buf.drop i
  · left
    rw [stringAt, cstring, if_pos inside]
    exact ⟨inside, rfl⟩
  · right
    rw [stringAt, cstring, if_neg inside]
    exact ⟨inside, rfl⟩

theorem stringAt_inside {buf : Bytes} {i : Nat} {α : Type} (f : Bytes → α) :
    Inside (stringAt buf i >>= fun str => .ok (f str)) ↔ 0 ∈ buf.drop i := by
  rw [inside_bind_ok]
  rcases stringAt_cases buf i with ⟨here, read⟩ | ⟨missing, read⟩
  · rw [read]
    exact iff_of_true (inside_ok _) here
  · rw [read]
    exact iff_of_false (fun inside => inside rfl) missing

theorem frameLength_eq_iff {len : Nat} (small : len ≤ 10000) :
    frameLength len = len - 24 ↔ 24 ≤ len := by
  unfold frameLength
  omega

theorem frameInside_of_long {sr : Instance} {packet : Bytes} (interface : IfName)
    (long : 42 ≤ packet.length) : FrameInside sr packet interface := by
  have quote : QuoteInside sr packet interface := fun _ _ => long
  refine ⟨by omega, fun _ _ _ => ?_⟩
  split_ifs
  · exact ⟨by omega, fun _ => by omega⟩
  · exact quote
  · exact fun _ => quote

theorem updateLast_inside (f : Interface → Interface) (ifList : List Interface) :
    Inside (updateLast f ifList) := by
  rw [updateLast]
  cases ifList.getLast? with
  | none => exact inside_nullPointer
  | some last => exact inside_ok _

theorem srHandleHwEntry_inside (mem : Memory) {buf : Bytes} {i : Nat} (room : i + 36 ≤ buf.length)
    (ifList : List Interface) : Inside (srHandleHwEntry mem buf i ifList) := by
  rw [srHandleHwEntry, read_ok (by omega), ok_bind]
  dsimp only
  split_ifs
  · rw [read_ok (by omega), ok_bind]
    exact inside_ok _
  · rw [read_ok (by omega), ok_bind]
    exact updateLast_inside _ _
  · rw [read_ok (by omega), ok_bind]
    exact updateLast_inside _ _
  · exact inside_ok _

theorem srHandleHwinfo_inside (mem : Memory) {buf : Bytes} {turns i : Nat}
    (room : i + 36 * turns ≤ buf.length) (ifList : List Interface) :
    Inside (srHandleHwinfo mem buf turns i ifList) := by
  induction turns generalizing i ifList with
  | zero => exact inside_ok _
  | succ turns ih =>
      rw [srHandleHwinfo]
      exact inside_bind (srHandleHwEntry_inside mem (by omega) ifList) fun ifList _ =>
        ih (by omega) ifList

section

variable {env : VnsEnv} {buf : Bytes}

theorem srArpReqNotForUs_runsOff {len : Nat} {iface : Interface} (member : iface ∈ env.sr.ifList)
    (off : RunsOff (buf.drop 8) 32 iface.name) :
    srArpReqNotForUs env.sr buf len = .error .outOfBounds := by
  rcases srGetInterfaceAt_cases buf 8 env.sr.ifList with ⟨stops, -⟩ | ⟨found, -, names⟩
  · rw [srArpReqNotForUs, stops, error_bind]
  · exact absurd off (names iface member)

theorem srArpReqNotForUs_short {len : Nat} (names : NameInside env.sr buf) (short : len < 42) :
    srArpReqNotForUs env.sr buf len = .ok false := by
  rcases srGetInterfaceAt_cases buf 8 env.sr.ifList with ⟨-, iface, member, off⟩ | ⟨found, done, -⟩
  · exact absurd off (names iface member)
  · rw [srArpReqNotForUs, done, ok_bind, if_pos short]
    rfl

theorem srArpReqNotForUs_inside {len : Nat} (names : NameInside env.sr buf)
    (long : 66 ≤ buf.length) : Inside (srArpReqNotForUs env.sr buf len) := by
  rcases srGetInterfaceAt_cases buf 8 env.sr.ifList with ⟨-, iface, member, off⟩ | ⟨found, done, -⟩
  · exact absurd off (names iface member)
  · rw [srArpReqNotForUs, done, ok_bind]
    split
    · exact inside_ok false
    · cases found with
      | none => exact inside_nullPointer
      | some iface =>
          rw [ofPointer, ok_bind, read_ok (by omega), ok_bind]
          split
          · rw [read_ok (by omega), ok_bind]
            split
            · rw [read_ok (by omega), ok_bind]
              exact inside_ok _
            · exact inside_ok false
          · exact inside_ok false

variable (small : buf.length ≤ 10000) (stored : field buf 0 4 = htonl buf.length)

theorem mLen_eq (stored : field buf 0 4 = htonl buf.length) (long : 8 ≤ buf.length) :
    read buf 0 4 = .ok (htonl buf.length) := by
  rw [read_ok (by omega), stored]

include small

/-- The dump of a packet is inside it. -/
theorem srLogPacket_ok (long : 24 ≤ buf.length) (logfile : Bool) :
    ∃ dump, srLogPacket logfile buf ((ntohl (htonl buf.length) : Int) - 24) = .ok dump := by
  have size : ((ntohl (htonl buf.length) : Int) - 24).bmod (2 ^ 32) = buf.length - 24 := by
    rw [ntohl_htonl (by omega)]
    exact Int.bmod_eq_of_le (by omega) (by omega)
  rw [srLogPacket, size]
  split
  · exact ⟨_, read_ok (by omega)⟩
  · exact ⟨_, rfl⟩

include stored

theorem passPacket_inside (long : 24 ≤ buf.length) :
    Inside (passPacket env buf) ↔ FrameInside env.sr (buf.drop 24) (nameAt buf) := by
  have mLen := mLen_eq stored (by omega)
  obtain ⟨dump, dumped⟩ := srLogPacket_ok small long env.logfile
  have size : frameLength buf.length = buf.length - 24 := (frameLength_eq_iff small).mpr long
  have packet : field buf 24 (buf.length - 24) = buf.drop 24 :=
    List.take_of_length_le (by rw [List.length_drop])
  simp only [passPacket, mLen, ok_bind, dumped, size, packet, pure_eq_ok]
  rw [inside_bind_ok, srHandlepacketAction_inside]

theorem servePacket_inside (long : 24 ≤ buf.length) :
    Inside (servePacket env buf) ↔
      NameInside env.sr buf ∧ FrameInside env.sr (buf.drop 24) (nameAt buf) := by
  have size : frameLength buf.length = buf.length - 24 := (frameLength_eq_iff small).mpr long
  have behind : (buf.drop 24).length = buf.length - 24 := List.length_drop
  have passed : Inside (passPacket env buf) ↔ _ := passPacket_inside small stored long
  by_cases names : NameInside env.sr buf
  · by_cases short : buf.length - 24 < 42
    · rw [servePacket, size, srArpReqNotForUs_short names short, ok_bind,
        if_neg Bool.false_ne_true, passed]
      exact (and_iff_right names).symm
    · have frame : FrameInside env.sr (buf.drop 24) (nameAt buf) :=
        frameInside_of_long _ (by omega)
      refine iff_of_true (inside_bind (srArpReqNotForUs_inside names (by omega)) ?_) ⟨names, frame⟩
      rintro (_ | _) -
      · exact passed.mpr frame
      · exact inside_ok _
  · have ⟨iface, member, off⟩ : ∃ iface ∈ env.sr.ifList, RunsOff (buf.drop 8) 32 iface.name := by
      by_contra none
      exact names fun iface member off => none ⟨iface, member, off⟩
    rw [servePacket, srArpReqNotForUs_runsOff member off, error_bind]
    exact iff_of_false (fun inside => inside rfl) fun given => names given.1

/-- As many entries as the length has room for are in the message. -/
theorem serveHwinfo_inside (long : 8 ≤ buf.length) : Inside (serveHwinfo env buf) := by
  have turns : ((((ntohl (htonl buf.length) : Int) - 8) % 2 ^ 64 / 36).bmod (2 ^ 32)).toNat =
      (buf.length - 8) / 36 := by
    rw [ntohl_htonl (by omega), Int.bmod_eq_of_le (by omega) (by omega)]
    omega
  rw [serveHwinfo, mLen_eq stored long, ok_bind]
  simp only [turns]
  have room : 8 + 36 * ((buf.length - 8) / 36) ≤ buf.length := by omega
  exact inside_bind (srHandleHwinfo_inside env.mem room _) fun _ _ => inside_ok _

/-- The name of the file that a table is written to. -/
def rtableName (buf : Bytes) : Bytes :=
  [114, 116, 97, 98, 108, 101, 46] ++ (buf.drop 8).takeWhile (· != 0)

theorem serveRtable_inside (long : 8 ≤ buf.length) :
    Inside (serveRtable env buf) ↔
      0 ∈ buf.drop 8 ∧ (env.opens (rtableName buf) = true → 40 ≤ buf.length) := by
  rw [serveRtable]
  rcases stringAt_cases buf 8 with ⟨here, name⟩ | ⟨missing, name⟩
  · rw [name, ok_bind, and_iff_right here]
    change Inside (if env.opens (rtableName buf) then _ else _) ↔ _
    split
    · next opened =>
        rw [mLen_eq stored long, ok_bind, ntohl_htonl (by omega)]
        dsimp only
        by_cases enough : 40 ≤ buf.length
        · rw [read_ok (by omega), ok_bind]
          exact iff_of_true (inside_ok _) fun _ => enough
        · -- the size of the table has wrapped
          rw [read_error (by omega), error_bind]
          exact iff_of_false (fun inside => inside rfl) fun given => enough (given opened)
    · next closed => exact iff_of_true (inside_ok _) fun opened => absurd opened closed
  · rw [name, error_bind]
    exact iff_of_false (fun inside => inside rfl) fun given => missing given.1

theorem serveAuthRequest_inside (long : 8 ≤ buf.length) : Inside (serveAuthRequest env buf) := by
  rw [serveAuthRequest]
  split
  · rw [mLen_eq stored long, ok_bind, ntohl_htonl (by omega)]
    dsimp only
    rw [read_ok (by omega), ok_bind]
    exact inside_ok _
  · exact inside_ok _

omit small stored in
theorem serveAuthStatus_inside :
    Inside (serveAuthStatus buf) ↔ 9 ≤ buf.length ∧ (field buf 8 1 = [0] → 0 ∈ buf.drop 9) := by
  rw [serveAuthStatus]
  by_cases short : buf.length < 9
  · rw [read_error (by omega), error_bind]
    exact iff_of_false (fun inside => inside rfl) fun given => by omega
  · rw [read_ok (by omega), ok_bind, and_iff_right (by omega)]
    split
    · next refused =>
        rw [imp_iff_right refused]
        exact stringAt_inside _
    · next ok => exact iff_of_true (inside_ok _) fun refused => absurd refused ok

end

/-! ## Messages inside the buffer -/

/-- What a command needs of a message of at least eight bytes. -/
def CommandInside (env : VnsEnv) (buf : Bytes) (command : Nat) : Prop :=
  if command = vnsPacket then
    NameInside env.sr buf ∧ FrameInside env.sr (buf.drop 24) (nameAt buf)
  else if command = vnsClose ∨ command = vnsBanner then 0 ∈ buf.drop 8
  else if command = vnsRtable then
    0 ∈ buf.drop 8 ∧ (env.opens (rtableName buf) = true → 40 ≤ buf.length)
  else if command = vnsAuthStatus then
    9 ≤ buf.length ∧ (field buf 8 1 = [0] → 0 ∈ buf.drop 9)
  else True

/-- The command that stands in a message. -/
def commandOf (buf : Bytes) : Nat := ntohl (field buf 4 4)

/-- The message has a command, and what this needs if it is served. -/
def MessageInside (env : VnsEnv) (expected : Nat) (buf : Bytes) : Prop :=
  8 ≤ buf.length ∧
    (taken expected (commandOf buf) = true → CommandInside env buf (commandOf buf))

/-- No access is outside the buffer, and a frame is passed with the number of bytes that are
behind the header. -/
structure DecodedInside (env : VnsEnv) (expected : Nat) (mem body : Bytes) : Prop where
  inside : Inside (srServeMessage env expected mem body)
  frame : taken expected (commandOf (htonl mem.length ++ body)) = true →
    commandOf (htonl mem.length ++ body) = vnsPacket → frameLength mem.length = mem.length - 24

theorem serve_inside {env : VnsEnv} {buf : Bytes} {command : Nat} (long : 8 ≤ buf.length)
    (small : buf.length ≤ 10000) (stored : field buf 0 4 = htonl buf.length)
    (header : command = vnsPacket → 24 ≤ buf.length) :
    Inside (serve env buf command) ↔ CommandInside env buf command := by
  rw [serve, CommandInside]
  by_cases packet : command = vnsPacket
  · rw [if_pos packet, if_pos packet]
    exact servePacket_inside small stored (header packet)
  rw [if_neg packet, if_neg packet]
  by_cases closes : command = vnsClose
  · rw [if_pos closes, if_pos (.inl closes)]
    exact stringAt_inside _
  rw [if_neg closes]
  by_cases banner : command = vnsBanner
  · rw [if_pos banner, if_pos (.inr banner)]
    exact stringAt_inside _
  have goesOn : ¬ (command = vnsClose ∨ command = vnsBanner) := fun given =>
    given.elim closes banner
  rw [if_neg banner, if_neg goesOn]
  by_cases hwinfo : command = vnsHwinfo
  · rw [if_pos hwinfo, hwinfo, if_neg (by decide), if_neg (by decide), iff_true]
    exact serveHwinfo_inside small stored long
  rw [if_neg hwinfo]
  by_cases rtable : command = vnsRtable
  · rw [if_pos rtable, if_pos rtable]
    exact serveRtable_inside small stored long
  rw [if_neg rtable, if_neg rtable]
  by_cases request : command = vnsAuthRequest
  · rw [if_pos request, request, if_neg (by decide), iff_true]
    exact serveAuthRequest_inside small stored long
  rw [if_neg request]
  by_cases status : command = vnsAuthStatus
  · rw [if_pos status, if_pos status]
    exact serveAuthStatus_inside
  · rw [if_neg status, if_neg status, iff_true]
    exact inside_ok _

/-- The buffer when the message has been read. -/
theorem srServeMessage_eq (env : VnsEnv) (expected : Nat) {mem body : Bytes}
    (long : 4 ≤ mem.length) (whole : body.length = mem.length - 4) :
    srServeMessage env expected mem body = (do
      let command := ntohl (← read (htonl mem.length ++ body) 4 4)
      if taken expected command then serve env (htonl mem.length ++ body) command
      else pure (-1, .nothing)) := by
  have four : (htonl mem.length).length = 4 := rfl
  have length : write mem 0 (htonl mem.length) = .ok (htonl mem.length ++ mem.drop 4) := by
    rw [write_ok (by omega), put, four, List.take_zero, List.nil_append]
  have rest : write (htonl mem.length ++ mem.drop 4) 4 body = .ok (htonl mem.length ++ body) := by
    have ends : (htonl mem.length ++ mem.drop 4).length = mem.length := by
      rw [List.length_append, List.length_drop]
      omega
    have nothing : (htonl mem.length ++ mem.drop 4).drop (4 + body.length) = [] :=
      List.drop_eq_nil_of_le (by omega)
    rw [write_ok (by omega), put, nothing, List.append_nil, List.take_left' four]
  rw [srServeMessage, length, ok_bind, rest, ok_bind]

section

variable {env : VnsEnv} {expected : Nat} {mem body : Bytes}

/-- The length, or the command, is outside of a message of less than eight bytes. -/
theorem srServeMessage_short (whole : body.length = mem.length - 4) (short : mem.length < 8) :
    srServeMessage env expected mem body = .error .outOfBounds := by
  have four : (htonl mem.length).length = 4 := rfl
  by_cases tiny : mem.length < 4
  · have outside : write mem 0 (htonl mem.length) = .error .outOfBounds := write_error (by omega)
    rw [srServeMessage, outside, error_bind]
  · have size : (htonl mem.length ++ body).length = mem.length := by
      rw [List.length_append]
      omega
    rw [srServeMessage_eq env expected (by omega) whole, read_error (by omega), error_bind]

theorem srServeMessage_served (whole : body.length = mem.length - 4) (long : 8 ≤ mem.length) :
    srServeMessage env expected mem body =
      if taken expected (commandOf (htonl mem.length ++ body)) then
        serve env (htonl mem.length ++ body) (commandOf (htonl mem.length ++ body))
      else .ok (-1, .nothing) := by
  have size : (htonl mem.length ++ body).length = 4 + body.length := List.length_append
  rw [srServeMessage_eq env expected (by omega) whole, read_ok (by omega), ok_bind]
  rfl

/-- Every access is below the allocated size and the router gets the length of its frame, if
and only if the message has a command and what this needs. -/
theorem decodedInside_iff (accepted : mem.length ≤ 10000) (whole : body.length = mem.length - 4) :
    DecodedInside env expected mem body ↔
      MessageInside env expected (htonl mem.length ++ body) := by
  have size : (htonl mem.length ++ body).length = 4 + body.length := List.length_append
  by_cases short : mem.length < 8
  · apply iff_of_false
    · intro given
      exact given.inside (srServeMessage_short whole short)
    · intro given
      have long := given.1
      omega
  have stored : field (htonl mem.length ++ body) 0 4 = htonl (htonl mem.length ++ body).length := by
    rw [size, whole, Nat.add_sub_cancel' (by omega)]
    exact List.take_left' rfl
  have served : srServeMessage env expected mem body = _ :=
    srServeMessage_served whole (by omega)
  by_cases takes : taken expected (commandOf (htonl mem.length ++ body)) = true
  · rw [if_pos takes] at served
    constructor
    · intro given
      have inside := given.inside
      rw [served, serve_inside (by omega) (by omega) stored] at inside
      · exact ⟨by omega, fun _ => inside⟩
      · intro packet
        have passed := (frameLength_eq_iff accepted).mp (given.frame takes packet)
        omega
    · intro given
      have needs := given.2 takes
      have header : commandOf (htonl mem.length ++ body) = vnsPacket → 24 ≤ mem.length := by
        intro packet
        rw [CommandInside, if_pos packet] at needs
        have frame := needs.2.1
        rw [List.length_drop] at frame
        omega
      refine ⟨?_, fun _ packet => (frameLength_eq_iff accepted).mpr (header packet)⟩
      rw [served, serve_inside (by omega) (by omega) stored]
      · exact needs
      · intro packet
        have long := header packet
        omega
  · rw [if_neg takes] at served
    apply iff_of_true
    · refine ⟨?_, fun given => absurd given takes⟩
      rw [served]
      exact inside_ok _
    · exact ⟨by omega, fun given => absurd given takes⟩

end

/-- A router with one interface and no log file; all files can be opened. -/
def oneInterfaceEnv : VnsEnv where
  sr := oneInterface
  entries := []
  mem := fun _ => 0
  logfile := false
  opens := fun _ => true
  key := true
  sends := true

/-- The server closes the session and says `bye`. -/
def byeBody : Bytes := htonl vnsClose ++ [98, 121, 101, 0]

theorem decodedInside_iff_bye :
    DecodedInside oneInterfaceEnv 0 (List.replicate 12 0) byeBody ↔
      MessageInside oneInterfaceEnv 0 (htonl (List.replicate 12 (0 : UInt8)).length ++ byeBody) :=
  decodedInside_iff (by decide) (by decide)

/-- A packet of 20 bytes for the interface `e1`. -/
def shortPacket : Bytes := htonl vnsPacket ++ [101, 49] ++ List.replicate 10 0

/-- The length of its frame wraps, and the ARP check goes outside the buffer; so does the
command of a message of four bytes. -/
theorem shortPacket_outside :
    frameLength 20 = 4294967292 ∧
      srServeMessage oneInterfaceEnv 0 (List.replicate 20 0) shortPacket = .error .outOfBounds ∧
      srServeMessage oneInterfaceEnv 0 (List.replicate 4 0) [] = .error .outOfBounds ∧
      ¬ ∀ (env : VnsEnv) (expected : Nat) (mem body : Bytes), mem.length ≤ 10000 →
        body.length = mem.length - 4 → DecodedInside env expected mem body := by
  have outside : srServeMessage oneInterfaceEnv 0 (List.replicate 20 0) shortPacket =
      .error .outOfBounds := by decide
  refine ⟨by decide, outside, by decide, fun all => ?_⟩
  have given := all oneInterfaceEnv 0 (List.replicate 20 0) shortPacket (by decide) (by decide)
  exact given.inside outside

end CompNet.Router
