import CompNet.Router.Auth

/-!
# Messages of the server

The messages that `srhandler.py` sends, packed as `VNSProtocol.py` packs them, and what
the client makes of each: the interfaces it is told of, and the frames it is passed.
-/

namespace CompNet.Router

open CompNet.Lib

/-! ## Packing -/

/-- `struct.pack` of a string of fixed size. -/
def packString (n : Nat) (s : Bytes) : Bytes := (s ++ List.replicate n 0).take n

/-- `VNSInterface`, whose constructor raises an exception for other lengths. -/
structure VNSInterface where
  name : Bytes
  mac : Bytes
  ip : Bytes
  mask : Bytes
  macSize : mac.length = 6
  ipSize : ip.length = 4
  maskSize : mask.length = 4

/-- A key and 32 bytes. -/
def packEntry (key : Nat) (value : Bytes) : Bytes := htonl key ++ value

/-- `VNSInterface.pack`. -/
def VNSInterface.pack (intf : VNSInterface) : Bytes :=
  packEntry 1 (packString 32 intf.name) ++
    packEntry 2 (htonl 0 ++ packString 28 []) ++
    packEntry 32 (packString 32 intf.mac) ++
    packEntry 64 (packString 4 intf.ip ++ packString 28 []) ++
    packEntry 4 (htonl 0 ++ packString 28 []) ++
    packEntry 128 (packString 4 intf.mask ++ packString 28 [])

/-- The messages that the server sends; it lets every client in. -/
inductive ServerMessage
  | authRequest (salt : Bytes)
  | authStatus (msg : Bytes)
  | hardwareInfo (interfaces : List VNSInterface)
  | packet (intfName ethernetFrame : Bytes)

/-- `get_type`. -/
def ServerMessage.type : ServerMessage → Nat
  | .authRequest _ => vnsAuthRequest
  | .authStatus _ => vnsAuthStatus
  | .hardwareInfo _ => vnsHwinfo
  | .packet _ _ => vnsPacket

/-- `pack`. -/
def ServerMessage.pack : ServerMessage → Bytes
  | .authRequest salt => salt
  | .authStatus msg => 1 :: msg
  | .hardwareInfo interfaces => interfaces.flatMap VNSInterface.pack
  | .packet intfName ethernetFrame => packString 16 intfName ++ ethernetFrame

def ServerMessage.wire (message : ServerMessage) : Bytes :=
  CompNet.Router.wire message.type message.pack

/-! ## Strings -/

theorem packString_of_le {n : Nat} {s : Bytes} (short : s.length ≤ n) :
    packString n s = s ++ List.replicate (n - s.length) 0 := by
  rw [packString, List.take_append, List.take_of_length_le short, List.take_replicate,
    Nat.min_eq_left (Nat.sub_le _ _)]

@[simp] theorem length_packString (n : Nat) (s : Bytes) : (packString n s).length = n := by
  rw [packString, List.length_take, List.length_append, List.length_replicate]
  omega

/-- A string that is shorter than its field is ended by a NUL. -/
theorem packString_ends {n : Nat} {s : Bytes} (short : s.length < n) :
    packString n s = s ++ 0 :: List.replicate (n - s.length - 1) 0 := by
  rw [packString_of_le short.le, ← List.replicate_succ, Nat.sub_add_cancel (by omega)]

/-- What is read of the field is the string. -/
theorem takeWhile_packString {n : Nat} {s : Bytes} (clean : 0 ∉ s) (short : s.length ≤ n) :
    (packString n s).takeWhile (· != 0) = s := by
  rw [packString_of_le short, List.takeWhile_append_of_pos]
  · rw [List.takeWhile_replicate]
    simp
  · intro c member
    have other : c ≠ 0 := fun zero => clean (zero ▸ member)
    simpa using other

/-- `strncmp` says whether the names are equal. -/
theorem strncmpAt_eq {buf str rest name : Bytes} {n i : Nat} (text : buf.drop i = str ++ 0 :: rest)
    (clean : 0 ∉ str) (short : str.length < n) (named : 0 ∉ name) :
    strncmpAt buf n i name = .ok (name == str) := by
  induction str generalizing n i name with
  | nil =>
      obtain ⟨n, rfl⟩ := Nat.exists_eq_succ_of_ne_zero (Nat.ne_of_gt short)
      rw [strncmpAt_cons text]
      cases name with
      | nil => rfl
      | cons c name =>
          have other : c ≠ 0 := fun zero => named (zero ▸ List.mem_cons_self)
          exact if_neg other
  | cons d str ih =>
      obtain ⟨n, rfl⟩ := Nat.exists_eq_succ_of_ne_zero (Nat.ne_of_gt (Nat.zero_lt_of_lt short))
      have other : d ≠ 0 := fun zero => clean (zero ▸ List.mem_cons_self)
      have behind : buf.drop (i + 1) = str ++ 0 :: rest := by
        rw [← List.drop_drop, text]
        rfl
      rw [strncmpAt_cons text]
      cases name with
      | nil => exact if_neg other.symm
      | cons c name =>
          rw [List.headD_cons, List.tail_cons]
          by_cases same : c = d
          · rw [if_pos same, if_neg other,
              ih behind (fun inside => clean (List.mem_cons_of_mem _ inside))
                (Nat.lt_of_succ_lt_succ short)
                (fun inside => named (List.mem_cons_of_mem _ inside)), same]
            simp
          · rw [if_neg same]
            simp [same]

/-- `sr_get_interface` finds the interface of the name. -/
theorem srGetInterfaceAt_eq {buf str rest : Bytes} {i : Nat} {sr : Instance}
    (text : buf.drop i = str ++ 0 :: rest) (clean : 0 ∉ str) (short : str.length < 32)
    (named : ∀ iface ∈ sr.ifList, 0 ∉ iface.name) :
    srGetInterfaceAt buf i sr.ifList = .ok (srGetInterface sr str) := by
  rw [srGetInterface]
  generalize sr.ifList = ifList at named
  induction ifList with
  | nil => rfl
  | cons iface ifList ih =>
      obtain ⟨here, later⟩ := List.forall_mem_cons.mp named
      rw [srGetInterfaceAt, strncmpAt_eq text clean short here, ok_bind, List.find?_cons]
      by_cases same : (iface.name == str) = true
      · rw [if_pos same, same]
        rfl
      · rw [if_neg same, ih later, Bool.eq_false_iff.mpr same]

/-! ## Hardware -/

/-- The interface that the client has of it. -/
def VNSInterface.client (intf : VNSInterface) : Interface :=
  ⟨intf.name, macOf intf.mac, ipOf intf.ip⟩

theorem length_packEntry {key : Nat} {value : Bytes} (size : value.length = 32) :
    (packEntry key value).length = 36 := by
  rw [packEntry, List.length_append, size]
  rfl

theorem length_behind {front value : Bytes} {key i : Nat} (at_ : front.length = i)
    (size : value.length = 32) : (front ++ packEntry key value).length = i + 36 := by
  rw [List.length_append, at_, length_packEntry size]

/-- What has been put in a place is read from it. -/
theorem read_append {front v rest : Bytes} {i n : Nat} (at_ : front.length = i)
    (size : v.length = n) : read (front ++ (v ++ rest)) i n = .ok v := by
  subst at_ size
  rw [read_ok (by simp only [List.length_append]; omega), field, List.drop_left, List.take_left]

/-- A turn of the loop, on an entry that has been packed. -/
theorem srHandleHwEntry_packEntry (mem : Memory) {front rest value : Bytes} {key i : Nat}
    (ifList : List Interface) (at_ : front.length = i) (size : value.length = 32)
    (small : key < 2 ^ 32) :
    srHandleHwEntry mem (front ++ (packEntry key value ++ rest)) i ifList =
      if key = 1 then
        .ok (ifList ++ [⟨value.takeWhile (· != 0), mem.mac 32, ipOf (mem.bytes 40 4)⟩])
      else if key = 64 then
        updateLast (fun iface => { iface with ip := ipOf (value.take 4) }) ifList
      else if key = 32 then
        updateLast (fun iface => { iface with addr := macOf (value.take 6) }) ifList
      else .ok ifList := by
  have four : (htonl key).length = 4 := rfl
  have whole : front ++ (packEntry key value ++ rest) =
      front ++ (htonl key ++ (value ++ rest)) := by
    rw [packEntry, List.append_assoc]
  have part {n : Nat} (inside : n ≤ 32) :
      read (front ++ (packEntry key value ++ rest)) (i + 4) n = .ok (value.take n) := by
    have split : front ++ (packEntry key value ++ rest) =
        (front ++ htonl key) ++ (value.take n ++ (value.drop n ++ rest)) := by
      rw [whole, ← List.append_assoc (value.take n), List.take_append_drop, List.append_assoc]
    rw [split]
    exact read_append (by rw [List.length_append, at_, four]) (List.length_take_of_le (by omega))
  have keyed : read (front ++ (packEntry key value ++ rest)) i 4 = .ok (htonl key) := by
    rw [whole]
    exact read_append at_ four
  have named : value.take 32 = value := List.take_of_length_le size.le
  rw [srHandleHwEntry, keyed, ok_bind, ntohl_htonl small, part (by omega), part (by omega),
    part (by omega), named]
  rfl

theorem updateLast_append (f : Interface → Interface) (ifList : List Interface)
    (iface : Interface) : updateLast f (ifList ++ [iface]) = .ok (ifList ++ [f iface]) := by
  rw [updateLast, List.getLast?_concat, List.dropLast_concat]
  rfl

/-- A turn, with what it makes of the list. -/
theorem srHandleHwinfo_packEntry {mem : Memory} {front rest value : Bytes} {key i turns : Nat}
    {before after : List Interface} (at_ : front.length = i) (size : value.length = 32)
    (small : key < 2 ^ 32)
    (handled : (if key = 1 then
        .ok (before ++ [⟨value.takeWhile (· != 0), mem.mac 32, ipOf (mem.bytes 40 4)⟩])
      else if key = 64 then
        updateLast (fun iface => { iface with ip := ipOf (value.take 4) }) before
      else if key = 32 then
        updateLast (fun iface => { iface with addr := macOf (value.take 6) }) before
      else .ok before) = .ok after) :
    srHandleHwinfo mem (front ++ (packEntry key value ++ rest)) (turns + 1) i before =
      srHandleHwinfo mem ((front ++ packEntry key value) ++ rest) turns (i + 36) after := by
  rw [srHandleHwinfo, srHandleHwEntry_packEntry mem before at_ size small, handled, ok_bind,
    List.append_assoc]

/-- Six turns make an interface. -/
theorem srHandleHwinfo_interface {mem : Memory} {front rest : Bytes} {i turns : Nat}
    (intf : VNSInterface) (ifList : List Interface) (at_ : front.length = i)
    (clean : 0 ∉ intf.name) (short : intf.name.length ≤ 32) :
    srHandleHwinfo mem (front ++ (intf.pack ++ rest)) (turns + 6) i ifList =
      srHandleHwinfo mem ((front ++ intf.pack) ++ rest) turns (i + 216)
        (ifList ++ [intf.client]) := by
  have ip : (packString 4 intf.ip ++ packString 28 []).take 4 = intf.ip := by
    rw [List.take_left' (length_packString 4 _), packString_of_le intf.ipSize.le, intf.ipSize]
    exact List.append_nil _
  have mac : (packString 32 intf.mac).take 6 = intf.mac := by
    rw [packString_of_le (by rw [intf.macSize]; omega), List.take_left' intf.macSize]
  have size (value : Bytes) : (htonl 0 ++ packString 28 value).length = 32 := by
    rw [List.length_append, length_packString]
    rfl
  have address (value : Bytes) : (packString 4 value ++ packString 28 []).length = 32 := by
    rw [List.length_append, length_packString, length_packString]
  simp only [VNSInterface.pack, List.append_assoc]
  have second := @length_behind _ _ 1 _ at_ (length_packString 32 intf.name)
  have third := @length_behind _ _ 2 _ second (size [])
  have fourth := @length_behind _ _ 32 _ third (length_packString 32 intf.mac)
  have fifth := @length_behind _ _ 64 _ fourth (address intf.ip)
  have sixth := @length_behind _ _ 4 _ fifth (size [])
  rw [srHandleHwinfo_packEntry at_ (length_packString 32 _) (by decide) rfl,
    srHandleHwinfo_packEntry second (size []) (by decide) rfl,
    @srHandleHwinfo_packEntry mem _ _ _ 32 _ _ _ _ third (length_packString 32 _) (by decide)
      (updateLast_append _ _ _),
    @srHandleHwinfo_packEntry mem _ _ _ 64 _ _ _ _ fourth (address _) (by decide)
      (updateLast_append _ _ _),
    srHandleHwinfo_packEntry fifth (size []) (by decide) rfl,
    srHandleHwinfo_packEntry sixth (address _) (by decide) rfl, ip, mac,
    takeWhile_packString clean short]
  simp only [List.append_assoc]
  rfl

theorem length_pack (intf : VNSInterface) : intf.pack.length = 216 := by
  have size (value : Bytes) : (htonl 0 ++ packString 28 value).length = 32 := by
    rw [List.length_append, length_packString]
    rfl
  have address (value : Bytes) : (packString 4 value ++ packString 28 []).length = 32 := by
    rw [List.length_append, length_packString, length_packString]
  simp only [VNSInterface.pack, List.length_append, length_packEntry (length_packString 32 _),
    length_packEntry (size _), length_packEntry (address _)]

theorem length_hardware (interfaces : List VNSInterface) :
    (interfaces.flatMap VNSInterface.pack).length = 216 * interfaces.length := by
  induction interfaces with
  | nil => rfl
  | cons intf interfaces ih =>
      rw [List.flatMap_cons, List.length_append, length_pack, ih, List.length_cons]
      omega

/-- The loop adds the interfaces in order. -/
theorem srHandleHwinfo_pack {mem : Memory} {interfaces : List VNSInterface} {front : Bytes}
    {i : Nat} (ifList : List Interface) (at_ : front.length = i)
    (named : ∀ intf ∈ interfaces, 0 ∉ intf.name ∧ intf.name.length ≤ 32) :
    srHandleHwinfo mem (front ++ interfaces.flatMap VNSInterface.pack) (6 * interfaces.length) i
      ifList = .ok (ifList ++ interfaces.map VNSInterface.client) := by
  induction interfaces generalizing front i ifList with
  | nil =>
      rw [List.map_nil, List.append_nil]
      rfl
  | cons intf interfaces ih =>
      obtain ⟨⟨clean, short⟩, later⟩ := List.forall_mem_cons.mp named
      rw [List.flatMap_cons, List.length_cons, Nat.mul_succ,
        srHandleHwinfo_interface intf ifList at_ clean short,
        ih _ (by rw [List.length_append, at_, length_pack]) later, List.map_cons, List.append_assoc]
      rfl

theorem length_wire (type : Nat) (body : Bytes) : (wire type body).length = 8 + body.length := by
  rw [wire, List.length_append, List.length_append]
  rfl

theorem read_wire (type : Nat) (body : Bytes) :
    read (wire type body) 0 4 = .ok (htonl (8 + body.length)) := by
  rw [wire, List.append_assoc]
  exact @read_append [] (htonl (8 + body.length)) (htonl type ++ body) 0 4 rfl rfl

/-- The client is told of the interfaces. -/
theorem serveHwinfo_wire (env : VnsEnv) {interfaces : List VNSInterface}
    (small : 8 + 216 * interfaces.length ≤ 10000)
    (named : ∀ intf ∈ interfaces, 0 ∉ intf.name ∧ intf.name.length ≤ 32) :
    serveHwinfo env (ServerMessage.hardwareInfo interfaces).wire =
      .ok (if srVerifyRoutingTable (env.sr.ifList ++ interfaces.map VNSInterface.client)
          env.sr.routingTable ≠ 0 then -1 else 1,
        .hardware (env.sr.ifList ++ interfaces.map VNSInterface.client)) := by
  have size := length_hardware interfaces
  have entries :
      Int.bmod ((((8 + 216 * interfaces.length : Nat) : Int) - 8) % 2 ^ 64 / 36) (2 ^ 32) =
        ((6 * interfaces.length : Nat) : Int) := by
    have count : (((8 + 216 * interfaces.length : Nat) : Int) - 8) % 2 ^ 64 / 36 =
        ((6 * interfaces.length : Nat) : Int) := by
      omega
    rw [count]
    exact Int.bmod_eq_of_le (by omega) (by omega)
  have message : (ServerMessage.hardwareInfo interfaces).wire =
      (htonl (8 + 216 * interfaces.length) ++ htonl vnsHwinfo) ++
        interfaces.flatMap VNSInterface.pack := by
    rw [← size]
    rfl
  have told := @srHandleHwinfo_pack env.mem interfaces _ 8 env.sr.ifList
    (show (htonl (8 + 216 * interfaces.length) ++ htonl vnsHwinfo).length = 8 from rfl) named
  rw [← message] at told
  have length : read (ServerMessage.hardwareInfo interfaces).wire 0 4 =
      .ok (htonl (8 + 216 * interfaces.length)) := by
    rw [ServerMessage.wire, read_wire, ServerMessage.pack, size]
  rw [serveHwinfo, length, ok_bind, ntohl_htonl (by omega)]
  dsimp only
  rw [entries, Int.toNat_natCast, told, ok_bind]
  rfl

/-! ## Frames -/

/-- An ARP request for the address of another. -/
def arpForOther (iface : Interface) (frame : Bytes) : Bool :=
  field frame 12 2 == pairBytes ethertypeArp && field frame 20 2 == [0, 1] &&
    ipOf (field frame 38 4) != iface.ip

section

variable {name frame : Bytes}

theorem packet_wire (name frame : Bytes) :
    (ServerMessage.packet name frame).wire =
      (htonl (24 + frame.length) ++ htonl vnsPacket ++ packString 16 name) ++ frame := by
  have size : 8 + (packString 16 name ++ frame).length = 24 + frame.length := by
    rw [List.length_append, length_packString]
    omega
  rw [ServerMessage.wire, wire, ServerMessage.type, ServerMessage.pack, size]
  simp only [List.append_assoc]

theorem length_packet (name frame : Bytes) :
    (ServerMessage.packet name frame).wire.length = 24 + frame.length := by
  rw [packet_wire, List.length_append, List.length_append, length_packString]
  rfl

/-- The frame is read where it has been put. -/
theorem read_frame {j n : Nat} (inside : j + n ≤ frame.length) :
    read (ServerMessage.packet name frame).wire (24 + j) n = .ok (field frame j n) := by
  have size := length_packet name frame
  have front :
      (htonl (24 + frame.length) ++ htonl vnsPacket ++ packString 16 name).length = 24 := by
    rw [List.length_append, length_packString]
    rfl
  rw [read_ok (by omega), field, packet_wire, ← List.drop_drop, List.drop_left' front, field]

theorem packet_name (short : name.length < 16) (frame : Bytes) :
    (ServerMessage.packet name frame).wire.drop 8 =
      name ++ 0 :: (List.replicate (16 - name.length - 1) 0 ++ frame) := by
  have front : (htonl (24 + frame.length) ++ htonl vnsPacket).length = 8 := rfl
  rw [packet_wire, List.append_assoc, List.drop_left' front, packString_ends short,
    List.append_assoc, List.cons_append]

variable (clean : 0 ∉ name) (short : name.length < 16)
include clean short

theorem nameAt_packet (frame : Bytes) : nameAt (ServerMessage.packet name frame).wire = name := by
  rw [nameAt, field, packet_name short frame, List.take_append, List.take_of_length_le (by omega),
    List.takeWhile_append_of_pos]
  · obtain ⟨n, left⟩ := Nat.exists_eq_succ_of_ne_zero (show 32 - name.length ≠ 0 by omega)
    rw [left, List.take_succ_cons]
    simp
  · intro c member
    have other : c ≠ 0 := fun zero => clean (zero ▸ member)
    simpa using other

variable {env : VnsEnv} (named : ∀ iface ∈ env.sr.ifList, 0 ∉ iface.name)
  (least : 42 ≤ frame.length)
include named least

/-- The test whether a frame asks for another. -/
theorem srArpReqNotForUs_packet :
    srArpReqNotForUs env.sr (ServerMessage.packet name frame).wire frame.length =
      match srGetInterface env.sr name with
      | none => .error .nullPointer
      | some iface => .ok (arpForOther iface frame) := by
  have found := srGetInterfaceAt_eq (packet_name short frame) clean (by omega) named
  rw [srArpReqNotForUs, found, ok_bind, if_neg (by omega)]
  cases srGetInterface env.sr name with
  | none => rfl
  | some iface =>
      have type := @read_frame name frame 12 2 (by omega)
      have op := @read_frame name frame 20 2 (by omega)
      have tip := @read_frame name frame 38 4 (by omega)
      rw [ofPointer, ok_bind, type, ok_bind]
      dsimp only
      rw [arpForOther]
      by_cases arp : field frame 12 2 = pairBytes ethertypeArp
      · rw [if_pos arp, op, ok_bind, arp]
        by_cases request : field frame 20 2 = [0, 1]
        · rw [if_pos request, tip, ok_bind, request]
          rfl
        · rw [if_neg request]
          simp [request]
      · rw [if_neg arp]
        simp [arp]

/-- A frame is dropped if it asks for another, and handled otherwise. -/
theorem servePacket_wire (most : frame.length + 24 ≤ 10000) :
    servePacket env (ServerMessage.packet name frame).wire =
      match srGetInterface env.sr name with
      | none => .error .nullPointer
      | some iface =>
          if arpForOther iface frame then .ok (1, .nothing)
          else
            srHandlepacketAction env.sr env.entries env.mem frame name >>= fun action =>
              .ok (1, .frame frame name action) := by
  have size := length_packet name frame
  have length : frameLength (24 + frame.length) = frame.length := by
    rw [(frameLength_eq_iff (by omega)).mpr (by omega), Nat.add_sub_cancel_left]
  have whole : field (ServerMessage.packet name frame).wire 24 frame.length = frame := by
    have read := @read_frame name frame 0 frame.length (by omega)
    rw [read_ok (by omega), Except.ok.injEq] at read
    rw [read, field, List.drop_zero, List.take_length]
  have mLen : read (ServerMessage.packet name frame).wire 0 4 =
      .ok (htonl (ServerMessage.packet name frame).wire.length) := by
    rw [ServerMessage.wire, read_wire, length_wire]
  obtain ⟨dump, dumped⟩ := @srLogPacket_ok (ServerMessage.packet name frame).wire (by omega)
    (by omega) env.logfile
  rw [servePacket, size, length, srArpReqNotForUs_packet clean short named least]
  cases srGetInterface env.sr name with
  | none => rfl
  | some iface =>
      dsimp only
      rw [ok_bind]
      split
      · rfl
      · rw [passPacket, mLen, ok_bind]
        dsimp only
        rw [dumped, ok_bind, size, length, whole, nameAt_packet clean short frame]
        rfl

omit clean short named least in
/-- A frame of 42 bytes, on an interface that is known, is handled. -/
theorem srHandlepacketAction_ok {sr : Instance} {entries : List ArpEntry} {mem : Memory}
    {iface : Interface} (long : 42 ≤ frame.length) (here : srGetInterface sr name = some iface) :
    ∃ action, srHandlepacketAction sr entries mem frame name = .ok action := by
  rw [srHandlepacketAction_eq (by omega)]
  by_cases arp : field frame 12 2 = pairBytes ethertypeArp
  · obtain ⟨action, ok, -⟩ := @srHandleArpPacket_inBounds sr mem frame name iface here
    exact ⟨action, by rw [if_pos arp, ok]⟩
  rw [if_neg arp]
  by_cases ip : field frame 12 2 = pairBytes ethertypeIp
  · rw [if_pos ip, srHandleIpPacket_eq (by omega)]
    split_ifs
    · obtain ⟨action, ok, -⟩ := (@srHandleIcmpPacket_inBounds sr entries frame).mpr
        ⟨by omega, fun _ => ⟨by omega, fun _ _ => long⟩⟩
      exact ⟨action, ok⟩
    · exact (srSendError_ok_iff (by omega) here).mpr fun _ => long
    · obtain ⟨action, ok, -⟩ := (@srForwardPacket_inBounds sr entries mem frame name iface
        (by omega) here).mpr fun _ _ => long
      exact ⟨action, ok⟩
    · exact ⟨.drop, rfl⟩
  · exact ⟨.drop, if_neg ip⟩

end

/-! ## Messages -/

theorem type_lt (message : ServerMessage) : message.type < 2 ^ 32 := by
  cases message <;>
    simp [ServerMessage.type, vnsAuthRequest, vnsAuthStatus, vnsHwinfo, vnsPacket]

/-- A message that comes whole is served as what it is. -/
theorem srServeMessage_wire (env : VnsEnv) (expected : Nat) (message : ServerMessage) {mem : Bytes}
    (size : mem.length = message.wire.length) :
    srServeMessage env expected mem (message.wire.drop 4) =
      if taken expected message.type then serve env message.wire message.type
      else .ok (-1, .nothing) := by
  have length := length_wire message.type message.pack
  have whole : htonl mem.length ++ message.wire.drop 4 = message.wire := by
    rw [size, ServerMessage.wire, length]
    rfl
  have command : commandOf message.wire = message.type := by
    have four : field message.wire 4 4 = htonl message.type := by
      rw [ServerMessage.wire, wire, List.append_assoc]
      rfl
    rw [commandOf, four, ntohl_htonl (type_lt message)]
  rw [ServerMessage.wire] at size
  rw [srServeMessage_served (by rw [List.length_drop, ServerMessage.wire]; omega) (by omega), whole,
    command]

end CompNet.Router
