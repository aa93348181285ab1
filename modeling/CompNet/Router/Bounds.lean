import CompNet.Router.Decisions

/-!
# Accesses to the received frame

The handlers check the length of a frame once per protocol and then go by its
contents.  `inBounds_iff` says for which frames every access to the frame, and to
the copy that becomes an echo reply, is inside it, also when a copy that was
queued is quoted in an error message later.
-/

namespace CompNet.Router

open CompNet.Lib

/-- An error message to the address has a way to go. -/
def Errorable (sr : Instance) (a : Ip) : Prop := ∃ rt out, nextHop sr a = some (rt, out)

/-- A packet to the address is queued, because its next hop is not in the cache. -/
def Waits (sr : Instance) (entries : List ArpEntry) (a : Ip) : Prop :=
  ∃ rt out, nextHop sr a = some (rt, out) ∧ srArpcacheLookup entries rt.gw = none

/-- If the handler queues a packet, an error message can be sent for it later, whatever
the cache holds then. -/
def SafeLater (sr : Instance) (action : Action) : Prop :=
  ∀ ip copy iface, action = .queue ip copy iface →
    ∀ entries mem, ∃ later, srSendIcmpHostUnreachable sr entries mem copy iface = .ok later

/-- All accesses of a handler are in bounds, now and later. -/
def InBounds (sr : Instance) (result : Except Fault Action) : Prop :=
  ∃ action, result = .ok action ∧ SafeLater sr action

section

variable {sr : Instance} {entries : List ArpEntry} {mem : Memory} {packet : Bytes}
  {interface : IfName} {type code : UInt8} {iface : Interface}

theorem InBounds.of_ok {action : Action} (ends : ∀ ip copy iface, action ≠ .queue ip copy iface) :
    InBounds sr (.ok action) :=
  ⟨action, rfl, fun ip copy iface queued => absurd queued (ends ip copy iface)⟩

theorem not_inBounds_error {fault : Fault} : ¬ InBounds sr (.error fault) := by
  intro given
  rcases given with ⟨action, same, -⟩
  cases same

theorem inBounds_queue {ip : Ip} {copy : Bytes} {name : IfName} :
    InBounds sr (.ok (.queue ip copy name)) ↔
      ∀ entries mem, ∃ later, srSendIcmpHostUnreachable sr entries mem copy name = .ok later := by
  constructor
  · intro given
    rcases given with ⟨action, same, later⟩
    cases same
    exact later ip copy name rfl
  · intro later
    refine ⟨_, rfl, ?_⟩
    intro ip' copy' name' same
    cases same
    exact later

/-- An error message needs 42 bytes of the packet, if it has a way to go. -/
theorem srSendError_ok_iff (long : 34 ≤ packet.length)
    (here : srGetInterface sr interface = some iface) :
    (∃ action, srSendError sr entries mem packet interface type code = .ok action) ↔
      (Errorable sr (srcOf packet) → 42 ≤ packet.length) := by
  cases hop : nextHop sr (srcOf packet) with
  | none =>
      rw [srSendError_noHop (by omega) hop]
      constructor
      · rintro - ⟨rt, out, found⟩
        rw [hop] at found
        cases found
      · intro _
        exact ⟨_, rfl⟩
  | some pair =>
      obtain ⟨rt, out⟩ := pair
      by_cases short : packet.length < 42
      · rw [srSendError_short (by omega) short hop here]
        constructor
        · intro given
          rcases given with ⟨action, same⟩
          cases same
        · intro need
          have := need ⟨rt, out, hop⟩
          omega
      · refine ⟨fun _ _ => by omega, fun _ => ?_⟩
        cases known : srArpcacheLookup entries rt.gw with
        | none => exact ⟨_, srSendError_miss (by omega) hop here known⟩
        | some mac => exact ⟨_, srSendError_hit (by omega) hop here known⟩

theorem srSendError_inBounds (long : 34 ≤ packet.length)
    (here : srGetInterface sr interface = some iface) :
    InBounds sr (srSendError sr entries mem packet interface type code) ↔
      (Errorable sr (srcOf packet) → 42 ≤ packet.length) := by
  rw [← srSendError_ok_iff long here]
  constructor
  · intro given
    rcases given with ⟨action, ok, -⟩
    exact ⟨action, ok⟩
  · intro given
    rcases given with ⟨action, ok⟩
    refine ⟨action, ok, ?_⟩
    rintro ip copy name rfl entries' mem'
    -- what it queues is an error message itself, and long enough
    have need := (srSendError_ok_iff long here).mp ⟨_, ok⟩
    cases hop : nextHop sr (srcOf packet) with
    | none =>
        rw [srSendError_noHop (by omega) hop] at ok
        cases ok
    | some pair =>
        obtain ⟨rt, out⟩ := pair
        have enough := need ⟨rt, out, hop⟩
        cases known : srArpcacheLookup entries rt.gw with
        | none =>
            rw [srSendError_miss enough hop here known] at ok
            cases ok
            have size := length_errorFrame mem (mem.mac 0) out iface.ip type code enough
            exact (srSendError_ok_iff (by omega) (srGetInterface_out hop)).mpr fun _ => by omega
        | some mac =>
            rw [srSendError_hit enough hop here known] at ok
            cases ok

/-- The bytes a handler needs of an IP packet that it passes on. -/
def LongToForward (sr : Instance) (entries : List ArpEntry) (packet : Bytes) : Prop :=
  lessTtl packet = 0 ∨ srGetLongestPrefixMatch sr (dstOf packet) = none ∨
      Waits sr entries (dstOf packet) →
    Errorable sr (srcOf packet) → 42 ≤ packet.length

/-- The bytes a handler needs of an ICMP packet for the router. -/
def LongToEcho (sr : Instance) (entries : List ArpEntry) (packet : Bytes) : Prop :=
  35 ≤ packet.length ∧ (field packet 34 1 = [8] → 38 ≤ packet.length ∧
    (Waits sr entries (srcOf packet) → Errorable sr (dstOf packet) → 42 ≤ packet.length))

/-- A packet that waits can be quoted later. -/
theorem inBounds_wait {copy : Bytes} {a : Ip} {rt : Route} {out : Interface}
    (hop : nextHop sr a = some (rt, out)) (long : 34 ≤ copy.length) :
    InBounds sr (.ok (.queue rt.gw copy out.name)) ↔
      (Errorable sr (srcOf copy) → 42 ≤ copy.length) := by
  have found := srGetInterface_out hop
  rw [inBounds_queue]
  constructor
  · intro later
    exact (srSendError_ok_iff long found).mp (later [] fun _ => 0)
  · intro enough entries mem
    exact (srSendError_ok_iff long found).mpr enough

theorem waits_iff (entries : List ArpEntry) {a : Ip} {rt : Route} {out : Interface}
    (hop : nextHop sr a = some (rt, out)) :
    Waits sr entries a ↔ srArpcacheLookup entries rt.gw = none := by
  constructor
  · intro given
    rcases given with ⟨rt', out', hop', unknown⟩
    rw [hop] at hop'
    cases hop'
    exact unknown
  · intro unknown
    exact ⟨rt, out, hop, unknown⟩

theorem not_waits (entries : List ArpEntry) {a : Ip} (none : nextHop sr a = none) :
    ¬ Waits sr entries a := by
  intro given
  rcases given with ⟨rt, out, hop, -⟩
  rw [none] at hop
  cases hop

theorem srForwardPacket_inBounds (long : 34 ≤ packet.length)
    (here : srGetInterface sr interface = some iface) :
    InBounds sr (srForwardPacket sr entries mem packet interface) ↔
      LongToForward sr entries packet := by
  rw [srForwardPacket_eq long, LongToForward]
  by_cases expired : lessTtl packet = 0
  · have size := length_aged long
    rw [if_pos expired, srSendIcmpTimeExceeded, srSendError_inBounds (by omega) here,
      srcOf_aged long, size]
    simp [expired]
  rw [if_neg expired]
  have size := length_forwarded long
  have src := srcOf_forwarded long
  cases route : srGetLongestPrefixMatch sr (dstOf packet) with
  | none =>
      simp only
      rw [srSendIcmpNetUnreachable, srSendError_inBounds (by omega) here, src, size]
      simp
  | some rt =>
      cases leads : srGetInterface sr rt.interface with
      | none =>
          have stays := not_waits entries (nextHop_eq_none route leads)
          simp only [leads]
          simp [expired, stays, InBounds.of_ok]
      | some out =>
          have hop : nextHop sr (dstOf packet) = some (rt, out) :=
            nextHop_eq_some.mpr ⟨route, leads⟩
          have waits := waits_iff entries hop
          cases known : srArpcacheLookup entries rt.gw with
          | none =>
              simp only [leads, known]
              rw [inBounds_wait hop (by omega), src, size]
              simp [waits.mpr known]
          | some mac =>
              have stays : ¬ Waits sr entries (dstOf packet) := by
                rw [waits, known]
                simp
              simp only [leads, known]
              simp [expired, stays, InBounds.of_ok]

theorem srHandleIcmpPacket_inBounds :
    InBounds sr (srHandleIcmpPacket sr entries packet) ↔ LongToEcho sr entries packet := by
  rw [LongToEcho]
  by_cases empty : packet.length < 35
  · rw [srHandleIcmpPacket_empty empty]
    simp only [not_inBounds_error, false_iff]
    omega
  by_cases echo : field packet 34 1 = [8]
  · by_cases short : packet.length < 38
    · rw [srHandleIcmpPacket_short (by omega) short echo]
      simp only [not_inBounds_error, false_iff]
      intro given
      rcases given with ⟨-, enough⟩
      have := (enough echo).1
      omega
    have room : 38 ≤ packet.length := by omega
    obtain ⟨-, size, -, src, -⟩ := srHandleIcmpEchoRequest_ok room
    rw [srHandleIcmpPacket_eq room, if_pos echo]
    have enough : 35 ≤ packet.length := by omega
    cases route : srGetLongestPrefixMatch sr (srcOf packet) with
    | none =>
        have stays : ¬ Waits sr entries (srcOf packet) := by
          apply not_waits
          simp [nextHop, route]
        simp [enough, room, stays, InBounds.of_ok]
    | some rt =>
        cases leads : srGetInterface sr rt.interface with
        | none =>
            have stays := not_waits entries (nextHop_eq_none route leads)
            simp [leads, enough, room, stays, InBounds.of_ok]
        | some out =>
            have hop : nextHop sr (srcOf packet) = some (rt, out) :=
              nextHop_eq_some.mpr ⟨route, leads⟩
            have waits := waits_iff entries hop
            cases known : srArpcacheLookup entries rt.gw with
            | none =>
                simp only [leads, known]
                rw [inBounds_wait hop (by omega), src, size]
                simp [enough, room, echo, waits.mpr known]
            | some mac =>
                have stays : ¬ Waits sr entries (srcOf packet) := by
                  rw [waits, known]
                  simp
                simp [leads, known, enough, room, stays, InBounds.of_ok]
  · have ends : InBounds sr (.ok .drop) := InBounds.of_ok (by simp)
    rw [srHandleIcmpPacket_other (by omega) echo]
    simp only [ends, true_iff]
    exact ⟨by omega, fun same => absurd same echo⟩

/-- An ARP packet is read behind the length check. -/
theorem srHandleArpPacket_inBounds (here : srGetInterface sr interface = some iface) :
    InBounds sr (srHandleArpPacket sr mem packet interface) := by
  by_cases short : packet.length < 42
  · rw [srHandleArpPacket_short short]
    exact InBounds.of_ok (by simp)
  · rw [srHandleArpPacket_eq (by omega) here]
    split_ifs <;> exact InBounds.of_ok (by simp)

end

/-- The frame is long enough for the way it takes through the handlers. -/
def LongEnough (sr : Instance) (entries : List ArpEntry) (packet : Bytes) : Prop :=
  14 ≤ packet.length ∧
    (field packet 12 2 = pairBytes ethertypeIp → 34 ≤ packet.length → checksumOk packet = true →
      if forUs sr packet = true then
        if field packet 23 1 = [1] then LongToEcho sr entries packet
        else Errorable sr (srcOf packet) → 42 ≤ packet.length
      else LongToForward sr entries packet)

/-- Every access is in bounds if and only if the frame is long enough for the way it takes
through the handlers. -/
theorem inBounds_iff (sr : Instance) (entries : List ArpEntry) (mem : Memory) (packet : Bytes)
    (interface : IfName) (iface : Interface) (here : srGetInterface sr interface = some iface) :
    InBounds sr (srHandlepacketAction sr entries mem packet interface) ↔
      LongEnough sr entries packet := by
  by_cases type : packet.length < 14
  · have outside := read_error (show packet.length < 12 + 2 by omega)
    rw [srHandlepacketAction, outside, error_bind, LongEnough]
    simp only [not_inBounds_error, false_iff]
    omega
  have ethernet : 14 ≤ packet.length := by omega
  rw [srHandlepacketAction_eq ethernet, LongEnough]
  by_cases arp : field packet 12 2 = pairBytes ethertypeArp
  · have other : field packet 12 2 ≠ pairBytes ethertypeIp := by
      rw [arp]
      decide
    rw [if_pos arp]
    simp [srHandleArpPacket_inBounds here, ethernet, other]
  rw [if_neg arp]
  by_cases ip : field packet 12 2 = pairBytes ethertypeIp
  · rw [if_pos ip]
    by_cases header : packet.length < 34
    · rw [srHandleIpPacket_short header]
      have ends : InBounds sr (.ok .drop) := InBounds.of_ok (by simp)
      simp only [ends, true_iff]
      exact ⟨ethernet, fun _ long => by omega⟩
    · have long : 34 ≤ packet.length := by omega
      rw [srHandleIpPacket_eq long]
      simp only [ethernet, ip, long, true_and, true_implies]
      by_cases good : checksumOk packet = true
      · simp only [good, if_true, true_implies]
        split_ifs with us icmp
        · exact srHandleIcmpPacket_inBounds
        · exact srSendError_inBounds long here
        · exact srForwardPacket_inBounds long here
      · simp [good, InBounds.of_ok]
  · rw [if_neg ip]
    simp [ethernet, ip, InBounds.of_ok]

/-- The Ethernet and IP headers of an ICMP packet for the router, and nothing behind. -/
def headersOnly : Bytes :=
  [2, 0, 0, 0, 0, 1, 2, 0, 0, 0, 0, 2, 8, 0,
    0x45, 0, 0, 20, 0, 0, 0, 0, 64, 1, 0x66, 0xe7, 10, 0, 0, 2, 10, 0, 0, 1]

/-- The ICMP type is read behind the end of a frame that passes every check. -/
theorem headersOnly_not_inBounds :
    checksumOk headersOnly = true ∧
      srHandlepacketAction oneInterface [] (fun _ => 0) headersOnly [101, 49] =
        .error .outOfBounds ∧
      ¬ ∀ (sr : Instance) (entries : List ArpEntry) (mem : Memory) (packet : Bytes)
        (interface : IfName) (iface : Interface), srGetInterface sr interface = some iface →
        InBounds sr (srHandlepacketAction sr entries mem packet interface) := by
  have fails : srHandlepacketAction oneInterface [] (fun _ => 0) headersOnly [101, 49] =
      .error .outOfBounds := by decide
  refine ⟨by decide, fails, ?_⟩
  intro all
  have inside := all oneInterface [] (fun _ => 0) headersOnly [101, 49] _ rfl
  rw [fails] at inside
  exact not_inBounds_error inside

theorem inBounds_iff_oneInterface :
    InBounds oneInterface (srHandlepacketAction oneInterface [] (fun _ => 0)
      (headersOnly ++ [8, 0, 0, 0, 0, 0, 0, 0]) [101, 49]) ↔
      LongEnough oneInterface [] (headersOnly ++ [8, 0, 0, 0, 0, 0, 0, 0]) :=
  inBounds_iff oneInterface [] (fun _ => 0) _ [101, 49] _ rfl

/-! ## The received frame alone

The accesses to the frame while it is handled, on an interface that need not exist. -/

/-- Nothing outside is accessed, whatever else may stop the function. -/
def Inside {α : Type} (result : Except Fault α) : Prop := result ≠ .error .outOfBounds

theorem inside_ok {α : Type} (a : α) : Inside (.ok a) := by
  intro same
  cases same

theorem inside_nullPointer {α : Type} : Inside (.error .nullPointer : Except Fault α) := by
  intro same
  cases same

theorem inside_bind {α β : Type} {x : Except Fault α} {f : α → Except Fault β}
    (first : Inside x) (later : ∀ a, x = .ok a → Inside (f a)) : Inside (x >>= f) :=
  bind_ne_error first later

/-- What only goes on with the result does not matter. -/
theorem inside_bind_ok {α β : Type} {x : Except Fault α} {f : α → β} :
    Inside (x >>= fun a => .ok (f a)) ↔ Inside x := by
  refine ⟨fun whole first => ?_, fun first => inside_bind first fun a _ => inside_ok (f a)⟩
  rw [first, error_bind] at whole
  exact whole rfl

/-- An error message that can be sent quotes 42 bytes of the packet. -/
def QuoteInside (sr : Instance) (packet : Bytes) (interface : IfName) : Prop :=
  (srGetInterface sr interface).isSome = true → Errorable sr (srcOf packet) → 42 ≤ packet.length

/-- The frame is long enough for the way it takes while it is handled. -/
def FrameInside (sr : Instance) (packet : Bytes) (interface : IfName) : Prop :=
  14 ≤ packet.length ∧
    (field packet 12 2 = pairBytes ethertypeIp → 34 ≤ packet.length → checksumOk packet = true →
      if forUs sr packet = true then
        if field packet 23 1 = [1] then
          35 ≤ packet.length ∧ (field packet 34 1 = [8] → 38 ≤ packet.length)
        else QuoteInside sr packet interface
      else lessTtl packet = 0 ∨ srGetLongestPrefixMatch sr (dstOf packet) = none →
        QuoteInside sr packet interface)

section

variable {sr : Instance} {entries : List ArpEntry} {mem : Memory} {packet : Bytes}
  {interface : IfName} {type code : UInt8}

theorem srSendError_inside (long : 34 ≤ packet.length) :
    Inside (srSendError sr entries mem packet interface type code) ↔
      QuoteInside sr packet interface := by
  rw [QuoteInside]
  cases here : srGetInterface sr interface with
  | none =>
      simp only [Option.isSome_none, Bool.false_eq_true, false_implies, iff_true]
      cases hop : nextHop sr (srcOf packet) with
      | none =>
          rw [srSendError_noHop (by omega) hop]
          exact inside_ok _
      | some pair =>
          rw [srSendError_noInterface hop (by omega) here]
          intro same
          cases same
  | some iface =>
      simp only [Option.isSome_some, true_implies]
      by_cases fails : Errorable sr (srcOf packet) ∧ packet.length < 42
      · obtain ⟨way, short⟩ := fails
        have ⟨rt, out, hop⟩ := way
        rw [srSendError_short (by omega) short hop here]
        apply iff_of_false
        · intro inside
          exact inside rfl
        · intro enough
          have long := enough way
          omega
      · have enough : Errorable sr (srcOf packet) → 42 ≤ packet.length := fun way => by
          by_contra short
          exact fails ⟨way, by omega⟩
        obtain ⟨action, ok⟩ := (srSendError_ok_iff long here).mpr enough
        rw [ok]
        exact iff_of_true (inside_ok action) enough

theorem srForwardPacket_inside (long : 34 ≤ packet.length) :
    Inside (srForwardPacket sr entries mem packet interface) ↔
      (lessTtl packet = 0 ∨ srGetLongestPrefixMatch sr (dstOf packet) = none →
        QuoteInside sr packet interface) := by
  rw [srForwardPacket_eq long]
  by_cases expired : lessTtl packet = 0
  · have size := length_aged long
    rw [if_pos expired, srSendIcmpTimeExceeded, srSendError_inside (by omega), QuoteInside,
      srcOf_aged long, size]
    simp only [expired, true_or, true_implies, QuoteInside]
  rw [if_neg expired]
  have size := length_forwarded long
  cases route : srGetLongestPrefixMatch sr (dstOf packet) with
  | none =>
      simp only [or_true, true_implies]
      rw [srSendIcmpNetUnreachable, srSendError_inside (by omega), QuoteInside,
        srcOf_forwarded long, size, QuoteInside]
  | some rt =>
      have nothing : ¬ (lessTtl packet = 0 ∨ some rt = none) := by simp [expired]
      apply iff_of_true _ fun given => absurd given nothing
      cases leads : srGetInterface sr rt.interface with
      | none =>
          simp only [leads]
          exact inside_ok _
      | some out =>
          simp only [leads]
          cases srArpcacheLookup entries rt.gw with
          | none => exact inside_ok _
          | some mac => exact inside_ok _

theorem srHandleIcmpPacket_inside :
    Inside (srHandleIcmpPacket sr entries packet) ↔
      35 ≤ packet.length ∧ (field packet 34 1 = [8] → 38 ≤ packet.length) := by
  by_cases empty : packet.length < 35
  · rw [srHandleIcmpPacket_empty empty]
    exact iff_of_false (fun inside => inside rfl) fun given => by omega
  by_cases echo : field packet 34 1 = [8]
  · by_cases short : packet.length < 38
    · rw [srHandleIcmpPacket_short (by omega) short echo]
      apply iff_of_false (fun inside => inside rfl)
      intro given
      have enough := given.2 echo
      omega
    · have room : 38 ≤ packet.length := by omega
      rw [srHandleIcmpPacket_eq room, if_pos echo]
      apply iff_of_true _ ⟨by omega, fun _ => room⟩
      cases srGetLongestPrefixMatch sr (srcOf packet) with
      | none => exact inside_ok _
      | some rt =>
          dsimp only
          cases srGetInterface sr rt.interface with
          | none => exact inside_ok _
          | some out =>
              dsimp only
              cases srArpcacheLookup entries rt.gw with
              | none => exact inside_ok _
              | some mac => exact inside_ok _
  · rw [srHandleIcmpPacket_other (by omega) echo]
    exact iff_of_true (inside_ok _) ⟨by omega, fun same => absurd same echo⟩

theorem srHandleArpPacket_inside : Inside (srHandleArpPacket sr mem packet interface) := by
  by_cases short : packet.length < 42
  · rw [srHandleArpPacket_short short]
    exact inside_ok _
  cases here : srGetInterface sr interface with
  | none =>
      rw [srHandleArpPacket, if_neg short, here]
      exact inside_ok _
  | some iface =>
      obtain ⟨action, ok, -⟩ := srHandleArpPacket_inBounds here
      rw [ok]
      exact inside_ok action

/-- The frame is handled inside its bounds if and only if it is long enough. -/
theorem srHandlepacketAction_inside :
    Inside (srHandlepacketAction sr entries mem packet interface) ↔
      FrameInside sr packet interface := by
  rw [FrameInside]
  by_cases short : packet.length < 14
  · rw [srHandlepacketAction, read_error (by omega), error_bind]
    exact iff_of_false (fun inside => inside rfl) fun given => by omega
  have ethernet : 14 ≤ packet.length := by omega
  rw [srHandlepacketAction_eq ethernet]
  by_cases arp : field packet 12 2 = pairBytes ethertypeArp
  · have other : field packet 12 2 ≠ pairBytes ethertypeIp := by
      rw [arp]
      decide
    rw [if_pos arp]
    exact iff_of_true srHandleArpPacket_inside ⟨ethernet, fun ip => absurd ip other⟩
  rw [if_neg arp]
  by_cases ip : field packet 12 2 = pairBytes ethertypeIp
  · rw [if_pos ip]
    by_cases header : packet.length < 34
    · rw [srHandleIpPacket_short header]
      exact iff_of_true (inside_ok _) ⟨ethernet, fun _ long => by omega⟩
    · have long : 34 ≤ packet.length := by omega
      rw [srHandleIpPacket_eq long]
      simp only [ethernet, ip, long, true_and, true_implies]
      by_cases good : checksumOk packet = true
      · simp only [good, if_true, true_implies]
        split_ifs with us icmp
        · exact srHandleIcmpPacket_inside
        · exact srSendError_inside long
        · exact srForwardPacket_inside long
      · simp [good, inside_ok]
  · rw [if_neg ip]
    exact iff_of_true (inside_ok _) ⟨ethernet, fun same => absurd same ip⟩

end

end CompNet.Router
