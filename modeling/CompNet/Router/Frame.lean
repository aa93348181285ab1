import Mathlib.Algebra.Order.Ring.Int
import Mathlib.Data.List.Basic

/-!
# Frames and headers

A received frame is the list of its bytes, and every access names an offset and
a length that are checked against it.  A frame that the router allocates is seen
through the packed structs of `sr_protocol.h`: the record that `malloc` returns
holds whatever the memory held, and a field keeps that until it is written.
Addresses are the 32-bit values a little-endian machine loads from network byte
order.
-/

namespace CompNet.Router

abbrev Bytes := List UInt8

/-- What ends a handler before its time. -/
inductive Fault
  | outOfBounds
  | nullPointer
  | useAfterFree
  | outOfFuel
  deriving DecidableEq, Repr

/-! ## Access -/

/-- `n` bytes from offset `i` on. -/
def field (f : Bytes) (i n : Nat) : Bytes := (f.drop i).take n

/-- A read of `n` bytes at offset `i`. -/
def read (f : Bytes) (i n : Nat) : Except Fault Bytes :=
  if i + n ≤ f.length then .ok (field f i n) else .error .outOfBounds

/-- The bytes of `v` put at offset `i`. -/
def put (f : Bytes) (i : Nat) (v : Bytes) : Bytes := f.take i ++ v ++ f.drop (i + v.length)

/-- A write of the bytes of `v` at offset `i`. -/
def write (f : Bytes) (i : Nat) (v : Bytes) : Except Fault Bytes :=
  if i + v.length ≤ f.length then .ok (put f i v) else .error .outOfBounds

theorem read_ok {f : Bytes} {i n : Nat} (le : i + n ≤ f.length) : read f i n = .ok (field f i n) :=
  if_pos le

theorem read_error {f : Bytes} {i n : Nat} (lt : f.length < i + n) :
    read f i n = .error .outOfBounds := if_neg (by omega)

theorem write_ok {f v : Bytes} {i : Nat} (le : i + v.length ≤ f.length) :
    write f i v = .ok (put f i v) :=
  if_pos le

theorem write_error {f v : Bytes} {i : Nat} (lt : f.length < i + v.length) :
    write f i v = .error .outOfBounds := if_neg (by omega)

section

variable {f v : Bytes} {i j n : Nat}

theorem length_field (le : i + n ≤ f.length) : (field f i n).length = n := by
  rw [field, List.length_take, List.length_drop]
  omega

theorem length_put (le : i + v.length ≤ f.length) : (put f i v).length = f.length := by
  simp only [put, List.length_append, List.length_take, List.length_drop]
  omega

/-- What was put can be read. -/
theorem field_put (le : i + v.length ≤ f.length) : field (put f i v) i v.length = v := by
  have start : (f.take i).length = i := by
    rw [List.length_take]
    omega
  rw [field, put, List.append_assoc, List.drop_left' start, List.take_left]

theorem field_put_before (le : i + v.length ≤ f.length) (before : j + n ≤ i) :
    field (put f i v) j n = field f j n := by
  have start : (f.take i).length = i := by
    rw [List.length_take]
    omega
  rw [field, field, put, List.append_assoc, List.drop_append_of_le_length (by omega),
    List.take_append_of_le_length (by rw [List.length_drop, start]; omega), List.drop_take,
    List.take_take, Nat.min_eq_left (by omega)]

theorem field_put_behind (le : i + v.length ≤ f.length) (behind : i + v.length ≤ j) :
    field (put f i v) j n = field f j n := by
  have start : (f.take i ++ v).length = i + v.length := by
    rw [List.length_append, List.length_take]
    omega
  rw [field, field, put, List.drop_append, List.drop_eq_nil_of_le (by omega), List.nil_append,
    List.drop_drop, start]
  congr 2
  omega

/-- A second write to a place undoes the first. -/
theorem put_put {w : Bytes} (le : i + v.length ≤ f.length) (same : v.length = w.length) :
    put (put f i v) i w = put f i w := by
  have start : (f.take i).length = i := by
    rw [List.length_take]
    omega
  have front : (put f i v).take i = f.take i := by
    rw [put, List.append_assoc, List.take_left' start]
  have behind : (put f i v).drop (i + w.length) = f.drop (i + w.length) := by
    rw [put, ← same]
    exact List.drop_left' (by rw [List.length_append, start])
  rw [put, front, behind, put]

/-- What is read around a write. -/
theorem field_put_inside (le : i + v.length ≤ f.length) (front : j ≤ i)
    (back : i + v.length ≤ j + n) :
    field (put f i v) j n =
      field f j (i - j) ++ v ++ field f (i + v.length) (j + n - (i + v.length)) := by
  have before : ((f.take i).drop j).length = i - j := by
    rw [List.length_drop, List.length_take]
    omega
  have start : (f.take i).length = i := by
    rw [List.length_take]
    omega
  rw [field, put, List.append_assoc, List.drop_append_of_le_length (by omega), List.take_append,
    List.take_of_length_le (by omega), before, List.take_append,
    List.take_of_length_le (show v.length ≤ n - (i - j) by omega), List.drop_take, field, field,
    List.append_assoc]
  congr 3
  omega

end

/-! ## Addresses -/

/-- An Ethernet address. -/
structure Mac where
  a : UInt8
  b : UInt8
  c : UInt8
  d : UInt8
  e : UInt8
  f : UInt8
  deriving DecidableEq, Repr

def macBytes (m : Mac) : Bytes := [m.a, m.b, m.c, m.d, m.e, m.f]

/-- The address in six bytes. -/
def macOf (b : Bytes) : Mac :=
  ⟨b.getD 0 0, b.getD 1 0, b.getD 2 0, b.getD 3 0, b.getD 4 0, b.getD 5 0⟩

@[simp] theorem length_macBytes (m : Mac) : (macBytes m).length = 6 := rfl

abbrev Ip := UInt32

/-- A load. -/
def ipOf (b : Bytes) : Ip := UInt32.ofNat (b.foldr (fun c n => c.toNat + 256 * n) 0)

/-- A store. -/
def ipBytes (a : Ip) : Bytes :=
  [UInt8.ofNat (a.toNat % 256), UInt8.ofNat (a.toNat / 256 % 256),
    UInt8.ofNat (a.toNat / 65536 % 256), UInt8.ofNat (a.toNat / 16777216 % 256)]

theorem ipOf_ipBytes (a : Ip) : ipOf (ipBytes a) = a := by
  have bound : a.toNat < 4294967296 := a.toNat_lt
  have parts : a.toNat % 256 + 256 * (a.toNat / 256 % 256 + 256 * (a.toNat / 65536 % 256 +
      256 * (a.toNat / 16777216 % 256))) = a.toNat := by omega
  apply UInt32.toNat_inj.mp
  simp [ipOf, ipBytes]
  omega

/-! ## Checksum -/

/-- The sum of the 16-bit words, in 32 bits. -/
def sumWords : Bytes → Nat
  | [] => 0
  | [a] => a.toNat * 256
  | a :: b :: rest => (a.toNat * 256 + b.toNat + sumWords rest) % 2 ^ 32

/-- The folding loop; a 32-bit sum is folded after two turns. -/
def foldSum : Nat → Nat → Nat
  | 0, sum => sum
  | turns + 1, sum =>
      if sum > 0xffff then foldSum turns (sum / 65536 + sum % 65536) else sum

/-- `cksum`, as the two bytes that are stored. -/
def cksum (data : Bytes) : UInt8 × UInt8 :=
  let sum := 0xffff - foldSum 2 (sumWords data)
  if sum = 0 then (0xff, 0xff) else (UInt8.ofNat (sum / 256), UInt8.ofNat (sum % 256))

def pairBytes (p : UInt8 × UInt8) : Bytes := [p.1, p.2]

@[simp] theorem length_pairBytes (p : UInt8 × UInt8) : (pairBytes p).length = 2 := rfl

/-! ## Headers of allocated frames -/

/-- A block that `malloc` has returned. -/
abbrev Memory := Nat → UInt8

/-- `struct sr_ethernet_hdr`. -/
structure EthernetHdr where
  dhost : Mac
  shost : Mac
  type : UInt8 × UInt8
  deriving DecidableEq, Repr

/-- `struct sr_arp_hdr`. -/
structure ArpHdr where
  hrd : UInt8 × UInt8
  pro : UInt8 × UInt8
  hln : UInt8
  pln : UInt8
  op : UInt8 × UInt8
  sha : Mac
  sip : Ip
  tha : Mac
  tip : Ip
  deriving DecidableEq, Repr

/-- Fields of four bits have literals. -/
instance fourBits : NeZero 16 := ⟨by decide⟩

/-- `struct sr_ip_hdr`. -/
structure IpHdr where
  hl : Fin 16
  v : Fin 16
  tos : UInt8
  len : UInt8 × UInt8
  id : UInt8 × UInt8
  off : UInt8 × UInt8
  ttl : UInt8
  p : UInt8
  sum : UInt8 × UInt8
  src : Ip
  dst : Ip
  deriving DecidableEq, Repr

/-- `struct sr_icmp_t3_hdr`. -/
structure IcmpT3Hdr where
  type : UInt8
  code : UInt8
  sum : UInt8 × UInt8
  unused : UInt8 × UInt8
  nextMtu : UInt8 × UInt8
  data : Bytes
  deriving DecidableEq, Repr

section

variable (mem : Memory) (i : Nat)

def Memory.mac : Mac := ⟨mem i, mem (i + 1), mem (i + 2), mem (i + 3), mem (i + 4), mem (i + 5)⟩

def Memory.pair : UInt8 × UInt8 := (mem i, mem (i + 1))

def Memory.bytes (n : Nat) : Bytes := (List.range n).map fun k => mem (i + k)

/-! The structs at an address of the block. -/

def Memory.ethernetHdr : EthernetHdr := ⟨mem.mac i, mem.mac (i + 6), mem.pair (i + 12)⟩

def Memory.arpHdr : ArpHdr :=
  ⟨mem.pair i, mem.pair (i + 2), mem (i + 4), mem (i + 5), mem.pair (i + 6), mem.mac (i + 8),
    ipOf (mem.bytes (i + 14) 4), mem.mac (i + 18), ipOf (mem.bytes (i + 24) 4)⟩

def Memory.ipHdr : IpHdr :=
  ⟨Fin.ofNat 16 (mem i).toNat, Fin.ofNat 16 ((mem i).toNat / 16), mem (i + 1), mem.pair (i + 2),
    mem.pair (i + 4), mem.pair (i + 6), mem (i + 8), mem (i + 9), mem.pair (i + 10),
    ipOf (mem.bytes (i + 12) 4), ipOf (mem.bytes (i + 16) 4)⟩

def Memory.icmpT3Hdr : IcmpT3Hdr :=
  ⟨mem i, mem (i + 1), mem.pair (i + 2), mem.pair (i + 4), mem.pair (i + 6), mem.bytes (i + 8) 28⟩

end

/-! The bytes of a struct. -/

def EthernetHdr.bytes (h : EthernetHdr) : Bytes :=
  macBytes h.dhost ++ macBytes h.shost ++ pairBytes h.type

def ArpHdr.bytes (h : ArpHdr) : Bytes :=
  pairBytes h.hrd ++ pairBytes h.pro ++ [h.hln, h.pln] ++ pairBytes h.op ++ macBytes h.sha ++
    ipBytes h.sip ++ macBytes h.tha ++ ipBytes h.tip

def IpHdr.bytes (h : IpHdr) : Bytes :=
  [UInt8.ofNat (h.v * 16 + h.hl), h.tos] ++ pairBytes h.len ++ pairBytes h.id ++ pairBytes h.off ++
    [h.ttl, h.p] ++ pairBytes h.sum ++ ipBytes h.src ++ ipBytes h.dst

def IcmpT3Hdr.bytes (h : IcmpT3Hdr) : Bytes :=
  [h.type, h.code] ++ pairBytes h.sum ++ pairBytes h.unused ++ pairBytes h.nextMtu ++ h.data

/-! ## Frames without a destination -/

/-- Frames that differ at most in the destination address. -/
structure SameBehind (f g : Bytes) : Prop where
  length : f.length = g.length
  behind : f.drop 6 = g.drop 6

theorem SameBehind.refl (f : Bytes) : SameBehind f f := ⟨rfl, rfl⟩

section

variable {f g : Bytes} {i n : Nat}

theorem SameBehind.field (same : SameBehind f g) (le : 6 ≤ i) :
    CompNet.Router.field f i n = CompNet.Router.field g i n := by
  have split : ∀ h : Bytes, h.drop i = (h.drop 6).drop (i - 6) := by
    intro h
    rw [List.drop_drop]
    congr 1
    omega
  rw [CompNet.Router.field, CompNet.Router.field, split f, split g, same.behind]

theorem SameBehind.read (same : SameBehind f g) (le : 6 ≤ i) :
    CompNet.Router.read f i n = CompNet.Router.read g i n := by
  rw [CompNet.Router.read, CompNet.Router.read, same.length, same.field le]

/-- The destination address is written over what differs. -/
theorem SameBehind.write (same : SameBehind f g) (mac : Mac) :
    CompNet.Router.write f 0 (macBytes mac) = CompNet.Router.write g 0 (macBytes mac) := by
  have six : (macBytes mac).length = 6 := rfl
  rw [CompNet.Router.write, CompNet.Router.write, same.length, put, put, six, same.behind]
  rfl

theorem SameBehind.mac (m n : Mac) (h : Bytes) : SameBehind (macBytes m ++ h) (macBytes n ++ h) :=
  ⟨rfl, rfl⟩

end

end CompNet.Router
