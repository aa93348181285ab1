import CompNet.Lib.Blocks
import Mathlib.Algebra.Order.Ring.Int

/-!
# The Secure Hash Standard

SHA-1 as FIPS PUB 180-1 defines it, for messages of whole bytes: the message is padded
to blocks of 64 bytes and the compression function is folded over them.
-/

namespace CompNet.Lib

/-- The five words of a digest. -/
structure Words where
  a : UInt32
  b : UInt32
  c : UInt32
  d : UInt32
  e : UInt32
  deriving DecidableEq, Repr

namespace Sha1

/-- The words `H0` to `H4` at first. -/
def initial : Words := ⟨0x67452301, 0xEFCDAB89, 0x98BADCFE, 0x10325476, 0xC3D2E1F0⟩

/-- The circular left shift. -/
def rotl (n x : UInt32) : UInt32 := (x <<< n) ||| (x >>> (32 - n))

/-- The word of a block, most significant byte first. -/
def wordAt (block : List UInt8) (t : Nat) : UInt32 :=
  ((block.getD (4 * t) 0).toUInt32 <<< 24) ||| ((block.getD (4 * t + 1) 0).toUInt32 <<< 16) |||
    ((block.getD (4 * t + 2) 0).toUInt32 <<< 8) ||| (block.getD (4 * t + 3) 0).toUInt32

/-- The words `W0` to `W79`. -/
def schedule (block : List UInt8) (t : Nat) : UInt32 :=
  if t < 16 then wordAt block t
  else
    rotl 1 (schedule block (t - 3) ^^^ schedule block (t - 8) ^^^ schedule block (t - 14) ^^^
      schedule block (t - 16))
termination_by t
decreasing_by all_goals omega

/-- The logical functions. -/
def logic (t : Nat) (b c d : UInt32) : UInt32 :=
  if t < 20 then (b &&& c) ||| (~~~b &&& d)
  else if t < 40 then b ^^^ c ^^^ d
  else if t < 60 then (b &&& c) ||| (b &&& d) ||| (c &&& d)
  else b ^^^ c ^^^ d

/-- The constants. -/
def constant (t : Nat) : UInt32 :=
  if t < 20 then 0x5A827999
  else if t < 40 then 0x6ED9EBA1
  else if t < 60 then 0x8F1BBCDC
  else 0xCA62C1D6

def round (block : List UInt8) (w : Words) (t : Nat) : Words where
  a := rotl 5 w.a + logic t w.b w.c w.d + w.e + schedule block t + constant t
  b := w.a
  c := rotl 30 w.b
  d := w.c
  e := w.d

/-- The words after a block. -/
def compress (h : Words) (block : List UInt8) : Words :=
  let w := (List.range 80).foldl (round block) h
  ⟨h.a + w.a, h.b + w.b, h.c + w.c, h.d + w.d, h.e + w.e⟩

/-- Eight bytes, the most significant first. -/
def bytesOf64 (n : Nat) : List UInt8 :=
  [UInt8.ofNat (n / 2 ^ 56), UInt8.ofNat (n / 2 ^ 48), UInt8.ofNat (n / 2 ^ 40),
    UInt8.ofNat (n / 2 ^ 32), UInt8.ofNat (n / 2 ^ 24), UInt8.ofNat (n / 2 ^ 16),
    UInt8.ofNat (n / 2 ^ 8), UInt8.ofNat n]

/-- The padded message: a one bit, zeros, and the length in bits. -/
def pad (message : List UInt8) : List UInt8 :=
  message ++ 0x80 :: List.replicate ((119 - message.length % 64) % 64) 0 ++
    bytesOf64 (8 * message.length)

/-- The digest of a message of fewer than `2 ^ 61` bytes. -/
def digest (message : List UInt8) : Words := (blocks 64 (pad message)).foldl compress initial

end Sha1

end CompNet.Lib
