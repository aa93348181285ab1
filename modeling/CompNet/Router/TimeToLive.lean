import CompNet.Router.Checksum

/-!
# The time to live

A packet for another host passes the test of the checksum or is dropped, and leaves
`sr_forward_packet` one hop on unless its time to live is used up.  What the received
checksum is worth is judged by the rule for it and not by the test, which also fails
for the headers that sum to 0xffff without their checksum: such a packet is dropped
without the message that its time is exceeded.
-/

namespace CompNet.Router

open CompNet.Lib

/-- A frame with the datagram of a packet one hop later, and a right header. -/
def Onward (packet frame : Bytes) : Prop := OneHopOn packet frame ∧ headerVerifies frame

section

variable {sr : Instance} {entries : List ArpEntry} {mem : Memory} {packet frame : Bytes}
  {interface : IfName} {action : Action}

theorem OneHopOn.onward (long : 34 ≤ packet.length) (hop : OneHopOn packet frame) :
    Onward packet frame :=
  ⟨hop, ((checksumOk_iff_verifies (by rw [hop.length]; exact long)).mp hop.sum).1⟩

end

end CompNet.Router
