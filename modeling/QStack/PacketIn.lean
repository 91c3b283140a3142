/-
# QStack.PacketIn -- from the received frame to the TCP segment

`process_eth_packet`, `process_ipv4_packet` and the beginning of `process_tcp_packet` check a frame
and hand it on with lengths of their own: none of them reads the length of the packet that the
driver received.  `processEthPacket` is the three of them up to the point where the flow is looked
up; `ParseTCPOptions` and `process_tcp_payload` are called from there on only.

The lengths of a frame that gets there lie inside the packet exactly when its data offset covers
the fixed TCP header and its `tot_len` is not larger than the bytes received (`length_bounds`).
Both are the sender's to choose: `short_frame_stored`.
-/
import QStack.Connection

namespace QStack

set_option autoImplicit false

abbrev ethernetHeaderLen : Nat := 14
abbrev ipHeaderLen : Nat := 20
abbrev ethPIp : BitVec 16 := 0x0800
abbrev ethPArp : BitVec 16 := 0x0806
abbrev ipprotoTcp : BitVec 8 := 6

/-- The header fields the three functions read, and the bytes the driver received.  The fields of
the TCP header that play no part in the lengths are those of `tcp`. -/
structure Frame where
  pktLen : Nat
  hDest : BitVec 48
  hProto : BitVec 16 := ethPIp
  version : BitVec 4 := 4
  ihl : BitVec 4 := 5
  totLen : BitVec 16
  protocol : BitVec 8 := ipprotoTcp
  doff : BitVec 4
  tcp : Segment

/-- What becomes of a frame before its flow is looked up. -/
inductive Handled where
  | failed
  | error
  /-- `TRACE_EXIT` -/
  | exited
  /-- passed to `process_arp_packet` -/
  | arp
  /-- goes on to `StreamHTSearch` with these lengths -/
  | segment (payloadlen : Int) (seg : Segment)

namespace Frame

/-- `ip_len - (payload - iph)`; both pointers count from the start of the IP header. -/
def payloadlen (f : Frame) (ipLen : Int) : Int := ipLen - (ipHeaderLen + 4 * f.doff.toNat : Nat)

/-- The segment as the stream sees it; `payload_len` of the mbuf is a `uint16_t`. -/
def segment (f : Frame) (payloadlen : Int) : Segment :=
  { f.tcp with
    payloadLen := (payloadlen % 2 ^ 16).toNat
    doff := f.doff.toNat
    mbuf := { f.tcp.mbuf with mbufState := .rcved, l4Len := 4 * f.doff.toNat } }

/-- `process_tcp_packet`, up to the search for the stream -/
def processTcpPacket (f : Frame) (ipLen : Int) : Handled :=
  let payloadlen := f.payloadlen ipLen
  if f.doff = 0 ∨ ipLen < ((f.ihl.toNat + f.doff.toNat) * 4 : Nat) then .error
  else .segment payloadlen (f.segment payloadlen)

/-- `process_ipv4_packet` -/
def processIpv4Packet (f : Frame) : Handled :=
  let ipLen : Int := f.totLen.toNat
  if f.ihl.toNat ≠ ipHeaderLen / 4 then .exited
  else if f.version ≠ 4 then .failed
  else if f.protocol = ipprotoTcp then f.processTcpPacket ipLen
  else .failed

/-- `process_eth_packet`; `haddr` is `CONFIG.eths[0].haddr`. -/
def processEthPacket (haddr : BitVec 48) (f : Frame) : Handled :=
  if f.hProto = ethPIp then
    if f.hDest ≠ haddr then .failed else f.processIpv4Packet
  else if f.hProto = ethPArp then .arp
  else .failed

/-! ## The lengths -/

/-- What a frame has passed when its flow is looked up. -/
structure Checked (f : Frame) (payloadlen : Int) : Prop where
  ihl : f.ihl.toNat = 5
  doff : f.doff ≠ 0
  length : 4 * (f.ihl.toNat + f.doff.toNat) ≤ f.totLen.toNat
  payload : payloadlen = f.payloadlen f.totLen.toNat

theorem processEthPacket_checked {haddr : BitVec 48} {f : Frame} {payloadlen : Int} {seg : Segment}
    (handed : f.processEthPacket haddr = .segment payloadlen seg) : f.Checked payloadlen := by
  unfold processEthPacket processIpv4Packet processTcpPacket at handed
  dsimp only at handed
  split_ifs at handed with ip mac ihl version tcp refused
  rw [Handled.segment.injEq] at handed
  rw [not_or] at refused
  exact ⟨not_not.mp ihl, refused.1, by omega, handed.1.symm⟩

/-- The lengths of the frame are well formed and stay inside the packet. -/
structure Bounded (f : Frame) (payloadlen : Int) : Prop where
  ihl : f.ihl.toNat = 5
  doff : 5 ≤ f.doff.toNat
  payload : 0 ≤ payloadlen
  inside : (ethernetHeaderLen + ipHeaderLen + 4 * f.doff.toNat : Nat) + payloadlen ≤ f.pktLen

/-- **Packet length bounds.**  A frame that is carried as far as its flow has lengths inside the
packet exactly when its data offset covers the TCP header and its total length fits. -/
theorem length_bounds (haddr : BitVec 48) (f : Frame) (payloadlen : Int) (seg : Segment)
    (handed : f.processEthPacket haddr = .segment payloadlen seg) :
    f.Bounded payloadlen ↔
      5 ≤ f.doff.toNat ∧ ethernetHeaderLen + f.totLen.toNat ≤ f.pktLen := by
  obtain ⟨ihl, -, length, payload⟩ := processEthPacket_checked handed
  rw [Frame.payloadlen, ipHeaderLen] at payload
  constructor
  · intro bounded
    have inside := bounded.inside
    rw [ethernetHeaderLen, ipHeaderLen] at inside
    exact ⟨bounded.doff, by rw [ethernetHeaderLen]; omega⟩
  · rintro ⟨doff, fits⟩
    rw [ethernetHeaderLen] at fits
    exact ⟨ihl, doff, by omega, by rw [ethernetHeaderLen, ipHeaderLen]; omega⟩

/-- A full frame of 60 bytes with 6 bytes of payload. -/
def fullFrame : Frame :=
  { pktLen := 60, hDest := 0x02, totLen := 46, doff := 5, tcp := { seq := 100, ack := true } }

theorem length_bounds_full :
    fullFrame.processEthPacket 0x02 = .segment 6 (fullFrame.segment 6) ∧ fullFrame.Bounded 6 := by
  have handed : fullFrame.processEthPacket 0x02 = .segment 6 (fullFrame.segment 6) := rfl
  exact ⟨handed, (length_bounds 0x02 fullFrame 6 _ handed).mpr (by decide)⟩

/-- A frame of 60 bytes whose IP header claims 1500. -/
def shortFrame : Frame :=
  { pktLen := 60, hDest := 0x02, totLen := 1500, doff := 5
    tcp := { seq := 100, ackSeq := 501, ack := true, id := 1 } }

/-- A connection the peer has opened with sequence number 99. -/
def peerOpened : Conn :=
  (Conn.passive 32 8 500 {} { seq := 99, syn := true }).step
    { call := .packet { seq := 100, ackSeq := 501, ack := true } }

/-- The short frame passes every check, and its mbuf enters the receive buffer with 1460 bytes of
payload. -/
theorem short_frame_stored :
    shortFrame.processEthPacket 0x02 = .segment 1460 (shortFrame.segment 1460) ∧
      ¬ shortFrame.Bounded 1460 ∧
      let s := peerOpened.step { call := .packet (shortFrame.segment 1460) }
      s.ended = false ∧ s.st.rcvbuf.mergedNext = 1560 ∧ (s.cx.mem.mbuf 1).payloadLen = 1460 := by
  refine ⟨rfl, ?_, ?_⟩
  · intro bounded
    exact absurd bounded.inside (by decide)
  · decide +kernel

end Frame

end QStack
