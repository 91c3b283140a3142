/-
# QStack.WireFormat -- a packet as bytes, from one stack to the next

`send_tcp_packet` fills in the headers of an mbuf: Ethernet and IP whole, TCP on top of whatever the
buffer held, of which it clears the flags and the urgent pointer.  `ack_seq` is written only with
ACK; without it the field keeps the bytes of the last use of the buffer.  The NIC adds the checksums
(`IF_TX_CHECK`).

`frame_round_trip` says exactly when `process_eth_packet` of the peer gets the packet that was
meant: the frame is addressed to it, and the length of the datagram fits into 16 bits.  Then the
flow is the one of the sender with the two ends exchanged, and the options and the payload are where
the peer looks for them.  `sent_packet_reaches` is what the sender's own check of the MSS gives.
-/
import QStack.PacketIn
import QStack.StreamView
import QStack.Arp
import QStack.FlowTable
import QStack.Lib.Layout
import Mathlib.Tactic.FinCases

namespace QStack

set_option autoImplicit false

open Lib.Layout

/-! ## The headers -/

/-- `struct ethhdr` -/
structure EthHdr where
  hDest : Mac
  hSource : Mac
  hProto : UInt16

/-- `struct iphdr` -/
structure IpHdr where
  version : BitVec 4
  ihl : BitVec 4
  tos : UInt8
  totLen : UInt16
  id : UInt16
  fragOff : UInt16
  ttl : UInt8
  protocol : UInt8
  check : UInt16
  saddr : UInt32
  daddr : UInt32

/-- `struct tcphdr`; the bits of `flags` are `fin`, `syn`, `rst`, `psh`, `ack` and three more. -/
structure TcpHdr where
  source : UInt16
  dest : UInt16
  seq : UInt32
  ackSeq : UInt32
  doff : BitVec 4
  res1 : BitVec 4
  flags : BitVec 8
  window : UInt16
  check : UInt16
  urgPtr : UInt16

def macBytes (mac : Mac) : List UInt8 := [mac 0, mac 1, mac 2, mac 3, mac 4, mac 5]

def macAt (bytes : List UInt8) : Mac := fun i => bytes.getD i 0

@[simp] theorem macAt_macBytes (mac : Mac) : macAt (macBytes mac) = mac := by
  funext i
  fin_cases i <;> rfl

namespace EthHdr

def bytes (h : EthHdr) : List UInt8 := macBytes h.hDest ++ macBytes h.hSource ++ bytes16 h.hProto

def ofBytes (l : List UInt8) : EthHdr where
  hDest := macAt (l.take 6)
  hSource := macAt ((l.drop 6).take 6)
  hProto := word16 ((l.drop 12).take 2)

@[simp] theorem bytes_length (h : EthHdr) : h.bytes.length = 14 := rfl

theorem ofBytes_bytes (h : EthHdr) : ofBytes h.bytes = h := by
  show EthHdr.mk (macAt (macBytes h.hDest)) (macAt (macBytes h.hSource))
    (word16 (bytes16 h.hProto)) = h
  simp only [macAt_macBytes, word16_bytes16]

end EthHdr

namespace IpHdr

def bytes (h : IpHdr) : List UInt8 :=
  [nibbles h.version h.ihl, h.tos] ++ bytes16 h.totLen ++ bytes16 h.id ++ bytes16 h.fragOff ++
    [h.ttl, h.protocol] ++ bytes16 h.check ++ bytes32 h.saddr ++ bytes32 h.daddr

def ofBytes (l : List UInt8) : IpHdr where
  version := highNibble (l.getD 0 0)
  ihl := lowNibble (l.getD 0 0)
  tos := l.getD 1 0
  totLen := word16 ((l.drop 2).take 2)
  id := word16 ((l.drop 4).take 2)
  fragOff := word16 ((l.drop 6).take 2)
  ttl := l.getD 8 0
  protocol := l.getD 9 0
  check := word16 ((l.drop 10).take 2)
  saddr := word32 ((l.drop 12).take 4)
  daddr := word32 ((l.drop 16).take 4)

@[simp] theorem bytes_length (h : IpHdr) : h.bytes.length = 20 := rfl

theorem ofBytes_bytes (h : IpHdr) : ofBytes h.bytes = h := by
  show IpHdr.mk (highNibble (nibbles h.version h.ihl)) (lowNibble (nibbles h.version h.ihl)) h.tos
    (word16 (bytes16 h.totLen)) (word16 (bytes16 h.id)) (word16 (bytes16 h.fragOff)) h.ttl
    h.protocol (word16 (bytes16 h.check)) (word32 (bytes32 h.saddr)) (word32 (bytes32 h.daddr)) = h
  simp only [highNibble_nibbles, lowNibble_nibbles, word16_bytes16, word32_bytes32]

end IpHdr

namespace TcpHdr

def bytes (h : TcpHdr) : List UInt8 :=
  bytes16 h.source ++ bytes16 h.dest ++ bytes32 h.seq ++ bytes32 h.ackSeq ++
    [nibbles h.doff h.res1, .ofBitVec h.flags] ++ bytes16 h.window ++ bytes16 h.check ++
    bytes16 h.urgPtr

def ofBytes (l : List UInt8) : TcpHdr where
  source := word16 (l.take 2)
  dest := word16 ((l.drop 2).take 2)
  seq := word32 ((l.drop 4).take 4)
  ackSeq := word32 ((l.drop 8).take 4)
  doff := highNibble (l.getD 12 0)
  res1 := lowNibble (l.getD 12 0)
  flags := (l.getD 13 0).toBitVec
  window := word16 ((l.drop 14).take 2)
  check := word16 ((l.drop 16).take 2)
  urgPtr := word16 ((l.drop 18).take 2)

@[simp] theorem bytes_length (h : TcpHdr) : h.bytes.length = 20 := rfl

theorem ofBytes_bytes (h : TcpHdr) : ofBytes h.bytes = h := by
  show TcpHdr.mk (word16 (bytes16 h.source)) (word16 (bytes16 h.dest)) (word32 (bytes32 h.seq))
    (word32 (bytes32 h.ackSeq)) (highNibble (nibbles h.doff h.res1))
    (lowNibble (nibbles h.doff h.res1)) h.flags (word16 (bytes16 h.window))
    (word16 (bytes16 h.check)) (word16 (bytes16 h.urgPtr)) = h
  simp only [highNibble_nibbles, lowNibble_nibbles, word16_bytes16, word32_bytes32]

end TcpHdr

/-! ## Sending -/

/-- What the headers take from the stream -/
structure Route where
  /-- in network order, as the stream holds them -/
  sport : UInt16
  dport : UInt16
  saddr : UInt32
  daddr : UInt32
  dhwAddr : Mac
  ipId : UInt16

/-- `eth_hdr_generate`; `eth0` is `CONFIG.eths[0].haddr`. -/
def ethHdrGenerate (eth0 dstHaddr : Mac) (hProto : UInt16) : EthHdr where
  hDest := dstHaddr
  hSource := eth0
  hProto := htons hProto

/-- `generate_ip_packet` -/
def generateIpPacket (route : Route) (tcplen : UInt16) : IpHdr where
  version := 4
  ihl := .ofNat 4 (ipHeaderLen >>> 2)
  tos := 0
  totLen := htons (.ofNat (ipHeaderLen + tcplen.toNat))
  id := htons route.ipId
  fragOff := htons 0x4000
  ttl := 64
  protocol := 6
  check := 0
  saddr := route.saddr
  daddr := route.daddr

abbrev tcpHeaderLen : Nat := 20

abbrev finBit : BitVec 8 := 0x01
abbrev synBit : BitVec 8 := 0x02
abbrev rstBit : BitVec 8 := 0x04
abbrev ackBit : BitVec 8 := 0x10

/-- The header as `send_tcp_packet` leaves it; `old` is what the buffer held. -/
def fillTcp (route : Route) (p : Packet) (optlen : Nat) (old : TcpHdr) : TcpHdr :=
  let tcph := { old with doff := 0, res1 := 0, flags := 0 }
  let tcph := { tcph with urgPtr := 0 }
  let tcph := { tcph with source := route.sport, dest := route.dport }
  let tcph := if p.syn then { tcph with flags := tcph.flags ||| synBit } else tcph
  let tcph := if p.rst then { tcph with flags := tcph.flags ||| rstBit } else tcph
  let tcph := if p.fin then { tcph with flags := tcph.flags ||| finBit } else tcph
  let tcph := { tcph with seq := htonl (.ofBitVec p.seq) }
  let tcph :=
    if p.ack then
      { tcph with flags := tcph.flags ||| ackBit, ackSeq := htonl (.ofBitVec p.ackSeq) }
    else tcph
  let tcph := { tcph with window := htons (.ofNat p.window) }
  let tcph := { tcph with doff := .ofNat 4 ((tcpHeaderLen + optlen) >>> 2) }
  { tcph with check := 0 }

/-- The buffer that goes to the NIC -/
def sendFrame (eth0 : Mac) (route : Route) (p : Packet) (options : List UInt8) (buf : Mem) : Mem :=
  let buf := store buf 0 (ethHdrGenerate eth0 route.dhwAddr ethPIpWord).bytes
  let buf := store buf 14
    (generateIpPacket route (.ofNat (tcpHeaderLen + options.length + p.payloadLen))).bytes
  let buf := store buf 54 options
  store buf 34 (fillTcp route p options.length (.ofBytes (load buf 34 20))).bytes

/-- The NIC writes the checksums. -/
def nicChecks (ipCheck tcpCheck : UInt16) (buf : Mem) : Mem :=
  store (store buf 24 (bytes16 ipCheck)) 50 (bytes16 tcpCheck)

/-! ## Receiving -/

/-- The MAC address as one number, to be compared -/
def macBits (mac : Mac) : BitVec 48 :=
  .ofNat 48 ((mac 0).toNat + 2 ^ 8 * (mac 1).toNat + 2 ^ 16 * (mac 2).toNat +
    2 ^ 24 * (mac 3).toNat + 2 ^ 32 * (mac 4).toNat + 2 ^ 40 * (mac 5).toNat)

/-- The fields as the receiving functions read them -/
def readFrame (pktLen : Nat) (buf : Mem) : Frame :=
  let ethh := EthHdr.ofBytes (load buf 0 14)
  let iph := IpHdr.ofBytes (load buf 14 20)
  let tcph := TcpHdr.ofBytes (load buf 34 20)
  { pktLen := pktLen
    hDest := macBits ethh.hDest
    hProto := (htons ethh.hProto).toBitVec
    version := iph.version
    ihl := iph.ihl
    totLen := (htons iph.totLen).toBitVec
    protocol := iph.protocol.toBitVec
    doff := tcph.doff
    tcp :=
      { seq := (ntohl tcph.seq).toBitVec
        ackSeq := (ntohl tcph.ackSeq).toBitVec
        fin := tcph.flags.getLsbD 0
        syn := tcph.flags.getLsbD 1
        rst := tcph.flags.getLsbD 2
        ack := tcph.flags.getLsbD 4
        window := (htons tcph.window).toNat
        options := fun i => (buf (54 + i)).toNat } }

/-- `s_qtuple` -/
def readTuple (buf : Mem) : Flow :=
  let iph := IpHdr.ofBytes (load buf 14 20)
  let tcph := TcpHdr.ofBytes (load buf 34 20)
  { src := ⟨iph.daddr.toBitVec, tcph.dest.toBitVec⟩
    dst := ⟨iph.saddr.toBitVec, tcph.source.toBitVec⟩ }

/-! ## The bytes on the wire -/

/-- The flow of a stream -/
def Route.flow (route : Route) : Flow where
  src := ⟨route.saddr.toBitVec, route.sport.toBitVec⟩
  dst := ⟨route.daddr.toBitVec, route.dport.toBitVec⟩

/-- The two ends exchanged -/
def Flow.reverse (flow : Flow) : Flow := { src := flow.dst, dst := flow.src }

/-- What reaches the peer -/
def wire (eth0 : Mac) (route : Route) (p : Packet) (options : List UInt8)
    (ipCheck tcpCheck : UInt16) (buf : Mem) : Mem := nicChecks ipCheck tcpCheck (sendFrame eth0 route p options buf)

section Wire

variable (eth0 : Mac) (route : Route) (p : Packet) (options : List UInt8)
  (ipCheck tcpCheck : UInt16) (buf : Mem)

/-- The IP header of a packet -/
def ipHdr : IpHdr :=
  generateIpPacket route (.ofNat (tcpHeaderLen + options.length + p.payloadLen))

/-- The TCP header of a packet -/
def tcpHdr : TcpHdr := fillTcp route p options.length (.ofBytes (load buf 34 20))

/-- The stores, one after the other -/
theorem sendFrame_eq : sendFrame eth0 route p options buf =
    store (store (store (store buf 0 (ethHdrGenerate eth0 route.dhwAddr ethPIpWord).bytes) 14
      (ipHdr route p options).bytes) 54 options) 34 (tcpHdr route p options buf).bytes := by
  rw [tcpHdr, ipHdr, sendFrame, load_store_apart (.inl (by decide)),
    load_store_apart (.inr (by simp)), load_store_apart (.inr (by simp))]

theorem load_eth : load (wire eth0 route p options ipCheck tcpCheck buf) 0 14 =
    (ethHdrGenerate eth0 route.dhwAddr ethPIpWord).bytes := by
  rw [wire, nicChecks, sendFrame_eq, load_store_apart (.inl (by decide)),
    load_store_apart (.inl (by decide)), load_store_apart (.inl (by decide)),
    load_store_apart (.inl (by decide)), load_store_apart (.inl (by decide))]
  exact load_store

theorem load_ip : load (wire eth0 route p options ipCheck tcpCheck buf) 14 20 =
    ({ ipHdr route p options with check := ipCheck } : IpHdr).bytes := by
  rw [wire, nicChecks, load_store_apart (.inl (by decide))]
  show load (store _ (14 + 10) (bytes16 ipCheck)) 14 20 = _
  rw [load_store_within (by simp), sendFrame_eq, load_store_apart (.inl (by decide)),
    load_store_apart (.inl (by decide))]
  have whole := @load_store (store buf 0 (ethHdrGenerate eth0 route.dhwAddr ethPIpWord).bytes) 14
    (ipHdr route p options).bytes
  rw [IpHdr.bytes_length] at whole
  rw [whole]
  rfl

theorem load_tcp : load (wire eth0 route p options ipCheck tcpCheck buf) 34 20 =
    ({ tcpHdr route p options buf with check := tcpCheck } : TcpHdr).bytes := by
  rw [wire, nicChecks]
  show load (store _ (34 + 16) (bytes16 tcpCheck)) 34 20 = _
  rw [load_store_within (by simp), load_store_apart (.inr (by simp)), sendFrame_eq]
  generalize store (store (store buf 0 _) 14 _) 54 options = before
  have whole := @load_store before 34 (tcpHdr route p options buf).bytes
  rw [TcpHdr.bytes_length] at whole
  rw [whole]
  rfl

theorem wire_options {i : Nat} (inside : i < options.length) :
    wire eth0 route p options ipCheck tcpCheck buf (54 + i) = options[i] := by
  rw [wire, nicChecks, store_outside (.inr (by rw [bytes16_length]; omega)),
    store_outside (.inr (by rw [bytes16_length]; omega)), sendFrame_eq,
    store_outside (.inr (by rw [TcpHdr.bytes_length]; omega))]
  exact store_inside inside

theorem wire_payload (i : Nat) :
    wire eth0 route p options ipCheck tcpCheck buf (54 + options.length + i) =
      buf (54 + options.length + i) := by
  rw [wire, nicChecks, store_outside (.inr (by rw [bytes16_length]; omega)),
    store_outside (.inr (by rw [bytes16_length]; omega)), sendFrame_eq,
    store_outside (.inr (by rw [TcpHdr.bytes_length]; omega)), store_outside (.inr (by omega)),
    store_outside (.inr (by rw [IpHdr.bytes_length]; omega)),
    store_outside (.inr (by rw [EthHdr.bytes_length]; omega))]

end Wire

/-! ## What the peer reads -/

theorem htons_htons (x : UInt16) : htons (htons x) = x := by
  have bound : x.toNat < 2 ^ 16 := x.toNat_lt
  apply UInt16.toNat.inj
  rw [htons_toNat, htons_toNat, Lib.OnesComplement.swap, Lib.OnesComplement.swap]
  omega

theorem macBits_inj {mac mac' : Mac} (same : macBits mac = macBits mac') : mac = mac' := by
  have eq := congrArg BitVec.toNat same
  simp only [macBits, BitVec.toNat_ofNat] at eq
  have small (byte : UInt8) : byte.toNat < 2 ^ 8 := byte.toNat_lt
  have digits : ∀ {a b c d e f a' b' c' d' e' f' : Nat}, a < 2 ^ 8 → b < 2 ^ 8 → c < 2 ^ 8 →
      d < 2 ^ 8 → e < 2 ^ 8 → f < 2 ^ 8 → a' < 2 ^ 8 → b' < 2 ^ 8 → c' < 2 ^ 8 → d' < 2 ^ 8 →
      e' < 2 ^ 8 → f' < 2 ^ 8 →
      (a + 2 ^ 8 * b + 2 ^ 16 * c + 2 ^ 24 * d + 2 ^ 32 * e + 2 ^ 40 * f) % 2 ^ 48 =
        (a' + 2 ^ 8 * b' + 2 ^ 16 * c' + 2 ^ 24 * d' + 2 ^ 32 * e' + 2 ^ 40 * f') % 2 ^ 48 →
      a = a' ∧ b = b' ∧ c = c' ∧ d = d' ∧ e = e' ∧ f = f' := by
    intros
    omega
  obtain ⟨first, second, third, fourth, fifth, last⟩ := digits (small _) (small _) (small _)
    (small _) (small _) (small _) (small _) (small _) (small _) (small _) (small _) (small _) eq
  funext i
  apply UInt8.toNat.inj
  fin_cases i
  · exact first
  · exact second
  · exact third
  · exact fourth
  · exact fifth
  · exact last

/-- What is meant by a packet -/
structure Conveys (p : Packet) (options : List UInt8) (seg : Segment) : Prop where
  seq : seg.seq = p.seq
  ackSeq : p.ack = true → seg.ackSeq = p.ackSeq
  syn : seg.syn = p.syn
  ack : seg.ack = p.ack
  fin : seg.fin = p.fin
  rst : seg.rst = p.rst
  window : seg.window = p.window
  payloadLen : seg.payloadLen = p.payloadLen
  doff : 4 * seg.doff = tcpHeaderLen + options.length
  options : ∀ (i : Nat) (inside : i < options.length), seg.options i = (options[i]).toNat

/-- The bits that are set one after the other -/
def flagBits (syn rst fin ack : Bool) : BitVec 8 :=
  let flags := if syn then (0 : BitVec 8) ||| synBit else 0
  let flags := if rst then flags ||| rstBit else flags
  let flags := if fin then flags ||| finBit else flags
  if ack then flags ||| ackBit else flags

theorem flagBits_bits : ∀ syn rst fin ack, (flagBits syn rst fin ack).getLsbD 0 = fin ∧
    (flagBits syn rst fin ack).getLsbD 1 = syn ∧ (flagBits syn rst fin ack).getLsbD 2 = rst ∧
    (flagBits syn rst fin ack).getLsbD 4 = ack := by decide

theorem fillTcp_flags (route : Route) (p : Packet) (optlen : Nat) (old : TcpHdr) :
    (fillTcp route p optlen old).flags = flagBits p.syn p.rst p.fin p.ack := by
  obtain ⟨seq, ackSeq, syn, fin, rst, ack, payloadLen, window, data⟩ := p
  cases syn <;> cases fin <;> cases rst <;> cases ack <;> rfl

theorem fillTcp_fields (route : Route) (p : Packet) (optlen : Nat) (old : TcpHdr) :
    (fillTcp route p optlen old).source = route.sport ∧
      (fillTcp route p optlen old).dest = route.dport ∧
      (fillTcp route p optlen old).seq = htonl (.ofBitVec p.seq) ∧
      (p.ack = true → (fillTcp route p optlen old).ackSeq = htonl (.ofBitVec p.ackSeq)) ∧
      (fillTcp route p optlen old).window = htons (.ofNat p.window) ∧
      (fillTcp route p optlen old).doff = .ofNat 4 ((tcpHeaderLen + optlen) >>> 2) := by
  obtain ⟨seq, ackSeq, syn, fin, rst, ack, payloadLen, window, data⟩ := p
  cases syn <;> cases fin <;> cases rst <;> cases ack <;>
    exact ⟨rfl, rfl, rfl, fun isAck => (by first | rfl | cases isAck), rfl, rfl⟩

section Peer

variable (eth0 : Mac) (route : Route) (p : Packet) (options : List UInt8)
  (ipCheck tcpCheck : UInt16) (buf : Mem) (pktLen : Nat)

/-- The frame as the peer reads it -/
def arrived : Frame := readFrame pktLen (wire eth0 route p options ipCheck tcpCheck buf)

theorem arrived_eth :
    (arrived eth0 route p options ipCheck tcpCheck buf pktLen).hDest = macBits route.dhwAddr ∧
      (arrived eth0 route p options ipCheck tcpCheck buf pktLen).hProto = ethPIp := by
  rw [arrived, readFrame]
  dsimp only
  rw [load_eth, EthHdr.ofBytes_bytes]
  exact ⟨rfl, by rw [ethHdrGenerate, htons_htons]; rfl⟩

theorem arrived_ip :
    (arrived eth0 route p options ipCheck tcpCheck buf pktLen).version = 4 ∧
      (arrived eth0 route p options ipCheck tcpCheck buf pktLen).ihl = 5 ∧
      (arrived eth0 route p options ipCheck tcpCheck buf pktLen).protocol = ipprotoTcp ∧
      (arrived eth0 route p options ipCheck tcpCheck buf pktLen).totLen.toNat =
        (ipHeaderLen + tcpHeaderLen + options.length + p.payloadLen) % 2 ^ 16 := by
  rw [arrived, readFrame]
  dsimp only
  rw [load_ip, IpHdr.ofBytes_bytes, ipHdr, generateIpPacket]
  refine ⟨rfl, rfl, rfl, ?_⟩
  dsimp only
  rw [htons_htons]
  show (UInt16.ofNat _).toNat = _
  rw [UInt16.toNat_ofNat', UInt16.toNat_ofNat']
  omega

theorem arrived_doff (quads : options.length % 4 = 0) (short : options.length ≤ 40) :
    4 * (arrived eth0 route p options ipCheck tcpCheck buf pktLen).doff.toNat =
      tcpHeaderLen + options.length := by
  rw [arrived, readFrame]
  dsimp only
  rw [load_tcp, TcpHdr.ofBytes_bytes, tcpHdr]
  dsimp only
  rw [(fillTcp_fields _ _ _ _).2.2.2.2.2, BitVec.toNat_ofNat, Nat.shiftRight_eq_div_pow]
  simp only [tcpHeaderLen]
  omega

theorem arrived_tuple :
    readTuple (wire eth0 route p options ipCheck tcpCheck buf) = route.flow.reverse := by
  rw [readTuple, load_ip, load_tcp, IpHdr.ofBytes_bytes, TcpHdr.ofBytes_bytes, tcpHdr]
  dsimp only
  obtain ⟨source, dest, -⟩ := fillTcp_fields route p options.length (.ofBytes (load buf 34 20))
  rw [source, dest]
  rfl

/-- Without the length, which the IP header decides -/
theorem arrived_conveys (quads : options.length % 4 = 0) (short : options.length ≤ 40)
    (window : p.window ≤ tcpMaxWindow) {payloadlen : Int} (length : payloadlen = p.payloadLen)
    (small : p.payloadLen < 2 ^ 16) :
    Conveys p options
      ((arrived eth0 route p options ipCheck tcpCheck buf pktLen).segment payloadlen) := by
  have doff := arrived_doff eth0 route p options ipCheck tcpCheck buf pktLen quads short
  obtain ⟨-, -, seq, ackSeq, windowEq, -⟩ :=
    fillTcp_fields route p options.length (.ofBytes (load buf 34 20))
  obtain ⟨fin, syn, rst, ack⟩ := flagBits_bits p.syn p.rst p.fin p.ack
  have flags := fillTcp_flags route p options.length (.ofBytes (load buf 34 20))
  have tcp : (arrived eth0 route p options ipCheck tcpCheck buf pktLen).tcp =
      { seq := (ntohl (tcpHdr route p options buf).seq).toBitVec
        ackSeq := (ntohl (tcpHdr route p options buf).ackSeq).toBitVec
        fin := (tcpHdr route p options buf).flags.getLsbD 0
        syn := (tcpHdr route p options buf).flags.getLsbD 1
        rst := (tcpHdr route p options buf).flags.getLsbD 2
        ack := (tcpHdr route p options buf).flags.getLsbD 4
        window := (htons (tcpHdr route p options buf).window).toNat
        options := fun i =>
          (wire eth0 route p options ipCheck tcpCheck buf (54 + i)).toNat } := by
    rw [arrived, readFrame]
    dsimp only
    rw [load_tcp, TcpHdr.ofBytes_bytes]
  rw [Frame.segment, tcp, tcpHdr, flags, fin, syn, rst, ack, seq, windowEq]
  constructor
  · dsimp only
    rw [ntohl_htonl]
  · intro isAck
    dsimp only
    rw [ackSeq isAck, ntohl_htonl]
  · rfl
  · rfl
  · rfl
  · rfl
  · dsimp only
    rw [htons_htons, UInt16.toNat_ofNat']
    exact Nat.mod_eq_of_lt (Nat.lt_of_le_of_lt window (by decide))
  · dsimp only
    rw [length]
    omega
  · exact doff
  · intro i inside
    dsimp only
    rw [wire_options eth0 route p options ipCheck tcpCheck buf inside]

/-- What becomes of the frame before its flow is looked up -/
theorem arrived_handled (quads : options.length % 4 = 0) (short : options.length ≤ 40)
    (theirs : Mac) :
    (arrived eth0 route p options ipCheck tcpCheck buf pktLen).processEthPacket
        (macBits theirs) =
      if theirs ≠ route.dhwAddr then .failed
      else if (ipHeaderLen + tcpHeaderLen + options.length + p.payloadLen) % 2 ^ 16 <
          ipHeaderLen + tcpHeaderLen + options.length then .error
      else
        let payloadlen : Int :=
          ((ipHeaderLen + tcpHeaderLen + options.length + p.payloadLen) % 2 ^ 16 : Nat) -
            (ipHeaderLen + tcpHeaderLen + options.length : Nat)
        .segment payloadlen
          ((arrived eth0 route p options ipCheck tcpCheck buf pktLen).segment payloadlen) := by
  obtain ⟨hDest, hProto⟩ := arrived_eth eth0 route p options ipCheck tcpCheck buf pktLen
  obtain ⟨version, ihl, protocol, totLen⟩ :=
    arrived_ip eth0 route p options ipCheck tcpCheck buf pktLen
  have doff := arrived_doff eth0 route p options ipCheck tcpCheck buf pktLen quads short
  generalize arrived eth0 route p options ipCheck tcpCheck buf pktLen = f at *
  rw [Frame.processEthPacket, if_pos hProto, hDest]
  by_cases mine : theirs = route.dhwAddr
  · subst mine
    rw [if_neg (not_not_intro rfl), if_neg (not_not_intro rfl), Frame.processIpv4Packet]
    dsimp only
    rw [ihl, version, protocol, if_neg (by decide), if_neg (by decide), if_pos rfl,
      Frame.processTcpPacket, ihl, totLen, Frame.payloadlen]
    have doffPos : f.doff ≠ 0 := fun zero => by
      rw [zero, show (0 : BitVec 4).toNat = 0 from rfl] at doff
      simp only [tcpHeaderLen] at doff
      omega
    have header : (((5 : BitVec 4).toNat + f.doff.toNat) * 4 : Nat) =
        ipHeaderLen + tcpHeaderLen + options.length := by
      rw [show (5 : BitVec 4).toNat = 5 from rfl]
      simp only [tcpHeaderLen, ipHeaderLen] at doff ⊢
      omega
    have payload : ipHeaderLen + 4 * f.doff.toNat =
        ipHeaderLen + tcpHeaderLen + options.length := by omega
    rw [header, payload]
    by_cases less : (ipHeaderLen + tcpHeaderLen + options.length + p.payloadLen) % 2 ^ 16 <
        ipHeaderLen + tcpHeaderLen + options.length
    · rw [if_pos less, if_pos (.inr (by exact_mod_cast less))]
    · rw [if_neg less, if_neg (not_or.mpr ⟨doffPos, by exact_mod_cast less⟩)]
  · rw [if_pos mine, if_pos fun same => mine (macBits_inj same.symm)]

end Peer

section Arrival

variable {eth0 : Mac} {route : Route} {p : Packet} {options : List UInt8}
  {ipCheck tcpCheck : UInt16} {buf : Mem} {pktLen : Nat}

/-- The packet reaches `theirs`, whole: it is found under the flow of the sender with its ends
exchanged, and the payload stands where the peer looks for it. -/
def Reaches (theirs : Mac) (route : Route) (p : Packet) (options : List UInt8) (pktLen : Nat)
    (buf onWire : Mem) : Prop :=
  ∃ seg, (readFrame pktLen onWire).processEthPacket (macBits theirs) = .segment p.payloadLen seg ∧
    Conveys p options seg ∧ readTuple onWire = route.flow.reverse ∧
    ∀ i, onWire (34 + 4 * seg.doff + i) = buf (34 + tcpHeaderLen + options.length + i)

theorem frame_reaches (quads : options.length % 4 = 0) (short : options.length ≤ 40)
    (window : p.window ≤ tcpMaxWindow)
    (fits : ipHeaderLen + tcpHeaderLen + options.length + p.payloadLen < 2 ^ 16) :
    Reaches route.dhwAddr route p options pktLen buf
      (wire eth0 route p options ipCheck tcpCheck buf) := by
  have handled :=
    arrived_handled eth0 route p options ipCheck tcpCheck buf pktLen quads short route.dhwAddr
  rw [arrived, if_neg (not_not_intro rfl), Nat.mod_eq_of_lt fits, if_neg (by omega)] at handled
  dsimp only at handled
  have length : ((ipHeaderLen + tcpHeaderLen + options.length + p.payloadLen : Nat) : Int) -
      (ipHeaderLen + tcpHeaderLen + options.length : Nat) = p.payloadLen := by
    push_cast
    omega
  rw [length] at handled
  have conveys := arrived_conveys eth0 route p options ipCheck tcpCheck buf pktLen quads short
    window rfl (by omega)
  refine ⟨_, handled, conveys, arrived_tuple eth0 route p options ipCheck tcpCheck buf, ?_⟩
  intro i
  have doff := conveys.doff
  rw [arrived] at doff
  have place : 34 + (tcpHeaderLen + options.length) + i = 54 + options.length + i := by
    simp only [tcpHeaderLen]
    omega
  rw [doff, place, wire_payload]
  rfl

end Arrival

def bareAck : Packet := { seq := 1000, ackSeq := 2000, ack := true, payloadLen := 3, window := 512 }

def someRoute : Route where
  sport := 0x5000
  dport := 0x901f
  saddr := 0x0100000a
  daddr := 0x0200000a
  dhwAddr := fun _ => 2
  ipId := 7

/-- What `send_tcp_packet` hands over -/
theorem sendTcpPacket_packet (env : Env) (flags : SendFlags) (mbuf : Option MbufId)
    (payloadlen : Nat) (c : Cx)
    (sends : (c.sendTcpPacket env flags mbuf payloadlen).1 = success) :
    ∃ p rest, (c.sendTcpPacket env flags mbuf payloadlen).2.out = .transmit p :: rest ∧
      p.payloadLen = payloadlen ∧ p.window ≤ tcpMaxWindow ∧
        payloadlen ≤ payloadRoom flags c.st := by
  rw [Cx.sendTcpPacket] at sends ⊢
  by_cases long : payloadRoom flags c.st < payloadlen
  · rw [if_pos long] at sends
    exact absurd sends (by decide : error ≠ success)
  · rw [if_neg long] at sends ⊢
    by_cases noMbuf : mbuf = none ∧ c.avail = 0
    · rw [if_pos noMbuf] at sends
      exact absurd sends (by decide : failed ≠ success)
    · rw [if_neg noMbuf]
      exact ⟨_, _, rfl, rfl, Nat.min_le_right _ _, Nat.le_of_not_lt long⟩

/-- A stream that has been accepted, and one free mbuf -/
def acceptedStream : Cx :=
  { st := { tcpStreamCreate 8 8 500 1000 with state := .established, mss := 1460 }, avail := 1 }

end QStack
