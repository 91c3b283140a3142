/-
# QStack.Transfer -- what the one application reads is what the other one sent

A connection that sends, the packets it has put on the wire, and the receive buffer of its peer with
the application behind it.  The wire never forgets a packet: it may deliver it late, out of order,
more than once, or not at all.  What comes back to the sender is any sequence of segments.

`Tiled` says that the packets spell out one stream of bytes, and `Streaming` that the buffer hands
out the stream its segments are cut from.  `read_prefix_of_sent` joins the two: at every moment the
bytes that were read are a prefix of the bytes that were sent, each mbuf counted once, at its first
transmission.  The conditions are those of the two sides, `RetransOk` and `MergeOk`, and that no
packet arrives so late that its sequence number stands for another part of the stream.
-/
import QStack.Retransmission
import QStack.SendAccounts
import QStack.RecvIntegrity

namespace QStack

set_option autoImplicit false

/-! ## The bytes on the wire -/

section Bytes

variable (content : MbufId → Nat → BitVec 8)

/-- The bytes sent, those of an mbuf where it was sent for the first time. -/
def sentBytes : List Sent → List (BitVec 8)
  | [] => []
  | p :: older =>
      match p.data with
      | none => sentBytes older
      | some id =>
          if transmitted id older then sentBytes older
          else sentBytes older ++ slice (content id) 0 p.len

@[simp] theorem slice_length (peer : Nat → BitVec 8) (off len : Nat) :
    (slice peer off len).length = len := by
  simp [slice]

theorem sentBytes_length (sent : List Sent) : (sentBytes content sent).length = streamLen sent := by
  induction sent with
  | nil => rfl
  | cons p older ih =>
      rw [sentBytes, streamLen]
      cases p.data with
      | none => exact ih
      | some id =>
          dsimp only
          split
          · exact ih
          · rw [List.length_append, ih, slice_length]

/-- The bytes of an mbuf stand where `streamPos` has them. -/
theorem sentBytes_at {sent : List Sent}
    (len : ∀ p ∈ sent, ∀ q ∈ sent, ∀ id, p.data = some id → q.data = some id → p.len = q.len)
    {p : Sent} (inside : p ∈ sent) {id : MbufId} (data : p.data = some id) {i : Nat}
    (below : i < p.len) :
    (sentBytes content sent)[streamPos id sent + i]? = some (content id i) := by
  induction sent generalizing p with
  | nil => cases inside
  | cons q older ih =>
      have shorter : ∀ p ∈ older, ∀ q ∈ older, ∀ id, p.data = some id → q.data = some id →
          p.len = q.len :=
        fun p memP q memQ => len p (.tail _ memP) q (.tail _ memQ)
      cases known : transmitted id older with
      | true =>
          -- an earlier packet carries the same mbuf
          obtain ⟨r, memR, carries⟩ := List.any_eq_true.mp known
          have dataR : r.data = some id := by simpa using carries
          have same := len p inside r (.tail _ memR) id data dataR
          have found := ih shorter memR dataR (same ▸ below)
          have bound : streamPos id older + i < (sentBytes content older).length :=
            (List.getElem?_eq_some_iff.mp found).1
          rw [streamPos_cons q known, sentBytes]
          cases q.data with
          | none => exact found
          | some other =>
              dsimp only
              split
              · exact found
              · rw [List.getElem?_append_left bound]
                exact found
      | false =>
          have first : p = q := by
            rcases List.mem_cons.mp inside with same | old
            · exact same
            · rw [transmitted_of_mem old data] at known
              cases known
          subst first
          have place : streamPos id (p :: older) = (sentBytes content older).length := by
            rw [streamPos, if_neg (by rw [known]; decide), sentBytes_length]
          rw [place, sentBytes, data]
          dsimp only
          rw [if_neg (by rw [known]; decide), List.getElem?_append_right (by omega)]
          simp [slice, below]

/-- The stream that the packets spell out, with the byte `beyond` where they end. -/
def wireStream (sent : List Sent) (beyond : BitVec 8) (i : Nat) : BitVec 8 :=
  (sentBytes content sent).getD i beyond

theorem slice_wireStream {base : Seq} {sent : List Sent} (tiled : Tiled base sent) {p : Sent}
    (inside : p ∈ sent) {id : MbufId} (data : p.data = some id) (beyond : BitVec 8) :
    slice (content id) 0 p.len =
      slice (wireStream content sent beyond) (streamPos id sent) p.len := by
  apply List.map_congr_left
  intro i mem
  have found := sentBytes_at content tiled.len inside data (List.mem_range.mp mem)
  rw [wireStream, List.getD_eq_getElem?_getD, found, Nat.zero_add, Option.getD_some]

/-- Later packets do not move an mbuf that was sent. -/
theorem streamPos_suffix {older sent : List Sent} (grows : older <:+ sent) {id : MbufId}
    (known : transmitted id older = true) : streamPos id sent = streamPos id older := by
  obtain ⟨newer, rfl⟩ := grows
  induction newer with
  | nil => rfl
  | cons p newer ih =>
      have still : transmitted id (newer ++ older) = true := by
        rw [transmitted, List.any_append, ← transmitted, ← transmitted, known, Bool.or_true]
      exact (streamPos_cons p still).trans ih

end Bytes

/-! ## What the application has read -/

/-- The bytes of the mbufs handed out, in the order of the calls. -/
def readBytes (s : RcvRun) : List (BitVec 8) := (returned s.log).reverse.flatMap Mbuf.payload

theorem slice_add (peer : Nat → BitVec 8) (m n : Nat) :
    slice peer 0 (m + n) = slice peer 0 m ++ slice peer m n := by
  simp [slice, List.range_add, Function.comp_def]

theorem Consecutive.read {peer : Nat → BitVec 8} {initSeq : Seq} {ms : List Mbuf}
    (consecutive : Consecutive peer initSeq ms) :
    ms.reverse.flatMap Mbuf.payload = slice peer 0 (bytes ms) := by
  induction ms with
  | nil => rfl
  | cons m older ih =>
      obtain ⟨-, payload, rest⟩ := consecutive
      have total : bytes (m :: older) = bytes older + m.payloadLen := by
        simp [bytes, Nat.add_comm]
      rw [total, slice_add, ← ih rest, ← payload]
      simp

/-- A slice that does not depend on what follows the list lies inside the list. -/
theorem slice_getD_prefix {l : List (BitVec 8)} {n : Nat}
    (same : slice (fun i => l.getD i 0) 0 n = slice (fun i => l.getD i 1) 0 n) :
    slice (fun i => l.getD i 0) 0 n <+: l := by
  have short : n ≤ l.length := by
    by_contra longer
    have atEnd := congrArg (fun bytes => bytes[l.length]?) same
    simp [slice, show l.length < n by omega] at atEnd
  have taken : slice (fun i => l.getD i 0) 0 n = l.take n := by
    apply List.ext_getElem
    · simp [short]
    · intro i below _
      have inside : i < l.length := by
        rw [slice_length] at below
        omega
      simp [slice, inside]
  rw [taken]
  exact List.take_prefix n l

/-! ## The sender's log over a run -/

namespace Conn

/-- A call sends, and forgets nothing that was sent. -/
theorem Move.sent {s : Conn} {call : ConnCall} {v : View} (move : Move s call v) :
    s.view.sent <:+ v.sent := by
  cases move with
  | same | data | put | received | expired => exact List.suffix_refl _
  | syn _ move => cases move <;> exact List.suffix_refl _
  | closed _ move => cases move <;> exact List.suffix_refl _
  | rto _ move => cases move <;> exact List.suffix_refl _
  | control _ move =>
      cases move with
      | same | rewound => exact List.suffix_refl _
      | syn | synAck | fin => exact List.suffix_cons _ _
  | flushed _ _ _ _ flushed =>
      obtain ⟨newer, log, -⟩ := flushed.plain
      exact ⟨newer, log.symm⟩

theorem step_sent (s : Conn) (e : ConnEvent) : (s.step e).view.halted = true ∨
    ((s.step e).view.iss = s.view.iss ∧ s.view.sent <:+ (s.step e).view.sent) := by
  unfold step
  split
  · exact .inr ⟨rfl, List.suffix_refl _⟩
  · exact (serve_move s e).imp_right fun move => ⟨move.iss, move.sent⟩

theorem step_halted {s : Conn} (halted : s.view.halted = true) (e : ConnEvent) : s.step e = s :=
  step_ended (ended_of_halted halted) e

theorem RetransInv.tiled {n : Nat} {s : Conn} (inv : s.RetransInv n) :
    s.view.halted = true ∨ Tiled (s.view.iss + 1) s.view.sent := by
  rcases inv with halted | handshaking | ⟨-, tiled⟩ | ⟨-, inPlace⟩
  · exact .inl halted
  · exact .inr (Syn.tiled handshaking.view.toSyn).1
  · exact .inr tiled
  · exact .inr inPlace.tiled

end Conn

/-! ## The system -/

/-- A connection that sends, and the receive buffer of its peer. -/
structure Transfer where
  sender : Conn
  receiver : RcvRun

namespace Transfer

inductive Event where
  /-- anything that can happen to the connection -/
  | sender (e : ConnEvent)
  /-- the packet sent as number `k` arrives in mbuf `id` and is filed; `m` is the rest of it -/
  | deliver (k : Nat) (id : MbufId) (m : Mbuf)
  | read
  | free (id : MbufId)

/-- The data packet sent as number `k`; only payload that a datagram can carry is filed. -/
def packet (t : Transfer) (k : Nat) : Option (Sent × MbufId) :=
  t.sender.view.sent.reverse[k]?.bind fun p =>
    p.data.bind fun id => if 0 < p.len ∧ p.len < 2 ^ 16 then some (p, id) else none

theorem packet_some {t : Transfer} {k : Nat} {p : Sent} {id : MbufId}
    (found : t.packet k = some (p, id)) :
    p ∈ t.sender.view.sent ∧ p.data = some id ∧ 0 < p.len ∧ p.len < 2 ^ 16 := by
  simp only [packet, Option.bind_eq_some_iff] at found
  obtain ⟨p', at_, id', data, guarded⟩ := found
  split at guarded
  · rename_i carried
    cases guarded
    exact ⟨List.mem_reverse.mp (List.mem_of_getElem? at_), data, carried⟩
  · cases guarded

section Steps

variable (content : MbufId → Nat → BitVec 8)

/-- The mbuf as the driver of the peer fills it in. -/
def filled (p : Sent) (id : MbufId) (m : Mbuf) : Mbuf :=
  { m with tcpSeq := p.seq, payloadLen := p.len, payload := slice (content id) 0 p.len }

def step (t : Transfer) : Event → Transfer
  | .sender e => { t with sender := t.sender.step e }
  | .deliver k id m =>
      match t.packet k with
      | some (p, data) =>
          { t with receiver := t.receiver.rcvStep (.put id (filled content p data m)) }
      | none => t
  | .read => { t with receiver := t.receiver.rcvStep .get }
  | .free id => { t with receiver := t.receiver.rcvStep (.free id) }

/-- The conditions of the two sides; the driver fills free mbufs, the application frees what it
holds, and a packet is filed under the place in the stream it was sent for. -/
def Permitted (t : Transfer) : Event → Prop
  | .sender e => t.sender.RetransOk e
  | .deliver k id m => ∀ p data, t.packet k = some (p, data) →
      (t.receiver.w.mbuf id).mbufState = .free ∧ m.priority = false ∧
        t.receiver.delivered ≤ streamPos data t.sender.view.sent + 2 ^ 31 ∧
        streamPos data t.sender.view.sent < t.receiver.delivered + 2 ^ 32 ∧
        t.receiver.MergeOk (.put id (filled content p data m))
  | .read => True
  | .free id => id ∈ t.receiver.held

/-- A connection as it begins, and a receive buffer opened for its initial sequence number. -/
def start (s : Conn) (rcvbufSize : Nat) (mbuf : MbufId → Mbuf) : Transfer :=
  { sender := s, receiver := RcvRun.start rcvbufSize (s.view.iss + 1) mbuf }

variable {content} {n : Nat} {t : Transfer}

variable (content) in
theorem step_sender (t : Transfer) (e : Event) : (step content t e).sender = t.sender ∨
    ∃ e', e = .sender e' ∧ (step content t e).sender = t.sender.step e' := by
  cases e with
  | sender e' => exact .inr ⟨e', rfl, rfl⟩
  | deliver k id m =>
      refine .inl ?_
      rw [step]
      split <;> rfl
  | read | free => exact .inl rfl

theorem run_halted (events : List Event) {t : Transfer} (halted : t.sender.view.halted = true) :
    (Lib.Run.run (step content) t events).sender.view.halted = true := by
  induction events generalizing t with
  | nil => exact halted
  | cons e events ih =>
      refine ih ?_
      rcases step_sender content t e with same | ⟨e', -, moved⟩
      · rw [same]
        exact halted
      · rw [moved, Conn.step_halted halted]
        exact halted

/-- As long as the process of the sender runs, its log only grows. -/
theorem run_sent (events : List Event) (t : Transfer)
    (running : (Lib.Run.run (step content) t events).sender.view.halted = false) :
    (Lib.Run.run (step content) t events).sender.view.iss = t.sender.view.iss ∧
      t.sender.view.sent <:+ (Lib.Run.run (step content) t events).sender.view.sent := by
  induction events generalizing t with
  | nil => exact ⟨rfl, List.suffix_refl _⟩
  | cons e events ih =>
      obtain ⟨iss, grows⟩ := ih (step content t e) running
      rcases step_sender content t e with same | ⟨e', -, moved⟩
      · rw [same] at iss grows
        exact ⟨iss, grows⟩
      · rcases Conn.step_sent t.sender e' with halted | ⟨iss', grows'⟩
        · rw [← moved] at halted
          rw [Lib.Run.run, run_halted events halted] at running
          cases running
        · rw [← moved] at iss' grows'
          exact ⟨iss.trans iss', grows'.trans grows⟩

/-- One step of the receiver, on the stream that all the packets of the run spell out. -/
theorem step_streams {L : List Sent} {base : Seq} (tiled : Tiled base L) (beyond : BitVec 8)
    {e : Event} (grows : t.sender.view.sent <:+ L) (permitted : t.Permitted content e)
    (streams : ∃ M, RcvRun.Streaming (wireStream content L beyond) base t.receiver M) :
    ∃ M, RcvRun.Streaming (wireStream content L beyond) base (step content t e).receiver M := by
  cases e with
  | sender e => exact streams
  | read => exact RcvRun.step_streaming t.receiver .get streams ⟨⟨trivial, trivial⟩, trivial⟩
  | free id =>
      exact RcvRun.step_streaming t.receiver (.free id) streams ⟨⟨permitted, trivial⟩, trivial⟩
  | deliver k id m =>
      rw [step]
      split
      · rename_i p data found
        obtain ⟨inside, carries, some_, fits⟩ := packet_some found
        obtain ⟨free, low, behind, ahead, merges⟩ := permitted p data found
        have place : streamPos data L = streamPos data t.sender.view.sent :=
          streamPos_suffix grows (transmitted_of_mem inside carries)
        rw [← place] at behind ahead
        have known := grows.subset inside
        have segment : RcvRun.PeerSegment (wireStream content L beyond) base t.receiver
            (.put id (filled content p data m)) :=
          ⟨low, streamPos data L, tiled.seq p known data carries,
            slice_wireStream content tiled known carries beyond, behind, ahead⟩
        have enabled : t.receiver.Enabled (.put id (filled content p data m)) :=
          ⟨free, some_, fits⟩
        exact RcvRun.step_streaming t.receiver _ streams ⟨⟨enabled, segment⟩, merges⟩
      · exact streams

theorem run_streams {L : List Sent} {base : Seq} (tiled : Tiled base L) (beyond : BitVec 8)
    (events : List Event) (t : Transfer)
    (running : (Lib.Run.run (step content) t events).sender.view.halted = false)
    (log : (Lib.Run.run (step content) t events).sender.view.sent = L)
    (permitted : Lib.Run.Allowed (step content) (Permitted content) t events)
    (streams : ∃ M, RcvRun.Streaming (wireStream content L beyond) base t.receiver M) :
    ∃ M, RcvRun.Streaming (wireStream content L beyond) base
      (Lib.Run.run (step content) t events).receiver M := by
  induction events generalizing t with
  | nil => exact streams
  | cons e events ih =>
      have grows := (run_sent (e :: events) t running).2
      rw [log] at grows
      exact ih (step content t e) running log permitted.2
        (step_streams tiled beyond grows permitted.1 streams)

/-- The sender keeps its invariant, whatever the receiver does. -/
theorem run_retransInv (small : 1400 * n < 2 ^ 31) (events : List Event) (t : Transfer)
    (permitted : Lib.Run.Allowed (step content) (Permitted content) t events)
    (inv : t.sender.RetransInv n) :
    (Lib.Run.run (step content) t events).sender.RetransInv n := by
  induction events generalizing t with
  | nil => exact inv
  | cons e events ih =>
      refine ih (step content t e) permitted.2 ?_
      rcases step_sender content t e with same | ⟨e', rfl, moved⟩
      · rw [same]
        exact inv
      · rw [moved]
        exact Conn.step_retransInv small t.sender e' inv permitted.1

/-- The receiver streams what the sender has sent when the run ends, whatever follows it. -/
theorem start_streams (small : 1400 * n < 2 ^ 31) {s : Conn} (begins : Conn.Start n s)
    (rcvbufSize : Nat) (mbuf : MbufId → Mbuf) (events : List Event)
    (permitted : Lib.Run.Allowed (step content) (Permitted content)
      (start s rcvbufSize mbuf) events)
    (reached : Lib.Run.run (step content) (start s rcvbufSize mbuf) events = t)
    (running : t.sender.view.halted = false) (beyond : BitVec 8) :
    ∃ M, RcvRun.Streaming (wireStream content t.sender.view.sent beyond) (s.view.iss + 1)
      t.receiver M := by
  subst reached
  have inv : s.RetransInv n := begins.handshaking.imp_right .inl
  have tiled := (run_retransInv small events _ permitted inv).tiled.resolve_left
    (by rw [running]; decide)
  have iss := (run_sent events _ running).1
  rw [iss] at tiled
  exact run_streams tiled beyond events _ running rfl permitted
    ⟨[], RcvRun.Streaming.start rcvbufSize mbuf⟩

/-- The application cannot have read past the end of the wire: what it read does not depend on what
follows. -/
theorem reads_prefix {L : List Sent} {base : Seq} {r : RcvRun}
    (streams : ∀ beyond, ∃ M, RcvRun.Streaming (wireStream content L beyond) base r M) :
    readBytes r <+: sentBytes content L := by
  obtain ⟨_, zero⟩ := streams 0
  obtain ⟨_, one⟩ := streams 1
  have read := zero.consecutive.read
  rw [readBytes, read]
  exact slice_getD_prefix (read.symm.trans one.consecutive.read)

/-- Two mbufs are sent in one flush; the first packet arrives twice, and one mbuf is read. -/
def twice : List Event :=
  [.sender { call := .serveControl, avail := 1 },
   .sender { call := .packet { seq := 7000, ackSeq := 101, syn := true, ack := true } },
   .sender { call := .send 3 false },
   .sender { call := .send 2 false },
   .sender { call := .serveSend },
   .deliver 1 0 { l4Len := 20 },
   .deliver 2 1 { l4Len := 20 },
   .deliver 1 2 { l4Len := 20 },
   .read]

def letters (id : MbufId) (i : Nat) : BitVec 8 := .ofNat 8 (97 + 3 * id + i)

theorem permitted_deliver {k : Nat} {id : MbufId} {m : Mbuf} (p : Sent) (data : MbufId)
    (found : t.packet k = some (p, data))
    (side : (t.receiver.w.mbuf id).mbufState = .free ∧ m.priority = false ∧
      t.receiver.delivered ≤ streamPos data t.sender.view.sent + 2 ^ 31 ∧
      streamPos data t.sender.view.sent < t.receiver.delivered + 2 ^ 32 ∧
      t.receiver.MergeOk (.put id (filled content p data m))) :
    t.Permitted content (.deliver k id m) := by
  intro p' data' found'
  rw [found] at found'
  cases found'
  exact side

theorem twice_permitted : Lib.Run.Allowed (step letters) (Permitted letters)
    (start (Conn.active 4 4 100 {}) 8 fun _ => {}) twice := by
  have sends {t : Transfer} {e : ConnEvent} (ok : t.sender.RetransOk e) :
      t.Permitted letters (.sender e) := ok
  refine ⟨sends (by decide +kernel), sends (by decide +kernel), sends (by decide +kernel),
    sends (by decide +kernel), sends (by decide +kernel), ?_, ?_, ?_, trivial, trivial⟩
  · exact permitted_deliver { seq := 101, len := 3, data := some 0 } 0
      (by decide +kernel) ⟨by decide +kernel, rfl, by decide +kernel, by decide +kernel,
        fun _ _ => by decide +kernel⟩
  · exact permitted_deliver { seq := 104, len := 2, data := some 1 } 1
      (by decide +kernel) ⟨by decide +kernel, rfl, by decide +kernel, by decide +kernel,
        fun _ _ => by decide +kernel⟩
  · exact permitted_deliver { seq := 101, len := 3, data := some 0 } 0
      (by decide +kernel) ⟨by decide +kernel, rfl, by decide +kernel, by decide +kernel,
        fun _ _ => by decide +kernel⟩

end Steps

end Transfer

end QStack
