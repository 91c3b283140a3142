/-
# QStack.Retransmission -- an mbuf is always sent under one sequence number

The sequence number on the wire is `snd_nxt`, whatever mbuf is sent.  It is right as long
as `snd_nxt` and the two lists of sent mbufs move together (`Placed`); over every run the
transmissions of an mbuf should then agree (`Consistent`).

They move apart when an acknowledgement that ends inside an mbuf is followed by a timeout
(`partial_ack_shifts`), when a timeout in CLOSE_WAIT rolls `snd_nxt` back without marking
the sent mbufs lost, and when the window does not admit a lost mbuf, which the flush then
drops.  `RetransOk` excludes these.
-/
import QStack.Opening
import QStack.Placement

namespace QStack

set_option autoImplicit false

/-- More data can be sent. -/
def Core.mayFlush (k : Core) : Bool := k.state.flushes && !k.isFinSent

theorem Flushed.of_low {window : U32} {rounds : Nat} {v v' : View}
    (flushed : Flushed window rounds v v') (low : tcpSeqLt v.sndNxt v.sndbuf.headSeq = true) :
    v' = v := by
  cases flushed with
  | spent | refused => rfl
  | empty above | skip above | send above | drop above =>
      rw [above] at low
      cases low

namespace Conn

/-- The acknowledgement of the segment lands where it should, if it matters. -/
def AckLands (s : Conn) (seg : Segment) : Prop :=
  s.view.mayFlush = true → s.st.reachesAck seg = true →
    s.st.acksTooMuch (s.st.adjustAck seg.ackSeq) = false →
    tcpSeqLt s.st.sndbuf.headSeq (s.st.adjustAck seg.ackSeq) = true →
    s.view.unsettled (s.st.fastRetransmits seg) (s.st.adjustAck seg.ackSeq) = true →
    Lands s.st.sndbuf s.st.sndNxt (s.st.adjustAck seg.ackSeq)

instance AckLands.decidable (s : Conn) (seg : Segment) : Decidable (s.AckLands seg) :=
  inferInstanceAs (Decidable (_ → _ → _ → _ → _ → _))

/-- What a run must avoid. -/
def RetransOk (s : Conn) (e : ConnEvent) : Prop :=
  match e.call with
  | .packet seg => ¬ s.BareAck seg ∧ s.AckLands seg
  | .serveSend => s.served < s.cx.posted → s.view.mayFlush = true → s.st.sndbuf.sbLen ≠ 0 →
      tcpSeqLt s.st.sndNxt s.st.sndbuf.headSeq = false →
      SndRun.Fits (s.st.sndUna + s.st.sendWindow) s.st.sndNxt s.st.sndbuf.retransList
  | .rto => s.st.onRto = true → s.view.mayFlush = true → s.st.nrtx < tcpMaxRtx →
      s.st.sndUna = s.st.sndbuf.headSeq ∧
        (s.st.state = .closeWait → s.st.sndbuf.uackList = [])
  | _ => True

instance RetransOk.decidable (s : Conn) : ∀ e : ConnEvent, Decidable (s.RetransOk e)
  | ⟨.packet seg, _, _⟩ => inferInstanceAs (Decidable (¬ s.BareAck seg ∧ s.AckLands seg))
  | ⟨.serveSend, _, _⟩ => inferInstanceAs (Decidable (_ → _ → _ → _ → _))
  | ⟨.rto, _, _⟩ => inferInstanceAs (Decidable (_ → _ → _ → _ ∧ _))
  | ⟨.send _ _, _, _⟩ | ⟨.recv, _, _⟩ | ⟨.close, _, _⟩ | ⟨.handleClose, _, _⟩
  | ⟨.serveControl, _, _⟩ | ⟨.serveAck, _, _⟩ | ⟨.timewait, _, _⟩ | ⟨.timeout, _, _⟩ => .isTrue trivial

/-! ## The invariant -/

/-- What was sent is tiled, and what can still be sent is in its place. -/
structure InPlace (n : Nat) (bound : MbufId) (v : View) : Prop where
  tiled : Tiled (v.iss + 1) v.sent
  placed : v.mayFlush = true → ∃ h H N, Placed (1400 * n) bound v.toCore v.sent h H N

section Step

variable {n : Nat} {s : Conn}

/-- A step that keeps the order of the stream, and more data cannot be sent after it. -/
theorem InPlace.quiet {bound : MbufId} {v : View} (tiled : Tiled (v.iss + 1) v.sent)
    (quiet : v.mayFlush = false) : InPlace n bound v :=
  ⟨tiled, fun may => by rw [quiet] at may; cases may⟩

theorem InPlace.issue {bound : MbufId} {v : View} (inv : InPlace n bound v) :
    InPlace n (bound + 1) v :=
  ⟨inv.tiled, fun may => by
    obtain ⟨h, H, N, placed⟩ := inv.placed may
    exact ⟨h, H, N, placed.issue⟩⟩

/-- Only the states that flush matter. -/
theorem flushes_of_follows {state state' : TcpState} (legal : state.follows state' = true)
    (flushes : state'.flushes = true) : state.flushes = true := by
  revert legal flushes
  cases state <;> cases state' <;> decide

theorem mayFlush_iff (k : Core) :
    k.mayFlush = true ↔ k.state.flushes = true ∧ k.isFinSent = false := by
  rw [Core.mayFlush, Bool.and_eq_true, Bool.not_eq_true']

theorem mayFlush_of_sent {k : Core} (sent : k.isFinSent = true) : k.mayFlush = false := by
  rw [Core.mayFlush, sent, Bool.not_true, Bool.and_false]

theorem mayFlush_of_state {k : Core} (state : k.state.flushes = false) : k.mayFlush = false := by
  rw [Core.mayFlush, state, Bool.false_and]

/-- The sending side after an acknowledgement that lands where it should. -/
theorem acked_placed (small : 1400 * n < 2 ^ 31) {bound : MbufId} (inv : InPlace n bound s.view)
    {seg : Segment} (lands : s.AckLands seg) (reach : s.st.reachesAck seg = true)
    (may : s.view.mayFlush = true) :
    ∃ h H N, Placed (1400 * n) bound (s.st.acked seg) s.view.sent h H N := by
  obtain ⟨h, H, N, placed⟩ := inv.placed may
  unfold TcpStream.acked
  cases much : s.st.acksTooMuch (s.st.adjustAck seg.ackSeq) with
  | true =>
      have same : s.st.core.onAck (s.st.fastRetransmits seg) (s.st.adjustAck seg.ackSeq) =
        s.st.core := if_pos much
      rw [same]
      exact ⟨h, H, N, placed⟩
  | false =>
      obtain ⟨h', placed'⟩ := placed.onAck small much fun beyond moves =>
        lands may reach much beyond moves
      exact ⟨h', H, N, placed'⟩

theorem data_inPlace (small : 1400 * n < 2 ^ 31) {bound : MbufId} (inv : InPlace n bound s.view)
    {seg : Segment} (lands : s.AckLands seg) {k : Core} {d : Bool} {r : RcvCore}
    (move : DataMove s.st seg k d) :
    InPlace n bound (((s.view.withCore k).withRcv r).withDestroyed (d || s.view.destroyed)) := by
  have tiled : k.iss = s.view.iss → Tiled (k.iss + 1) s.view.sent := fun same => same ▸ inv.tiled
  cases move with
  | same => exact ⟨inv.tiled, inv.placed⟩
  | moved state legal =>
      refine ⟨inv.tiled, fun may => ?_⟩
      obtain ⟨flushes, open_⟩ := (mayFlush_iff _).mp may
      obtain ⟨h, H, N, placed⟩ := inv.placed ((mayFlush_iff _).mpr ⟨flushes_of_follows legal flushes, open_⟩)
      exact ⟨h, H, N, { placed with
        fss := fun fin => placed.fss ((TcpState.follows_groups legal).1 fin) }⟩
  | reset => exact .quiet inv.tiled (mayFlush_of_state rfl)
  | acked state reach legal =>
      refine ⟨tiled (Core.onAck_iss _ _ _), fun may => ?_⟩
      obtain ⟨flushes, open_⟩ := (mayFlush_iff _).mp may
      have before : s.view.mayFlush = true :=
        (mayFlush_iff _).mpr ⟨flushes_of_follows legal flushes, (Core.onAck_isFinSent _ _ _).symm.trans open_⟩
      obtain ⟨h, H, N, placed⟩ := acked_placed small inv lands reach before
      refine ⟨h, H, N, { placed with fss := fun fin => placed.fss ?_ }⟩
      rw [Cx.acked_state]
      exact (TcpState.follows_groups legal).1 fin
  | finWait1 state reach from_ sent =>
      have fixed : ((s.st.acked seg).recover seg.ackSeq).fixed = s.st.core.fixed := by
        have same : ((s.st.acked seg).recover seg.ackSeq).fixed = (s.st.acked seg).fixed := by
          unfold Core.recover
          split <;> rfl
        exact same.trans (Core.onAck_fixed _ _ _)
      refine .quiet (tiled (congrArg (fun t => t.2.2.2) fixed)) (mayFlush_of_sent ?_)
      exact (congrArg (fun t => t.2.1) fixed).trans sent
  | closing => exact .quiet (tiled (Core.onAck_iss _ _ _)) (mayFlush_of_state rfl)
  | lastAck => exact .quiet (tiled (Core.onAck_iss _ _ _)) (mayFlush_of_state rfl)

/-- A timeout in a state that flushes starts again from `head_seq`. -/
theorem rto_inPlace (small : 1400 * n < 2 ^ 31) {bound : MbufId} (inv : InPlace n bound s.view)
    {v : View} (move : RtoMove s.st s.view v)
    (ok : s.view.mayFlush = true → s.st.nrtx < tcpMaxRtx →
      s.st.sndUna = s.st.sndbuf.headSeq ∧ (s.st.state = .closeWait → s.st.sndbuf.uackList = [])) :
    InPlace n bound v := by
  cases move with
  | lost => exact .quiet inv.tiled (mayFlush_of_state rfl)
  | retransmit tries =>
      refine ⟨inv.tiled, fun may => ?_⟩
      obtain ⟨h, H, N, placed⟩ := inv.placed may
      exact ⟨h, H, N, placed.reset (.inl (ok may tries).1)⟩
  | control tries open_ noData =>
      refine ⟨inv.tiled, fun may => ?_⟩
      obtain ⟨h, H, N, placed⟩ := inv.placed may
      obtain ⟨una, waits⟩ := ok may tries
      refine ⟨h, H, N, Placed.rewind placed.toLaid ?_ (.inl una)⟩
      have flushes := ((mayFlush_iff _).mp may).1
      change s.st.state.flushes = true at flushes
      by_cases awaits : s.st.state.awaitsFinAck = true
      · -- the FIN has been reached, so the buffer is empty
        have fin : s.view.state.isFin = true := by
          change s.st.state.isFin = true
          revert awaits
          cases s.st.state <;> decide
        have beyond := noData awaits
        have fss : s.st.fss = s.st.sndbuf.nextSeq := placed.fss fin
        have filled := placed.filled
        change s.st.sndbuf.sbLen.toNat ≤ _ at filled
        have none : s.st.sndbuf.sbLen.toNat = 0 := by
          rw [una, fss, tcpSeqLt, Bool.eq_false_iff, Ne, Lib.Serial.lt_iff_toNat] at beyond
          unfold SndBuff.sbLen at filled ⊢
          bv_omega
        have sums := placed.sumLen_sent
        change _ ≤ s.st.sndbuf.sbLen.toNat at sums
        have located := (Located.append.mp placed.located).1
        exact located.eq_nil (by omega)
      · refine waits ?_
        revert flushes awaits open_
        cases s.st.state <;> decide

/-- A flush sends every mbuf in its place. -/
theorem flush_inPlace (small : 1400 * n < 2 ^ 31) {bound : MbufId} (inv : InPlace n bound s.view)
    {v : View} (may : s.view.mayFlush = true)
    (flushed : Flushed s.st.sendWindow (s.st.sndbuf.waitingCount + 1) s.view v)
    (ok : tcpSeqLt s.st.sndNxt s.st.sndbuf.headSeq = false →
      SndRun.Fits (s.st.sndUna + s.st.sendWindow) s.st.sndNxt s.st.sndbuf.retransList) :
    InPlace n bound v := by
  cases low : tcpSeqLt s.st.sndNxt s.st.sndbuf.headSeq with
  | true =>
      rw [flushed.of_low low]
      exact inv
  | false =>
      obtain ⟨h, H, N, placed⟩ := inv.placed may
      have nxt := placed.nxt.resolve_right fun below => by
        have above : tcpSeqLt s.view.sndNxt s.view.sndbuf.headSeq = false := low
        rw [above] at below
        cases below.2
      have rounds : (s.view.sndbuf.retransList ++ H ++ N).length < s.st.sndbuf.waitingCount + 1 := by
        rw [show s.st.sndbuf.waitingCount = _ from placed.holds.waitingCount]
        exact Nat.lt_succ_self _
      obtain ⟨H', N', placed', tiled⟩ := Flowing.flushed flushed small
        ⟨placed.toLaid, inv.tiled, nxt, ok low⟩ rounds
      exact ⟨tiled, fun _ => ⟨h, H', N', placed'⟩⟩

/-- The next mbuf of the application changes with every send, and only then. -/
theorem serve_fresh (s : Conn) (e : ConnEvent) :
    (s.serve e).fresh = s.fresh ∨ (s.serve e).fresh = s.fresh + 1 := by
  unfold serve
  dsimp only
  cases e.call with
  | send len highPri => exact .inr rfl
  | packet | recv | close | serveControl | serveAck => exact .inl rfl
  | handleClose | serveSend | rto | timewait | timeout =>
      dsimp only
      split <;> exact .inl rfl

theorem serve_fresh_send (s : Conn) {e : ConnEvent} {len : U32} {highPri : Bool}
    (call : e.call = .send len highPri) : (s.serve e).fresh = s.fresh + 1 := by
  unfold serve
  dsimp only
  rw [call]

/-- What a call does once the handshake is over. -/
theorem move_inPlace (small : 1400 * n < 2 ^ 31) (late : s.Late) (inv : InPlace n s.fresh s.view)
    {e : ConnEvent} (ok : s.RetransOk e) {v : View} (move : Move s e.call v) :
    InPlace n (s.serve e).fresh v := by
  have raise : ∀ {v : View}, InPlace n s.fresh v → InPlace n (s.serve e).fresh v := by
    intro v inv
    rcases serve_fresh s e with same | next
    · rw [same]
      exact inv
    · rw [next]
      exact inv.issue
  have group : s.st.state.isOpen = true ∨ s.st.state.isFin = true ∨ s.st.state = .closed := late
  unfold RetransOk at ok
  generalize called : e.call = call at ok move
  cases move with
  | same => exact raise inv
  | syn early _ =>
      exfalso
      revert group early
      cases s.st.state <;> decide
  | data _ move => exact raise (data_inPlace small inv ok.2 move)
  | put opened =>
      refine ⟨inv.tiled, fun may => ?_⟩
      obtain ⟨h, H, N, placed⟩ := inv.placed may
      obtain ⟨H', N', placed'⟩ := placed.put small opened (m := s.offered _ _) rfl
      rw [serve_fresh_send s called]
      exact ⟨h, H', N', placed'⟩
  | received _ => exact raise ⟨inv.tiled, inv.placed⟩
  | closed _ move =>
      refine raise ?_
      cases move with
      | same closed => exact .quiet inv.tiled (mayFlush_of_state (by rw [closed]; rfl))
      | reset => exact .quiet inv.tiled (mayFlush_of_state rfl)
      | closing =>
          refine ⟨inv.tiled, fun may => ?_⟩
          obtain ⟨flushes, open_⟩ := (mayFlush_iff _).mp may
          have before : s.view.state.flushes = true := by
            change s.view.state.afterClose.flushes = true at flushes
            revert flushes
            cases s.view.state <;> decide
          obtain ⟨h, H, N, placed⟩ := inv.placed ((mayFlush_iff _).mpr ⟨before, open_⟩)
          exact ⟨h, H, N, { placed with fss := fun _ => rfl }⟩
  | control _ move =>
      have notSyn : s.view.state ≠ .synSent ∧ s.view.state ≠ .synRcvd := by
        change s.st.state ≠ .synSent ∧ s.st.state ≠ .synRcvd
        revert group
        cases s.st.state <;> decide
      refine raise ?_
      cases move with
      | same => exact inv
      | syn from_ => exact absurd from_ notSyn.1
      | rewound from_ => exact absurd from_ notSyn.2
      | synAck from_ => exact absurd from_ notSyn.2
      | fin _ => exact .quiet (inv.tiled.control rfl) (mayFlush_of_sent (Bool.or_true _))
  | flushed due state open_ some flushed =>
      have may : s.view.mayFlush = true := (mayFlush_iff _).mpr ⟨state, open_⟩
      exact raise (flush_inPlace small inv may flushed (ok due may some))
  | rto on move => exact raise (rto_inPlace small inv move (ok on))
  | expired _ => exact raise (.quiet inv.tiled (mayFlush_of_state rfl))

end Step

/-! ## Runs -/

/-- Packets without data spell out nothing. -/
theorem tiled_of_control (base : Seq) : ∀ {sent : List Sent}, (∀ p ∈ sent, p.data = none) →
    Tiled base sent ∧ streamLen sent = 0
  | [], _ => ⟨.nil base, rfl⟩
  | p :: older, control => by
      obtain ⟨tiled, none⟩ := tiled_of_control base fun q inside =>
        control q (List.mem_cons_of_mem p inside)
      have plain := control p List.mem_cons_self
      refine ⟨tiled.control plain, ?_⟩
      rw [streamLen, plain]
      exact none

theorem Syn.tiled {n : Nat} {v : View} (syn : v.Syn n) :
    Tiled (v.iss + 1) v.sent ∧ streamLen v.sent = 0 ∧ ∀ p ∈ v.sent, p.data = none := by
  have control : ∀ p ∈ v.sent, p.data = none := by
    intro p inside
    rw [syn.sent p inside]
    rfl
  obtain ⟨tiled, none⟩ := tiled_of_control (v.iss + 1) control
  exact ⟨tiled, none, control⟩

theorem Opened.inPlace {n : Nat} {v : View} (opened : v.Opened n) (bound : MbufId) :
    InPlace n bound v := by
  obtain ⟨tiled, none, control⟩ := Syn.tiled opened.toSyn
  refine ⟨tiled, fun _ => ⟨0, [], [], ?_⟩⟩
  have holds := SndBuff.sbInit_holds n SndBuff.zero (v.iss + 1)
  have empty : (SndBuff.zero.sbInit n (v.iss + 1)).sbLen = 0 := sub_self _
  refine
    { head := ?_
      located := ?_
      total := ?_
      holds := ?_
      unsent := nofun
      nodup := List.nodup_nil
      issued := ?_
      bytes := ?_
      filled := ?_
      room := ?_
      fss := ?_
      nxt := .inl ?_
      lists := ?_ }
  · rw [opened.buff, tcpSeqAt_zero]
    rfl
  · rw [opened.buff]
    trivial
  · rw [opened.buff, none]
    rfl
  · rw [opened.buff]
    exact holds
  · intro p inside id data
    rw [control p inside] at data
    cases data
  · rw [opened.buff]
    exact Nat.zero_le _
  · rw [opened.buff, empty]
    exact Nat.zero_le _
  · rw [opened.buff]
    rfl
  · intro fin
    exfalso
    have state := opened.state
    revert state fin
    cases v.state <;> decide
  · rw [opened.nxt, opened.buff]
    exact (tcpSeqAt_zero _).symm
  · rw [opened.buff]
    exact .inl rfl

/-- The invariant of a run. -/
def RetransInv (n : Nat) (s : Conn) : Prop :=
  s.view.halted = true ∨ s.Handshaking n ∨
    (s.view.destroyed = true ∧ Tiled (s.view.iss + 1) s.view.sent) ∨
    (s.Late ∧ InPlace n s.fresh s.view)

theorem RetransInv.consistent {n : Nat} {s : Conn} (inv : s.RetransInv n) :
    s.view.halted = true ∨ Consistent s.view.sent := by
  rcases inv with halted | handshaking | ⟨-, tiled⟩ | ⟨-, inPlace⟩
  · exact .inl halted
  · exact .inr (Syn.tiled handshaking.view.toSyn).1.consistent
  · exact .inr tiled.consistent
  · exact .inr inPlace.tiled.consistent

theorem step_retransInv {n : Nat} (small : 1400 * n < 2 ^ 31) (s : Conn) (e : ConnEvent)
    (inv : s.RetransInv n) (ok : s.RetransOk e) : (s.step e).RetransInv n := by
  unfold step
  split
  · exact inv
  · rename_i running
    rcases serve_move s e with halted | move
    · exact .inl halted
    rcases inv with halted | handshaking | ⟨gone, -⟩ | ⟨late, inPlace⟩
    · rw [ended, halted] at running
      exact absurd rfl running
    · have full : s.NoBareAck e := by
        intro seg call
        unfold RetransOk at ok
        rw [call] at ok
        exact ok.1
      rcases handshaking.serve full with
        halted | handshaking | ⟨-, -, gone, unacked⟩ | ⟨-, opened, -, -⟩
      · exact .inl halted
      · exact .inr (.inl handshaking)
      · exact .inr (.inr (.inl ⟨gone, (Syn.tiled unacked.toSyn).1⟩))
      · exact .inr (.inr (.inr ⟨opened.state.imp_right .inr, Opened.inPlace opened _⟩))
    · rw [ended, gone, Bool.or_true] at running
      exact absurd rfl running
    · obtain ⟨-, -, group⟩ := late.move move
      exact .inr (.inr (.inr ⟨group, move_inPlace small late inPlace ok move⟩))

/-- **Retransmission consistency.**  With a send buffer below 2^31 bytes, in a run that avoids
what `RetransOk` excludes, every transmission of an mbuf carries the sequence number of the first
one, and no two bytes share a sequence number within 2^32 bytes of the stream. -/
theorem retransmission_consistent {n : Nat} (small : 1400 * n < 2 ^ 31) {s : Conn}
    (start : Start n s) (es : List ConnEvent) (ok : Lib.Run.Allowed step RetransOk s es) :
    Lib.Run.Along step (fun s => s.view.halted = true ∨ Consistent s.view.sent) s es := by
  have first : s.RetransInv n := start.handshaking.imp_right .inl
  have along := Lib.Run.along_of_step (step_retransInv small) es s first ok
  exact Lib.Run.Along.mono (fun s inv => RetransInv.consistent inv) es s along

/-- Two mbufs are sent; the first is acknowledged, the second lost and sent again. -/
def lostRun : List ConnEvent :=
  [{ call := .serveControl, avail := 1 },
   { call := .packet { seq := 7000, ackSeq := 101, syn := true, ack := true, window := 65535 } },
   { call := .send 700 false },
   { call := .send 300 false },
   { call := .serveSend },
   { call := .packet { seq := 7001, ackSeq := 801, ack := true, window := 65535 } },
   { call := .rto },
   { call := .serveSend }]

theorem retransmission_consistent_lostRun :
    Lib.Run.Along step (fun s => s.view.halted = true ∨ Consistent s.view.sent)
      (active 4 4 100 {}) lostRun :=
  retransmission_consistent (by decide) (.active 4 100 {}) lostRun (by decide +kernel)

/-- One mbuf is sent; half of it is acknowledged before the timeout. -/
def partialRun : List ConnEvent :=
  [{ call := .serveControl, avail := 1 },
   { call := .packet { seq := 7000, ackSeq := 101, syn := true, ack := true, window := 65535 } },
   { call := .send 1000 false },
   { call := .serveSend },
   { call := .packet { seq := 7001, ackSeq := 601, ack := true, window := 65535 } },
   { call := .rto },
   { call := .serveSend }]

/-- The mbuf is sent first under 101, and then under 601. -/
theorem partial_ack_shifts :
    ¬ Lib.Run.Along step (fun s => s.view.halted = true ∨ Consistent s.view.sent)
      (active 4 4 100 {}) partialRun := by
  intro along
  rcases Lib.Run.Along.last _ _ along with halted | consistent
  · revert halted
    decide +kernel
  · have same := consistent.same { seq := 601, len := 1000, data := some 0 } (by decide +kernel)
      { seq := 101, len := 1000, data := some 0 } (by decide +kernel) 0 rfl rfl
    revert same
    decide

end Conn

end QStack
