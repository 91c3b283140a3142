/-
# QStack.SendLifecycle -- the states of an mbuf between sb_put and its acknowledgement

`mbuf.h` gives an mbuf that is sent a life: TBUFFED in the send buffer, SENT once it has been
transmitted, LOSS when it has to go out again, RETRANS when it has; an ACK or control mbuf goes from
FREE to SENT (`NextState`).  `sb_put` and `sb_reset_retrans` keep to it.  `send_tcp_packet` tells the
cases apart by three conditions that are assignments, so the first one is taken whatever the state
was: every mbuf it sends is SENT afterwards (`stateAfterSend_eq`), a retransmitted one too
(`retransmitted_is_sent`).

`lifecycle` is what remains: as long as no flush sends an mbuf of `retrans_list`, every change
follows the lifecycle and the lists hold what they should.
-/
import QStack.SendConservation

namespace QStack

set_option autoImplicit false

/-! ## The state send_tcp_packet leaves -/

/-- The number of an `MBUF_STATE_*`. -/
def MbufState.code : MbufState → Nat
  | .free => 0
  | .rcved => 1
  | .rbuffed => 2
  | .rread => 3
  | .rdone => 4
  | .talloc => 5
  | .tbuffed => 6
  | .tgnrt => 7
  | .sent => 8
  | .loss => 9
  | .retrans => 10
  | .acked => 11

/-- `mbuf_state` after `send_tcp_packet`.  Each condition assigns the state it names, and holds when
that state is not 0. -/
def stateAfterSend (_state : MbufState) : MbufState :=
  let state : MbufState := .tbuffed
  if state.code ≠ 0 then .sent
  else
    let state : MbufState := .loss
    if state.code ≠ 0 then .retrans
    else
      let state : MbufState := .free
      if state.code ≠ 0 then .sent else state

theorem stateAfterSend_eq (state : MbufState) : stateAfterSend state = .sent := rfl

/-- The changes of `mbuf_state` that `mbuf.h` provides for on this path. -/
inductive NextState : MbufState → MbufState → Prop
  | first : NextState .tbuffed .sent
  | again : NextState .loss .retrans
  | bare : NextState .free .sent
  | lost : NextState .sent .loss
  | lostAgain : NextState .retrans .loss

/-- Nothing becomes TBUFFED again. -/
theorem NextState.fromBuffered {state : MbufState} (next : NextState state .tbuffed) : False := by
  cases next

/-! ## Runs -/

/-- The send side with the ACK and control mbufs that were sent: their states before and after. -/
structure LifeRun extends SndRun where
  bare : List (MbufState × MbufState) := []

inductive LifeEvent where
  | snd (e : SndEvent)
  /-- an ACK or a control packet -/
  | packet (env : Env) (flags : SendFlags)

namespace LifeRun

/-- An mbuf of the pool is FREE. -/
def sendBare (s : LifeRun) (env : Env) (flags : SendFlags) : LifeRun :=
  match s.cx.sendTcpPacket env flags none 0 with
  | (ret, cx) =>
      { s with
        cx := cx
        bare := if ret = success then (.free, stateAfterSend .free) :: s.bare else s.bare }

def lifeStep (s : LifeRun) : LifeEvent → LifeRun
  | .snd e => { s with toSndRun := s.toSndRun.sndStep e }
  | .packet env flags => if s.cx.view.halted then s else s.sendBare env flags

def start (st : TcpStream) (sndbufSize : Nat) (initSeq : Seq) : LifeRun :=
  { SndRun.start st sndbufSize initSeq with }

end LifeRun

/-- How often the mbuf has been transmitted. -/
def View.transmissions (v : View) (id : MbufId) : Nat := v.sent.countP fun p => p.data = some id

namespace SndRun

/-- The mbufs of `retrans_list` are the ones in LOSS; those of `uack_list` are SENT or RETRANS as
they were transmitted once or again. -/
structure Lists (s : SndRun) : Prop where
  lost : ∀ m ∈ s.containers, m.mbufState = .loss ↔ m ∈ s.buff.retransList
  sent : ∀ m ∈ s.buff.uackList,
    m.mbufState = if s.cx.view.transmissions m.id ≤ 1 then .sent else .retrans

/-- An mbuf in the buffer before and after the step has its state, or has gone on in its life. -/
def Changes (s s' : SndRun) : Prop :=
  ∀ m ∈ s.containers, ∀ m' ∈ s'.containers, m'.id = m.id →
    m'.mbufState = m.mbufState ∨ NextState m.mbufState m'.mbufState

/-- No mbuf of `retrans_list` is sent: the flush is refused, or the first of them is out of
window. -/
def NoRetransmission (s : SndRun) : Prop :=
  s.cx.st.isFinSent = true ∨ s.buff.sbLen = 0 ∨
    tcpSeqLt s.cx.st.sndNxt s.buff.headSeq = true ∨
    ∀ m ∈ s.buff.retransList.head?, s.cx.st.outOfWindow s.cx.st.sndNxt m = true

instance (s : SndRun) : Decidable s.NoRetransmission := inferInstanceAs (Decidable (_ ∨ _ ∨ _ ∨ _))

end SndRun

namespace LifeRun

def LifeOk (s : LifeRun) : LifeEvent → Prop
  | .snd (.flush _) => s.NoRetransmission
  | _ => True

def Lawful (s : LifeRun) : Prop := s.Lists ∧ ∀ change ∈ s.bare, NextState change.1 change.2

end LifeRun

/-! ## What holds between the calls -/

/-- The buffer with the mbufs `H` and `N` in its rings: nothing of it was ever sent again. -/
structure Tracks (fresh : MbufId) (v : View) (H N : List SndMbuf) : Prop where
  holds : v.sndbuf.Holds H N
  nodup : ((v.sndbuf.held H N).map SndMbuf.id).Nodup
  issued : ∀ m ∈ v.sndbuf.held H N, m.id < fresh ∧ m.payloadLen ≠ 0
  waiting : ∀ m ∈ H ++ N, m.mbufState = .tbuffed ∧ v.transmissions m.id = 0
  lost : ∀ m ∈ v.sndbuf.retransList, m.mbufState = .loss
  sent : ∀ m ∈ v.sndbuf.uackList, m.mbufState = .sent ∧ v.transmissions m.id = 1
  unsent : ∀ id, fresh ≤ id → v.transmissions id = 0

/-- Every mbuf of the second list is one of the first, with its state or the next one. -/
def Traced (ms ms' : List SndMbuf) : Prop :=
  ∀ m' ∈ ms', ∃ m ∈ ms, m'.id = m.id ∧
    (m'.mbufState = m.mbufState ∨ NextState m.mbufState m'.mbufState)

theorem Traced.of_subset {ms ms' : List SndMbuf} (sub : ∀ m ∈ ms', m ∈ ms) : Traced ms ms' :=
  fun m inside => ⟨m, sub m inside, rfl, .inl rfl⟩

namespace SndBuff

theorem mem_held {b : SndBuff} {H N : List SndMbuf} {m : SndMbuf} :
    m ∈ b.held H N ↔ m ∈ b.uackList ∨ m ∈ b.retransList ∨ m ∈ H ++ N := by
  simp only [held, List.mem_append, or_assoc]

/-- A pop takes one mbuf out of the buffer. -/
theorem Popped.perm {b b' : SndBuff} {H N H' N' : List SndMbuf} {m : SndMbuf}
    (popped : Popped b H N m b' H' N') : (b.held H N).Perm (m :: b'.held H' N') := by
  have regroup : b.held H N = b.uackList ++ (b.retransList ++ H ++ N) := by
    simp only [held, List.append_assoc]
  have regroup' : b'.held H' N' = b'.uackList ++ (b'.retransList ++ H' ++ N') := by
    simp only [held, List.append_assoc]
  rw [regroup, regroup', popped.waiting, popped.uack]
  exact List.perm_middle

/-- What waits in the rings after a pop waited there before. -/
theorem Popped.rings {b b' : SndBuff} {H N H' N' : List SndMbuf} {m : SndMbuf}
    (popped : Popped b H N m b' H' N') : ∀ m' ∈ H' ++ N', m' ∈ H ++ N := by
  intro m' inside
  have waiting := popped.waiting
  simp only [List.append_assoc] at waiting
  rcases popped.retrans with taken | ⟨none, none'⟩
  · rw [taken] at waiting
    rw [List.append_cancel_left (List.cons.inj waiting).2]
    exact inside
  · rw [none, none', List.nil_append, List.nil_append] at waiting
    rw [waiting]
    exact List.mem_cons_of_mem m inside

theorem Popped.retrans_subset {b b' : SndBuff} {H N H' N' : List SndMbuf} {m : SndMbuf}
    (popped : Popped b H N m b' H' N') : ∀ m' ∈ b'.retransList, m' ∈ b.retransList := by
  intro m' inside
  rcases popped.retrans with taken | ⟨-, none'⟩
  · rw [taken]
    exact List.mem_cons_of_mem m inside
  · rw [none'] at inside
    cases inside

/-- With nothing to retransmit, the popped mbuf comes from the rings. -/
theorem Popped.fromRing {b b' : SndBuff} {H N H' N' : List SndMbuf} {m : SndMbuf}
    (popped : Popped b H N m b' H' N') (none : b.retransList = []) :
    m ∈ H ++ N ∧ b'.retransList = [] := by
  have waiting := popped.waiting
  rw [none, List.nil_append] at waiting
  rcases popped.retrans with taken | ⟨-, none'⟩
  · rw [none] at taken
    cases taken
  · exact ⟨waiting ▸ List.mem_cons_self, none'⟩

end SndBuff

section Tracks

variable {fresh : MbufId} {v : View} {H N : List SndMbuf}

/-- Dropping the popped mbuf. -/
theorem Tracks.popped (tracks : Tracks fresh v H N) {m : SndMbuf} {b : SndBuff}
    {H' N' : List SndMbuf} (popped : v.sndbuf.Popped H N m b H' N') :
    Tracks fresh (v.setSndbuf b) H' N' where
  holds := popped.holds
  nodup := (List.nodup_cons.mp ((popped.perm.map SndMbuf.id).nodup_iff.mp tracks.nodup)).2
  issued := fun m' inside =>
    tracks.issued m' (popped.perm.mem_iff.mpr (List.mem_cons_of_mem m inside))
  waiting := fun m' inside => tracks.waiting m' (popped.rings m' inside)
  lost := fun m' inside => tracks.lost m' (popped.retrans_subset m' inside)
  sent := fun m' inside => tracks.sent m' (popped.uack ▸ inside)
  unsent := tracks.unsent

theorem View.transmissions_sendData {m : SndMbuf} (b : SndBuff) (payload : m.payloadLen ≠ 0)
    (id : MbufId) :
    (v.sendData m b).transmissions id = v.transmissions id + if m.id = id then 1 else 0 := by
  rw [View.transmissions, View.sendData_sent v b payload, List.countP_cons]
  simp [View.transmissions]

/-- Sending a waiting mbuf for the first time. -/
theorem Tracks.sendData (tracks : Tracks fresh v H N) {m : SndMbuf} {b : SndBuff}
    {H' N' : List SndMbuf} (popped : v.sndbuf.Popped H N m b H' N')
    (none : v.sndbuf.retransList = []) (payload : m.payloadLen ≠ 0) :
    Tracks fresh (v.sendData m b) H' N' := by
  have after := tracks.popped popped
  obtain ⟨fromRing, none'⟩ := popped.fromRing none
  have count := View.transmissions_sendData (v := v) b payload
  have ids := (popped.perm.map SndMbuf.id).nodup_iff.mp tracks.nodup
  rw [List.map_cons, List.nodup_cons] at ids
  have other : ∀ m' ∈ b.held H' N', m.id ≠ m'.id := by
    intro m' inside same
    exact ids.1 (same ▸ List.mem_map_of_mem inside)
  have perm : ((v.sendData m b).sndbuf.held H' N').Perm
      ({ m with tcpSeq := v.sndNxt, mbufState := .sent } :: b.held H' N') := by
    simp only [View.sendData, View.setSndbuf, SndBuff.held, List.append_assoc]
    exact List.perm_middle
  refine ⟨⟨popped.holds.high, popped.holds.low⟩, ?_, ?_, ?_, ?_, ?_, ?_⟩
  · rw [(perm.map SndMbuf.id).nodup_iff, List.map_cons, List.nodup_cons]
    exact ids
  · intro m' inside
    rcases List.mem_cons.mp (perm.mem_iff.mp inside) with rfl | old
    · exact tracks.issued m (popped.perm.mem_iff.mpr List.mem_cons_self)
    · exact after.issued m' old
  · intro m' inside
    have old := after.waiting m' inside
    rw [count, if_neg (other m' (SndBuff.mem_held.mpr (.inr (.inr inside))))]
    exact old
  · intro m' inside
    change m' ∈ b.retransList at inside
    rw [none'] at inside
    cases inside
  · intro m' inside
    change m' ∈ b.uackList ++ [{ m with tcpSeq := v.sndNxt, mbufState := .sent }] at inside
    rcases List.mem_append.mp inside with old | new
    · rw [count, if_neg (other m' (SndBuff.mem_held.mpr (.inl old)))]
      exact after.sent m' old
    · rw [List.mem_singleton.mp new, count, if_pos rfl]
      exact ⟨rfl, congrArg (· + 1) (tracks.waiting m fromRing).2⟩
  · intro id large
    have small := (tracks.issued m (popped.perm.mem_iff.mpr List.mem_cons_self)).1
    rw [count, if_neg (Nat.ne_of_lt (Nat.lt_of_lt_of_le small large))]
    exact tracks.unsent id large

theorem Traced.sendData {ms : List SndMbuf} (traced : Traced ms (v.sndbuf.held H N)) {m : SndMbuf}
    {b : SndBuff} {H' N' : List SndMbuf} (popped : v.sndbuf.Popped H N m b H' N')
    (buffered : m.mbufState = .tbuffed) : Traced ms ((v.sendData m b).sndbuf.held H' N') := by
  intro m' inside
  have old : ∀ m'' ∈ b.held H' N', m'' ∈ v.sndbuf.held H N := fun m'' stays =>
    popped.perm.mem_iff.mpr (List.mem_cons_of_mem m stays)
  rcases SndBuff.mem_held.mp inside with uack | rest
  · change m' ∈ b.uackList ++ [{ m with tcpSeq := v.sndNxt, mbufState := .sent }] at uack
    rcases List.mem_append.mp uack with stays | new
    · exact traced m' (old m' (SndBuff.mem_held.mpr (.inl stays)))
    · obtain ⟨m₀, inside₀, idEq, state⟩ :=
        traced m (popped.perm.mem_iff.mpr List.mem_cons_self)
      rw [buffered] at state
      rw [List.mem_singleton.mp new]
      refine ⟨m₀, inside₀, idEq, .inr ?_⟩
      rcases state with same | moved
      · rw [← same]
        exact .first
      · exact moved.fromBuffered.elim
  · exact traced m' (old m' (SndBuff.mem_held.mpr (.inr rest)))

/-- What a pop finds in a buffer that is tracked. -/
theorem Tracks.pop (tracks : Tracks fresh v H N) {m : SndMbuf} {b : SndBuff}
    (pop : v.sndbuf.popWaiting = (some m, b)) : ∃ H' N', v.sndbuf.Popped H N m b H' N' := by
  rcases SndBuff.popWaiting_cases tracks.holds with ⟨none, -⟩ | ⟨m', b', H', N', some, popped⟩
  · rw [none] at pop
    cases pop
  · rw [some] at pop
    cases pop
    exact ⟨H', N', popped⟩

theorem Tracks.dropped (tracks : Tracks fresh v H N) {ms : List SndMbuf}
    (traced : Traced ms (v.sndbuf.held H N)) {m : SndMbuf} {b : SndBuff}
    (pop : v.sndbuf.popWaiting = (some m, b)) :
    ∃ H' N', Tracks fresh (v.setSndbuf b) H' N' ∧ Traced ms ((v.setSndbuf b).sndbuf.held H' N') := by
  obtain ⟨H', N', popped⟩ := tracks.pop pop
  refine ⟨H', N', tracks.popped popped, ?_⟩
  intro m' inside
  exact traced m' (popped.perm.mem_iff.mpr (List.mem_cons_of_mem m inside))

/-- The rounds of a flush with nothing to retransmit. -/
theorem Tracks.flushed {window : U32} {rounds : Nat} {v' : View} {ms : List SndMbuf}
    (flushed : Flushed window rounds v v') :
    (∃ H N, Tracks fresh v H N ∧ Traced ms (v.sndbuf.held H N)) → v.sndbuf.retransList = [] →
      ∃ H' N', Tracks fresh v' H' N' ∧ Traced ms (v'.sndbuf.held H' N') := by
  induction flushed with
  | spent | refused => exact fun start _ => start
  | @empty rounds v b _ pop =>
      rintro ⟨H, N, tracks, traced⟩ _
      rcases SndBuff.popWaiting_cases tracks.holds with ⟨none, -⟩ | ⟨m', b', H', N', some, -⟩
      · rw [none] at pop
        cases pop
        exact ⟨H, N, tracks, traced⟩
      · rw [some] at pop
        cases pop
  | @skip rounds v v' m b _ pop blank _ _ =>
      rintro ⟨H, N, tracks, _⟩ _
      obtain ⟨H', N', popped⟩ := tracks.pop pop
      exact absurd blank (tracks.issued m (popped.perm.mem_iff.mpr List.mem_cons_self)).2
  | @send rounds v v' m b _ pop payload _ _ ih =>
      rintro ⟨H, N, tracks, traced⟩ none
      obtain ⟨H', N', popped⟩ := tracks.pop pop
      obtain ⟨fromRing, none'⟩ := popped.fromRing none
      exact ih ⟨H', N', tracks.sendData popped none payload,
        traced.sendData popped (tracks.waiting m fromRing).1⟩ none'
  | drop _ pop _ _ =>
      rintro ⟨H, N, tracks, traced⟩ _
      exact tracks.dropped traced pop

/-- The rounds of a flush whose first mbuf to retransmit is out of window. -/
theorem Tracks.flushed_refused {window : U32} {rounds : Nat} {v' : View} {ms : List SndMbuf}
    (flushed : Flushed window rounds v v') (tracks : Tracks fresh v H N)
    (traced : Traced ms (v.sndbuf.held H N))
    (outside : ∀ m ∈ v.sndbuf.retransList.head?, v.outOfWindow window m = true) :
    ∃ H' N', Tracks fresh v' H' N' ∧ Traced ms (v'.sndbuf.held H' N') := by
  cases lost : v.sndbuf.retransList with
  | nil => exact Tracks.flushed flushed ⟨H, N, tracks, traced⟩ lost
  | cons first rest =>
      have pops : ∀ {m : SndMbuf} {b : SndBuff}, v.sndbuf.popWaiting = (some m, b) → m = first := by
        intro m b pop
        rw [SndBuff.popWaiting, lost] at pop
        exact (Option.some.inj (Prod.mk.inj pop).1).symm
      rw [lost] at outside
      have beyond := outside first rfl
      cases flushed with
      | spent | refused => exact ⟨H, N, tracks, traced⟩
      | empty _ pop =>
          rw [SndBuff.popWaiting, lost] at pop
          cases pop
      | @skip _ _ _ m b _ pop blank _ =>
          obtain ⟨H', N', popped⟩ := tracks.pop pop
          exact absurd blank (tracks.issued m (popped.perm.mem_iff.mpr List.mem_cons_self)).2
      | send _ pop _ inside _ =>
          rw [pops pop, beyond] at inside
          cases inside
      | drop _ pop _ _ => exact tracks.dropped traced pop

end Tracks

/-! ## The calls -/

namespace SndRun

def Tracked (s : SndRun) (H N : List SndMbuf) : Prop := Tracks s.fresh s.cx.view H N

section Calls

variable {s : SndRun} {H N : List SndMbuf}

theorem Tracked.containers (tracked : s.Tracked H N) : s.containers = s.buff.held H N := by
  have high : s.buff.husndQ.Represents H := tracked.holds.high
  have low : s.buff.usndQ.Represents N := tracked.holds.low
  rw [SndRun.containers, CircularQueue.contents_eq high, CircularQueue.contents_eq low]

theorem Tracked.lists (tracked : s.Tracked H N) : s.Lists where
  lost := by
    intro m inside
    rw [tracked.containers] at inside
    constructor
    · intro loss
      rcases SndBuff.mem_held.mp inside with uack | retrans | waiting
      · rw [(tracked.sent m uack).1] at loss
        cases loss
      · exact retrans
      · rw [(tracked.waiting m waiting).1] at loss
        cases loss
    · exact tracked.lost m
  sent := by
    intro m uack
    obtain ⟨state, once⟩ := tracked.sent m uack
    rw [state, if_pos (le_of_eq once)]

/-- The mbuf the application hands over with address `fresh`. -/
def handed (s : SndRun) (len : Nat) (priority : Bool) : SndMbuf :=
  { id := s.fresh, payloadLen := len, priority := priority }

/-- A call that leaves the view but for the number of the next mbuf. -/
theorem Tracks.fresher {fresh : MbufId} {v : View} (tracks : Tracks fresh v H N) :
    Tracks (fresh + 1) v H N :=
  { tracks with
    issued := fun m inside =>
      ⟨Nat.lt_succ_of_lt (tracks.issued m inside).1, (tracks.issued m inside).2⟩
    unsent := fun id large => tracks.unsent id (Nat.le_of_succ_le large) }

/-- Storing the stamped mbuf in its ring. -/
theorem Tracks.stored {v : View} {b : SndBuff} {H' N' : List SndMbuf} {m : SndMbuf}
    (tracks : Tracks m.id v H N) (some : v.sndbuf.toPut m ≠ 0) (holds : b.Holds H' N')
    (perm : (b.held H' N').Perm (v.sndbuf.stamped m :: v.sndbuf.held H N))
    (uack : b.uackList = v.sndbuf.uackList) (retrans : b.retransList = v.sndbuf.retransList) :
    Tracks (m.id + 1) (v.setSndbuf b) H' N' := by
  have rings : (H' ++ N').Perm (v.sndbuf.stamped m :: (H ++ N)) := by
    have regroup : (v.sndbuf.uackList ++ v.sndbuf.retransList ++ (H' ++ N')).Perm
        (v.sndbuf.uackList ++ v.sndbuf.retransList ++ (v.sndbuf.stamped m :: (H ++ N))) := by
      refine List.Perm.trans ?_ List.perm_middle.symm
      simpa only [SndBuff.held, uack, retrans, List.append_assoc] using perm
    exact (List.perm_append_left_iff _).mp regroup
  refine ⟨holds, ?_, ?_, ?_, ?_, ?_, ?_⟩
  · change ((b.held H' N').map SndMbuf.id).Nodup
    rw [(perm.map SndMbuf.id).nodup_iff, List.map_cons, List.nodup_cons]
    refine ⟨?_, tracks.nodup⟩
    intro inside
    obtain ⟨m', held, same⟩ := List.mem_map.mp inside
    have older := (tracks.issued m' held).1
    rw [same] at older
    exact absurd older (Nat.lt_irrefl m.id)
  · intro m' inside
    rcases List.mem_cons.mp (perm.mem_iff.mp inside) with rfl | held
    · exact ⟨Nat.lt_succ_self m.id, some⟩
    · exact ⟨Nat.lt_succ_of_lt (tracks.issued m' held).1, (tracks.issued m' held).2⟩
  · intro m' inside
    rcases List.mem_cons.mp (rings.mem_iff.mp inside) with rfl | old
    · exact ⟨rfl, tracks.unsent m.id (Nat.le_refl m.id)⟩
    · exact tracks.waiting m' old
  · intro m' inside
    change m' ∈ b.retransList at inside
    exact tracks.lost m' (retrans ▸ inside)
  · intro m' inside
    change m' ∈ b.uackList at inside
    exact tracks.sent m' (uack ▸ inside)
  · exact fun id large => tracks.unsent id (Nat.le_of_succ_le large)

/-- `ms'` holds what `ms` holds, in its state or the next one, and at most one new mbuf. -/
def Grown (fresh : MbufId) (ms ms' : List SndMbuf) : Prop :=
  ∀ m' ∈ ms', m'.id = fresh ∨ ∃ m ∈ ms, m'.id = m.id ∧
    (m'.mbufState = m.mbufState ∨ NextState m.mbufState m'.mbufState)

theorem put_tracked (tracked : s.Tracked H N) (len : Nat) (priority : Bool) :
    ∃ H' N', (s.sndCall (.put len priority)).Tracked H' N' ∧
      Grown s.fresh (s.buff.held H N) ((s.sndCall (.put len priority)).buff.held H' N') := by
  have kept : ∀ m' ∈ s.buff.held H N, m'.id = s.fresh ∨ ∃ m ∈ s.buff.held H N, m'.id = m.id ∧
      (m'.mbufState = m.mbufState ∨ NextState m.mbufState m'.mbufState) :=
    fun m' inside => .inr ⟨m', inside, rfl, .inl rfl⟩
  by_cases none : s.buff.toPut (s.handed len priority) = 0
  · refine ⟨H, N, ?_⟩
    have same := SndBuff.sbPut_refused none
    rw [handed] at same
    rw [sndCall, same]
    exact ⟨Tracks.fresher tracked, kept⟩
  by_cases full : s.buff.targetFull (s.handed len priority) = true
  · refine ⟨H, N, ?_⟩
    have same := SndBuff.sbPut_full none full
    rw [handed] at same
    rw [sndCall, same]
    exact ⟨Tracks.fresher { tracked with holds := ⟨tracked.holds.high, tracked.holds.low⟩ }, kept⟩
  rw [Bool.not_eq_true] at full
  obtain ⟨b, H', N', result, holds, perm, uack, retrans, -⟩ :=
    SndBuff.sbPut_stored (b := s.buff) (m := s.handed len priority) tracked.holds none full
  refine ⟨H', N', ?_⟩
  rw [handed] at result
  rw [sndCall, result]
  refine ⟨Tracks.stored (m := s.handed len priority) tracked none holds perm uack retrans, ?_⟩
  intro m' inside
  rcases List.mem_cons.mp (perm.mem_iff.mp inside) with rfl | held
  · exact .inl rfl
  · exact kept m' held

/-- The lists after `sb_reset_retrans` has moved them. -/
theorem Tracks.reset {fresh : MbufId} {v : View} (tracks : Tracks fresh v H N)
    (empty : v.sndbuf.retransList = []) {b : SndBuff}
    (moved : b = { v.sndbuf with
      retransList := v.sndbuf.uackList.map fun m => { m with mbufState := .loss }
      uackList := [] }) :
    Tracks fresh (v.setSndbuf b) H N ∧ Traced (v.sndbuf.held H N) (b.held H N) := by
  -- what is in the buffer afterwards was there before, and is LOSS if it was in uack_list
  have origin : ∀ m' ∈ b.held H N, (∃ m ∈ v.sndbuf.uackList, m' = { m with mbufState := .loss }) ∨
      m' ∈ H ++ N := by
    intro m' inside
    rcases SndBuff.mem_held.mp inside with uack | retrans | waiting
    · rw [moved] at uack
      cases uack
    · rw [moved] at retrans
      obtain ⟨m, sent, same⟩ := List.mem_map.mp retrans
      exact .inl ⟨m, sent, same.symm⟩
    · exact .inr waiting
  have ids : (b.held H N).map SndMbuf.id = (v.sndbuf.held H N).map SndMbuf.id := by
    simp [moved, SndBuff.held, empty, Function.comp_def]
  refine ⟨⟨?_, ?_, ?_, tracks.waiting, ?_, ?_, tracks.unsent⟩, ?_⟩
  · rw [moved]
    exact ⟨tracks.holds.high, tracks.holds.low⟩
  · exact ids ▸ tracks.nodup
  · intro m' inside
    rcases origin m' inside with ⟨m, sent, rfl⟩ | waiting
    · exact tracks.issued m (SndBuff.mem_held.mpr (.inl sent))
    · exact tracks.issued m' (SndBuff.mem_held.mpr (.inr (.inr waiting)))
  · intro m' lost
    change m' ∈ b.retransList at lost
    rw [moved] at lost
    obtain ⟨m, -, same⟩ := List.mem_map.mp lost
    rw [← same]
  · intro m' sent
    change m' ∈ b.uackList at sent
    rw [moved] at sent
    cases sent
  · intro m' inside
    rcases origin m' inside with ⟨m, sent, rfl⟩ | waiting
    · refine ⟨m, SndBuff.mem_held.mpr (.inl sent), rfl, .inr ?_⟩
      rw [(tracks.sent m sent).1]
      exact .lost
    · exact ⟨m', SndBuff.mem_held.mpr (.inr (.inr waiting)), rfl, .inl rfl⟩

theorem resetRetrans_tracked (tracked : s.Tracked H N) :
    (s.sndCall .resetRetrans).Tracked H N ∧
      Traced (s.buff.held H N) ((s.sndCall .resetRetrans).buff.held H N) := by
  rw [sndCall]
  rcases SndBuff.sbResetRetrans_cases s.buff with ⟨same, -⟩ | ⟨-, empty, moved⟩
  · rw [same]
    exact ⟨tracked, .of_subset fun _ inside => inside⟩
  · exact Tracks.reset tracked empty moved

/-- Fewer mbufs in the two lists. -/
theorem Tracks.trimmed {fresh : MbufId} {v : View} {b : SndBuff} (tracks : Tracks fresh v H N)
    (high : b.husndQ = v.sndbuf.husndQ) (low : b.usndQ = v.sndbuf.usndQ)
    (uack : b.uackList.Sublist v.sndbuf.uackList)
    (retrans : b.retransList.Sublist v.sndbuf.retransList) :
    Tracks fresh (v.setSndbuf b) H N ∧ Traced (v.sndbuf.held H N) (b.held H N) := by
  have sub : (b.held H N).Sublist (v.sndbuf.held H N) :=
    ((uack.append retrans).append (List.Sublist.refl H)).append (List.Sublist.refl N)
  refine ⟨⟨⟨high ▸ tracks.holds.high, low ▸ tracks.holds.low⟩, ?_, ?_, tracks.waiting, ?_, ?_,
    tracks.unsent⟩, .of_subset fun _ inside => sub.subset inside⟩
  · exact (sub.map SndMbuf.id).nodup tracks.nodup
  · exact fun m inside => tracks.issued m (sub.subset inside)
  · exact fun m inside => tracks.lost m (retrans.subset inside)
  · exact fun m inside => tracks.sent m (uack.subset inside)

theorem removeAcked_sublist (ackSeq : Seq) (ms : List SndMbuf) :
    (SndBuff.removeAcked ackSeq ms).2.Sublist ms := by
  have split := SndBuff.removeAcked_append ackSeq ms
  have kept := List.sublist_append_right (SndBuff.removeAcked ackSeq ms).1
    (SndBuff.removeAcked ackSeq ms).2
  rwa [split] at kept

theorem removeAcked_tracked (tracked : s.Tracked H N) (ackSeq : Seq) :
    (s.sndCall (.removeAcked ackSeq)).Tracked H N ∧
      Traced (s.buff.held H N) ((s.sndCall (.removeAcked ackSeq)).buff.held H N) := by
  apply Tracks.trimmed tracked
  · rfl
  · rfl
  · exact removeAcked_sublist ackSeq s.buff.uackList
  · exact removeAcked_sublist ackSeq s.buff.retransList

theorem flush_tracked (tracked : s.Tracked H N) (env : Env) (ok : s.NoRetransmission) :
    (s.sndCall (.flush env)).cx.view.halted = true ∨
      ∃ H' N', (s.sndCall (.flush env)).Tracked H' N' ∧
        Traced (s.buff.held H N) ((s.sndCall (.flush env)).buff.held H' N') := by
  have unchanged : ∃ H' N', Tracked { s with cx := s.cx } H' N' ∧
      Traced (s.buff.held H N) (s.buff.held H' N') :=
    ⟨H, N, tracked, .of_subset fun _ inside => inside⟩
  rw [sndCall, Cx.flushTcpSendingBuffer]
  split
  · exact .inr unchanged
  rename_i notFin
  split
  · exact .inr unchanged
  rename_i some
  by_cases below : tcpSeqLt s.cx.st.sndNxt s.buff.headSeq = true
  · rw [Cx.flushLoop]
    dsimp only
    rw [if_pos below]
    exact .inr unchanged
  have outside := ((ok.resolve_left notFin).resolve_left some).resolve_left below
  refine (Cx.flushLoop_flushed env _ (s.buff.waitingCount + 1) 0 s.cx rfl).imp_right ?_
  intro flushed
  exact Tracks.flushed_refused flushed tracked (.of_subset fun _ inside => inside) outside

end Calls

end SndRun

/-! ## Runs -/

namespace LifeRun

/-- Nothing of the process is left to look at, or the buffer is tracked. -/
def Inv (s : LifeRun) : Prop :=
  s.cx.view.halted = true ∨
    ((∃ H N, s.Tracked H N) ∧ ∀ change ∈ s.bare, NextState change.1 change.2)

/-- What a step does to the states of the mbufs, while the process runs. -/
def Kept (s s' : LifeRun) : Prop :=
  s'.cx.view.halted = true ∨ s.toSndRun.Changes s'.toSndRun

theorem start_inv (st : TcpStream) (sndbufSize : Nat) (initSeq : Seq) :
    (start st sndbufSize initSeq).Inv := by
  refine .inr ⟨⟨[], [], ?_⟩, ?_⟩
  · refine ⟨SndBuff.sbInit_holds sndbufSize SndBuff.zero initSeq, ?_, ?_, ?_, ?_, ?_, ?_⟩
    · exact List.nodup_nil
    all_goals simp [start, SndRun.start, SndBuff.sbInit, SndBuff.held, Cx.view, TcpStream.core,
      View.transmissions]
  · simp [start]

/-- The changes of a step, from where its mbufs come from. -/
theorem changes_of_grown {s s' : SndRun} {H N H' N' : List SndMbuf} (tracked : s.Tracked H N)
    (tracked' : s'.Tracked H' N')
    (grown : SndRun.Grown s.fresh (s.buff.held H N) (s'.buff.held H' N')) : s.Changes s' := by
  intro m inside m' inside' same
  rw [tracked.containers] at inside
  rw [tracked'.containers] at inside'
  rcases grown m' inside' with new | ⟨m₀, inside₀, idEq, state⟩
  · have older := (tracked.issued m inside).1
    rw [← same, new] at older
    exact absurd older (Nat.lt_irrefl s.fresh)
  · have eq : m₀ = m :=
      List.inj_on_of_nodup_map tracked.nodup inside₀ inside (idEq.symm.trans same)
    exact eq ▸ state

theorem View.transmissions_bare (v : View) (flags : SendFlags) (id : MbufId) :
    (v.transmit flags none 0).transmissions id = v.transmissions id := by
  unfold View.transmissions View.transmit Sent.log
  dsimp only
  split
  · rfl
  · rw [List.countP_cons, if_neg (by simp)]
    rfl

/-- An ACK or control packet leaves the buffer alone. -/
theorem Tracks.bare {fresh : MbufId} {v : View} {H N : List SndMbuf} (tracks : Tracks fresh v H N)
    (flags : SendFlags) : Tracks fresh (v.transmit flags none 0) H N where
  holds := tracks.holds
  nodup := tracks.nodup
  issued := tracks.issued
  waiting := by
    intro m inside
    rw [View.transmissions_bare]
    exact tracks.waiting m inside
  lost := tracks.lost
  sent := by
    intro m inside
    rw [View.transmissions_bare]
    exact tracks.sent m inside
  unsent := by
    intro id large
    rw [View.transmissions_bare]
    exact tracks.unsent id large

section Step

variable {s : LifeRun} {H N : List SndMbuf}

/-- A call of the send side that keeps the buffer tracked. -/
theorem Inv.of_snd {s' : SndRun} {H' N' : List SndMbuf} (tracked : s.Tracked H N)
    (bare : ∀ change ∈ s.bare, NextState change.1 change.2) (tracked' : s'.Tracked H' N')
    (grown : SndRun.Grown s.fresh (s.buff.held H N) (s'.buff.held H' N')) :
    Inv { s with toSndRun := s' } ∧ s.Kept { s with toSndRun := s' } :=
  ⟨.inr ⟨⟨H', N', tracked'⟩, bare⟩, .inr (changes_of_grown tracked tracked' grown)⟩

theorem snd_inv (tracked : s.Tracked H N)
    (bare : ∀ change ∈ s.bare, NextState change.1 change.2) (e : SndEvent)
    (ok : s.LifeOk (.snd e)) :
    Inv { s with toSndRun := s.toSndRun.sndCall e } ∧
      s.Kept { s with toSndRun := s.toSndRun.sndCall e } := by
  cases e with
  | put len priority =>
      obtain ⟨H', N', tracked', grown⟩ := SndRun.put_tracked tracked len priority
      exact Inv.of_snd tracked bare tracked' grown
  | flush env =>
      rcases SndRun.flush_tracked tracked env ok with halted | ⟨H', N', tracked', traced⟩
      · exact ⟨.inl halted, .inl halted⟩
      · exact Inv.of_snd tracked bare tracked' fun m' inside => .inr (traced m' inside)
  | removeAcked ackSeq =>
      obtain ⟨tracked', traced⟩ := SndRun.removeAcked_tracked tracked ackSeq
      exact Inv.of_snd tracked bare tracked' fun m' inside => .inr (traced m' inside)
  | resetRetrans =>
      obtain ⟨tracked', traced⟩ := SndRun.resetRetrans_tracked tracked
      exact Inv.of_snd tracked bare tracked' fun m' inside => .inr (traced m' inside)
  | tune st avail =>
      have tracked' : (s.toSndRun.sndCall (.tune st avail)).Tracked H N := { tracked with }
      exact Inv.of_snd tracked bare tracked' fun m' inside => .inr ⟨m', inside, rfl, .inl rfl⟩

theorem sendBare_inv (tracked : s.Tracked H N)
    (bare : ∀ change ∈ s.bare, NextState change.1 change.2) (env : Env) (flags : SendFlags) :
    (s.sendBare env flags).Inv ∧ s.Kept (s.sendBare env flags) := by
  have same : SndRun.Grown s.fresh (s.buff.held H N) (s.buff.held H N) :=
    fun m' inside => .inr ⟨m', inside, rfl, .inl rfl⟩
  unfold sendBare
  rcases Cx.sendTcpPacket_cases env flags none 0 s.cx with
    ⟨refused, -⟩ | ⟨refused, -⟩ | ⟨sent, view⟩
  · rw [refused]
    exact ⟨.inr ⟨⟨H, N, tracked⟩, bare⟩, .inr (changes_of_grown tracked tracked same)⟩
  · rw [refused]
    exact ⟨.inr ⟨⟨H, N, tracked⟩, bare⟩, .inr (changes_of_grown tracked tracked same)⟩
  · generalize s.cx.sendTcpPacket env flags none 0 = result at sent view
    obtain ⟨ret, cx⟩ := result
    dsimp only at sent view ⊢
    subst sent
    have tracked' : Tracks s.fresh cx.view H N := view ▸ Tracks.bare tracked flags
    have buffer : cx.st.sndbuf = s.buff := congrArg (fun v : View => v.sndbuf) view
    refine ⟨.inr ⟨⟨H, N, tracked'⟩, ?_⟩, .inr (changes_of_grown tracked tracked' ?_)⟩
    · intro change logged
      rcases List.mem_cons.mp logged with rfl | old
      · exact .bare
      · exact bare change old
    · change SndRun.Grown s.fresh (s.buff.held H N) (cx.st.sndbuf.held H N)
      rw [buffer]
      exact same

end Step

theorem step_inv (s : LifeRun) (e : LifeEvent) (inv : s.Inv) (ok : s.LifeOk e) :
    (s.lifeStep e).Inv ∧ s.Kept (s.lifeStep e) := by
  by_cases halted : s.cx.view.halted = true
  · have same : s.lifeStep e = s := by
      cases e with
      | snd e =>
          rw [lifeStep, SndRun.sndStep, if_pos halted]
      | packet env flags => exact if_pos halted
    rw [same]
    exact ⟨inv, .inl halted⟩
  obtain ⟨⟨H, N, tracked⟩, bare⟩ := inv.resolve_left halted
  cases e with
  | snd e =>
      rw [lifeStep, SndRun.sndStep, if_neg halted]
      exact snd_inv tracked bare e ok
  | packet env flags =>
      rw [lifeStep, if_neg halted]
      exact sendBare_inv tracked bare env flags

theorem Inv.lawful {s : LifeRun} (inv : s.Inv) : s.cx.view.halted = true ∨ s.Lawful :=
  inv.imp_right fun ⟨⟨_, _, tracked⟩, bare⟩ => ⟨tracked.lists, bare⟩

/-- **The life of a sent mbuf.**  As long as no flush sends an mbuf of `retrans_list`, every change
of state follows the lifecycle, and at every moment the mbufs of `retrans_list` are the ones in
LOSS and those of `uack_list` are SENT or RETRANS as they were transmitted once or again. -/
theorem lifecycle (st : TcpStream) (sndbufSize : Nat) (initSeq : Seq) (es : List LifeEvent)
    (ok : Lib.Run.Allowed lifeStep LifeOk (start st sndbufSize initSeq) es) :
    Lib.Run.Along lifeStep (fun s => s.cx.view.halted = true ∨ s.Lawful)
        (start st sndbufSize initSeq) es ∧
      Lib.Run.Each lifeStep (fun s _ s' => s.Kept s') (start st sndbufSize initSeq) es := by
  have begins := start_inv st sndbufSize initSeq
  constructor
  · have along := Lib.Run.along_of_step (fun s e inv ok => (step_inv s e inv ok).1) es _ begins ok
    exact Lib.Run.Along.mono (fun _ => Inv.lawful) es _ along
  · exact Lib.Run.each_of_step step_inv es _ begins ok

/-- Two mbufs are sent, lost, and the first of them acknowledged before the next flush. -/
def lostRun : List LifeEvent :=
  [.snd (.put 700 false), .snd (.flush {}), .snd .resetRetrans, .snd (.removeAcked 700),
    .snd (.put 700 true), .snd (.flush {})]

theorem lifecycle_lostRun :
    Lib.Run.Along lifeStep (fun s => s.cx.view.halted = true ∨ s.Lawful)
        (start SndRun.narrow 4 0) lostRun ∧
      Lib.Run.Each lifeStep (fun s _ s' => s.Kept s') (start SndRun.narrow 4 0) lostRun := by
  refine lifecycle SndRun.narrow 4 0 lostRun ⟨trivial, ?_, trivial, trivial, trivial, ?_, trivial⟩
  · change SndRun.NoRetransmission _
    decide +kernel
  · change SndRun.NoRetransmission _
    decide +kernel

/-- One mbuf is sent, lost and sent again. -/
def retransmittedRun : List LifeEvent :=
  [.snd (.put 700 false), .snd (.flush {}), .snd .resetRetrans,
    .snd (.tune { SndRun.narrow with sndNxt := 0 } 0), .snd (.flush {})]

/-- It was transmitted twice and is SENT: `send_tcp_packet` took it for a new one. -/
theorem retransmitted_is_sent :
    ¬ Lib.Run.Along lifeStep (fun s => s.cx.view.halted = true ∨ s.Lawful)
      (start SndRun.narrow 4 0) retransmittedRun := by
  intro along
  rcases Lib.Run.Along.last _ _ along with exited | lawful
  · revert exited
    decide +kernel
  · have state := lawful.1.sent
      { id := 0, payloadLen := 700, tcpSeq := 0, mbufState := .sent } (by decide +kernel)
    revert state
    decide +kernel

end LifeRun

end QStack
