/-
# QStack.ReceiveSide -- what the functions of a stream do to its receiving side

The receiving side is the state, the variables of `RcvCore` and the memory of the received
mbufs.  Timers, queues and the whole sending side do not reach it, so a call of the stack is a
path of the few moves that do (`RecvMove`): a SYN is noted, the connection opens, payload is
stored, a FIN is consumed.  Before a segment is processed its mbuf is filled in
(`RecvSide.receive`), and `q_recv` is a step of its own (`RecvSide.read`).  `Conn.serve_leads` says
that every call is such a path or such a step, unless it ends the process.  An invariant of the
receiving side is then proved move by move (`RecvPath.keeps`).
-/
import QStack.Connection
import Mathlib.Logic.Relation

namespace QStack

set_option autoImplicit false

/-! ## Memory -/

namespace Cx

section Memory

variable (env : Env) (c : Cx)

@[simp] theorem mem_emit (e : Effect) : (c.emit e).mem = c.mem := rfl

@[simp] theorem mem_modify (f : TcpStream → TcpStream) : (c.modify f).mem = c.mem := rfl

@[simp] theorem mem_rtoListAdd : (c.rtoListAdd env).mem = c.mem := by
  unfold rtoListAdd
  dsimp only
  split
  · rfl
  · split <;> rfl

@[simp] theorem mem_rtoListRemove : c.rtoListRemove.mem = c.mem := by
  unfold rtoListRemove
  split <;> rfl

@[simp] theorem mem_rtoListUpdate : (c.rtoListUpdate env).mem = c.mem := by
  simp [rtoListUpdate]

@[simp] theorem mem_timewaitListAdd : (c.timewaitListAdd env).mem = c.mem := by
  unfold timewaitListAdd
  dsimp only
  split
  · rw [mem_emit, mem_emit, mem_modify]
  · rw [mem_emit, mem_modify, mem_rtoListRemove, mem_modify]

@[simp] theorem mem_timewaitListRemove : c.timewaitListRemove.mem = c.mem := by
  unfold timewaitListRemove
  split <;> rfl

@[simp] theorem mem_timeoutListAdd : (c.timeoutListAdd env).mem = c.mem := by
  unfold timeoutListAdd
  dsimp only
  split <;> rfl

@[simp] theorem mem_timeoutListUpdate : (c.timeoutListUpdate env).mem = c.mem := by
  unfold timeoutListUpdate
  dsimp only
  split <;> rfl

@[simp] theorem mem_controlQueueAdd : (c.controlQueueAdd env).mem = c.mem := by
  unfold controlQueueAdd
  split
  · rfl
  · split <;> rfl

@[simp] theorem mem_ackQueueAdd : (c.ackQueueAdd env).mem = c.mem := by
  unfold ackQueueAdd
  split <;> rfl

@[simp] theorem mem_enqueueAck (opt : AckOpt) : (c.enqueueAck env opt).mem = c.mem := by
  unfold enqueueAck
  rw [mem_ackQueueAdd]
  cases opt with
  | now | aggregate =>
      dsimp only
      split <;> rfl
  | wack => rfl

@[simp] theorem mem_sendEventAdd (pri : Bool) : (c.sendEventAdd env pri).mem = c.mem := by
  unfold sendEventAdd
  split <;> rfl

@[simp] theorem mem_raiseEvent (ev : EventKind) : (c.raiseEvent ev).mem = c.mem := by
  unfold raiseEvent
  split <;> rfl

@[simp] theorem mem_releaseControlWaiting (busy : Bool) :
    (c.releaseControlWaiting env busy).mem = c.mem := by
  unfold releaseControlWaiting
  split
  · simp
  · rfl

@[simp] theorem mem_parseOptions (seg : Segment) : (c.parseOptions env seg).mem = c.mem := by
  rcases parseOptions_cases env seg c with hangs | ⟨o, parsed⟩
  · rw [hangs]
    rfl
  · rw [parsed]
    rfl

theorem mem_andThen {c c' : Cx} {f : Cx → Cx} (first : c'.mem = c.mem)
    (second : (f c').mem = c'.mem) : (c'.andThen f).mem = c.mem := by
  unfold andThen
  split
  · exact first
  · exact second.trans first

@[simp] theorem mem_fastRetransmit (a : Seq) : (c.fastRetransmit env a).mem = c.mem := by
  unfold fastRetransmit
  dsimp only
  rw [mem_sendEventAdd, mem_modify, mem_modify, mem_modify]
  split <;> rfl

@[simp] theorem mem_acceptAck (a : Seq) : (c.acceptAck env a).mem = c.mem := by
  unfold acceptAck
  dsimp only
  split
  · rfl
  · split
    · rfl
    · split
      · simp
      · simp

@[simp] theorem mem_processTcpAck (seg : Segment) : (c.processTcpAck env seg).mem = c.mem := by
  have ends : ∀ (c' : Cx) (a : Seq), c'.mem = c.mem →
      (if tcpSeqGeq c'.st.sndbuf.headSeq a then c' else c'.acceptAck env a).mem = c.mem := by
    intro c' a same
    split
    · exact same
    · rw [mem_acceptAck, same]
  have recovers : ∀ (c' : Cx) (a : Seq), c'.mem = c.mem →
      (if tcpSeqGt a c'.st.sndNxt then c'.modify fun s => { s with sndNxt := a } else c').mem =
        c.mem := by
    intro c' a same
    split
    · exact same
    · exact same
  unfold processTcpAck
  dsimp only
  split
  · rfl
  · apply ends
    apply recovers
    split
    · rw [mem_fastRetransmit, mem_modify, mem_modify]
    · split
      · unfold inflateWindow
        rw [mem_modify, mem_modify, mem_modify]
      · rw [mem_modify, mem_modify]

@[simp] theorem mem_sendTcpPacket (flags : SendFlags) (mbuf : Option MbufId) (payloadlen : Nat) :
    (c.sendTcpPacket env flags mbuf payloadlen).2.mem = c.mem := by
  unfold sendTcpPacket
  split
  · rfl
  split
  · rfl
  dsimp only
  rw [mem_emit]
  have sent : ∀ c' : Cx, (if payloadlen + flags.phantom ≠ 0 then c'.rtoListAdd env else c').mem =
      c'.mem := by
    intro c'
    split
    · exact mem_rtoListAdd env c'
    · rfl
  have acked : ∀ c' : Cx, (if flags.ack then (c'.modify fun s =>
      { s with tsLastackSent := env.curTs }).timeoutListUpdate env else c').mem = c'.mem := by
    intro c'
    split
    · simp
    · rfl
  rw [sent, mem_modify, acked, mem_modify]
  split <;> rfl

theorem mem_raiseAcceptEvent : (c.raiseAcceptEvent env).mem = c.mem := by
  unfold raiseAcceptEvent
  split
  · rfl
  dsimp only
  split
  · split <;> rfl
  · split <;> rfl

end Memory

end Cx

/-! ## The receiving side -/

namespace TcpState

/-- Payload is stored, and a FIN is consumed, in these states only. -/
def receives : TcpState → Bool
  | .established | .finWait1 | .finWait2 => true
  | _ => false

end TcpState

structure RecvSide where
  state : TcpState
  /-- the stream each time it became ESTABLISHED -/
  opened : List TcpStream
  rcv : RcvCore
  mem : MbufMem

namespace RecvSide

/-- The buffer with the memory of its mbufs, as `rb_put` and `rb_get` find them. -/
def buffered (r : RecvSide) : RcvMem := { toMbufMem := r.mem, buff := r.rcv.rcvbuf }

/-- The mbuf of a segment is filled in. -/
def receive (r : RecvSide) (seg : Segment) : RecvSide :=
  let filled := { seg.mbuf with tcpSeq := seg.seq, payloadLen := seg.payloadLen }
  { r with mem := { r.mem with mbuf := Function.update r.mem.mbuf seg.id filled } }

/-- The buffer after a call, with the window that is advertised then. -/
def withBuff (r : RecvSide) (w : RcvMem) : RecvSide :=
  { r with
    mem := w.toMbufMem
    rcv := { r.rcv with rcvbuf := w.buff, rcvWnd := w.buff.size - w.buff.rbMergedLen } }

/-- The application reads. -/
def read (r : RecvSide) : RecvSide := r.withBuff r.buffered.qRecv.2

end RecvSide

/-- The moves of the receiving side. -/
inductive RecvMove : RecvSide → RecvSide → Prop
  /-- the state changes, or nothing; a state in which the side could change is not entered -/
  | aside {r : RecvSide} (state : TcpState) (syn : state.isSyn = true → r.state.isSyn = true)
      (receives : state.receives = true → r.state.receives = true) :
      RecvMove r { r with state := state }
  /-- a SYN in LISTEN or SYN_RCVD -/
  | listened {r : RecvSide} (next : Seq) (early : r.state.isSyn = true) :
      RecvMove r { r with state := .synRcvd, rcv := { r.rcv with rcvNxt := next } }
  /-- a SYN+ACK in SYN_SENT -/
  | synced {r : RecvSide} (seq : Seq) (st : TcpStream) (early : r.state.isSyn = true) :
      RecvMove r
        { r with state := .established, rcv := r.rcv.synced seq, opened := st :: r.opened }
  /-- the acknowledgement of the SYN in SYN_RCVD -/
  | acked {r : RecvSide} (st : TcpStream) (early : r.state.isSyn = true) :
      RecvMove r
        { r with
          state := .established
          rcv := { r.rcv with rcvNxt := r.rcv.irs + 1 }
          opened := st :: r.opened }
  /-- payload that passed the window; it is discarded when the connection is closed already -/
  | stored {r : RecvSide} (id : MbufId) (w : RcvMem) (irs : Seq)
      (receives : r.state.receives = true)
      (put : w = (r.buffered.rbPut id).2 ∨ w = (r.buffered.rbPut id).2.rbClear) :
      RecvMove r
        { r.withBuff w with
          rcv := { (r.withBuff w).rcv with irs := irs, rcvNxt := w.buff.mergedNext } }
  /-- a FIN at `rcv_nxt` -/
  | fin {r : RecvSide} (position : Seq) (state : TcpState) (receives : r.state.receives = true)
      (here : position = r.rcv.rcvNxt) (late : state.isSyn = false)
      (left : state.receives = false) :
      RecvMove r
        { r with
          state := state
          rcv := { r.rcv with
            rcvNxt := r.rcv.rcvNxt + 1
            fins := ⟨position, r.rcv.rcvbuf.mergedNext⟩ :: r.rcv.fins } }

abbrev RecvPath : RecvSide → RecvSide → Prop := Relation.ReflTransGen RecvMove

/-- **The rule for invariants of the receiving side**: what every move keeps, a path keeps, and
`T` joins what the moves do. -/
theorem RecvPath.keeps {P : RecvSide → Prop} {T : RecvSide → RecvSide → Prop}
    (refl : ∀ r, T r r) (trans : ∀ r r' r'', P r → P r' → T r r' → T r' r'' → T r r'')
    (kept : ∀ r r', RecvMove r r' → P r → P r' ∧ T r r') {r r' : RecvSide} (path : RecvPath r r')
    (start : P r) : P r' ∧ T r r' := by
  induction path with
  | refl => exact ⟨start, refl r⟩
  | tail _ move ih =>
      obtain ⟨inv, before⟩ := ih
      obtain ⟨inv', last⟩ := kept _ _ move inv
      exact ⟨inv', trans _ _ _ start inv before last⟩

namespace Cx

def recvSide (c : Cx) : RecvSide :=
  { state := c.st.state, opened := c.view.opened, rcv := c.st.rcvCore, mem := c.mem }

theorem recvSide_eq {c c' : Cx} (view : c'.view = c.view) (mem : c'.mem = c.mem) :
    c'.recvSide = c.recvSide := by
  have state : c'.st.state = c.st.state := congrArg (fun v : View => v.state) view
  have rcv : c'.st.rcvCore = c.st.rcvCore := congrArg View.rcv view
  unfold recvSide
  rw [state, rcv, view, mem]

/-- The call ends the process, or takes the receiving side along a path. -/
def Leads (c c' : Cx) : Prop := c'.view.halted = true ∨ RecvPath c.recvSide c'.recvSide

section Leads

variable {c c' c'' : Cx}

theorem Leads.refl (c : Cx) : c.Leads c := .inr .refl

theorem Leads.halted (halted : c'.view.halted = true) : c.Leads c' := .inl halted

theorem Leads.of_eq (view : c'.view = c.view) (mem : c'.mem = c.mem) : c.Leads c' := by
  refine .inr ?_
  rw [recvSide_eq view mem]

theorem Leads.move (move : RecvMove c.recvSide c'.recvSide) : c.Leads c' := .inr (.single move)

/-- The state changes and the receiving side does not. -/
theorem Leads.of_rcv (rcv : c'.view.rcv = c.view.rcv) (opened : c'.view.opened = c.view.opened)
    (mem : c'.mem = c.mem) (syn : c'.st.state.isSyn = true → c.st.state.isSyn = true)
    (receives : c'.st.state.receives = true → c.st.state.receives = true) : c.Leads c' := by
  have same : c'.recvSide = { c.recvSide with state := c'.st.state } := by
    unfold recvSide
    rw [show c'.st.rcvCore = c.st.rcvCore from rcv, opened, mem]
  refine .inr (.single ?_)
  rw [same]
  exact .aside _ syn receives

/-- A call that does not end the process comes first. -/
theorem Leads.after (path : RecvPath c.recvSide c'.recvSide) (second : c'.Leads c'') :
    c.Leads c'' := second.imp_right path.trans

theorem Leads.congr (first : c.Leads c') (view : c''.view = c'.view) (mem : c''.mem = c'.mem) :
    c.Leads c'' := by
  rcases first with halted | path
  · exact .inl (view ▸ halted)
  · refine .inr ?_
    rw [recvSide_eq view mem]
    exact path

theorem Leads.andThen {f : Cx → Cx} (first : c.Leads c')
    (second : c'.view.halted = false → c'.Leads (f c')) : c.Leads (c'.andThen f) := by
  rcases andThen_cases c' f with ⟨halted, same⟩ | ⟨running, next⟩
  · rw [same]
    exact .inl halted
  · rw [next]
    rcases first with halted | path
    · rw [running] at halted
      cases halted
    · exact .after path (second running)

end Leads

/-! ## The handlers -/

section Handlers

variable (env : Env) (seg : Segment) (c : Cx)

theorem processTcpAck_leads : c.Leads (c.processTcpAck env seg) := by
  rcases processTcpAck_view env seg c with halted | view
  · exact .halted halted
  · have state : (c.processTcpAck env seg).st.state = c.st.state :=
      (congrArg (fun v : View => v.state) view).trans (Core.onAck_state _ _ _)
    have rcv : (c.processTcpAck env seg).view.rcv = c.view.rcv := by
      rw [view]
      rfl
    have opened : (c.processTcpAck env seg).view.opened = c.view.opened := by
      rw [view]
      rfl
    refine .of_rcv rcv opened (mem_processTcpAck env c seg) ?_ ?_
    · rw [state]
      exact id
    · rw [state]
      exact id

theorem processTcpAck_state (running : (c.processTcpAck env seg).view.halted = false) :
    (c.processTcpAck env seg).st.state = c.st.state := by
  rcases processTcpAck_view env seg c with halted | view
  · rw [running] at halted
    cases halted
  · exact (congrArg (fun v : View => v.state) view).trans (Core.onAck_state _ _ _)

/-- The end of `process_tcp_payload` leaves the memory alone. -/
theorem payloadStored_mem (prev : Seq) (priority : Bool) (ret : Int) :
    (c.payloadStored prev priority ret).2.mem = c.mem := by
  unfold payloadStored
  dsimp only
  split
  · rfl
  split
  · dsimp only
    split
    · split
      · rw [mem_raiseEvent, mem_raiseEvent, mem_modify]
      · rw [mem_raiseEvent, mem_modify]
    · split
      · rw [mem_raiseEvent, mem_modify]
      · rfl
  · rfl

/-- What `rb_put` left is stored in the stream. -/
theorem payloadStored_leads (prev : Seq) (priority : Bool) (ret : Int) {w : RcvMem} (id : MbufId)
    (wnd : U32) (irs : Seq) (receives : c.st.state.receives = true)
    (put : w = (c.recvSide.buffered.rbPut id).2 ∨ w = (c.recvSide.buffered.rbPut id).2.rbClear) :
    c.Leads (((c.modify fun s => { s with rcvWnd := wnd, irs := irs }).setRcv w).payloadStored prev
      priority ret).2 := by
  generalize filed : (c.modify fun s => { s with rcvWnd := wnd, irs := irs }).setRcv w = c₁
  have view := payloadStored_view prev priority ret c₁
  have mem := payloadStored_mem c₁ prev priority ret
  generalize (c₁.payloadStored prev priority ret).2 = c' at view mem
  rw [← filed] at view mem
  have side : c'.recvSide = { c.recvSide.withBuff w with
      rcv := { (c.recvSide.withBuff w).rcv with irs := irs, rcvNxt := w.buff.mergedNext } } := by
    unfold recvSide
    rw [show c'.st.state = c.st.state from congrArg (fun v : View => v.state) view,
      show c'.st.rcvCore = _ from congrArg View.rcv view, congrArg View.opened view, mem]
    rfl
  refine .move ?_
  rw [side]
  exact .stored id w irs receives put

theorem processTcpPayload_leads (receives : c.st.state.receives = true) :
    c.Leads (c.processTcpPayload seg).2 := by
  unfold processTcpPayload
  dsimp only
  split
  · exact .refl c
  split
  · exact .refl c
  generalize put : RcvMem.rbPut _ _ = result
  obtain ⟨ret, w⟩ := result
  have stored : w = (c.recvSide.buffered.rbPut seg.id).2 := (congrArg Prod.snd put).symm
  dsimp only
  split
  · exact .halted rfl
  obtain ⟨wnd, irs, swapped⟩ := addHeadSwapped_eq seg.bufAddr w c
  rw [swapped]
  apply payloadStored_leads c _ _ _ seg.id wnd irs receives
  rw [← stored, modify_st]
  dsimp only
  cases c.st.state with
  | finWait1 | finWait2 => exact .inr rfl
  | closed | listen | synSent | synRcvd | established | closeWait | closing | lastAck
  | timeWait => exact .inl rfl

/-- The same, with the acknowledgement that is queued for the payload. -/
theorem payload_leads (receives : c.st.state.receives = true) (answer : Int → Cx → Cx)
    (view : ∀ ret c, (answer ret c).view = c.view) (mem : ∀ ret c, (answer ret c).mem = c.mem) :
    c.Leads ((c.processTcpPayload seg).2.andThen (answer (c.processTcpPayload seg).1)) :=
  (processTcpPayload_leads seg c receives).andThen fun _ => .of_eq (view _ _) (mem _ _)

theorem closingPayload_leads (receives : c.st.state.receives = true) :
    c.Leads (c.closingPayload env seg) := by
  unfold closingPayload
  split
  · refine payload_leads seg c receives
      (fun ret c => if truthy ret then c.enqueueAck env .aggregate else c.enqueueAck env .now) ?_ ?_
    · intro ret c
      split
      · exact view_enqueueAck env c _
      · exact view_enqueueAck env c _
    · intro ret c
      split
      · exact mem_enqueueAck env c _
      · exact mem_enqueueAck env c _
  · exact .refl c

theorem establishedPayload_leads (receives : c.st.state.receives = true) :
    c.Leads (c.establishedPayload env seg) := by
  unfold establishedPayload
  split
  · refine payload_leads seg c receives
      (fun ret c => if 0 < ret then c.enqueueAck env .aggregate else c.enqueueAck env .now) ?_ ?_
    · intro ret c
      split
      · exact view_enqueueAck env c _
      · exact view_enqueueAck env c _
    · intro ret c
      split
      · exact mem_enqueueAck env c _
      · exact mem_enqueueAck env c _
  · exact .refl c

theorem establishedPayload_state (running : (c.establishedPayload env seg).view.halted = false) :
    (c.establishedPayload env seg).st.state = c.st.state := by
  rcases establishedPayload_view env seg c with halted | ⟨r, view⟩
  · rw [running] at halted
    cases halted
  · exact congrArg (fun v : View => v.state) view

theorem closingPayload_state (running : (c.closingPayload env seg).view.halted = false) :
    (c.closingPayload env seg).st.state = c.st.state := by
  rcases closingPayload_view env seg c with halted | ⟨r, view⟩
  · rw [running] at halted
    cases halted
  · exact congrArg (fun v : View => v.state) view

/-- A FIN that stands at `rcv_nxt` is consumed and the state is left. -/
theorem takeFin_leads {c' : Cx} (receives : c.st.state.receives = true)
    (here : seg.seq + BitVec.ofNat 32 seg.payloadLen = c.st.rcvNxt)
    (opened : c'.view.opened = c.view.opened) (rcv : c'.view.rcv = (c.st.takeFin seg).rcvCore)
    (mem : c'.mem = c.mem) (late : c'.st.state.isSyn = false)
    (left : c'.st.state.receives = false) : c.Leads c' := by
  have side : c'.recvSide =
      { c.recvSide with state := c'.st.state, rcv := (c.st.takeFin seg).rcvCore } := by
    unfold recvSide
    rw [show c'.st.rcvCore = _ from rcv, opened, mem]
  refine .move ?_
  rw [side]
  exact .fin _ c'.st.state receives here late left

theorem finInEstablished_leads (state : c.st.state = .established) :
    c.Leads (c.finInEstablished env seg) := by
  unfold finInEstablished
  split
  · split
    · rename_i here
      have same : (c.raiseEvent (.read false)).st = c.st := by
        unfold raiseEvent
        split
        · rfl
        · rfl
      refine Leads.congr ?_ (view_controlQueueAdd env _) (mem_controlQueueAdd env _)
      refine takeFin_leads seg c (by rw [state]; rfl) here ?_ ?_ ?_ rfl rfl
      · change (c.raiseEvent (.read false)).view.opened = _
        rw [view_raiseEvent]
      · change ((c.raiseEvent (.read false)).st.takeFin seg).rcvCore = _
        rw [same]
      · rw [mem_modify, mem_raiseEvent]
    · exact .of_eq (view_enqueueAck env c _) (mem_enqueueAck env c _)
  · exact .refl c

theorem finInFinWait2_leads (state : c.st.state = .finWait2) :
    c.Leads (c.finInFinWait2 env seg) := by
  unfold finInFinWait2
  split
  · rename_i here
    rw [Bool.and_eq_true, beq_iff_eq] at here
    have taken : c.Leads (c.modify fun s => { s.takeFin seg with state := .timeWait }) :=
      takeFin_leads seg c (by rw [state]; rfl) here.2 rfl rfl rfl rfl rfl
    exact (taken.congr (view_timewaitListAdd env _) (mem_timewaitListAdd env _)).congr
      (view_controlQueueAdd env _) (mem_controlQueueAdd env _)
  · exact .refl c

theorem finInFinWait1_leads (state : c.st.state = .finWait1 ∨ c.st.state = .finWait2) :
    c.Leads (c.finInFinWait1 env seg) := by
  unfold finInFinWait1
  split
  · rename_i here
    rw [Bool.and_eq_true, beq_iff_eq] at here
    dsimp only
    refine Leads.congr ?_ (view_controlQueueAdd env _) (mem_controlQueueAdd env _)
    rw [show (c.modify (TcpStream.takeFin seg)).st.state = c.st.state from rfl]
    rcases state with one | two
    · rw [one]
      exact takeFin_leads seg c (by rw [one]; rfl) here.2 rfl rfl rfl rfl rfl
    · rw [two]
      dsimp only
      refine Leads.congr ?_ (view_timewaitListAdd env _) (mem_timewaitListAdd env _)
      exact takeFin_leads seg c (by rw [two]; rfl) here.2 rfl rfl rfl rfl rfl
  · exact .refl c

theorem handleEstablished_leads (state : c.st.state = .established) :
    c.Leads (c.handleEstablished env seg) := by
  unfold handleEstablished
  split
  · exact .of_eq (view_controlQueueAdd env c) (mem_controlQueueAdd env c)
  refine (establishedPayload_leads env seg c (by rw [state]; rfl)).andThen fun stored => ?_
  have state₁ := (establishedPayload_state env seg c stored).trans state
  cases seg.ack with
  | false => exact (Leads.refl _).andThen fun _ => finInEstablished_leads env seg _ state₁
  | true =>
      refine (processTcpAck_leads env seg _).andThen fun acked => ?_
      exact finInEstablished_leads env seg _ ((processTcpAck_state env seg _ acked).trans state₁)

theorem handleFinWait2_leads (state : c.st.state = .finWait2) :
    c.Leads (c.handleFinWait2 env seg) := by
  unfold handleFinWait2
  split
  · refine (processTcpAck_leads env seg c).andThen fun acked => ?_
    have state₁ := (processTcpAck_state env seg c acked).trans state
    refine (closingPayload_leads env seg _ (by rw [state₁]; rfl)).andThen fun stored => ?_
    exact finInFinWait2_leads env seg _ ((closingPayload_state env seg _ stored).trans state₁)
  · exact .refl c

/-- Payload and FIN in FIN_WAIT_1, after the acknowledgement. -/
theorem finWait1Rest_leads (state : c.st.state = .finWait1 ∨ c.st.state = .finWait2) :
    c.Leads ((c.closingPayload env seg).andThen (finInFinWait1 env seg)) := by
  have receives : c.st.state.receives = true := by
    rcases state with one | two
    · rw [one]
      rfl
    · rw [two]
      rfl
  refine (closingPayload_leads env seg c receives).andThen fun stored => ?_
  refine finInFinWait1_leads env seg _ ?_
  rw [closingPayload_state env seg c stored]
  exact state

theorem handleFinWait1_leads (state : c.st.state = .finWait1) :
    c.Leads (c.handleFinWait1 env seg) := by
  unfold handleFinWait1
  split
  · exact .of_eq (view_controlQueueAdd env c) (mem_controlQueueAdd env c)
  split
  · refine (processTcpAck_leads env seg c).andThen fun acked => ?_
    have state₁ := (processTcpAck_state env seg c acked).trans state
    generalize c.processTcpAck env seg = c₁ at state₁
    split
    · -- our FIN is acknowledged: the rest of the segment is handled in FIN_WAIT_2
      generalize finished : Cx.modify (rtoListRemove (modify c₁ _)) _ = c₂
      have side : c₂.recvSide = { c₁.recvSide with state := .finWait2 } := by
        rw [← finished]
        unfold recvSide
        rw [mem_modify, mem_rtoListRemove, mem_modify]
        generalize noted : modify c₁ _ = c₀
        have view : c₀.rtoListRemove.view = c₀.view := view_rtoListRemove c₀
        have rcv : c₀.rtoListRemove.st.rcvCore = c₁.st.rcvCore := by
          rw [show c₀.rtoListRemove.st.rcvCore = c₀.st.rcvCore from congrArg View.rcv view, ← noted]
          rfl
        have opened : c₀.rtoListRemove.view.opened = c₁.view.opened := by
          rw [view, ← noted]
          rfl
        change RecvSide.mk .finWait2 c₀.rtoListRemove.view.opened c₀.rtoListRemove.st.rcvCore _ = _
        rw [rcv, opened]
      have state₂ : c₂.st.state = .finWait2 := congrArg RecvSide.state side
      refine Leads.after (.single ?_) (finWait1Rest_leads env seg c₂ (.inr state₂))
      rw [side]
      refine .aside _ nofun fun _ => ?_
      change c₁.st.state.receives = true
      rw [state₁]
      rfl
    · exact finWait1Rest_leads env seg c₁ (.inl state₁)
  · exact .refl c

theorem handleCloseWait_leads : c.Leads (c.handleCloseWait env seg) := by
  unfold handleCloseWait
  split
  · exact .of_eq (view_controlQueueAdd env c) (mem_controlQueueAdd env c)
  · exact processTcpAck_leads env seg c

theorem handleLastAck_leads : c.Leads (c.handleLastAck env seg) := by
  unfold handleLastAck
  split
  · exact .refl c
  split
  · refine (processTcpAck_leads env seg c).andThen fun _ => ?_
    split
    · exact .refl _
    split
    · exact .of_rcv rfl rfl rfl nofun nofun
    · exact .of_eq (view_controlQueueAdd env _) (mem_controlQueueAdd env _)
  · exact .of_eq (view_controlQueueAdd env c) (mem_controlQueueAdd env c)

theorem handleClosing_leads : c.Leads (c.handleClosing env seg) := by
  unfold handleClosing
  split
  · refine (processTcpAck_leads env seg c).andThen fun _ => ?_
    split
    · exact .refl _
    split
    · exact .refl _
    · refine Leads.congr ?_ (view_timewaitListAdd env _) (mem_timewaitListAdd env _)
      exact .of_rcv rfl rfl rfl nofun nofun
  · exact .refl c

theorem handleListen_leads (early : c.st.state.isSyn = true) :
    c.Leads (c.handleListen env seg) := by
  unfold handleListen
  split
  · refine Leads.congr ?_ (view_controlQueueAdd env _) (mem_controlQueueAdd env _)
    exact .move (.listened _ early)
  · exact .refl c

theorem handleSynSent_leads (early : c.st.state.isSyn = true) :
    c.Leads (c.handleSynSent env seg) := by
  unfold handleSynSent
  split
  · split
    · exact .refl c
    · exact .halted rfl
  dsimp only
  generalize counted : (if seg.ack then c.modify fun s => { s with sndUna := s.sndUna + 1 }
    else c) = c₁
  have side₁ : c₁.recvSide = c.recvSide := by
    rw [← counted]
    split
    · rfl
    · rfl
  have early₁ : c₁.st.state.isSyn = true := by
    rw [show c₁.st.state = c.st.state from congrArg RecvSide.state side₁]
    exact early
  have here : ∀ {c'}, c₁.Leads c' → c.Leads c' := fun second => by
    rw [Leads, ← side₁]
    exact second
  apply here
  split
  · split
    · split
      · refine Leads.congr ?_ (view_raiseEvent _ _) (mem_raiseEvent _ _)
        exact .of_rcv rfl rfl rfl nofun nofun
      · exact .of_rcv rfl rfl rfl nofun nofun
    · exact .refl _
  split
  · split
    · refine Leads.andThen ?_ fun _ => ?_
      · rcases handleActiveOpen_view seg c₁ with halted | ⟨st, core, rcv, view, -⟩
        · exact .halted halted
        · have opens : (c₁.handleActiveOpen env seg).mem = c₁.mem := by
            unfold handleActiveOpen
            dsimp only
            refine mem_andThen (by rw [mem_parseOptions, mem_modify]) ?_
            rw [mem_emit, mem_modify, mem_rtoListRemove, mem_modify, mem_parseOptions, mem_modify]
          have side : (c₁.handleActiveOpen env seg).recvSide =
              { c₁.recvSide with
                state := .established
                rcv := c₁.recvSide.rcv.synced seg.seq
                opened := st :: c₁.recvSide.opened } := by
            generalize c₁.handleActiveOpen env seg = c₂ at view opens
            unfold recvSide
            rw [show c₂.st.state = _ from congrArg (fun v : View => v.state) view,
              show c₂.st.rcvCore = _ from congrArg View.rcv view, congrArg View.opened view, opens]
            change RecvSide.mk _ _ st.rcvCore _ = _
            rw [rcv]
            rfl
          refine .move ?_
          rw [side]
          exact .synced seg.seq st early₁
      · split
        · refine .of_eq ?_ ?_
          · rw [view_timeoutListAdd, view_controlQueueAdd, view_raiseEvent]
          · rw [mem_timeoutListAdd, mem_controlQueueAdd, mem_raiseEvent]
        · exact .halted rfl
    · refine Leads.congr ?_ (view_controlQueueAdd env _) (mem_controlQueueAdd env _)
      exact .of_rcv rfl rfl rfl (fun _ => early₁) nofun
  · exact .refl _

theorem handleSynRcvd_leads (early : c.st.state.isSyn = true) :
    c.Leads (c.handleSynRcvd env seg) := by
  unfold handleSynRcvd
  split
  · split
    · exact .refl c
    dsimp only
    generalize entered : rtoListRemove (modify c _) = c₁
    have side₁ : c₁.view.opened = c.view.opened ∧ c₁.mem = c.mem ∧
        c₁.view.rcv = { c.view.rcv with rcvNxt := c.view.rcv.irs + 1 } := by
      rw [← entered, view_rtoListRemove, mem_rtoListRemove]
      exact ⟨rfl, rfl, rfl⟩
    obtain ⟨opened₁, mem₁, rcv₁⟩ := side₁
    generalize stamped : (c₁.modify fun s => { s with state := .established }) = c₂
    have side : (c₂.emit (.established c₂.st)).recvSide =
        { c.recvSide with
          state := .established
          rcv := { c.recvSide.rcv with rcvNxt := c.recvSide.rcv.irs + 1 }
          opened := c₂.st :: c.recvSide.opened } := by
      have here : (c₂.emit (.established c₂.st)).recvSide =
          ⟨.established, c₂.st :: c₁.view.opened, c₁.view.rcv, c₁.mem⟩ := by
        rw [← stamped]
        rfl
      rw [here, opened₁, mem₁, rcv₁]
      rfl
    have opens : RecvPath c.recvSide (c₂.emit (.established c₂.st)).recvSide := by
      rw [side]
      exact .single (.acked c₂.st early)
    generalize c₂.emit (.established c₂.st) = c₃ at opens
    refine .after opens ?_
    rcases raiseAcceptEvent_view env c₃ with halted | same | full
    · exact .halted halted
    · exact .of_eq same (mem_raiseAcceptEvent env _)
    · have closed : (c₃.raiseAcceptEvent env).st.state = .closed :=
        congrArg (fun v : View => v.state) full
      refine .of_rcv ?_ ?_ (mem_raiseAcceptEvent env _) ?_ ?_
      · rw [full]
        rfl
      · rw [full]
        rfl
      · rw [closed]
        nofun
      · rw [closed]
        nofun
  · refine Leads.congr ?_ (view_controlQueueAdd env _) (mem_controlQueueAdd env _)
    exact .of_rcv rfl rfl rfl id id

theorem handleRst_leads : c.Leads (c.handleRst seg) := by
  unfold handleRst
  split
  · split
    · exact .of_rcv rfl rfl rfl nofun nofun
    · exact .refl c
  · exact .of_rcv rfl rfl rfl nofun nofun
  · exact .of_rcv rfl rfl rfl nofun nofun
  · exact .of_rcv rfl rfl rfl nofun nofun
  · exact .of_rcv rfl rfl rfl nofun nofun
  · exact .of_rcv rfl rfl rfl nofun nofun
  · split
    · exact .refl c
    · refine Leads.congr ?_ (view_raiseEvent _ _) (mem_raiseEvent _ _)
      exact .of_rcv rfl rfl rfl nofun nofun

/-- **Every handler is a path of the receiving side.** -/
theorem handleSegment_leads : c.Leads (c.handleSegment env seg) := by
  unfold handleSegment
  cases state : c.st.state with
  | listen => exact handleListen_leads env seg c (by rw [state]; rfl)
  | synSent => exact handleSynSent_leads env seg c (by rw [state]; rfl)
  | synRcvd =>
      dsimp only
      split
      · exact handleListen_leads env seg c (by rw [state]; rfl)
      · refine (handleSynRcvd_leads env seg c (by rw [state]; rfl)).andThen fun _ => ?_
        split
        · rename_i carries
          exact handleEstablished_leads env seg _ carries.2
        · exact .refl _
  | established => exact handleEstablished_leads env seg c state
  | closeWait => exact handleCloseWait_leads env seg c
  | lastAck => exact handleLastAck_leads env seg c
  | finWait1 => exact handleFinWait1_leads env seg c state
  | finWait2 => exact handleFinWait2_leads env seg c state
  | closing => exact handleClosing_leads env seg c
  | timeWait =>
      refine .of_eq (handleTimeWait_view env c) ?_
      change (handleTimeWait env c).mem = _
      unfold handleTimeWait
      rw [mem_controlQueueAdd]
      split
      · rw [mem_timewaitListAdd, mem_timewaitListRemove]
      · rfl
  | closed => exact .refl c

theorem checkSequenceValidation_mem : (c.checkSequenceValidation env seg).2.mem = c.mem := by
  unfold checkSequenceValidation
  dsimp only
  split
  · rfl
  split
  · rfl
  split
  · split
    · exact mem_enqueueAck env c _
    · split
      · exact mem_enqueueAck env c _
      · exact mem_enqueueAck env c _
  · rw [mem_controlQueueAdd]
    split
    · exact mem_timewaitListAdd env c
    · rfl

theorem acceptSegment_leads : c.Leads (c.acceptSegment env seg) := by
  unfold acceptSegment
  dsimp only
  generalize entered : timeoutListUpdate env (modify c _) = c₁
  have side₁ : c₁.recvSide = c.recvSide := by
    rw [← entered]
    refine recvSide_eq ?_ ?_
    · rw [view_timeoutListUpdate, view_modify _ (by exact ⟨rfl, rfl⟩)]
    · rw [mem_timeoutListUpdate, mem_modify]
  generalize marked : (if seg.rst then c₁.modify fun s => { s with haveReset := true } else c₁) = c₂
  have side₂ : c₂.recvSide = c.recvSide := by
    rw [← side₁, ← marked]
    split
    · rfl
    · rfl
  rw [Leads, ← side₂]
  split
  · exact handleRst_leads seg c₂
  · exact handleSegment_leads env seg c₂

theorem validateSegment_leads : c.Leads (c.validateSegment env seg) := by
  unfold validateSegment
  split
  · have mem := checkSequenceValidation_mem env seg c
    rcases checkSequenceValidation_cases env seg c with ⟨passes, -⟩ | ⟨refused, view⟩
    · rw [passes]
      exact acceptSegment_leads env seg c
    · generalize c.checkSequenceValidation env seg = checked at refused view mem
      obtain ⟨passes, c'⟩ := checked
      dsimp only at refused view mem
      rw [refused]
      exact .of_eq view mem
  · exact acceptSegment_leads env seg c

/-- A segment fills in its mbuf, and the rest is a path. -/
theorem processSegment_leads : (c.receive seg).Leads (c.processSegment env seg) := by
  unfold processSegment
  dsimp only
  refine Leads.andThen ?_ fun _ => ?_
  · split
    · rcases parseOptions_cases env seg (c.receive seg) with hangs | ⟨o, parsed⟩
      · rw [hangs]
        exact .halted rfl
      · rw [parsed]
        exact .of_eq (view_modify _ (by exact ⟨rfl, rfl⟩)) rfl
    · exact .refl _
  · exact validateSegment_leads env seg _

/-- So is the SYN that opens a passive connection. -/
theorem passiveOpen_leads : (c.receive seg).Leads (c.passiveOpen env seg) := by
  unfold passiveOpen
  dsimp only
  generalize entered : modify (timeoutListAdd env (c.receive seg)) _ = c₁
  have view₁ : c₁.view = (c.receive seg).view := by
    rw [← entered, view_modify _ (by exact ⟨rfl, rfl⟩), view_timeoutListAdd]
  have mem₁ : c₁.mem = (c.receive seg).mem := by
    rw [← entered, mem_modify, mem_timeoutListAdd]
  refine Leads.andThen ?_ fun _ => ?_
  · rcases parseOptions_cases env seg c₁ with hangs | ⟨o, parsed⟩
    · rw [hangs]
      exact .halted rfl
    · rw [parsed]
      refine .of_eq ?_ ?_
      · rw [view_modify _ (by exact ⟨rfl, rfl⟩), view₁]
      · rw [mem_modify, mem₁]
  · exact acceptSegment_leads env seg _

/-- `q_recv` ends the process, does nothing, or reads. -/
theorem qRecv_reads :
    c.qRecv.view.halted = true ∨ c.qRecv.recvSide = c.recvSide ∨
      (c.st.state.isSyn = false ∧ c.qRecv.recvSide = c.recvSide.read) := by
  unfold qRecv
  split
  · exact .inr (.inl rfl)
  rename_i inside
  split
  · exact .inr (.inl rfl)
  generalize got : RcvMem.qRecv _ = result
  obtain ⟨id, w⟩ := result
  have read : w = c.recvSide.buffered.qRecv.2 := (congrArg Prod.snd got).symm
  dsimp only
  split
  · exact .inl rfl
  · have late : c.st.state.isSyn = false := by
      revert inside
      cases c.st.state <;> decide
    refine .inr (.inr ⟨late, ?_⟩)
    rw [RecvSide.read, ← read]
    rfl

end Handlers

/-! ## The services -/

section Services

variable (env : Env) (c : Cx)

@[simp] theorem mem_sendTcpControlPacket : (c.sendTcpControlPacket env).2.mem = c.mem := by
  unfold sendTcpControlPacket
  cases c.st.state with
  | synSent | established | closeWait | finWait2 | timeWait | lastAck | finWait1 =>
      exact mem_sendTcpPacket env c _ _ _
  | synRcvd => exact (mem_sendTcpPacket env _ _ _ _).trans (mem_modify c _)
  | closing =>
      dsimp only
      split
      · exact mem_sendTcpPacket env c _ _ _
      · exact mem_sendTcpPacket env c _ _ _
  | closed | listen => rfl

@[simp] theorem mem_writeTcpControlQueue : (c.writeTcpControlQueue env).mem = c.mem := by
  unfold writeTcpControlQueue
  split
  · rw [mem_sendTcpControlPacket, mem_modify]
  · rfl

theorem mem_flushLoop : ∀ (rounds packets : Nat) (c : Cx),
    (c.flushLoop env rounds packets).2.mem = c.mem
  | 0, _, _ => rfl
  | rounds + 1, packets, c => by
      unfold flushLoop
      dsimp only
      split
      · rfl
      generalize c.st.sndbuf.popWaiting = popped
      obtain ⟨m, b⟩ := popped
      cases m with
      | none => rfl
      | some m =>
          dsimp only
          split
          · exact mem_flushLoop rounds packets _
          split
          · unfold refuseOutOfWindow
            dsimp only
            rw [mem_sendEventAdd]
            split
            · exact mem_enqueueAck env _ _
            · rfl
          have sent := mem_sendTcpPacket env (c.setSndbuf b) { ack := true } (some m.id) m.payloadLen
          generalize (c.setSndbuf b).sendTcpPacket env { ack := true } (some m.id) m.payloadLen =
            result at sent
          obtain ⟨ret, c'⟩ := result
          dsimp only at sent ⊢
          split
          · exact sent
          · exact (mem_flushLoop rounds _ _).trans sent

@[simp] theorem mem_writeTcpSendQueue : (c.writeTcpSendQueue env).mem = c.mem := by
  have flushed : (c.flushTcpSendingBuffer env).2.mem = c.mem := by
    unfold flushTcpSendingBuffer
    split
    · rfl
    split
    · rfl
    · exact mem_flushLoop env _ _ c
  have ends : ∀ result : Int × Cx, result.2.mem = c.mem →
      (if result.1 ≤ 0 then result.2.controlQueueAdd env
        else (result.2.modify fun s => { s with
          onSendQueue := false, ackCnt := s.ackCnt - result.1.toNat }).releaseControlWaiting env
            (result.2.modify fun s => { s with
              onSendQueue := false, ackCnt := s.ackCnt - result.1.toNat }).st.onAckQueue).mem =
        c.mem := by
    intro result same
    split
    · rw [mem_controlQueueAdd, same]
    · rw [mem_releaseControlWaiting, mem_modify, same]
  unfold writeTcpSendQueue
  cases c.st.state with
  | established | closeWait | finWait1 | lastAck => exact ends _ flushed
  | closed | listen | synSent | synRcvd | finWait2 | closing | timeWait => exact ends (failed, c) rfl

theorem mem_sendAcks : ∀ (pending : Nat) (c : Cx), (c.sendAcks env pending).mem = c.mem
  | 0, _ => rfl
  | pending + 1, c => by
      have sent := mem_sendTcpPacket env c { ack := true } none 0
      unfold sendAcks
      generalize c.sendTcpPacket env { ack := true } none 0 = result at sent
      obtain ⟨ret, c'⟩ := result
      dsimp only at sent ⊢
      split
      · exact sent
      · exact (mem_sendAcks pending _).trans sent

@[simp] theorem mem_sendWack : (c.sendWack env).mem = c.mem := by
  unfold sendWack
  split
  · have sent := mem_sendTcpPacket env (c.modify fun s => { s with isWack := false })
      { ack := true, wack := true } none 0
    generalize (c.modify fun s => { s with isWack := false }).sendTcpPacket env
      { ack := true, wack := true } none 0 = result at sent
    obtain ⟨ret, c'⟩ := result
    dsimp only at sent ⊢
    split
    · exact sent
    · exact sent
  · rfl

@[simp] theorem mem_writeTcpAckQueue : (c.writeTcpAckQueue env).mem = c.mem := by
  unfold writeTcpAckQueue
  split
  · dsimp only
    rw [mem_releaseControlWaiting]
    generalize taken : c.modify _ = c₁
    have mem₁ : c₁.mem = c.mem := by
      rw [← taken]
      rfl
    cases c₁.st.state with
    | established | closeWait | finWait1 | finWait2 | timeWait =>
        exact (mem_sendWack env _).trans ((mem_sendAcks env _ c₁).trans mem₁)
    | closed | listen | synSent | synRcvd | closing | lastAck => exact mem₁
  · rfl

theorem mem_qTcpSend (m : SndMbuf) (len : U32) (highPri : Bool) :
    (c.qTcpSend env m len highPri).2.mem = c.mem := by
  have put : ∀ m, (c.sendFromUser m).2.mem = c.mem := by
    intro m
    unfold sendFromUser
    split
    · rfl
    dsimp only
    split
    · rfl
    · rfl
  unfold qTcpSend
  split
  · rfl
  dsimp only
  split
  · rfl
  split
  · rfl
  generalize ({ m with payloadLen := len.toNat % 2 ^ 16, priority := highPri } : SndMbuf) = m'
  have stored := put m'
  generalize c.sendFromUser m' = result at stored
  obtain ⟨ret, c'⟩ := result
  dsimp only at stored ⊢
  split
  · rw [mem_sendEventAdd, stored]
  · exact stored

theorem mem_tcpStreamClose : c.tcpStreamClose.2.mem = c.mem := by
  unfold tcpStreamClose
  split
  · rfl
  dsimp only
  split
  · rfl
  · rfl
  · rfl

theorem mem_handleCloseCall : (c.handleCloseCall env).mem = c.mem := by
  unfold handleCloseCall
  dsimp only
  split
  · split
    · rfl
    · rfl
  · split
    · rfl
    · rw [mem_controlQueueAdd, mem_modify, mem_modify]
    · rw [mem_controlQueueAdd, mem_modify, mem_modify]
    · rw [mem_controlQueueAdd, mem_modify]

theorem mem_rtoListCheck : (c.rtoListCheck env).mem = c.mem := by
  have handled : ∀ c' : Cx, (c'.handleRto env).mem = c'.mem := by
    intro c'
    unfold handleRto
    split
    · dsimp only
      split
      · rw [mem_sendEventAdd]
        rfl
      all_goals first
        | (split
           · rfl
           · split
             · rw [mem_sendEventAdd]
               rfl
             · rw [mem_controlQueueAdd]
               rfl)
        | (rw [mem_controlQueueAdd]
           rfl)
    · rfl
  unfold rtoListCheck
  rw [handled, mem_emit, mem_modify]

end Services

end Cx

/-! ## A call -/

/-- The receiving side of a stream that was just created. -/
def RecvSide.created (rcvbufSize : Nat) (seq : Seq) : RecvSide :=
  ({ st := tcpStreamCreate rcvbufSize 0 seq 0 } : Cx).recvSide

namespace Conn

section Beginning

variable (rcvbufSize sndbufSize : Nat) (iss : Seq) (env : Env)

theorem passive_leads (seg : Segment) :
    (passive rcvbufSize sndbufSize iss env seg).view.halted = true ∨
      RecvPath ((RecvSide.created rcvbufSize seg.seq).receive seg)
        (passive rcvbufSize sndbufSize iss env seg).cx.recvSide :=
  Cx.passiveOpen_leads env seg { st := tcpStreamCreate rcvbufSize sndbufSize seg.seq iss }

theorem active_leads : RecvPath (RecvSide.created rcvbufSize 0)
    (active rcvbufSize sndbufSize iss env).cx.recvSide := by
  have side : (active rcvbufSize sndbufSize iss env).cx.recvSide =
      { RecvSide.created rcvbufSize 0 with state := .synSent } := by
    unfold active Cx.handleConnectCall
    rw [Cx.recvSide_eq (Cx.view_controlQueueAdd env _) (Cx.mem_controlQueueAdd env _)]
    rfl
  rw [side]
  exact .single (.aside .synSent (fun _ => rfl) nofun)

end Beginning

/-- The receiving side as the handlers find it. -/
def entered (s : Conn) (e : ConnEvent) : RecvSide :=
  match e.call with
  | .packet seg => s.cx.recvSide.receive seg
  | _ => s.cx.recvSide

/-- Only segments and `q_recv` touch the memory of received mbufs. -/
theorem serve_mem (s : Conn) (e : ConnEvent)
    (other : (∀ seg, e.call ≠ .packet seg) ∧ e.call ≠ .recv) : (s.serve e).cx.mem = s.cx.mem := by
  have entry : (s.entry e).mem = s.cx.mem := rfl
  unfold serve
  dsimp only
  cases call : e.call with
  | packet seg => exact absurd call (other.1 seg)
  | recv => exact absurd call other.2
  | send len highPri => exact Cx.mem_qTcpSend e.env (s.entry e) _ len highPri
  | close => exact Cx.mem_tcpStreamClose (s.entry e)
  | handleClose =>
      dsimp only
      split
      · exact Cx.mem_handleCloseCall e.env (s.entry e)
      · rfl
  | serveControl => exact Cx.mem_writeTcpControlQueue e.env (s.entry e)
  | serveSend =>
      dsimp only
      split
      · exact Cx.mem_writeTcpSendQueue e.env (s.entry e)
      · rfl
  | serveAck => exact Cx.mem_writeTcpAckQueue e.env (s.entry e)
  | rto =>
      dsimp only
      split
      · exact Cx.mem_rtoListCheck e.env (s.entry e)
      · rfl
  | timewait =>
      dsimp only
      split
      · rfl
      · rfl
  | timeout =>
      dsimp only
      split
      · rfl
      · rfl

/-- The other calls do not reach the variables of the receiving side. -/
theorem Move.aside {s : Conn} {call : ConnCall} {v : View} (move : Move s call v)
    (other : (∀ seg, call ≠ .packet seg) ∧ call ≠ .recv) :
    v.rcv = s.view.rcv ∧ v.opened = s.view.opened ∧
      (v.state.isSyn = true → s.view.state.isSyn = true) ∧
      (v.state.receives = true → s.view.state.receives = true) := by
  cases move with
  | same => exact ⟨rfl, rfl, id, id⟩
  | syn | data => exact absurd rfl (other.1 _)
  | received => exact absurd rfl other.2
  | put => exact ⟨rfl, rfl, id, id⟩
  | closed _ move =>
      cases move with
      | same => exact ⟨rfl, rfl, id, id⟩
      | reset => exact ⟨rfl, rfl, nofun, nofun⟩
      | closing =>
          refine ⟨rfl, rfl, ?_, ?_⟩
          · change s.view.state.afterClose.isSyn = true → _
            cases s.view.state <;> decide
          · change s.view.state.afterClose.receives = true → _
            cases s.view.state <;> decide
  | control _ move =>
      cases move with
      | same | syn | rewound | synAck | fin => exact ⟨rfl, rfl, id, id⟩
  | flushed _ _ _ _ flushed =>
      rw [flushed.frame]
      exact ⟨rfl, rfl, id, id⟩
  | rto _ move =>
      cases move with
      | lost => exact ⟨rfl, rfl, nofun, nofun⟩
      | retransmit | control => exact ⟨rfl, rfl, id, id⟩
  | expired => exact ⟨rfl, rfl, nofun, nofun⟩

/-- **Every call is a path of the receiving side or a read, or ends the process.** -/
theorem serve_leads (s : Conn) (e : ConnEvent) :
    (s.serve e).view.halted = true ∨ RecvPath (s.entered e) (s.serve e).cx.recvSide ∨
      (s.st.state.isSyn = false ∧ (s.serve e).cx.recvSide = s.cx.recvSide.read) := by
  cases call : e.call with
  | packet seg =>
      have path := Cx.processSegment_leads e.env seg (s.entry e)
      unfold serve entered
      dsimp only
      rw [call]
      exact path.imp_right .inl
  | recv =>
      have reads := Cx.qRecv_reads (s.entry e)
      unfold serve entered
      dsimp only
      rw [call]
      rcases reads with halted | same | read
      · exact .inl halted
      · refine .inr (.inl ?_)
        dsimp only
        rw [same]
        exact .refl
      · exact .inr (.inr read)
  | send | close | handleClose | serveControl | serveSend | serveAck | rto | timewait | timeout =>
      have other : (∀ seg, e.call ≠ .packet seg) ∧ e.call ≠ .recv := by simp [call]
      have same : s.entered e = s.cx.recvSide := by simp [entered, call]
      rcases serve_move s e with halted | move
      · exact .inl halted
      · obtain ⟨rcv, opened, syn, receives⟩ := move.aside other
        rw [same]
        exact (Cx.Leads.of_rcv rcv opened (serve_mem s e other) syn receives).imp_right .inl

end Conn

end QStack
