/-
# QStack.ArpNetwork -- hosts that ask each other for their addresses

A network is the hosts and every frame that was ever sent.  An event delivers any of these frames to
any host, so frames are lost, repeated, overtaken and heard by hosts they are not for; or it makes a
host ask for an address.

`arp_truthful` is the safety of the protocol over every run: a table holds nothing but the first
address of some host with the MAC address of that host, and an answer is only ever sent to a host
that asked for one of the addresses of the host that answers.  `arp_resolves` is the progress: a
question that is delivered, and whose answer is delivered, is settled for ever.

An answer names the first address of the host that answers, whichever was asked for.  The
configuration sets `eths_num` to 1, so there is no other.
-/
import QStack.Arp

namespace QStack

set_option autoImplicit false

namespace Arp

/-- The hosts, and the frames sent so far -/
structure Net (Host : Type) where
  hosts : Host → ArpState
  sent : List ArpFrame

inductive Event (Host : Type) where
  | request (h : Host) (ip : UInt32) (nif : Int) (curTs : UInt32) (mbuf : Bool)
  /-- `h` hears the frame at `k`. -/
  | deliver (h : Host) (k : Nat) (curTs : UInt32) (mbuf mem : Bool)

namespace Net

variable {Host : Type} [DecidableEq Host]

def start : Net Host where
  hosts := fun _ => arpInit
  sent := []

/-- `h` serves a call. -/
def serve (eths : Host → Eths) (net : Net Host) (h : Host) (call : Call) : Net Host where
  hosts := Function.update net.hosts h (Arp.serve (eths h) (net.hosts h) call).1
  sent := net.sent ++ (Arp.serve (eths h) (net.hosts h) call).2.toList

/-- A frame goes through `process_eth_packet`. -/
def step (eths : Host → Eths) (net : Net Host) : Event Host → Net Host
  | .request h ip nif curTs mbuf => net.serve eths h (.request ip nif curTs mbuf)
  | .deliver h k curTs mbuf mem =>
      match net.sent[k]? with
      | some f =>
          if htons f.hProto = ethPArpWord then net.serve eths h (.packet curTs mbuf mem f.arph)
          else net
      | none => net

/-! ## Safety -/

/-- `owner` asks everybody for `ip`. -/
def Asks (eths : Host → Eths) (owner : Host) (ip : UInt32) (f : ArpFrame) : Prop :=
  f = arpFrame (eths owner) arpOpRequest ip broadcastMac

/-- `owner` answers a question of `asker` for one of its addresses. -/
def Answers (eths : Host → Eths) (owner asker : Host) (ip : UInt32) (f : ArpFrame) : Prop :=
  (∃ eth ∈ (eths owner).all, ip = eth.ipAddr) ∧ ip ≠ inaddrLoopback ∧
    f = arpFrame (eths owner) arpOpReply (eths asker).eth0.ipAddr (eths asker).eth0.haddr

/-- Tables hold what is so, and every answer has its question. -/
structure Truthful (eths : Host → Eths) (net : Net Host) : Prop where
  tables : ∀ h i, ∀ entry ∈ (net.hosts h).arpTables i, ∃ owner : Host,
    entry.ip = (eths owner).eth0.ipAddr ∧ entry.haddr = (eths owner).eth0.haddr
  frames : ∀ (k : Nat) (f : ArpFrame), net.sent[k]? = some f → ∃ owner : Host,
    (∃ ip, Asks eths owner ip f) ∨
      ∃ asker ip, Answers eths owner asker ip f ∧
        ∃ (j : Nat) (g : ArpFrame), j < k ∧ net.sent[j]? = some g ∧ Asks eths asker ip g

/-! ### What a host does with one call -/

end Net

theorem registerArpEntry_mem {s : ArpState} {ip curTs : UInt32} {haddr : Mac} {mem : Bool}
    {i : Nat} {entry : ArpEntry}
    (inside : entry ∈ (s.registerArpEntry ip haddr curTs mem).2.arpTables i) :
    entry ∈ s.arpTables i ∨ (entry.ip = ip ∧ entry.haddr = haddr) := by
  rw [ArpState.registerArpEntry] at inside
  dsimp only at inside
  cases search : (s.arpTables (arpHash ip)).findIdx? fun entry => decide (entry.ip = ip) with
  | some k =>
      rw [search] at inside
      obtain ⟨_, found, -⟩ := List.findIdx?_eq_some_iff_getElem.mp search
      by_cases here : i = arpHash ip
      · subst here
        dsimp only at inside
        rw [Function.update_self] at inside
        obtain ⟨j, bound, rfl⟩ := List.mem_iff_getElem.mp inside
        rw [List.getElem_modify]
        split
        · next same =>
            subst same
            exact Or.inr ⟨by simpa using found, rfl⟩
        · exact Or.inl (List.getElem_mem _)
      · dsimp only at inside
        rw [Function.update_of_ne here] at inside
        exact Or.inl inside
  | none =>
      rw [search] at inside
      cases mem with
      | false => exact Or.inl inside
      | true =>
          by_cases here : i = arpHash ip
          · subst here
            rw [if_pos rfl] at inside
            dsimp only at inside
            rw [Function.update_self] at inside
            rcases List.mem_cons.mp inside with rfl | old
            · exact Or.inr ⟨rfl, rfl⟩
            · exact Or.inl old
          · rw [if_pos rfl] at inside
            dsimp only at inside
            rw [Function.update_of_ne here] at inside
            exact Or.inl inside

/-- An entry is an old one, or what a packet says of its sender. -/
theorem step_tables {eths : Eths} {s : ArpState} {call : Call} {i : Nat} {entry : ArpEntry}
    (inside : entry ∈ (step eths s call).arpTables i) :
    entry ∈ s.arpTables i ∨ ∃ curTs mbuf mem arph, call = .packet curTs mbuf mem arph ∧
      entry.ip = arph.arSip ∧ entry.haddr = arph.arSha := by
  cases call with
  | request ip nif curTs mbuf =>
      rw [step, serve, ArpState.requestArp] at inside
      split at inside <;> exact Or.inl inside
  | packet curTs mbuf mem arph =>
      rw [step, serve, processArpPacket_state] at inside
      split at inside
      · rcases registerArpEntry_mem inside with old | new
        · split at old <;> exact Or.inl old
        · exact Or.inr ⟨curTs, mbuf, mem, arph, rfl, new⟩
      · exact Or.inl inside

theorem arpOutput_some {eths : Eths} {mbuf : Bool} {opcode : UInt16} {ip : UInt32} {haddr : Mac}
    {f : ArpFrame} (out : arpOutput eths mbuf opcode ip haddr = some f) :
    f = arpFrame eths opcode ip haddr := by
  rw [arpOutput] at out
  split at out
  · exact (Option.some.inj out).symm
  · cases out

/-- A frame is a request that was asked for, or the answer to one. -/
theorem serve_frame {eths : Eths} {s : ArpState} {call : Call} {f : ArpFrame}
    (out : (serve eths s call).2 = some f) :
    (∃ ip, f = arpFrame eths arpOpRequest ip broadcastMac) ∨
      ∃ curTs mbuf mem arph, call = .packet curTs mbuf mem arph ∧
        arph.arTip ≠ inaddrLoopback ∧ htons arph.arOp = arpOpRequest ∧ arph.toMe eths = true ∧
        f = arpFrame eths arpOpReply arph.arSip arph.arSha := by
  cases call with
  | request ip nif curTs mbuf =>
      rw [serve, ArpState.requestArp] at out
      split at out
      · cases out
      · exact Or.inl ⟨ip, arpOutput_some out⟩
  | packet curTs mbuf mem arph =>
      rw [serve, ArpState.processArpPacket] at out
      split at out
      · cases out
      · split at out
        · cases out
        · next notLoopback =>
            dsimp only at out
            split at out
            · next asked =>
                exact Or.inr ⟨curTs, mbuf, mem, arph, rfl, notLoopback, asked.1, asked.2,
                  arpOutput_some out⟩
            · cases out

theorem toMe_iff (eths : Eths) (arph : ArpHdr) :
    arph.toMe eths = true ↔ ∃ eth ∈ eths.all, arph.arTip = eth.ipAddr := by
  simp [ArpHdr.toMe]

namespace Net

variable {Host : Type} [DecidableEq Host] {eths : Host → Eths} {net : Net Host}

/-! ### Every step keeps it -/

@[simp] theorem serve_self (h : Host) (call : Call) :
    (net.serve eths h call).hosts h = Arp.step (eths h) (net.hosts h) call :=
  Function.update_self _ _ _

theorem serve_other {h other : Host} (ne : other ≠ h) (call : Call) :
    (net.serve eths h call).hosts other = net.hosts other :=
  Function.update_of_ne ne _ _

omit [DecidableEq Host] in
/-- Every frame names the first address of the host it comes from. -/
theorem Truthful.sender (truthful : net.Truthful eths) {k : Nat} {f : ArpFrame}
    (sent : net.sent[k]? = some f) : ∃ owner : Host,
      f.arph.arSip = (eths owner).eth0.ipAddr ∧ f.arph.arSha = (eths owner).eth0.haddr := by
  obtain ⟨owner, ⟨ip, rfl⟩ | ⟨asker, ip, ⟨_, _, rfl⟩, _⟩⟩ := truthful.frames k f sent
  · exact ⟨owner, rfl, rfl⟩
  · exact ⟨owner, rfl, rfl⟩

omit [DecidableEq Host] in
/-- A frame that is a request is somebody's question. -/
theorem Truthful.question (truthful : net.Truthful eths) {k : Nat} {f : ArpFrame}
    (sent : net.sent[k]? = some f) (request : htons f.arph.arOp = arpOpRequest) :
    ∃ asker : Host, Asks eths asker f.arph.arTip f := by
  obtain ⟨owner, ⟨ip, rfl⟩ | ⟨asker, ip, ⟨_, _, rfl⟩, _⟩⟩ := truthful.frames k f sent
  · exact ⟨owner, rfl⟩
  · exact absurd request (by decide : htons (htons arpOpReply) ≠ arpOpRequest)

theorem Truthful.serve (truthful : net.Truthful eths) (h : Host) {call : Call}
    (heard : ∀ curTs mbuf mem arph, call = .packet curTs mbuf mem arph →
      ∃ (k : Nat) (f : ArpFrame), net.sent[k]? = some f ∧ f.arph = arph) :
    (net.serve eths h call).Truthful eths where
  tables := by
    intro other i entry inside
    by_cases same : other = h
    · subst same
      rw [serve_self] at inside
      rcases step_tables inside with old | ⟨curTs, mbuf, mem, arph, isPacket, ip, haddr⟩
      · exact truthful.tables other i entry old
      · obtain ⟨k, f, sent, rfl⟩ := heard _ _ _ _ isPacket
        obtain ⟨owner, sip, sha⟩ := truthful.sender sent
        exact ⟨owner, ip.trans sip, haddr.trans sha⟩
    · rw [serve_other same] at inside
      exact truthful.tables other i entry inside
  frames := by
    intro k f sent
    rw [Net.serve] at sent ⊢
    dsimp only at sent ⊢
    by_cases old : k < net.sent.length
    · rw [List.getElem?_append_left old] at sent
      obtain ⟨owner, question | ⟨asker, ip, answers, j, g, before, sentJ, asks⟩⟩ :=
        truthful.frames k f sent
      · exact ⟨owner, Or.inl question⟩
      · refine ⟨owner, Or.inr ⟨asker, ip, answers, j, g, before, ?_, asks⟩⟩
        rwa [List.getElem?_append_left (before.trans old)]
    · rw [List.getElem?_append_right (Nat.le_of_not_lt old)] at sent
      have out : (Arp.serve (eths h) (net.hosts h) call).2 = some f :=
        Option.mem_toList.mp (List.mem_of_getElem? sent)
      rcases serve_frame out with ⟨ip, rfl⟩ |
        ⟨curTs, mbuf, mem, arph, isPacket, notLoopback, request, toMe, rfl⟩
      · exact ⟨h, Or.inl ⟨ip, rfl⟩⟩
      · obtain ⟨j, g, sentJ, rfl⟩ := heard _ _ _ _ isPacket
        obtain ⟨asker, asks⟩ := truthful.question sentJ request
        have before : j < net.sent.length := (List.getElem?_eq_some_iff.mp sentJ).1
        refine ⟨h, Or.inr ⟨asker, g.arph.arTip, ⟨?_, notLoopback, ?_⟩, j, g, ?_, ?_, asks⟩⟩
        · exact (toMe_iff _ _).mp toMe
        · rw [asks]
          rfl
        · exact before.trans_le (Nat.le_of_not_lt old)
        · rwa [List.getElem?_append_left before]

omit [DecidableEq Host] in
theorem start_truthful (eths : Host → Eths) : (start : Net Host).Truthful eths where
  tables := fun _ _ _ inside => absurd inside List.not_mem_nil
  frames := fun _ _ sent => by cases sent

theorem Truthful.step (truthful : net.Truthful eths) (event : Event Host) :
    (net.step eths event).Truthful eths := by
  cases event with
  | request h ip nif curTs mbuf => exact truthful.serve h fun _ _ _ _ eq => by cases eq
  | deliver h k curTs mbuf mem =>
      rw [Net.step]
      cases sent : net.sent[k]? with
      | none => exact truthful
      | some f =>
          dsimp only
          split
          · exact truthful.serve h fun _ _ _ _ eq => by
              cases eq
              exact ⟨k, f, sent, rfl⟩
          · exact truthful

theorem run_truthful (eths : Host → Eths) (events : List (Event Host)) :
    (Lib.Run.run (step eths) start events).Truthful eths := by
  induction events using List.reverseRecOn with
  | nil => exact start_truthful eths
  | append_singleton events event ih =>
      rw [Lib.Run.run_append]
      exact ih.step event

/-- Over every run of the network, whatever is lost, repeated or overtaken, the tables hold nothing
but first addresses with the MAC addresses of their hosts, every frame is a question or the answer
of the host asked to a question sent before, and the entry for an address that one MAC address
stands for has that one. -/
theorem arp_truthful (eths : Host → Eths) (events : List (Event Host)) :
    (Lib.Run.run (step eths) start events).Truthful eths ∧
      ∀ owner : Host,
        (∀ other : Host, (eths other).eth0.ipAddr = (eths owner).eth0.ipAddr →
          (eths other).eth0.haddr = (eths owner).eth0.haddr) →
        ∀ h i, ∀ entry ∈ ((Lib.Run.run (step eths) start events).hosts h).arpTables i,
          entry.ip = (eths owner).eth0.ipAddr → entry.haddr = (eths owner).eth0.haddr := by
  have truthful := run_truthful eths events
  refine ⟨truthful, fun owner unique h i entry inside isIp => ?_⟩
  obtain ⟨other, ip, haddr⟩ := truthful.tables h i entry inside
  exact haddr.trans (unique other (ip.symm.trans isIp))

/-! ## Progress -/

/-- Every host is in order. -/
def Ordered (net : Net Host) : Prop :=
  ∀ h, (∃ known, Holds (net.hosts h) known) ∧ ∃ waiting, Awaits (net.hosts h) waiting

/-- There is an entry for `ip`. -/
def Present (s : ArpState) (ip : UInt32) : Prop := ip ∈ (s.arpTables (arpHash ip)).map ArpEntry.ip

theorem present_iff {s : ArpState} {known : UInt32 → Option (Mac × UInt32)} (holds : Holds s known)
    (ip : UInt32) : Present s ip ↔ (known ip).isSome = true := by
  rw [Present, List.mem_map, Option.isSome_iff_exists]
  constructor
  · rintro ⟨entry, inside, isIp⟩
    exact ⟨_, (holds.known_iff ip _ _).mpr ⟨entry, inside, isIp, rfl, rfl⟩⟩
  · rintro ⟨v, value⟩
    obtain ⟨entry, inside, isIp, -⟩ := (holds.known_iff ip v.1 v.2).mp value
    exact ⟨entry, inside, isIp⟩

theorem heed_isSome {known : UInt32 → Option (Mac × UInt32)} {ip : UInt32}
    (present : (known ip).isSome = true) (call : Call) : (heed known call ip).isSome = true := by
  cases call with
  | request => exact present
  | packet curTs mbuf mem arph =>
      rw [heed]
      split
      · rw [learn]
        split
        · by_cases same : ip = arph.arSip
          · subst same
            rw [Function.update_self]
            rfl
          · rwa [Function.update_of_ne same]
        · exact present
      · exact present

/-- What holds of a state and is kept by every call holds after every event. -/
theorem step_keeps {P : Net Host → Prop} (kept : ∀ net h call, P net → P (net.serve eths h call))
    (holds : P net) (event : Event Host) : P (net.step eths event) := by
  cases event with
  | request h ip nif curTs mbuf => exact kept net h _ holds
  | deliver h k curTs mbuf mem =>
      rw [Net.step]
      split
      · split
        · exact kept net h _ holds
        · exact holds
      · exact holds

theorem run_keeps {P : Net Host → Prop} (kept : ∀ net h call, P net → P (net.serve eths h call)) :
    ∀ (events : List (Event Host)) (net : Net Host), P net → P (Lib.Run.run (step eths) net events)
  | [], _, holds => holds
  | event :: events, _, holds => run_keeps kept events _ (step_keeps kept holds event)

theorem serve_ordered (net : Net Host) (h : Host) (call : Call) (ordered : net.Ordered) :
    (net.serve eths h call).Ordered := by
  intro other
  by_cases same : other = h
  · subst same
    obtain ⟨⟨known, holds⟩, waiting, awaits⟩ := ordered other
    rw [serve_self]
    exact ⟨⟨_, holds.step (eths other) call⟩, _, awaits.step (eths other) call⟩
  · rw [serve_other same]
    exact ordered other

omit [DecidableEq Host] in
theorem start_ordered : (start : Net Host).Ordered := fun _ =>
  ⟨⟨_, arpInit_holds⟩, fun _ => False, List.nodup_nil, fun _ => by simp [start, arpInit]⟩

/-- A frame is not lost from `sent`, and a host forgets nobody. -/
theorem serve_keeps {h : Host} {ip : UInt32} (net : Net Host) (other : Host) (call : Call)
    (held : net.Ordered ∧ Present (net.hosts h) ip) :
    (net.serve eths other call).Ordered ∧ Present ((net.serve eths other call).hosts h) ip := by
  refine ⟨serve_ordered net other call held.1, ?_⟩
  by_cases same : h = other
  · subst same
    obtain ⟨⟨known, holds⟩, -⟩ := held.1 h
    rw [serve_self, present_iff (holds.step (eths h) call)]
    exact heed_isSome ((present_iff holds ip).mp held.2) call
  · rw [serve_other same]
    exact held.2

theorem serve_sent {k : Nat} {f : ArpFrame} (net : Net Host) (other : Host) (call : Call)
    (sent : net.sent[k]? = some f) : (net.serve eths other call).sent[k]? = some f := by
  rw [Net.serve]
  dsimp only
  rwa [List.getElem?_append_left (List.getElem?_eq_some_iff.mp sent).1]

/-- A frame that is well formed reaches the host, and its sender is learnt. -/
theorem deliver_present {h : Host} {k : Nat} {f : ArpFrame} {curTs : UInt32} {mbuf : Bool}
    (ordered : net.Ordered) (sent : net.sent[k]? = some f) (isArp : htons f.hProto = ethPArpWord)
    (pass : accepted f.arph = true) {ip : UInt32} (sender : f.arph.arSip = ip) :
    Present ((net.step eths (.deliver h k curTs mbuf true)).hosts h) ip := by
  subst sender
  obtain ⟨⟨known, holds⟩, -⟩ := ordered h
  rw [Net.step, sent]
  dsimp only
  rw [if_pos isArp, serve_self, present_iff (holds.step (eths h) _), heed, if_pos pass, learn,
    if_pos (Or.inl rfl), Function.update_self]
  rfl

theorem deliver_settles {h : Host} {k : Nat} {f : ArpFrame} {curTs : UInt32} {mbuf mem : Bool}
    (ordered : net.Ordered) (sent : net.sent[k]? = some f) (isArp : htons f.hProto = ethPArpWord)
    (pass : accepted f.arph = true) (reply : htons f.arph.arOp = arpOpReply) {ip : UInt32}
    (sender : f.arph.arSip = ip) :
    ip ∉ ((net.step eths (.deliver h k curTs mbuf mem)).hosts h).list.map ArpQueueEntry.ip := by
  subst sender
  obtain ⟨-, waiting, awaits⟩ := ordered h
  rw [Net.step, sent]
  dsimp only
  rw [if_pos isArp, serve_self, (awaits.step (eths h) _).pending_iff, await, asks,
    if_pos ⟨pass, reply, rfl⟩]
  exact Bool.false_ne_true

theorem request_sends {h : Host} {ip : UInt32} {nif : Int} {curTs : UInt32}
    (free : ip ∉ (net.hosts h).list.map ArpQueueEntry.ip) :
    (net.step eths (.request h ip nif curTs true)).sent =
      net.sent ++ [arpFrame (eths h) arpOpRequest ip broadcastMac] := by
  rw [Net.step, Net.serve, Arp.serve, ArpState.requestArp, if_neg]
  · rfl
  · intro pending
    apply free
    obtain ⟨ent, inside, isIp⟩ := List.any_eq_true.mp pending
    exact List.mem_map.mpr ⟨ent, inside, of_decide_eq_true isIp⟩

omit [DecidableEq Host] in
theorem accepted_frame {eths : Eths} {opcode : UInt16} {ip : UInt32} {haddr : Mac}
    (notLoopback : ip ≠ inaddrLoopback) :
    accepted (arpFrame eths opcode ip haddr).arph = true := by
  rw [accepted, Bool.and_eq_true]
  exact ⟨rfl, decide_eq_true notLoopback⟩

omit [DecidableEq Host] in
theorem frame_isArp (eths : Eths) (opcode : UInt16) (ip : UInt32) (haddr : Mac) :
    htons (arpFrame eths opcode ip haddr).hProto = ethPArpWord :=
  (by decide : htons (htons ethPArpWord) = ethPArpWord)

omit [DecidableEq Host] in
theorem processArpPacket_answer {eths : Eths} {arph : ArpHdr} (pass : accepted arph = true)
    (request : htons arph.arOp = arpOpRequest) (toMe : arph.toMe eths = true) (s : ArpState)
    (curTs : UInt32) (mem : Bool) :
    (s.processArpPacket eths curTs true mem arph).2.2 =
      some (arpFrame eths arpOpReply arph.arSip arph.arSha) := by
  rw [accepted, Bool.and_eq_true] at pass
  rw [ArpState.processArpPacket, pass.1, if_neg (by decide), if_neg (of_decide_eq_true pass.2)]
  dsimp only
  rw [if_pos ⟨request, toMe⟩]
  rfl

theorem deliver_answers {h asker : Host} {ip : UInt32} {k : Nat} {curTs : UInt32} {mem : Bool}
    (sent : net.sent[k]? = some (arpFrame (eths asker) arpOpRequest ip broadcastMac))
    (mine : ∃ eth ∈ (eths h).all, ip = eth.ipAddr) (notLoopback : ip ≠ inaddrLoopback) :
    (net.step eths (.deliver h k curTs true mem)).sent =
      net.sent ++ [arpFrame (eths h) arpOpReply (eths asker).eth0.ipAddr
        (eths asker).eth0.haddr] := by
  have toMe :=
    (toMe_iff (eths h) (arpFrame (eths asker) arpOpRequest ip broadcastMac).arph).mpr mine
  have answer := processArpPacket_answer (accepted_frame notLoopback)
    (by decide : htons (htons arpOpRequest) = arpOpRequest) toMe (net.hosts h) curTs mem
  rw [Net.step, sent]
  dsimp only
  rw [if_pos (frame_isArp _ _ _ _), Net.serve, Arp.serve, answer]
  rfl

/-- The entry for the first address of `other` is there, and has its MAC address. -/
def Knows (eths : Host → Eths) (s : ArpState) (other : Host) : Prop :=
  ∃ entry ∈ s.arpTables (arpHash (eths other).eth0.ipAddr),
    entry.ip = (eths other).eth0.ipAddr ∧ entry.haddr = (eths other).eth0.haddr

omit [DecidableEq Host] in
theorem Truthful.knows (truthful : net.Truthful eths)
    (apart : ∀ one two : Host, (eths one).eth0.ipAddr = (eths two).eth0.ipAddr → one = two)
    {h other : Host} (present : Present (net.hosts h) (eths other).eth0.ipAddr) :
    Knows eths (net.hosts h) other := by
  obtain ⟨entry, inside, isIp⟩ := List.mem_map.mp present
  obtain ⟨owner, ip, haddr⟩ := truthful.tables h _ entry inside
  obtain rfl := apart owner other (ip.symm.trans isIp)
  exact ⟨entry, inside, isIp, haddr⟩

theorem run_ordered (ordered : net.Ordered) (eths : Host → Eths) (events : List (Event Host)) :
    (Lib.Run.run (step eths) net events).Ordered :=
  run_keeps serve_ordered events net ordered

/-- The question goes out, and stays. -/
theorem asked_question {asker : Host} {ip : UInt32} {nif : Int} {curTs : UInt32}
    (free : ip ∉ (net.hosts asker).list.map ArpQueueEntry.ip) (between : List (Event Host)) :
    (Lib.Run.run (step eths) net (.request asker ip nif curTs true :: between)).sent[
      net.sent.length]? = some (arpFrame (eths asker) arpOpRequest ip broadcastMac) := by
  show (Lib.Run.run (step eths) (net.step eths (.request asker ip nif curTs true)) between).sent[
    net.sent.length]? = _
  apply run_keeps serve_sent between
  rw [request_sends free, List.getElem?_append_right (le_refl _), Nat.sub_self]
  rfl

/-- So does the answer. -/
theorem answered_answer {owner asker : Host} {ip : UInt32} {k : Nat} {curTs : UInt32} {mem : Bool}
    (sent : net.sent[k]? = some (arpFrame (eths asker) arpOpRequest ip broadcastMac))
    (mine : ∃ eth ∈ (eths owner).all, ip = eth.ipAddr) (notLoopback : ip ≠ inaddrLoopback)
    (later : List (Event Host)) :
    (Lib.Run.run (step eths) (net.step eths (.deliver owner k curTs true mem)) later).sent[
      net.sent.length]? =
        some (arpFrame (eths owner) arpOpReply (eths asker).eth0.ipAddr
          (eths asker).eth0.haddr) := by
  apply run_keeps serve_sent later
  rw [deliver_answers sent mine notLoopback, List.getElem?_append_right (le_refl _), Nat.sub_self]
  rfl

theorem run_present {h : Host} {ip : UInt32} (ordered : net.Ordered)
    (present : Present (net.hosts h) ip) (eths : Host → Eths) (events : List (Event Host)) :
    Present ((Lib.Run.run (step eths) net events).hosts h) ip :=
  (run_keeps (P := fun net => net.Ordered ∧ Present (net.hosts h) ip) serve_keeps events net
    ⟨ordered, present⟩).2

/-- The two deliveries, in any state in which the question is on its way. -/
theorem exchange_settles {owner asker : Host} {ip : UInt32} {k : Nat} (ordered : net.Ordered)
    (sent : net.sent[k]? = some (arpFrame (eths asker) arpOpRequest ip broadcastMac))
    (mine : ∃ eth ∈ (eths owner).all, ip = eth.ipAddr) (notLoopback : ip ≠ inaddrLoopback)
    (askerNotLoopback : (eths asker).eth0.ipAddr ≠ inaddrLoopback) (later : List (Event Host))
    {curTs curTs' : UInt32} {mbuf : Bool} {learnt : Net Host}
    (isLearnt : learnt = (Lib.Run.run (step eths)
      (net.step eths (.deliver owner k curTs true true)) later).step eths
        (.deliver asker net.sent.length curTs' mbuf true)) :
    (eths owner).eth0.ipAddr ∉ (learnt.hosts asker).list.map ArpQueueEntry.ip ∧
      learnt.Ordered ∧ Present (learnt.hosts asker) (eths owner).eth0.ipAddr ∧
        Present (learnt.hosts owner) (eths asker).eth0.ipAddr := by
  subst isLearnt
  have heard : (net.step eths (.deliver owner k curTs true true)).Ordered :=
    step_keeps serve_ordered ordered _
  have ownerLearns : Present
      ((net.step eths (.deliver owner k curTs true true)).hosts owner) (eths asker).eth0.ipAddr :=
    deliver_present ordered sent (frame_isArp _ _ _ _) (accepted_frame notLoopback) rfl
  have answer :=
    @answered_answer Host _ eths net owner asker ip k curTs true sent mine notLoopback later
  have passes : accepted (arpFrame (eths owner) arpOpReply (eths asker).eth0.ipAddr
      (eths asker).eth0.haddr).arph = true := accepted_frame askerNotLoopback
  have laterOrdered := run_ordered heard eths later
  have laterPresent := run_present heard ownerLearns eths later
  have kept := @step_keeps Host _ eths _
    (fun net => net.Ordered ∧ Present (net.hosts owner) (eths asker).eth0.ipAddr) serve_keeps
    ⟨laterOrdered, laterPresent⟩ (.deliver asker net.sent.length curTs' mbuf true)
  refine ⟨?_, kept.1, ?_, kept.2⟩
  · exact deliver_settles laterOrdered answer (frame_isArp _ _ _ _) passes
      (by decide : htons (htons arpOpReply) = arpOpReply) rfl
  · exact deliver_present laterOrdered answer (frame_isArp _ _ _ _) passes rfl

/-- A question for an address of `owner` that is delivered to it, and whose answer is delivered to
`asker`, is settled whatever else happens before, between and after: right after the answer `asker`
waits for the first address of `owner` no longer, and from then on each of the two knows the MAC
address of the other. -/
theorem arp_resolves (eths : Host → Eths)
    (apart : ∀ one two : Host, (eths one).eth0.ipAddr = (eths two).eth0.ipAddr → one = two)
    {asker owner : Host} {ip : UInt32} (mine : ∃ eth ∈ (eths owner).all, ip = eth.ipAddr)
    (notLoopback : ip ≠ inaddrLoopback)
    (askerNotLoopback : (eths asker).eth0.ipAddr ≠ inaddrLoopback)
    (before between later after : List (Event Host)) (nif : Int) (curTs curTs' curTs'' : UInt32)
    (mbuf : Bool) {asked answered learnt final : Net Host}
    (isAsked : asked = Lib.Run.run (step eths) start before)
    (free : ip ∉ (asked.hosts asker).list.map ArpQueueEntry.ip)
    (isAnswered : answered =
      Lib.Run.run (step eths) asked (.request asker ip nif curTs true :: between))
    (isLearnt : learnt = Lib.Run.run (step eths) answered
      (.deliver owner asked.sent.length curTs' true true :: later ++
        [.deliver asker answered.sent.length curTs'' mbuf true]))
    (isFinal : final = Lib.Run.run (step eths) learnt after) :
    (eths owner).eth0.ipAddr ∉ (learnt.hosts asker).list.map ArpQueueEntry.ip ∧
      Knows eths (final.hosts asker) owner ∧ Knows eths (final.hosts owner) asker := by
  have askedOrdered : asked.Ordered := isAsked ▸ run_ordered start_ordered eths before
  have question : answered.sent[asked.sent.length]? =
      some (arpFrame (eths asker) arpOpRequest ip broadcastMac) := by
    rw [isAnswered]
    exact asked_question free between
  have answeredOrdered : answered.Ordered := isAnswered ▸ run_ordered askedOrdered eths _
  rw [Lib.Run.run_append] at isLearnt
  obtain ⟨settled, ordered, askerLearns, ownerLearns⟩ :=
    exchange_settles answeredOrdered question mine notLoopback askerNotLoopback later isLearnt
  have truthful : final.Truthful eths := by
    have run := run_truthful eths (before ++ (.request asker ip nif curTs true :: between) ++
      ((.deliver owner asked.sent.length curTs' true true :: later) ++
        [.deliver asker answered.sent.length curTs'' mbuf true]) ++ after)
    rw [Lib.Run.run_append, Lib.Run.run_append, Lib.Run.run_append, Lib.Run.run_append, ← isAsked,
      ← isAnswered, ← isLearnt, ← isFinal] at run
    exact run
  subst isFinal
  exact ⟨settled, truthful.knows apart (run_present ordered askerLearns eths after),
    truthful.knows apart (run_present ordered ownerLearns eths after)⟩

def twoHosts : Bool → Eths := fun h =>
  { eth0 :=
      { haddr := fun _ => if h then 2 else 1
        ipAddr := if h then 0x0200000a else 0x0100000a } }

theorem arp_resolves_two :
    Knows twoHosts
      ((Lib.Run.run (step twoHosts) start
        [.request false 0x0200000a 0 5 true, .deliver true 0 6 true true,
          .deliver false 1 7 true true]).hosts false) true :=
  (@arp_resolves Bool _ twoHosts (by decide) false true 0x0200000a
    ⟨(twoHosts true).eth0, List.mem_cons_self, rfl⟩ (by decide) (by decide) [] [] [] [] 0 5 6 7 true
    _ _ _ _ rfl List.not_mem_nil rfl rfl rfl).2.1

end Net

end Arp

end QStack
