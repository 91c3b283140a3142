/- # QStack.SendAccounts -- what became of the bytes of the send buffer

Of everything `sb_put` has accepted, some was acknowledged and freed, some a flush has dropped, and
the rest is held.  `head_seq` counts the first kind, and `next_seq` what was accepted together with
what puts into full rings have reserved for nothing (`Accounts`).  So an empty buffer means that all
that was accepted has been acknowledged, and before that transmitted (`Accounts.all_freed`).
-/
import QStack.Connection
import QStack.SendLifecycle
import QStack.SendOrder

namespace QStack

set_option autoImplicit false

/-- The bytes of the mbufs. -/
def octets (ms : List (MbufId × Nat)) : Nat := (ms.map Prod.snd).sum

@[simp] theorem octets_nil : octets [] = 0 := rfl

@[simp] theorem octets_cons (a : MbufId × Nat) (ms : List (MbufId × Nat)) :
    octets (a :: ms) = a.2 + octets ms := by
  simp [octets]

@[simp] theorem octets_append (ms ms' : List (MbufId × Nat)) :
    octets (ms ++ ms') = octets ms + octets ms' := by
  simp [octets]

theorem octets_perm {ms ms' : List (MbufId × Nat)} (perm : ms.Perm ms') : octets ms = octets ms' :=
  (perm.map Prod.snd).sum_nat

theorem octets_tags (ms : List SndMbuf) : octets (ms.map SndBuff.tag) = SndBuff.sumLen ms :=
  (SndBuff.sumLen_tags ms).symm

/-- Without empty mbufs, no bytes means no mbufs. -/
theorem eq_nil_of_octets {ms : List (MbufId × Nat)} (payload : ∀ a ∈ ms, a.2 ≠ 0)
    (none : octets ms = 0) : ms = [] := by
  cases ms with
  | nil => rfl
  | cons a rest =>
      have some := payload a List.mem_cons_self
      rw [octets_cons] at none
      omega

/-- All the octets accepted of the mbuf have been transmitted. -/
def Carried (a : MbufId × Nat) (sent : List Sent) : Prop :=
  ∃ p ∈ sent, p.data = some a.1 ∧ p.len = a.2

theorem Carried.log {a : MbufId × Nat} {sent : List Sent} (carried : Carried a sent) (p : Sent) :
    Carried a (p :: sent) := by
  obtain ⟨q, inside, same⟩ := carried
  exact ⟨q, List.mem_cons_of_mem p inside, same⟩

/-! ## The accounts of the send buffer -/

/-- Of the mbufs `acc` that were accepted, `freed` have been acknowledged, `lost` were dropped by
a flush, and the rest is held; puts into full rings have reserved `holes` bytes for nothing. -/
structure Accounts (size : Nat) (iss : Seq) (acc freed lost : List (MbufId × Nat)) (holes : Nat)
    (b : SndBuff) (sent : List Sent) (H N : List SndMbuf) : Prop where
  holds : b.Holds H N
  parts : acc.Perm (freed ++ ((b.held H N).map SndBuff.tag ++ lost))
  payload : ∀ a ∈ acc, a.2 ≠ 0
  nodup : (acc.map Prod.fst).Nodup
  room : b.size = BitVec.ofNat 32 size
  head : b.headSeq = tcpSeqAt iss (1 + octets freed)
  next : b.nextSeq = tcpSeqAt iss (1 + octets acc + holes)
  bound : octets acc + holes ≤ octets freed + size
  gone : ∀ a ∈ freed, Carried a sent
  carried : ∀ m ∈ b.uackList ++ b.retransList, Carried (SndBuff.tag m) sent

/-- Sent one after the other from `nxt` on, the mbufs that fit into the window end by `last`. -/
def EndsBy (edge last : Seq) : Seq → List SndMbuf → Prop
  | _, [] => True
  | nxt, m :: rest => tcpSeqGt (nxt + m.len) edge = true ∨
      (tcpSeqLeq (nxt + m.len) last = true ∧ EndsBy edge last (nxt + m.len) rest)

instance EndsBy.decidable (edge last : Seq) :
    ∀ (nxt : Seq) (ms : List SndMbuf), Decidable (EndsBy edge last nxt ms)
  | _, [] => .isTrue trivial
  | nxt, m :: rest =>
      have := EndsBy.decidable edge last (nxt + m.len) rest
      inferInstanceAs (Decidable (_ ∨ _))

namespace Accounts

variable {size : Nat} {iss : Seq} {acc freed lost : List (MbufId × Nat)} {holes : Nat}
  {b : SndBuff} {sent : List Sent} {H N : List SndMbuf}

theorem sums (acct : Accounts size iss acc freed lost holes b sent H N) :
    octets acc = octets freed + (SndBuff.sumLen (b.held H N) + octets lost) := by
  rw [octets_perm acct.parts, octets_append, octets_append, octets_tags]

theorem sbLen (acct : Accounts size iss acc freed lost holes b sent H N) :
    b.sbLen = BitVec.ofNat 32 (octets acc + holes - octets freed) := by
  have sums := acct.sums
  rw [SndBuff.sbLen, acct.next, acct.head, tcpSeqAt_sub _ (by omega)]
  congr 1
  omega

/-- An empty buffer: everything accepted has been acknowledged. -/
theorem settled (acct : Accounts size iss acc freed lost holes b sent H N) (small : size < 2 ^ 30)
    (empty : b.sbLen = 0) : octets acc + holes = octets freed := by
  have sums := acct.sums
  have bound := acct.bound
  rw [acct.sbLen] at empty
  have zero := congrArg BitVec.toNat empty
  rw [BitVec.toNat_ofNat, Nat.mod_eq_of_lt (by omega)] at zero
  change octets acc + holes - octets freed = 0 at zero
  omega

theorem all_freed (acct : Accounts size iss acc freed lost holes b sent H N)
    (settled : octets acc + holes = octets freed) : holes = 0 ∧ acc.Perm freed := by
  have sums := acct.sums
  have rest : ((b.held H N).map SndBuff.tag ++ lost) = [] := by
    refine eq_nil_of_octets (fun a inside => ?_) ?_
    · exact acct.payload a (acct.parts.mem_iff.mpr (List.mem_append_right _ inside))
    · rw [octets_append, octets_tags]
      omega
  have parts := acct.parts
  rw [rest, List.append_nil] at parts
  exact ⟨by omega, parts⟩

/-- The room of the buffer bounds what a put reserves. -/
theorem toPut_le (acct : Accounts size iss acc freed lost holes b sent H N) (small : size < 2 ^ 30)
    (m : SndMbuf) : b.toPut m ≤ octets freed + size - (octets acc + holes) := by
  have sums := acct.sums
  have bound := acct.bound
  unfold SndBuff.toPut
  refine le_trans (Nat.min_le_right _ _) ?_
  rw [acct.room, acct.sbLen, BitVec.toNat_sub_of_le, BitVec.toNat_ofNat, BitVec.toNat_ofNat]
  · omega
  · rw [BitVec.le_def, BitVec.toNat_ofNat, BitVec.toNat_ofNat]
    omega

/-- A packet that carries no data, or more of it. -/
theorem logged (acct : Accounts size iss acc freed lost holes b sent H N) (p : Sent) :
    Accounts size iss acc freed lost holes b (p :: sent) H N :=
  { acct with
    gone := fun a inside => (acct.gone a inside).log p
    carried := fun m inside => (acct.carried m inside).log p }

/-! ### Acknowledgements -/

theorem reset (acct : Accounts size iss acc freed lost holes b sent H N) :
    Accounts size iss acc freed lost holes b.sbResetRetrans.2 sent H N := by
  rcases SndBuff.sbResetRetrans_cases b with ⟨same, -⟩ | ⟨-, empty, moved⟩
  · rw [same]
    exact acct
  · rw [moved]
    have tags : (b.uackList.map fun m => { m with mbufState := .loss }).map SndBuff.tag =
        b.uackList.map SndBuff.tag := by
      rw [List.map_map]
      rfl
    refine { acct with holds := ⟨acct.holds.high, acct.holds.low⟩, parts := ?_, carried := ?_ }
    · have parts := acct.parts
      simp only [SndBuff.held, empty, List.map_append, List.append_nil,
        List.nil_append, tags] at parts ⊢
      exact parts
    · intro m inside
      obtain ⟨m', old, rfl⟩ := List.mem_map.mp (by simpa using inside)
      exact acct.carried m' (List.mem_append_left _ old)

theorem sentIds_reset (b : SndBuff) : b.sbResetRetrans.2.sentIds = b.sentIds := by
  rcases SndBuff.sbResetRetrans_cases b with ⟨same, -⟩ | ⟨-, empty, moved⟩
  · rw [same]
  · rw [moved]
    simp [SndBuff.sentIds, empty, Function.comp_def]

/-- What an acknowledgement frees was sent, and has left the two lists. -/
theorem removeAcked (acct : Accounts size iss acc freed lost holes b sent H N) (a : Seq) :
    ∃ new, Accounts size iss acc (new ++ freed) lost holes (b.sbRemoveAcked a).2 sent H N ∧
      ∀ x ∈ new, x.1 ∈ b.sentIds ∧ x.1 ∉ (b.sbRemoveAcked a).2.sentIds := by
  have splitU := SndBuff.removeAcked_append a b.uackList
  have splitR := SndBuff.removeAcked_append a b.retransList
  have result : b.sbRemoveAcked a = ((SndBuff.removeAcked a b.uackList).1 ++
      (SndBuff.removeAcked a b.retransList).1, { b with
        uackList := (SndBuff.removeAcked a b.uackList).2
        retransList := (SndBuff.removeAcked a b.retransList).2
        headSeq := b.headSeq +
          BitVec.ofNat 32 (SndBuff.sumLen (SndBuff.removeAcked a b.uackList).1) +
          BitVec.ofNat 32 (SndBuff.sumLen (SndBuff.removeAcked a b.retransList).1) }) := rfl
  rw [result]
  generalize SndBuff.removeAcked a b.uackList = cutU at splitU ⊢
  generalize SndBuff.removeAcked a b.retransList = cutR at splitR ⊢
  obtain ⟨goneU, keptU⟩ := cutU
  obtain ⟨goneR, keptR⟩ := cutR
  dsimp only at splitU splitR ⊢
  have parted : (b.held H N).Perm ((goneU ++ goneR) ++ (keptU ++ keptR ++ H ++ N)) := by
    rw [SndBuff.held, ← splitU, ← splitR]
    simp only [List.append_assoc]
    refine List.Perm.append_left goneU ?_
    rw [← List.append_assoc keptU, ← List.append_assoc goneR]
    exact List.Perm.append_right _ List.perm_append_comm
  have parts : acc.Perm ((goneU ++ goneR).map SndBuff.tag ++ freed ++
      ((keptU ++ keptR ++ H ++ N).map SndBuff.tag ++ lost)) := by
    refine acct.parts.trans ?_
    have tags := parted.map SndBuff.tag
    rw [List.map_append] at tags
    refine ((tags.append_right lost).append_left freed).trans ?_
    rw [List.append_assoc _ _ lost, ← List.append_assoc freed]
    exact List.perm_append_comm.append_right _
  have bound := acct.bound
  refine ⟨(goneU ++ goneR).map SndBuff.tag,
    { acct with
      holds := ⟨acct.holds.high, acct.holds.low⟩
      parts := parts
      head := ?_
      bound := ?_
      gone := ?_
      carried := ?_ }, ?_⟩
  · change b.headSeq + _ + _ = _
    rw [acct.head, tcpSeqAt_add, tcpSeqAt_add, octets_append, octets_tags, SndBuff.sumLen_append]
    congr 1
    omega
  · rw [octets_append]
    omega
  · intro x inside
    rcases List.mem_append.mp inside with new | old
    · obtain ⟨m, freedNow, rfl⟩ := List.mem_map.mp new
      refine acct.carried m ?_
      rw [← splitU, ← splitR]
      rcases List.mem_append.mp freedNow with u | r
      · simp [u]
      · simp [r]
    · exact acct.gone x old
  · intro m inside
    refine acct.carried m ?_
    rw [← splitU, ← splitR]
    rcases List.mem_append.mp inside with u | r
    · simp [show m ∈ keptU from u]
    · simp [show m ∈ keptR from r]
  · intro x inside
    obtain ⟨m, freedNow, rfl⟩ := List.mem_map.mp inside
    constructor
    · refine List.mem_map_of_mem ?_
      rw [← splitU, ← splitR]
      rcases List.mem_append.mp freedNow with u | r
      · simp [u]
      · simp [r]
    · -- no mbuf was accepted twice
      intro again
      have ids := (parts.map Prod.fst).nodup_iff.mp acct.nodup
      rw [List.map_append, List.map_append, List.nodup_append] at ids
      refine ids.2.2 m.id (List.mem_append_left _ ?_) m.id ?_ rfl
      · exact List.mem_map_of_mem inside
      · obtain ⟨m', kept, same⟩ := List.mem_map.mp again
        rw [List.map_append]
        refine List.mem_append_left _ (List.mem_map.mpr ⟨SndBuff.tag m', ?_, same⟩)
        refine List.mem_map_of_mem ?_
        rw [List.append_assoc, List.append_assoc, ← List.append_assoc keptU]
        exact List.mem_append_left _ kept

/-! ### New data -/

/-- A put that stores the mbuf, with the next number of the application. -/
theorem put_stored (acct : Accounts size iss acc freed lost holes b sent H N)
    (small : size < 2 ^ 30) {m : SndMbuf} (fresh : ∀ a ∈ acc, a.1 ≠ m.id)
    (some : b.toPut m ≠ 0) (free : b.targetFull m = false) :
    (b.sbPut m).1 = (b.toPut m : Int) ∧ ∃ H' N', Accounts size iss ((m.id, b.toPut m) :: acc) freed
      lost holes (b.sbPut m).2 sent H' N' := by
  obtain ⟨b', H', N', result, holds, perm, uack, retrans, room, head, next⟩ :=
    SndBuff.sbPut_stored acct.holds some free
  have fits := acct.toPut_le small m
  rw [result]
  refine ⟨rfl, H', N',
    { acct with
      holds := holds
      parts := ?_
      payload := fun a inside => ?_
      nodup := List.nodup_cons.mpr ⟨fun old => ?_, acct.nodup⟩
      room := room.trans acct.room
      head := head.trans acct.head
      next := ?_
      bound := ?_
      carried := fun m' inside => acct.carried m' (by rwa [uack, retrans] at inside) }⟩
  · have tags := perm.map SndBuff.tag
    rw [List.map_cons] at tags
    refine (acct.parts.cons (m.id, b.toPut m)).trans ?_
    refine List.perm_middle.symm.trans (List.Perm.append_left freed ?_)
    exact (tags.symm.append_right lost)
  · rcases List.mem_cons.mp inside with rfl | old
    · exact some
    · exact acct.payload a old
  · obtain ⟨a, inside, same⟩ := List.mem_map.mp old
    exact fresh a inside same
  · rw [next, octets_cons]
    change b.nextSeq + BitVec.ofNat 32 (b.toPut m) = _
    rw [acct.next, tcpSeqAt_add]
    congr 1
    omega
  · rw [octets_cons]
    omega

/-- A put into a full ring reserves its octets all the same. -/
theorem put_full (acct : Accounts size iss acc freed lost holes b sent H N)
    (small : size < 2 ^ 30) {m : SndMbuf} (some : b.toPut m ≠ 0) (full : b.targetFull m = true) :
    (b.sbPut m).1 = failed ∧
      Accounts size iss acc freed lost (holes + b.toPut m) (b.sbPut m).2 sent H N := by
  have fits := acct.toPut_le small m
  rw [SndBuff.sbPut_full some full]
  refine ⟨rfl, { acct with holds := ⟨acct.holds.high, acct.holds.low⟩, next := ?_, bound := ?_ }⟩
  · change b.nextSeq + BitVec.ofNat 32 (b.toPut m) = _
    rw [acct.next, tcpSeqAt_add, add_assoc]
  · omega

/-! ### The flush -/

/-- The flush drops the mbuf it has popped. -/
theorem dropped (acct : Accounts size iss acc freed lost holes b sent H N) {m : SndMbuf}
    {b' : SndBuff} {H' N' : List SndMbuf} (popped : b.Popped H N m b' H' N') :
    Accounts size iss acc freed (SndBuff.tag m :: lost) holes b' sent H' N' :=
  { acct with
    holds := popped.holds
    parts := by
      have tags := popped.perm.map SndBuff.tag
      rw [List.map_cons] at tags
      refine acct.parts.trans (List.Perm.append_left freed ?_)
      exact (tags.append_right lost).trans List.perm_middle.symm
    room := popped.size.trans acct.room
    head := popped.head.trans acct.head
    next := popped.next.trans acct.next
    carried := fun m' inside => by
      refine acct.carried m' ?_
      rcases List.mem_append.mp inside with u | r
      · exact List.mem_append_left _ (popped.uack ▸ u)
      · exact List.mem_append_right _ (popped.retrans_subset m' r) }

/-- The flush sends it. -/
theorem sent_data (acct : Accounts size iss acc freed lost holes b sent H N) {m : SndMbuf}
    {b' : SndBuff} {H' N' : List SndMbuf} (popped : b.Popped H N m b' H' N') (seq : Seq) :
    Accounts size iss acc freed lost holes
      { b' with uackList := b'.uackList ++ [{ m with tcpSeq := seq, mbufState := .sent }] }
      ({ seq := seq, len := m.payloadLen, data := some m.id } :: sent) H' N' := by
  have older := acct.logged { seq := seq, len := m.payloadLen, data := some m.id }
  refine
    { older with
      holds := ⟨popped.holds.high, popped.holds.low⟩
      parts := ?_
      room := popped.size.trans acct.room
      head := popped.head.trans acct.head
      next := popped.next.trans acct.next
      carried := ?_ }
  · have tags := popped.perm.map SndBuff.tag
    rw [List.map_cons] at tags
    refine acct.parts.trans (List.Perm.append_left freed (List.Perm.append_right lost ?_))
    refine tags.trans ?_
    simp only [SndBuff.held, List.map_append, List.map_cons, List.append_assoc,
      List.singleton_append]
    exact List.perm_middle.symm
  · intro m' inside
    rcases List.mem_append.mp inside with u | r
    · rcases List.mem_append.mp u with old | new
      · exact older.carried m' (List.mem_append_left _ (popped.uack ▸ old))
      · rw [List.mem_singleton.mp new]
        exact ⟨_, List.mem_cons_self, rfl, rfl⟩
    · exact older.carried m' (List.mem_append_right _ (popped.retrans_subset m' r))

/-- A whole flush.  If the mbufs that fit into the window end by `last`, so does `snd_nxt`. -/
theorem flushed {window : U32} {rounds : Nat} {v v' : View} (flushed : Flushed window rounds v v') :
    ∀ {lost : List (MbufId × Nat)} {H N : List SndMbuf},
      Accounts size iss acc freed lost holes v.sndbuf v.sent H N →
      ∃ lost' H' N', Accounts size iss acc freed lost' holes v'.sndbuf v'.sent H' N' ∧
        ∀ last, tcpSeqLeq v.sndNxt last = true →
          EndsBy (v.sndUna + window) last v.sndNxt (v.sndbuf.retransList ++ H ++ N) →
          tcpSeqLeq v'.sndNxt last = true := by
  have taken : ∀ {v : View} {m : SndMbuf} {b : SndBuff} {lost : List (MbufId × Nat)}
      {H N : List SndMbuf}, Accounts size iss acc freed lost holes v.sndbuf v.sent H N →
      v.sndbuf.popWaiting = (some m, b) →
      m.payloadLen ≠ 0 ∧ ∃ H' N', v.sndbuf.Popped H N m b H' N' := by
    intro v m b lost H N acct pop
    rcases SndBuff.popWaiting_cases acct.holds with ⟨none, -⟩ | ⟨m', b', H', N', some, popped⟩
    · rw [none] at pop
      cases pop
    · rw [some] at pop
      cases pop
      refine ⟨acct.payload (SndBuff.tag m) (acct.parts.mem_iff.mpr ?_), H', N', popped⟩
      refine List.mem_append_right _ (List.mem_append_left _ (List.mem_map_of_mem ?_))
      exact popped.perm.mem_iff.mpr List.mem_cons_self
  induction flushed with
  | spent | refused => exact fun acct => ⟨_, _, _, acct, fun _ stays _ => stays⟩
  | empty _ pop =>
      intro lost H N acct
      rcases SndBuff.popWaiting_cases acct.holds with ⟨none, -⟩ | ⟨m', b', H', N', some, -⟩
      · rw [none] at pop
        cases pop
        exact ⟨lost, H, N, acct, fun _ stays _ => stays⟩
      · rw [some] at pop
        cases pop
  | skip _ pop blank _ _ => exact fun acct => absurd blank (taken acct pop).1
  | drop _ pop _ _ =>
      intro lost H N acct
      obtain ⟨-, H', N', popped⟩ := taken acct pop
      exact ⟨_, H', N', acct.dropped popped, fun _ stays _ => stays⟩
  | @send rounds v v' m b _ pop payload inside _ ih =>
      intro lost H N acct
      obtain ⟨-, H', N', popped⟩ := taken acct pop
      have next := acct.sent_data popped v.sndNxt
      rw [← View.sendData_sent v b payload] at next
      obtain ⟨lost', H'', N'', acct', bounded⟩ := ih next
      refine ⟨lost', H'', N'', acct', fun last _ ends => ?_⟩
      rw [popped.waiting] at ends
      rcases ends with beyond | ⟨fits, rest⟩
      · rw [View.outOfWindow, beyond] at inside
        cases inside
      · exact bounded last fits rest

end Accounts

/-- A flush logs data, and no FIN. -/
theorem Flushed.plain {window : U32} {rounds : Nat} {v v' : View}
    (flushed : Flushed window rounds v v') :
    ∃ newer, v'.sent = newer ++ v.sent ∧ ∀ p ∈ newer, p.fin = false := by
  induction flushed with
  | spent | refused | empty | drop => exact ⟨[], rfl, nofun⟩
  | skip _ _ _ _ ih => exact ih
  | @send rounds v v' m b _ _ payload _ _ ih =>
      obtain ⟨newer, log, plain⟩ := ih
      refine ⟨newer ++ [{ seq := v.sndNxt, len := m.payloadLen, data := some m.id }], ?_, ?_⟩
      · rw [log, View.sendData_sent v b payload, List.append_assoc]
        rfl
      · intro p inside
        rcases List.mem_append.mp inside with newer | this
        · exact plain p newer
        · rw [List.mem_singleton.mp this]

end QStack
