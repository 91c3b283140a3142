/-
# QStack.Arp -- the ARP protocol between hosts

A host answers every request for one of its addresses with the addresses of `CONFIG.eths[0]`, learns
the sender of every packet that passes the check of the header, whatever its operation and whoever
it is for, and forgets nothing: `arp_timer` is commented out.  `get_dst_hwaddr` reads the static
table, so what is learnt here is only printed; `request_arp` and `arp_init` have no caller.  All are
modelled as they stand, a host being one that `arp_init` has set up.

`arp_tables_last` says what the tables are: the last packet accepted from each address.
`arp_pending_last` says the same of the pending requests.

The test for loopback compares `ar_tip` with 127.0.0.1 in the byte order of the host, so the packets
it drops are those for 1.0.0.127.

Not modelled: the release of the mbufs, the 18 bytes of zeros behind the header, and `calloc`
failing in `request_arp`, which does not look.
-/
import QStack.StaticArp
import QStack.Checksum
import QStack.Universal
import QStack.Lib.Run

namespace QStack

set_option autoImplicit false

/-! ## Packets and tables -/

/-- `ETH_ALEN` bytes -/
abbrev Mac : Type := Fin 6 → UInt8

/-- `memset(haddr, 0xFF, ETH_ALEN)` -/
def broadcastMac : Mac := fun _ => 0xFF

/-- `arp_hrd_ethernet` -/
def arpHrdEthernet : UInt16 := 1
def arpOpRequest : UInt16 := 1
def arpOpReply : UInt16 := 2
def ethPIpWord : UInt16 := 0x0800
def ethPArpWord : UInt16 := 0x0806

/-- `INADDR_LOOPBACK` -/
def inaddrLoopback : UInt32 := 0x7f000001

/-- `struct arphdr`; words are as the host loads them. -/
structure ArpHdr where
  arHrd : UInt16
  arPro : UInt16
  arHln : UInt8
  arPln : UInt8
  arOp : UInt16
  arSha : Mac
  arSip : UInt32
  arTha : Mac
  arTip : UInt32
deriving DecidableEq

/-- `struct ethhdr` with the packet behind it -/
structure ArpFrame where
  hDest : Mac
  hSource : Mac
  hProto : UInt16
  arph : ArpHdr
deriving DecidableEq

/-- What the ARP functions read of `struct eth_table` -/
structure EthTable where
  haddr : Mac
  ipAddr : UInt32

/-- `CONFIG.eths`, of which there is at least the first -/
structure Eths where
  eth0 : EthTable
  more : List EthTable := []

def Eths.all (eths : Eths) : List EthTable := eths.eth0 :: eths.more

/-- `struct arp_table` as the dynamic table uses it -/
structure ArpEntry where
  ip : UInt32
  ipMask : UInt32
  haddr : Mac
  lastUsed : UInt32

structure ArpQueueEntry where
  ip : UInt32
  nifOut : Int
  tsOut : UInt32

/-- `ARP_TABLE_SIZE` -/
def arpTableSize : Nat := 16

/-- `HASH` -/
def arpHash (ip : UInt32) : Nat := (htonl ip &&& 15).toNat

/-- `CONFIG.arp_tables` and `g_arpm.list` -/
structure ArpState where
  arpTables : Nat → List ArpEntry
  list : List ArpQueueEntry

/-- `arp_init` -/
def arpInit : ArpState where
  arpTables := fun _ => []
  list := []

/-! ## The functions -/

/-- What `arp_output` and the `eth_hdr_generate` in it fill in -/
def arpFrame (eths : Eths) (opcode : UInt16) (dstIp : UInt32) (dstHaddr : Mac) : ArpFrame where
  hDest := dstHaddr
  hSource := eths.eth0.haddr
  hProto := htons ethPArpWord
  arph :=
    { arHrd := htons arpHrdEthernet
      arPro := htons ethPIpWord
      arHln := .ofNat ethAlen
      arPln := 4
      arOp := htons opcode
      arSha := eths.eth0.haddr
      arSip := eths.eth0.ipAddr
      arTha := dstHaddr
      arTip := dstIp }

/-- `arp_output`; without an mbuf nothing is sent. -/
def arpOutput (eths : Eths) (mbuf : Bool) (opcode : UInt16) (dstIp : UInt32) (dstHaddr : Mac) :
    Option ArpFrame :=
  if mbuf = true then some (arpFrame eths opcode dstIp dstHaddr) else none

namespace ArpState

/-- `register_arp_entry`; `mem` says whether `calloc` finds memory. -/
def registerArpEntry (ip : UInt32) (haddr : Mac) (curTs : UInt32) (mem : Bool) (s : ArpState) :
    Int × ArpState :=
  let hash := arpHash ip
  let chain := s.arpTables hash
  match chain.findIdx? fun entry => decide (entry.ip = ip) with
  | some i =>
      let chain := chain.modify i fun entry => { entry with haddr := haddr, lastUsed := curTs }
      (success, { s with arpTables := Function.update s.arpTables hash chain })
  | none =>
      if mem = true then
        let entry : ArpEntry :=
          { ip := ip, ipMask := 0xFFFFFFFF, haddr := haddr, lastUsed := curTs }
        (success, { s with arpTables := Function.update s.arpTables hash (entry :: chain) })
      else (error, s)

/-- `process_arp_reply` -/
def processArpReply (arph : ArpHdr) (s : ArpState) : ArpState :=
  { s with list := s.list.eraseP fun ent => decide (ent.ip = arph.arSip) }

/-- `request_arp` -/
def requestArp (eths : Eths) (ip : UInt32) (nif : Int) (curTs : UInt32) (mbuf : Bool)
    (s : ArpState) : ArpState × Option ArpFrame :=
  if s.list.any fun ent => decide (ent.ip = ip) then (s, none)
  else
    let ent : ArpQueueEntry := { ip := ip, nifOut := nif, tsOut := curTs }
    ({ s with list := s.list ++ [ent] }, arpOutput eths mbuf arpOpRequest ip broadcastMac)

end ArpState

/-- The check of the parameters passes. -/
def ArpHdr.wellFormed (arph : ArpHdr) : Bool :=
  arph.arHrd = htons arpHrdEthernet && arph.arPro = htons ethPIpWord &&
    arph.arHln = .ofNat ethAlen && arph.arPln = 4

/-- The loop over `CONFIG.eths` -/
def ArpHdr.toMe (eths : Eths) (arph : ArpHdr) : Bool :=
  eths.all.any fun eth => decide (arph.arTip = eth.ipAddr)

namespace ArpState

/-- `process_arp_packet` -/
def processArpPacket (eths : Eths) (curTs : UInt32) (mbuf mem : Bool) (arph : ArpHdr)
    (s : ArpState) : Int × ArpState × Option ArpFrame :=
  if arph.wellFormed = false then (error, s, none)
  else if arph.arTip = inaddrLoopback then (success, s, none)
  else
    let answer :=
      if htons arph.arOp = arpOpRequest ∧ arph.toMe eths = true then
        arpOutput eths mbuf arpOpReply arph.arSip arph.arSha
      else none
    let s := if htons arph.arOp = arpOpReply then s.processArpReply arph else s
    (success, (s.registerArpEntry arph.arSip arph.arSha curTs mem).2, answer)

end ArpState

namespace Arp

/-- What a program can do to a host: a packet arrives, or an address is asked for. -/
inductive Call where
  | packet (curTs : UInt32) (mbuf mem : Bool) (arph : ArpHdr)
  | request (ip : UInt32) (nif : Int) (curTs : UInt32) (mbuf : Bool)
deriving DecidableEq

/-- The call, and the frame it sends. -/
def serve (eths : Eths) (s : ArpState) : Call → ArpState × Option ArpFrame
  | .packet curTs mbuf mem arph => (s.processArpPacket eths curTs mbuf mem arph).2
  | .request ip nif curTs mbuf => s.requestArp eths ip nif curTs mbuf

def step (eths : Eths) (s : ArpState) (call : Call) : ArpState := (serve eths s call).1

/-! ## The tables are the last packets -/

/-- The packet is neither ill-formed nor taken for one to the loopback address. -/
def accepted (arph : ArpHdr) : Bool := arph.wellFormed && decide (arph.arTip ≠ inaddrLoopback)

/-- Whether memory was found, and what the packet says of its sender. -/
structure Note where
  mem : Bool
  haddr : Mac
  curTs : UInt32
deriving DecidableEq

/-- The call accepts a packet from `ip`. -/
def note (ip : UInt32) : Call → Option Note
  | .packet curTs _ mem arph =>
      if accepted arph = true ∧ arph.arSip = ip then some ⟨mem, arph.arSha, curTs⟩ else none
  | .request _ _ _ _ => none

/-- The last packet accepted from `ip`, if memory was found for one of them by then. -/
def lastFrom (ip : UInt32) (calls : List Call) : Option (Mac × UInt32) :=
  ((calls.filterMap (note ip)).dropWhile fun n => !n.mem).getLast?.map fun n => (n.haddr, n.curTs)

/-- The tables are the chains of a map: one entry an address, in the chain of its hash. -/
structure Holds (s : ArpState) (known : UInt32 → Option (Mac × UInt32)) : Prop where
  filed : ∀ i, ∀ entry ∈ s.arpTables i, arpHash entry.ip = i ∧ entry.ipMask = 0xFFFFFFFF
  single : ∀ i, ((s.arpTables i).map ArpEntry.ip).Nodup
  known_iff : ∀ ip haddr lastUsed, known ip = some (haddr, lastUsed) ↔
    ∃ entry ∈ s.arpTables (arpHash ip),
      entry.ip = ip ∧ entry.haddr = haddr ∧ entry.lastUsed = lastUsed

/-- What `register_arp_entry` does to the map -/
def learn (ip : UInt32) (n : Note) (known : UInt32 → Option (Mac × UInt32)) :
    UInt32 → Option (Mac × UInt32) :=
  if n.mem = true ∨ (known ip).isSome then Function.update known ip (some (n.haddr, n.curTs))
  else known

/-- With one entry an address, the update of the first one is that of all with the address. -/
theorem modify_first (ip : UInt32) (f : ArpEntry → ArpEntry) : ∀ (chain : List ArpEntry) (i : Nat),
    (chain.map ArpEntry.ip).Nodup →
    (chain.findIdx? fun entry => decide (entry.ip = ip)) = some i →
    chain.modify i f = chain.map fun entry => if entry.ip = ip then f entry else entry
  | [], _, _, found => by simp at found
  | entry :: rest, i, nodup, found => by
      rw [List.map_cons, List.nodup_cons] at nodup
      by_cases same : entry.ip = ip
      · rw [List.findIdx?_cons, if_pos (by simpa using same)] at found
        obtain rfl : 0 = i := by simpa using found
        have apart : ∀ other ∈ rest, other.ip ≠ ip := fun other mem eq =>
          nodup.1 (List.mem_map.mpr ⟨other, mem, eq.trans same.symm⟩)
        have kept : (rest.map fun entry => if entry.ip = ip then f entry else entry) = rest :=
          (List.map_congr_left fun other mem => if_neg (apart other mem)).trans (List.map_id' rest)
        rw [List.modify_zero_cons, List.map_cons, if_pos same, kept]
      · rw [List.findIdx?_cons, if_neg (by simpa using same)] at found
        obtain ⟨k, foundRest, rfl⟩ := Option.map_eq_some_iff.mp found
        rw [List.modify_succ_cons, modify_first ip f rest k nodup.2 foundRest, List.map_cons,
          if_neg same]

variable {s : ArpState} {known : UInt32 → Option (Mac × UInt32)}

/-- One chain is replaced. -/
theorem Holds.of_chain (holds : Holds s known) {known' : UInt32 → Option (Mac × UInt32)}
    {hash : Nat} {chain : List ArpEntry}
    (filed : ∀ entry ∈ chain, arpHash entry.ip = hash ∧ entry.ipMask = 0xFFFFFFFF)
    (single : (chain.map ArpEntry.ip).Nodup)
    (others : ∀ ip, arpHash ip ≠ hash → known' ip = known ip)
    (here : ∀ ip haddr lastUsed, arpHash ip = hash → (known' ip = some (haddr, lastUsed) ↔
      ∃ entry ∈ chain, entry.ip = ip ∧ entry.haddr = haddr ∧ entry.lastUsed = lastUsed)) :
    Holds { s with arpTables := Function.update s.arpTables hash chain } known' where
  filed := by
    intro i
    by_cases same : i = hash
    · subst same
      simpa using filed
    · simpa [same] using holds.filed i
  single := by
    intro i
    by_cases same : i = hash
    · subst same
      simpa using single
    · simpa [same] using holds.single i
  known_iff := by
    intro ip haddr lastUsed
    by_cases same : arpHash ip = hash
    · simpa [same] using here ip haddr lastUsed same
    · rw [others ip same]
      simpa [same] using holds.known_iff ip haddr lastUsed

/-- `haddr` and `last_used` of the entry for `ip` are overwritten. -/
theorem Holds.overwrite (holds : Holds s known) {ip : UInt32} {old : ArpEntry}
    (present : old ∈ s.arpTables (arpHash ip)) (isIp : old.ip = ip) (haddr : Mac)
    (curTs : UInt32) :
    Holds
      { s with
        arpTables := Function.update s.arpTables (arpHash ip)
          ((s.arpTables (arpHash ip)).map fun entry =>
            if entry.ip = ip then { entry with haddr := haddr, lastUsed := curTs } else entry) }
      (Function.update known ip (some (haddr, curTs))) := by
  apply holds.of_chain
  · intro entry mem
    obtain ⟨was, wasMem, rfl⟩ := List.mem_map.mp mem
    have wasFiled := holds.filed _ was wasMem
    by_cases same : was.ip = ip
    · simpa only [if_pos same] using wasFiled
    · simpa only [if_neg same] using wasFiled
  · rw [List.map_map]
    have ips : ∀ entry ∈ s.arpTables (arpHash ip),
        (ArpEntry.ip ∘ fun entry : ArpEntry =>
          if entry.ip = ip then { entry with haddr := haddr, lastUsed := curTs }
          else entry) entry = entry.ip := by
      intro entry _
      by_cases same : entry.ip = ip <;> simp [same]
    rw [List.map_congr_left ips]
    exact holds.single _
  · intro ip' apart
    exact Function.update_of_ne (fun eq => apart (congrArg arpHash eq)) _ _
  · intro ip' haddr' lastUsed inChain
    by_cases same : ip' = ip
    · subst same
      rw [Function.update_self]
      constructor
      · intro eq
        obtain ⟨rfl, rfl⟩ := Prod.mk.inj (Option.some.inj eq)
        refine ⟨_, List.mem_map.mpr ⟨old, present, rfl⟩, ?_⟩
        rw [if_pos isIp]
        exact ⟨isIp, rfl, rfl⟩
      · rintro ⟨entry, mem, entryIp, rfl, rfl⟩
        obtain ⟨was, _, rfl⟩ := List.mem_map.mp mem
        by_cases wasIp : was.ip = ip'
        · rw [if_pos wasIp]
        · rw [if_neg wasIp] at entryIp
          exact absurd entryIp wasIp
    · rw [Function.update_of_ne same, holds.known_iff ip' haddr' lastUsed, inChain]
      constructor
      · rintro ⟨entry, mem, entryIp, facts⟩
        refine ⟨entry, List.mem_map.mpr ⟨entry, mem, if_neg ?_⟩, entryIp, facts⟩
        rw [entryIp]
        exact same
      · rintro ⟨entry, mem, entryIp, facts⟩
        obtain ⟨was, wasMem, rfl⟩ := List.mem_map.mp mem
        by_cases wasIp : was.ip = ip
        · rw [if_pos wasIp] at entryIp
          exact absurd (entryIp.symm.trans wasIp) same
        · rw [if_neg wasIp] at entryIp facts
          exact ⟨was, wasMem, entryIp, facts⟩

/-- A new entry goes in front. -/
theorem Holds.prepend (holds : Holds s known) {ip : UInt32}
    (absent : ∀ entry ∈ s.arpTables (arpHash ip), entry.ip ≠ ip) (haddr : Mac) (curTs : UInt32) :
    Holds
      { s with
        arpTables := Function.update s.arpTables (arpHash ip)
          ({ ip := ip, ipMask := 0xFFFFFFFF, haddr := haddr, lastUsed := curTs } ::
            s.arpTables (arpHash ip)) }
      (Function.update known ip (some (haddr, curTs))) := by
  apply holds.of_chain
  · intro entry mem
    rcases List.mem_cons.mp mem with rfl | mem
    · exact ⟨rfl, rfl⟩
    · exact holds.filed _ entry mem
  · rw [List.map_cons, List.nodup_cons]
    refine ⟨fun mem => ?_, holds.single _⟩
    obtain ⟨entry, entryMem, entryIp⟩ := List.mem_map.mp mem
    exact absent entry entryMem entryIp
  · intro ip' apart
    exact Function.update_of_ne (fun eq => apart (congrArg arpHash eq)) _ _
  · intro ip' haddr' lastUsed inChain
    by_cases same : ip' = ip
    · subst same
      rw [Function.update_self]
      constructor
      · intro eq
        obtain ⟨rfl, rfl⟩ := Prod.mk.inj (Option.some.inj eq)
        exact ⟨_, List.mem_cons_self, rfl, rfl, rfl⟩
      · rintro ⟨entry, mem, entryIp, rfl, rfl⟩
        rcases List.mem_cons.mp mem with rfl | mem
        · rfl
        · exact absurd entryIp (absent entry mem)
    · rw [Function.update_of_ne same, holds.known_iff ip' haddr' lastUsed, inChain]
      constructor
      · rintro ⟨entry, mem, facts⟩
        exact ⟨entry, List.mem_cons_of_mem _ mem, facts⟩
      · rintro ⟨entry, mem, entryIp, facts⟩
        rcases List.mem_cons.mp mem with rfl | mem
        · exact absurd entryIp.symm same
        · exact ⟨entry, mem, entryIp, facts⟩

theorem Holds.register (holds : Holds s known) (ip : UInt32) (n : Note) :
    Holds (s.registerArpEntry ip n.haddr n.curTs n.mem).2 (learn ip n known) := by
  rw [ArpState.registerArpEntry, learn]
  dsimp only
  cases search : (s.arpTables (arpHash ip)).findIdx? fun entry => decide (entry.ip = ip) with
  | some i =>
      dsimp only
      rw [modify_first ip _ _ i (holds.single _) search]
      obtain ⟨inside, found, -⟩ := List.findIdx?_eq_some_iff_getElem.mp search
      have isIp : (s.arpTables (arpHash ip))[i].ip = ip := by simpa using found
      have present := List.getElem_mem inside
      have isKnown : (known ip).isSome = true :=
        Option.isSome_iff_exists.mpr ⟨_, (holds.known_iff ip _ _).mpr ⟨_, present, isIp, rfl, rfl⟩⟩
      rw [if_pos (Or.inr isKnown)]
      exact holds.overwrite present isIp _ _
  | none =>
      dsimp only
      have absent : ∀ entry ∈ s.arpTables (arpHash ip), entry.ip ≠ ip := by
        simpa using List.findIdx?_eq_none_iff.mp search
      have unknown : known ip = none := by
        cases value : known ip with
        | none => rfl
        | some v =>
            obtain ⟨entry, mem, entryIp, -⟩ := (holds.known_iff ip v.1 v.2).mp value
            exact absurd entryIp (absent entry mem)
      cases enough : n.mem with
      | false => simpa [unknown] using holds
      | true =>
          rw [if_pos (Or.inl rfl)]
          exact holds.prepend absent _ _

/-! ### Runs of a host -/

theorem lastFrom_append (ip : UInt32) (calls : List Call) (call : Call) :
    lastFrom ip (calls ++ [call]) =
      match note ip call with
      | none => lastFrom ip calls
      | some n =>
          if n.mem = true ∨ (lastFrom ip calls).isSome then some (n.haddr, n.curTs)
          else lastFrom ip calls := by
  rw [lastFrom, lastFrom, List.filterMap_append, List.dropWhile_append]
  cases noted : note ip call with
  | none =>
      rw [List.filterMap_cons_none noted, List.filterMap_nil, List.dropWhile_nil, List.append_nil]
      cases (calls.filterMap (note ip)).dropWhile fun n => !n.mem <;> rfl
  | some n =>
      rw [List.filterMap_cons_some noted, List.filterMap_nil]
      cases (calls.filterMap (note ip)).dropWhile fun n => !n.mem with
      | nil =>
          cases enough : n.mem <;> simp [List.dropWhile, enough]
      | cons first rest =>
          have last : (first :: rest ++ [n]).getLast? = some n := List.getLast?_concat
          rw [if_neg (by simp), last]
          simp

theorem arpInit_holds : Holds arpInit fun _ => none where
  filed := fun _ _ mem => absurd mem List.not_mem_nil
  single := fun _ => List.nodup_nil
  known_iff := fun _ _ _ => iff_of_false (fun eq => by cases eq) (by
    rintro ⟨_, mem, _⟩
    exact absurd mem List.not_mem_nil)

/-- The tables do not depend on the pending requests. -/
theorem Holds.of_tables (holds : Holds s known) {s' : ArpState}
    (same : s'.arpTables = s.arpTables) : Holds s' known where
  filed := by
    rw [same]
    exact holds.filed
  single := by
    rw [same]
    exact holds.single
  known_iff := by
    rw [same]
    exact holds.known_iff

/-- The state `process_arp_packet` leaves -/
theorem processArpPacket_state (eths : Eths) (s : ArpState) (curTs : UInt32) (mbuf mem : Bool)
    (arph : ArpHdr) :
    (s.processArpPacket eths curTs mbuf mem arph).2.1 =
      if accepted arph = true then
        ((if htons arph.arOp = arpOpReply then s.processArpReply arph else s).registerArpEntry
          arph.arSip arph.arSha curTs mem).2
      else s := by
  rw [ArpState.processArpPacket, accepted]
  cases wellFormed : arph.wellFormed with
  | false => rfl
  | true =>
      by_cases loopback : arph.arTip = inaddrLoopback
      · simp [loopback]
      · simp [loopback]

/-- What a call does to the map -/
def heed (known : UInt32 → Option (Mac × UInt32)) : Call → UInt32 → Option (Mac × UInt32)
  | .packet curTs _ mem arph =>
      if accepted arph = true then learn arph.arSip ⟨mem, arph.arSha, curTs⟩ known else known
  | .request _ _ _ _ => known

theorem Holds.step (holds : Holds s known) (eths : Eths) (call : Call) :
    Holds (step eths s call) (heed known call) := by
  cases call with
  | request ip nif curTs mbuf =>
      apply holds.of_tables
      rw [Arp.step, serve, ArpState.requestArp]
      split <;> rfl
  | packet curTs mbuf mem arph =>
      rw [Arp.step, serve, processArpPacket_state, heed]
      cases pass : accepted arph with
      | false => exact holds
      | true =>
          rw [if_pos rfl, if_pos rfl]
          apply Holds.register (n := ⟨mem, arph.arSha, curTs⟩)
          apply holds.of_tables
          split <;> rfl

theorem lastFrom_heed (calls : List Call) (call : Call) :
    (fun ip => lastFrom ip (calls ++ [call])) = heed (fun ip => lastFrom ip calls) call := by
  funext ip
  rw [lastFrom_append]
  cases call with
  | request => rfl
  | packet curTs mbuf mem arph =>
      rw [note, heed]
      cases pass : accepted arph with
      | false => rw [if_neg fun both => Bool.false_ne_true both.1, if_neg Bool.false_ne_true]
      | true =>
          rw [if_pos rfl, learn]
          by_cases sender : arph.arSip = ip
          · subst sender
            rw [if_pos ⟨rfl, rfl⟩]
            dsimp only
            split <;> simp
          · rw [if_neg fun both => sender both.2]
            dsimp only
            split <;> simp [Function.update_of_ne (Ne.symm sender)]

/-- Over every run of a host the tables hold exactly the last packet accepted from each address,
one entry an address and each in the chain of its hash: nothing expires. -/
theorem arp_tables_last (eths : Eths) (calls : List Call) :
    Holds (Lib.Run.run (step eths) arpInit calls) fun ip => lastFrom ip calls := by
  induction calls using List.reverseRecOn with
  | nil => exact arpInit_holds
  | append_singleton calls call ih =>
      rw [Lib.Run.run_append, lastFrom_heed]
      exact ih.step eths call

/-! ## The pending requests -/

/-- The call asks for `ip`, or accepts a reply from it. -/
def asks (ip : UInt32) : Call → Option Bool
  | .packet _ _ _ arph =>
      if accepted arph = true ∧ htons arph.arOp = arpOpReply ∧ arph.arSip = ip then some false
      else none
  | .request asked _ _ _ => if asked = ip then some true else none

/-- `ip` was asked for, and no reply from it came since. -/
def Waiting (ip : UInt32) (calls : List Call) : Prop :=
  (calls.filterMap (asks ip)).getLast? = some true

/-- What a call does to the addresses waited for -/
def await (waiting : UInt32 → Prop) (call : Call) (ip : UInt32) : Prop :=
  match asks ip call with
  | none => waiting ip
  | some asked => asked = true

theorem waiting_append (calls : List Call) (call : Call) :
    (fun ip => Waiting ip (calls ++ [call])) = await (fun ip => Waiting ip calls) call := by
  funext ip
  rw [Waiting, List.filterMap_append, await]
  cases noted : asks ip call with
  | none => rw [List.filterMap_cons_none noted, List.filterMap_nil, List.append_nil, Waiting]
  | some asked =>
      rw [List.filterMap_cons_some noted, List.filterMap_nil, List.getLast?_concat]
      exact propext Option.some_inj

/-- The list of pending requests has each address once, and says which are waited for. -/
structure Awaits (s : ArpState) (waiting : UInt32 → Prop) : Prop where
  single : (s.list.map ArpQueueEntry.ip).Nodup
  pending_iff : ∀ ip, ip ∈ s.list.map ArpQueueEntry.ip ↔ waiting ip

theorem registerArpEntry_list (s : ArpState) (ip : UInt32) (haddr : Mac) (curTs : UInt32)
    (mem : Bool) : (s.registerArpEntry ip haddr curTs mem).2.list = s.list := by
  rw [ArpState.registerArpEntry]
  dsimp only
  split
  · rfl
  · split <;> rfl

theorem processArpReply_ips (s : ArpState) (arph : ArpHdr) :
    (s.processArpReply arph).list.map ArpQueueEntry.ip =
      (s.list.map ArpQueueEntry.ip).erase arph.arSip := by
  rw [ArpState.processArpReply, List.erase_eq_eraseP', List.eraseP_map]
  rfl

theorem any_pending {waiting : UInt32 → Prop} (awaits : Awaits s waiting) (ip : UInt32) :
    (s.list.any fun ent => decide (ent.ip = ip)) = true ↔ waiting ip := by
  rw [← awaits.pending_iff ip, List.any_eq_true, List.mem_map]
  simp

theorem Awaits.step {waiting : UInt32 → Prop} (awaits : Awaits s waiting) (eths : Eths)
    (call : Call) : Awaits (step eths s call) (await waiting call) := by
  cases call with
  | request ip nif curTs mbuf =>
      rw [Arp.step, serve, ArpState.requestArp]
      have after : ∀ ip', await waiting (.request ip nif curTs mbuf) ip' ↔
          ip' = ip ∨ waiting ip' := by
        intro ip'
        rw [await, asks]
        by_cases same : ip = ip'
        · simp [same]
        · simp [same, Ne.symm same]
      by_cases pending : (s.list.any fun ent => decide (ent.ip = ip)) = true
      · rw [if_pos pending]
        refine ⟨awaits.single, fun ip' => ?_⟩
        rw [after ip', awaits.pending_iff ip']
        constructor
        · exact Or.inr
        · rintro (rfl | waits)
          · exact (any_pending awaits ip').mp pending
          · exact waits
      · rw [if_neg pending]
        have absent : ip ∉ s.list.map ArpQueueEntry.ip := fun mem =>
          pending ((any_pending awaits ip).mpr ((awaits.pending_iff ip).mp mem))
        constructor
        · rw [List.map_append]
          apply awaits.single.append (List.nodup_singleton _)
          simpa using absent
        · intro ip'
          rw [List.map_append, List.mem_append, after ip', awaits.pending_iff ip', or_comm]
          simp
  | packet curTs mbuf mem arph =>
      rw [Arp.step, serve, processArpPacket_state]
      cases pass : accepted arph with
      | false =>
          rw [if_neg Bool.false_ne_true]
          refine ⟨awaits.single, fun ip => ?_⟩
          rw [await, asks, if_neg (by simp [pass])]
          exact awaits.pending_iff ip
      | true =>
          rw [if_pos rfl]
          by_cases reply : htons arph.arOp = arpOpReply
          · rw [if_pos reply]
            constructor
            · rw [registerArpEntry_list, processArpReply_ips]
              exact awaits.single.erase _
            · intro ip
              rw [registerArpEntry_list, processArpReply_ips, awaits.single.mem_erase_iff,
                awaits.pending_iff ip, await, asks]
              by_cases sender : arph.arSip = ip
              · simp [pass, reply, sender]
              · simp [sender, Ne.symm sender]
          · rw [if_neg reply]
            constructor
            · rw [registerArpEntry_list]
              exact awaits.single
            · intro ip
              rw [registerArpEntry_list, awaits.pending_iff ip, await, asks,
                if_neg fun all => reply all.2.1]

/-- Over every run of a host the addresses that are pending, each once, are those asked for since
the last reply from them, and for these nothing more is sent: a request goes out only for an address
that is not waited for. -/
theorem arp_pending_last (eths : Eths) (calls : List Call) :
    (Awaits (Lib.Run.run (step eths) arpInit calls) fun ip => Waiting ip calls) ∧
      ∀ ip nif curTs mbuf,
        (serve eths (Lib.Run.run (step eths) arpInit calls) (.request ip nif curTs mbuf)).2.isSome ↔
          mbuf = true ∧ ¬ Waiting ip calls := by
  have all : Awaits (Lib.Run.run (step eths) arpInit calls) fun ip => Waiting ip calls := by
    induction calls using List.reverseRecOn with
    | nil => exact ⟨List.nodup_nil, fun _ => by simp [Lib.Run.run, arpInit, Waiting]⟩
    | append_singleton calls call ih =>
        rw [Lib.Run.run_append, waiting_append]
        exact ih.step eths call
  refine ⟨all, fun ip nif curTs mbuf => ?_⟩
  rw [serve, ArpState.requestArp, ← any_pending all ip]
  split
  · next pending => simp [pending]
  · next free => cases mbuf <;> simp [free, arpOutput]

end Arp

end QStack
