/-
# QStack.Mbuf -- packet buffers and the memory they live in

The fields of `rte_mbuf` that the stack adds (`mbuf_state`, `priority`,
`holding`, `payload_len`, `tcp_seq`) with the two it reads besides (`l4_len` and
the payload itself).  An mbuf is named by its address; `MbufId` stands for it,
and `MbufMem` is the memory.

`mbuf_free` hands the mbuf back to its pool whatever its state is, so the model
only marks it free and notes the call: `freed` lists the calls, latest first.
`mbuf_list` is an intrusive list; its contents are modelled as a `List`.
-/
import QStack.Universal

namespace QStack

set_option autoImplicit false

/-- `MBUF_STATE_*` -/
inductive MbufState where
  | free | rcved | rbuffed | rread | rdone
  | talloc | tbuffed | tgnrt | sent | loss | retrans | acked
deriving DecidableEq, Repr

structure Mbuf where
  mbufState : MbufState := .free
  priority : Bool := false
  holding : Bool := false
  /-- a `uint16_t` -/
  payloadLen : Nat := 0
  tcpSeq : Seq := 0
  l4Len : Nat := 0
  payload : List (BitVec 8) := []
deriving DecidableEq, Repr

namespace Mbuf

/-- `payload_len` as it is added to a sequence number. -/
def len (m : Mbuf) : Seq := BitVec.ofNat 32 m.payloadLen

def seqEnd (m : Mbuf) : Seq := m.tcpSeq + m.len

end Mbuf

abbrev MbufId := Nat

structure MbufMem where
  mbuf : MbufId → Mbuf
  freed : List MbufId := []

namespace MbufMem

def modify (mem : MbufMem) (id : MbufId) (f : Mbuf → Mbuf) : MbufMem :=
  { mem with mbuf := Function.update mem.mbuf id (f (mem.mbuf id)) }

def mbufFree (mem : MbufMem) (id : MbufId) : MbufMem :=
  { mem.modify id (fun m => { m with mbufState := .free }) with freed := id :: mem.freed }

@[simp] theorem modify_self (mem : MbufMem) (id : MbufId) (f : Mbuf → Mbuf) :
    (mem.modify id f).mbuf id = f (mem.mbuf id) := by
  simp [modify]

theorem modify_of_ne (mem : MbufMem) {id other : MbufId} (f : Mbuf → Mbuf) (ne : other ≠ id) :
    (mem.modify id f).mbuf other = mem.mbuf other := by
  simp [modify, Function.update_of_ne ne]

@[simp] theorem modify_freed (mem : MbufMem) (id : MbufId) (f : Mbuf → Mbuf) :
    (mem.modify id f).freed = mem.freed := rfl

@[simp] theorem mbufFree_mbuf (mem : MbufMem) (id : MbufId) :
    (mem.mbufFree id).mbuf =
      (mem.modify id (fun m => { m with mbufState := .free })).mbuf := rfl

@[simp] theorem mbufFree_freed (mem : MbufMem) (id : MbufId) :
    (mem.mbufFree id).freed = id :: mem.freed := rfl

end MbufMem

end QStack
