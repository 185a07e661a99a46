import Cva6.Frontend.Scan
/-!
# Re-alignment of fetched words

`instr_realign.sv` for 32-bit fetches. The word comes with its address, already shifted
so that its first parcel is the one at the address. A 32-bit instruction that starts in
the upper half of a word waits for the next word.
-/

namespace Cva6.Frontend

namespace Realign

structure Regs where
  unalignedInstr : BitVec 16
  unaligned : Bool
  unalignedAddress : XLen
  deriving DecidableEq, Repr, Inhabited

def reset : Regs := ⟨0, false, 0⟩

structure Input where
  flush : Bool
  valid : Bool
  address : XLen
  data : BitVec 32
  deriving DecidableEq, Repr, Inhabited

/-- An instruction found in the fetched word. -/
structure Slot where
  valid : Bool
  addr : XLen
  instr : BitVec 32
  deriving DecidableEq, Repr, Inhabited

variable (q : Regs) (i : Input)

def isCompressed (w : BitVec 16) : Bool := w.extractLsb 1 0 != 0b11

def lower : BitVec 16 := i.data.extractLsb 15 0
def upper : BitVec 16 := i.data.extractLsb 31 16

def upperAddress : XLen := i.address.extractLsb 31 2 ++ 0b10#2

/-- We start to fetch in the upper half of a word. -/
def startsUpper : Bool := i.valid && i.address.getLsbD 1

def slot0 : Slot where
  valid := i.valid && !(startsUpper i && !isCompressed (lower i))
  addr := if q.unaligned then q.unalignedAddress else i.address
  instr := if q.unaligned then lower i ++ q.unalignedInstr else i.data

/-- The lower half completes an instruction, so that the upper half starts one. -/
def splits : Bool := isCompressed (lower i) || q.unaligned

def slot1 : Slot where
  valid := i.valid && splits q i && isCompressed (upper i) && !startsUpper i
  addr := upperAddress i
  instr := if splits q i && isCompressed (upper i) then 0#16 ++ upper i else 0

def unalignedD : Bool :=
  if startsUpper i && !isCompressed (lower i) then true
  else if splits q i then !isCompressed (upper i)
  else q.unaligned

def unalignedInstrD : BitVec 16 :=
  if startsUpper i && !isCompressed (lower i) then lower i else upper i

def next : Regs where
  unalignedInstr := if i.valid then unalignedInstrD i else q.unalignedInstr
  unaligned := if i.flush then false else if i.valid then unalignedD q i else q.unaligned
  unalignedAddress := if i.valid then upperAddress i else q.unalignedAddress

end Realign

end Cva6.Frontend
