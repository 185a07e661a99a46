import Cva6.Dcache.Types
import Cva6.Sync.Fifo
/-!
# The AXI adapter

`wt_axi_adapter.sv` with the arbiter `rr_arb_tree.sv` and the protocol shim
`axi_shim.sv` it contains. All writes are single transfers, so that the shim never
enters the states of its bursts. A 64-bit beat is kept as its eight byte lanes.
-/

namespace Cva6.Axi

open Cva6.Sync Cva6.Dcache

structure IcacheReq where
  paddr : XLen
  nc : Bool
  tid : TxId
  deriving DecidableEq, Repr, Inhabited

/-- What the adapter returns to the instruction cache; the type is always
`ICACHE_IFILL_ACK`. -/
structure IcacheRtrn where
  tid : TxId
  data : Line
  deriving DecidableEq, Inhabited

abbrev AxiId := BitVec 4

structure Resp where
  awReady : Bool
  wReady : Bool
  arReady : Bool
  bValid : Bool
  bId : AxiId
  bExokay : Bool
  rValid : Bool
  rId : AxiId
  rData : Word
  rLast : Bool
  deriving DecidableEq, Inhabited

inductive WrState where
  | IDLE | WAIT_AW_READY | WAIT_LAST_W_READY
  deriving DecidableEq, Repr, Inhabited

/-- A shift register of one line, with the flag of the first beat. -/
structure Shift where
  first : Bool
  data : Line
  deriving DecidableEq, Inhabited

structure Regs where
  icacheData : Fifo IcacheReq 1
  dcacheData : Fifo MemReq 1
  rdIcacheId : Fifo TxId 2
  rdDcacheId : Fifo TxId 2
  wrDcacheId : Fifo TxId 2
  bFifo : Fifo (Bool × AxiId) 2
  /-- The registers of the arbiter. -/
  lock : Bool
  req0 : Bool
  req1 : Bool
  rr : Bool
  wrState : WrState
  icacheShift : Shift
  dcacheShift : Shift
  icacheRtrnVld : Bool
  icacheRtrnTid : TxId
  dcacheRtrnVld : Bool
  dcacheRtrnTid : TxId
  dcacheRtrnType : RtrnType
  dcacheRtrnInv : Inval
  amoOff : Lane
  amoGenR : Bool

def zeroLine : Line := fun _ _ => 0

def noInval : Inval := ⟨false, false, 0, 0⟩

def zeroReq : MemReq := ⟨.STORE, 0, ⟨⟨0, 0, 0⟩, 0⟩, fun _ => 0, false, 0, .NONE⟩

def reset : Regs where
  icacheData := Fifo.reset ⟨0, false, 0⟩
  dcacheData := Fifo.reset zeroReq
  rdIcacheId := Fifo.reset 0
  rdDcacheId := Fifo.reset 0
  wrDcacheId := Fifo.reset 0
  bFifo := Fifo.reset (false, 0)
  lock := false
  req0 := false
  req1 := false
  rr := false
  wrState := .IDLE
  icacheShift := ⟨true, zeroLine⟩
  dcacheShift := ⟨true, zeroLine⟩
  icacheRtrnVld := false
  icacheRtrnTid := 0
  dcacheRtrnVld := false
  dcacheRtrnTid := 0
  dcacheRtrnType := .LOAD_ACK
  dcacheRtrnInv := noInval
  amoOff := 0
  amoGenR := false

structure Input where
  icacheDataReq : Bool
  icacheData : IcacheReq
  dcacheDataReq : Bool
  dcacheData : MemReq
  axi : Resp
  deriving Inhabited

variable (q : Regs) (i : Input)

/-! ## Requests -/

def icacheDataAck : Bool := i.icacheDataReq && !q.icacheData.full
def dcacheDataAck : Bool := i.dcacheDataReq && !q.dcacheData.full

def icacheHead : IcacheReq := q.icacheData.mem q.icacheData.readPointer
def dcacheHead : MemReq := q.dcacheData.mem q.dcacheData.readPointer

def arbReq0 : Bool := !(q.icacheData.empty false false || q.rdIcacheId.full)
def arbReq1 : Bool := !(q.dcacheData.empty false false || q.wrDcacheId.full || q.rdDcacheId.full)

/-- The requests the arbiter looks at: those it is locked on, or all. -/
def reqD0 : Bool := if q.lock then q.req0 else arbReq0 q
def reqD1 : Bool := if q.lock then q.req1 else arbReq1 q

/-- `arb_idx`: the data cache is selected. -/
def arbIdx : Bool := !reqD0 q || (reqD1 q && q.rr)

def arbAny : Bool := arbReq0 q || arbReq1 q

def selects (t : ReqType) : Bool := arbAny q && arbIdx q && (dcacheHead q).rtype == t

def rdReq : Bool :=
  (arbAny q && !arbIdx q) || selects q .LOAD || (selects q .ATOMIC && (dcacheHead q).amoOp == .LR)

def wrReq : Bool := selects q .STORE || (selects q .ATOMIC && (dcacheHead q).amoOp != .LR)

def rdGnt : Bool := rdReq q && i.axi.arReady

def wrGnt : Bool :=
  match q.wrState with
  | .IDLE => wrReq q && i.axi.awReady && i.axi.wReady
  | .WAIT_AW_READY => i.axi.awReady
  | .WAIT_LAST_W_READY => i.axi.wReady

def arbGnt : Bool := rdGnt q i || wrGnt q i

def arbAck0 : Bool := arbGnt q i && !arbIdx q
def arbAck1 : Bool := arbGnt q i && arbIdx q

def wrStateD : WrState :=
  match q.wrState with
  | .IDLE =>
      if wrReq q then
        match i.axi.awReady, i.axi.wReady with
        | false, true => .WAIT_AW_READY
        | true, false => .WAIT_LAST_W_READY
        | _, _ => .IDLE
      else .IDLE
  | .WAIT_AW_READY => if i.axi.awReady then .IDLE else .WAIT_AW_READY
  | .WAIT_LAST_W_READY => if i.axi.wReady then .IDLE else .WAIT_LAST_W_READY

/-- `axi_rd_blen`, as the number of beats. -/
def rdBeats : Nat :=
  if arbIdx q then (if (dcacheHead q).size.getLsbD 2 then 2 else 1)
  else if (icacheHead q).nc then 1 else 2

def amoOffD : Lane :=
  if selects q .ATOMIC && (dcacheHead q).amoOp == .SC then
    match (dcacheHead q).size.setWidth 2 with
    | 0#2 => (dcacheHead q).paddr.lane
    | 1#2 => Fin.ofNat 8 ((dcacheHead q).paddr.lane.val / 2 * 2)
    | 2#2 => Fin.ofNat 8 ((dcacheHead q).paddr.lane.val / 4 * 4)
    | _ => 0
  else 0

def amoGenRD : Bool := if selects q .ATOMIC then (dcacheHead q).amoOp != .SC else q.amoGenR

def invalidate : Bool := selects q .ATOMIC && arbGnt q i

/-! ## Responses -/

def rdRdy : Bool := !invalidate q i

def icacheRdEn : Bool := i.axi.rValid && i.axi.rId == 0 && rdRdy q i

def dcacheRdEn : Bool := i.axi.rValid && i.axi.rId.getLsbD 0 && rdRdy q i

def bPush : Bool := i.axi.bValid && !q.bFifo.full

def bEmpty : Bool := q.bFifo.empty true (bPush q i)

/-- `{wr_exokay, wr_id_out}`. -/
def bOut : Bool × AxiId := q.bFifo.dataO true (bPush q i) (i.axi.bExokay, i.axi.bId)

def bPop : Bool := !invalidate q i && !dcacheRdEn q i && !bEmpty q i

def bAtomic : Bool := (bOut q i).2.getLsbD 1

/-- The response is discarded: the atomic is answered by its read beat. -/
def bDiscard : Bool := bAtomic q i && q.amoGenR

def dcacheScRtrn : Bool := bPop q i && bAtomic q i && !q.amoGenR

def dcacheWrPop : Bool :=
  (dcacheRdEn q i && i.axi.rId.getLsbD 1 && !q.wrDcacheId.empty false false && i.axi.rLast) ||
    (bPop q i && !bDiscard q i)

def dcacheRdPop : Bool :=
  dcacheRdEn q i && !(i.axi.rId.getLsbD 1 && !q.wrDcacheId.empty false false) && i.axi.rLast

def icacheRtrnVldD : Bool := icacheRdEn q i && i.axi.rLast

def dcacheRtrnVldD : Bool :=
  invalidate q i || (dcacheRdEn q i && i.axi.rLast) || (bPop q i && !bDiscard q i)

def dcacheRtrnTypeD : RtrnType :=
  if invalidate q i then .INV_REQ
  else if dcacheRdEn q i then (if i.axi.rId.getLsbD 1 then .ATOMIC_ACK else .LOAD_ACK)
  else if bPop q i then (if bAtomic q i then .ATOMIC_ACK else .STORE_ACK)
  else .LOAD_ACK

def dcacheRtrnInvD : Inval :=
  if invalidate q i then ⟨false, true, (dcacheHead q).paddr.word.idx, 0⟩ else noInval

def dcacheRtrnTidD : TxId :=
  if dcacheWrPop q i then q.wrDcacheId.mem q.wrDcacheId.readPointer
  else q.rdDcacheId.mem q.rdDcacheId.readPointer

/-- A beat is shifted in from the top; the first one is also placed at the bottom. -/
def Shift.push (r : Shift) (beat : Word) (last : Bool) : Shift where
  first := last
  data := fun k => if k = 1 then beat else if r.first then beat else r.data 1

/-- The success of a store-conditional: the lowest bit of the byte at the offset. -/
def scWord (off : Lane) (exokay : Bool) : Word := fun k =>
  if k = off then (if exokay then 0 else 1) else 0

def dcacheShiftD : Shift :=
  if dcacheRdEn q i then q.dcacheShift.push i.axi.rData i.axi.rLast
  else if dcacheScRtrn q i then
    { q.dcacheShift with
      data := fun k => if k = 0 then scWord q.amoOff (bOut q i).1 else q.dcacheShift.data k }
  else q.dcacheShift

/-! ## The clocked processes -/

def next : Regs where
  icacheData := q.icacheData.next false (icacheDataAck q i) (arbAck0 q i) i.icacheData
  dcacheData := q.dcacheData.next false (dcacheDataAck q i) (arbAck1 q i) i.dcacheData
  rdIcacheId :=
    q.rdIcacheId.next false (arbAck0 q i && rdGnt q i) (icacheRtrnVldD q i) (icacheHead q).tid
  rdDcacheId :=
    q.rdDcacheId.next false (arbAck1 q i && rdGnt q i) (dcacheRdPop q i) (dcacheHead q).tid
  wrDcacheId :=
    q.wrDcacheId.next false (arbAck1 q i && wrGnt q i) (dcacheWrPop q i) (dcacheHead q).tid
  bFifo := q.bFifo.next true (bPush q i) (bPop q i) (i.axi.bExokay, i.axi.bId)
  lock := (reqD0 q || reqD1 q) && !arbGnt q i
  req0 := reqD0 q
  req1 := reqD1 q
  rr := if arbGnt q i && (reqD0 q || reqD1 q) then !q.rr else q.rr
  wrState := wrStateD q i
  icacheShift :=
    if icacheRdEn q i then q.icacheShift.push i.axi.rData i.axi.rLast else q.icacheShift
  dcacheShift := dcacheShiftD q i
  icacheRtrnVld := icacheRtrnVldD q i
  icacheRtrnTid := q.rdIcacheId.mem q.rdIcacheId.readPointer
  dcacheRtrnVld := dcacheRtrnVldD q i
  dcacheRtrnTid := dcacheRtrnTidD q i
  dcacheRtrnType := dcacheRtrnTypeD q i
  dcacheRtrnInv := dcacheRtrnInvD q i
  amoOff := amoOffD q
  amoGenR := amoGenRD q

def icacheRtrn : Option IcacheRtrn :=
  if q.icacheRtrnVld then some ⟨q.icacheRtrnTid, q.icacheShift.data⟩ else none

def dcacheRtrn : Option Rtrn :=
  if q.dcacheRtrnVld then
    some ⟨q.dcacheRtrnType, q.dcacheShift.data, q.dcacheRtrnInv, q.dcacheRtrnTid⟩
  else none

end Cva6.Axi
