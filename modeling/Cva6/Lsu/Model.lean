import Cva6.Lsu.Bypass
import Cva6.Lsu.LoadUnit
import Cva6.Lsu.StoreUnit
import Cva6.Dcache.Types
import Cva6.Riscv
/-!
# The load-store unit

`load_store_unit.sv` as it is built without an MMU (`MMU_PRESENT = 0`): an address
translates to itself in one cycle, every translation hits and none excepts. The
instruction in the issue register (`fu_data_q` and `lsu_valid_q` of
`issue_read_operands.sv`) is part of the state, since the unit is given a new one only
when it was ready in the cycle before. The commit stage and the data cache are the
environment.
-/

namespace Cva6.Lsu

open Cva6.Sync

structure FuData where
  fu : Fu
  operator : FuOp
  operandA : XLen
  operandB : XLen
  imm : XLen
  transId : TransId
  deriving DecidableEq, Repr, Inhabited

def FuData.vaddr (d : FuData) : XLen := d.imm + d.operandA

/-- `lsu_req_i`. With 32-bit addresses the bits that `overflow` compares are one bit. -/
def lsuReq (lsuValid : Bool) (d : FuData) : LsuCtrl where
  valid := lsuValid
  vaddr := d.vaddr
  overflow := !(d.vaddr.getLsbD 31 || !d.vaddr.getLsbD 31)
  data := d.operandB.setWidth 64
  be := beGen (d.vaddr.setWidth 3) (extractTransferSize d.operator)
  fu := d.fu
  operator := d.operator
  transId := d.transId

/-! ## Misalignment -/

def dataMisaligned (c : LsuCtrl) : Bool :=
  c.valid &&
    match c.operator with
    | .LD | .SD | .FLD | .FSD | .AMO_LRD | .AMO_SCD | .AMO_SWAPD | .AMO_ADDD | .AMO_ANDD
    | .AMO_ORD | .AMO_XORD | .AMO_MAXD | .AMO_MAXDU | .AMO_MIND | .AMO_MINDU =>
        c.vaddr.setWidth 3 != 0
    | .LW | .LWU | .SW | .FLW | .FSW | .AMO_LRW | .AMO_SCW | .AMO_SWAPW | .AMO_ADDW | .AMO_ANDW
    | .AMO_ORW | .AMO_XORW | .AMO_MAXW | .AMO_MAXWU | .AMO_MINW | .AMO_MINWU =>
        c.vaddr.setWidth 2 != 0
    | .LH | .LHU | .SH | .FLH | .FSH => c.vaddr.getLsbD 0
    | _ => false

def misalignedException (c : LsuCtrl) (enLdStTranslation : Bool) : Exception :=
  let ex : Exception := ⟨0, 0, false⟩
  let ex :=
    if dataMisaligned c then
      if c.fu = .LOAD then ⟨Riscv.ldAddrMisaligned, c.vaddr, true⟩
      else if c.fu = .STORE then ⟨Riscv.stAddrMisaligned, c.vaddr, true⟩
      else ex
    else ex
  if enLdStTranslation && c.overflow then
    if c.fu = .LOAD then ⟨Riscv.ldAccessFault, c.vaddr, true⟩
    else if c.fu = .STORE then ⟨Riscv.stAccessFault, c.vaddr, true⟩
    else ex
  else ex

/-- `mmu_exception` of the branch `no_mmu_gen`: the misaligned exception is an input of the
MMU only, and is dropped with it. -/
def mmuException : Exception := ⟨0, 0, false⟩

/-! ## The unit -/

structure Input where
  flush : Bool
  /-- The instruction the issue stage would issue to the LSU in this cycle. -/
  fuData : FuData
  issueValid : Bool
  commit : Bool
  commitTranId : TransId
  amoValidCommit : Bool
  amoAck : Bool
  storeGnt : Bool
  loadGnt : Bool
  loadRvalid : Bool
  loadRdata : BitVec 64
  dcacheWbufferNotNi : Bool
  deriving DecidableEq, Repr, Inhabited

structure State where
  /-- `lsu_valid_q` and `fu_data_q` of the issue stage. -/
  lsuValid : Bool
  fuData : FuData
  bypass : Bypass.Regs
  load : LoadUnit.Regs
  store : StoreUnit.State
  mmuPaddr : BitVec 32
  /-- `i_pipe_reg_load`. -/
  loadPipe : LoadUnit.Output

/-- The non-idempotent pages of `ariane_cfg_t`. -/
abbrev NonIdempotent := BitVec 20 → Bool

variable (ni : NonIdempotent) (s : State) (i : Input)

def lsuReady : Bool := Bypass.ready s.bypass

def lsuCtrl : LsuCtrl := Bypass.lsuCtrl s.bypass (lsuReq s.lsuValid s.fuData)

def ldValid : Bool := (lsuCtrl s).fu == .LOAD && (lsuCtrl s).valid

def mmuVaddr : XLen :=
  if (lsuCtrl s).fu = .LOAD ∨ (lsuCtrl s).fu = .STORE then (lsuCtrl s).vaddr else 0

def storeIn : StoreUnit.Input where
  flush := i.flush
  lsuCtrl := lsuCtrl s
  dtlbHit := true
  exValid := mmuException.valid
  paddr := s.mmuPaddr
  commit := i.commit
  amoValidCommit := i.amoValidCommit
  amoAck := i.amoAck
  dataGnt := i.storeGnt

def storeOut : StoreUnit.ControlOut := StoreUnit.control s.store (storeIn s i)

def pageOffsetMatches : Bool :=
  StoreBuffer.pageOffsetMatches s.store.buffer ((lsuCtrl s).vaddr.setWidth 12) s.mmuPaddr
    (storeOut s i).stValidWithoutFlush

/-- `stall_ni`: a load from a non-idempotent page waits for the older stores and until it
is the oldest instruction. -/
def stallNi : Bool :=
  let inflightStores := !i.dcacheWbufferNotNi || !StoreBuffer.storeBufferEmpty s.store.buffer
  let notCommitTime := i.commitTranId != (lsuCtrl s).transId
  (inflightStores || notCommitTime) && ni ((mmuVaddr s).extractLsb' 12 20)

def loadIn : LoadUnit.Input where
  flush := i.flush
  valid := ldValid s
  lsuCtrl := lsuCtrl s
  pageOffsetMatches := pageOffsetMatches s i
  dtlbHit := true
  stallNi := stallNi ni s i
  ex := mmuException
  wbufferNotNi := i.dcacheWbufferNotNi
  dataGnt := i.loadGnt
  dataRvalid := i.loadRvalid
  dataRdata := i.loadRdata

def loadOut : LoadUnit.ControlOut := LoadUnit.control s.load (loadIn ni s i)

def loadReq : Dcache.LoadReq where
  idx := (lsuCtrl s).vaddr.extractLsb' 4 8
  bank := if (lsuCtrl s).vaddr.getLsbD 3 then 1 else 0
  lane := Fin.ofNat 8 ((lsuCtrl s).vaddr.setWidth 3).toNat
  tag := s.mmuPaddr.extractLsb' 12 20
  dataReq := (loadOut ni s i).dataReq
  dataSize := extractTransferSize (lsuCtrl s).operator
  killReq := (loadOut ni s i).killReq
  tagValid := (loadOut ni s i).tagValid

def bypassIn : Bypass.Input where
  flush := i.flush
  lsuReq := lsuReq s.lsuValid s.fuData
  popLd := (loadOut ni s i).popLd
  popSt := (storeOut s i).popSt

def loadStoreUnit : Machine State Input where
  init :=
    { lsuValid := false
      fuData := default
      bypass := Bypass.reset
      load := LoadUnit.reset
      store := StoreUnit.storeUnit.init
      mmuPaddr := 0
      loadPipe := default }
  next s i :=
    { lsuValid := i.issueValid && lsuReady s && !i.flush &&
        (i.fuData.fu == .LOAD || i.fuData.fu == .STORE)
      fuData := i.fuData
      bypass := Bypass.next s.bypass (bypassIn ni s i)
      load := LoadUnit.next s.load (loadIn ni s i)
      store := StoreUnit.storeUnit.next s.store (storeIn s i)
      mmuPaddr := mmuVaddr s
      loadPipe := LoadUnit.output s.load (loadIn ni s i) }

/-! ## Write-back -/

structure WriteBack where
  transId : TransId
  ex : Exception
  deriving DecidableEq, Repr

/-- What the load port, which is registered, and the store port write back in a cycle. -/
def writeBacks : List WriteBack :=
  (if s.loadPipe.valid then [⟨s.loadPipe.transId, s.loadPipe.ex⟩] else []) ++
    (if (storeOut s i).valid then [⟨s.store.unit.transId, mmuException⟩] else [])

end Cva6.Lsu
