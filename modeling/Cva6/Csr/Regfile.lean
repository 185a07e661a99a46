import Cva6.Csr.Regs
/-!
# The CSR register file

The combinational processes of `csr_regfile.sv` and its clocked process. The
process `csr_update` is kept as a chain of blocks over an `Update`, in source
order. The access part (privilege, read, operation, `csr_exception_o`) reads
only the registers and the operation the commit stage selects, so it is
separate from the part that reacts to the exception the commit stage takes.
-/

namespace Cva6.Csr

open Cva6.Riscv

/-- Inputs from outside the pipeline. `dmBaseAddress` is the parameter of that
name. -/
structure Platform where
  timeIrq : Bool
  ipi : Bool
  irq0 : Bool
  irq1 : Bool
  debugReq : Bool
  bootAddr : XLen
  hartId : XLen
  perfData : XLen
  dmBaseAddress : XLen
  deriving DecidableEq, Repr, Inhabited

/-- The CSR access the commit stage and the CSR buffer present. -/
structure Access where
  csrOp : FuOp
  csrAddr : BitVec 12
  csrWdata : XLen
  deriving DecidableEq, Repr, Inhabited

structure Retire where
  commitInstr0 : ScoreboardEntry
  commitAck : CommitAck
  ex : Exception
  csrWriteFflags : Bool
  pc : XLen
  deriving DecidableEq, Repr, Inhabited

/-! ## Accesses -/

def isAccess (op : FuOp) : Bool :=
  op == .CSR_WRITE || op == .CSR_SET || op == .CSR_CLEAR || op == .CSR_READ

def isXret (op : FuOp) : Bool :=
  op == .MRET || op == .SRET || op == .DRET

/-- The process `privilege_check`. Inside the counter range the last rule
replaces the first two. -/
def privilegeViolation (q : Regs) (op : FuOp) (addr : BitVec 12) : Bool :=
  let lvl := addr.extractLsb' 8 2
  if isAccess op then
    let v := false
    let v := if (q.privLvlO &&& lvl) != lvl then true else v
    let v := if addr.extractLsb' 4 8 == 0x7b && !q.debugMode then true else v
    if 0xC00#12 ≤ addr ∧ addr ≤ 0xC1F#12 then
      let n := (addr.setWidth 5).toNat
      if lvl == privLvlM then false
      else if lvl == privLvlS then !q.mcounteren.getLsbD n
      else if lvl == privLvlU then !q.mcounteren.getLsbD n && !q.scounteren.getLsbD n
      else v
    else v
  else false

structure OpSelect where
  csrWe : Bool
  csrRead : Bool
  mret : Bool
  sret : Bool
  dret : Bool
  deriving DecidableEq, Repr

def opSelect (q : Regs) (op : FuOp) (addr : BitVec 12) : OpSelect :=
  let s : OpSelect :=
    match op with
    | .CSR_WRITE | .CSR_SET | .CSR_CLEAR => ⟨true, true, false, false, false⟩
    | .CSR_READ => ⟨false, true, false, false, false⟩
    | .SRET => ⟨false, false, false, true, false⟩
    | .MRET => ⟨false, false, true, false, false⟩
    | .DRET => ⟨false, false, false, false, true⟩
    | _ => ⟨false, false, false, false, false⟩
  if privilegeViolation q op addr then { s with csrWe := false, csrRead := false } else s

variable (q : Regs) (p : Platform) (a : Access) (r : Retire)

def strobes : OpSelect := opSelect q a.csrOp a.csrAddr

def readResult : Option XLen :=
  (CsrReg.ofAddr a.csrAddr).bind (readReg q p.hartId p.perfData)

def csrRdata : XLen :=
  if (strobes q a).csrRead then (readResult q p a).getD 0 else 0

def readAccessException : Bool :=
  (strobes q a).csrRead && (readResult q p a).isNone

def csrWdata : XLen :=
  match a.csrOp with
  | .CSR_SET => a.csrWdata ||| csrRdata q p a
  | .CSR_CLEAR => ~~~a.csrWdata &&& csrRdata q p a
  | _ => a.csrWdata

/-- `csr_rdata_o`: reads of the pending registers see the external interrupt. -/
def csrRdataO : XLen :=
  match CsrReg.ofAddr a.csrAddr with
  | some .mip => csrRdata q p a ||| (if p.irq1 then mipSeip else 0)
  | some .sip => csrRdata q p a ||| (if p.irq1 && q.mideleg.getLsbD irqSExt then mipSeip else 0)
  | _ => csrRdata q p a

/-- The write part of `csr_update`, guarded by `csr_we`. -/
def writeBlock (u : Update) : Update :=
  if (strobes q a).csrWe then
    match CsrReg.ofAddr a.csrAddr with
    | some reg => writeReg q (csrWdata q p a) u reg
    | none => { u with updateAccessException := true }
  else u

def Update.idle (d : Regs) : Update :=
  ⟨d, false, false, false, false, false, 0⟩

def updateAccessException : Bool :=
  (writeBlock q p a (Update.idle q)).updateAccessException

/-- The process `exception_ctrl`, with the violation flag of the control-flow
integrity detector as an additional cause. -/
def csrException (cfiInterupt : Bool) : Exception :=
  let ex : Exception := ⟨0, 0, false⟩
  let ex :=
    if updateAccessException q p a || readAccessException q p a || cfiInterupt then
      { ex with cause := illegalInstr, valid := true }
    else ex
  if privilegeViolation q a.csrOp a.csrAddr || cfiInterupt then
    { ex with cause := illegalInstr, valid := true }
  else ex

/-! ## Traps -/

/-- An exception that is taken as a trap: outside debug mode, and not a request
to enter it. -/
def takesTrap : Bool :=
  !q.debugMode && r.ex.cause != debugRequest && r.ex.valid

def delegated (ex : Exception) : Bool :=
  let n := (ex.cause.setWidth 5).toNat
  (ex.cause.getLsbD 31 && q.mideleg.getLsbD n) || (!ex.cause.getLsbD 31 && q.medeleg.getLsbD n)

def trapToPrivLvl : PrivLvl :=
  if takesTrap q r then
    if delegated q r.ex then (if q.privLvlO == privLvlM then privLvlM else privLvlS) else privLvlM
  else privLvlM

def trapVectorBase : XLen :=
  let base := q.mtvec.extractLsb' 2 30 ++ 0#2
  let base := if trapToPrivLvl q r == privLvlS then q.stvec.extractLsb' 2 30 ++ 0#2 else base
  let base := if q.debugMode then p.dmBaseAddress + 0x808 else base
  if (q.mtvec.getLsbD 0 || q.stvec.getLsbD 0) && r.ex.cause.getLsbD 31 then
    base.extractLsb' 8 24 ++ r.ex.cause.extractLsb' 0 6 ++ base.extractLsb' 0 2
  else base

def epc : XLen :=
  let e := q.mepc
  let e := if (strobes q a).sret then q.sepc else e
  if (strobes q a).dret then q.dpc else e

/-! ## The blocks of `csr_update` -/

def counters : Update :=
  let d :=
    if !q.debugMode then
      let n := q.instret
      let n := if r.commitAck.ack0 && !r.ex.valid then n + 1 else n
      let n := if r.commitAck.ack1 && !r.ex.valid then n + 1 else n
      { q with instret := n, cycle := q.cycle + 1 }
    else q
  Update.idle { d with mtvec := if q.mtvecRstLoad then p.bootAddr + 0x40 else q.mtvec }

def setBit (x : XLen) (n : Nat) (b : Bool) : XLen :=
  (x &&& ~~~(1#32 <<< n)) ||| (if b then 1#32 <<< n else 0)

/-- The hardwired status fields, the accrued floating-point flags and the
interrupt lines. -/
def hardwired (u : Update) : Update :=
  let mstatus := { u.d.mstatus with
    sxl := xlen64, uxl := xlen64,
    sd := q.mstatus.xs == xsDirty || q.mstatus.fs == xsDirty }
  let fcsr :=
    if r.csrWriteFflags then { u.d.fcsr with fflags := a.csrWdata.setWidth 5 ||| q.fcsr.fflags }
    else u.d.fcsr
  let mip := setBit u.d.mip irqMExt p.irq0
  let mip := setBit mip irqMSoft p.ipi
  let mip := setBit mip irqMTimer p.timeIrq
  { u with d := { u.d with mstatus := mstatus, fcsr := fcsr, mip := mip } }

/-- Manage Exception Stack. `ZERO_TVAL` is 0, so `tval` is always recorded. -/
def exceptionStack (u : Update) : Update :=
  if takesTrap q r then
    let u := { u with flush := false }
    if trapToPrivLvl q r == privLvlS then
      { u with
        d := { u.d with
          mstatus := { u.d.mstatus with
            sie := false, spie := q.mstatus.sie, spp := q.privLvl.getLsbD 0 }
          scause := r.ex.cause
          sepc := r.pc
          stval := r.ex.tval
          privLvl := trapToPrivLvl q r } }
    else
      { u with
        d := { u.d with
          mstatus := { u.d.mstatus with
            mie := false, mpie := q.mstatus.mie, mpp := q.privLvl }
          mcause := r.ex.cause
          mepc := r.pc
          mtval := r.ex.tval
          privLvl := trapToPrivLvl q r } }
  else u

def ebreakEnabled : Option Bool :=
  if q.privLvlO == privLvlM then some q.dcsr.ebreakm
  else if q.privLvlO == privLvlS then some q.dcsr.ebreaks
  else if q.privLvlO == privLvlU then some q.dcsr.ebreaku
  else none

def debugBreakpoint (u : Update) : Update :=
  if r.ex.valid && r.ex.cause == breakpoint then
    let u :=
      match ebreakEnabled q with
      | some b => { u with d.debugMode := b, setDebugPc := b }
      | none => u
    { u with d := { u.d with dpc := r.pc, dcsr := { u.d.dcsr with
        prv := q.privLvlO, cause := causeBreakpoint } } }
  else u

def debugReqEntry (u : Update) : Update :=
  if r.ex.valid && r.ex.cause == debugRequest then
    { u with
      d := { u.d with
        dpc := r.pc
        debugMode := true
        dcsr := { u.d.dcsr with prv := q.privLvlO, cause := causeRequest } }
      setDebugPc := true }
  else u

/-- Single step: an instruction has just retired with `dcsr.step` set. The block
stands before the returns, so the `eret_o` it reads is still the default. -/
def debugSingleStep (u : Update) : Update :=
  if q.dcsr.step && r.commitAck.ack0 then
    let e := r.commitInstr0
    let dpc :=
      if e.fu == .CTRL_FLOW then e.bp.predictAddress
      else if r.ex.valid then trapVectorBase q p r
      else if u.eret then epc q a
      else e.pc + (if e.isCompressed then 2 else 4)
    { u with
      d := { u.d with
        dpc := dpc
        debugMode := true
        dcsr := { u.d.dcsr with prv := q.privLvlO, cause := causeSingleStep } }
      setDebugPc := true }
  else u

def debugBlock (u : Update) : Update :=
  let u :=
    if !q.debugMode then
      debugSingleStep q p a r (debugReqEntry q r (debugBreakpoint q r
        { u with d.dcsr := { u.d.dcsr with prv := q.privLvlO } }))
    else u
  if q.debugMode && r.ex.valid && r.ex.cause == breakpoint then { u with setDebugPc := true }
  else u

def mprv : Bool :=
  if q.debugMode && !q.dcsr.mprven then false else q.mstatus.mprv

def enTranslation : Bool :=
  q.satp.mode == modeSv && q.privLvlO != privLvlM

def translation (u : Update) : Update :=
  if mprv q && q.satp.mode == modeSv && q.mstatus.mpp != privLvlM then
    { u with d.enLdStTranslation := true }
  else { u with d.enLdStTranslation := enTranslation q }

/-- Return from Environment. -/
def xret (u : Update) : Update :=
  let u :=
    if (strobes q a).mret then
      { u with
        eret := true
        d := { u.d with
          mstatus := { u.d.mstatus with mie := q.mstatus.mpie, mpp := privLvlU, mpie := true }
          privLvl := q.mstatus.mpp } }
    else u
  let u :=
    if (strobes q a).sret then
      { u with
        eret := true
        d := { u.d with
          mstatus := { u.d.mstatus with sie := q.mstatus.spie, spp := false, spie := true }
          privLvl := 0#1 ++ BitVec.ofBool q.mstatus.spp } }
    else u
  if (strobes q a).dret then
    { u with eret := true, d := { u.d with privLvl := q.dcsr.prv, debugMode := false } }
  else u

def csrUpdate : Update :=
  xret q a (translation q (debugBlock q p a r (exceptionStack q r
    (hardwired q p a r (writeBlock q p a (counters q p r))))))

/-! ## The clocked process -/

/-- The process `wfi_ctrl`. -/
def wfiNext : Bool :=
  if q.mip != 0 || p.debugReq || p.irq1 then false
  else if !q.debugMode && a.csrOp == .WFI && !r.ex.valid then true
  else q.wfi

def nrPmpEntries : Nat := 8

/-- One clock edge of `csr_regfile`. Entries from `nrPmpEntries` on stay zero. -/
def csrNext : Regs :=
  let d := (csrUpdate q p a r).d
  { d with
    mtvecRstLoad := false
    wfi := wfiNext q p a r
    pmpcfg := fun j => if j.val < nrPmpEntries then d.pmpcfg j else Pmpcfg.ofBits 0
    pmpaddr := fun j => if j.val < nrPmpEntries then d.pmpaddr j else 0 }

end Cva6.Csr
