import Cva6.Csr.Privilege
/-!
# What a cycle does to the registers

The blocks of `csr_update` after the write touch few registers each. `csrNext_settings` says
what is left of the write at the end of a cycle, for the registers that the debug logic and the
returns leave alone; the status register, the level and the debug registers have equations of
their own.
-/

namespace Cva6.Csr

open Cva6.Riscv

/-! ## Packed registers -/

theorem getLsbD_append_high {v w k : Nat} {x : BitVec v} {y : BitVec w} (h : w ≤ k) :
    (x ++ y).getLsbD k = x.getLsbD (k - w) := by
  rw [BitVec.getLsbD_append, if_neg (Nat.not_lt.2 h)]

theorem getLsbD_append_low {v w k : Nat} {x : BitVec v} {y : BitVec w} (h : k < w) :
    (x ++ y).getLsbD k = y.getLsbD k := by
  rw [BitVec.getLsbD_append, if_pos h]

theorem status_ofBits_toBits (s : Status) : Status.ofBits s.toBits = s := by
  unfold Status.toBits Status.ofBits
  simp (disch := decide) only [BitVec.extractLsb'_append_eq_of_le,
    BitVec.extractLsb'_append_eq_of_add_le, BitVec.extractLsb'_eq_self, getLsbD_append_high,
    getLsbD_append_low, Nat.reduceSub, BitVec.getLsbD_ofBool, decide_true, Bool.true_and]

/-! ## What the blocks change -/

structure Saved where
  mepc : XLen
  mcause : XLen
  mtval : XLen
  sepc : XLen
  scause : XLen
  stval : XLen
  deriving DecidableEq, Repr

/-- The registers that neither the debug logic nor the returns change. -/
structure Settings where
  dscratch0 : XLen
  dscratch1 : XLen
  mtvec : XLen
  medeleg : XLen
  mideleg : XLen
  mie : XLen
  mcounteren : XLen
  mscratch : XLen
  dcache : XLen
  icache : XLen
  stvec : XLen
  scounteren : XLen
  sscratch : XLen
  satp : Satp
  cycle : XLen
  instret : XLen
  mip : XLen
  fcsr : Fcsr
  saved : Saved
  deriving DecidableEq, Repr

def Regs.saved (q : Regs) : Saved where
  mepc := q.mepc
  mcause := q.mcause
  mtval := q.mtval
  sepc := q.sepc
  scause := q.scause
  stval := q.stval

def Regs.settings (q : Regs) : Settings where
  dscratch0 := q.dscratch0
  dscratch1 := q.dscratch1
  mtvec := q.mtvec
  medeleg := q.medeleg
  mideleg := q.mideleg
  mie := q.mie
  mcounteren := q.mcounteren
  mscratch := q.mscratch
  dcache := q.dcache
  icache := q.icache
  stvec := q.stvec
  scounteren := q.scounteren
  sscratch := q.sscratch
  satp := q.satp
  cycle := q.cycle
  instret := q.instret
  mip := q.mip
  fcsr := q.fcsr
  saved := q.saved

section Blocks

variable (q : Regs) (p : Platform) (a : Access) (r : Retire) (u : Update)

def written : Regs := (writeBlock q p a (counters q p r)).d

/-- What `Manage Exception Stack` saves. -/
def trapSaved (s : Saved) : Saved :=
  if takesTrap q r then
    if trapToPrivLvl q r == privLvlS then
      { s with scause := r.ex.cause, sepc := r.pc, stval := r.ex.tval }
    else { s with mcause := r.ex.cause, mepc := r.pc, mtval := r.ex.tval }
  else s

def irqLines (mip : XLen) : XLen :=
  setBit (setBit (setBit mip irqMExt p.irq0) irqMSoft p.ipi) irqMTimer p.timeIrq

def accruedFlags (f : Fcsr) : Fcsr :=
  if r.csrWriteFflags then { f with fflags := a.csrWdata.setWidth 5 ||| q.fcsr.fflags } else f

theorem hardwired_settings : (hardwired q p a r u).d.settings =
    { u.d.settings with mip := irqLines p u.d.mip, fcsr := accruedFlags q a r u.d.fcsr } := rfl

theorem exceptionStack_settings : (exceptionStack q r u).d.settings =
    { u.d.settings with saved := trapSaved q r u.d.saved } := by
  unfold exceptionStack trapSaved
  cases takesTrap q r with
  | false => rfl
  | true => cases trapToPrivLvl q r == privLvlS <;> rfl

theorem debugBreakpoint_settings : (debugBreakpoint q r u).d.settings = u.d.settings := by
  unfold debugBreakpoint
  split
  · cases ebreakEnabled q <;> rfl
  · rfl

theorem debugReqEntry_settings : (debugReqEntry q r u).d.settings = u.d.settings := by
  unfold debugReqEntry
  split <;> rfl

theorem debugSingleStep_settings : (debugSingleStep q p a r u).d.settings = u.d.settings := by
  unfold debugSingleStep
  split <;> rfl

theorem debugBlock_d : (debugBlock q p a r u).d =
    if q.debugMode then u.d
    else (debugSingleStep q p a r (debugReqEntry q r (debugBreakpoint q r
      { u with d.dcsr := { u.d.dcsr with prv := q.privLvlO } }))).d := by
  unfold debugBlock
  cases q.debugMode with
  | true =>
      simp only [Bool.not_true, Bool.false_eq_true, if_false, if_true]
      split <;> rfl
  | false => rfl

theorem debugBlock_settings : (debugBlock q p a r u).d.settings = u.d.settings := by
  rw [debugBlock_d]
  split
  · rfl
  · rw [debugSingleStep_settings, debugReqEntry_settings, debugBreakpoint_settings]
    rfl

theorem translation_settings : (translation q u).d.settings = u.d.settings := by
  unfold translation
  split <;> rfl

theorem xret_settings : (xret q a u).d.settings = u.d.settings := by
  unfold xret
  cases (strobes q a).mret <;> cases (strobes q a).sret <;> cases (strobes q a).dret <;> rfl

end Blocks

section Cycle

variable (q : Regs) (p : Platform) (a : Access) (r : Retire)

theorem csrNext_settings : (csrNext q p a r).settings =
    { (written q p a r).settings with
      mip := irqLines p (written q p a r).mip
      fcsr := accruedFlags q a r (written q p a r).fcsr
      saved := trapSaved q r (written q p a r).saved } := by
  have hnext : (csrNext q p a r).settings = (csrUpdate q p a r).d.settings := rfl
  rw [hnext, csrUpdate, xret_settings, translation_settings, debugBlock_settings,
    exceptionStack_settings, hardwired_settings]
  rfl

theorem csrNext_pmpcfg (j : Fin 16) : (csrNext q p a r).pmpcfg j =
    if j.val < nrPmpEntries then (written q p a r).pmpcfg j else Pmpcfg.ofBits 0 := by
  simp only [csrNext, csrUpdate_pmpcfg]
  rfl

theorem csrNext_pmpaddr (j : Fin 16) : (csrNext q p a r).pmpaddr j =
    if j.val < nrPmpEntries then (written q p a r).pmpaddr j else 0 := by
  simp only [csrNext, csrUpdate_pmpaddr]
  rfl

structure DebugRegs where
  debugMode : Bool
  dcsr : Dcsr
  dpc : XLen
  deriving DecidableEq, Repr

/-- The three registers, before a `DRET` leaves debug mode. -/
def Regs.debugRegs (q : Regs) : DebugRegs := ⟨q.debugMode, q.dcsr, q.dpc⟩

theorem exceptionStack_debugRegs (u : Update) :
    (exceptionStack q r u).d.debugRegs = u.d.debugRegs := by
  unfold exceptionStack
  cases takesTrap q r with
  | false => rfl
  | true => cases trapToPrivLvl q r == privLvlS <;> rfl

theorem translation_debugRegs (u : Update) : (translation q u).d.debugRegs = u.d.debugRegs := by
  unfold translation
  split <;> rfl

theorem xret_debugRegs (u : Update) : (xret q a u).d.debugRegs =
    { u.d.debugRegs with debugMode := !(a.csrOp == .DRET) && u.d.debugRegs.debugMode } := by
  unfold xret
  simp only [strobes_mret, strobes_sret, strobes_dret]
  cases a.csrOp == .MRET <;> cases a.csrOp == .SRET <;> cases a.csrOp == .DRET <;> rfl

theorem csrNext_debugRegs : (csrNext q p a r).debugRegs =
    let d := (debugBlock q p a r (exceptionStack q r
      (hardwired q p a r (writeBlock q p a (counters q p r))))).d.debugRegs
    { d with debugMode := !(a.csrOp == .DRET) && d.debugMode } := by
  have hnext : (csrNext q p a r).debugRegs = (csrUpdate q p a r).d.debugRegs := rfl
  rw [hnext, csrUpdate, xret_debugRegs, translation_debugRegs]

theorem written_debugMode : (written q p a r).debugMode = q.debugMode := by
  rw [written, writeBlock_debugMode]
  simp only [counters, Update.idle, apply_ite Regs.debugMode, ite_self]

theorem csrNext_debugRegs_of_debug (hq : q.debugMode = true) : (csrNext q p a r).debugRegs =
    ⟨!(a.csrOp == .DRET), (written q p a r).dcsr, (written q p a r).dpc⟩ := by
  rw [csrNext_debugRegs, debugBlock_d, if_pos hq, exceptionStack_debugRegs]
  have hm : (written q p a r).debugMode = true := (written_debugMode q p a r).trans hq
  show DebugRegs.mk (!(a.csrOp == .DRET) && (written q p a r).debugMode) _ _ = _
  rw [hm, Bool.and_true]
  rfl

theorem csrNext_debugRegs_of_not_entered (hq : q.debugMode = false)
    (hbreak : (r.ex.valid && r.ex.cause == breakpoint) = false)
    (hreq : (r.ex.valid && r.ex.cause == debugRequest) = false)
    (hstep : (q.dcsr.step && r.commitAck.ack0) = false) : (csrNext q p a r).debugRegs =
    ⟨false, { (written q p a r).dcsr with prv := q.privLvlO }, (written q p a r).dpc⟩ := by
  have hm : (written q p a r).debugMode = false := (written_debugMode q p a r).trans hq
  have hstack := exceptionStack_debugRegs q r
    (hardwired q p a r (writeBlock q p a (counters q p r)))
  have hdcsr := congrArg DebugRegs.dcsr hstack
  have hdpc := congrArg DebugRegs.dpc hstack
  have hmode := congrArg DebugRegs.debugMode hstack
  rw [csrNext_debugRegs, debugBlock_d, if_neg (by rw [hq]; exact Bool.false_ne_true)]
  unfold debugSingleStep debugReqEntry debugBreakpoint
  rw [hbreak, hreq, hstep]
  simp only [Regs.debugRegs] at hdcsr hdpc hmode
  simp only [Bool.false_eq_true, if_false, hdcsr, hdpc, hmode]
  show DebugRegs.mk (!(a.csrOp == .DRET) && (written q p a r).debugMode) _ _ = _
  rw [hm, Bool.and_false]
  rfl

def dcsrRest (d : Dcsr) : Dcsr := { d with prv := 0, cause := 0 }

theorem debugBreakpoint_dcsr (u : Update) :
    dcsrRest (debugBreakpoint q r u).d.dcsr = dcsrRest u.d.dcsr := by
  unfold debugBreakpoint
  split
  · cases ebreakEnabled q <;> rfl
  · rfl

theorem debugReqEntry_dcsr (u : Update) :
    dcsrRest (debugReqEntry q r u).d.dcsr = dcsrRest u.d.dcsr := by
  unfold debugReqEntry
  split <;> rfl

theorem debugSingleStep_dcsr (u : Update) :
    dcsrRest (debugSingleStep q p a r u).d.dcsr = dcsrRest u.d.dcsr := by
  unfold debugSingleStep
  split <;> rfl

theorem csrNext_dcsr_rest :
    dcsrRest (csrNext q p a r).dcsr = dcsrRest (written q p a r).dcsr := by
  have hstack := congrArg (fun d => dcsrRest d.dcsr) (exceptionStack_debugRegs q r
    (hardwired q p a r (writeBlock q p a (counters q p r))))
  have hblock (u : Update) : dcsrRest (debugBlock q p a r u).d.dcsr = dcsrRest u.d.dcsr := by
    rw [debugBlock_d]
    split
    · rfl
    · rw [debugSingleStep_dcsr, debugReqEntry_dcsr, debugBreakpoint_dcsr]
      rfl
  have hnext := congrArg (fun d => dcsrRest d.dcsr) (csrNext_debugRegs q p a r)
  exact (hnext.trans (hblock _)).trans hstack

end Cycle

end Cva6.Csr
