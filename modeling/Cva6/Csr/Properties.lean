import Cva6.Csr.Regfile
/-!
# Properties of the CSR register file

What an access can raise, and what the blocks of `csr_update` leave in the
fields that the rest of the core depends on.
-/

namespace Cva6.Csr

open Cva6.Riscv

variable (q : Regs) (p : Platform) (a : Access) (r : Retire)

/-! ## Accesses -/

def isWrite (op : FuOp) : Bool :=
  op == .CSR_WRITE || op == .CSR_SET || op == .CSR_CLEAR

theorem strobes_eq : strobes q a =
    ⟨isWrite a.csrOp && !privilegeViolation q a.csrOp a.csrAddr,
      isAccess a.csrOp && !privilegeViolation q a.csrOp a.csrAddr,
      a.csrOp == .MRET, a.csrOp == .SRET, a.csrOp == .DRET⟩ := by
  unfold strobes opSelect isWrite isAccess
  cases a.csrOp <;> cases privilegeViolation q _ a.csrAddr <;> rfl

theorem strobes_csrWe :
    (strobes q a).csrWe = (isWrite a.csrOp && !privilegeViolation q a.csrOp a.csrAddr) := by
  rw [strobes_eq]

theorem strobes_csrRead :
    (strobes q a).csrRead = (isAccess a.csrOp && !privilegeViolation q a.csrOp a.csrAddr) := by
  rw [strobes_eq]

theorem strobes_mret : (strobes q a).mret = (a.csrOp == .MRET) := by
  rw [strobes_eq]

theorem strobes_sret : (strobes q a).sret = (a.csrOp == .SRET) := by
  rw [strobes_eq]

theorem strobes_dret : (strobes q a).dret = (a.csrOp == .DRET) := by
  rw [strobes_eq]

theorem privilegeViolation_isAccess {op : FuOp} {addr : BitVec 12}
    (h : privilegeViolation q op addr = true) : isAccess op = true := by
  by_contra hop
  simp [privilegeViolation, hop] at h

theorem strobes_csrWe_isAccess (h : (strobes q a).csrWe = true) : isAccess a.csrOp = true := by
  rw [strobes_csrWe] at h
  revert h
  simp only [isWrite, isAccess]
  cases a.csrOp == .CSR_WRITE <;> cases a.csrOp == .CSR_SET <;>
    cases a.csrOp == .CSR_CLEAR <;> simp

/-- Whether a write is refused does not depend on the value written. -/
theorem writeReg_updateAccessException (w w' : XLen) (u u' : Update) (reg : CsrReg)
    (hu : u.updateAccessException = u'.updateAccessException) :
    (writeReg q w u reg).updateAccessException =
      (writeReg q w' u' reg).updateAccessException := by
  cases reg <;> simp only [writeReg, writeFcsr, apply_ite Update.updateAccessException, ite_self, hu]

theorem writeBlock_of_idle (u : Update) (h : isAccess a.csrOp = false) :
    writeBlock q p a u = u := by
  have hwe : (strobes q a).csrWe = false := by
    by_contra hwe
    simp_all [strobes_csrWe_isAccess q a (by simpa using hwe)]
  simp [writeBlock, hwe]

theorem csrException_valid_of_flag : (csrException q p a true).valid = true := by
  simp [csrException]

/-- Without the violation flag, only a CSR access raises an exception. -/
theorem csrException_isAccess (h : (csrException q p a false).valid = true) :
    isAccess a.csrOp = true := by
  by_contra hop
  have hop : isAccess a.csrOp = false := by simpa using hop
  have hv : privilegeViolation q a.csrOp a.csrAddr = false := by
    by_contra hv
    simp_all [privilegeViolation_isAccess q (by simpa using hv)]
  have hu : updateAccessException q p a = false := by
    simp [updateAccessException, writeBlock_of_idle q p a _ hop, Update.idle]
  have hr : readAccessException q p a = false := by
    simp [readAccessException, strobes_csrRead, hop]
  simp [csrException, hu, hr, hv] at h

theorem csrException_cause (flag : Bool) (h : (csrException q p a flag).valid = true) :
    (csrException q p a flag).cause = illegalInstr := by
  revert h
  unfold csrException
  cases updateAccessException q p a <;> cases readAccessException q p a <;>
    cases privilegeViolation q a.csrOp a.csrAddr <;> cases flag <;> simp

theorem csrException_congr (w w' : XLen) (op : FuOp) (addr : BitVec 12) (flag : Bool) :
    csrException q p ⟨op, addr, w⟩ flag = csrException q p ⟨op, addr, w'⟩ flag := by
  have hu : updateAccessException q p ⟨op, addr, w⟩ = updateAccessException q p ⟨op, addr, w'⟩ := by
    unfold updateAccessException writeBlock strobes
    by_cases hwe : (opSelect q op addr).csrWe = true
    · rw [if_pos hwe, if_pos hwe]
      cases CsrReg.ofAddr addr with
      | none => rfl
      | some reg => exact writeReg_updateAccessException q _ _ _ _ reg rfl
    · rw [if_neg hwe, if_neg hwe]
  unfold csrException
  rw [hu]
  rfl

/-! ## The fields `csr_update` leaves -/

theorem writeReg_eret (w : XLen) (u : Update) (reg : CsrReg) :
    (writeReg q w u reg).eret = u.eret := by
  cases reg <;> simp only [writeReg, writeFcsr, apply_ite Update.eret, ite_self]

theorem writeReg_setDebugPc (w : XLen) (u : Update) (reg : CsrReg) :
    (writeReg q w u reg).setDebugPc = u.setDebugPc := by
  cases reg <;> simp only [writeReg, writeFcsr, apply_ite Update.setDebugPc, ite_self]

theorem writeBlock_eret (u : Update) : (writeBlock q p a u).eret = u.eret := by
  unfold writeBlock
  split
  · split
    · exact writeReg_eret q _ u _
    · rfl
  · rfl

theorem writeBlock_setDebugPc (u : Update) :
    (writeBlock q p a u).setDebugPc = u.setDebugPc := by
  unfold writeBlock
  split
  · split
    · exact writeReg_setDebugPc q _ u _
    · rfl
  · rfl

theorem csrUpdate_eret :
    (csrUpdate q p a r).eret = (a.csrOp == .MRET || a.csrOp == .SRET || a.csrOp == .DRET) := by
  have hpre : (translation q (debugBlock q p a r (exceptionStack q r
      (hardwired q p a r (writeBlock q p a (counters q p r)))))).eret = false := by
    simp only [translation, debugBlock, debugSingleStep, debugReqEntry, debugBreakpoint,
      exceptionStack, hardwired, apply_ite Update.eret, ite_self]
    cases ebreakEnabled q <;> simp only [writeBlock_eret, ite_self] <;> rfl
  simp only [csrUpdate, xret, strobes_mret, strobes_sret, strobes_dret, apply_ite Update.eret,
    hpre]
  cases a.csrOp == .MRET <;> cases a.csrOp == .SRET <;> cases a.csrOp == .DRET <;> rfl

/-- Retiring with `dcsr.step` set, or stopping at a breakpoint or a debug
request, are the only reasons to jump to the debug address. -/
theorem csrUpdate_setDebugPc
    (h : r.ex.valid = true → r.ex.cause ≠ breakpoint ∧ r.ex.cause ≠ debugRequest) :
    (csrUpdate q p a r).setDebugPc = (!q.debugMode && q.dcsr.step && r.commitAck.ack0) := by
  have hb : (r.ex.valid && r.ex.cause == breakpoint) = false := by
    cases hv : r.ex.valid <;> simp_all
  have hd : (r.ex.valid && r.ex.cause == debugRequest) = false := by
    cases hv : r.ex.valid <;> simp_all
  have hpre : (exceptionStack q r (hardwired q p a r
      (writeBlock q p a (counters q p r)))).setDebugPc = false := by
    simp only [exceptionStack, hardwired, apply_ite Update.setDebugPc, ite_self,
      writeBlock_setDebugPc]
    rfl
  simp only [csrUpdate, xret, translation, debugBlock, debugSingleStep, debugReqEntry,
    debugBreakpoint, hb, hd, Bool.and_assoc, apply_ite Update.setDebugPc, ite_self, hpre]
  cases q.debugMode <;> cases q.dcsr.step <;> cases r.commitAck.ack0 <;> simp

theorem writeBlock_debugMode (u : Update) :
    (writeBlock q p a u).d.debugMode = u.d.debugMode := by
  unfold writeBlock
  split
  · split
    · rename_i reg _
      cases reg <;> simp only [writeReg, writeFcsr, apply_ite Update.d, apply_ite Regs.debugMode,
        ite_self]
    · rfl
  · rfl

/-- Debug mode is entered by stepping, when no breakpoint or request does, and
left by `dret`. -/
theorem csrUpdate_debugMode
    (h : r.ex.valid = true → r.ex.cause ≠ breakpoint ∧ r.ex.cause ≠ debugRequest) :
    (csrUpdate q p a r).d.debugMode =
      (!(a.csrOp == .DRET) && (q.debugMode || q.dcsr.step && r.commitAck.ack0)) := by
  have hb : (r.ex.valid && r.ex.cause == breakpoint) = false := by
    cases hv : r.ex.valid <;> simp_all
  have hd : (r.ex.valid && r.ex.cause == debugRequest) = false := by
    cases hv : r.ex.valid <;> simp_all
  have hpre : (exceptionStack q r (hardwired q p a r
      (writeBlock q p a (counters q p r)))).d.debugMode = q.debugMode := by
    simp only [exceptionStack, hardwired, apply_ite Update.d, apply_ite Regs.debugMode, ite_self,
      writeBlock_debugMode, counters, Update.idle]
  simp only [csrUpdate, xret, strobes_dret, translation, debugBlock, debugSingleStep,
    debugReqEntry, debugBreakpoint, hb, hd, Bool.and_assoc, apply_ite Update.d,
    apply_ite Regs.debugMode, ite_self, hpre]
  cases a.csrOp == .DRET <;> cases q.debugMode <;> cases q.dcsr.step <;>
    cases r.commitAck.ack0 <;> simp_all

theorem csrUpdate_flush_of_idle (h : isAccess a.csrOp = false) :
    (csrUpdate q p a r).flush = false := by
  simp only [csrUpdate, xret, translation, debugBlock, debugSingleStep, debugReqEntry,
    debugBreakpoint, exceptionStack, hardwired, writeBlock_of_idle q p a _ h,
    apply_ite Update.flush, ite_self]
  cases ebreakEnabled q <;> simp only [ite_self] <;> simp [counters, Update.idle]

/-! ## Cycles in which only a trap can happen -/

/-- The CSR file in a cycle that retires nothing and accesses nothing: the
counters and interrupt lines move, and an exception is taken. -/
def trapEntryOnly : Regs :=
  csrNext q p ⟨.ADD, a.csrAddr, 0⟩ { r with commitAck := ⟨false, false⟩, csrWriteFflags := false }

/-- An operation without strobes, together with an exception, does nothing to
the CSR file that the exception alone would not do. -/
theorem csrNext_eq_trapEntryOnly (hwe : (strobes q a).csrWe = false)
    (hm : (strobes q a).mret = false) (hs : (strobes q a).sret = false)
    (hd : (strobes q a).dret = false) (hff : r.csrWriteFflags = false)
    (hex : r.ex.valid = true ∨ (r.commitAck = ⟨false, false⟩ ∧ a.csrOp ≠ .WFI))
    (hstep : q.debugMode = false → q.dcsr.step = true → r.commitAck.ack0 = false) :
    csrNext q p a r = trapEntryOnly q p a r := by
  have hidle : isAccess (Access.mk .ADD a.csrAddr 0).csrOp = false := rfl
  have hcounters : counters q p r =
      counters q p { r with commitAck := ⟨false, false⟩, csrWriteFflags := false } := by
    unfold counters
    rcases hex with hex | ⟨hack, -⟩
    · simp [hex]
    · simp [hack]
  have hwrite (u : Update) : writeBlock q p a u = u := by simp [writeBlock, hwe]
  have hwired (u : Update) : hardwired q p a r u = hardwired q p ⟨.ADD, a.csrAddr, 0⟩
      { r with commitAck := ⟨false, false⟩, csrWriteFflags := false } u := by
    simp [hardwired, hff]
  have hsingle (u : Update) (hq : q.debugMode = false) : debugSingleStep q p a r u = u := by
    unfold debugSingleStep
    cases hst : q.dcsr.step with
    | false => simp
    | true => simp [hstep hq hst]
  have hdebug (u : Update) : debugBlock q p a r u = debugBlock q p ⟨.ADD, a.csrAddr, 0⟩
      { r with commitAck := ⟨false, false⟩, csrWriteFflags := false } u := by
    cases hq : q.debugMode with
    | true => simp [debugBlock, hq]
    | false =>
        simp only [debugBlock, hq, Bool.not_false, ↓reduceIte, Bool.false_and, hsingle _ hq]
        simp [debugSingleStep, debugReqEntry, debugBreakpoint]
  have hxret (u : Update) : xret q a u = u := by simp [xret, hm, hs, hd]
  have hxret' (u : Update) : xret q ⟨.ADD, a.csrAddr, 0⟩ u = u := by
    simp [xret, strobes_mret, strobes_sret, strobes_dret]
  have hwfi : wfiNext q p a r = wfiNext q p ⟨.ADD, a.csrAddr, 0⟩
      { r with commitAck := ⟨false, false⟩, csrWriteFflags := false } := by
    unfold wfiNext
    rcases hex with hex | ⟨-, hop⟩
    · simp [hex]
    · simp [hop]
  unfold trapEntryOnly csrNext csrUpdate
  rw [hwfi, hxret, hxret', hwrite, writeBlock_of_idle q p _ _ hidle, hcounters, hwired, hdebug]
  rfl

/-! ## Trap entry -/

theorem debugBlock_mstatus (u : Update) :
    (debugBlock q p a r u).d.mstatus = u.d.mstatus := by
  simp only [debugBlock, debugSingleStep, debugReqEntry, debugBreakpoint, apply_ite Update.d,
    apply_ite Regs.mstatus, ite_self]
  cases ebreakEnabled q <;> simp

theorem debugBlock_privLvl (u : Update) :
    (debugBlock q p a r u).d.privLvl = u.d.privLvl := by
  simp only [debugBlock, debugSingleStep, debugReqEntry, debugBreakpoint, apply_ite Update.d,
    apply_ite Regs.privLvl, ite_self]
  cases ebreakEnabled q <;> simp

theorem translation_mstatus (u : Update) : (translation q u).d.mstatus = u.d.mstatus := by
  unfold translation
  split <;> rfl

theorem translation_privLvl (u : Update) : (translation q u).d.privLvl = u.d.privLvl := by
  unfold translation
  split <;> rfl

theorem spp_eq_iff (v : PrivLvl) :
    0#1 ++ BitVec.ofBool (v.getLsbD 0) = v ↔ v.getLsbD 1 = false := by
  revert v
  decide

theorem trapToPrivLvl_eq_S_iff :
    trapToPrivLvl q r = privLvlS ↔
      takesTrap q r = true ∧ delegated q r.ex = true ∧ q.privLvl ≠ privLvlM := by
  unfold trapToPrivLvl
  cases ht : takesTrap q r with
  | false => simp [privLvlM, privLvlS]
  | true =>
      have hdebug : q.debugMode = false := by simp_all [takesTrap]
      have hpriv : q.privLvlO = q.privLvl := by simp [Regs.privLvlO, hdebug]
      rw [hpriv]
      cases delegated q r.ex <;> by_cases hM : q.privLvl = privLvlM <;>
        simp [hM, privLvlM, privLvlS]

def xpp (s : Status) (lvl : PrivLvl) : PrivLvl :=
  if lvl = privLvlS then 0#1 ++ BitVec.ofBool s.spp else s.mpp

def xpie (s : Status) (lvl : PrivLvl) : Bool :=
  if lvl = privLvlS then s.spie else s.mpie

def xie (s : Status) (lvl : PrivLvl) : Bool :=
  if lvl = privLvlS then s.sie else s.mie

/-- A trap that is not overtaken by a return enters its mode and stacks the
enable bit; it stacks the privilege unless the level does not fit into `spp`. -/
theorem csrUpdate_trap (htrap : takesTrap q r = true)
    (hret : (csrUpdate q p a r).eret = false) :
    (csrUpdate q p a r).d.privLvl = trapToPrivLvl q r ∧
      xpie (csrUpdate q p a r).d.mstatus (trapToPrivLvl q r) =
        xie q.mstatus (trapToPrivLvl q r) ∧
      (xpp (csrUpdate q p a r).d.mstatus (trapToPrivLvl q r) = q.privLvl ↔
        (trapToPrivLvl q r = privLvlS → q.privLvl.getLsbD 1 = false)) := by
  have hops := csrUpdate_eret q p a r
  rw [hret] at hops
  have hm : (strobes q a).mret = false := by simp_all [strobes_mret]
  have hs : (strobes q a).sret = false := by simp_all [strobes_sret]
  have hd : (strobes q a).dret = false := by simp_all [strobes_dret]
  have hupd : csrUpdate q p a r = translation q (debugBlock q p a r (exceptionStack q r
      (hardwired q p a r (writeBlock q p a (counters q p r))))) := by
    simp [csrUpdate, xret, hm, hs, hd]
  have hstatus : (csrUpdate q p a r).d.mstatus = (exceptionStack q r
      (hardwired q p a r (writeBlock q p a (counters q p r)))).d.mstatus := by
    rw [hupd, translation_mstatus, debugBlock_mstatus]
  have hpriv : (csrUpdate q p a r).d.privLvl = (exceptionStack q r
      (hardwired q p a r (writeBlock q p a (counters q p r)))).d.privLvl := by
    rw [hupd, translation_privLvl, debugBlock_privLvl]
  rw [hstatus, hpriv]
  unfold exceptionStack
  by_cases hS : trapToPrivLvl q r = privLvlS
  · simp only [htrap, hS, xpp, xpie, xie, ↓reduceIte, beq_self_eq_true, forall_const,
      spp_eq_iff, and_self]
  · simp [htrap, hS, xpp, xpie, xie]

end Cva6.Csr
