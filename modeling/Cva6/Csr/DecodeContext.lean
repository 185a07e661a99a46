import Cva6.Csr.Privilege
import Cva6.Decoder
/-!
# What the decode stage sees of the register file

`csr_regfile.sv` drives the privilege level, the trap bits of the status register and the
interrupt enables to the decoder. The level and the status register change only in a cycle that
redirects the fetch; the interrupt enables also change in others.
-/

namespace Cva6.Csr

open Cva6.Riscv

/-- The outputs that decide how an instruction decodes. -/
structure Context where
  privLvl : PrivLvl
  debugMode : Bool
  tvm : Bool
  tw : Bool
  tsr : Bool
  fs : Xs
  deriving DecidableEq, Repr

def context (q : Regs) : Context :=
  ⟨q.privLvlO, q.debugMode, q.mstatus.tvm, q.mstatus.tw, q.mstatus.tsr, q.mstatus.fs⟩

def irqCtrl (q : Regs) : Decoder.IrqCtrl where
  mie := q.mie
  mip := q.mip
  mideleg := q.mideleg
  sie := q.mstatus.sie
  globalEnable :=
    !q.debugMode && (!q.dcsr.step || q.dcsr.stepie) &&
      ((q.mstatus.mie && q.privLvlO == privLvlM) || q.privLvlO != privLvlM)

section Cycle

variable (q : Regs) (p : Platform) (a : Access) (r : Retire)

theorem csrUpdate_flush :
    (csrUpdate q p a r).flush =
      (!takesTrap q r && (writeBlock q p a (counters q p r)).flush) := by
  simp only [csrUpdate, xret, translation, debugBlock, debugSingleStep, debugReqEntry,
    debugBreakpoint, exceptionStack, hardwired, apply_ite Update.flush, ite_self]
  cases ebreakEnabled q <;> simp only [ite_self] <;> cases takesTrap q r <;> simp

/-- A write to a status register flushes the pipeline. -/
theorem writeBlock_mstatus_of_no_flush (u : Update) (h : (writeBlock q p a u).flush = false) :
    (writeBlock q p a u).d.mstatus = u.d.mstatus := by
  unfold writeBlock at h ⊢
  cases hwe : (strobes q a).csrWe with
  | false => simp
  | true =>
      simp only [hwe, if_true] at h ⊢
      cases hreg : CsrReg.ofAddr a.csrAddr with
      | none => rfl
      | some reg =>
          rw [hreg] at h
          cases reg <;>
            first
              | (simp [writeReg] at h; done)
              | simp only [writeReg, writeFcsr, apply_ite Update.d, apply_ite Regs.mstatus, ite_self]

structure Unredirected : Prop where
  ex : r.ex.valid = false
  eret : (csrUpdate q p a r).eret = false
  setDebugPc : (csrUpdate q p a r).setDebugPc = false
  flush : (csrUpdate q p a r).flush = false

variable {q p a r}

theorem Unredirected.debugMode (h : Unredirected q p a r) :
    (csrNext q p a r).debugMode = q.debugMode := by
  have hcause : r.ex.valid = true → r.ex.cause ≠ breakpoint ∧ r.ex.cause ≠ debugRequest := by
    simp [h.ex]
  have heret := h.eret
  have hdebug := h.setDebugPc
  rw [csrUpdate_eret, Bool.or_eq_false_iff] at heret
  rw [csrUpdate_setDebugPc _ _ _ _ hcause] at hdebug
  show (csrUpdate q p a r).d.debugMode = q.debugMode
  rw [csrUpdate_debugMode _ _ _ _ hcause, heret.2]
  cases hm : q.debugMode <;> simp_all

theorem Unredirected.privLvl (h : Unredirected q p a r) : (csrNext q p a r).privLvl = q.privLvl := by
  have heret := h.eret
  rw [csrUpdate_eret, Bool.or_eq_false_iff, Bool.or_eq_false_iff] at heret
  show (csrUpdate q p a r).d.privLvl = q.privLvl
  rw [csrUpdate_privLvl, heret.1.1, heret.1.2, heret.2]
  simp [takesTrap, h.ex]

theorem Unredirected.mstatus (h : Unredirected q p a r) :
    (csrNext q p a r).mstatus = hardwiredStatus q q.mstatus := by
  have htrap : takesTrap q r = false := by simp [takesTrap, h.ex]
  have heret := h.eret
  have hflush := h.flush
  rw [csrUpdate_eret, Bool.or_eq_false_iff, Bool.or_eq_false_iff] at heret
  rw [csrUpdate_flush, htrap, Bool.not_false, Bool.true_and] at hflush
  show (csrUpdate q p a r).d.mstatus = _
  rw [csrUpdate_mstatus, writeBlock_mstatus_of_no_flush _ _ _ _ hflush, counters_mstatus]
  simp [xretStatus, trapStatus, htrap, heret]

theorem Unredirected.privLvlO (h : Unredirected q p a r) :
    (csrNext q p a r).privLvlO = q.privLvlO := by
  unfold Regs.privLvlO
  rw [h.debugMode, h.privLvl]

theorem Unredirected.context (h : Unredirected q p a r) :
    Csr.context (csrNext q p a r) = Csr.context q := by
  unfold Csr.context
  rw [h.privLvlO, h.debugMode, h.mstatus]
  rfl

end Cycle

/-! ## Interrupt enables -/

def irqEnabledBy (q : Regs) (mie mideleg : XLen) (n : Nat) : Bool :=
  mie.getLsbD n &&
    if mideleg.getLsbD n then
      (q.mstatus.sie && q.privLvlO == privLvlS) || q.privLvlO == privLvlU
    else (q.mstatus.mie && q.privLvlO == privLvlM) || q.privLvlO != privLvlM

def irqEnabled (q : Regs) (n : Nat) : Bool := irqEnabledBy q q.mie q.mideleg n

section Enables

variable (q : Regs) (p : Platform) (a : Access) (r : Retire)

/-- The access writes an interrupt enable outside of the status register. -/
def writesEnables : Bool := writesReg q a .mie || writesReg q a .sie || writesReg q a .mideleg

def writtenMie : XLen :=
  if writesReg q a .mie then
    masked q.mie (mipSsip ||| mipStip ||| mipSeip ||| mipMsip ||| mipMtip ||| mipMeip) (csrWdata q p a)
  else if writesReg q a .sie then masked q.mie q.mideleg (csrWdata q p a)
  else q.mie

def writtenMideleg : XLen :=
  if writesReg q a .mideleg then masked q.mideleg (mipSsip ||| mipStip ||| mipSeip) (csrWdata q p a)
  else q.mideleg

theorem writeBlock_enables (u : Update) (hmie : u.d.mie = q.mie) (hdeleg : u.d.mideleg = q.mideleg) :
    (writeBlock q p a u).d.mie = writtenMie q p a ∧
      (writeBlock q p a u).d.mideleg = writtenMideleg q p a := by
  unfold writeBlock writtenMie writtenMideleg writesReg
  cases hwe : (strobes q a).csrWe with
  | false => simp [hmie, hdeleg]
  | true =>
      simp only [↓reduceIte, Bool.true_and]
      cases hreg : CsrReg.ofAddr a.csrAddr with
      | none => simp [hmie, hdeleg]
      | some reg =>
          cases reg <;>
            simp [writeReg, writeFcsr, apply_ite Update.d, apply_ite Regs.mie, apply_ite Regs.mideleg,
              hmie, hdeleg]

theorem csrNext_enables :
    (csrNext q p a r).mie = writtenMie q p a ∧ (csrNext q p a r).mideleg = writtenMideleg q p a := by
  have hwrite := writeBlock_enables q p a (counters q p r)
    (by simp only [counters, Update.idle, apply_ite Regs.mie, ite_self])
    (by simp only [counters, Update.idle, apply_ite Regs.mideleg, ite_self])
  have hdebug (u : Update) : (debugBlock q p a r u).d.mie = u.d.mie ∧
      (debugBlock q p a r u).d.mideleg = u.d.mideleg := by
    simp only [debugBlock, debugSingleStep, debugReqEntry, debugBreakpoint, apply_ite Update.d,
      apply_ite Regs.mie, apply_ite Regs.mideleg, ite_self]
    cases ebreakEnabled q <;> simp
  have hrest : (csrUpdate q p a r).d.mie = (writeBlock q p a (counters q p r)).d.mie ∧
      (csrUpdate q p a r).d.mideleg = (writeBlock q p a (counters q p r)).d.mideleg := by
    simp only [csrUpdate, xret, translation, apply_ite Update.d, apply_ite Regs.mie,
      apply_ite Regs.mideleg, ite_self, hdebug, exceptionStack, hardwired, and_self]
  exact ⟨hrest.1.trans hwrite.1, hrest.2.trans hwrite.2⟩

theorem written_of_no_write (h : writesEnables q a = false) :
    writtenMie q p a = q.mie ∧ writtenMideleg q p a = q.mideleg := by
  simp only [writesEnables, Bool.or_eq_false_iff] at h
  simp [writtenMie, writtenMideleg, h]

variable {q p a r}

/-- Without a redirection only a write to the enables can disable an interrupt. -/
theorem Unredirected.irqEnabled (h : Unredirected q p a r) (n : Nat) :
    Csr.irqEnabled (csrNext q p a r) n = irqEnabledBy q (writtenMie q p a) (writtenMideleg q p a) n := by
  obtain ⟨hmie, hdeleg⟩ := csrNext_enables q p a r
  unfold Csr.irqEnabled irqEnabledBy
  rw [hmie, hdeleg, h.privLvlO, h.mstatus]
  rfl

end Enables

end Cva6.Csr
