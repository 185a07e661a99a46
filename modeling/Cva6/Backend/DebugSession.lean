import Cva6.Backend.LowerPrivilege
/-!
# Debug sessions

Debug mode is entered by a request, by a breakpoint or after a single step, and left by `DRET`.
What a session has to give back is the context of the interrupted program. A breakpoint that
enters debug mode is also taken as a trap, which overwrites the trap registers; a step saves the
level and the address as if the instruction were neither a return nor trapped.
-/

namespace Cva6.Csr

open Cva6.Riscv

/-! ## Cycles in debug mode -/

/-- The status register; the two fields of 64-bit machines are hardwired from the first clock
edge on. -/
def statusView (s : Status) : Status := { s with sxl := xlen64, uxl := xlen64 }

section Cycle

variable {q : Regs} {p : Platform} {a : Access} {r : Retire}

/-- No register is written but the two scratch registers of debug mode. -/
def WritesScratch (q : Regs) (a : Access) : Prop :=
  (strobes q a).csrWe = true →
    CsrReg.ofAddr a.csrAddr = some .dscratch0 ∨ CsrReg.ofAddr a.csrAddr = some .dscratch1

theorem written_of_scratch (h : WritesScratch q a) :
    (written q p a r).mstatus = q.mstatus ∧ (written q p a r).saved = q.saved ∧
      (written q p a r).dcsr = q.dcsr ∧ (written q p a r).dpc = q.dpc := by
  have hcounters : (counters q p r).d.mstatus = q.mstatus ∧ (counters q p r).d.saved = q.saved ∧
      (counters q p r).d.dcsr = q.dcsr ∧ (counters q p r).d.dpc = q.dpc := by
    refine ⟨counters_mstatus q p r, counters_saved q p r, counters_dcsr q p r, ?_⟩
    unfold counters
    split <;> rfl
  unfold written writeBlock
  cases hwe : (strobes q a).csrWe with
  | false => exact hcounters
  | true =>
      rcases h hwe with hreg | hreg
      · rw [hreg]
        exact hcounters
      · rw [hreg]
        exact hcounters

/-- The hardwired fields hold: floating point is absent and nothing is dirty. -/
structure StatusOff (s : Status) : Prop where
  fs : s.fs = xsOff
  xs : s.xs = xsOff
  sd : s.sd = false

theorem StatusOff.hardwired (h : StatusOff q.mstatus) :
    statusView (hardwiredStatus q q.mstatus) = statusView q.mstatus := by
  have hsd : (q.mstatus.xs == xsDirty || q.mstatus.fs == xsDirty) = q.mstatus.sd := by
    rw [h.xs, h.fs, h.sd]
    rfl
  unfold hardwiredStatus statusView
  rw [hsd]

/-- A cycle of debug mode keeps the context of the program and where to return to. -/
theorem csrNext_in_debug (hq : q.debugMode = true) (h : WritesScratch q a)
    (hm : a.csrOp ≠ .MRET) (hs : a.csrOp ≠ .SRET) (hoff : StatusOff q.mstatus) :
    statusView (csrNext q p a r).mstatus = statusView q.mstatus ∧
      (csrNext q p a r).saved = q.saved ∧
      (csrNext q p a r).debugRegs = ⟨!(a.csrOp == .DRET), q.dcsr, q.dpc⟩ := by
  obtain ⟨hstatus, hsaved, hdcsr, hdpc⟩ := written_of_scratch (p := p) (r := r) h
  have htrap : takesTrap q r = false := by rw [takesTrap, hq]; rfl
  refine ⟨?_, ?_, ?_⟩
  · have hnext : (csrNext q p a r).mstatus = (csrUpdate q p a r).d.mstatus := rfl
    rw [hnext, csrUpdate_mstatus, show (writeBlock q p a (counters q p r)).d.mstatus = _ from
      hstatus, trapStatus, htrap, xretStatus, beq_false_of_ne hm, beq_false_of_ne hs]
    exact hoff.hardwired
  · have hnext : (csrNext q p a r).saved = (csrNext q p a r).settings.saved := rfl
    rw [hnext, csrNext_settings]
    show trapSaved q r (written q p a r).saved = q.saved
    rw [trapSaved, htrap, hsaved]
    rfl
  · rw [csrNext_debugRegs_of_debug q p a r hq, hdcsr, hdpc]

/-! ## Entries -/

def stepped (q : Regs) (r : Retire) : Bool := q.dcsr.step && r.commitAck.ack0

/-- The address of the instruction behind the one at port 0 in memory. -/
def Retire.following (r : Retire) : XLen :=
  r.commitInstr0.pc + (if r.commitInstr0.isCompressed then 2 else 4)

/-- `dpc` after a step. The address of a return is never used, see `debugSingleStep`. -/
def stepDpc (q : Regs) (p : Platform) (r : Retire) : XLen :=
  if r.commitInstr0.fu == .CTRL_FLOW then r.commitInstr0.bp.predictAddress
  else if r.ex.valid then trapVectorBase q p r
  else r.following

def Retire.raises (r : Retire) (cause : XLen) : Bool := r.ex.valid && r.ex.cause == cause

theorem debugBlock_entry (hq : q.debugMode = false) (u : Update) (hmode : u.d.debugMode = false)
    (heret : u.eret = false) :
    (debugBlock q p a r u).d.debugMode = (stepped q r || r.raises debugRequest ||
        r.raises breakpoint && ebreakEnabled q == some true) ∧
      (debugBlock q p a r u).d.dpc =
        if stepped q r then stepDpc q p r
        else if r.raises debugRequest || r.raises breakpoint then r.pc else u.d.dpc := by
  rw [debugBlock_d, hq]
  unfold debugSingleStep debugReqEntry debugBreakpoint stepped Retire.raises stepDpc
  cases hstep : q.dcsr.step && r.commitAck.ack0 <;>
    cases hreq : r.ex.valid && r.ex.cause == debugRequest <;>
    cases hbreak : r.ex.valid && r.ex.cause == breakpoint <;>
    cases ebreakEnabled q with
    | none => simp [hmode, heret, Retire.following]
    | some b => cases b <;> simp [hmode, heret, Retire.following]

theorem csrNext_entry (hq : q.debugMode = false) :
    (csrNext q p a r).debugMode = (!(a.csrOp == .DRET) && (stepped q r || r.raises debugRequest ||
        r.raises breakpoint && ebreakEnabled q == some true)) ∧
      (csrNext q p a r).dpc = (if stepped q r then stepDpc q p r
        else if r.raises debugRequest || r.raises breakpoint then r.pc
        else (written q p a r).dpc) ∧
      (csrNext q p a r).dcsr.prv = q.privLvl := by
  have hstack := exceptionStack_debugRegs q r
    (hardwired q p a r (writeBlock q p a (counters q p r)))
  have hmode : (exceptionStack q r
      (hardwired q p a r (writeBlock q p a (counters q p r)))).d.debugMode = false :=
    (congrArg DebugRegs.debugMode hstack).trans ((written_debugMode q p a r).trans hq)
  have heret : (exceptionStack q r
      (hardwired q p a r (writeBlock q p a (counters q p r)))).eret = false := by
    simp only [exceptionStack, hardwired, apply_ite Update.eret, ite_self, writeBlock_eret]
    rfl
  obtain ⟨hmode', hdpc'⟩ := debugBlock_entry (p := p) (a := a) (r := r) hq _ hmode heret
  have hnext := csrNext_debugRegs q p a r
  refine ⟨?_, ?_, ?_⟩
  · refine (congrArg DebugRegs.debugMode hnext).trans ?_
    show (!(a.csrOp == .DRET) && _) = _
    rw [← hmode']
    rfl
  · refine (congrArg DebugRegs.dpc hnext).trans (hdpc'.trans ?_)
    rw [show (exceptionStack q r _).d.dpc = _ from congrArg DebugRegs.dpc hstack]
    rfl
  · have hprv := csrUpdate_prv q p a r
    rw [hq, Regs.privLvlO, hq] at hprv
    exact hprv

/-! ## What a session gives back -/

@[ext]
structure Resume where
  mstatus : Status
  saved : Saved
  privLvl : PrivLvl
  pc : XLen
  deriving DecidableEq

/-- The address of the instruction that is executed after the one at port 0. -/
def successor (q : Regs) (p : Platform) (a : Access) (r : Retire) : XLen :=
  if r.ex.valid then trapVectorBase q p r
  else if isXret a.csrOp then epc q a
  else if r.commitInstr0.fu == .CTRL_FLOW then r.commitInstr0.bp.predictAddress
  else r.following

/-- The context a session that starts in this cycle interrupts: that of the state before, or the
one the stepped instruction leaves. -/
def interrupted (q : Regs) (p : Platform) (a : Access) (r : Retire) : Resume :=
  if stepped q r then
    let q' := csrNext q p a r
    ⟨statusView q'.mstatus, q'.saved, q'.privLvl, successor q p a r⟩
  else ⟨statusView q.mstatus, q.saved, q.privLvl, r.pc⟩

def resumed (q : Regs) (p : Platform) (a : Access) (r : Retire) : Resume :=
  let q' := csrNext q p a r
  ⟨statusView q'.mstatus, q'.saved, q'.privLvl, epc q a⟩

def Regs.kept (q : Regs) : Resume := ⟨statusView q.mstatus, q.saved, q.dcsr.prv, q.dpc⟩

theorem resumed_of_dret (hq : q.debugMode = true) (hop : a.csrOp = .DRET)
    (hoff : StatusOff q.mstatus) : resumed q p a r = q.kept := by
  have hidle : isAccess a.csrOp = false := by rw [hop]; rfl
  have hscratch : WritesScratch q a := by
    intro hwe
    exact Bool.noConfusion (hidle.symm.trans (strobes_csrWe_isAccess q a hwe))
  obtain ⟨hstatus, hsaved, -⟩ := csrNext_in_debug (p := p) (r := r) hq hscratch
    (by rw [hop]; decide) (by rw [hop]; decide) hoff
  have hpriv : (csrNext q p a r).privLvl = q.dcsr.prv := by
    have hnext : (csrNext q p a r).privLvl = (csrUpdate q p a r).d.privLvl := rfl
    rw [hnext, csrUpdate_privLvl, hop]
    rfl
  have hepc : epc q a = q.dpc := by
    unfold epc
    rw [strobes_dret, hop]
    rfl
  exact Resume.ext hstatus hsaved hpriv hepc

theorem kept_in_debug (hq : q.debugMode = true) (h : WritesScratch q a)
    (hret : isXret a.csrOp = false) (hoff : StatusOff q.mstatus) :
    (csrNext q p a r).kept = q.kept ∧ (csrNext q p a r).debugMode = true := by
  unfold isXret at hret
  simp only [Bool.or_eq_false_iff, beq_eq_false_iff_ne] at hret
  obtain ⟨hstatus, hsaved, hdebug⟩ := csrNext_in_debug (p := p) (r := r) hq h hret.1.1 hret.1.2 hoff
  have hprv := congrArg (fun d : DebugRegs => d.dcsr.prv) hdebug
  have hdpc := congrArg DebugRegs.dpc hdebug
  have hmode := congrArg DebugRegs.debugMode hdebug
  constructor
  · unfold Regs.kept
    rw [hstatus, hsaved, show (csrNext q p a r).dcsr.prv = _ from hprv,
      show (csrNext q p a r).dpc = _ from hdpc]
  · refine hmode.trans ?_
    show (!(a.csrOp == .DRET)) = true
    rw [beq_false_of_ne hret.2]
    rfl

/-! ## Which entries are clean -/

/-- The registers that a trap saves the context in hold what this trap writes already. -/
def TrapStored (q : Regs) (r : Retire) : Prop :=
  if trapToPrivLvl q r = privLvlS then
    (q.mstatus.sie = false ∧ q.mstatus.spie = false ∧ q.mstatus.spp = q.privLvl.getLsbD 0) ∧
      q.scause = r.ex.cause ∧ q.sepc = r.pc ∧ q.stval = r.ex.tval
  else
    (q.mstatus.mie = false ∧ q.mstatus.mpie = false ∧ q.mstatus.mpp = q.privLvl) ∧
      q.mcause = r.ex.cause ∧ q.mepc = r.pc ∧ q.mtval = r.ex.tval

theorem trapStored_iff (htrap : takesTrap q r = true) (hoff : StatusOff q.mstatus) :
    (statusView (trapStatus q r (hardwiredStatus q q.mstatus)) = statusView q.mstatus ∧
      trapSaved q r q.saved = q.saved) ↔ TrapStored q r := by
  have hsd : (q.mstatus.xs == xsDirty || q.mstatus.fs == xsDirty) = q.mstatus.sd := by
    rw [hoff.xs, hoff.fs, hoff.sd]
    rfl
  unfold TrapStored trapStatus trapSaved hardwiredStatus statusView Regs.saved
  rw [htrap, hsd]
  by_cases hS : trapToPrivLvl q r = privLvlS
  · simp only [hS, beq_self_eq_true, if_true, Status.mk.injEq, Saved.mk.injEq]
    grind
  · simp only [hS, beq_eq_false_iff_ne.2 hS, Bool.false_eq_true, if_true, if_false,
      Status.mk.injEq, Saved.mk.injEq]
    grind

theorem kept_of_exception (hq : q.debugMode = false) (hstep : stepped q r = false)
    (hentry : (csrNext q p a r).debugMode = true) (hop : a.csrOp = .ADD)
    (hoff : StatusOff q.mstatus) : (csrNext q p a r).kept = interrupted q p a r ↔
      (r.raises breakpoint = true → TrapStored q r) := by
  obtain ⟨hmode, hdpc, hprv⟩ := csrNext_entry (p := p) (a := a) (r := r) hq
  have hidle : isAccess a.csrOp = false := by rw [hop]; rfl
  have hscratch : WritesScratch q a := by
    intro hwe
    exact Bool.noConfusion (hidle.symm.trans (strobes_csrWe_isAccess q a hwe))
  obtain ⟨hstatus, hsaved, -, -⟩ := written_of_scratch (p := p) (r := r) hscratch
  have hreason : (r.raises debugRequest || r.raises breakpoint) = true := by
    rw [hmode, hstep, Bool.false_or, Bool.and_eq_true, Bool.or_eq_true, Bool.and_eq_true] at hentry
    rcases hentry.2 with hreq | hbreak
    · rw [hreq]
      rfl
    · rw [hbreak.1, Bool.or_true]
  have hstatus' : (csrNext q p a r).mstatus = trapStatus q r (hardwiredStatus q q.mstatus) := by
    have hnext : (csrNext q p a r).mstatus = (csrUpdate q p a r).d.mstatus := rfl
    rw [hnext, csrUpdate_mstatus, show (writeBlock q p a (counters q p r)).d.mstatus = _ from
      hstatus, xretStatus, hop]
    rfl
  have hsaved' : (csrNext q p a r).saved = trapSaved q r q.saved := by
    have hnext : (csrNext q p a r).saved = (csrNext q p a r).settings.saved := rfl
    rw [hnext, csrNext_settings, ← hsaved]
  have hkept : (csrNext q p a r).kept = ⟨statusView (trapStatus q r (hardwiredStatus q q.mstatus)),
      trapSaved q r q.saved, q.privLvl, r.pc⟩ := by
    unfold Regs.kept
    rw [hstatus', hsaved', hprv, hdpc, hstep, hreason]
    rfl
  have hsame : interrupted q p a r = ⟨statusView q.mstatus, q.saved, q.privLvl, r.pc⟩ := by
    unfold interrupted
    rw [hstep]
    rfl
  rw [hkept, hsame, Resume.mk.injEq]
  cases hbreak : r.raises breakpoint with
  | true =>
      have htrap : takesTrap q r = true := by
        unfold Retire.raises at hbreak
        simp only [Bool.and_eq_true, beq_iff_eq] at hbreak
        rw [takesTrap, hq, hbreak.1, hbreak.2]
        rfl
      rw [← trapStored_iff htrap hoff]
      constructor
      · rintro ⟨h1, h2, -⟩ -
        exact ⟨h1, h2⟩
      · intro h
        exact ⟨(h rfl).1, (h rfl).2, rfl, rfl⟩
  | false =>
      have htrap : takesTrap q r = false := by
        rw [hbreak, Bool.or_false] at hreason
        unfold Retire.raises at hreason
        simp only [Bool.and_eq_true, beq_iff_eq] at hreason
        rw [takesTrap, hreason.2]
        simp
      refine iff_of_true ?_ (fun h => Bool.noConfusion h)
      rw [trapStatus, trapSaved, htrap]
      exact ⟨hoff.hardwired, rfl, rfl, rfl⟩

/-- A stepped instruction neither returns to another level or address nor traps to another level,
or to another address than the target of a branch. -/
structure StepClean (q : Regs) (p : Platform) (a : Access) (r : Retire) : Prop where
  mret : a.csrOp = .MRET → q.mstatus.mpp = q.privLvl ∧ q.mepc = r.following
  sret : a.csrOp = .SRET → 0#1 ++ BitVec.ofBool q.mstatus.spp = q.privLvl ∧ q.sepc = r.following
  ex : r.ex.valid = true → trapToPrivLvl q r = q.privLvl ∧
    (r.commitInstr0.fu = .CTRL_FLOW → r.commitInstr0.bp.predictAddress = trapVectorBase q p r)

structure RetireOk (a : Access) (r : Retire) : Prop where
  cause : r.ex.valid = true → r.ex.cause = illegalInstr
  xret : a.csrOp = .MRET ∨ a.csrOp = .SRET → r.ex.valid = false ∧ r.commitInstr0.fu = .CSR

theorem kept_of_step (hq : q.debugMode = false) (hstep : stepped q r = true)
    (hentry : (csrNext q p a r).debugMode = true) (hok : RetireOk a r) :
    (csrNext q p a r).kept = interrupted q p a r ↔ StepClean q p a r := by
  obtain ⟨hmode, hdpc, hprv⟩ := csrNext_entry (p := p) (a := a) (r := r) hq
  have hdret : (a.csrOp == .DRET) = false := by
    rw [hmode, Bool.and_eq_true, Bool.not_eq_true'] at hentry
    exact hentry.1
  have hkept : (csrNext q p a r).kept = ⟨statusView (csrNext q p a r).mstatus,
      (csrNext q p a r).saved, q.privLvl, stepDpc q p r⟩ := by
    unfold Regs.kept
    rw [hprv, hdpc, hstep]
    rfl
  have hsame : interrupted q p a r = ⟨statusView (csrNext q p a r).mstatus,
      (csrNext q p a r).saved, (csrNext q p a r).privLvl, successor q p a r⟩ := by
    unfold interrupted
    rw [hstep]
    rfl
  have hpriv : (csrNext q p a r).privLvl = if a.csrOp == .SRET then 0#1 ++ BitVec.ofBool q.mstatus.spp
      else if a.csrOp == .MRET then q.mstatus.mpp
      else if takesTrap q r then trapToPrivLvl q r else q.privLvl := by
    have hnext := csrUpdate_privLvl q p a r
    rw [hdret] at hnext
    exact hnext
  have hiff : (csrNext q p a r).kept = interrupted q p a r ↔
      q.privLvl = (csrNext q p a r).privLvl ∧ stepDpc q p r = successor q p a r := by
    rw [hkept, hsame, Resume.mk.injEq]
    exact ⟨fun h => h.2.2, fun h => ⟨rfl, rfl, h⟩⟩
  rw [hiff, hpriv]
  unfold stepDpc successor
  cases hex : r.ex.valid with
  | true =>
      have hm : a.csrOp ≠ .MRET := by
        intro hop
        exact Bool.noConfusion (hex.symm.trans (hok.xret (.inl hop)).1)
      have hs : a.csrOp ≠ .SRET := by
        intro hop
        exact Bool.noConfusion (hex.symm.trans (hok.xret (.inr hop)).1)
      have htrap : takesTrap q r = true := by
        rw [takesTrap, hq, hok.cause hex, hex]
        rfl
      rw [beq_false_of_ne hm, beq_false_of_ne hs, htrap]
      simp only [Bool.false_eq_true, if_false, if_true]
      constructor
      · rintro ⟨hlvl, hpc⟩
        refine ⟨fun h => absurd h hm, fun h => absurd h hs, fun _ => ⟨hlvl.symm, ?_⟩⟩
        intro hfu
        rw [hfu] at hpc
        exact hpc
      · intro h
        obtain ⟨hlvl, hpc⟩ := h.ex hex
        refine ⟨hlvl.symm, ?_⟩
        by_cases hfu : r.commitInstr0.fu = .CTRL_FLOW
        · rw [hfu]
          exact hpc hfu
        · rw [beq_false_of_ne hfu]
          rfl
  | false =>
      have htrap : takesTrap q r = false := by rw [takesTrap, hex, Bool.and_false]
      have hnoex : r.ex.valid ≠ true := by rw [hex]; exact Bool.false_ne_true
      rw [htrap]
      by_cases hm : a.csrOp = .MRET
      · have hepc : epc q a = q.mepc := by
          unfold epc
          rw [strobes_sret, strobes_dret, hm]
          rfl
        have hfu := (hok.xret (.inl hm)).2
        rw [hepc, hm, hfu]
        have hs : a.csrOp ≠ .SRET := by rw [hm]; decide
        constructor
        · rintro ⟨hlvl, hpc⟩
          exact ⟨fun _ => ⟨hlvl.symm, hpc.symm⟩, fun h => absurd h hs, fun h => absurd h hnoex⟩
        · intro h
          exact ⟨(h.mret hm).1.symm, (h.mret hm).2.symm⟩
      · by_cases hs : a.csrOp = .SRET
        · have hepc : epc q a = q.sepc := by
            unfold epc
            rw [strobes_sret, strobes_dret, hs]
            rfl
          have hfu := (hok.xret (.inr hs)).2
          rw [hepc, hs, hfu]
          constructor
          · rintro ⟨hlvl, hpc⟩
            exact ⟨fun h => absurd h hm, fun _ => ⟨hlvl.symm, hpc.symm⟩, fun h => absurd h hnoex⟩
          · intro h
            exact ⟨(h.sret hs).1.symm, (h.sret hs).2.symm⟩
        · refine iff_of_true ⟨?_, ?_⟩ ⟨fun h => absurd h hm, fun h => absurd h hs,
            fun h => absurd h hnoex⟩
          · rw [beq_false_of_ne hm, beq_false_of_ne hs]
            rfl
          · unfold isXret
            rw [beq_false_of_ne hm, beq_false_of_ne hs, hdret]
            rfl

end Cycle

end Cva6.Csr

namespace Cva6.Backend

open Cva6.Riscv Cva6.Sync

/-! ## Sessions of the back end -/

section Session

variable {s : State} {i : Input}

/-- A cycle of a session: nothing is written but the scratch registers, and no return is
executed. -/
structure DebugCycle (s : State) (i : Input) : Prop where
  scratch : Csr.WritesScratch s.csr (csrAccess s i)
  noReturn : Csr.isXret (csrAccess s i).csrOp = false

theorem retireOk_of_ack0 (hack : (out s i).commitAck.ack0 = true)
    (hdc : s.ctrl.flushDcache = false) : Csr.RetireOk (csrAccess s i) (retire s i) := by
  unfold out at hack
  rw [Commit.commit_ack0, Bool.and_eq_true] at hack
  obtain ⟨hret, hclass⟩ := hack
  obtain ⟨hvalid, hcause⟩ := ex_of_retiring s i hret
  refine ⟨hcause, ?_⟩
  intro hop
  have hne : (csrAccess s i).csrOp ≠ .ADD := by
    rcases hop with hop | hop <;> rw [hop] <;> decide
  obtain ⟨-, hfu, hsame⟩ := retiring_of_csrOp hne
  refine ⟨hvalid.trans ?_, hfu⟩
  rw [hsame] at hop
  have hdc : (commitInput s i).flushDcache = false := hdc
  have hamo : (commitInput s i).instr0IsAmo = false := by
    unfold Commit.Input.instr0IsAmo
    rw [commitInput_instr0]
    rcases hop with hop | hop <;> rw [hop] <;> rfl
  rw [hamo, hdc, commitInput_instr0, hfu] at hclass
  rcases hop with hop | hop <;> rw [hop] at hclass <;> simpa using hclass

/-- An exception with another cause than an illegal instruction comes with the instruction. -/
theorem csrOp_of_raises {cause : XLen} (hne : cause ≠ illegalInstr)
    (h : (retire s i).raises cause = true) : (csrAccess s i).csrOp = .ADD := by
  unfold Csr.Retire.raises at h
  simp only [Bool.and_eq_true, beq_iff_eq] at h
  by_contra hop
  obtain ⟨hret, -, -⟩ := retiring_of_csrOp hop
  exact hne (h.2.symm.trans ((ex_of_retiring s i hret).2 h.1))

def EntryClean (s : State) (i : Input) : Prop :=
  (Csr.stepped s.csr (retire s i) = true →
      Csr.StepClean s.csr i.platform (csrAccess s i) (retire s i)) ∧
    (Csr.stepped s.csr (retire s i) = false → (retire s i).raises breakpoint = true →
      Csr.TrapStored s.csr (retire s i))

theorem kept_iff (hq : s.csr.debugMode = false)
    (hentry : (backend.next s i).csr.debugMode = true) (hdc : s.ctrl.flushDcache = false)
    (hoff : Csr.StatusOff s.csr.mstatus) : (backend.next s i).csr.kept =
      Csr.interrupted s.csr i.platform (csrAccess s i) (retire s i) ↔ EntryClean s i := by
  cases hstep : Csr.stepped s.csr (retire s i) with
  | true =>
      have hack : (out s i).commitAck.ack0 = true := (Bool.and_eq_true_iff.1 hstep).2
      refine (Csr.kept_of_step hq hstep hentry (retireOk_of_ack0 hack hdc)).trans ?_
      rw [EntryClean, hstep]
      exact ⟨fun h => ⟨fun _ => h, fun hf => Bool.noConfusion hf⟩, fun h => h.1 rfl⟩
  | false =>
      have hmode := (Csr.csrNext_entry (p := i.platform) (a := csrAccess s i) (r := retire s i) hq).1
      have hop : (csrAccess s i).csrOp = .ADD := by
        rw [show (Csr.csrNext _ _ _ _).debugMode = true from hentry, hstep, Bool.false_or] at hmode
        rcases Bool.or_eq_true_iff.1 (Bool.and_eq_true_iff.1 hmode.symm).2 with hreq | hbreak
        · exact csrOp_of_raises (by decide) hreq
        · exact csrOp_of_raises (by decide) (Bool.and_eq_true_iff.1 hbreak).1
      refine (Csr.kept_of_exception hq hstep hentry hop hoff).trans ?_
      rw [EntryClean, hstep]
      exact ⟨fun h => ⟨fun hf => Bool.noConfusion hf, fun _ => h⟩, fun h => h.2 rfl⟩

end Session

theorem statusOff_run (ins : List Input) : Csr.StatusOff (backend.run ins).csr.mstatus := by
  obtain ⟨hfs, hxs⟩ := run_fs_xs ins
  refine ⟨hfs, hxs, ?_⟩
  induction ins using List.reverseRecOn with
  | nil => rfl
  | append_singleton ins i _ =>
      rw [Machine.run_snoc]
      exact (Csr.settled_csrNext i.platform _ _ (run_fs_xs ins).1 (run_fs_xs ins).2).sd

/-- Through a session the context stays where the entry put it. -/
theorem kept_session (pre body : List Input) (hq : (backend.run pre).csr.debugMode = true)
    (h : backend.ThroughoutFrom DebugCycle (backend.run pre) body) :
    (backend.run (pre ++ body)).csr.kept = (backend.run pre).csr.kept ∧
      (backend.run (pre ++ body)).csr.debugMode = true := by
  induction body generalizing pre with
  | nil =>
      rw [List.append_nil]
      exact ⟨rfl, hq⟩
  | cons i body ih =>
      obtain ⟨hi, hbody⟩ := h
      have hrun : backend.next (backend.run pre) i = backend.run (pre ++ [i]) :=
        (backend.run_snoc pre i).symm
      obtain ⟨hkept, hmode⟩ := Csr.kept_in_debug (p := i.platform)
        (r := retire (backend.run pre) i) hq hi.scratch hi.noReturn (statusOff_run pre)
      rw [hrun] at hbody
      obtain ⟨hkept', hmode'⟩ := ih (pre ++ [i]) (hrun ▸ hmode) hbody
      rw [List.append_assoc, List.singleton_append] at hkept' hmode'
      refine ⟨hkept'.trans ?_, hmode'⟩
      rw [← hrun]
      exact hkept

/-- A debug session, from the cycle of its entry to its `DRET`. -/
structure Session (pre : List Input) (i : Input) (body : List Input) (d : Input) : Prop where
  outside : (backend.run pre).csr.debugMode = false
  entry : (backend.run (pre ++ [i])).csr.debugMode = true
  cycles : backend.ThroughoutFrom DebugCycle (backend.run (pre ++ [i])) body
  dret : (csrAccess (backend.run (pre ++ i :: body)) d).csrOp = .DRET

/-- The session resumes the context it interrupts. -/
def Transparent (pre : List Input) (i : Input) (body : List Input) (d : Input) : Prop :=
  let s := backend.run pre
  let s' := backend.run (pre ++ i :: body)
  Csr.resumed s'.csr d.platform (csrAccess s' d) (retire s' d) =
    Csr.interrupted s.csr i.platform (csrAccess s i) (retire s i)

/-- A debug session of any length gives back the context it interrupts if and only if it is
entered by a request, by a breakpoint whose trap is stored already, or after the step of an
instruction that changes neither the level nor the flow in the CSR file. -/
theorem transparent_iff (pre : List Input) (i : Input) (body : List Input) (d : Input)
    (h : Session pre i body d) :
    Transparent pre i body d ↔ EntryClean (backend.run pre) i := by
  have hdc : (backend.run pre).ctrl.flushDcache = false := by
    rw [run_ctrl]
    rfl
  have hrun : backend.next (backend.run pre) i = backend.run (pre ++ [i]) :=
    (backend.run_snoc pre i).symm
  obtain ⟨hkept, hmode⟩ := kept_session (pre ++ [i]) body h.entry h.cycles
  rw [List.append_assoc, List.singleton_append] at hkept hmode
  rw [← kept_iff h.outside (hrun ▸ h.entry) hdc (statusOff_run pre), hrun, ← hkept]
  have hres := Csr.resumed_of_dret (p := d.platform)
    (r := retire (backend.run (pre ++ i :: body)) d) hmode h.dret (statusOff_run _)
  exact ⟨fun ht => hres.symm.trans ht, fun ht => hres.trans ht⟩

def exceptionInput (cause pc : XLen) : Input :=
  { (default : Input) with
    commitInstr.instr0 := { (default : ScoreboardEntry) with
      pc := pc, ex := ⟨cause, 0, true⟩, valid := true } }

/-- A debug request after reset. -/
theorem transparent_request :
    Session [] (exceptionInput debugRequest 0x40) [csrInput .CSR_WRITE 0x7B2 5]
        (csrInput .DRET 0 0) ∧
      Transparent [] (exceptionInput debugRequest 0x40) [csrInput .CSR_WRITE 0x7B2 5]
        (csrInput .DRET 0 0) := by
  have h : Session [] (exceptionInput debugRequest 0x40) [csrInput .CSR_WRITE 0x7B2 5]
      (csrInput .DRET 0 0) := by
    refine ⟨rfl, by decide +kernel, ⟨⟨fun _ => .inl rfl, by decide +kernel⟩, trivial⟩,
      by decide +kernel⟩
  refine ⟨h, (transparent_iff _ _ _ _ h).2 ⟨?_, ?_⟩⟩
  · intro hstep
    exact absurd hstep (by decide +kernel)
  · intro _ hbreak
    exact absurd hbreak (by decide +kernel)

def breakpointsOn : List Input :=
  [exceptionInput debugRequest 0, csrInput .CSR_WRITE 0x7B0 0x8003, csrInput .DRET 0 0]

/-- The breakpoint that enters debug mode overwrites `mcause` on its way. -/
theorem breakpoint_overwrites_mcause :
    Session breakpointsOn (exceptionInput breakpoint 0x40) [] (csrInput .DRET 0 0) ∧
      ¬Transparent breakpointsOn (exceptionInput breakpoint 0x40) [] (csrInput .DRET 0 0) := by
  refine ⟨⟨by decide +kernel, by decide +kernel, trivial, by decide +kernel⟩, ?_⟩
  intro h
  exact absurd (congrArg (fun r : Csr.Resume => r.saved.mcause) h) (by decide +kernel)

end Cva6.Backend
