import Cva6.Csr.Pmp
/-!
# Privilege levels

`priv_lvl_t` names three of the four values of its two bits. The level of the
core is restored from `mstatus.mpp`, `mstatus.spp` or `dcsr.prv`, and the level
of loads and stores may be `mstatus.mpp`. The fields are typed `priv_lvl_t`, yet
a write to `mstatus` or `dcsr` stores the two bits it is given. Every level
stays legal in a run whose writes keep the unnamed value out of the two
fields, and a write that puts it there can be followed by a return into it.
-/

namespace Cva6.Csr

open Cva6.Riscv Cva6.Sync

def LegalLvl (v : PrivLvl) : Prop :=
  v = privLvlU ∨ v = privLvlS ∨ v = privLvlM

instance (v : PrivLvl) : Decidable (LegalLvl v) :=
  inferInstanceAs (Decidable (_ ∨ _ ∨ _))

theorem legalLvl_iff (v : PrivLvl) : LegalLvl v ↔ v ≠ 2 := by
  revert v
  decide

def ldStPrivLvl (q : Regs) : PrivLvl :=
  if mprv q then q.mstatus.mpp else q.privLvlO

/-! ## The status stack after one cycle -/

section Cycle

variable (q : Regs) (p : Platform) (a : Access) (r : Retire)

def writesReg (reg : CsrReg) : Bool :=
  (strobes q a).csrWe && CsrReg.ofAddr a.csrAddr == some reg

/-- `Manage Exception Stack` on the status register. -/
def trapStatus (s : Status) : Status :=
  if takesTrap q r then
    if trapToPrivLvl q r == privLvlS then
      { s with sie := false, spie := q.mstatus.sie, spp := q.privLvl.getLsbD 0 }
    else { s with mie := false, mpie := q.mstatus.mie, mpp := q.privLvl }
  else s

/-- `Return from Environment` on the status register. -/
def xretStatus (s : Status) : Status :=
  let s :=
    if a.csrOp == .MRET then { s with mie := q.mstatus.mpie, mpp := privLvlU, mpie := true } else s
  if a.csrOp == .SRET then { s with sie := q.mstatus.spie, spp := false, spie := true } else s

def hardwiredStatus (s : Status) : Status :=
  { s with
    sxl := xlen64, uxl := xlen64,
    sd := q.mstatus.xs == xsDirty || q.mstatus.fs == xsDirty }

theorem csrUpdate_mstatus :
    (csrUpdate q p a r).d.mstatus = xretStatus q a (trapStatus q r
      (hardwiredStatus q (writeBlock q p a (counters q p r)).d.mstatus)) := by
  simp only [csrUpdate, xret, strobes_mret, strobes_sret, strobes_dret, apply_ite Update.d,
    apply_ite Regs.mstatus, ite_self, translation_mstatus, debugBlock_mstatus, exceptionStack,
    hardwired, xretStatus, trapStatus, hardwiredStatus]

theorem writeBlock_privLvl (u : Update) : (writeBlock q p a u).d.privLvl = u.d.privLvl := by
  unfold writeBlock
  split
  · split
    · rename_i reg _
      cases reg <;> simp only [writeReg, writeFcsr, apply_ite Update.d, apply_ite Regs.privLvl,
        ite_self]
    · rfl
  · rfl

/-- A return takes the level of its stack, a trap its own, and nothing else
changes the level. -/
theorem csrUpdate_privLvl :
    (csrUpdate q p a r).d.privLvl =
      if a.csrOp == .DRET then q.dcsr.prv
      else if a.csrOp == .SRET then 0#1 ++ BitVec.ofBool q.mstatus.spp
      else if a.csrOp == .MRET then q.mstatus.mpp
      else if takesTrap q r then trapToPrivLvl q r
      else q.privLvl := by
  simp only [csrUpdate, xret, strobes_mret, strobes_sret, strobes_dret, apply_ite Update.d,
    apply_ite Regs.privLvl, ite_self, translation_privLvl, debugBlock_privLvl, exceptionStack,
    hardwired, writeBlock_privLvl, counters, Update.idle]

theorem counters_mstatus : (counters q p r).d.mstatus = q.mstatus := by
  simp only [counters, Update.idle, apply_ite Regs.mstatus, ite_self]

theorem counters_dcsr : (counters q p r).d.dcsr = q.dcsr := by
  simp only [counters, Update.idle, apply_ite Regs.dcsr, ite_self]

theorem toBits_mpp (s : Status) (i : Nat) (hi : i < 2) :
    s.toBits.getLsbD (11 + i) = s.mpp.getLsbD i := by
  have hi : i = 0 ∨ i = 1 := by omega
  rcases hi with rfl | rfl <;>
    simp only [Status.toBits, BitVec.getLsbD_append] <;> rfl

theorem sstatus_mpp (s : Status) (w : XLen) :
    (Status.ofBits ((s.toBits &&& ~~~(smodeStatusWriteMask.setWidth 32).setWidth 64) |||
      (w.setWidth 64 &&& (smodeStatusWriteMask.setWidth 32).setWidth 64))).mpp = s.mpp := by
  have hmask : ((smodeStatusWriteMask.setWidth 32).setWidth 64) = 0xC6122#64 := by decide
  rw [hmask]
  apply BitVec.eq_of_getLsbD_eq
  intro i hi
  rw [← toBits_mpp s i hi]
  have hi : i = 0 ∨ i = 1 := by omega
  rcases hi with rfl | rfl <;> simp [Status.ofBits]

theorem mstatus_mpp (w : XLen) :
    (Status.ofBits (w.setWidth 64)).mpp = w.extractLsb' 11 2 := by
  ext i hi
  have hi : i = 0 ∨ i = 1 := by omega
  rcases hi with rfl | rfl <;> simp [Status.ofBits]

theorem writeBlock_mpp (u : Update) (hu : u.d.mstatus = q.mstatus) :
    (writeBlock q p a u).d.mstatus.mpp =
      if writesReg q a .mstatus then (csrWdata q p a).extractLsb' 11 2 else q.mstatus.mpp := by
  unfold writeBlock writesReg
  cases hwe : (strobes q a).csrWe with
  | false => simp [hu]
  | true =>
      simp only [↓reduceIte, Bool.true_and]
      cases hreg : CsrReg.ofAddr a.csrAddr with
      | none => simp [hu]
      | some reg =>
          cases reg <;>
            simp [writeReg, writeFcsr, apply_ite Update.d, apply_ite Regs.mstatus, hu, mstatus_mpp,
              sstatus_mpp]

theorem writeBlock_prv (u : Update) :
    (writeBlock q p a u).d.dcsr.prv =
      if writesReg q a .dcsr then (csrWdata q p a).extractLsb' 0 2 else u.d.dcsr.prv := by
  unfold writeBlock writesReg
  cases hwe : (strobes q a).csrWe with
  | false => simp
  | true =>
      simp only [↓reduceIte, Bool.true_and]
      cases hreg : CsrReg.ofAddr a.csrAddr with
      | none => simp
      | some reg =>
          cases reg <;>
            simp [writeReg, writeFcsr, apply_ite Update.d, apply_ite Regs.dcsr, Dcsr.ofBits]

theorem csrUpdate_mpp :
    (csrUpdate q p a r).d.mstatus.mpp =
      if a.csrOp == .MRET then privLvlU
      else if takesTrap q r && trapToPrivLvl q r != privLvlS then q.privLvl
      else if writesReg q a .mstatus then (csrWdata q p a).extractLsb' 11 2
      else q.mstatus.mpp := by
  rw [csrUpdate_mstatus, ← writeBlock_mpp q p a _ (counters_mstatus q p r)]
  simp only [xretStatus, trapStatus, hardwiredStatus, apply_ite Status.mpp, ite_self]
  cases takesTrap q r <;> cases hS : trapToPrivLvl q r == privLvlS <;> simp [bne, hS]

theorem csrUpdate_prv :
    (csrUpdate q p a r).d.dcsr.prv =
      if q.debugMode then
        if writesReg q a .dcsr then (csrWdata q p a).extractLsb' 0 2 else q.dcsr.prv
      else q.privLvlO := by
  have htail (u : Update) : (xret q a (translation q u)).d.dcsr = u.d.dcsr := by
    simp only [xret, translation, apply_ite Update.d, apply_ite Regs.dcsr, ite_self]
  have hdebug (u : Update) : (debugBlock q p a r u).d.dcsr.prv =
      if q.debugMode then u.d.dcsr.prv else q.privLvlO := by
    simp only [debugBlock, debugSingleStep, debugReqEntry, debugBreakpoint, apply_ite Update.d,
      apply_ite Regs.dcsr, apply_ite Dcsr.prv, ite_self]
    cases q.debugMode <;> cases ebreakEnabled q <;> simp
  rw [csrUpdate, htail, hdebug]
  simp only [exceptionStack, hardwired, apply_ite Update.d, apply_ite Regs.dcsr, ite_self,
    writeBlock_prv, counters_dcsr]

end Cycle

/-! ## Runs -/

/-- A write that puts the unnamed value into `mstatus.mpp`, in a cycle whose
trap does not replace the field, or into `dcsr.prv`. -/
def IllegalWrite (q : Regs) (c : Cycle) : Prop :=
  (writesReg q c.access .mstatus = true ∧
      (csrWdata q c.platform c.access).extractLsb' 11 2 = (2 : PrivLvl) ∧
      (takesTrap q c.retire && trapToPrivLvl q c.retire != privLvlS) = false) ∨
    (writesReg q c.access .dcsr = true ∧
      (csrWdata q c.platform c.access).extractLsb' 0 2 = (2 : PrivLvl))

instance (q : Regs) (c : Cycle) : Decidable (IllegalWrite q c) :=
  inferInstanceAs (Decidable ((_ ∧ _ ∧ _) ∨ (_ ∧ _)))

/-- Every field a level is restored from is legal. -/
structure LevelsOk (q : Regs) : Prop where
  privLvl : LegalLvl q.privLvl
  mpp : LegalLvl q.mstatus.mpp
  prv : LegalLvl q.dcsr.prv

theorem LevelsOk.privLvlO {q : Regs} (h : LevelsOk q) : LegalLvl q.privLvlO := by
  unfold Regs.privLvlO
  split
  · exact .inr (.inr rfl)
  · exact h.privLvl

theorem LevelsOk.ldStPrivLvl {q : Regs} (h : LevelsOk q) : LegalLvl (ldStPrivLvl q) := by
  unfold Csr.ldStPrivLvl
  split
  · exact h.mpp
  · exact h.privLvlO

theorem legalLvl_trapToPrivLvl (q : Regs) (r : Retire) : LegalLvl (trapToPrivLvl q r) := by
  unfold trapToPrivLvl
  split
  · split
    · split
      · exact .inr (.inr rfl)
      · exact .inr (.inl rfl)
    · exact .inr (.inr rfl)
  · exact .inr (.inr rfl)

theorem legalLvl_spp (b : Bool) : LegalLvl (0#1 ++ BitVec.ofBool b) := by
  cases b <;> decide

theorem LevelsOk.next {q : Regs} (h : LevelsOk q) {c : Cycle} (hc : ¬ IllegalWrite q c) :
    LevelsOk (csrRegfile.next q c) := by
  obtain ⟨p, a, r⟩ := c
  refine ⟨?_, ?_, ?_⟩
  · change LegalLvl (csrUpdate q p a r).d.privLvl
    rw [csrUpdate_privLvl]
    split
    · exact h.prv
    · split
      · exact legalLvl_spp _
      · split
        · exact h.mpp
        · split
          · exact legalLvl_trapToPrivLvl q r
          · exact h.privLvl
  · change LegalLvl (csrUpdate q p a r).d.mstatus.mpp
    rw [csrUpdate_mpp]
    split
    · exact .inl rfl
    · split
      · exact h.privLvl
      · rename_i htrap
        split
        · rename_i hw
          rw [legalLvl_iff]
          intro heq
          exact hc (.inl ⟨hw, heq, by simpa using htrap⟩)
        · exact h.mpp
  · change LegalLvl (csrUpdate q p a r).d.dcsr.prv
    rw [csrUpdate_prv]
    split
    · split
      · rename_i hw
        rw [legalLvl_iff]
        intro heq
        exact hc (.inr ⟨hw, heq⟩)
      · exact h.prv
    · exact h.privLvlO

theorem levelsOk_run {ins : List Cycle}
    (h : csrRegfile.Throughout (fun q c => ¬ IllegalWrite q c) ins) :
    LevelsOk (csrRegfile.run ins) := by
  refine Machine.invariant (m := csrRegfile) (I := LevelsOk) ?_ ?_ ins h
  · refine ⟨?_, ?_, ?_⟩ <;> decide
  · intro q c hq hc
    exact hq.next hc

/-! ## Every such write can be returned into -/

def returnCycle (op : FuOp) : Cycle where
  platform := default
  access := ⟨op, 0, 0⟩
  retire := { (default : Retire) with commitAck := ⟨true, false⟩ }

theorem isWrite_of_writesReg {q : Regs} {a : Access} {reg : CsrReg}
    (h : writesReg q a reg = true) : isWrite a.csrOp = true := by
  simp only [writesReg, strobes_csrWe, Bool.and_eq_true] at h
  exact h.1.1

theorem not_illegalWrite_of_op {q : Regs} {c : Cycle} (h : isWrite c.access.csrOp = false) :
    ¬ IllegalWrite q c := by
  rintro (⟨hw, -, -⟩ | ⟨hw, -⟩) <;> simp [isWrite_of_writesReg hw] at h

theorem addr_of_dcsr {addr : BitVec 12} (h : CsrReg.ofAddr addr = some .dcsr) : addr = 0x7B0 := by
  unfold CsrReg.ofAddr at h
  split at h
  case h_39 => rfl
  case h_45 =>
    split_ifs at h
    all_goals cases h
  all_goals cases h

theorem debugMode_of_writesReg_dcsr {q : Regs} {a : Access}
    (h : writesReg q a .dcsr = true) : q.debugMode = true := by
  have hop := isWrite_of_writesReg h
  simp only [writesReg, strobes_csrWe, Bool.and_eq_true, Bool.not_eq_true', beq_iff_eq] at h
  obtain ⟨⟨-, hv⟩, haddr⟩ := h
  have haddr : a.csrAddr = 0x7B0 := addr_of_dcsr haddr
  have hacc : isAccess a.csrOp = true := by
    revert hop
    simp only [isWrite, isAccess]
    cases a.csrOp <;> decide
  by_contra hdebug
  have hdebug : q.debugMode = false := by simpa using hdebug
  simp [privilegeViolation, hacc, haddr, hdebug] at hv

theorem illegal_return {q : Regs} {c : Cycle} (h : IllegalWrite q c) :
    ∃ i, ¬ IllegalWrite (csrRegfile.next q c) i ∧
      ¬ LegalLvl (csrRegfile.next (csrRegfile.next q c) i).privLvl := by
  obtain ⟨p, a, r⟩ := c
  rcases h with ⟨hw, hdata, htrap⟩ | ⟨hw, hdata⟩
  · refine ⟨returnCycle .MRET, not_illegalWrite_of_op rfl, ?_⟩
    have hop : (a.csrOp == FuOp.MRET) = false := by
      have := isWrite_of_writesReg hw
      cases hop : a.csrOp <;> simp_all [isWrite]
    have hmpp : (csrUpdate q p a r).d.mstatus.mpp = 2 := by
      simp only [csrUpdate_mpp, hop, htrap, hw, ↓reduceIte, Bool.false_eq_true]
      exact hdata
    have hlvl : (csrRegfile.next (csrRegfile.next q ⟨p, a, r⟩) (returnCycle .MRET)).privLvl =
        (csrUpdate q p a r).d.mstatus.mpp :=
      csrUpdate_privLvl _ _ _ _
    rw [hlvl, hmpp]
    decide
  · refine ⟨returnCycle .DRET, not_illegalWrite_of_op rfl, ?_⟩
    have hprv : (csrUpdate q p a r).d.dcsr.prv = 2 := by
      simp only [csrUpdate_prv, debugMode_of_writesReg_dcsr hw, hw, ↓reduceIte]
      exact hdata
    have hlvl : (csrRegfile.next (csrRegfile.next q ⟨p, a, r⟩) (returnCycle .DRET)).privLvl =
        (csrUpdate q p a r).d.dcsr.prv :=
      csrUpdate_privLvl _ _ _ _
    rw [hlvl, hprv]
    decide

/-- In a run whose writes keep the unnamed value out of `mstatus.mpp` and
`dcsr.prv`, the level of the core and the level of its loads and stores are
members of `priv_lvl_t`. No weaker condition on the writes is enough: after one
that does not, the next return may enter the unnamed level. -/
theorem levels_legal (ins : List Cycle) :
    (csrRegfile.Throughout (fun q c => ¬ IllegalWrite q c) ins →
      LegalLvl (csrRegfile.run ins).privLvl ∧ LegalLvl (ldStPrivLvl (csrRegfile.run ins))) ∧
    (∀ c, IllegalWrite (csrRegfile.run ins) c →
      ∃ i, ¬ IllegalWrite (csrRegfile.run (ins ++ [c])) i ∧
        ¬ LegalLvl (csrRegfile.run (ins ++ [c] ++ [i])).privLvl) := by
  refine ⟨?_, ?_⟩
  · intro h
    have hok := levelsOk_run h
    exact ⟨hok.privLvl, hok.ldStPrivLvl⟩
  · intro c hc
    simp only [Machine.run_snoc]
    exact illegal_return hc

/-- Firmware that returns to supervisor mode: `mpp` is written with `01`. -/
theorem levels_legal_supervisor :
    csrRegfile.Throughout (fun q c => ¬ IllegalWrite q c)
        [csrWriteCycle 0x300 0x800, returnCycle .MRET] ∧
      LegalLvl (csrRegfile.run [csrWriteCycle 0x300 0x800, returnCycle .MRET]).privLvl ∧
      LegalLvl (ldStPrivLvl (csrRegfile.run [csrWriteCycle 0x300 0x800, returnCycle .MRET])) := by
  have hrun : csrRegfile.Throughout (fun q c => ¬ IllegalWrite q c)
      [csrWriteCycle 0x300 0x800, returnCycle .MRET] := by decide +kernel
  exact ⟨hrun, (levels_legal _).1 hrun⟩

/-- `mpp` is written with `10`, once with `mprv` and once before a return. -/
theorem mpp_write_unnamed :
    ldStPrivLvl (csrRegfile.run [csrWriteCycle 0x300 0x21000]) = 2 ∧
      (csrRegfile.run [csrWriteCycle 0x300 0x1000, returnCycle .MRET]).privLvl = 2 ∧
      ¬ ∀ ins, LegalLvl (csrRegfile.run ins).privLvl ∧ LegalLvl (ldStPrivLvl (csrRegfile.run ins)) := by
  have hret : (csrRegfile.run [csrWriteCycle 0x300 0x1000, returnCycle .MRET]).privLvl = 2 := by
    decide +kernel
  refine ⟨by decide +kernel, hret, ?_⟩
  intro h
  have hlegal := (h [csrWriteCycle 0x300 0x1000, returnCycle .MRET]).1
  rw [hret] at hlegal
  exact absurd hlegal (by decide)

end Cva6.Csr
