import Cva6.Csr.Privilege
/-!
# Trap entry and return

A trap stacks the interrupted context in the status register and in the
exception program counter of the level it enters, and the return of that level
restores it. Machine mode and supervisor mode have a stack of depth one each,
in the same register, so the restored context depends on what happened in
between: a handler may be interrupted by traps to a higher level that are
returned from before it goes on.
-/

namespace Cva6.Csr

open Cva6.Riscv Cva6.Sync

/-! ## Cycles of a handler -/

def writesContext (q : Regs) (a : Access) : Bool :=
  writesReg q a .mstatus || writesReg q a .sstatus || writesReg q a .mepc || writesReg q a .sepc

structure Plain (q : Regs) (c : Cycle) : Prop where
  ret : isXret c.access.csrOp = false
  write : writesContext q c.access = false

def Trap (q : Regs) (c : Cycle) : Prop :=
  Plain q c ∧ takesTrap q c.retire = true

def Quiet (q : Regs) (c : Cycle) : Prop :=
  Plain q c ∧ takesTrap q c.retire = false

def xretOp (lvl : PrivLvl) : FuOp :=
  if lvl = privLvlS then .SRET else .MRET

def Returns (lvl : PrivLvl) (c : Cycle) : Prop :=
  c.access.csrOp = xretOp lvl ∧ c.retire.ex.valid = false

/-- The cycles of a handler at level `lvl` started in `q`: ordinary cycles, and
traps to a strictly higher level, each with its own handler and its return. -/
inductive Handler : PrivLvl → Regs → List Cycle → Prop
  | nil {lvl q} : Handler lvl q []
  | quiet {lvl q c cs} : Quiet q c → Handler lvl (csrRegfile.next q c) cs → Handler lvl q (c :: cs)
  | nested {lvl q c body ret cs} :
      Trap q c → lvl < trapToPrivLvl q c.retire →
      Handler (trapToPrivLvl q c.retire) (csrRegfile.next q c) body →
      Returns (trapToPrivLvl q c.retire) ret →
      Handler lvl (csrRegfile.next (csrRegfile.runFrom (csrRegfile.next q c) body) ret) cs →
      Handler lvl q (c :: body ++ ret :: cs)

/-! ## One cycle -/

section Step

variable (q : Regs) (p : Platform) (a : Access) (r : Retire)

theorem writeBlock_context (u : Update) (h : writesContext q a = false) :
    (writeBlock q p a u).d.mstatus = u.d.mstatus ∧ (writeBlock q p a u).d.mepc = u.d.mepc ∧
      (writeBlock q p a u).d.sepc = u.d.sepc := by
  unfold writeBlock
  cases hwe : (strobes q a).csrWe with
  | false => simp
  | true =>
      simp only [writesContext, writesReg, hwe, Bool.true_and, Bool.or_eq_false_iff] at h
      simp only [↓reduceIte]
      cases hreg : CsrReg.ofAddr a.csrAddr with
      | none => simp
      | some reg =>
          rw [hreg] at h
          cases reg <;>
            first
              | (simp at h; done)
              | simp only [writeReg, writeFcsr, apply_ite Update.d, apply_ite Regs.mstatus,
                  apply_ite Regs.mepc, apply_ite Regs.sepc, ite_self, and_self]

/-- An access that the register file refuses is no write to a stacked context:
those registers can be read and written whenever the privilege suffices. -/
theorem writesContext_of_csrException (h : (csrException q p a false).valid = true) :
    writesContext q a = false := by
  by_contra hw
  have hw : writesContext q a = true := by simpa using hw
  obtain ⟨hwe, hreg⟩ : (strobes q a).csrWe = true ∧
      (CsrReg.ofAddr a.csrAddr = some .mstatus ∨ CsrReg.ofAddr a.csrAddr = some .sstatus ∨
        CsrReg.ofAddr a.csrAddr = some .mepc ∨ CsrReg.ofAddr a.csrAddr = some .sepc) := by
    simp only [writesContext, writesReg, ← Bool.and_or_distrib_left, Bool.and_eq_true,
      Bool.or_eq_true, beq_iff_eq, or_assoc] at hw
    exact hw
  have hv : privilegeViolation q a.csrOp a.csrAddr = false := by
    rw [strobes_csrWe] at hwe
    simp only [Bool.and_eq_true, Bool.not_eq_true'] at hwe
    exact hwe.2
  have hr : readAccessException q p a = false := by
    rcases hreg with hreg | hreg | hreg | hreg <;>
      simp [readAccessException, readResult, hreg, readReg]
  have hu : updateAccessException q p a = false := by
    rcases hreg with hreg | hreg | hreg | hreg <;>
      simp [updateAccessException, writeBlock, hwe, hreg, writeReg, Update.idle]
  simp [csrException, hv, hr, hu] at h

theorem debugBlock_epc (u : Update) :
    (debugBlock q p a r u).d.mepc = u.d.mepc ∧ (debugBlock q p a r u).d.sepc = u.d.sepc := by
  simp only [debugBlock, debugSingleStep, debugReqEntry, debugBreakpoint, apply_ite Update.d,
    apply_ite Regs.mepc, apply_ite Regs.sepc, ite_self]
  cases ebreakEnabled q <;> simp

theorem csrUpdate_mepc (h : writesContext q a = false) :
    (csrUpdate q p a r).d.mepc =
      if takesTrap q r && trapToPrivLvl q r != privLvlS then r.pc else q.mepc := by
  simp only [csrUpdate, xret, translation, apply_ite Update.d, apply_ite Regs.mepc, ite_self,
    (debugBlock_epc q p a r _).1, exceptionStack, hardwired, (writeBlock_context q p a _ h).2.1,
    counters, Update.idle]
  cases takesTrap q r <;> cases hS : trapToPrivLvl q r == privLvlS <;> simp [bne, hS]

theorem csrUpdate_sepc (h : writesContext q a = false) :
    (csrUpdate q p a r).d.sepc =
      if takesTrap q r && trapToPrivLvl q r == privLvlS then r.pc else q.sepc := by
  simp only [csrUpdate, xret, translation, apply_ite Update.d, apply_ite Regs.sepc, ite_self,
    (debugBlock_epc q p a r _).2, exceptionStack, hardwired, (writeBlock_context q p a _ h).2.2,
    counters, Update.idle]
  cases takesTrap q r <;> cases hS : trapToPrivLvl q r == privLvlS <;> simp

end Step

/-- The status register without the fields that traps and returns move and
without the hardwired ones. -/
def statusRest (s : Status) : Status :=
  { s with
    mie := false, mpie := false, mpp := 0, sie := false, spie := false, spp := false,
    sd := false, sxl := 0, uxl := 0 }

theorem Plain.mstatus {q : Regs} {c : Cycle} (h : Plain q c) :
    (csrRegfile.next q c).mstatus = trapStatus q c.retire (hardwiredStatus q q.mstatus) := by
  have hret := h.ret
  simp only [isXret, Bool.or_eq_false_iff] at hret
  change (csrUpdate q c.platform c.access c.retire).d.mstatus = _
  rw [csrUpdate_mstatus, (writeBlock_context q _ _ _ h.write).1, counters_mstatus]
  simp only [xretStatus, hret.1.1, hret.1.2, Bool.false_eq_true, ↓reduceIte]

theorem Plain.privLvl {q : Regs} {c : Cycle} (h : Plain q c) :
    (csrRegfile.next q c).privLvl =
      if takesTrap q c.retire then trapToPrivLvl q c.retire else q.privLvl := by
  have hret := h.ret
  simp only [isXret, Bool.or_eq_false_iff] at hret
  change (csrUpdate q c.platform c.access c.retire).d.privLvl = _
  rw [csrUpdate_privLvl]
  simp only [hret.1.1, hret.1.2, hret.2, Bool.false_eq_true, ↓reduceIte]

theorem Plain.mepc {q : Regs} {c : Cycle} (h : Plain q c) :
    (csrRegfile.next q c).mepc =
      if takesTrap q c.retire && trapToPrivLvl q c.retire != privLvlS then c.retire.pc
      else q.mepc :=
  csrUpdate_mepc q c.platform c.access c.retire h.write

theorem Plain.sepc {q : Regs} {c : Cycle} (h : Plain q c) :
    (csrRegfile.next q c).sepc =
      if takesTrap q c.retire && trapToPrivLvl q c.retire == privLvlS then c.retire.pc
      else q.sepc :=
  csrUpdate_sepc q c.platform c.access c.retire h.write

/-! ## What a handler keeps -/

/-- What is the same before and after a piece of a handler at level `lvl`. The
machine-level stack is kept only if nothing traps to machine mode, as inside a
machine-mode handler. -/
structure Kept (lvl : PrivLvl) (q q' : Regs) : Prop where
  privLvl : q'.privLvl = q.privLvl
  mie : q'.mstatus.mie = q.mstatus.mie
  sie : q'.mstatus.sie = q.mstatus.sie
  spie : q'.mstatus.spie = q.mstatus.spie
  spp : q'.mstatus.spp = q.mstatus.spp
  sepc : q'.sepc = q.sepc
  rest : statusRest q'.mstatus = statusRest q.mstatus
  machine : lvl = privLvlM → q'.mstatus.mpie = q.mstatus.mpie ∧
    q'.mstatus.mpp = q.mstatus.mpp ∧ q'.mepc = q.mepc

theorem Kept.refl (lvl : PrivLvl) (q : Regs) : Kept lvl q q :=
  ⟨rfl, rfl, rfl, rfl, rfl, rfl, rfl, fun _ => ⟨rfl, rfl, rfl⟩⟩

theorem Kept.trans {lvl : PrivLvl} {q q' q'' : Regs} (h : Kept lvl q q') (h' : Kept lvl q' q'') :
    Kept lvl q q'' where
  privLvl := h'.privLvl.trans h.privLvl
  mie := h'.mie.trans h.mie
  sie := h'.sie.trans h.sie
  spie := h'.spie.trans h.spie
  spp := h'.spp.trans h.spp
  sepc := h'.sepc.trans h.sepc
  rest := h'.rest.trans h.rest
  machine hM := by
    obtain ⟨h1, h2, h3⟩ := h.machine hM
    obtain ⟨h1', h2', h3'⟩ := h'.machine hM
    exact ⟨h1'.trans h1, h2'.trans h2, h3'.trans h3⟩

theorem Quiet.kept {q : Regs} {c : Cycle} (h : Quiet q c) (lvl : PrivLvl) :
    Kept lvl q (csrRegfile.next q c) := by
  obtain ⟨hplain, htrap⟩ := h
  have hstatus : (csrRegfile.next q c).mstatus = hardwiredStatus q q.mstatus := by
    rw [hplain.mstatus, trapStatus, htrap, if_neg Bool.false_ne_true]
  have hsepc := hplain.sepc
  have hmepc := hplain.mepc
  have hpriv := hplain.privLvl
  rw [htrap] at hsepc hmepc hpriv
  simp only [Bool.false_and, Bool.false_eq_true, ↓reduceIte] at hsepc hmepc hpriv
  refine ⟨hpriv, ?_, ?_, ?_, ?_, hsepc, ?_, fun _ => ⟨?_, ?_, hmepc⟩⟩ <;> rw [hstatus] <;> rfl

/-! ## The two stacks -/

theorem Trap.to_machine {q : Regs} {c : Cycle} (h : Trap q c)
    (hlvl : trapToPrivLvl q c.retire = privLvlM) :
    (csrRegfile.next q c).mstatus = { hardwiredStatus q q.mstatus with
      mie := false, mpie := q.mstatus.mie, mpp := q.privLvl } ∧
    (csrRegfile.next q c).mepc = c.retire.pc ∧ (csrRegfile.next q c).sepc = q.sepc := by
  obtain ⟨hplain, htrap⟩ := h
  rw [hplain.mstatus, hplain.mepc, hplain.sepc, trapStatus, htrap, hlvl]
  exact ⟨rfl, rfl, rfl⟩

theorem Trap.to_supervisor {q : Regs} {c : Cycle} (h : Trap q c)
    (hlvl : trapToPrivLvl q c.retire = privLvlS) :
    (csrRegfile.next q c).mstatus = { hardwiredStatus q q.mstatus with
      sie := false, spie := q.mstatus.sie, spp := q.privLvl.getLsbD 0 } ∧
    (csrRegfile.next q c).sepc = c.retire.pc := by
  obtain ⟨hplain, htrap⟩ := h
  rw [hplain.mstatus, hplain.sepc, trapStatus, htrap, hlvl]
  exact ⟨rfl, rfl⟩

theorem writesContext_of_xret {q : Regs} {a : Access} {lvl : PrivLvl}
    (h : a.csrOp = xretOp lvl) : writesContext q a = false := by
  have hw : isWrite a.csrOp = false := by
    rw [h, xretOp]
    split <;> rfl
  have hwe : (strobes q a).csrWe = false := by rw [strobes_csrWe, hw, Bool.false_and]
  simp only [writesContext, writesReg, hwe, Bool.false_and, Bool.or_self]

theorem Returns.noTrap {q : Regs} {lvl : PrivLvl} {c : Cycle} (h : Returns lvl c) :
    takesTrap q c.retire = false := by
  rw [takesTrap, h.2, Bool.and_false]

theorem Returns.sepc {q : Regs} {lvl : PrivLvl} {c : Cycle} (h : Returns lvl c) :
    (csrRegfile.next q c).sepc = q.sepc := by
  change (csrUpdate q c.platform c.access c.retire).d.sepc = q.sepc
  rw [csrUpdate_sepc q _ _ _ (writesContext_of_xret h.1), h.noTrap]
  rfl

theorem Returns.mstatus {q : Regs} {lvl : PrivLvl} {c : Cycle} (h : Returns lvl c) :
    (csrRegfile.next q c).mstatus = xretStatus q c.access (hardwiredStatus q q.mstatus) := by
  change (csrUpdate q c.platform c.access c.retire).d.mstatus = _
  rw [csrUpdate_mstatus, (writeBlock_context q _ _ _ (writesContext_of_xret h.1)).1,
    counters_mstatus, trapStatus, h.noTrap]
  rfl

theorem Returns.from_machine {q : Regs} {c : Cycle} (h : Returns privLvlM c) :
    epc q c.access = q.mepc ∧ (csrRegfile.next q c).privLvl = q.mstatus.mpp ∧
      (csrRegfile.next q c).mstatus = { hardwiredStatus q q.mstatus with
        mie := q.mstatus.mpie, mpp := privLvlU, mpie := true } := by
  have hop : c.access.csrOp = .MRET := h.1
  have hpriv : (csrRegfile.next q c).privLvl = _ :=
    csrUpdate_privLvl q c.platform c.access c.retire
  rw [hpriv, h.mstatus, epc, strobes_sret, strobes_dret, xretStatus, hop]
  exact ⟨rfl, rfl, rfl⟩

theorem Returns.from_supervisor {q : Regs} {c : Cycle} (h : Returns privLvlS c) :
    epc q c.access = q.sepc ∧
      (csrRegfile.next q c).privLvl = 0#1 ++ BitVec.ofBool q.mstatus.spp ∧
      (csrRegfile.next q c).mstatus = { hardwiredStatus q q.mstatus with
        sie := q.mstatus.spie, spp := false, spie := true } := by
  have hop : c.access.csrOp = .SRET := h.1
  have hpriv : (csrRegfile.next q c).privLvl = _ :=
    csrUpdate_privLvl q c.platform c.access c.retire
  rw [hpriv, h.mstatus, epc, strobes_sret, strobes_dret, xretStatus, hop]
  exact ⟨rfl, rfl, rfl⟩

/-- A trap to machine mode and back, seen from a level below: everything but
the machine-level stack is as before. -/
theorem Trap.machine_round {q q' : Regs} {c ret : Cycle} {lvl : PrivLvl} (h : Trap q c)
    (hlvl : trapToPrivLvl q c.retire = privLvlM)
    (hkept : Kept privLvlM (csrRegfile.next q c) q') (hret : Returns privLvlM ret)
    (hbelow : lvl ≠ privLvlM) :
    epc q' ret.access = c.retire.pc ∧ Kept lvl q (csrRegfile.next q' ret) := by
  obtain ⟨hstatus, hmepc, hsepc⟩ := h.to_machine hlvl
  obtain ⟨hepc, hpriv, hback⟩ := hret.from_machine (q := q')
  obtain ⟨hmpie, hmpp, hmepc'⟩ := hkept.machine rfl
  refine ⟨?_, ?_, ?_, ?_, ?_, ?_, ?_, ?_, fun hM => absurd hM hbelow⟩
  · rw [hepc, hmepc', hmepc]
  · rw [hpriv, hmpp, hstatus]
  · rw [hback]
    change q'.mstatus.mpie = q.mstatus.mie
    rw [hmpie, hstatus]
  · rw [hback]
    change q'.mstatus.sie = q.mstatus.sie
    rw [hkept.sie, hstatus]
    rfl
  · rw [hback]
    change q'.mstatus.spie = q.mstatus.spie
    rw [hkept.spie, hstatus]
    rfl
  · rw [hback]
    change q'.mstatus.spp = q.mstatus.spp
    rw [hkept.spp, hstatus]
    rfl
  · rw [hret.sepc, hkept.sepc, hsepc]
  · rw [hback]
    change statusRest q'.mstatus = statusRest q.mstatus
    rw [hkept.rest, hstatus]
    rfl

/-- A trap to supervisor mode and back. The level fits into `spp`, since a trap
is delegated from below machine mode only. -/
theorem Trap.supervisor_round {q q' : Regs} {c ret : Cycle} (h : Trap q c)
    (hlegal : LegalLvl q.privLvl) (hlvl : trapToPrivLvl q c.retire = privLvlS)
    (hkept : Kept privLvlS (csrRegfile.next q c) q') (hret : Returns privLvlS ret) :
    epc q' ret.access = c.retire.pc ∧ (csrRegfile.next q' ret).privLvl = q.privLvl ∧
      (csrRegfile.next q' ret).mstatus.mie = q.mstatus.mie ∧
      (csrRegfile.next q' ret).mstatus.sie = q.mstatus.sie ∧
      statusRest (csrRegfile.next q' ret).mstatus = statusRest q.mstatus := by
  obtain ⟨hstatus, hsepc⟩ := h.to_supervisor hlvl
  obtain ⟨hepc, hpriv, hback⟩ := hret.from_supervisor (q := q')
  have hbit : q.privLvl.getLsbD 1 = false := by
    have hM := ((trapToPrivLvl_eq_S_iff q c.retire).mp hlvl).2.2
    rcases hlegal with hU | hS | hM'
    · rw [hU]; rfl
    · rw [hS]; rfl
    · exact absurd hM' hM
  refine ⟨?_, ?_, ?_, ?_, ?_⟩
  · rw [hepc, hkept.sepc, hsepc]
  · rw [hpriv, hkept.spp, hstatus]
    exact (spp_eq_iff q.privLvl).mpr hbit
  · rw [hback]
    change q'.mstatus.mie = q.mstatus.mie
    rw [hkept.mie, hstatus]
    rfl
  · rw [hback]
    change q'.mstatus.spie = q.mstatus.sie
    rw [hkept.spie, hstatus]
  · rw [hback]
    change statusRest q'.mstatus = statusRest q.mstatus
    rw [hkept.rest, hstatus]
    rfl

/-! ## Handlers -/

theorem trapToPrivLvl_cases (q : Regs) (r : Retire) :
    trapToPrivLvl q r = privLvlS ∨ trapToPrivLvl q r = privLvlM := by
  unfold trapToPrivLvl
  split
  · split
    · split
      · exact .inr rfl
      · exact .inl rfl
    · exact .inr rfl
  · exact .inr rfl

/-- A handler returns control with the context it was entered with. The
induction is over its nesting; a nested trap can only go from supervisor to
machine mode. -/
theorem Handler.kept {lvl : PrivLvl} {q : Regs} {cs : List Cycle} (h : Handler lvl q cs)
    (hlvl : lvl = privLvlS ∨ lvl = privLvlM) : Kept lvl q (csrRegfile.runFrom q cs) := by
  induction h with
  | nil => exact Kept.refl _ _
  | quiet hq _ ih => exact (hq.kept _).trans (ih hlvl)
  | @nested lvl q c body ret cs htrap hlt _ hret _ ihbody ih =>
      have hS : lvl = privLvlS := by
        rcases hlvl with rfl | rfl
        · rfl
        · rcases trapToPrivLvl_cases q c.retire with h | h <;> rw [h] at hlt <;>
            exact absurd hlt (by decide)
      have hM : trapToPrivLvl q c.retire = privLvlM := by
        rcases trapToPrivLvl_cases q c.retire with h | h
        · rw [h, hS] at hlt
          exact absurd hlt (by decide)
        · exact h
      rw [hM] at ihbody hret
      have hround := htrap.machine_round hM (ihbody (.inr rfl)) hret
        (show lvl ≠ privLvlM by rw [hS]; decide)
      have hrun : csrRegfile.runFrom q (c :: body ++ ret :: cs) = csrRegfile.runFrom
          (csrRegfile.next (csrRegfile.runFrom (csrRegfile.next q c) body) ret) cs := by
        simp only [Machine.runFrom, List.cons_append, List.foldl_cons, List.foldl_append]
      rw [hrun]
      exact hround.2.trans (ih hlvl)

/-- A trap, its handler and the matching return restore the interrupted
context. -/
theorem trap_return_restores (q : Regs) (c : Cycle) (body : List Cycle) (ret : Cycle)
    (hlegal : LegalLvl q.privLvl) (htrap : Trap q c)
    (hbody : Handler (trapToPrivLvl q c.retire) (csrRegfile.next q c) body)
    (hret : Returns (trapToPrivLvl q c.retire) ret) :
    epc (csrRegfile.runFrom q (c :: body)) ret.access = c.retire.pc ∧
      (csrRegfile.runFrom q (c :: body ++ [ret])).privLvl = q.privLvl ∧
      (csrRegfile.runFrom q (c :: body ++ [ret])).mstatus.mie = q.mstatus.mie ∧
      (csrRegfile.runFrom q (c :: body ++ [ret])).mstatus.sie = q.mstatus.sie ∧
      statusRest (csrRegfile.runFrom q (c :: body ++ [ret])).mstatus = statusRest q.mstatus := by
  have hrun : csrRegfile.runFrom q (c :: body ++ [ret]) =
      csrRegfile.next (csrRegfile.runFrom (csrRegfile.next q c) body) ret := by
    simp only [Machine.runFrom, List.cons_append, List.foldl_cons, List.foldl_append,
      List.foldl_nil]
  have hkept := hbody.kept (trapToPrivLvl_cases q c.retire)
  rw [hrun]
  rcases trapToPrivLvl_cases q c.retire with hS | hM
  · rw [hS] at hkept hret
    exact htrap.supervisor_round hlegal hS hkept hret
  · rw [hM] at hkept hret
    obtain ⟨hepc, hround⟩ := @Trap.machine_round _ _ _ _ privLvlU htrap hM hkept hret (by decide)
    exact ⟨hepc, hround.privLvl, hround.mie, hround.sie, hround.rest⟩

def trapCycle (cause pc : XLen) : Cycle where
  platform := default
  access := default
  retire := { (default : Retire) with ex := ⟨cause, 0, true⟩, pc := pc }

def userMode : Regs :=
  csrRegfile.run [csrWriteCycle 0x302 0x100, csrWriteCycle 0x300 0x82, returnCycle .MRET]

/-- An environment call from user mode, whose handler in supervisor mode executes
an illegal instruction that machine mode handles. -/
theorem trap_return_restores_nested :
    userMode.privLvl = privLvlU ∧ trapToPrivLvl userMode (trapCycle 8 0x100).retire = privLvlS ∧
      epc (csrRegfile.runFrom userMode
        [trapCycle 8 0x100, trapCycle 2 0x200, returnCycle .MRET]) ⟨.SRET, 0, 0⟩ = 0x100 ∧
      (csrRegfile.runFrom userMode [trapCycle 8 0x100, trapCycle 2 0x200, returnCycle .MRET,
        returnCycle .SRET]).privLvl = privLvlU ∧
      (csrRegfile.runFrom userMode [trapCycle 8 0x100, trapCycle 2 0x200, returnCycle .MRET,
        returnCycle .SRET]).mstatus.sie = true := by
  have hlvl : trapToPrivLvl userMode (trapCycle 8 0x100).retire = privLvlS := by decide +kernel
  have htrap : Trap userMode (trapCycle 8 0x100) :=
    ⟨⟨by decide +kernel, by decide +kernel⟩, by decide +kernel⟩
  have hbody : Handler privLvlS (csrRegfile.next userMode (trapCycle 8 0x100))
      [trapCycle 2 0x200, returnCycle .MRET] := by
    refine @Handler.nested _ _ (trapCycle 2 0x200) [] (returnCycle .MRET) []
      ⟨⟨by decide +kernel, by decide +kernel⟩, by decide +kernel⟩ (by decide +kernel) .nil
      ⟨by decide +kernel, rfl⟩ .nil
  have hall := trap_return_restores userMode (trapCycle 8 0x100)
    [trapCycle 2 0x200, returnCycle .MRET] (returnCycle .SRET) (by decide +kernel) htrap
    (by rw [hlvl]; exact hbody) (by rw [hlvl]; exact ⟨rfl, rfl⟩)
  obtain ⟨hepc, hpriv, -, hsie, -⟩ := hall
  exact ⟨by decide +kernel, hlvl, hepc, hpriv.trans (by decide +kernel),
    hsie.trans (by decide +kernel)⟩

end Cva6.Csr
