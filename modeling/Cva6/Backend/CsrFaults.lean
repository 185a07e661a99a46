import Cva6.Backend.Exceptions
import Cva6.Csr.Effects
/-!
# CSR instructions that raise an exception

A CSR instruction is checked by the read, by the write and by the privilege check, each with
its own list of addresses, and only the privilege check stops the write. The write of a register
that cannot be read is made although the instruction traps, and the violation flag of the
control-flow integrity detector makes any CSR write trap after it is made.
-/

namespace Cva6.Csr

open Cva6.Riscv

/-! ## The state a trap leaves alone -/

/-- The pending bits the interrupt lines drive. -/
def hardwareIrqs : XLen := mipMsip ||| mipMtip ||| mipMeip

/-- The settings without the counters, the bits of the interrupt lines and the context of a
trap. -/
def Settings.guarded (s : Settings) : Settings :=
  { s with
    cycle := 0, instret := 0, mip := s.mip &&& ~~~hardwareIrqs, saved := ⟨0, 0, 0, 0, 0, 0⟩ }

/-- The registers without those that a trap entry, a counter, an interrupt line or the copy of the
level in `dcsr` changes. The entries from `nrPmpEntries` on are hardwired. -/
@[ext]
structure Guarded where
  settings : Settings
  debugMode : Bool
  dcsr : Dcsr
  dpc : XLen
  pmpcfg : Fin 16 → Pmpcfg
  pmpaddr : Fin 16 → BitVec 30

def Regs.guarded (q : Regs) : Guarded where
  settings := q.settings.guarded
  debugMode := q.debugMode
  dcsr := { q.dcsr with prv := 0 }
  dpc := q.dpc
  pmpcfg j := if j.val < nrPmpEntries then q.pmpcfg j else Pmpcfg.ofBits 0
  pmpaddr j := if j.val < nrPmpEntries then q.pmpaddr j else 0

/-- The registers with the trap vector that is loaded after reset. -/
def booted (q : Regs) (p : Platform) : Regs :=
  { q with mtvec := if q.mtvecRstLoad then p.bootAddr + 0x40 else q.mtvec }

section Guarded

variable (q : Regs) (p : Platform) (a : Access) (r : Retire)

theorem counters_guarded : (counters q p r).d.guarded = (booted q p).guarded := by
  unfold counters
  split <;> rfl

theorem irqLines_masked (m : XLen) : irqLines p m &&& ~~~hardwareIrqs = m &&& ~~~hardwareIrqs := by
  have hset (x : XLen) (n : Nat) (b : Bool) (hn : (1#32 <<< n) &&& ~~~hardwareIrqs = 0) :
      setBit x n b &&& ~~~hardwareIrqs = x &&& ~~~hardwareIrqs := by
    apply BitVec.eq_of_getLsbD_eq
    intro j hj
    have h := congrArg (·.getLsbD j) hn
    simp only [BitVec.getLsbD_and, BitVec.getLsbD_not, hj, decide_true,
      Bool.true_and] at h
    unfold setBit
    cases b <;>
      simp only [Bool.false_eq_true, if_true, if_false, BitVec.getLsbD_and, BitVec.getLsbD_or,
        BitVec.getLsbD_not, hj, decide_true, Bool.true_and] <;>
      cases x.getLsbD j <;> cases hb : (1#32 <<< n).getLsbD j <;>
      cases hw : hardwareIrqs.getLsbD j <;> simp_all
  unfold irqLines
  rw [hset _ _ _ (by decide), hset _ _ _ (by decide), hset _ _ _ (by decide)]

/-- A cycle with no reason to enter debug mode keeps the guarded state the write leaves. -/
theorem csrNext_guarded (hq : q.debugMode = false)
    (hbreak : (r.ex.valid && r.ex.cause == breakpoint) = false)
    (hreq : (r.ex.valid && r.ex.cause == debugRequest) = false)
    (hstep : (q.dcsr.step && r.commitAck.ack0) = false) (hff : r.csrWriteFflags = false) :
    (csrNext q p a r).guarded = (written q p a r).guarded := by
  have hdebug := csrNext_debugRegs_of_not_entered q p a r hq hbreak hreq hstep
  have hsettings : (csrNext q p a r).settings.guarded = (written q p a r).settings.guarded := by
    rw [csrNext_settings]
    unfold Settings.guarded
    simp only [irqLines_masked, accruedFlags, hff, Bool.false_eq_true, if_false]
    rfl
  have hmode : (written q p a r).debugMode = false := (written_debugMode q p a r).trans hq
  apply Guarded.ext
  · exact hsettings
  · exact (congrArg DebugRegs.debugMode hdebug).trans hmode.symm
  · exact congrArg (fun d : DebugRegs => { d.dcsr with prv := 0 }) hdebug
  · exact congrArg DebugRegs.dpc hdebug
  · funext j
    show (if _ then _ else _) = if _ then _ else _
    rw [csrNext_pmpcfg]
    split <;> rfl
  · funext j
    show (if _ then _ else _) = if _ then _ else _
    rw [csrNext_pmpaddr]
    split <;> rfl

end Guarded

/-! ## What a write changes -/

/-- Some value written to the register changes the guarded state. The status registers and the
registers a trap saves the context in are not part of it. -/
def Writable (q : Regs) : CsrReg → Prop
  | .fflags | .frm | .fcsr | .ftran => q.mstatus.fs ≠ xsOff
  | .sie => q.mideleg ≠ 0
  | .sip => q.mideleg.getLsbD irqSSoft = true
  | .satp => (q.privLvlO == privLvlS && q.mstatus.tvm) = false
  | .pmpcfg n => ∃ j : Fin 16, j.val / 4 = n.val ∧ j.val < nrPmpEntries ∧ (q.pmpcfg j).locked = false
  | .pmpaddr n => n.val < nrPmpEntries ∧ pmpaddrWritable q n = true
  | .dcsr | .dpc | .dscratch0 | .dscratch1 | .stvec | .scounteren | .sscratch | .medeleg | .mideleg
  | .mie | .mtvec | .mcounteren | .mscratch | .mip | .dcache | .icache => True
  | .tselect | .tdata1 | .tdata2 | .tdata3 | .sstatus | .sepc | .scause | .stval | .mstatus | .misa
  | .mepc | .mcause | .mtval | .mvendorid | .marchid | .mimpid | .mhartid | .mcycle | .minstret
  | .perfCounter | .cycle | .instret => False

section Writes

variable (q : Regs) (w : XLen) (u : Update)

theorem masked_zero (old w : XLen) : masked old 0 w = old := by
  show (old &&& ~~~0#32) ||| (w &&& 0#32) = old
  rw [BitVec.and_zero, BitVec.or_zero, BitVec.not_zero, BitVec.and_allOnes]

theorem ssip_mask (h : q.mideleg.getLsbD irqSSoft = false) : mipSsip &&& q.mideleg = 0 := by
  apply BitVec.eq_of_getLsbD_eq
  intro j hj
  by_cases hj1 : j = irqSSoft
  · subst hj1
    rw [BitVec.getLsbD_and, h, Bool.and_false]
    rfl
  · have hbit : mipSsip.getLsbD j = false := by
      revert hj1
      revert j
      decide
    rw [BitVec.getLsbD_and, hbit, Bool.false_and]
    exact BitVec.getLsbD_zero.symm

theorem pmpcfg_guarded (n : Fin 4)
    (h : ∀ j : Fin 16, j.val / 4 = n.val → j.val < nrPmpEntries → (q.pmpcfg j).locked = true) :
    (writeReg q w u (.pmpcfg n)).d.guarded = u.d.guarded := by
  apply Guarded.ext
  case pmpcfg =>
    funext j
    show (if _ then (if _ then _ else _) else _) = if _ then _ else _
    by_cases hj : j.val < nrPmpEntries
    · rw [if_pos hj, if_pos hj, if_neg]
      rintro ⟨hn, hlock⟩
      exact Bool.noConfusion (hlock.symm.trans (h j hn hj))
    · rw [if_neg hj, if_neg hj]
  all_goals rfl

theorem pmpaddr_guarded (n : Fin 16) (h : ¬(n.val < nrPmpEntries ∧ pmpaddrWritable q n = true)) :
    (writeReg q w u (.pmpaddr n)).d.guarded = u.d.guarded := by
  cases hw : pmpaddrWritable q n with
  | false => simp only [writeReg, hw, Bool.false_eq_true, if_false]
  | true =>
      have hn : ¬n.val < nrPmpEntries := fun hn => h ⟨hn, hw⟩
      simp only [writeReg, hw, if_true]
      apply Guarded.ext
      case pmpaddr =>
        funext j
        show (if j.val < nrPmpEntries then Function.update u.d.pmpaddr n (w.setWidth 30) j else 0) =
          if j.val < nrPmpEntries then u.d.pmpaddr j else 0
        by_cases hj : j.val < nrPmpEntries
        · have hne : j ≠ n := fun hjn => hn (hjn ▸ hj)
          rw [if_pos hj, if_pos hj, Function.update_of_ne hne]
        · rw [if_neg hj, if_neg hj]
      all_goals rfl

theorem writeReg_guarded {reg : CsrReg} (hu : u.d.mip = q.mip ∧ u.d.mie = q.mie)
    (h : ¬Writable q reg) : (writeReg q w u reg).d.guarded = u.d.guarded := by
  cases reg with
  | fflags | frm | fcsr | ftran =>
      have hfs : (q.mstatus.fs == xsOff) = true := by simpa [Writable] using h
      simp only [writeReg, writeFcsr, hfs, if_true]
  | sie =>
      have hdeleg : q.mideleg = 0 := by simpa [Writable] using h
      have hmie : masked q.mie q.mideleg w = u.d.mie := by rw [hdeleg, masked_zero, hu.2]
      simp only [writeReg, hmie]
  | sip =>
      have hdeleg : q.mideleg.getLsbD irqSSoft = false := by simpa [Writable] using h
      have hmip : masked q.mip (mipSsip &&& q.mideleg) w = u.d.mip := by
        rw [ssip_mask q hdeleg, masked_zero, hu.1]
      simp only [writeReg, hmip]
  | satp =>
      have htvm : (q.privLvlO == privLvlS && q.mstatus.tvm) = true := by
        simpa [Writable] using h
      simp only [writeReg, htvm, if_true]
  | pmpcfg n =>
      refine pmpcfg_guarded q w u n ?_
      intro j hn hj
      by_contra hlock
      exact h ⟨j, hn, hj, by simpa using hlock⟩
  | pmpaddr n => exact pmpaddr_guarded q w u n h
  | dcsr | dpc | dscratch0 | dscratch1 | stvec | scounteren | sscratch | medeleg | mideleg
  | mie | mtvec | mcounteren | mscratch | mip | dcache | icache => exact absurd trivial h
  | _ => rfl

theorem masked_getLsbD {old mask : XLen} {n : Nat} (h : mask.getLsbD n = true) :
    (masked old mask w).getLsbD n = w.getLsbD n := by
  have hn : n < 32 := BitVec.lt_of_getLsbD h
  rw [masked, BitVec.getLsbD_or, BitVec.getLsbD_and, BitVec.getLsbD_and, BitVec.getLsbD_not, h]
  simp

theorem bit_ne {n : Nat} (hn : n < 32) : (0 : XLen).getLsbD n ≠ (BitVec.allOnes 32).getLsbD n := by
  rw [BitVec.getLsbD_allOnes, decide_eq_true hn]
  exact (BitVec.getLsbD_zero (w := 32)).trans_ne Bool.false_ne_true

theorem masked_ne {old mask : XLen} (n : Nat) (h : mask.getLsbD n = true) :
    masked old mask 0 ≠ masked old mask (BitVec.allOnes 32) := by
  apply ne_of_apply_ne (·.getLsbD n)
  simp only [masked_getLsbD _ h]
  exact bit_ne (BitVec.lt_of_getLsbD h)

theorem masked_pending_ne {old mask : XLen} (n : Nat) (h : mask.getLsbD n = true)
    (hline : hardwareIrqs.getLsbD n = false) :
    masked old mask 0 &&& ~~~hardwareIrqs ≠
      masked old mask (BitVec.allOnes 32) &&& ~~~hardwareIrqs := by
  have hn : n < 32 := BitVec.lt_of_getLsbD h
  apply ne_of_apply_ne (·.getLsbD n)
  simp only [BitVec.getLsbD_and, BitVec.getLsbD_not, hline, masked_getLsbD _ h, hn, decide_true,
    Bool.not_false, Bool.and_true]
  exact bit_ne hn

theorem fcsr_guarded_ne (f f' : Fcsr) (hfs : q.mstatus.fs ≠ xsOff) (h : f ≠ f') :
    (writeFcsr q f u).d.guarded ≠ (writeFcsr q f' u).d.guarded := by
  have hoff : (q.mstatus.fs == xsOff) = false := by simpa using hfs
  apply ne_of_apply_ne (fun g : Guarded => g.settings.fcsr)
  simp only [writeFcsr, hoff, Bool.false_eq_true, if_false]
  exact h

theorem satp_guarded_ne (h : (q.privLvlO == privLvlS && q.mstatus.tvm) = false) :
    (writeReg q 0 u .satp).d.guarded ≠ (writeReg q (BitVec.allOnes 32) u .satp).d.guarded := by
  apply ne_of_apply_ne (fun g : Guarded => g.settings.satp.mode)
  simp only [writeReg, h, Bool.false_eq_true, if_false]
  exact (by decide : (0 : BitVec 1) ≠ 1)

theorem pmpcfg_guarded_ne (n : Fin 4) (j : Fin 16) (hn : j.val / 4 = n.val)
    (hj : j.val < nrPmpEntries) (hlock : (q.pmpcfg j).locked = false) :
    (writeReg q 0 u (.pmpcfg n)).d.guarded ≠
      (writeReg q (BitVec.allOnes 32) u (.pmpcfg n)).d.guarded := by
  have hbyte : (0 : XLen).extractLsb' (8 * (j.val % 4)) 8 = 0 ∧
      (BitVec.allOnes 32).extractLsb' (8 * (j.val % 4)) 8 = BitVec.allOnes 8 := by
    have hmod : j.val % 4 < 4 := Nat.mod_lt _ (by decide)
    generalize j.val % 4 = k at hmod
    revert k
    decide
  apply ne_of_apply_ne (fun g : Guarded => (g.pmpcfg j).locked)
  show (if _ then (if _ then _ else _) else _ : Pmpcfg).locked ≠
    (if _ then (if _ then _ else _) else _ : Pmpcfg).locked
  rw [if_pos hj, if_pos hj, if_pos ⟨hn, hlock⟩, if_pos ⟨hn, hlock⟩, hbyte.1, hbyte.2]
  decide

theorem pmpaddr_guarded_ne (n : Fin 16) (hn : n.val < nrPmpEntries)
    (hw : pmpaddrWritable q n = true) : (writeReg q 0 u (.pmpaddr n)).d.guarded ≠
      (writeReg q (BitVec.allOnes 32) u (.pmpaddr n)).d.guarded := by
  apply ne_of_apply_ne (fun g : Guarded => g.pmpaddr n)
  simp only [writeReg, hw, if_true, Regs.guarded, hn, Function.update_self]
  decide

theorem writeReg_guarded_ne {reg : CsrReg} (h : Writable q reg) :
    (writeReg q 0 u reg).d.guarded ≠ (writeReg q (BitVec.allOnes 32) u reg).d.guarded := by
  have hones : (0 : XLen) ≠ BitVec.allOnes 32 := by decide
  cases reg with
  | fflags =>
      refine fcsr_guarded_ne q u _ _ h (ne_of_apply_ne Fcsr.fflags ?_)
      exact (by decide : (0 : XLen).setWidth 5 ≠ (BitVec.allOnes 32).setWidth 5)
  | frm =>
      refine fcsr_guarded_ne q u _ _ h (ne_of_apply_ne Fcsr.frm ?_)
      exact (by decide : (0 : XLen).setWidth 3 ≠ (BitVec.allOnes 32).setWidth 3)
  | fcsr =>
      refine fcsr_guarded_ne q u _ _ h (ne_of_apply_ne Fcsr.fflags ?_)
      exact (by decide : (0 : XLen).setWidth 5 ≠ (BitVec.allOnes 32).setWidth 5)
  | ftran =>
      refine fcsr_guarded_ne q u _ _ h (ne_of_apply_ne Fcsr.fprec ?_)
      exact (by decide : (0 : XLen).setWidth 7 ≠ (BitVec.allOnes 32).setWidth 7)
  | sie =>
      obtain ⟨n, hn⟩ : ∃ n, q.mideleg.getLsbD n = true := by
        by_contra hz
        refine h (BitVec.eq_of_getLsbD_eq fun n _ => ?_)
        refine (Bool.eq_false_iff.2 fun hb => hz ⟨n, hb⟩).trans ?_
        exact BitVec.getLsbD_zero.symm
      exact ne_of_apply_ne (fun g : Guarded => g.settings.mie) (masked_ne n hn)
  | sip =>
      have hbit : (mipSsip &&& q.mideleg).getLsbD irqSSoft = true := by
        rw [BitVec.getLsbD_and, show q.mideleg.getLsbD irqSSoft = true from h]
        rfl
      exact ne_of_apply_ne (fun g : Guarded => g.settings.mip)
        (masked_pending_ne irqSSoft hbit (by decide))
  | satp => exact satp_guarded_ne q u h
  | pmpcfg n =>
      obtain ⟨j, hn, hj, hlock⟩ := h
      exact pmpcfg_guarded_ne q u n j hn hj hlock
  | pmpaddr n => exact pmpaddr_guarded_ne q u n h.1 h.2
  | dcsr =>
      apply ne_of_apply_ne (fun g : Guarded => g.dcsr.step)
      exact (by decide : (0 : XLen).getLsbD 2 ≠ (BitVec.allOnes 32).getLsbD 2)
  | dpc => exact ne_of_apply_ne Guarded.dpc hones
  | dscratch0 => exact ne_of_apply_ne (fun g : Guarded => g.settings.dscratch0) hones
  | dscratch1 => exact ne_of_apply_ne (fun g : Guarded => g.settings.dscratch1) hones
  | stvec =>
      apply ne_of_apply_ne (fun g : Guarded => g.settings.stvec)
      exact (by decide : tvec 0 ≠ tvec (BitVec.allOnes 32))
  | scounteren => exact ne_of_apply_ne (fun g : Guarded => g.settings.scounteren) hones
  | sscratch => exact ne_of_apply_ne (fun g : Guarded => g.settings.sscratch) hones
  | medeleg =>
      exact ne_of_apply_ne (fun g : Guarded => g.settings.medeleg) (masked_ne 0 (by decide))
  | mideleg =>
      exact ne_of_apply_ne (fun g : Guarded => g.settings.mideleg) (masked_ne 1 (by decide))
  | mie => exact ne_of_apply_ne (fun g : Guarded => g.settings.mie) (masked_ne 1 (by decide))
  | mtvec =>
      apply ne_of_apply_ne (fun g : Guarded => g.settings.mtvec)
      exact (by decide : mtvecValue 0 ≠ mtvecValue (BitVec.allOnes 32))
  | mcounteren => exact ne_of_apply_ne (fun g : Guarded => g.settings.mcounteren) hones
  | mscratch => exact ne_of_apply_ne (fun g : Guarded => g.settings.mscratch) hones
  | mip =>
      exact ne_of_apply_ne (fun g : Guarded => g.settings.mip)
        (masked_pending_ne irqSSoft (by decide) (by decide))
  | dcache =>
      apply ne_of_apply_ne (fun g : Guarded => g.settings.dcache)
      exact (by decide : ((0 : XLen).setWidth 1).setWidth 32 ≠
        ((BitVec.allOnes 32).setWidth 1).setWidth 32)
  | icache =>
      apply ne_of_apply_ne (fun g : Guarded => g.settings.icache)
      exact (by decide : ((0 : XLen).setWidth 1).setWidth 32 ≠
        ((BitVec.allOnes 32).setWidth 1).setWidth 32)
  | _ => exact h.elim

end Writes

/-! ## Refused accesses -/

section Refused

variable (q : Regs) (p : Platform) (a : Access)

/-- The address is in no case of `csr_update`, or its case refuses the write. -/
def WriteRefused (addr : BitVec 12) : Prop :=
  match CsrReg.ofAddr addr with
  | none => True
  | some reg => (writeReg q 0 (Update.idle q) reg).updateAccessException = true

/-- The access is not implemented or not permitted. -/
def Refused : Prop :=
  privilegeViolation q a.csrOp a.csrAddr = true ∨ readResult q p a = none ∨
    isWrite a.csrOp = true ∧ WriteRefused q a.csrAddr

theorem updateAccessException_of_refused (hwe : (strobes q a).csrWe = true)
    (h : WriteRefused q a.csrAddr) : updateAccessException q p a = true := by
  unfold updateAccessException writeBlock
  unfold WriteRefused at h
  rw [if_pos hwe]
  cases hreg : CsrReg.ofAddr a.csrAddr with
  | none => rfl
  | some reg =>
      rw [hreg] at h
      exact (writeReg_updateAccessException q _ 0 _ _ reg rfl).trans h

theorem csrException_of_refused (flag : Bool) (hop : isAccess a.csrOp = true) (h : Refused q p a) :
    (csrException q p a flag).valid = true := by
  unfold csrException
  cases hviol : privilegeViolation q a.csrOp a.csrAddr with
  | true => rfl
  | false =>
      have hread : (strobes q a).csrRead = true := by rw [strobes_csrRead, hop, hviol]; rfl
      rcases h with h | h | ⟨hw, h⟩
      · exact Bool.noConfusion (hviol.symm.trans h)
      · have hr : readAccessException q p a = true := by
          rw [readAccessException, hread, h]
          rfl
        rw [hr]
        cases updateAccessException q p a <;> cases flag <;> rfl
      · have hwe : (strobes q a).csrWe = true := by rw [strobes_csrWe, hw, hviol]; rfl
        rw [updateAccessException_of_refused q p a hwe h]
        cases readAccessException q p a <;> cases flag <;> rfl

theorem accepted_of_writable {reg : CsrReg} (h : Writable q reg) (hne : reg ≠ .pmpcfg 1)
    (hartId perfData : XLen) : (readReg q hartId perfData reg).isSome = true ∧
      (writeReg q 0 (Update.idle q) reg).updateAccessException = false := by
  cases reg with
  | fflags | frm | fcsr | ftran =>
      have hoff : (q.mstatus.fs == xsOff) = false := by simpa [Writable] using h
      simp [readReg, writeReg, writeFcsr, hoff, Update.idle]
  | satp =>
      have htvm : (q.privLvlO == privLvlS && q.mstatus.tvm) = false := h
      simp only [readReg, writeReg, htvm, Bool.false_eq_true, if_false,
        apply_ite Update.updateAccessException, ite_self]
      exact ⟨rfl, rfl⟩
  | pmpcfg n =>
      obtain ⟨j, hn, hj, -⟩ := h
      have h0 : n = 0 := by
        have hn1 : n.val ≠ 1 := fun h1 => hne (congrArg _ (Fin.ext h1))
        unfold nrPmpEntries at hj
        apply Fin.ext
        show n.val = 0
        omega
      subst h0
      exact ⟨rfl, rfl⟩
  | pmpaddr n =>
      simp only [readReg, writeReg, apply_ite Update.updateAccessException, ite_self]
      exact ⟨rfl, rfl⟩
  | tselect | tdata1 | tdata2 | tdata3 | sstatus | sepc | scause | stval | mstatus | misa
  | mepc | mcause | mtval | mvendorid | marchid | mimpid | mhartid | mcycle | minstret
  | perfCounter | cycle | instret => exact h.elim
  | _ => exact ⟨rfl, rfl⟩

theorem privilegeViolation_access {op : FuOp} {addr : BitVec 12} (h : isAccess op = true) :
    privilegeViolation q op addr = privilegeViolation q .CSR_WRITE addr := by
  unfold privilegeViolation
  rw [h]
  rfl

/-- The write at the address is made although the access raises an exception: the privilege
check passes, the register is one whose write shows, and the violation flag is up or the
register cannot be read. -/
def Exposed (flag : Bool) (addr : BitVec 12) : Prop :=
  ∃ reg, CsrReg.ofAddr addr = some reg ∧ privilegeViolation q .CSR_WRITE addr = false ∧
    Writable q reg ∧ (flag = true ∨ reg = .pmpcfg 1)

theorem csrException_of_accepted (hviol : privilegeViolation q a.csrOp a.csrAddr = false)
    (hread : (readResult q p a).isSome = true) (hwrite : ¬WriteRefused q a.csrAddr) :
    (csrException q p a false).valid = false := by
  have hr : readAccessException q p a = false := by
    rw [readAccessException, Option.isNone_eq_false_iff.2 hread, Bool.and_false]
  have hu : updateAccessException q p a = false := by
    unfold updateAccessException writeBlock
    unfold WriteRefused at hwrite
    split
    · cases hreg : CsrReg.ofAddr a.csrAddr with
      | none =>
          rw [hreg] at hwrite
          exact absurd trivial hwrite
      | some reg =>
          rw [hreg] at hwrite
          refine (writeReg_updateAccessException q _ 0 _ _ reg rfl).trans ?_
          simpa using hwrite
    · rfl
  unfold csrException
  rw [hr, hu, hviol]
  rfl

/-- An exception keeps the instruction count, whatever else the commit stage reports. -/
theorem counters_of_ex {r r' : Retire} (h : r.ex.valid = true) (h' : r'.ex.valid = true) :
    counters q p r = counters q p r' := by
  unfold counters
  simp only [h, h', Bool.not_true, Bool.and_false, Bool.false_eq_true, if_false]

theorem counters_interrupts (r : Retire) :
    (counters q p r).d.mip = q.mip ∧ (counters q p r).d.mie = q.mie := by
  unfold counters
  split <;> exact ⟨rfl, rfl⟩

/-- The write of an access that raises an exception does not show, unless the address is
exposed. -/
theorem written_guarded (r : Retire) {flag : Bool}
    (hex : (csrException q p a flag).valid = true) (h : ¬Exposed q flag a.csrAddr) :
    (written q p a r).guarded = (booted q p).guarded := by
  rw [← counters_guarded q p r]
  unfold written writeBlock
  split
  · next hwe =>
      have hviol : privilegeViolation q a.csrOp a.csrAddr = false := by
        rw [strobes_csrWe] at hwe
        simp_all
      have hop := strobes_csrWe_isAccess q a hwe
      cases hreg : CsrReg.ofAddr a.csrAddr with
      | none => rfl
      | some reg =>
          refine writeReg_guarded q _ _ (counters_interrupts q p r) ?_
          intro hw
          have hpermit := (privilegeViolation_access q hop).symm.trans hviol
          have hnot : ¬(flag = true ∨ reg = .pmpcfg 1) :=
            fun hc => h ⟨reg, hreg, hpermit, hw, hc⟩
          simp only [not_or, Bool.not_eq_true] at hnot
          obtain ⟨hread, hacc⟩ := accepted_of_writable q hw hnot.2 p.hartId p.perfData
          have hvalid := csrException_of_accepted q p a hviol
            (by rw [readResult, hreg]; exact hread)
            (by rw [WriteRefused, hreg]; exact fun hr => Bool.noConfusion (hacc.symm.trans hr))
          rw [hnot.1, hvalid] at hex
          cases hex
  · rfl

end Refused

end Cva6.Csr

namespace Cva6.Backend

open Cva6.Riscv Cva6.Sync

section Faults

variable (s : State) (i : Input)

def withOp (op : FuOp) (w : XLen) : Input :=
  { i with commitInstr.instr0.op := op, commitInstr.instr0.result := w }

/-- An exception of the CSR file leaves the guarded state as it is, and a refused access raises
one. -/
def FaultsAtomically : Prop :=
  ((csrException s i).valid = true →
      (backend.next s i).csr.guarded = (Csr.booted s.csr i.platform).guarded) ∧
    (Csr.Refused s.csr i.platform (csrSelect s i) → (csrException s i).valid = true)

structure CsrAtPort0 : Prop where
  retiring : retiring s i = true
  fu : i.commitInstr.instr0.fu = .CSR

variable {s i}

theorem CsrAtPort0.csrSelect (h : CsrAtPort0 s i) :
    csrSelect s i = ⟨i.commitInstr.instr0.op, i.csrAddr, i.commitInstr.instr0.result⟩ := by
  unfold Backend.csrSelect
  rw [h.retiring, h.fu]
  rfl

theorem CsrAtPort0.withOp (h : CsrAtPort0 s i) (op : FuOp) (w : XLen) :
    CsrAtPort0 s (withOp i op w) :=
  ⟨h.retiring, h.fu⟩

theorem CsrAtPort0.csrAccess (h : CsrAtPort0 s i) : csrAccess s i = Backend.csrSelect s i := by
  have hdata : (out s i).csrWdata = i.commitInstr.instr0.result :=
    Commit.commit_csrWdata_of_csr (commitInput s i) h.retiring h.fu
  unfold Backend.csrAccess
  rw [out_csrOp, hdata]
  rfl

theorem CsrAtPort0.faults (h : CsrAtPort0 s i)
    (hop : Csr.isAccess i.commitInstr.instr0.op = true)
    (hex : (csrException s i).valid = true) (hdc : s.ctrl.flushDcache = false) :
    (retire s i).ex.cause = illegalInstr ∧ (retire s i).commitAck.ack0 = false ∧
      (retire s i).csrWriteFflags = false := by
  obtain ⟨hvalid, hcause⟩ := ex_of_retiring s i h.retiring
  have hstop : StoppedByCsr i :=
    ⟨h.fu, isAmo_of_isAccess hop, fun _ => isFence_of_isAccess hop⟩
  have hack := ((precise_iff_stopped s i h.retiring hex hdc).2 hstop (hvalid.trans hex)).1
  refine ⟨hcause (hvalid.trans hex), congrArg CommitAck.ack0 hack, ?_⟩
  show (Commit.commit (commitInput s i)).csrWriteFflags = false
  rw [Commit.commit_csrWriteFflags, show (Commit.commit (commitInput s i)).commitAck = _ from hack]
  simp [h.fu, Commit.isFpu]

theorem CsrAtPort0.guarded (h : CsrAtPort0 s i)
    (hop : Csr.isAccess i.commitInstr.instr0.op = true)
    (hex : (csrException s i).valid = true) (hdc : s.ctrl.flushDcache = false)
    (hq : s.csr.debugMode = false) : (backend.next s i).csr.guarded =
      (Csr.written s.csr i.platform (Backend.csrSelect s i) (retire s i)).guarded := by
  obtain ⟨hcause, hack, hff⟩ := h.faults hop hex hdc
  rw [← h.csrAccess]
  refine Csr.csrNext_guarded s.csr i.platform _ _ hq ?_ ?_ ?_ hff
  · rw [hcause]
    exact Bool.and_false _
  · rw [hcause]
    exact Bool.and_false _
  · rw [hack]
    exact Bool.and_false _

theorem CsrAtPort0.exposed (h : CsrAtPort0 s i) (hdc : s.ctrl.flushDcache = false)
    (hq : s.csr.debugMode = false) (hexp : Csr.Exposed s.csr (flag s) i.csrAddr) :
    ¬(FaultsAtomically s (Backend.withOp i .CSR_WRITE 0) ∧
      FaultsAtomically s (Backend.withOp i .CSR_WRITE (BitVec.allOnes 32))) := by
  obtain ⟨reg, hreg, hpermit, hw, hwhy⟩ := hexp
  have hvalid (w : XLen) : (csrException s (Backend.withOp i .CSR_WRITE w)).valid = true := by
    rcases hwhy with hflag | rfl
    · exact csrException_valid_of_flag s _ hflag
    · refine Csr.csrException_of_refused s.csr i.platform _ _ ?_ (.inr (.inl ?_))
      · rw [(h.withOp .CSR_WRITE w).csrSelect]
        rfl
      · rw [(h.withOp .CSR_WRITE w).csrSelect]
        show (Csr.CsrReg.ofAddr i.csrAddr).bind _ = none
        rw [hreg]
        rfl
  have hstate (w : XLen) (r : Csr.Retire) : Csr.written s.csr i.platform
      ⟨.CSR_WRITE, i.csrAddr, w⟩ r =
        (Csr.writeReg s.csr w (Csr.counters s.csr i.platform r) reg).d := by
    have hwe : (Csr.strobes s.csr ⟨.CSR_WRITE, i.csrAddr, w⟩).csrWe = true := by
      rw [Csr.strobes_csrWe]
      show (true && !Csr.privilegeViolation s.csr .CSR_WRITE i.csrAddr) = true
      rw [hpermit]
      rfl
    unfold Csr.written Csr.writeBlock
    rw [if_pos hwe, hreg]
    rfl
  have hnext (w : XLen) (hw : FaultsAtomically s (Backend.withOp i .CSR_WRITE w)) :
      (Csr.writeReg s.csr w (Csr.counters s.csr i.platform
        (retire s (Backend.withOp i .CSR_WRITE w))) reg).d.guarded =
      (Csr.booted s.csr i.platform).guarded := by
    have hg := (h.withOp .CSR_WRITE w).guarded rfl (hvalid w) hdc hq
    rw [(h.withOp .CSR_WRITE w).csrSelect] at hg
    rw [← hstate w]
    exact hg.symm.trans (hw.1 (hvalid w))
  rintro ⟨h0, h1⟩
  have hex (w : XLen) : (retire s (Backend.withOp i .CSR_WRITE w)).ex.valid = true :=
    (ex_of_retiring s (Backend.withOp i .CSR_WRITE w) h.retiring).1.trans (hvalid w)
  have hcount := Csr.counters_of_ex s.csr i.platform (hex 0) (hex (BitVec.allOnes 32))
  have he := (hnext 0 h0).trans (hnext (BitVec.allOnes 32) h1).symm
  rw [hcount] at he
  exact Csr.writeReg_guarded_ne s.csr _ hw he

/-- At an address, in a state outside debug mode, every CSR operation with every operand that
raises an exception changes only what a trap changes, and is refused where it has to be, if and
only if the address is not exposed. -/
theorem faults_atomically_iff (ins : List Input) (i : Input)
    (hport : CsrAtPort0 (backend.run ins) i)
    (hq : (backend.run ins).csr.debugMode = false) :
    (∀ op w, Csr.isAccess op = true → FaultsAtomically (backend.run ins) (withOp i op w)) ↔
      ¬Csr.Exposed (backend.run ins).csr (flag (backend.run ins)) i.csrAddr := by
  have hdc : (backend.run ins).ctrl.flushDcache = false := by
    rw [run_ctrl]
    rfl
  constructor
  · intro h hexp
    exact hport.exposed hdc hq hexp ⟨h .CSR_WRITE _ rfl, h .CSR_WRITE _ rfl⟩
  · intro hexp op w hop
    have hp := hport.withOp op w
    constructor
    · intro hvalid
      rw [hp.guarded hop hvalid hdc hq]
      refine Csr.written_guarded _ _ _ _ hvalid ?_
      rw [hp.csrSelect]
      exact hexp
    · intro href
      refine Csr.csrException_of_refused _ _ _ _ ?_ href
      rw [hp.csrSelect]
      exact hop

end Faults

def csrInput (op : FuOp) (addr : BitVec 12) (w : XLen) : Input :=
  { (default : Input) with
    commitInstr.instr0 := { (default : ScoreboardEntry) with
      fu := .CSR, op := op, result := w, valid := true }
    csrAddr := addr }

/-- Accesses to `mvendorid` after reset: a write is refused and changes nothing. -/
theorem mvendorid_faults_atomically :
    (csrException (backend.run []) (csrInput .CSR_WRITE 0xF11 1)).valid = true ∧
      ∀ op w, Csr.isAccess op = true →
        FaultsAtomically (backend.run []) (withOp (csrInput .CSR_WRITE 0xF11 1) op w) := by
  refine ⟨by decide, (faults_atomically_iff [] _ ⟨by decide, rfl⟩ rfl).2 ?_⟩
  rintro ⟨reg, hreg, -, hw, -⟩
  obtain rfl : Csr.CsrReg.mvendorid = reg := Option.some.inj hreg
  exact hw

/-- A write of `pmpcfg1` after reset raises an exception and configures entry 4. -/
theorem pmpcfg1_half_written :
    (csrException (backend.run []) (csrInput .CSR_WRITE 0x3A1 0x0F)).valid = true ∧
      (backend.next (backend.run []) (csrInput .CSR_WRITE 0x3A1 0x0F)).csr.pmpcfg 4 ≠
        (backend.run []).csr.pmpcfg 4 ∧
      ¬FaultsAtomically (backend.run []) (csrInput .CSR_WRITE 0x3A1 0x0F) := by
  have hne : (backend.next (backend.run []) (csrInput .CSR_WRITE 0x3A1 0x0F)).csr.pmpcfg 4 ≠
      (backend.run []).csr.pmpcfg 4 := by
    decide
  have hvalid : (csrException (backend.run []) (csrInput .CSR_WRITE 0x3A1 0x0F)).valid = true := by
    decide
  exact ⟨hvalid, hne, fun h => hne (congrArg (fun g => g.pmpcfg 4) (h.1 hvalid))⟩

end Cva6.Backend
