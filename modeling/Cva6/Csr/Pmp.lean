import Cva6.Csr.Properties
import Cva6.Sync.Machine
/-!
# Locked PMP entries

The register file as a machine whose inputs are arbitrary: in every cycle the
commit stage may present any operation, with any exception, and the platform
any interrupt or debug request. In such a run a locked entry keeps its
configuration and its address, and a locked top-of-range entry also keeps the
address of the entry below it, which is its lower bound.
-/

namespace Cva6.Csr

open Cva6.Riscv Cva6.Sync

structure Cycle where
  platform : Platform
  access : Access
  retire : Retire
  deriving DecidableEq, Repr, Inhabited

def csrRegfile : Machine Regs Cycle where
  init := Regs.reset
  next q c := csrNext q c.platform c.access c.retire

@[simp] theorem csrRegfile_next (q : Regs) (c : Cycle) :
    csrRegfile.next q c = csrNext q c.platform c.access c.retire := rfl

section Frame

variable (q : Regs) (p : Platform) (a : Access) (r : Retire)

/-! ## Only a write touches the entries -/

theorem debugBlock_pmp (u : Update) :
    (debugBlock q p a r u).d.pmpcfg = u.d.pmpcfg ∧
      (debugBlock q p a r u).d.pmpaddr = u.d.pmpaddr := by
  simp only [debugBlock, debugSingleStep, debugReqEntry, debugBreakpoint, apply_ite Update.d,
    apply_ite Regs.pmpcfg, apply_ite Regs.pmpaddr, ite_self]
  cases ebreakEnabled q <;> simp

theorem csrUpdate_pmpcfg :
    (csrUpdate q p a r).d.pmpcfg = (writeBlock q p a (counters q p r)).d.pmpcfg := by
  simp only [csrUpdate, xret, translation, apply_ite Update.d, apply_ite Regs.pmpcfg, ite_self,
    (debugBlock_pmp q p a r _).1, exceptionStack, hardwired]

theorem csrUpdate_pmpaddr :
    (csrUpdate q p a r).d.pmpaddr = (writeBlock q p a (counters q p r)).d.pmpaddr := by
  simp only [csrUpdate, xret, translation, apply_ite Update.d, apply_ite Regs.pmpaddr, ite_self,
    (debugBlock_pmp q p a r _).2, exceptionStack, hardwired]

/-! ## Writes respect the lock -/

theorem writeReg_pmpcfg (w : XLen) (u : Update) (reg : CsrReg) (j : Fin 16)
    (hlock : (q.pmpcfg j).locked = true) :
    (writeReg q w u reg).d.pmpcfg j = u.d.pmpcfg j := by
  cases reg <;> simp only [writeReg, writeFcsr, apply_ite Update.d, apply_ite Regs.pmpcfg, ite_self,
    hlock, Bool.true_eq_false, and_false, ↓reduceIte]

theorem writeReg_pmpaddr (w : XLen) (u : Update) (reg : CsrReg) (j : Fin 16)
    (hlock : pmpaddrWritable q j = false) :
    (writeReg q w u reg).d.pmpaddr j = u.d.pmpaddr j := by
  cases reg with
  | pmpaddr n =>
      by_cases hn : j = n
      · subst hn
        simp only [writeReg, hlock, Bool.false_eq_true, ↓reduceIte]
      · simp only [writeReg, apply_ite Update.d, apply_ite Regs.pmpaddr]
        split
        · exact Function.update_of_ne hn _ _
        · rfl
  | _ => simp only [writeReg, writeFcsr, apply_ite Update.d, apply_ite Regs.pmpaddr, ite_self]

theorem writeBlock_pmpcfg (u : Update) (j : Fin 16) (hlock : (q.pmpcfg j).locked = true) :
    (writeBlock q p a u).d.pmpcfg j = u.d.pmpcfg j := by
  unfold writeBlock
  split
  · split
    · exact writeReg_pmpcfg q _ u _ j hlock
    · rfl
  · rfl

theorem writeBlock_pmpaddr (u : Update) (j : Fin 16) (hlock : pmpaddrWritable q j = false) :
    (writeBlock q p a u).d.pmpaddr j = u.d.pmpaddr j := by
  unfold writeBlock
  split
  · split
    · exact writeReg_pmpaddr q _ u _ j hlock
    · rfl
  · rfl

theorem csrNext_pmpcfg_locked (j : Fin 16) (hj : j.val < nrPmpEntries)
    (hlock : (q.pmpcfg j).locked = true) :
    (csrNext q p a r).pmpcfg j = q.pmpcfg j := by
  simp only [csrNext, hj, ↓reduceIte, csrUpdate_pmpcfg]
  rw [writeBlock_pmpcfg q p a _ j hlock]
  simp only [counters, Update.idle, apply_ite Regs.pmpcfg, ite_self]

theorem csrNext_pmpaddr_unwritable (j : Fin 16) (hj : j.val < nrPmpEntries)
    (hlock : pmpaddrWritable q j = false) :
    (csrNext q p a r).pmpaddr j = q.pmpaddr j := by
  simp only [csrNext, hj, ↓reduceIte, csrUpdate_pmpaddr]
  rw [writeBlock_pmpaddr q p a _ j hlock]
  simp only [counters, Update.idle, apply_ite Regs.pmpaddr, ite_self]

theorem pmpaddrWritable_of_locked (j : Fin 16) (hlock : (q.pmpcfg j).locked = true) :
    pmpaddrWritable q j = false := by
  simp only [pmpaddrWritable, hlock, Bool.not_true, Bool.false_and]

theorem pmpaddrWritable_below_tor (i j : Fin 16) (hij : j.val + 1 = i.val)
    (hlock : (q.pmpcfg i).locked = true) (htor : (q.pmpcfg i).addrMode = pmpTor) :
    pmpaddrWritable q j = false := by
  have hi : j + 1 = i := by
    apply Fin.ext
    rw [Fin.val_add_one_of_lt]
    · exact hij
    · rw [Fin.lt_def]
      have := i.isLt
      simp only [Fin.val_last]
      omega
  have hj : (j != 15) = true := by
    have := i.isLt
    simp only [bne_iff_ne, ne_eq, Fin.ext_iff]
    omega
  simp only [pmpaddrWritable, hi, hj, hlock, htor, Bool.true_and, beq_self_eq_true, Bool.not_true,
    Bool.and_false]

end Frame

/-! ## Runs -/

/-- What entry `i` protects: its configuration, its address, and for a
top-of-range entry the address below it. -/
structure SameEntry (q q' : Regs) (i : Fin 16) : Prop where
  pmpcfg : q'.pmpcfg i = q.pmpcfg i
  pmpaddr : q'.pmpaddr i = q.pmpaddr i
  below : (q.pmpcfg i).addrMode = pmpTor → ∀ j : Fin 16, j.val + 1 = i.val →
    q'.pmpaddr j = q.pmpaddr j

theorem SameEntry.next {q q' : Regs} {i : Fin 16} (h : SameEntry q q' i)
    (hi : i.val < nrPmpEntries) (hlock : (q.pmpcfg i).locked = true) (c : Cycle) :
    SameEntry q (csrRegfile.next q' c) i := by
  have hlock' : (q'.pmpcfg i).locked = true := by rw [h.pmpcfg, hlock]
  refine ⟨?_, ?_, ?_⟩
  · rw [csrRegfile_next, csrNext_pmpcfg_locked q' _ _ _ i hi hlock', h.pmpcfg]
  · have hw := pmpaddrWritable_of_locked q' i hlock'
    rw [csrRegfile_next, csrNext_pmpaddr_unwritable q' _ _ _ i hi hw, h.pmpaddr]
  · intro htor j hj
    have htor' : (q'.pmpcfg i).addrMode = pmpTor := by rw [h.pmpcfg, htor]
    have hw := pmpaddrWritable_below_tor q' i j hj hlock' htor'
    rw [csrRegfile_next, csrNext_pmpaddr_unwritable q' _ _ _ j (by omega) hw, h.below htor j hj]

theorem SameEntry.runFrom {q : Regs} {i : Fin 16} (hi : i.val < nrPmpEntries)
    (hlock : (q.pmpcfg i).locked = true) (post : List Cycle) :
    SameEntry q (csrRegfile.runFrom q post) i := by
  induction post using List.reverseRecOn with
  | nil => exact ⟨rfl, rfl, fun _ _ _ => rfl⟩
  | append_singleton post c ih =>
      have hsnoc : csrRegfile.runFrom q (post ++ [c]) =
          csrRegfile.next (csrRegfile.runFrom q post) c := by
        simp only [Machine.runFrom, List.foldl_append, List.foldl_cons, List.foldl_nil]
      rw [hsnoc]
      exact ih.next hi hlock c

/-- A lock is permanent. After any run from reset that leaves entry `i` locked,
whatever follows keeps its configuration and its address, and for a
top-of-range entry the address of the entry below. -/
theorem pmp_lock_permanent (i : Fin 16) (hi : i.val < nrPmpEntries) (pre post : List Cycle)
    (hlock : ((csrRegfile.run pre).pmpcfg i).locked = true) :
    (csrRegfile.run (pre ++ post)).pmpcfg i = (csrRegfile.run pre).pmpcfg i ∧
      (csrRegfile.run (pre ++ post)).pmpaddr i = (csrRegfile.run pre).pmpaddr i ∧
      (((csrRegfile.run pre).pmpcfg i).addrMode = pmpTor → ∀ j : Fin 16, j.val + 1 = i.val →
        (csrRegfile.run (pre ++ post)).pmpaddr j = (csrRegfile.run pre).pmpaddr j) := by
  rw [Machine.run_append]
  obtain ⟨hcfg, haddr, hbelow⟩ := SameEntry.runFrom hi hlock post
  exact ⟨hcfg, haddr, hbelow⟩

def csrWriteCycle (addr : BitVec 12) (wdata : XLen) : Cycle where
  platform := default
  access := ⟨.CSR_WRITE, addr, wdata⟩
  retire := { (default : Retire) with commitAck := ⟨true, false⟩ }

/-- Entry 1 becomes a locked top-of-range entry over the range from `0x80` to
`0x100`. -/
def lockCycles : List Cycle :=
  [csrWriteCycle 0x3B0 0x80, csrWriteCycle 0x3B1 0x100, csrWriteCycle 0x3A0 0x8F00]

def rewriteCycles : List Cycle :=
  [csrWriteCycle 0x3B0 0, csrWriteCycle 0x3B1 0, csrWriteCycle 0x3A0 0]

theorem pmp_lock_permanent_tor :
    ((csrRegfile.run lockCycles).pmpcfg 1).locked = true ∧
      (csrRegfile.run (lockCycles ++ rewriteCycles)).pmpcfg 1 = Pmpcfg.ofBits 0x8F ∧
      (csrRegfile.run (lockCycles ++ rewriteCycles)).pmpaddr 1 = 0x100 ∧
      (csrRegfile.run (lockCycles ++ rewriteCycles)).pmpaddr 0 = 0x80 := by
  have hlock : ((csrRegfile.run lockCycles).pmpcfg 1).locked = true := by decide +kernel
  have htor : ((csrRegfile.run lockCycles).pmpcfg 1).addrMode = pmpTor := by decide +kernel
  obtain ⟨hcfg, haddr, hbelow⟩ := pmp_lock_permanent 1 (by decide) lockCycles rewriteCycles hlock
  refine ⟨hlock, ?_, ?_, ?_⟩
  · rw [hcfg]
    decide +kernel
  · rw [haddr]
    decide +kernel
  · rw [hbelow htor 0 (by decide)]
    decide +kernel

end Cva6.Csr
