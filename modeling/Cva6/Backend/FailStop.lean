import Cva6.Backend.Exceptions
/-!
# Stopping after a violation

Once the violation flag is up, the CSR file raises an exception in every cycle.
The intention is that no instruction takes effect any more. The exception does
stop CSR accesses that are not writes, and it keeps port 1 from retiring. It
does not stop port 0 from writing a register, committing a store or starting an
atomic, nor a CSR write or a return.
-/

namespace Cva6.Backend

open Cva6.Sync

variable (s : State) (i : Input)

/-- The instructions at the commit ports take no architectural effect, and the
CSR file changes only as it would when taking the exception alone. -/
def FailStop : Prop :=
  ((out s i).weGpr0 = true → (commitInput s i).waddr0 = 0) ∧
    ((out s i).weGpr1 = true → (commitInput s i).waddr1 = 0) ∧
    (out s i).commitLsu = false ∧ (out s i).amoValidCommit = false ∧
    (Csr.strobes s.csr (csrAccess s i)).csrWe = false ∧
    (Csr.strobes s.csr (csrAccess s i)).mret = false ∧
    (Csr.strobes s.csr (csrAccess s i)).sret = false ∧
    (Csr.strobes s.csr (csrAccess s i)).dret = false ∧
    (out s i).csrWriteFflags = false ∧
    (backend.next s i).csr =
      Csr.trapEntryOnly s.csr i.platform (csrAccess s i) (retire s i)

def acknowledgedAnyway (i : Input) : Bool :=
  if isFence i.commitInstr.instr0.op then i.noStPending
  else !(i.commitInstr.instr0.fu == .CSR) &&
    (!(i.commitInstr.instr0.fu == .STORE) || i.commitLsuReady)

/-- The instruction at port 0, if it is retiring, has no effect to prevent: it
is no atomic and no floating-point instruction; as a CSR instruction it is no
return and no permitted write; otherwise it writes `x0` and is no store that the
load-store unit accepts; and it does not complete a single step. -/
def Harmless : Prop :=
  let e := i.commitInstr.instr0
  retiring s i = true →
    isAmo e.op = false ∧ Commit.isFpu e.fu = false ∧
      (e.fu = .CSR → Csr.isXret e.op = false ∧
        (Csr.isWrite e.op = true → Csr.privilegeViolation s.csr e.op i.csrAddr = true)) ∧
      (e.fu ≠ .CSR → e.rd.setWidth 5 = 0#5 ∧ ¬(e.fu = .STORE ∧ i.commitLsuReady = true)) ∧
      ¬(s.csr.dcsr.step = true ∧ s.csr.debugMode = false ∧ acknowledgedAnyway i = true)

/-! ## A retiring instruction under the flag -/

theorem ack1_of_ex (hex : (ex s i).valid = true) : (out s i).commitAck.ack1 = false := by
  have hex' : (Commit.exceptionHandling (commitInput s i)).valid = true := hex
  rw [out, Commit.commit_ack1, hex']
  simp

theorem ack0_under_exception (hret : retiring s i = true)
    (hce : (csrException s i).valid = true) (hdc : s.ctrl.flushDcache = false)
    (hamo : isAmo i.commitInstr.instr0.op = false) :
    (out s i).commitAck.ack0 = acknowledgedAnyway i := by
  have hr : (commitInput s i).retiring = true := hret
  have hce' : (commitInput s i).csrException.valid = true := hce
  have hfd : (commitInput s i).flushDcache = false := hdc
  have hamo' : (commitInput s i).instr0IsAmo = false := hamo
  rw [out, Commit.commit_ack0, hr, hce', hfd, hamo', commitInput_commitLsuReady,
    commitInput_noStPending, commitInput_instr0]
  unfold acknowledgedAnyway isFence
  cases i.commitInstr.instr0.op == .FENCE <;> cases i.commitInstr.instr0.op == .FENCE_I <;>
    cases i.commitInstr.instr0.op == .SFENCE_VMA <;> cases i.commitInstr.instr0.fu == .CSR <;>
    cases i.commitInstr.instr0.fu == .STORE <;> simp

theorem csrOp_of_retiring (hret : retiring s i = true) :
    (csrAccess s i).csrOp =
      if i.commitInstr.instr0.fu == .CSR then i.commitInstr.instr0.op else .ADD := by
  show (out s i).csrOp = _
  rw [out_csrOp, csrSelect, hret, Bool.true_and]

theorem csrWriteFflags_of_ex (hex : (ex s i).valid = true) :
    (out s i).csrWriteFflags = (retiring s i && Commit.isFpu i.commitInstr.instr0.fu) := by
  have hack1 : (Commit.commit (commitInput s i)).commitAck.ack1 = false := ack1_of_ex s i hex
  rw [out, Commit.commit_csrWriteFflags, hack1]
  simp

/-- A single step that completes under the flag enters debug mode, which the
exception alone would not. -/
theorem step_ne_trapEntryOnly (hret : retiring s i = true) (hdebug : s.csr.debugMode = false)
    (hstep : s.csr.dcsr.step = true) (hack : (out s i).commitAck.ack0 = true)
    (hdret : (Csr.strobes s.csr (csrAccess s i)).dret = false) :
    (backend.next s i).csr ≠ Csr.trapEntryOnly s.csr i.platform (csrAccess s i) (retire s i) := by
  have hcause : (ex s i).valid = true →
      (ex s i).cause ≠ Riscv.breakpoint ∧ (ex s i).cause ≠ Riscv.debugRequest := by
    intro h
    rw [(ex_of_retiring s i hret).2 h]
    decide
  intro heq
  have h : (backend.next s i).csr.debugMode =
      (Csr.trapEntryOnly s.csr i.platform (csrAccess s i) (retire s i)).debugMode := by rw [heq]
  have hleft : (backend.next s i).csr.debugMode = true := by
    show (Csr.csrUpdate s.csr i.platform (csrAccess s i) (retire s i)).d.debugMode = true
    rw [Csr.strobes_dret] at hdret
    rw [Csr.csrUpdate_debugMode _ _ _ _ hcause, hdret, hstep]
    simp [retire, hack]
  have hright : (Csr.trapEntryOnly s.csr i.platform (csrAccess s i)
      (retire s i)).debugMode = false := by
    show (Csr.csrUpdate _ _ _ _).d.debugMode = false
    rw [Csr.csrUpdate_debugMode _ _ _ _ hcause, hdebug]
    simp
  simp [hleft, hright] at h

theorem failStop_of_not_retiring (hret : retiring s i = false) : FailStop s i := by
  have hr : (commitInput s i).retiring = false := hret
  have hack0 : (out s i).commitAck.ack0 = false := by
    rw [out, Commit.commit_ack0, hr, Bool.false_and]
  have hack1 : (out s i).commitAck.ack1 = false := by
    rw [out, Commit.commit_ack1, ← out, hack0]
    simp
  have hop : (csrAccess s i).csrOp = .ADD := by
    show (out s i).csrOp = _
    rw [out_csrOp, csrSelect, hret]
    rfl
  have hff : (out s i).csrWriteFflags = false := by
    rw [out, Commit.commit_csrWriteFflags, ← out, hack1, hr]
    simp
  have hwe : (Csr.strobes s.csr (csrAccess s i)).csrWe = false := by
    rw [Csr.strobes_csrWe, hop]
    rfl
  have hm : (Csr.strobes s.csr (csrAccess s i)).mret = false := by rw [Csr.strobes_mret, hop]; rfl
  have hs : (Csr.strobes s.csr (csrAccess s i)).sret = false := by rw [Csr.strobes_sret, hop]; rfl
  have hd : (Csr.strobes s.csr (csrAccess s i)).dret = false := by rw [Csr.strobes_dret, hop]; rfl
  refine ⟨?_, ?_, ?_, ?_, hwe, hm, hs, hd, hff, ?_⟩
  · simp [out, Commit.commit_weGpr0, hr]
  · rw [out, Commit.commit_weGpr1, ← out, hack1]
    simp
  · simp [out, Commit.commit_commitLsu, hr]
  · simp [out, Commit.commit_amoValidCommit, hr]
  · exact Csr.csrNext_eq_trapEntryOnly _ _ _ _ hwe hm hs hd hff
      (.inr ⟨CommitAck.ext hack0 hack1, by simp [hop]⟩) (fun _ _ => hack0)

theorem failStop_iff_of_retiring (hflag : flag s = true) (hret : retiring s i = true)
    (hdc : s.ctrl.flushDcache = false) : FailStop s i ↔ Harmless s i := by
  have hce := csrException_valid_of_flag s i hflag
  have hex : (ex s i).valid = true := by rw [(ex_of_retiring s i hret).1, hce]
  have hr : (commitInput s i).retiring = true := hret
  have hce' : (commitInput s i).csrException.valid = true := hce
  have hack1 := ack1_of_ex s i hex
  have hop := csrOp_of_retiring s i hret
  have hff := csrWriteFflags_of_ex s i hex
  rw [hret, Bool.true_and] at hff
  constructor
  · rintro ⟨hgpr, -, hlsu, hamo, hwe, hm, hs, hd, hfpu, hcsr⟩ -
    rw [out, Commit.commit_amoValidCommit, hr, Bool.true_and] at hamo
    have hamo' : isAmo i.commitInstr.instr0.op = false := hamo
    rw [out, Commit.commit_weGpr0, hr, hce', hamo] at hgpr
    rw [out, Commit.commit_commitLsu, hr, hamo] at hlsu
    refine ⟨hamo', by rw [← hff, hfpu], ?_, ?_, ?_⟩
    · intro hfu
      rw [hfu] at hop
      rw [Csr.strobes_csrWe, hop] at hwe
      rw [Csr.strobes_mret, hop] at hm
      rw [Csr.strobes_sret, hop] at hs
      rw [Csr.strobes_dret, hop] at hd
      simp_all [Csr.isXret, csrAccess]
    · intro hfu
      have hfu' : (i.commitInstr.instr0.fu == Fu.CSR) = false := by simpa using hfu
      refine ⟨hgpr (by simp [hfu']), ?_⟩
      rintro ⟨hst, hready⟩
      simp [hst, hready] at hlsu
    · rintro ⟨hstep, hdebug, hack⟩
      rw [← ack0_under_exception s i hret hce hdc hamo'] at hack
      exact step_ne_trapEntryOnly s i hret hdebug hstep hack hd hcsr
  · intro h
    obtain ⟨hamo, hfpu, hcsr, hother, hstep⟩ := h hret
    have hamo' : (commitInput s i).instr0IsAmo = false := hamo
    rw [hfpu] at hff
    have hwe : (Csr.strobes s.csr (csrAccess s i)).csrWe = false := by
      rw [Csr.strobes_csrWe, hop]
      by_cases hfu : i.commitInstr.instr0.fu = .CSR
      · cases hw : Csr.isWrite i.commitInstr.instr0.op with
        | false => simp [hfu, hw]
        | true => simp [hfu, csrAccess, (hcsr hfu).2 hw]
      · simp [hfu, Csr.isWrite]
    have hxret : Csr.isXret (csrAccess s i).csrOp = false := by
      rw [hop]
      by_cases hfu : i.commitInstr.instr0.fu = .CSR
      · simp [hfu, (hcsr hfu).1]
      · simp [hfu, Csr.isXret]
    simp only [Csr.isXret, Bool.or_eq_false_iff] at hxret
    have hm : (Csr.strobes s.csr (csrAccess s i)).mret = false := by
      rw [Csr.strobes_mret, hxret.1.1]
    have hs : (Csr.strobes s.csr (csrAccess s i)).sret = false := by
      rw [Csr.strobes_sret, hxret.1.2]
    have hd : (Csr.strobes s.csr (csrAccess s i)).dret = false := by
      rw [Csr.strobes_dret, hxret.2]
    refine ⟨?_, ?_, ?_, ?_, hwe, hm, hs, hd, hff, ?_⟩
    · intro hgpr
      rw [out, Commit.commit_weGpr0, hr, hce', hamo'] at hgpr
      exact (hother (by simpa using hgpr)).1
    · rw [out, Commit.commit_weGpr1, ← out, hack1]
      simp
    · rw [out, Commit.commit_commitLsu, hr, hamo']
      by_cases hst : i.commitInstr.instr0.fu = .STORE
      · have hready := (hother (by simp [hst])).2
        simpa [hst] using hready
      · simp [hst]
    · rw [out, Commit.commit_amoValidCommit, hr, hamo']
      rfl
    · refine Csr.csrNext_eq_trapEntryOnly _ _ _ _ hwe hm hs hd hff (.inl hex) ?_
      intro hdebug hst
      show (out s i).commitAck.ack0 = false
      rw [ack0_under_exception s i hret hce hdc hamo]
      by_contra hack
      exact hstep ⟨hst, hdebug, by simpa using hack⟩

/-! ## Runs -/

theorem failStop_cycle_iff (ins : List Input) (i : Input)
    (hflag : flag (backend.run ins) = true) :
    FailStop (backend.run ins) i ↔ Harmless (backend.run ins) i := by
  cases hret : retiring (backend.run ins) i with
  | false =>
      have hharmless : Harmless (backend.run ins) i := by
        intro h
        simp [hret] at h
      simp [failStop_of_not_retiring _ _ hret, hharmless]
  | true =>
      refine failStop_iff_of_retiring _ _ hflag hret ?_
      rw [run_ctrl]
      rfl

/-- A run stops after a violation exactly when no instruction that comes to port
0 from then on has an effect to prevent. -/
theorem failStop_iff (ins : List Input) :
    backend.Throughout (fun s i => flag s = true → FailStop s i) ins ↔
      backend.Throughout (fun s i => flag s = true → Harmless s i) ins := by
  constructor
  · intro h pre i post hp hflag
    exact (failStop_cycle_iff pre i hflag).mp (h pre i post hp hflag)
  · intro h pre i post hp hflag
    exact (failStop_cycle_iff pre i hflag).mpr (h pre i post hp hflag)

/-- After a violation an addition still writes its register. -/
theorem register_write_after_violation :
    flag (backend.run violation) = true ∧
      (out (backend.run violation) (.at0 addInstr)).weGpr0 = true ∧
      (commitInput (backend.run violation) (.at0 addInstr)).waddr0 = 5 ∧
      ¬FailStop (backend.run violation) (.at0 addInstr) := by
  have hwe : (out (backend.run violation) (.at0 addInstr)).weGpr0 = true := by decide +kernel
  have haddr : (commitInput (backend.run violation) (.at0 addInstr)).waddr0 = 5 := by
    decide +kernel
  refine ⟨by decide +kernel, hwe, haddr, ?_⟩
  intro h
  have hzero := h.1 hwe
  rw [haddr] at hzero
  exact absurd hzero (by decide)

end Cva6.Backend
