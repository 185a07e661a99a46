import Cva6.Backend.CsrFaults
import Cva6.Csr.TrapReturn
import Cva6.Isa.Accept
/-!
# Lower privilege levels

What instructions executed at supervisor or user level leave of the state of the levels above.
The privilege check compares two bits of the address with the level, and the returns are
checked in the decoder only; the supervisor's views of machine registers are masks.
-/

namespace Cva6.Csr

open Cva6.Riscv

/-! ## Addresses and levels -/

/-- The lowest level a register can be accessed from, as its address encodes it. -/
def CsrReg.level : CsrReg → PrivLvl
  | .fflags | .frm | .fcsr | .ftran | .cycle | .instret => privLvlU
  | .sstatus | .sie | .stvec | .scounteren | .sscratch | .sepc | .scause | .stval | .sip
  | .satp => privLvlS
  | _ => privLvlM

theorem level_of_range {addr lo hi : BitVec 12} (h : lo ≤ addr ∧ addr ≤ hi)
    (hblock : lo.toNat / 256 = hi.toNat / 256) :
    addr.extractLsb' 8 2 = lo.extractLsb' 8 2 := by
  have hlo : lo.toNat ≤ addr.toNat := h.1
  have hhi : addr.toNat ≤ hi.toNat := h.2
  have hdiv : addr.toNat / 256 = lo.toNat / 256 := by omega
  apply BitVec.eq_of_toNat_eq
  rw [BitVec.extractLsb'_toNat, BitVec.extractLsb'_toNat, Nat.shiftRight_eq_div_pow,
    Nat.shiftRight_eq_div_pow, show 2 ^ 8 = 256 from rfl, hdiv]

theorem level_of_addr {addr : BitVec 12} {reg : CsrReg} (h : CsrReg.ofAddr addr = some reg) :
    addr.extractLsb' 8 2 = reg.level := by
  unfold CsrReg.ofAddr at h
  split at h
  case h_45 =>
    split_ifs at h with hcfg haddr hperf
    · cases h
      exact level_of_range hcfg rfl
    · cases h
      exact level_of_range haddr rfl
    · cases h
      exact level_of_range hperf rfl
  all_goals
    cases h
    rfl

/-- Outside debug mode an access that is not refused is made from the level of the register. -/
theorem level_of_permitted {q : Regs} {op : FuOp} {addr : BitVec 12} {reg : CsrReg}
    (hreg : CsrReg.ofAddr addr = some reg) (hop : isAccess op = true)
    (h : privilegeViolation q op addr = false) : reg.level = privLvlU ∨
      q.privLvlO &&& reg.level = reg.level := by
  rw [← level_of_addr hreg]
  by_cases hcount : 0xC00#12 ≤ addr ∧ addr ≤ 0xC1F#12
  · exact .inl (level_of_range hcount rfl)
  · right
    unfold privilegeViolation at h
    rw [if_pos hop, if_neg hcount] at h
    by_contra hlvl
    have hne : (q.privLvlO &&& addr.extractLsb' 8 2 != addr.extractLsb' 8 2) = true := by
      simpa [bne] using hlvl
    rw [hne] at h
    simp at h

theorem not_machine_of_permitted {q : Regs} {op : FuOp} {addr : BitVec 12} {reg : CsrReg}
    (hreg : CsrReg.ofAddr addr = some reg) (hop : isAccess op = true)
    (h : privilegeViolation q op addr = false) (hq : q.debugMode = false)
    (hlow : q.privLvl = privLvlS ∨ q.privLvl = privLvlU) : reg.level ≠ privLvlM := by
  intro hM
  rcases level_of_permitted hreg hop h with hU | hlvl
  · exact absurd (hM.symm.trans hU) (by decide)
  · rw [hM, Regs.privLvlO, hq] at hlvl
    rcases hlow with hS | hU
    · rw [hS] at hlvl
      exact absurd hlvl (by decide)
    · rw [hU] at hlvl
      exact absurd hlvl (by decide)

/-! ## The state of the levels above -/

structure MachineStatus where
  mie : Bool
  mpie : Bool
  mpp : PrivLvl
  mprv : Bool
  tvm : Bool
  tw : Bool
  tsr : Bool
  deriving DecidableEq, Repr

def MachineStatus.of (s : Status) : MachineStatus where
  mie := s.mie
  mpie := s.mpie
  mpp := s.mpp
  mprv := s.mprv
  tvm := s.tvm
  tw := s.tw
  tsr := s.tsr

/-- The state that belongs to machine and debug mode. Of the interrupt enables it has the bits
that are not delegated. -/
@[ext]
structure High where
  medeleg : XLen
  mideleg : XLen
  mtvec : XLen
  mepc : XLen
  mcause : XLen
  mtval : XLen
  mscratch : XLen
  mcounteren : XLen
  mie : XLen
  pmpcfg : Fin 16 → Pmpcfg
  pmpaddr : Fin 16 → BitVec 30
  dcache : XLen
  icache : XLen
  dscratch0 : XLen
  dscratch1 : XLen
  dcsr : Dcsr
  mstatus : MachineStatus

def Regs.high (q : Regs) : High where
  medeleg := q.medeleg
  mideleg := q.mideleg
  mtvec := q.mtvec
  mepc := q.mepc
  mcause := q.mcause
  mtval := q.mtval
  mscratch := q.mscratch
  mcounteren := q.mcounteren
  mie := q.mie &&& ~~~q.mideleg
  pmpcfg := q.pmpcfg
  pmpaddr := q.pmpaddr
  dcache := q.dcache
  icache := q.icache
  dscratch0 := q.dscratch0
  dscratch1 := q.dscratch1
  dcsr := dcsrRest q.dcsr
  mstatus := MachineStatus.of q.mstatus

def sstatusMask : BitVec 64 := (smodeStatusWriteMask.setWidth 32).setWidth 64

theorem sstatus_getLsbD (b w : BitVec 64) {k : Nat} (hk : sstatusMask.getLsbD k = false)
    (hlt : k < 64) :
    ((b &&& ~~~sstatusMask) ||| (w &&& sstatusMask)).getLsbD k = b.getLsbD k := by
  rw [BitVec.getLsbD_or, BitVec.getLsbD_and, BitVec.getLsbD_and, BitVec.getLsbD_not, hk]
  simp [hlt]

theorem sstatus_extractLsb (b w : BitVec 64) {k n : Nat}
    (hk : ∀ j < n, sstatusMask.getLsbD (k + j) = false) (hlt : k + n ≤ 64) :
    ((b &&& ~~~sstatusMask) ||| (w &&& sstatusMask)).extractLsb' k n = b.extractLsb' k n := by
  apply BitVec.eq_of_getLsbD_eq
  intro j hj
  rw [BitVec.getLsbD_extractLsb', BitVec.getLsbD_extractLsb',
    sstatus_getLsbD b w (hk j hj) (by omega)]

theorem sstatus_kept (s : Status) (w : BitVec 64) :
    let s' := Status.ofBits ((s.toBits &&& ~~~sstatusMask) ||| (w &&& sstatusMask))
    MachineStatus.of s' = MachineStatus.of s ∧ s'.xs = s.xs := by
  have hback := status_ofBits_toBits s
  intro s'
  have hsame : MachineStatus.of s' = MachineStatus.of (Status.ofBits s.toBits) ∧
      s'.xs = (Status.ofBits s.toBits).xs := by
    simp only [s', MachineStatus.of, Status.ofBits]
    rw [sstatus_extractLsb _ _ (by decide) (by decide),
      sstatus_extractLsb _ _ (by decide) (by decide)]
    simp (disch := decide) only [sstatus_getLsbD, and_self]
  rw [hback] at hsame
  exact hsame

section Writes

variable (q : Regs) (w : XLen) (u : Update)

theorem masked_rest (old mask : XLen) : masked old mask w &&& ~~~mask = old &&& ~~~mask := by
  apply BitVec.eq_of_getLsbD_eq
  intro j hj
  simp only [masked, BitVec.getLsbD_and, BitVec.getLsbD_or, BitVec.getLsbD_not, hj, decide_true,
    Bool.true_and]
  cases mask.getLsbD j <;> simp

theorem writeReg_high {reg : CsrReg} (hlvl : reg.level ≠ privLvlM)
    (hmie : u.d.mie = q.mie) (hdeleg : u.d.mideleg = q.mideleg)
    (hstatus : u.d.mstatus = q.mstatus) : (writeReg q w u reg).d.high = u.d.high := by
  cases reg with
  | fflags | frm | fcsr | ftran =>
      simp only [writeReg, writeFcsr]
      split <;> rfl
  | sstatus =>
      have hkept := (sstatus_kept q.mstatus (w.setWidth 64)).1
      apply High.ext
      case mstatus =>
        show MachineStatus.of _ = MachineStatus.of u.d.mstatus
        rw [hstatus]
        exact hkept
      all_goals rfl
  | sie =>
      apply High.ext
      case mie =>
        show masked q.mie q.mideleg w &&& ~~~u.d.mideleg = u.d.mie &&& ~~~u.d.mideleg
        rw [hdeleg, hmie, masked_rest]
      all_goals rfl
  | satp =>
      simp only [writeReg]
      split
      · rfl
      · split <;> rfl
  | cycle | instret | stvec | scounteren | sscratch | sepc | scause | stval | sip => rfl
  | _ => exact absurd rfl hlvl

end Writes

/-! ## Cycles of the lower levels -/

structure Below (q : Regs) : Prop where
  debugMode : q.debugMode = false
  lower : q.privLvl = privLvlS ∨ q.privLvl = privLvlU

/-- What holds in every state after the first: the trap vector is loaded, the hardwired fields of
the status register and the entries that are not implemented have their values. -/
structure Settled (q : Regs) : Prop where
  loaded : q.mtvecRstLoad = false
  fs : q.mstatus.fs = xsOff
  xs : q.mstatus.xs = xsOff
  sxl : q.mstatus.sxl = xlen64
  uxl : q.mstatus.uxl = xlen64
  sd : q.mstatus.sd = false
  pmpcfg : ∀ j : Fin 16, ¬j.val < nrPmpEntries → q.pmpcfg j = Pmpcfg.ofBits 0
  pmpaddr : ∀ j : Fin 16, ¬j.val < nrPmpEntries → q.pmpaddr j = 0

section Cycle

variable (q : Regs) (p : Platform) (a : Access) (r : Retire)

theorem counters_high (h : q.mtvecRstLoad = false) : (counters q p r).d.high = q.high := by
  unfold counters
  rw [h]
  split <;> rfl

theorem counters_saved : (counters q p r).d.saved = q.saved := by
  unfold counters
  split <;> rfl

theorem permitted_of_csrWe (h : (strobes q a).csrWe = true) :
    isAccess a.csrOp = true ∧ privilegeViolation q a.csrOp a.csrAddr = false := by
  refine ⟨strobes_csrWe_isAccess q a h, ?_⟩
  rw [strobes_csrWe, Bool.and_eq_true, Bool.not_eq_true'] at h
  exact h.2

theorem written_high (h : Below q) (hrst : q.mtvecRstLoad = false) :
    (written q p a r).high = q.high := by
  unfold written writeBlock
  split
  · next hwe =>
    split
    · next reg hreg =>
      obtain ⟨hop, hpermit⟩ := permitted_of_csrWe q a hwe
      rw [writeReg_high q _ _ (not_machine_of_permitted hreg hop hpermit h.debugMode h.lower)]
      · exact counters_high q p r hrst
      · simp only [counters, Update.idle, apply_ite Regs.mie, ite_self]
      · simp only [counters, Update.idle, apply_ite Regs.mideleg, ite_self]
      · exact counters_mstatus q p r
    · exact counters_high q p r hrst
  · exact counters_high q p r hrst

theorem csrNext_machineStatus (hmret : a.csrOp ≠ .MRET)
    (htrap : takesTrap q r = true → trapToPrivLvl q r = privLvlS) :
    MachineStatus.of (csrNext q p a r).mstatus = MachineStatus.of (written q p a r).mstatus := by
  have hnext : (csrNext q p a r).mstatus = (csrUpdate q p a r).d.mstatus := rfl
  rw [hnext, csrUpdate_mstatus, xretStatus, beq_false_of_ne hmret, trapStatus]
  cases ht : takesTrap q r with
  | false => cases a.csrOp == .SRET <;> rfl
  | true =>
      rw [htrap ht]
      cases a.csrOp == .SRET <;> rfl

theorem csrNext_high (hset : Settled q) (h : Below q) (hmret : a.csrOp ≠ .MRET)
    (htrap : takesTrap q r = true → trapToPrivLvl q r = privLvlS) :
    (csrNext q p a r).high = q.high := by
  have hset' := csrNext_settings q p a r
  have hw := written_high q p a r h hset.loaded
  have hsaved (f : Saved → XLen) (hf : ∀ s : Saved,
      f { s with scause := r.ex.cause, sepc := r.pc, stval := r.ex.tval } = f s) :
      f (csrNext q p a r).saved = f (written q p a r).saved := by
    rw [show (csrNext q p a r).saved = (csrNext q p a r).settings.saved from rfl, hset']
    show f (trapSaved q r _) = _
    unfold trapSaved
    cases ht : takesTrap q r with
    | false => rfl
    | true =>
        rw [htrap ht]
        exact hf _
  rw [← hw]
  apply High.ext
  case mepc => exact hsaved Saved.mepc fun _ => rfl
  case mcause => exact hsaved Saved.mcause fun _ => rfl
  case mtval => exact hsaved Saved.mtval fun _ => rfl
  case pmpcfg =>
    funext j
    show (csrNext q p a r).pmpcfg j = (written q p a r).high.pmpcfg j
    rw [csrNext_pmpcfg]
    split
    · rfl
    · next hj => rw [hw]; exact (hset.pmpcfg j hj).symm
  case pmpaddr =>
    funext j
    show (csrNext q p a r).pmpaddr j = (written q p a r).high.pmpaddr j
    rw [csrNext_pmpaddr]
    split
    · rfl
    · next hj => rw [hw]; exact (hset.pmpaddr j hj).symm
  case dcsr => exact csrNext_dcsr_rest q p a r
  case mstatus => exact csrNext_machineStatus q p a r hmret htrap
  case medeleg => exact congrArg Settings.medeleg hset'
  case mideleg => exact congrArg Settings.mideleg hset'
  case mtvec => exact congrArg Settings.mtvec hset'
  case mscratch => exact congrArg Settings.mscratch hset'
  case mcounteren => exact congrArg Settings.mcounteren hset'
  case mie => exact congrArg (fun s : Settings => s.mie &&& ~~~s.mideleg) hset'
  case dcache => exact congrArg Settings.dcache hset'
  case icache => exact congrArg Settings.icache hset'
  case dscratch0 => exact congrArg Settings.dscratch0 hset'
  case dscratch1 => exact congrArg Settings.dscratch1 hset'

theorem csrNext_lower (h : Below q) (hmret : a.csrOp ≠ .MRET) (hdret : a.csrOp ≠ .DRET)
    (htrap : takesTrap q r = true → trapToPrivLvl q r = privLvlS) :
    (csrNext q p a r).privLvl = privLvlS ∨ (csrNext q p a r).privLvl = privLvlU := by
  have hnext : (csrNext q p a r).privLvl = (csrUpdate q p a r).d.privLvl := rfl
  rw [hnext, csrUpdate_privLvl, beq_false_of_ne hdret, beq_false_of_ne hmret]
  cases a.csrOp == .SRET with
  | true =>
      cases q.mstatus.spp with
      | false => exact .inr rfl
      | true => exact .inl rfl
  | false =>
      cases ht : takesTrap q r with
      | true => exact .inl (htrap ht)
      | false => exact h.lower

/-- What a program at user level can see change at all: the registers without the counters, the
pending bits of the interrupt lines and the copy of the level in `dcsr`. -/
structure Visible where
  guarded : Guarded
  saved : Saved
  mstatus : Status
  privLvl : PrivLvl

def Regs.visible (q : Regs) : Visible := ⟨q.guarded, q.saved, q.mstatus, q.privLvl⟩

structure Uneventful : Prop where
  ex : r.ex.valid = false
  step : (q.dcsr.step && r.commitAck.ack0) = false
  mret : a.csrOp ≠ .MRET
  sret : a.csrOp ≠ .SRET
  dret : a.csrOp ≠ .DRET

variable {q a r}

theorem Settled.hardwiredStatus (h : Settled q) : hardwiredStatus q q.mstatus = q.mstatus := by
  have hsd : (q.mstatus.xs == xsDirty || q.mstatus.fs == xsDirty) = q.mstatus.sd := by
    rw [h.xs, h.fs, h.sd]
    rfl
  unfold Csr.hardwiredStatus
  rw [hsd, ← h.sxl]
  exact congrArg (fun v => { q.mstatus with uxl := v }) (h.sxl.trans h.uxl.symm)

theorem Uneventful.visible (h : Uneventful q a r) (hset : Settled q) (hq : q.debugMode = false)
    (hwe : (strobes q a).csrWe = false) (hff : r.csrWriteFflags = false) :
    (csrNext q p a r).visible = q.visible := by
  have htrap : takesTrap q r = false := by rw [takesTrap, h.ex, Bool.and_false]
  have hwrite : writeBlock q p a (counters q p r) = counters q p r := by
    rw [writeBlock, hwe]
    rfl
  have hmtvec : (if q.mtvecRstLoad then p.bootAddr + 0x40 else q.mtvec) = q.mtvec := by
    rw [hset.loaded]
    rfl
  have hbooted : booted q p = q := by
    unfold booted
    rw [hmtvec]
  have hguarded : (csrNext q p a r).guarded = q.guarded := by
    rw [csrNext_guarded q p a r hq (by rw [h.ex]; rfl) (by rw [h.ex]; rfl) h.step hff, written,
      hwrite, counters_guarded, hbooted]
  have hsaved : (csrNext q p a r).saved = q.saved := by
    rw [show (csrNext q p a r).saved = (csrNext q p a r).settings.saved from rfl,
      csrNext_settings]
    show trapSaved q r (written q p a r).saved = q.saved
    rw [trapSaved, htrap, written, hwrite]
    exact counters_saved q p r
  have hstatus : (csrNext q p a r).mstatus = q.mstatus := by
    rw [show (csrNext q p a r).mstatus = (csrUpdate q p a r).d.mstatus from rfl,
      csrUpdate_mstatus, hwrite, counters_mstatus, hset.hardwiredStatus, trapStatus, htrap,
      xretStatus, beq_false_of_ne h.mret, beq_false_of_ne h.sret]
    rfl
  have hpriv : (csrNext q p a r).privLvl = q.privLvl := by
    rw [show (csrNext q p a r).privLvl = (csrUpdate q p a r).d.privLvl from rfl,
      csrUpdate_privLvl, beq_false_of_ne h.mret, beq_false_of_ne h.sret, beq_false_of_ne h.dret,
      htrap]
    rfl
  rw [Regs.visible, hguarded, hsaved, hstatus, hpriv]
  rfl

end Cycle

/-- A debug request is always followed. -/
theorem csrNext_debugMode_of_request (q : Regs) (p : Platform) {a : Access} {r : Retire}
    (hq : q.debugMode = false) (hex : r.ex.valid = true) (hreq : r.ex.cause = debugRequest)
    (hdret : a.csrOp ≠ .DRET) : (csrNext q p a r).debugMode = true := by
  have hnext := congrArg DebugRegs.debugMode (csrNext_debugRegs q p a r)
  rw [debugBlock_d, hq] at hnext
  refine hnext.trans ?_
  show (!(a.csrOp == .DRET) && _) = true
  rw [beq_false_of_ne hdret]
  show (debugSingleStep q p a r (debugReqEntry q r _)).d.debugMode = true
  have hentry (u : Update) : (debugReqEntry q r u).d.debugMode = true := by
    unfold debugReqEntry
    rw [hex, hreq]
    rfl
  unfold debugSingleStep
  split
  · rfl
  · exact hentry _

/-- The registers of user level are read-only, or need the floating-point unit. -/
theorem writeRefused_of_user {q : Regs} {op : FuOp} {addr : BitVec 12} (hset : Settled q)
    (h : Below q) (hU : q.privLvl = privLvlU) (hop : isAccess op = true)
    (hpermit : privilegeViolation q op addr = false) : WriteRefused q addr := by
  unfold WriteRefused
  cases hreg : CsrReg.ofAddr addr with
  | none => trivial
  | some reg =>
      have hlvl : reg.level = privLvlU := by
        rcases level_of_permitted hreg hop hpermit with hlvl | hlvl
        · exact hlvl
        · have hpriv : q.privLvlO = privLvlU := by
            rw [Regs.privLvlO, h.debugMode]
            exact hU
          rw [hpriv] at hlvl
          exact hlvl.symm.trans BitVec.zero_and
      have hoff : (q.mstatus.fs == xsOff) = true := by rw [hset.fs]; rfl
      cases reg with
      | fflags | frm | fcsr | ftran => simp only [writeReg, writeFcsr, hoff, if_true]
      | cycle | instret => rfl
      | _ => cases hlvl

/-! ## Settled states -/

theorem writeBlock_fs_xs (q : Regs) (p : Platform) (a : Access) (u : Update)
    (hu : u.d.mstatus = q.mstatus) (hfs : q.mstatus.fs = xsOff) (hxs : q.mstatus.xs = xsOff) :
    (writeBlock q p a u).d.mstatus.fs = xsOff ∧ (writeBlock q p a u).d.mstatus.xs = xsOff := by
  unfold writeBlock
  split
  · split
    · next reg _ =>
      cases reg with
      | sstatus => exact ⟨rfl, (sstatus_kept q.mstatus _).2.trans hxs⟩
      | mstatus => exact ⟨rfl, rfl⟩
      | _ =>
        simp only [writeReg, writeFcsr, apply_ite Update.d, apply_ite Regs.mstatus, ite_self, hu]
        exact ⟨hfs, hxs⟩
    · exact hu ▸ ⟨hfs, hxs⟩
  · exact hu ▸ ⟨hfs, hxs⟩

theorem settled_csrNext {q : Regs} (p : Platform) (a : Access) (r : Retire)
    (hfs : q.mstatus.fs = xsOff) (hxs : q.mstatus.xs = xsOff) : Settled (csrNext q p a r) := by
  obtain ⟨hfs', hxs'⟩ := writeBlock_fs_xs q p a _ (counters_mstatus q p r) hfs hxs
  have hstatus : (csrNext q p a r).mstatus = xretStatus q a (trapStatus q r
      (hardwiredStatus q (writeBlock q p a (counters q p r)).d.mstatus)) :=
    csrUpdate_mstatus q p a r
  have hsd : (q.mstatus.xs == xsDirty || q.mstatus.fs == xsDirty) = false := by
    rw [hxs, hfs]
    rfl
  constructor
  case loaded => rfl
  case pmpcfg => exact fun j hj => if_neg hj
  case pmpaddr => exact fun j hj => if_neg hj
  case fs =>
    rw [hstatus]
    simpa only [xretStatus, trapStatus, hardwiredStatus, apply_ite Status.fs, ite_self] using hfs'
  case xs =>
    rw [hstatus]
    simpa only [xretStatus, trapStatus, hardwiredStatus, apply_ite Status.xs, ite_self] using hxs'
  case sxl =>
    rw [hstatus]
    simp only [xretStatus, trapStatus, hardwiredStatus, apply_ite Status.sxl, ite_self]
  case uxl =>
    rw [hstatus]
    simp only [xretStatus, trapStatus, hardwiredStatus, apply_ite Status.uxl, ite_self]
  case sd =>
    rw [hstatus]
    simp only [xretStatus, trapStatus, hardwiredStatus, apply_ite Status.sd, ite_self, hsd]

end Cva6.Csr

namespace Cva6.Backend

open Cva6.Riscv Cva6.Sync

/-! ## Instructions of the lower levels -/

/-- The entry of a commit port comes from an instruction word that was decoded in the context of
the registers. Write-back can only add an exception. -/
structure DecodedAs (q : Csr.Regs) (e : ScoreboardEntry) (d : Decoder.Input) : Prop where
  privLvl : d.privLvl = q.privLvlO
  debugMode : d.debugMode = q.debugMode
  tvm : d.tvm = q.mstatus.tvm
  tw : d.tw = q.mstatus.tw
  tsr : d.tsr = q.mstatus.tsr
  fu : e.fu = (Decoder.instructionO d).fu
  op : e.op = (Decoder.instructionO d).op
  ex : (Decoder.instructionO d).ex.valid = true → e.ex.valid = true

def DecodedUnder (q : Csr.Regs) (e : ScoreboardEntry) : Prop := ∃ d, DecodedAs q e d

theorem DecodedUnder.not_fpu {q : Csr.Regs} {e : ScoreboardEntry} (h : DecodedUnder q e) :
    Commit.isFpu e.fu = false := by
  obtain ⟨d, hd⟩ := h
  obtain ⟨hfpu, hvec⟩ := (Decoder.instructionO_sound d).not_fpu
  rw [hd.fu, Commit.isFpu, beq_false_of_ne hfpu, beq_false_of_ne hvec]
  rfl

/-- The returns that can reach the commit stage without an exception. -/
theorem DecodedUnder.return_permitted {q : Csr.Regs} {e : ScoreboardEntry} (h : DecodedUnder q e)
    (hfu : e.fu = .CSR) (hex : e.ex.valid = false) (hbelow : Csr.Below q) :
    e.op ≠ .MRET ∧ e.op ≠ .DRET ∧ (e.op = .SRET → q.privLvl ≠ privLvlU) := by
  obtain ⟨d, hd⟩ := h
  have hlvl : q.privLvlO = q.privLvl := by
    rw [Csr.Regs.privLvlO, hbelow.debugMode]
    rfl
  have hclean : d.ex.valid = false ∧ (Decoder.decoder d).illegalInstr = false := by
    have hraise := Decoder.exceptionHandling_valid d (Decoder.decoder d)
    constructor
    · by_contra hv
      exact Bool.noConfusion (hex.symm.trans (hd.ex (hraise (.inl (by simpa using hv)))))
    · by_contra hv
      exact Bool.noConfusion (hex.symm.trans (hd.ex (hraise (.inr (by simpa using hv)))))
  obtain ⟨hm, hs, hr⟩ := Isa.return_permitted hclean.1 (hd.fu.symm.trans hfu) hclean.2
  rw [hd.privLvl, hlvl] at hm hs
  rw [hd.debugMode, hbelow.debugMode] at hr
  rw [hd.op]
  refine ⟨?_, ?_, hs⟩
  · intro hop
    exact hbelow.lower.elim (hm hop).2 (hm hop).1
  · intro hop
    exact Bool.noConfusion (hr hop)

/-- A cycle whose instructions were decoded in the context that is in force, in which no trap to
machine mode and no entry into debug mode happens. -/
structure LowerCycle (s : State) (i : Input) : Prop where
  port0 : i.commitInstr.instr0.valid = true → DecodedUnder s.csr i.commitInstr.instr0
  port1 : i.commitInstr.instr1.valid = true → DecodedUnder s.csr i.commitInstr.instr1
  noMachineTrap : Csr.takesTrap s.csr (retire s i) = true →
    Csr.trapToPrivLvl s.csr (retire s i) ≠ privLvlM
  noDebugEntry : (backend.next s i).csr.debugMode = false

section Cycle

variable {s : State} {i : Input}

theorem retiring_of_csrOp (h : (csrAccess s i).csrOp ≠ .ADD) :
    retiring s i = true ∧ i.commitInstr.instr0.fu = .CSR ∧
      (csrAccess s i).csrOp = i.commitInstr.instr0.op := by
  have hop : (csrAccess s i).csrOp = (csrSelect s i).csrOp := out_csrOp s i
  rw [hop] at h ⊢
  unfold csrSelect at h ⊢
  by_cases hc : (retiring s i && i.commitInstr.instr0.fu == .CSR) = true
  · simp only [Bool.and_eq_true, beq_iff_eq] at hc
    exact ⟨hc.1, hc.2, by rw [hc.1, hc.2]; rfl⟩
  · rw [if_neg hc] at h
    exact absurd rfl h

theorem valid_of_retiring (h : retiring s i = true) :
    i.commitInstr.instr0.valid = true ∧ i.commitInstr.instr0.ex.valid = false := by
  unfold retiring at h
  simp only [Bool.and_eq_true, Bool.not_eq_true'] at h
  exact h.1

theorem LowerCycle.csrOp (h : LowerCycle s i) (hbelow : Csr.Below s.csr) :
    (csrAccess s i).csrOp ≠ .MRET ∧ (csrAccess s i).csrOp ≠ .DRET ∧
      ((csrAccess s i).csrOp = .SRET → s.csr.privLvl ≠ privLvlU) := by
  by_cases hop : (csrAccess s i).csrOp = .ADD
  · rw [hop]
    exact ⟨by decide, by decide, fun h => by cases h⟩
  · obtain ⟨hret, hfu, hsame⟩ := retiring_of_csrOp hop
    obtain ⟨hvalid, hex⟩ := valid_of_retiring hret
    rw [hsame]
    exact (h.port0 hvalid).return_permitted hfu hex hbelow

theorem LowerCycle.trap (h : LowerCycle s i) (ht : Csr.takesTrap s.csr (retire s i) = true) :
    Csr.trapToPrivLvl s.csr (retire s i) = privLvlS := by
  rcases Csr.trapToPrivLvl_cases s.csr (retire s i) with hS | hM
  · exact hS
  · exact absurd hM (h.noMachineTrap ht)

theorem LowerCycle.csrWriteFflags (h : LowerCycle s i) : (retire s i).csrWriteFflags = false := by
  show (Commit.commit (commitInput s i)).csrWriteFflags = false
  have h0 : (retiring s i && Commit.isFpu i.commitInstr.instr0.fu) = false := by
    cases hret : retiring s i with
    | false => rfl
    | true => exact (h.port0 (valid_of_retiring hret).1).not_fpu
  have h1 : ((out s i).commitAck.ack1 && Commit.isFpu i.commitInstr.instr1.fu) = false := by
    cases hack : (out s i).commitAck.ack1 with
    | false => rfl
    | true =>
        have hack1 := Commit.commit_ack1 (commitInput s i)
        rw [show (Commit.commit (commitInput s i)).commitAck.ack1 = _ from hack] at hack1
        simp only [Bool.true_eq, Bool.and_eq_true] at hack1
        exact (h.port1 hack1.1.1.1.1.1.1.2).not_fpu
  rw [Commit.commit_csrWriteFflags]
  exact Bool.or_eq_false_iff.2 ⟨h0, h1⟩

/-- One cycle below machine mode. -/
theorem LowerCycle.high (h : LowerCycle s i) (hbelow : Csr.Below s.csr)
    (hset : Csr.Settled s.csr) : (backend.next s i).csr.high = s.csr.high ∧
      Csr.Below (backend.next s i).csr := by
  obtain ⟨hm, hd, -⟩ := h.csrOp hbelow
  exact ⟨Csr.csrNext_high _ _ _ _ hset hbelow hm h.trap,
    h.noDebugEntry, Csr.csrNext_lower _ _ _ _ hbelow hm hd h.trap⟩

/-- While the level stays user level no exception is taken. -/
theorem LowerCycle.no_exception (h : LowerCycle s i) (hbelow : Csr.Below s.csr)
    (hU : s.csr.privLvl = privLvlU) (hU' : (backend.next s i).csr.privLvl = privLvlU) :
    (retire s i).ex.valid = false := by
  obtain ⟨hm, hd, hs⟩ := h.csrOp hbelow
  have hs : (csrAccess s i).csrOp ≠ .SRET := fun hop => hs hop hU
  have htrap : Csr.takesTrap s.csr (retire s i) = false := by
    by_contra ht
    have ht : Csr.takesTrap s.csr (retire s i) = true := by simpa using ht
    have hnext : (backend.next s i).csr.privLvl =
        (Csr.csrUpdate s.csr i.platform (csrAccess s i) (retire s i)).d.privLvl := rfl
    rw [hnext, Csr.csrUpdate_privLvl, beq_false_of_ne hm, beq_false_of_ne hs, beq_false_of_ne hd,
      ht, h.trap ht] at hU'
    exact (by decide : privLvlS ≠ privLvlU) hU'
  by_contra hex
  have hex : (retire s i).ex.valid = true := by simpa using hex
  have hreq : (retire s i).ex.cause = debugRequest := by
    unfold Csr.takesTrap at htrap
    rw [hbelow.debugMode, hex] at htrap
    simpa [bne] using htrap
  exact Bool.noConfusion (h.noDebugEntry.symm.trans
    (Csr.csrNext_debugMode_of_request s.csr i.platform hbelow.debugMode hex hreq hd))

/-- Every register that user level can address refuses writes. -/
theorem no_user_write (hbelow : Csr.Below s.csr)
    (hset : Csr.Settled s.csr) (hU : s.csr.privLvl = privLvlU)
    (hex : (retire s i).ex.valid = false) :
    (Csr.strobes s.csr (csrAccess s i)).csrWe = false := by
  by_contra hwe
  have hwe : (Csr.strobes s.csr (csrAccess s i)).csrWe = true := by simpa using hwe
  obtain ⟨hop, hpermit⟩ := Csr.permitted_of_csrWe _ _ hwe
  have hne : (csrAccess s i).csrOp ≠ .ADD := by
    intro hadd
    rw [hadd] at hop
    cases hop
  obtain ⟨hret, -, -⟩ := retiring_of_csrOp hne
  have haccept : ¬Csr.WriteRefused s.csr i.csrAddr := by
    intro href
    have hvalid : (Csr.csrException s.csr i.platform (csrAccess s i) (flag s)).valid = true := by
      refine Csr.csrException_of_refused _ _ _ _ hop (.inr (.inr ⟨?_, href⟩))
      rw [Csr.strobes_csrWe, Bool.and_eq_true] at hwe
      exact hwe.1
    rw [csrException_access, ← (ex_of_retiring s i hret).1] at hvalid
    exact Bool.noConfusion (hex.symm.trans hvalid)
  exact haccept (Csr.writeRefused_of_user hset hbelow hU hop hpermit)

theorem LowerCycle.visible (h : LowerCycle s i) (hbelow : Csr.Below s.csr)
    (hset : Csr.Settled s.csr) (hU : s.csr.privLvl = privLvlU)
    (hU' : (backend.next s i).csr.privLvl = privLvlU) :
    (backend.next s i).csr.visible = s.csr.visible := by
  obtain ⟨hm, hd, hs⟩ := h.csrOp hbelow
  have hex := h.no_exception hbelow hU hU'
  have hstep : (s.csr.dcsr.step && (retire s i).commitAck.ack0) = false := by
    have hmode := Csr.csrUpdate_debugMode s.csr i.platform (csrAccess s i) (retire s i)
      fun hv => Bool.noConfusion (hex.symm.trans hv)
    have hnone : (Csr.csrUpdate s.csr i.platform (csrAccess s i) (retire s i)).d.debugMode = false :=
      h.noDebugEntry
    rw [hnone, hbelow.debugMode, beq_false_of_ne hd] at hmode
    exact hmode.symm
  have heventless : Csr.Uneventful s.csr (csrAccess s i) (retire s i) :=
    ⟨hex, hstep, hm, fun hop => hs hop hU, hd⟩
  exact heventless.visible i.platform hset hbelow.debugMode (no_user_write hbelow hset hU hex)
    h.csrWriteFflags

end Cycle

/-! ## Runs -/

/-- Floating point is absent: its status field and that of other extensions stay off. -/
theorem run_fs_xs (ins : List Input) :
    (backend.run ins).csr.mstatus.fs = xsOff ∧ (backend.run ins).csr.mstatus.xs = xsOff := by
  induction ins using List.reverseRecOn with
  | nil => exact ⟨rfl, rfl⟩
  | append_singleton ins i ih =>
      rw [Machine.run_snoc]
      have hset := Csr.settled_csrNext i.platform (csrAccess (backend.run ins) i)
        (retire (backend.run ins) i) ih.1 ih.2
      exact ⟨hset.fs, hset.xs⟩

theorem settled_run {ins : List Input} (h : Csr.Below (backend.run ins).csr) :
    Csr.Settled (backend.run ins).csr := by
  induction ins using List.reverseRecOn with
  | nil => exact absurd h.lower (by decide)
  | append_singleton ins i _ =>
      rw [Machine.run_snoc]
      obtain ⟨hfs, hxs⟩ := run_fs_xs ins
      exact Csr.settled_csrNext i.platform _ _ hfs hxs

def StaysUser (s : State) (i : Input) : Prop :=
  s.csr.privLvl = privLvlU ∧ (backend.next s i).csr.privLvl = privLvlU

/-- A run below machine mode, of instructions decoded at the level they are executed at and
without traps to machine mode and entries into debug mode, leaves the state of the levels above
alone and stays below machine mode; while it stays at user level it changes no register at all. -/
theorem lower_privilege_confined (pre post : List Input)
    (hbelow : Csr.Below (backend.run pre).csr)
    (h : backend.ThroughoutFrom LowerCycle (backend.run pre) post) :
    (backend.run (pre ++ post)).csr.high = (backend.run pre).csr.high ∧
      Csr.Below (backend.run (pre ++ post)).csr ∧
      (backend.ThroughoutFrom StaysUser (backend.run pre) post →
        (backend.run (pre ++ post)).csr.visible = (backend.run pre).csr.visible) := by
  induction post generalizing pre with
  | nil =>
      rw [List.append_nil]
      exact ⟨rfl, hbelow, fun _ => rfl⟩
  | cons i post ih =>
      obtain ⟨hi, hpost⟩ := h
      have hset := settled_run hbelow
      obtain ⟨hhigh, hbelow'⟩ := hi.high hbelow hset
      have hrun : backend.next (backend.run pre) i = backend.run (pre ++ [i]) :=
        (backend.run_snoc pre i).symm
      rw [hrun] at hhigh hbelow' hpost
      obtain ⟨hhigh', hend, hvisible⟩ := ih (pre ++ [i]) hbelow' hpost
      rw [List.append_assoc, List.singleton_append] at hhigh' hend hvisible
      refine ⟨hhigh'.trans hhigh, hend, ?_⟩
      rintro ⟨⟨hU, hU'⟩, huser⟩
      have hstep := hi.visible hbelow hset hU hU'
      rw [hrun] at hstep huser
      exact (hvisible huser).trans hstep

/-- The cycle in which the word `w`, decoded in the context of `q`, is at port 0. -/
def wordCycle (q : Csr.Regs) (w : BitVec 32) (operand : XLen) : Input :=
  let e := Decoder.instructionO { (default : Decoder.Input) with
    instruction := w, privLvl := q.privLvlO, debugMode := q.debugMode
    tvm := q.mstatus.tvm, tw := q.mstatus.tw, tsr := q.mstatus.tsr }
  { (default : Input) with
    commitInstr.instr0 := { e with result := operand, valid := true }
    csrAddr := w.extractLsb' 20 12 }

theorem wordCycle_lower (s : State) (w : BitVec 32) (operand : XLen)
    (htrap : Csr.takesTrap s.csr (retire s (wordCycle s.csr w operand)) = false)
    (hdebug : (backend.next s (wordCycle s.csr w operand)).csr.debugMode = false) :
    LowerCycle s (wordCycle s.csr w operand) where
  port0 _ := ⟨_, rfl, rfl, rfl, rfl, rfl, rfl, rfl, id⟩
  port1 h := Bool.noConfusion h
  noMachineTrap h := Bool.noConfusion (htrap.symm.trans h)
  noDebugEntry := hdebug

/-- After reset: `mpp` is set to supervisor level and `MRET` enters it. -/
def toSupervisor : List Input :=
  [csrInput .CSR_WRITE 0x300 0x800, csrInput .MRET 0 0]

def wordCycles (s : State) (w w' : BitVec 32) (operand : XLen) : List Input :=
  let i := wordCycle s.csr w operand
  [i, wordCycle (backend.next s i).csr w' operand]

def toUser : List Input := wordCycles (backend.run toSupervisor) 0x14009073 0x10200073 5

/-- At user level an addition and a `FENCE.I` change no register that is visible there. -/
theorem lower_privilege_confined_sscratch :
    let s := backend.run toSupervisor
    let u := backend.run (toSupervisor ++ toUser)
    let user := wordCycles u 0x00508093 0x0000100f 7
    u.csr.sscratch = 5 ∧ u.csr.privLvl = privLvlU ∧ u.csr.high = s.csr.high ∧
      (backend.run (toSupervisor ++ toUser ++ user)).csr.visible = u.csr.visible := by
  intro s u user
  have hlower : backend.ThroughoutFrom LowerCycle s toUser :=
    ⟨wordCycle_lower _ _ _ (by decide +kernel) (by decide +kernel),
      wordCycle_lower _ _ _ (by decide +kernel) (by decide +kernel), trivial⟩
  have huser : backend.ThroughoutFrom LowerCycle u user :=
    ⟨wordCycle_lower _ _ _ (by decide +kernel) (by decide +kernel),
      wordCycle_lower _ _ _ (by decide +kernel) (by decide +kernel), trivial⟩
  have hstays : backend.ThroughoutFrom StaysUser u user :=
    ⟨⟨by decide +kernel, by decide +kernel⟩, ⟨by decide +kernel, by decide +kernel⟩, trivial⟩
  obtain ⟨hhigh, hbelow, -⟩ :=
    lower_privilege_confined toSupervisor toUser ⟨by decide, by decide⟩ hlower
  have hvisible := (lower_privilege_confined (toSupervisor ++ toUser) user hbelow huser).2.2 hstays
  exact ⟨by decide +kernel, by decide +kernel, hhigh, hvisible⟩

end Cva6.Backend
