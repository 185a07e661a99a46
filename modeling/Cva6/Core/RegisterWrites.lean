import Cva6.Core.Sequential
/-!
# Who writes the register file

The commit stage derives the write enables and the acknowledgements in different blocks, and only
some of the blocks that keep an instruction waiting clear its write enable. The core is run
together with the data that was written back for each slot: a write should be that of an
acknowledged instruction, with the value it was given.
-/

namespace Cva6.Core

open Cva6.Sync Cva6.Issue Cva6.Lsu

/-! ## What the units deliver -/

structure Watched where
  t : Tracked
  /-- What was last written back for a slot since it was issued. -/
  delivered : TransId → Option XLen

def deliver (q : Scoreboard.Regs) (n : TransId) (d : Option XLen) (p : Scoreboard.WbPort) :
    Option XLen :=
  if p.valid && p.transId == n && (q.mem n).issued then some p.data else d

def watched : Machine Watched Input where
  init := ⟨tracked.init, fun _ => none⟩
  next w i :=
    { t := tracked.next w.t i
      delivered := fun n =>
        if Scoreboard.issueEn w.t.hw.sb (sbIn w.t.hw i) && n == w.t.hw.sb.issuePointer then none
        else i.wb.foldl (deliver w.t.hw.sb n) (w.delivered n) }

section Writes

variable (w : Watched) (i : Input)

/-- The result of the instruction at port 0. A fence and a return have none. -/
def archResult0 : Option XLen :=
  if isAmo (port0 w.t.hw).op then some (i.amoResp.result.setWidth 32)
  else if (port0 w.t.hw).fu == .CSR then
    if Csr.isAccess (port0 w.t.hw).op then
      some (Backend.commitInput w.t.hw.be (backendIn w.t.hw i)).csrRdata
    else none
  else w.delivered (port0 w.t.hw).transId

/-- The register file is written by acknowledged instructions with their results, and an
acknowledged instruction is gone. -/
structure WritesAcked : Prop where
  port0 : (commitWrite w.t.hw i).weGpr0 = true → (commitWrite w.t.hw i).waddr0 ≠ 0 →
    ack0 w.t.hw i = true ∧ archResult0 w i = some (commitWrite w.t.hw i).wdata0
  port1 : (commitWrite w.t.hw i).weGpr1 = true → (commitWrite w.t.hw i).waddr1 ≠ 0 →
    ack1 w.t.hw i = true ∧
      w.delivered (port1 w.t.hw).transId = some (commitWrite w.t.hw i).wdata1
  waiting : ack0 w.t.hw i = false → ∀ r, r ≠ 0 →
    (core.next w.t.hw i).iro.regfile r = w.t.hw.iro.regfile r
  once : ∀ n, ackedSlot w.t i n = true →
    ((watched.next w i).t.hw.sb.mem n).issued = false ∧
      ((watched.next w i).t.hw.sb.mem n).sbe.valid = false

end Writes

/-- The instructions the decoder lets through with a destination they have no result for. -/
def namesInVain (op : FuOp) : Bool := op == .SFENCE_VMA || op == .DRET

theorem mayName_eq (op : FuOp) : Decoder.mayName op = (Csr.isAccess op || namesInVain op) := by
  cases op <;> rfl

/-- Such an instruction names a destination at port 0, and no violation stops it. -/
def VainWrite (s : State) (i : Input) : Prop :=
  Backend.retiring s.be (backendIn s i) = true ∧ (port0 s).fu = .CSR ∧
    namesInVain (port0 s).op = true ∧ rdOf (port0 s) ≠ 0 ∧ Backend.flag s.be = false

instance (s : State) (i : Input) : Decidable (VainWrite s i) :=
  inferInstanceAs (Decidable (_ ∧ _ ∧ _ ∧ _ ∧ _))

/-! ## The invariant -/

/-- The other CSR instructions without a result name register zero. -/
def CsrRd (e : ScoreboardEntry) : Prop :=
  e.fu = .CSR → e.ex.valid = false → Decoder.mayName e.op = false → rdOf e = 0

structure Watch (w : Watched) : Prop where
  ok : Scoreboard.Ok w.t.hw.sb
  ctrl : w.t.hw.be.ctrl = Controller.reset
  sound : ∀ n, (w.t.hw.sb.mem n).issued = true → Decoder.EntrySound (w.t.hw.sb.mem n).sbe
  csr_rd : ∀ n, (w.t.hw.sb.mem n).issued = true → CsrRd (w.t.hw.sb.mem n).sbe
  asked : w.t.record.amoAsked = true → (port0 w.t.hw).valid = true →
    isAmo (port0 w.t.hw).op = true
  delivered : ∀ n, (w.t.hw.sb.mem n).issued = true → (w.t.hw.sb.mem n).sbe.ex.valid = false →
    (w.t.hw.sb.mem n).sbe.valid = true → w.delivered n = some (w.t.hw.sb.mem n).sbe.result

theorem watch_init : Watch watched.init where
  ok := Scoreboard.reset_ok
  ctrl := rfl
  sound n hn := by cases hn
  csr_rd n hn := by cases hn
  asked h := by cases h
  delivered n hn := by cases hn

theorem foldl_deliver {q : Scoreboard.Regs} {j : Scoreboard.Input} {n : TransId}
    (wb : List Scoreboard.WbPort) {s : Scoreboard.Slot} {d : Option XLen}
    (h : s.sbe.valid = true → d = some s.sbe.result) :
    (wb.foldl (Scoreboard.writeBack q j n) s).sbe.valid = true →
      wb.foldl (deliver q n) d = some (wb.foldl (Scoreboard.writeBack q j n) s).sbe.result := by
  induction wb generalizing s d with
  | nil => exact h
  | cons p wb ih =>
      refine ih ?_
      unfold Scoreboard.writeBack deliver
      split
      · intro _
        rfl
      · exact h

section Step

variable {w : Watched} {i : Input}

theorem Watch.flushDcache (h : Watch w) : w.t.hw.be.ctrl.flushDcache = false := by
  rw [h.ctrl]
  rfl

/-- What is asked of the data cache is asked by the atomic at port 0, which stays there. -/
theorem Watch.asked_next (h : Watch w) (hf : (flushes w.t.hw i).flushEx = false)
    (hasked : (watched.next w i).t.record.amoAsked = true) :
    isAmo (port0 (watched.next w i).t.hw).op = true := by
  change (out w.t.hw i).amoValidCommit = true at hasked
  rw [out, Backend.out, Commit.commit_amoValidCommit, Bool.and_eq_true] at hasked
  have hret : Backend.retiring w.t.hw.be (backendIn w.t.hw i) = true := hasked.1
  have hamo : isAmo (port0 w.t.hw).op = true := hasked.2
  have hack : ack0 w.t.hw i = false := by
    by_contra hne
    have : (flushes w.t.hw i).flushEx = true :=
      Backend.flushEx_of_ack_barrier _ _ (Bool.not_eq_false _ ▸ hne) (.inl hamo)
    rw [hf] at this
    cases this
  have hissued := h.ok.valid_issued _ (port0_of_retiring hret).1
  show isAmo (port0 (tracked.next w.t i).hw).op = true
  rw [op_port0_staying h.ok hissued hf hack, hamo]

theorem Watch.delivered_next (h : Watch w) (hf : (flushes w.t.hw i).flushEx = false)
    {n : TransId} (hn : ((watched.next w i).t.hw.sb.mem n).issued = true)
    (hex : ((watched.next w i).t.hw.sb.mem n).sbe.ex.valid = false)
    (hv : ((watched.next w i).t.hw.sb.mem n).sbe.valid = true) :
    (watched.next w i).delivered n = some ((watched.next w i).t.hw.sb.mem n).sbe.result := by
  have hflush : (sbIn w.t.hw i).flush = false := by rw [flush_eq, hf]
  rcases slot_next h.ok hf hn with hs | hs
  · have hne : n ≠ w.t.hw.sb.issuePointer := by
      rintro rfl
      exact Bool.noConfusion (h.ok.issuePointer_free.symm.trans hs.issued)
    have hex' : (w.t.hw.sb.mem n).sbe.ex.valid = false := by
      by_contra hne
      exact Bool.noConfusion (hex.symm.trans (hs.ex (Bool.not_eq_false _ ▸ hne)))
    have hfu : (w.t.hw.sb.mem n).sbe.fu ≠ .NONE := by
      intro hnone
      exact Bool.noConfusion (hex'.symm.trans ((h.sound n hs.issued).none hnone))
    have hslot := slot_staying h.ok hs.issued hflush hs.acked
    rw [beq_false_of_ne hfu] at hslot
    change ((tracked.next w.t i).hw.sb.mem n).sbe.valid = true at hv
    show (if _ && n == w.t.hw.sb.issuePointer then _ else _) =
      some ((tracked.next w.t i).hw.sb.mem n).sbe.result
    rw [beq_false_of_ne hne, Bool.and_false, hslot]
    rw [hslot] at hv
    exact foldl_deliver i.wb (h.delivered n hs.issued hex') hv
  · -- what is issued is valid only with an exception
    have hnew : ((tracked.next w.t i).hw.sb.mem n).sbe.valid =
        ((tracked.next w.t i).hw.sb.mem n).sbe.ex.valid := by
      rw [hs.entry]
      rfl
    exact Bool.noConfusion (hex.symm.trans (hnew.symm.trans hv))

theorem Watch.csr_rd_next (h : Watch w) (hf : (flushes w.t.hw i).flushEx = false) (n : TransId)
    (hn : ((watched.next w i).t.hw.sb.mem n).issued = true) :
    CsrRd ((watched.next w i).t.hw.sb.mem n).sbe := by
  intro hfu hex hop
  rcases slot_next h.ok hf hn with hs | hs
  · change ((tracked.next w.t i).hw.sb.mem n).sbe.fu = .CSR at hfu
    change Decoder.mayName ((tracked.next w.t i).hw.sb.mem n).sbe.op = false at hop
    obtain ⟨⟨hfu', hop', -⟩, -⟩ := Scoreboard.decodedFields_eq hs.decoded
    refine hs.rdOf_eq.trans (h.csr_rd n hs.issued (hfu'.symm.trans hfu) ?_ (hop' ▸ hop))
    by_contra hne
    exact Bool.noConfusion (hex.symm.trans (hs.ex (Bool.not_eq_false _ ▸ hne)))
  · have hentry : ((watched.next w i).t.hw.sb.mem n).sbe = decodedInstr i := hs.entry
    rw [hentry] at hfu hex hop ⊢
    have hrd : (Decoder.instructionO i.fetch).rd = 0 := Decoder.instructionO_rd i.fetch hfu hex hop
    show (((Decoder.instructionO i.fetch).rd.setWidth 5).setWidth 6).setWidth 5 = 0
    rw [hrd]
    rfl

theorem Watch.next (h : Watch w) : Watch (watched.next w i) := by
  have hctrl : (watched.next w i).t.hw.be.ctrl = Controller.reset := by
    show Controller.next w.t.hw.be.ctrl = Controller.reset
    rw [h.ctrl]
    rfl
  have hok : Scoreboard.Ok (watched.next w i).t.hw.sb := h.ok.next (ackLegal w.t.hw i)
  cases hf : (flushes w.t.hw i).flushEx with
  | false =>
      exact ⟨hok, hctrl, sound_next h.ok h.sound hf, h.csr_rd_next hf,
        fun ha _ => h.asked_next hf ha, fun _ => h.delivered_next hf⟩
  | true =>
      have hnone (n : TransId) : ((watched.next w i).t.hw.sb.mem n).issued = false :=
        not_issued_of_flush hf n
      have hempty (n : TransId) : ((watched.next w i).t.hw.sb.mem n).issued ≠ true := by
        rw [hnone]
        exact Bool.false_ne_true
      exact ⟨hok, hctrl, fun n hn => absurd hn (hempty n), fun n hn => absurd hn (hempty n),
        fun _ hv => absurd (hok.valid_issued _ hv) (hempty _), fun n hn => absurd hn (hempty n)⟩

/-! ## One cycle -/

theorem isAmo_of_vain {op : FuOp} (hop : namesInVain op = true) :
    isAmo op = false ∧ Csr.isAccess op = false := by
  revert hop
  cases op <;> decide

theorem csrException_of_vain (hop : namesInVain (port0 w.t.hw).op = true) :
    (csrException w.t.hw i).valid = Backend.flag w.t.hw.be := by
  rw [Bool.eq_iff_iff]
  constructor
  · intro hex
    rcases Backend.csrException_cases w.t.hw.be (backendIn w.t.hw i) hex with hflag | ⟨-, -, hacc⟩
    · exact hflag
    · have hacc : Csr.isAccess (port0 w.t.hw).op = true := hacc
      exact Bool.noConfusion ((isAmo_of_vain hop).2.symm.trans hacc)
  · exact Backend.csrException_valid_of_flag _ _

theorem Watch.ack0_of_write (h : Watch w) (hwe : (commitWrite w.t.hw i).weGpr0 = true)
    (hrd : rdOf (port0 w.t.hw) ≠ 0)
    (hvain : ¬((port0 w.t.hw).fu = .CSR ∧ namesInVain (port0 w.t.hw).op = true)) :
    ack0 w.t.hw i = true := by
  have hret : Backend.retiring w.t.hw.be (backendIn w.t.hw i) = true := by
    rw [weGpr0_eq, Bool.and_eq_true] at hwe
    exact hwe.1
  have hs := sound_port h.ok h.sound (port0_of_retiring hret).1 rfl
  by_contra hack
  rw [Bool.not_eq_true] at hack
  have hop := (sfence_of_weGpr0 hs h.flushDcache hack hwe hrd).2.1
  refine hvain ⟨hs.fence ?_, ?_⟩
  · rw [hop]
    rfl
  · rw [hop]
    rfl

theorem Watch.delivered_port (h : Watch w) {n : TransId}
    (hv : (w.t.hw.sb.mem n).sbe.valid = true) (hex : (w.t.hw.sb.mem n).sbe.ex.valid = false) :
    w.delivered n = some (w.t.hw.sb.mem n).sbe.result :=
  h.delivered n (h.ok.valid_issued n hv) hex hv

theorem Watch.archResult0_eq (h : Watch w) (hack : ack0 w.t.hw i = true)
    (hrd : rdOf (port0 w.t.hw) ≠ 0)
    (hvain : ¬((port0 w.t.hw).fu = .CSR ∧ namesInVain (port0 w.t.hw).op = true)) :
    archResult0 w i = some (result0 w.t.hw i) := by
  obtain ⟨hv, hex⟩ := port0_of_retiring (retiring_of_ack0 hack)
  have haccess (hfu : (port0 w.t.hw).fu = .CSR) : Csr.isAccess (port0 w.t.hw).op = true := by
    by_contra hacc
    refine hrd (h.csr_rd _ (h.ok.valid_issued _ hv) hfu hex ?_)
    show Decoder.mayName (port0 w.t.hw).op = false
    rw [mayName_eq, Bool.or_eq_false_iff]
    exact ⟨Bool.not_eq_true _ ▸ hacc, Bool.not_eq_true _ ▸ fun hop => hvain ⟨hfu, hop⟩⟩
  unfold archResult0 result0
  by_cases hamo : isAmo (port0 w.t.hw).op = true
  · rw [if_pos hamo, if_pos hamo]
  rw [if_neg hamo, if_neg hamo]
  by_cases hfu : (port0 w.t.hw).fu = .CSR
  · have hcsr : ((port0 w.t.hw).fu == .CSR) = true := beq_iff_eq.mpr hfu
    rw [if_pos hcsr, if_pos hcsr, if_pos (haccess hfu)]
  · have hcsr : ((port0 w.t.hw).fu == .CSR) = false := beq_false_of_ne hfu
    rw [hcsr, if_neg Bool.false_ne_true, if_neg Bool.false_ne_true]
    exact h.delivered_port hv hex

theorem Watch.wdata0_eq (h : Watch w) (hamo : AmoContract w.t i)
    (hwe : (commitWrite w.t.hw i).weGpr0 = true) (hrd : rdOf (port0 w.t.hw) ≠ 0)
    (hack : ack0 w.t.hw i = true) : (commitWrite w.t.hw i).wdata0 = result0 w.t.hw i := by
  have hv := (port0_of_retiring (retiring_of_ack0 hack)).1
  have hresp : i.amoResp.ack = true → isAmo (port0 w.t.hw).op = true :=
    fun ha => h.asked (hamo ha) hv
  have hwrite := write0_of_ack0 (sound_port h.ok h.sound hv rfl) h.flushDcache hresp hack
  have haddr : (commitWrite w.t.hw i).waddr0 = rdOf (port0 w.t.hw) := rfl
  have hcond : ((commitWrite w.t.hw i).weGpr0 && (commitWrite w.t.hw i).waddr0 != 0) = true := by
    rw [hwe, haddr, Bool.true_and, bne_iff_ne]
    exact hrd
  rw [if_pos hcond, write0, Option.ite_none_right_eq_some] at hwrite
  exact (congrArg Prod.snd (Option.some.inj hwrite.2)).symm

/-- While the instruction at port 0 waits, the registers stay. -/
theorem regfile_of_waiting (hwe : (commitWrite w.t.hw i).weGpr0 = true →
      (commitWrite w.t.hw i).waddr0 = 0)
    (hack : ack0 w.t.hw i = false) {r : BitVec 5} (hr : r ≠ 0) :
    (core.next w.t.hw i).iro.regfile r = w.t.hw.iro.regfile r := by
  have h1 : (commitWrite w.t.hw i).weGpr1 = false :=
    (Commit.commit_weGpr1 _).trans (ack1_of_not_ack0 hack)
  have h0 : ((commitWrite w.t.hw i).weGpr0 && (commitWrite w.t.hw i).waddr0 == r) = false := by
    rw [Bool.and_eq_false_iff, beq_eq_false_iff_ne]
    by_cases h : (commitWrite w.t.hw i).weGpr0 = true
    · right
      rw [hwe h]
      exact hr.symm
    · exact .inl (Bool.not_eq_true _ ▸ h)
  show ReadOperands.regfileNext w.t.hw.iro.regfile (commitWrite w.t.hw i) r = _
  rw [ReadOperands.regfileNext, if_neg hr, h1, h0]
  rfl

theorem Watch.acked_gone (h : Watch w) {n : TransId} (hn : ackedSlot w.t i n = true) :
    ((watched.next w i).t.hw.sb.mem n).issued = false ∧
      ((watched.next w i).t.hw.sb.mem n).sbe.valid = false := by
  have hissued : ((watched.next w i).t.hw.sb.mem n).issued = false := by
    cases hf : (sbIn w.t.hw i).flush with
    | true => exact (Scoreboard.issueFifo_flush n hf).1
    | false =>
        refine (Scoreboard.issueFifo_issued n hf).trans ?_
        rw [show Scoreboard.ackedSlot w.t.hw.sb (sbIn w.t.hw i) n = true from hn, Bool.not_true,
          Bool.and_false]
  refine ⟨hissued, ?_⟩
  by_contra hv
  have hok : Scoreboard.Ok (watched.next w i).t.hw.sb := h.ok.next (ackLegal w.t.hw i)
  rw [hok.valid_issued n (Bool.not_eq_false _ ▸ hv)] at hissued
  cases hissued

theorem Watch.writesAcked_iff (h : Watch w) (hamo : AmoContract w.t i) :
    WritesAcked w i ↔ ¬VainWrite w.t.hw i := by
  have haddr : (commitWrite w.t.hw i).waddr0 = rdOf (port0 w.t.hw) := rfl
  constructor
  · rintro hw ⟨hret, hfu, hop, hrd, hflag⟩
    -- the instruction has its write enable, but no result
    obtain ⟨hnotAmo, hacc⟩ := isAmo_of_vain hop
    have hwe : (commitWrite w.t.hw i).weGpr0 = true := by
      rw [weGpr0_eq, hret, csrException_of_vain hop, hflag, hnotAmo, Bool.and_false]
      rfl
    have hnone : archResult0 w i = none := by
      unfold archResult0
      rw [hnotAmo, hfu, hacc]
      rfl
    have hres := (hw.port0 hwe hrd).2
    rw [hnone] at hres
    cases hres
  · intro hno
    have hvain (hwe : (commitWrite w.t.hw i).weGpr0 = true) (hrd : rdOf (port0 w.t.hw) ≠ 0) :
        ¬((port0 w.t.hw).fu = .CSR ∧ namesInVain (port0 w.t.hw).op = true) := by
      rintro ⟨hfu, hop⟩
      rw [weGpr0_eq, Bool.and_eq_true, (isAmo_of_vain hop).1, hfu, csrException_of_vain hop] at hwe
      obtain ⟨hret, hwe⟩ := hwe
      refine hno ⟨hret, hfu, hop, hrd, ?_⟩
      simpa using hwe
    refine ⟨?_, ?_, ?_, fun _ => h.acked_gone⟩
    · intro hwe hrd
      have hack := h.ack0_of_write hwe hrd (hvain hwe hrd)
      refine ⟨hack, ?_⟩
      rw [h.archResult0_eq hack hrd (hvain hwe hrd), h.wdata0_eq hamo hwe hrd hack]
    · intro hwe _
      have hack : ack1 w.t.hw i = true := (Commit.commit_weGpr1 _).symm.trans hwe
      obtain ⟨-, hv, hex, -⟩ := of_ack1 hack
      refine ⟨hack, (h.delivered_port hv hex).trans ?_⟩
      have hdata : (commitWrite w.t.hw i).wdata1 = (port1 w.t.hw).result := Commit.commit_wdata1 _
      rw [hdata]
      rfl
    · intro hack r hr
      refine regfile_of_waiting ?_ hack hr
      intro hwe
      by_contra hrd
      rw [h.ack0_of_write hwe hrd (hvain hwe hrd)] at hack
      cases hack

end Step

/-! ## Runs -/

/-- Every register write of a run is that of an acknowledged instruction, with its result,
exactly when no `SFENCE.VMA` and no `DRET` with a destination comes to retire. -/
theorem writes_acked_iff (ins : List Input)
    (hamo : watched.Throughout (fun w i => AmoContract w.t i) ins) :
    watched.Throughout WritesAcked ins ↔
      watched.Throughout (fun w i => ¬VainWrite w.t.hw i) ins := by
  have hcycle : ∀ pre i post, ins = pre ++ i :: post →
      (WritesAcked (watched.run pre) i ↔ ¬VainWrite (watched.run pre).t.hw i) := by
    intro pre i post hp
    have hwatch : Watch (watched.run pre) := by
      induction pre using List.reverseRecOn generalizing i post with
      | nil => exact watch_init
      | append_singleton pre j ih =>
          rw [Machine.run_snoc]
          exact (ih j (i :: post) (by simp [hp])).next
    exact hwatch.writesAcked_iff (hamo pre i post hp)
  constructor
  · intro h pre i post hp
    exact (hcycle pre i post hp).mp (h pre i post hp)
  · intro h pre i post hp
    exact (hcycle pre i post hp).mpr (h pre i post hp)

theorem writes_acked_forwardRun :
    watched.Throughout (fun w i => AmoContract w.t i) forwardRun ∧
      watched.Throughout WritesAcked forwardRun := by
  have hamo : watched.Throughout (fun w i => AmoContract w.t i) forwardRun := by decide +kernel
  exact ⟨hamo, (writes_acked_iff forwardRun hamo).mpr (by decide +kernel)⟩

/-- `sfence.vma` with destination `x5` has been issued and waits for stores. -/
def fenceWaits : List Input := [.offer 0x120002f3, Input.quiet.written 0 0]

/-- The waiting fence writes `x5`, without an acknowledgement. -/
theorem waiting_fence_writes :
    watched.Throughout (fun w i => AmoContract w.t i) (fenceWaits ++ [.quiet]) ∧
      ¬watched.Throughout WritesAcked (fenceWaits ++ [.quiet]) := by
  refine ⟨by decide +kernel, ?_⟩
  intro h
  have hport := (h fenceWaits .quiet [] rfl).port0
  have hack : ack0 (watched.run fenceWaits).t.hw .quiet = false := by decide +kernel
  rw [(hport (by decide +kernel) (by decide +kernel)).1] at hack
  cases hack

end Cva6.Core
