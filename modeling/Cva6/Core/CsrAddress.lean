import Cva6.Core.Sequential
import Cva6.Ex.FixedLatency
/-!
# The address of a CSR instruction

The core with the buffer for CSR addresses (`csr_buffer.sv`). All instructions of the CSR unit
share its one register, fences and returns among them, which have no address. The buffer
stalls the issue of a second one, except behind a fence that waits at port 0: what is accepted
then is flushed with everything that it replaces.
-/

namespace Cva6.Decoder

/-! ## The immediate of a CSR access -/

def TakesImm (d : Decoded) : Prop :=
  d.fu = .CSR → Csr.isAccess d.op = true → d.immSelect = .IIMM

theorem TakesImm.of_fu {d : Decoded} {u : Fu} (hfu : d.fu = u) (hu : u ≠ .CSR) : TakesImm d :=
  fun h => absurd (hfu.symm.trans h) hu

theorem TakesImm.of_op {d : Decoded} (hop : Csr.isAccess d.op = false) : TakesImm d :=
  fun _ h => Bool.noConfusion (hop.symm.trans h)

theorem decodePrivileged_takesImm (i : Input) {d : Decoded} (hop : d.op = .ADD) :
    TakesImm (decodePrivileged i d) := by
  refine TakesImm.of_op ?_
  unfold decodePrivileged
  simp only [apply_ite Decoded.op, apply_ite Csr.isAccess, hop]
  simp [Csr.isAccess]

theorem decodeSystem_takesImm (i : Input) : TakesImm (decodeSystem i) := by
  unfold decodeSystem
  split
  · exact decodePrivileged_takesImm i rfl
  · exact fun _ _ => rfl
  · exact fun _ _ => rfl
  · exact fun _ _ => rfl
  · exact fun _ _ => rfl
  · exact fun _ _ => rfl
  · exact fun _ _ => rfl
  · exact TakesImm.of_op rfl

theorem decodeMiscMem_takesImm (w : BitVec 32) : TakesImm (decodeMiscMem w) := by
  refine TakesImm.of_op ?_
  unfold decodeMiscMem decodeFence
  split <;> simp only [apply_ite Decoded.op, ite_self] <;> rfl

theorem decoder_takesImm (i : Input) : TakesImm (decoder i) := by
  unfold decoder
  split
  · exact .of_fu (u := .NONE) rfl (by decide)
  split
  · exact decodeSystem_takesImm i
  · exact decodeMiscMem_takesImm _
  · rcases decodeOp_fu i.instruction with h | h
    · exact .of_fu h (by decide)
    · exact .of_fu h (opUnit_not_serial _).1
  · exact .of_fu rfl (opUnit_not_serial i.instruction).1
  · exact .of_fu (decodeOpImm_fu _) (by decide)
  · exact .of_fu (u := .ALU) rfl (by decide)
  · exact .of_fu (decodeStore_fu _) (by decide)
  · exact .of_fu (decodeLoad_fu _) (by decide)
  · exact .of_fu (decodeAmo_fu _) (by decide)
  · exact .of_fu (decodeBranch_fu _) (by decide)
  · exact .of_fu (decodeJalr_spec _).1 (by decide)
  · exact .of_fu (u := .CTRL_FLOW) rfl (by decide)
  · exact .of_fu (u := .ALU) rfl (by decide)
  · exact .of_fu (u := .ALU) rfl (by decide)
  · exact .of_fu (u := .NONE) rfl (by decide)

theorem address_of_access (i : Input) (hfu : (instructionO i).fu = .CSR)
    (hop : Csr.isAccess (instructionO i).op = true) :
    (instructionO i).useImm = true ∧
      (instructionO i).result.extractLsb' 0 12 = immI i.instruction := by
  have himm : (decoder i).immSelect = .IIMM := decoder_takesImm i hfu hop
  constructor
  · show ((decoder i).immSelect != .NOIMM) = true
    rw [himm]
    rfl
  · show (signExtend i.instruction (decoder i).immSelect).extractLsb' 0 12 = _
    rw [himm]
    show ((immI i.instruction).signExtend 32).extractLsb' 0 12 = immI i.instruction
    ext k hk
    simp only [BitVec.getElem_extractLsb', Nat.zero_add, BitVec.getLsbD_signExtend]
    simp [show k < 32 by omega, hk]

end Cva6.Decoder

namespace Cva6.Core

open Cva6.Sync Cva6.Issue Cva6.Lsu

/-! ## The buffer in the core -/

structure Buffered where
  t : Tracked
  csr : Ex.CsrBuffer
  /-- What the decoder saw of the instruction in a slot. -/
  src : TransId → Decoder.Input

variable (x : Buffered) (i : Input)

/-- `csr_addr_o` of the buffer is the address of the CSR file. -/
def addressed : Input := { i with csrAddr := x.csr.csrAddress }

def csrCommit : Bool := (out x.t.hw (addressed x i)).commitCsr

/-- The units take an instruction when the buffer does and, by the input, the multiplier. -/
def driven : Input :=
  { addressed x i with fluReady := x.csr.ready x.t.hw.iro.csrValid (csrCommit x i) && i.fluReady }

def buffered : Machine Buffered Input where
  init := ⟨tracked.init, ⟨0, false⟩, fun _ => default⟩
  next x i :=
    { t := tracked.next x.t (driven x i)
      csr := x.csr.next x.t.hw.iro.csrValid (csrCommit x i) x.t.hw.iro.operandB
        (flushes x.t.hw (driven x i)).flushEx
      src := sources x.t (driven x i) x.src }

def address (n : TransId) : BitVec 12 := Decoder.immI (x.src n).instruction

/-- The commit stage acknowledges a CSR access at port 0 or traps on `csr_exception_i`. -/
def Accesses : Prop :=
  Backend.retiring x.t.hw.be (backendIn x.t.hw (driven x i)) = true ∧
    (port0 x.t.hw).fu = .CSR ∧ Csr.isAccess (port0 x.t.hw).op = true

instance : Decidable (Accesses x i) := inferInstanceAs (Decidable (_ ∧ _ ∧ _))

/-- The inputs do not flush the instruction of a slot and it is not acknowledged. -/
def Keeps (n : TransId) : Buffered → List Input → Prop
  | _, [] => True
  | x, i :: ins =>
      (flushes x.t.hw (driven x i)).flushEx = false ∧ ackedSlot x.t (driven x i) n = false ∧
        Keeps n (buffered.next x i) ins

/-- The address of the instruction in a slot is still needed: in some continuation, that
instruction is an access which the commit stage performs. -/
def Needed (n : TransId) : Prop :=
  (x.t.hw.sb.mem n).issued = true ∧
    ∃ ins i, Keeps n x ins ∧ (buffered.runFrom x ins).t.hw.sb.commitPointer0 = n ∧
      Accesses (buffered.runFrom x ins) i

/-! ## Who holds the buffer -/

/-- The oldest instruction in flight is a fence: everything behind it will be flushed. -/
def Guarded (t : Tracked) : Prop :=
  (t.hw.sb.mem t.hw.sb.commitPointer0).issued = true ∧ isFence (port0 t.hw).op = true

/-- An instruction of the CSR unit that the decoder has let through is in flight. -/
def Pending (n : TransId) : Prop :=
  (x.t.hw.sb.mem n).issued = true ∧ (Decoder.instructionO (x.src n)).fu = .CSR ∧
    (Decoder.instructionO (x.src n)).ex.valid = false

def Names (n : TransId) (a : BitVec 12) : Prop :=
  Csr.isAccess (Decoder.instructionO (x.src n)).op = true → a = address x n

/-- One instruction has the buffer: it is about to enter it, or it is there. -/
structure Single : Prop where
  one : ∀ n n', Pending x n → Pending x n' → n = n'
  asked : x.t.hw.iro.csrValid = true →
    Pending x x.t.hw.iro.transId ∧ (x.t.hw.sb.mem x.t.hw.iro.transId).sbe.valid = false ∧
      Names x x.t.hw.iro.transId (x.t.hw.iro.operandB.extractLsb' 0 12)
  held : ∀ n, Pending x n →
    x.t.hw.iro.csrValid = true ∨ (x.csr.valid = true ∧ Names x n x.csr.csrAddress)

structure Owned : Prop extends Decodes x.t x.src where
  ok : Scoreboard.Ok x.t.hw.sb
  ctrl : x.t.hw.be.ctrl = Controller.reset
  sound : ∀ n, (x.t.hw.sb.mem n).issued = true → Decoder.EntrySound (x.t.hw.sb.mem n).sbe
  single : ¬Guarded x.t → Single x

theorem owned_init : Owned buffered.init where
  toDecodes := decodes_init _
  ok := Scoreboard.reset_ok
  ctrl := rfl
  sound n hn := by cases hn
  single _ := ⟨fun _ _ h => Bool.noConfusion h.1, fun h => Bool.noConfusion h,
    fun _ h => Bool.noConfusion h.1⟩

section Step

variable {x i} {n : TransId}

/-! ## The instruction at port 0 -/

theorem Owned.fu_op (h : Owned x) (hn : (x.t.hw.sb.mem n).issued = true) :
    (x.t.hw.sb.mem n).sbe.fu = (Decoder.instructionO (x.src n)).fu ∧
      (x.t.hw.sb.mem n).sbe.op = (Decoder.instructionO (x.src n)).op := by
  obtain ⟨⟨hfu, hop, -⟩, -⟩ := Scoreboard.decodedFields_eq (h.decoded n hn)
  exact ⟨hfu, hop⟩

theorem Owned.pending_port0 (h : Owned x)
    (hret : Backend.retiring x.t.hw.be (backendIn x.t.hw (driven x i)) = true)
    (hfu : (port0 x.t.hw).fu = .CSR) : Pending x x.t.hw.sb.commitPointer0 := by
  obtain ⟨hv, hex⟩ := port0_of_retiring hret
  have hissued := h.ok.valid_issued _ hv
  refine ⟨hissued, (h.fu_op hissued).1.symm.trans hfu, ?_⟩
  by_contra hne
  exact Bool.noConfusion (hex.symm.trans (h.excepted _ hissued (Bool.not_eq_false _ ▸ hne)))

/-- The instruction that frees the buffer is acknowledged, unless it is a fence. -/
theorem Owned.acked_of_csrCommit (h : Owned x) (hg : ¬Guarded x.t) (hc : csrCommit x i = true) :
    Pending x x.t.hw.sb.commitPointer0 ∧
      ackedSlot x.t (driven x i) x.t.hw.sb.commitPointer0 = true := by
  have hc : (Commit.commit (Backend.commitInput x.t.hw.be (backendIn x.t.hw (driven x i)))).commitCsr =
    true := hc
  rw [Commit.commit_commitCsr, Bool.and_eq_true, Bool.and_eq_true] at hc
  obtain ⟨⟨hret, hfu⟩, hexc⟩ := hc
  have hret : Backend.retiring x.t.hw.be (backendIn x.t.hw (driven x i)) = true := hret
  have hfu : (port0 x.t.hw).fu = .CSR := beq_iff_eq.mp hfu
  have hexc : (!(csrException x.t.hw (driven x i)).valid) = true := hexc
  have hpending := h.pending_port0 hret hfu
  refine ⟨hpending, ?_⟩
  have hamo : isAmo (port0 x.t.hw).op = false := by
    by_contra hne
    have hstore : (port0 x.t.hw).fu = .STORE :=
      (h.sound _ hpending.1).amo (Bool.not_eq_false _ ▸ hne)
    rw [hfu] at hstore
    cases hstore
  have hfence : isFence (port0 x.t.hw).op = false := by
    by_contra hne
    exact hg ⟨hpending.1, Bool.not_eq_false _ ▸ hne⟩
  have hack : ack0 x.t.hw (driven x i) = true := by
    rw [ack0_eq (by rw [h.ctrl]; rfl), hret, hamo, hfence, hfu]
    exact hexc
  show ((ack0 x.t.hw (driven x i) && _) || _) = true
  rw [hack, beq_self_eq_true]
  rfl

/-- A fence at port 0 stays there until everything is flushed. -/
theorem Guarded.next (hok : Scoreboard.Ok x.t.hw.sb) (hg : Guarded x.t)
    (hf : (flushes x.t.hw (driven x i)).flushEx = false) : Guarded (buffered.next x i).t := by
  have hack : ack0 x.t.hw (driven x i) = false := by
    by_contra hne
    have hclean := not_poison_of_ack0 (Bool.not_eq_false _ ▸ hne) hf
    rw [poison, hg.2, Bool.or_true] at hclean
    cases hclean
  obtain ⟨hcp, hslot⟩ := pointer_staying hf hack
  constructor
  · show ((tracked.next x.t (driven x i)).hw.sb.mem
      (tracked.next x.t (driven x i)).hw.sb.commitPointer0).issued = true
    rw [hcp]
    show (Scoreboard.issueFifo x.t.hw.sb (sbIn x.t.hw (driven x i)) _).issued = true
    rw [Scoreboard.issueFifo_issued _ (by rw [flush_eq, hf]), hslot, hg.1, Bool.or_true]
    rfl
  · show isFence (port0 (tracked.next x.t (driven x i)).hw).op = true
    rw [op_port0_staying hok hg.1 hf hack]
    exact hg.2

/-! ## One cycle -/

theorem Stays.pending (hs : Stays x.t (driven x i) n) (hok : Scoreboard.Ok x.t.hw.sb)
    (hp : Pending (buffered.next x i) n) : Pending x n := by
  obtain ⟨-, hfu, hex⟩ := hp
  have hsrc : (buffered.next x i).src n = x.src n := hs.sources hok
  rw [hsrc] at hfu hex
  exact ⟨hs.issued, hfu, hex⟩

theorem Stays.names (hs : Stays x.t (driven x i) n) (hok : Scoreboard.Ok x.t.hw.sb)
    {a : BitVec 12} (h : Names x n a) : Names (buffered.next x i) n a := by
  have hsrc : (buffered.next x i).src n = x.src n := hs.sources hok
  unfold Names address
  rw [hsrc]
  exact h

theorem Fresh.enters (hs : Fresh x.t (driven x i) n) (hp : Pending (buffered.next x i) n) :
    x.csr.ready x.t.hw.iro.csrValid (csrCommit x i) = true ∧
      (buffered.next x i).t.hw.iro.csrValid = true ∧
      (buffered.next x i).t.hw.iro.transId = n ∧
      ((buffered.next x i).t.hw.sb.mem n).sbe.valid = false ∧
      Names (buffered.next x i) n
        ((buffered.next x i).t.hw.iro.operandB.extractLsb' 0 12) := by
  obtain ⟨-, hfu, hex⟩ := hp
  have hsrc : (buffered.next x i).src n = i.fetch := hs.sources
  rw [hsrc] at hfu hex
  have hen := hs.issueEn
  have hbusy := (checks_of_issueEn hen hex).2.1
  simp only [Scoreboard.issueEn, Scoreboard.decodedInstrAck, Bool.and_eq_true,
    Bool.not_eq_true'] at hen
  obtain ⟨⟨hvalid, hack, hfull⟩, hflush⟩ := hen
  have hfu' : (iroIn x.t.hw (driven x i)).issueInstr.fu = .CSR := hfu
  refine ⟨?_, ?_, hs.pointer.symm, ?_, ?_⟩
  · rw [ReadOperands.fuBusy, hfu'] at hbusy
    have hready : (x.csr.ready x.t.hw.iro.csrValid (csrCommit x i) && i.fluReady) = true := by
      rw [← Bool.not_eq_false']
      exact hbusy
    rw [Bool.and_eq_true] at hready
    exact hready.1
  · show (!(decodedInstr (driven x i)).ex.valid &&
      (i.decodedInstrValid && !Scoreboard.issueFull x.t.hw.sb) &&
      ReadOperands.issueAck x.t.hw.iro (iroIn x.t.hw (driven x i)) &&
      !(flushes x.t.hw (driven x i)).flushUnissuedInstr &&
      (decodedInstr (driven x i)).fu == .CSR) = true
    have hvalid : i.decodedInstrValid = true := hvalid
    have hack : ReadOperands.issueAck x.t.hw.iro (iroIn x.t.hw (driven x i)) = true := hack
    have hflush : (flushes x.t.hw (driven x i)).flushUnissuedInstr = false := hflush
    have hex' : (decodedInstr (driven x i)).ex.valid = false := hex
    have hfu' : (decodedInstr (driven x i)).fu = .CSR := hfu
    rw [hfu', hex', hvalid, hfull, hack, hflush]
    rfl
  · have hentry : ((buffered.next x i).t.hw.sb.mem n).sbe = decodedInstr (driven x i) := hs.entry
    rw [hentry]
    exact hex
  · intro hop
    rw [hsrc] at hop
    obtain ⟨himm, haddr⟩ := Decoder.address_of_access i.fetch hfu hop
    have hoperand : (buffered.next x i).t.hw.iro.operandB = (Decoder.instructionO i.fetch).result := by
      have himm' : (iroIn x.t.hw (driven x i)).issueInstr.useImm = true := himm
      show ReadOperands.operandB x.t.hw.iro (iroIn x.t.hw (driven x i)) = _
      rw [ReadOperands.operandB, himm', hfu']
      rfl
    rw [hoperand, haddr, address, hsrc]

/-- While an instruction of the CSR unit stays in flight, the buffer takes no second one. -/
theorem Single.stalls (hu : Single x) (h : Owned x) (hg : ¬Guarded x.t)
    (hs : Stays x.t (driven x i) n) (hp : Pending x n) :
    csrCommit x i = false ∧ x.csr.ready x.t.hw.iro.csrValid (csrCommit x i) = false := by
  have hcommit : csrCommit x i = false := by
    by_contra hne
    obtain ⟨hport, hack⟩ := h.acked_of_csrCommit hg (Bool.not_eq_false _ ▸ hne)
    rw [hu.one _ _ hport hp, hs.acked] at hack
    cases hack
  refine ⟨hcommit, ?_⟩
  rw [hcommit]
  rcases hu.held n hp with hv | ⟨hv, -⟩
  · simp [Ex.CsrBuffer.ready, hv]
  · simp [Ex.CsrBuffer.ready, hv]

theorem Single.one_next (hu : Single x) (h : Owned x) (hg : ¬Guarded x.t)
    (hf : (flushes x.t.hw (driven x i)).flushEx = false) (n n' : TransId)
    (hp : Pending (buffered.next x i) n) (hp' : Pending (buffered.next x i) n') : n = n' := by
  have hmixed {m m' : TransId} (hs : Stays x.t (driven x i) m)
      (hm : Pending (buffered.next x i) m) (hs' : Fresh x.t (driven x i) m')
      (hm' : Pending (buffered.next x i) m') : False := by
    have hready := (hu.stalls h hg hs (hs.pending h.ok hm)).2
    rw [(hs'.enters hm').1] at hready
    cases hready
  rcases slot_next h.ok hf hp.1 with hs | hs <;> rcases slot_next h.ok hf hp'.1 with hs' | hs'
  · exact hu.one _ _ (hs.pending h.ok hp) (hs'.pending h.ok hp')
  · exact (hmixed hs hp hs' hp').elim
  · exact (hmixed hs' hp' hs hp).elim
  · rw [hs.pointer, hs'.pointer]

theorem Single.held_staying (hu : Single x) (h : Owned x) (hg : ¬Guarded x.t)
    (hf : (flushes x.t.hw (driven x i)).flushEx = false) (hs : Stays x.t (driven x i) n)
    (hp : Pending x n) :
    (buffered.next x i).csr.valid = true ∧
      Names (buffered.next x i) n (buffered.next x i).csr.csrAddress := by
  have hcommit := (hu.stalls h hg hs hp).1
  have hcsr : (buffered.next x i).csr =
      x.csr.next x.t.hw.iro.csrValid false x.t.hw.iro.operandB false :=
    congrArg₂ (fun c f => x.csr.next x.t.hw.iro.csrValid c x.t.hw.iro.operandB f) hcommit hf
  rw [hcsr]
  cases hv : x.t.hw.iro.csrValid with
  | true =>
      obtain ⟨hasked, -, hname⟩ := hu.asked hv
      rw [hu.one _ _ hasked hp] at hname
      exact ⟨rfl, hs.names h.ok hname⟩
  | false =>
      rcases hu.held n hp with hv' | ⟨hvalid, hname⟩
      · exact Bool.noConfusion (hv.symm.trans hv')
      · exact ⟨hvalid, hs.names h.ok hname⟩

theorem of_csrValid_next (hok : Scoreboard.Ok x.t.hw.sb)
    (hv : (buffered.next x i).t.hw.iro.csrValid = true) :
    (flushes x.t.hw (driven x i)).flushEx = false ∧
      Fresh x.t (driven x i) (buffered.next x i).t.hw.iro.transId ∧
      Pending (buffered.next x i) (buffered.next x i).t.hw.iro.transId := by
  have hv : (!(decodedInstr (driven x i)).ex.valid &&
      (i.decodedInstrValid && !Scoreboard.issueFull x.t.hw.sb) &&
      ReadOperands.issueAck x.t.hw.iro (iroIn x.t.hw (driven x i)) &&
      !(flushes x.t.hw (driven x i)).flushUnissuedInstr &&
      (decodedInstr (driven x i)).fu == .CSR) = true := hv
  simp only [Bool.and_eq_true, Bool.not_eq_true', beq_iff_eq] at hv
  obtain ⟨⟨⟨⟨hex, hvalid, hfull⟩, hack⟩, hflush⟩, hfu⟩ := hv
  have hf : (flushes x.t.hw (driven x i)).flushEx = false := by
    by_contra hne
    have hall : (flushes x.t.hw (driven x i)).flushUnissuedInstr = true :=
      Controller.flushUnissuedInstr_of_flushEx _ (Bool.not_eq_false _ ▸ hne)
    rw [hflush] at hall
    cases hall
  have hen : Scoreboard.issueEn x.t.hw.sb (sbIn x.t.hw (driven x i)) = true := by
    show (i.decodedInstrValid &&
      (ReadOperands.issueAck x.t.hw.iro (iroIn x.t.hw (driven x i)) &&
        !Scoreboard.issueFull x.t.hw.sb) &&
      !(flushes x.t.hw (driven x i)).flushUnissuedInstr) = true
    rw [hvalid, hack, hfull, hflush]
    rfl
  have hfresh : Fresh x.t (driven x i) x.t.hw.sb.issuePointer := fresh_of_issueEn hok hf hen
  refine ⟨hf, hfresh, ?_, ?_, ?_⟩
  · have hslot : (tracked.next x.t (driven x i)).hw.sb.mem x.t.hw.sb.issuePointer = _ :=
      hok.issueFifo_new (ackLegal x.t.hw (driven x i)) (by rw [flush_eq, hf]) hen
    exact congrArg Scoreboard.Slot.issued hslot
  · exact (congrArg (fun w => (Decoder.instructionO w).fu) hfresh.sources).trans hfu
  · exact (congrArg (fun w => (Decoder.instructionO w).ex.valid) hfresh.sources).trans hex

theorem Single.next (hu : Single x) (h : Owned x) (hg : ¬Guarded x.t)
    (hf : (flushes x.t.hw (driven x i)).flushEx = false) : Single (buffered.next x i) := by
  refine ⟨hu.one_next h hg hf, ?_, ?_⟩
  · intro hv
    obtain ⟨-, hfresh, hpending⟩ := of_csrValid_next h.ok hv
    obtain ⟨-, -, -, hslot, hname⟩ := hfresh.enters hpending
    exact ⟨hpending, hslot, hname⟩
  · intro n hp
    rcases slot_next h.ok hf hp.1 with hs | hs
    · exact .inr (hu.held_staying h hg hf hs (hs.pending h.ok hp))
    · exact .inl (hs.enters hp).2.1

theorem single_of_flush (hok : Scoreboard.Ok x.t.hw.sb)
    (hf : (flushes x.t.hw (driven x i)).flushEx = true) : Single (buffered.next x i) := by
  have hempty (n : TransId) : ¬Pending (buffered.next x i) n := by
    intro hp
    exact Bool.noConfusion ((not_issued_of_flush hf n).symm.trans hp.1)
  refine ⟨fun n _ hp => absurd hp (hempty n), ?_, fun n hp => absurd hp (hempty n)⟩
  intro hv
  rw [(of_csrValid_next hok hv).1] at hf
  cases hf

theorem Owned.next (h : Owned x) : Owned (buffered.next x i) := by
  have hdec : Decodes (buffered.next x i).t (buffered.next x i).src := h.toDecodes.next h.ok
  have hok : Scoreboard.Ok (buffered.next x i).t.hw.sb := h.ok.next (ackLegal x.t.hw _)
  have hctrl : (buffered.next x i).t.hw.be.ctrl = Controller.reset := by
    show Controller.next x.t.hw.be.ctrl = Controller.reset
    rw [h.ctrl]
    rfl
  cases hf : (flushes x.t.hw (driven x i)).flushEx with
  | true =>
      have hempty (n : TransId) : ((buffered.next x i).t.hw.sb.mem n).issued ≠ true := by
        rw [show ((buffered.next x i).t.hw.sb.mem n).issued = false from not_issued_of_flush hf n]
        exact Bool.false_ne_true
      exact ⟨hdec, hok, hctrl, fun n hn => absurd hn (hempty n),
        fun _ => single_of_flush h.ok hf⟩
  | false =>
      refine ⟨hdec, hok, hctrl, sound_next h.ok h.sound hf, fun hg' => ?_⟩
      have hg : ¬Guarded x.t := fun hg => hg' (Guarded.next h.ok hg hf)
      exact (h.single hg).next h hg hf

end Step

theorem owned_run (ins : List Input) : Owned (buffered.run ins) := by
  induction ins using List.reverseRecOn with
  | nil => exact owned_init
  | append_singleton ins i ih =>
      rw [Machine.run_snoc]
      exact ih.next

/-! ## Along the flight of an instruction -/

section Flight

variable {x : Buffered} {n : TransId}

theorem Keeps.pending {ins : List Input} (hk : Keeps n x ins) (h : Owned x)
    (hn : (x.t.hw.sb.mem n).issued = true) (hp : Pending (buffered.runFrom x ins) n) :
    Pending x n := by
  induction ins generalizing x with
  | nil => exact hp
  | cons i ins ih =>
      obtain ⟨hf, hack, hk⟩ := hk
      have hn' : ((buffered.next x i).t.hw.sb.mem n).issued = true := by
        show (Scoreboard.issueFifo x.t.hw.sb (sbIn x.t.hw (driven x i)) n).issued = true
        rw [Scoreboard.issueFifo_issued n (by rw [flush_eq, hf]), hn, Bool.or_true]
        exact (Bool.not_eq_true' _).mpr hack
      have hp' := ih hk h.next hn' hp
      rcases slot_next h.ok hf hn' with hs | hs
      · exact hs.pending h.ok hp'
      · rw [hs.pointer] at hn
        exact Bool.noConfusion (h.ok.issuePointer_free.symm.trans hn)

theorem Keeps.guarded {ins : List Input} (hk : Keeps n x ins) (h : Owned x) (hg : Guarded x.t) :
    Guarded (buffered.runFrom x ins).t := by
  induction ins generalizing x with
  | nil => exact hg
  | cons i ins ih =>
      obtain ⟨hf, -, hk⟩ := hk
      exact ih hk h.next (Guarded.next h.ok hg hf)

theorem Owned.runFrom (h : Owned x) (ins : List Input) : Owned (buffered.runFrom x ins) := by
  induction ins generalizing x with
  | nil => exact h
  | cons i ins ih => exact ih h.next

theorem not_guarded_of_accesses {i : Input} (h : Accesses x i) : ¬Guarded x.t := by
  intro hg
  rw [Guarded, Backend.isFence_of_isAccess h.2.2] at hg
  exact Bool.noConfusion hg.2

theorem Owned.address_of_accesses (h : Owned x) {i : Input} (ha : Accesses x i) :
    x.csr.csrAddress = address x x.t.hw.sb.commitPointer0 := by
  have hu := h.single (not_guarded_of_accesses ha)
  obtain ⟨hret, hfu, hop⟩ := ha
  have hpending := h.pending_port0 hret hfu
  have hop' : Csr.isAccess (Decoder.instructionO (x.src x.t.hw.sb.commitPointer0)).op = true :=
    (congrArg Csr.isAccess (h.fu_op hpending.1).2).symm.trans hop
  rcases hu.held _ hpending with hv | ⟨-, hname⟩
  · -- what is about to enter the buffer is not written back yet
    obtain ⟨hasked, hslot, -⟩ := hu.asked hv
    rw [hu.one _ _ hasked hpending] at hslot
    exact Bool.noConfusion (hslot.symm.trans (port0_of_retiring hret).1)
  · exact hname hop'

/-- An instruction enters the buffer only when no other one needs it any more. -/
theorem Owned.not_needed (h : Owned x) (hv : x.t.hw.iro.csrValid = true)
    (hne : n ≠ x.t.hw.iro.transId) : ¬Needed x n := by
  rintro ⟨hn, ins, i, hk, rfl, ha⟩
  have hend := h.runFrom ins
  have hpending := hk.pending h hn (hend.pending_port0 ha.1 ha.2.1)
  have hg : ¬Guarded x.t := fun hg => not_guarded_of_accesses ha (hk.guarded h hg)
  have hu := h.single hg
  exact hne (hu.one _ _ hpending (hu.asked hv).1)

end Flight

/-- In every run, a CSR access at port 0 is performed, or refused, at the address that its
instruction names, and no instruction enters the buffer while another one needs its address. -/
theorem csr_address_exact (ins : List Input) :
    (∀ i, Accesses (buffered.run ins) i →
      Scoreboard.decodedFields
            ((buffered.run ins).t.hw.sb.mem (buffered.run ins).t.hw.sb.commitPointer0).sbe =
          Scoreboard.decodedFields (ReadOperands.reName (Decoder.instructionO
            ((buffered.run ins).src (buffered.run ins).t.hw.sb.commitPointer0))) ∧
        (backendIn (buffered.run ins).t.hw (driven (buffered.run ins) i)).csrAddr =
          address (buffered.run ins) (buffered.run ins).t.hw.sb.commitPointer0) ∧
    ∀ n, (buffered.run ins).t.hw.iro.csrValid = true →
      n ≠ (buffered.run ins).t.hw.iro.transId → ¬Needed (buffered.run ins) n := by
  have h := owned_run ins
  refine ⟨fun i ha => ⟨?_, h.address_of_accesses ha⟩, fun n hv hne => h.not_needed hv hne⟩
  exact h.decoded _ (h.ok.valid_issued _ (port0_of_retiring ha.1).1)

/-- The address of a lone `csrr x10, mscratch` is needed until it is acknowledged. -/
example : Needed (buffered.run [.offer 0x34002573]) 0 :=
  ⟨by decide +kernel, [Input.quiet.written 0 0], .quiet,
    ⟨by decide +kernel, by decide +kernel, trivial⟩, by decide +kernel, by decide +kernel⟩

/-- A `fence` that waits for stores, and behind it `csrr x10, mscratch` and `csrr x11, mepc`. -/
def behindFence : List Input :=
  [.offer 0x0ff0000f, Input.quiet.written 0 0, .offer 0x34002573, .offer 0x341025f3]

/-- The second access enters the buffer while the first one is in flight: the fence has freed
the buffer, and will flush both. -/
example : (buffered.run behindFence).t.hw.iro.csrValid = true ∧
    (buffered.run behindFence).t.hw.iro.transId = 2 ∧
    ((buffered.run behindFence).t.hw.sb.mem 1).issued = true ∧
    (buffered.run behindFence).csr.csrAddress = 0x340 := by
  decide +kernel

end Cva6.Core
