import Cva6.Core.Executed
/-!
# The marker and its result

`CFI_Mod` takes an addition of `x1` into `x0` for the marker by the low bits of its result. The
word of the instruction fixes the registers and the immediate, but not what `x1` holds.
-/

namespace Cva6.Core

open Cva6.Sync Cva6.Issue
open Cva6.Decoder (opcode funct3 funct7 rs1Field rs2Field rdField immI instructionO decoder Decoded)

/-! ## The words -/

/-- The encodings of `addi x0, x1, imm`. -/
def IsMarkerWord (w : BitVec 32) : Prop :=
  opcode w = 0b0010011 ∧ funct3 w = 0 ∧ rs1Field w = 1 ∧ rdField w = 0

/-- The encodings of `add x0, x1, rs2`. -/
def IsAddWord (w : BitVec 32) : Prop :=
  opcode w = 0b0110011 ∧ funct7 w = 0 ∧ funct3 w = 0 ∧ rs1Field w = 1 ∧ rdField w = 0

instance (w : BitVec 32) : Decidable (IsMarkerWord w) := inferInstanceAs (Decidable (_ ∧ _ ∧ _ ∧ _))

instance (w : BitVec 32) : Decidable (IsAddWord w) :=
  inferInstanceAs (Decidable (_ ∧ _ ∧ _ ∧ _ ∧ _))

def markerImm (w : BitVec 32) : XLen := (immI w).signExtend 32

section Decode

variable {i : Decoder.Input}

theorem decoder_marker (hex : i.ex.valid = false) (h : IsMarkerWord i.instruction) :
    decoder i = { Decoded.default with fu := .ALU, immSelect := .IIMM, rs1 := 1 } := by
  obtain ⟨hop, h3, hrs1, hrd⟩ := h
  rw [decoder, hex, if_neg Bool.false_ne_true, hop]
  show Decoder.decodeOpImm i.instruction = _
  rw [Decoder.decodeOpImm, h3, hrs1, hrd]
  rfl

theorem decoder_add (hex : i.ex.valid = false) (h : IsAddWord i.instruction) :
    decoder i = { Decoded.default with
      fu := .ALU, rs1 := 1, rs2 := Decoder.reg (rs2Field i.instruction) } := by
  obtain ⟨hop, h7, h3, hrs1, hrd⟩ := h
  have htop : i.instruction.extractLsb' 30 2 = (funct7 i.instruction).extractLsb' 5 2 := by
    apply BitVec.eq_of_getLsbD_eq
    intro k hk
    have hk5 : 5 + k < 7 := by omega
    rw [funct7, BitVec.getLsbD_extractLsb', BitVec.getLsbD_extractLsb', BitVec.getLsbD_extractLsb',
      decide_eq_true hk5, Bool.true_and, ← Nat.add_assoc]
  have hunit : Decoder.opUnit i.instruction = .ALU := by
    rw [Decoder.opUnit, h7]
    rfl
  rw [decoder, hex, if_neg Bool.false_ne_true, hop]
  show Decoder.decodeOp i.instruction = _
  rw [Decoder.decodeOp, htop, hunit, h7, h3, hrs1, hrd]
  rfl

/-- What the detector looks at, but for the result. -/
structure Alike (d : Decoded) : Prop where
  legal : d.illegalInstr = false
  op : d.op = .ADD
  fu : d.fu = .ALU
  rs1 : d.rs1.setWidth 5 = (1 : BitVec 5)
  rd : d.rd.setWidth 5 = (0 : BitVec 5)

theorem setWidth_reg (r : BitVec 5) : (Decoder.reg r).setWidth 5 = r := by
  revert r
  decide

theorem decodeOp_alike {w : BitVec 32} (h : Alike (Decoder.decodeOp w)) :
    funct7 w = 0 ∧ funct3 w = 0 ∧ rs1Field w = 1 ∧ rdField w = 0 := by
  unfold Decoder.decodeOp at h
  split at h
  · exact Fu.noConfusion h.fu
  · split at h
    next h7 h3 =>
      exact ⟨h7, h3, (setWidth_reg _).symm.trans h.rs1, (setWidth_reg _).symm.trans h.rd⟩
    all_goals first | exact FuOp.noConfusion h.op | exact Bool.noConfusion h.legal

theorem decodeOpImm_alike {w : BitVec 32} (h : Alike (Decoder.decodeOpImm w)) :
    funct3 w = 0 ∧ rs1Field w = 1 ∧ rdField w = 0 := by
  unfold Decoder.decodeOpImm at h
  split at h
  next h3 => exact ⟨h3, (setWidth_reg _).symm.trans h.rs1, (setWidth_reg _).symm.trans h.rd⟩
  · exact FuOp.noConfusion h.op
  · exact FuOp.noConfusion h.op
  · exact FuOp.noConfusion h.op
  · exact FuOp.noConfusion h.op
  · exact FuOp.noConfusion h.op
  · have hop := h.op
    simp only [apply_ite Decoded.op, ite_self] at hop
    cases hop
  · dsimp only at h
    split_ifs at h <;> first | exact FuOp.noConfusion h.op | exact Bool.noConfusion h.legal

/-- Only the two additions of `x1` into `x0` look like the marker. -/
theorem word_of_alike (h : Alike (decoder i)) :
    IsMarkerWord i.instruction ∨ IsAddWord i.instruction := by
  unfold decoder at h
  split_ifs at h
  · exact Fu.noConfusion h.fu
  split at h
  · exact Fu.noConfusion ((Decoder.decodeSystem_fu i).symm.trans h.fu)
  · exact Fu.noConfusion ((Decoder.decodeMiscMem_fu _).symm.trans h.fu)
  · rename_i hopcode
    exact .inr ⟨hopcode, decodeOp_alike h⟩
  · exact Bool.noConfusion h.legal
  · rename_i hopcode
    exact .inl ⟨hopcode, decodeOpImm_alike h⟩
  · exact Bool.noConfusion h.legal
  · exact Fu.noConfusion ((Decoder.decodeStore_fu _).symm.trans h.fu)
  · exact Fu.noConfusion ((Decoder.decodeLoad_fu _).symm.trans h.fu)
  · exact Fu.noConfusion ((Decoder.decodeAmo_fu _).symm.trans h.fu)
  · exact Fu.noConfusion ((Decoder.decodeBranch_fu _).symm.trans h.fu)
  · exact Fu.noConfusion ((Decoder.decodeJalr_spec _).1.symm.trans h.fu)
  · exact Fu.noConfusion h.fu
  · exact absurd (show (0 : BitVec 5) = 1 from h.rs1) (by decide)
  · exact absurd (show (0 : BitVec 5) = 1 from h.rs1) (by decide)
  · exact Fu.noConfusion h.fu

theorem alike_iff (hex : i.ex.valid = false) :
    Alike (decoder i) ↔ IsMarkerWord i.instruction ∨ IsAddWord i.instruction := by
  refine ⟨word_of_alike, ?_⟩
  rintro (h | h)
  · rw [decoder_marker hex h]
    exact ⟨rfl, rfl, rfl, rfl, rfl⟩
  · rw [decoder_add hex h]
    exact ⟨rfl, rfl, rfl, rfl, rfl⟩

theorem legal_of_no_ex (h : (instructionO i).ex.valid = false) :
    i.ex.valid = false ∧ (decoder i).illegalInstr = false := by
  have hvalid := Decoder.exceptionHandling_valid i (decoder i)
  constructor
  · by_contra hne
    exact Bool.noConfusion (h.symm.trans (hvalid (.inl (Bool.not_eq_false _ ▸ hne))))
  · by_contra hne
    exact Bool.noConfusion (h.symm.trans (hvalid (.inr (Bool.not_eq_false _ ▸ hne))))

end Decode

/-! ## Committed instructions -/

def Committed (x : Executed) (i : Input) (e : ScoreboardEntry) : Prop :=
  ack0 x.t.hw (withAlu x.t.hw i) = true ∧ e = port0 x.t.hw ∨
    ack1 x.t.hw (withAlu x.t.hw i) = true ∧ e = port1 x.t.hw

instance (x : Executed) (i : Input) (e : ScoreboardEntry) : Decidable (Committed x i e) :=
  inferInstanceAs (Decidable (_ ∧ _ ∨ _ ∧ _))

/-- A run of the core commits the word `w`, executed with the operands `a` and `b`, from the
entry `e`. -/
def Commits (w : BitVec 32) (a b : XLen) (e : ScoreboardEntry) : Prop :=
  ∃ (ins : List Input) (i : Input), executed.Throughout Units ins ∧
    Committed (executed.run ins) i e ∧
    ((executed.run ins).src e.transId).instruction = w ∧
    ((executed.run ins).t.record.ops e.transId).a = a ∧
    ((executed.run ins).t.record.ops e.transId).b = b

variable {x : Executed} {i : Input} {e : ScoreboardEntry} {w : BitVec 32} {a b : XLen}

theorem Committed.slot (h : Committed x i e) :
    e = { (x.t.hw.sb.mem e.transId).sbe with transId := e.transId } ∧ e.valid = true ∧
      e.ex.valid = false := by
  rcases h with ⟨hack, rfl⟩ | ⟨hack, rfl⟩
  · exact ⟨rfl, port0_of_retiring (retiring_of_ack0 hack)⟩
  · obtain ⟨-, hv, hex, -⟩ := of_ack1 hack
    exact ⟨rfl, hv, hex⟩

theorem setWidth_adder (o : Ops) :
    (Alu.result ⟨.ADD, o.a, o.b, o.imm⟩).setWidth 2 = o.a.setWidth 2 + o.b.setWidth 2 := by
  have hsum : Alu.result ⟨.ADD, o.a, o.b, o.imm⟩ = o.a + o.b := by
    rw [Alu.result, Alu.adderResult_eq]
    rfl
  rw [hsum, BitVec.setWidth_add _ _ (by omega)]

/-- What the detector takes for the marker: its word, or an addition of registers, with a
result that ends in `11`. -/
theorem Traced.nopPerso_iff (h : Traced x) (hc : Committed x i e)
    (hw : (x.src e.transId).instruction = w) :
    Cfi.nopPerso e = true ↔ (IsMarkerWord w ∨ IsAddWord w) ∧
      (x.t.record.ops e.transId).a.setWidth 2 + (x.t.record.ops e.transId).b.setWidth 2 = 3#2 := by
  obtain ⟨hentry, hv, hex⟩ := hc.slot
  generalize hn : e.transId = n at *
  subst hw
  have hv' : (x.t.hw.sb.mem n).sbe.valid = true := by rw [hentry] at hv; exact hv
  have hex' : (x.t.hw.sb.mem n).sbe.ex.valid = false := by rw [hentry] at hex; exact hex
  have hissued := h.ok.valid_issued n hv'
  obtain ⟨⟨hfu, hop, hrd⟩, ⟨hrs1, -⟩, -⟩ := Scoreboard.decodedFields_eq (h.decoded n hissued)
  obtain ⟨hsrc, hlegal⟩ := legal_of_no_ex (i := x.src n) (by
    by_contra hne
    exact Bool.noConfusion (hex'.symm.trans (h.excepted n hissued (Bool.not_eq_false _ ▸ hne))))
  rw [← alike_iff hsrc, hentry]
  simp only [Cfi.nopPerso, Bool.and_eq_true, beq_iff_eq]
  constructor
  · rintro ⟨⟨⟨⟨hadd, halu⟩, hra⟩, hzero⟩, hres⟩
    have hresult := h.result n hissued ⟨halu, hex'⟩ hv'
    rw [aluInput, hadd] at hresult
    rw [hresult, setWidth_adder] at hres
    refine ⟨⟨hlegal, hop.symm.trans hadd, hfu.symm.trans halu, ?_, ?_⟩, hres⟩
    · have h5 := congrArg (BitVec.setWidth 5) (hrs1.symm.trans hra)
      exact (setWidth_setWidth _).symm.trans h5
    · have h5 := congrArg (BitVec.setWidth 5) (hrd.symm.trans hzero)
      exact (setWidth_setWidth _).symm.trans h5
  · rintro ⟨hd, hsum⟩
    have hadd := hop.trans hd.op
    have halu := hfu.trans hd.fu
    have hresult := h.result n hissued ⟨halu, hex'⟩ hv'
    rw [aluInput, hadd] at hresult
    refine ⟨⟨⟨⟨hadd, halu⟩, ?_⟩, ?_⟩, ?_⟩
    · exact hrs1.trans (congrArg (BitVec.setWidth 6) hd.rs1)
    · exact hrd.trans (congrArg (BitVec.setWidth 6) hd.rd)
    · rw [hresult, setWidth_adder]
      exact hsum

/-- The second operand of an `addi` is its immediate. -/
theorem Traced.markerImm_eq (h : Traced x) (hc : Committed x i e)
    (hw : IsMarkerWord (x.src e.transId).instruction) :
    (x.t.record.ops e.transId).b = markerImm (x.src e.transId).instruction := by
  obtain ⟨hentry, hv, hex⟩ := hc.slot
  generalize e.transId = n at *
  have hv' : (x.t.hw.sb.mem n).sbe.valid = true := by rw [hentry] at hv; exact hv
  have hex' : (x.t.hw.sb.mem n).sbe.ex.valid = false := by rw [hentry] at hex; exact hex
  have hissued := h.ok.valid_issued n hv'
  obtain ⟨⟨hfu, -⟩, -, huse, -⟩ := Scoreboard.decodedFields_eq (h.decoded n hissued)
  obtain ⟨hsrc, -⟩ := legal_of_no_ex (i := x.src n) (by
    by_contra hne
    exact Bool.noConfusion (hex'.symm.trans (h.excepted n hissued (Bool.not_eq_false _ ▸ hne))))
  have hdec := decoder_marker hsrc hw
  have hsel : selectsImm (x.t.hw.sb.mem n).sbe = true := by
    have huse' : (x.t.hw.sb.mem n).sbe.useImm = ((decoder (x.src n)).immSelect != .NOIMM) := huse
    have hfu' : (x.t.hw.sb.mem n).sbe.fu = (decoder (x.src n)).fu := hfu
    rw [selectsImm, huse', hfu', hdec]
    rfl
  have himm : (instructionO (x.src n)).result = Decoder.signExtend (x.src n).instruction
    (decoder (x.src n)).immSelect := rfl
  rw [(h.selected n hissued).2.2 hsel, h.imm n hissued, himm, hdec]
  rfl

theorem low_bits_agree_iff : ∀ a a' m : BitVec 2, a.getLsbD 0 = false → a'.getLsbD 0 = false →
    ((a + m = 3 ↔ a' + m = 3) ↔ m.getLsbD 0 = false ∨ a = a') := by
  decide

/-! ## The classification of a word -/

/-- Two executions of one `addi x0, x1, imm` with even values of `x1` are classified alike
exactly when the immediate is even or the values agree modulo four; any other word is taken for
the marker exactly when it adds a register to `x1` with a sum that ends in `11`. -/
theorem marker_of_text_iff (w : BitVec 32) :
    (IsMarkerWord w → ∀ a b e a' b' e', Commits w a b e → Commits w a' b' e' →
      a.getLsbD 0 = false → a'.getLsbD 0 = false →
      (Cfi.nopPerso e = Cfi.nopPerso e' ↔
        (markerImm w).getLsbD 0 = false ∨ a.setWidth 2 = a'.setWidth 2)) ∧
    (¬IsMarkerWord w → ∀ a b e, Commits w a b e →
      (Cfi.nopPerso e = false ↔ ¬(IsAddWord w ∧ (a + b).setWidth 2 = 3#2))) := by
  constructor
  · rintro hw a b e a' b' e' ⟨ins, i, hunits, hc, rfl, rfl, rfl⟩ ⟨ins', i', hunits', hc', hw', rfl, rfl⟩
      ha ha'
    have h := traced_run hunits
    have h' := traced_run hunits'
    have himm := h.markerImm_eq hc hw
    have himm' := h'.markerImm_eq hc' (hw' ▸ hw)
    have hiff := h.nopPerso_iff hc rfl
    have hiff' := h'.nopPerso_iff hc' hw'
    rw [hw'] at himm'
    rw [himm] at hiff
    rw [himm'] at hiff'
    rw [Bool.eq_iff_iff, hiff, hiff']
    simp only [hw, true_or, true_and]
    have hbit (v : XLen) : (v.setWidth 2).getLsbD 0 = v.getLsbD 0 := by
      simp
    rw [← hbit (markerImm _)]
    exact low_bits_agree_iff _ _ _ ((hbit _).trans ha) ((hbit _).trans ha')
  · rintro hw a b e ⟨ins, i, hunits, hc, rfl, rfl, rfl⟩
    have hiff := (traced_run hunits).nopPerso_iff hc rfl
    rw [BitVec.setWidth_add _ _ (by omega), ← Bool.not_eq_true, hiff]
    simp [hw]

/-- `x1` is loaded by the word `w`, and `addi x0, x1, 3` follows. -/
def markerRun (w : BitVec 32) : List Input := [.offer w, .offer 0x00308013, .quiet]

def markerEntry (w : BitVec 32) : ScoreboardEntry := port0 (executed.run (markerRun w)).t.hw

theorem commits_aligned : Commits 0x00308013 0x100 3 (markerEntry 0x10000093) :=
  ⟨markerRun 0x10000093, .quiet, by decide +kernel, .inl ⟨by decide +kernel, rfl⟩,
    by decide +kernel, by decide +kernel, by decide +kernel⟩

theorem commits_unaligned : Commits 0x00308013 0x102 3 (markerEntry 0x10200093) :=
  ⟨markerRun 0x10200093, .quiet, by decide +kernel, .inl ⟨by decide +kernel, rfl⟩,
    by decide +kernel, by decide +kernel, by decide +kernel⟩

/-- The rule for `addi x0, x1, 3` with `x1 = 0x100` and with `x1 = 0x102`. -/
theorem marker_of_text_unaligned :
    Cfi.nopPerso (markerEntry 0x10000093) = Cfi.nopPerso (markerEntry 0x10200093) ↔
      (markerImm 0x00308013).getLsbD 0 = false ∨
        (0x100 : XLen).setWidth 2 = (0x102 : XLen).setWidth 2 :=
  (marker_of_text_iff 0x00308013).1 (by decide) _ _ _ _ _ _ commits_aligned commits_unaligned
    (by decide) (by decide)

/-- With `x1 = 0x100` the `addi x0, x1, 3` is a marker, with `x1 = 0x102` it is not. -/
theorem marker_depends_on_ra :
    ¬∀ w a b e a' b' e', IsMarkerWord w → Commits w a b e → Commits w a' b' e' →
      a.getLsbD 0 = false → a'.getLsbD 0 = false → Cfi.nopPerso e = Cfi.nopPerso e' := by
  intro h
  have heq := h 0x00308013 _ _ _ _ _ _ (by decide) commits_aligned commits_unaligned
    (by decide) (by decide)
  have hyes : Cfi.nopPerso (markerEntry 0x10000093) = true := by decide +kernel
  have hno : Cfi.nopPerso (markerEntry 0x10200093) = false := by decide +kernel
  exact Bool.noConfusion (hyes.symm.trans (heq.trans hno))

end Cva6.Core
