import Cva6.Isa.Decode
/-!
# The words the decoder accepts

Every word the decoder raises no exception for is an encoded instruction, with five kinds of
words apart.
-/

namespace Cva6.Isa

open Cva6.Riscv Cva6.Decoder

/-! ## Words put together from their fields -/

section Reassembly

variable (w : BitVec 32)

end Reassembly

/-! ## Opcodes -/

section Opcodes

variable {w : BitVec 32}

/-- The word encodes an instruction that is permitted everywhere. -/
def Encodes (w : BitVec 32) : Prop := ∃ ins, encode ins = w ∧ ∀ i, Permitted i ins

/-- The function codes of the atomics. A load-reserved has no second source. -/
def AmoCode (w : BitVec 32) : Prop :=
  (∃ op : AmoOp, funct5 w = op.funct5) ∨ funct5 w = 0b00010 ∧ rs2Field w = 0

end Opcodes

/-! ## System instructions -/

section System

variable {i : Decoder.Input}

def raised (w : BitVec 32) : Bool := rs1Field w != 0 || rdField w != 0

def privilegedIllegal (i : Decoder.Input) : Bool :=
  if immI i.instruction = 0x000 then raised i.instruction
  else if immI i.instruction = 0x001 then raised i.instruction
  else if immI i.instruction = 0x102 then
    raised i.instruction || i.privLvl = privLvlU || i.privLvl = privLvlS && i.tsr
  else if immI i.instruction = 0x302 then
    raised i.instruction || i.privLvl = privLvlU || i.privLvl = privLvlS
  else if immI i.instruction = 0x7b2 then !i.debugMode
  else if immI i.instruction = 0x105 then
    raised i.instruction || i.privLvl = privLvlU || i.privLvl = privLvlS && i.tw
  else if funct7 i.instruction = 0b0001001 then
    !(i.privLvl = privLvlM || i.privLvl = privLvlS) || i.privLvl = privLvlS && i.tvm
  else raised i.instruction

theorem decodePrivileged_illegal (d : Decoded) (hd : d.illegalInstr = false) :
    (decodePrivileged i d).illegalInstr = privilegedIllegal i := by
  have hne : privLvlS ≠ privLvlU := by decide
  unfold decodePrivileged privilegedIllegal raised
  generalize (rs1Field i.instruction != 0 || rdField i.instruction != 0) = r
  simp only [apply_ite Decoded.illegalInstr, hd]
  by_cases hU : i.privLvl = privLvlU
  · cases r <;> simp [hU, hne.symm]
  by_cases hS : i.privLvl = privLvlS
  · cases r <;> simp [hS, hne]
  · cases r <;> simp [hU, hS]

/-- The upper twelve bits that select an instruction by themselves. -/
def Funct12 (imm : BitVec 12) : Prop :=
  imm = 0x000 ∨ imm = 0x001 ∨ imm = 0x102 ∨ imm = 0x302 ∨ imm = 0x7b2 ∨ imm = 0x105

end System

/-! ## The accepted words -/

/-- The words that are no instruction and that the decoder accepts. -/
inductive Slip (i : Decoder.Input) : Prop where
  /-- A load of an unsigned word. -/
  | lwu (hop : opcode i.instruction = 0b0000011) (h3 : funct3 i.instruction = 0b110)
  /-- An atomic on a doubleword. -/
  | doubleword (hop : opcode i.instruction = 0b0101111) (h3 : funct3 i.instruction = 0b011)
      (hcode : AmoCode i.instruction)
  /-- A privileged word no instruction has. -/
  | unknown (hop : opcode i.instruction = 0b1110011) (h3 : funct3 i.instruction = 0b000)
      (hr : raised i.instruction = false) (himm : ¬Funct12 (immI i.instruction))
      (h7 : funct7 i.instruction ≠ 0b0001001)
  /-- `DRET` with a register. -/
  | dret (hop : opcode i.instruction = 0b1110011) (h3 : funct3 i.instruction = 0b000)
      (himm : immI i.instruction = 0x7b2) (hd : i.debugMode = true)
      (hr : raised i.instruction = true)
  /-- `SFENCE.VMA` with a destination. -/
  | sfenceVma (hop : opcode i.instruction = 0b1110011) (h3 : funct3 i.instruction = 0b000)
      (h7 : funct7 i.instruction = 0b0001001) (hp : Permitted i (.sfenceVma 0 0))
      (hrd : rdField i.instruction ≠ 0)

theorem Encodes.valid {i : Decoder.Input} (h : Encodes i.instruction) : Valid i := by
  obtain ⟨ins, he, hp⟩ := h
  exact ⟨ins, he, hp i⟩

def wideOp : FuOp → Bool
  | .LWU | .AMO_LRD | .AMO_SCD | .AMO_SWAPD | .AMO_ADDD | .AMO_ANDD | .AMO_ORD | .AMO_XORD
  | .AMO_MAXD | .AMO_MAXDU | .AMO_MIND | .AMO_MINDU => true
  | _ => false

section Slips

variable {i : Decoder.Input}

theorem decodeLoad_lwu {w : BitVec 32} (h3 : funct3 w = 0b110) :
    (decodeLoad w).op = .LWU ∧ (decodeLoad w).illegalInstr = false := by
  unfold decodeLoad
  rw [h3]
  exact ⟨rfl, rfl⟩

theorem decodeAmo_doubleword {w : BitVec 32} (h3 : funct3 w = 0b011) (hcode : AmoCode w) :
    wideOp (decodeAmo w).op = true ∧ (decodeAmo w).illegalInstr = false := by
  unfold decodeAmo
  rcases hcode with ⟨op, h5⟩ | ⟨h5, hrs2⟩
  · rw [h3, h5]
    cases op <;> exact ⟨rfl, rfl⟩
  · rw [h3, h5, hrs2]
    exact ⟨rfl, rfl⟩

theorem decoder_system (hex : i.ex.valid = false) (hop : opcode i.instruction = 0b1110011) :
    decoder i = decodeSystem i := by
  unfold decoder
  rw [hex, hop]
  rfl

theorem decodeSystem_eq (h3 : funct3 i.instruction = 0b000) :
    ∃ d, decodeSystem i = decodePrivileged i d ∧ d.illegalInstr = false ∧ d.fu = .CSR ∧
      d.op = .ADD ∧ d.ecall = false ∧ d.ebreak = false := by
  unfold decodeSystem
  rw [h3]
  exact ⟨_, rfl, rfl, rfl, rfl, rfl, rfl⟩

theorem decodePrivileged_unknown (d : Decoded) (hr : raised i.instruction = false)
    (himm : ¬Funct12 (immI i.instruction)) (h7 : funct7 i.instruction ≠ 0b0001001) :
    decodePrivileged i d = d := by
  simp only [Funct12, not_or] at himm
  obtain ⟨h0, h1, h2, h3, h4, h5⟩ := himm
  have hr' : (rs1Field i.instruction != 0 || rdField i.instruction != 0) = false := hr
  unfold decodePrivileged
  rw [hr', if_neg h0, if_neg h1, if_neg h2, if_neg h3, if_neg h4, if_neg h5, if_neg h7,
    if_neg Bool.false_ne_true]

theorem decodePrivileged_dret (d : Decoded) (himm : immI i.instruction = 0x7b2) :
    (decodePrivileged i d).op = .DRET ∧ privilegedIllegal i = !i.debugMode := by
  unfold decodePrivileged privilegedIllegal
  rw [himm]
  exact ⟨rfl, rfl⟩

theorem immI_eq (w : BitVec 32) : immI w = funct7 w ++ rs2Field w :=
  (extract_join w 20 7 5).symm

theorem decodePrivileged_sfenceVma (d : Decoded) (h7 : funct7 i.instruction = 0b0001001)
    (hp : Permitted i (.sfenceVma 0 0)) :
    (decodePrivileged i d).op = .SFENCE_VMA ∧ privilegedIllegal i = false := by
  obtain ⟨h0, h1, h2, h3, h4, h5⟩ := sfence_funct12 (rs2Field i.instruction)
  have himm : immI i.instruction = 0b0001001#7 ++ rs2Field i.instruction := by
    rw [immI_eq, h7]
    rfl
  unfold decodePrivileged privilegedIllegal
  rw [himm, h7]
  simp only [h0, h1, h2, h3, h4, h5, if_false, if_true]
  have hSM : privLvlS ≠ privLvlM := by decide
  rcases hp with hp | ⟨hp, ht⟩
  · simp [hp, hSM.symm]
  · simp [hp, ht]

theorem Slip.accepted (hs : Slip i) (hex : i.ex.valid = false) :
    (decoder i).illegalInstr = false := by
  cases hs with
  | lwu hop h3 =>
      unfold decoder
      rw [hex, hop]
      exact (decodeLoad_lwu h3).2
  | doubleword hop h3 hcode =>
      unfold decoder
      rw [hex, hop]
      exact (decodeAmo_doubleword h3 hcode).2
  | unknown hop h3 hr himm h7 =>
      obtain ⟨d, hd, hill, -⟩ := decodeSystem_eq h3
      rw [decoder_system hex hop, hd, decodePrivileged_unknown d hr himm h7, hill]
  | dret hop h3 himm hdbg hr =>
      obtain ⟨d, hd, hill, -⟩ := decodeSystem_eq h3
      rw [decoder_system hex hop, hd, decodePrivileged_illegal d hill,
        (decodePrivileged_dret d himm).2, hdbg]
      rfl
  | sfenceVma hop h3 h7 hp hrd =>
      obtain ⟨d, hd, hill, -⟩ := decodeSystem_eq h3
      rw [decoder_system hex hop, hd, decodePrivileged_illegal d hill,
        (decodePrivileged_sfenceVma d h7 hp).2]

theorem decodePrivileged_return {d : Decoded} (hd : d.op = .ADD) :
    ((decodePrivileged i d).op = .MRET → immI i.instruction = 0x302) ∧
      ((decodePrivileged i d).op = .SRET → immI i.instruction = 0x102) ∧
      ((decodePrivileged i d).op = .DRET → immI i.instruction = 0x7b2) := by
  unfold decodePrivileged
  simp only [apply_ite Decoded.op, hd, ite_self]
  refine ⟨?_, ?_, ?_⟩ <;> split_ifs <;> simp_all

theorem decoder_csr_cases (hex : i.ex.valid = false) (hfu : (decoder i).fu = .CSR) :
    decoder i = decodeSystem i ∨ decoder i = decodeMiscMem i.instruction := by
  have hunit (w : BitVec 32) : opUnit w ≠ .CSR := by
    rcases opUnit_cases w with h | h <;> simp [h]
  unfold decoder at hfu ⊢
  rw [hex, if_neg Bool.false_ne_true] at hfu ⊢
  split at hfu
  · exact .inl rfl
  · exact .inr rfl
  · rcases decodeOp_fu i.instruction with h | h
    · rw [h] at hfu
      cases hfu
    · exact absurd (h.symm.trans hfu) (hunit _)
  · exact absurd hfu (hunit _)
  · rw [decodeOpImm_fu] at hfu
    cases hfu
  · cases hfu
  · rw [decodeStore_fu] at hfu
    cases hfu
  · rw [decodeLoad_fu] at hfu
    cases hfu
  · rw [decodeAmo_fu] at hfu
    cases hfu
  · unfold decodeBranch at hfu
    split at hfu <;> cases hfu
  · rw [(decodeJalr_spec i.instruction).1] at hfu
    cases hfu
  · cases hfu
  · cases hfu
  · cases hfu
  · cases hfu

theorem decodeMiscMem_not_return (w : BitVec 32) : (decodeMiscMem w).op ≠ .MRET ∧
    (decodeMiscMem w).op ≠ .SRET ∧ (decodeMiscMem w).op ≠ .DRET := by
  have hop : (decodeMiscMem w).op = (decodeFence w).op := by
    unfold decodeMiscMem
    simp only [apply_ite Decoded.op, ite_self]
  have hfence : (decodeFence w).op = .FENCE ∨ (decodeFence w).op = .FENCE_I ∨
      (decodeFence w).op = .ADD := by
    unfold decodeFence
    split
    · exact .inl rfl
    · exact .inr (.inl rfl)
    · exact .inr (.inr rfl)
  rw [hop]
  rcases hfence with h | h | h <;> rw [h] <;> decide

theorem decodeSystem_return (h : (decodeSystem i).op = .MRET ∨ (decodeSystem i).op = .SRET ∨
    (decodeSystem i).op = .DRET) : funct3 i.instruction = 0b000 := by
  have hset (op : FuOp) (hop : op = .CSR_SET ∨ op = .CSR_CLEAR) :
      csrSetOp i.instruction op ≠ .MRET ∧ csrSetOp i.instruction op ≠ .SRET ∧
        csrSetOp i.instruction op ≠ .DRET := by
    rcases csrSetOp_cases i.instruction op with h' | h' <;> rw [h'] <;>
      rcases hop with rfl | rfl <;> exact ⟨by decide, by decide, by decide⟩
  unfold decodeSystem at h
  split at h
  · next h3 => exact h3
  all_goals simp_all [Decoded.default]

/-- A return that the decoder raises nothing for is permitted. -/
theorem return_permitted (hex : i.ex.valid = false) (hfu : (decoder i).fu = .CSR)
    (hill : (decoder i).illegalInstr = false) :
    ((decoder i).op = .MRET → i.privLvl ≠ privLvlU ∧ i.privLvl ≠ privLvlS) ∧
      ((decoder i).op = .SRET → i.privLvl ≠ privLvlU) ∧
      ((decoder i).op = .DRET → i.debugMode = true) := by
  rcases decoder_csr_cases hex hfu with hd | hd
  · rw [hd] at hill ⊢
    have hpriv (h3 : funct3 i.instruction = 0b000) :
        privilegedIllegal i = false ∧ ((decodeSystem i).op = .MRET → immI i.instruction = 0x302) ∧
          ((decodeSystem i).op = .SRET → immI i.instruction = 0x102) ∧
          ((decodeSystem i).op = .DRET → immI i.instruction = 0x7b2) := by
      obtain ⟨d, hdd, hdill, -, hadd, -⟩ := decodeSystem_eq h3
      rw [hdd] at hill ⊢
      rw [decodePrivileged_illegal d hdill] at hill
      exact ⟨hill, decodePrivileged_return hadd⟩
    unfold privilegedIllegal at hpriv
    refine ⟨?_, ?_, ?_⟩
    · intro hop
      obtain ⟨hlegal, himm, -, -⟩ := hpriv (decodeSystem_return (.inl hop))
      rw [himm hop] at hlegal
      have hparts : (raised i.instruction = false ∧ ¬i.privLvl = privLvlU) ∧
          ¬i.privLvl = privLvlS := by simpa using hlegal
      exact ⟨hparts.1.2, hparts.2⟩
    · intro hop
      obtain ⟨hlegal, -, himm, -⟩ := hpriv (decodeSystem_return (.inr (.inl hop)))
      rw [himm hop] at hlegal
      have hparts : (raised i.instruction = false ∧ ¬i.privLvl = privLvlU) ∧
          (i.privLvl = privLvlS → i.tsr = false) := by simpa using hlegal
      exact hparts.1.2
    · intro hop
      obtain ⟨hlegal, -, -, himm⟩ := hpriv (decodeSystem_return (.inr (.inr hop)))
      rw [himm hop] at hlegal
      simpa using hlegal
  · obtain ⟨hm, hs, hr⟩ := decodeMiscMem_not_return i.instruction
    rw [hd]
    exact ⟨fun h => absurd h hm, fun h => absurd h hs, fun h => absurd h hr⟩

end Slips

/-! ## Conformance -/

section Conformance

variable {i : Decoder.Input}

theorem Plain.cause_eq (h : Plain i) : cause (instructionO i).ex =
    if (decoder i).illegalInstr then some illegalInstr
    else if (decoder i).ecall then some (ecallCause i.privLvl i.ex.cause)
    else if (decoder i).ebreak then some breakpoint
    else none := by
  show cause (exceptionHandling i (decoder i)) = _
  unfold exceptionHandling cause
  rw [h.ex, h.isIllegal, h.interrupt, h.debugReq]
  cases (decoder i).illegalInstr <;> cases (decoder i).ecall <;> cases (decoder i).ebreak <;>
    simp [h.ex]

theorem instructionO_encode {ins : Instr} (h : Plain i) (he : encode ins = i.instruction)
    (hp : Permitted i ins) :
    Entry.of (instructionO i) = entry ins ∧ cause (instructionO i).ex = trap i ins := by
  have hd := decoder_encode h.ex he hp
  obtain ⟨himm, huse⟩ := signExtend_encode ins
  constructor
  · unfold Entry.of instructionO
    rw [hd, ← he]
    simp only [decoded, himm, huse]
  · rw [h.cause_eq, hd]
    cases ins with
    | ecall =>
        show some (ecallCause i.privLvl i.ex.cause) = _
        unfold ecallCause trap
        rcases h.privLvl with hp | hp | hp <;> rw [hp] <;> rfl
    | _ => rfl

end Conformance

end Cva6.Isa
