import Cva6.Frontend.Model
/-!
# Parcels

Instruction memory is a sequence of 16-bit parcels. What a parcel may hold is a
predicate `H`: `H p v` says that `v` is an acceptable content of parcel `p`. The
re-aligner turns acceptable words into instructions that are stored one after the other.
-/

namespace Cva6.Frontend

abbrev Parcel := BitVec 31

def half (a : XLen) : Parcel := a.extractLsb 31 1

def Aligned (a : XLen) : Prop := a.toNat % 2 = 0

instance (a : XLen) : Decidable (Aligned a) := inferInstanceAs (Decidable (_ = _))

def lowParcel (w : BitVec 32) : BitVec 16 := w.extractLsb 15 0
def highParcel (w : BitVec 32) : BitVec 16 := w.extractLsb 31 16

/-- The instruction is what the parcels from the address on hold. -/
def Stored (H : Parcel → BitVec 16 → Prop) (a : XLen) (w : BitVec 32) : Prop :=
  H (half a) (lowParcel w) ∧ (isRvc w = false → H (half a + 1) (highParcel w))

instance (H : Parcel → BitVec 16 → Prop) [∀ p v, Decidable (H p v)] (a : XLen) (w : BitVec 32) :
    Decidable (Stored H a w) := inferInstanceAs (Decidable (_ ∧ _))

/-! ## Addresses -/

theorem toNat_half (a : XLen) : (half a).toNat = a.toNat / 2 := by
  have := a.isLt
  simp only [half, BitVec.extractLsb, BitVec.extractLsb'_toNat, Nat.shiftRight_eq_div_pow]
  omega

theorem toNat_block (a : XLen) (c : BitVec 2) :
    BitVec.toNat (a.extractLsb 31 2 ++ c) = a.toNat / 4 * 4 + c.toNat := by
  have := a.isLt
  have hc : c.toNat < 2 ^ 2 := c.isLt
  rw [BitVec.toNat_append, ← Nat.shiftLeft_add_eq_or_of_lt hc, Nat.shiftLeft_eq]
  simp only [BitVec.extractLsb, BitVec.extractLsb'_toNat, Nat.shiftRight_eq_div_pow]
  omega

theorem toNat_nextWord (a : XLen) : (nextWord a).toNat = (a.toNat / 4 * 4 + 4) % 2 ^ 32 := by
  have h := toNat_block a 0
  unfold nextWord
  rw [BitVec.toNat_add]
  erw [h]
  rfl

theorem toNat_upperAddress (i : Realign.Input) :
    (Realign.upperAddress i).toNat = i.address.toNat / 4 * 4 + 2 :=
  toNat_block i.address 0b10

theorem getLsbD_one (a : XLen) : a.getLsbD 1 = true ↔ a.toNat / 2 % 2 = 1 := by
  rw [BitVec.getLsbD, Nat.testBit_eq_decide_div_mod_eq]
  simp

theorem toNat_parcel (a : XLen) (c : BitVec 1) :
    BitVec.toNat (a.extractLsb 31 2 ++ c) = a.toNat / 4 * 2 + c.toNat := by
  have := a.isLt
  have hc : c.toNat < 2 ^ 1 := c.isLt
  rw [BitVec.toNat_append, ← Nat.shiftLeft_add_eq_or_of_lt hc, Nat.shiftLeft_eq]
  simp only [BitVec.extractLsb, BitVec.extractLsb'_toNat, Nat.shiftRight_eq_div_pow]
  omega

theorem half_eq_parcel (a : XLen) :
    (a.getLsbD 1 = true → half a = a.extractLsb 31 2 ++ 1#1) ∧
      (a.getLsbD 1 = false →
        half a = a.extractLsb 31 2 ++ 0#1 ∧ half a + 1 = a.extractLsb 31 2 ++ 1#1) := by
  have hlt := a.isLt
  have h1 : (1 : Parcel).toNat = 1 := rfl
  refine ⟨?_, ?_⟩
  · intro h
    rw [getLsbD_one] at h
    apply BitVec.eq_of_toNat_eq
    erw [toNat_half, toNat_parcel]
    simp
    omega
  · intro h
    rw [← Bool.not_eq_true, getLsbD_one] at h
    constructor
    · apply BitVec.eq_of_toNat_eq
      erw [toNat_half, toNat_parcel]
      simp
      omega
    · apply BitVec.eq_of_toNat_eq
      erw [BitVec.toNat_add, toNat_half, toNat_parcel]
      simp
      omega

theorem half_add_two (a : XLen) : half (a + 2) = half a + 1 := by
  apply BitVec.eq_of_toNat_eq
  have h2 : (2 : XLen).toNat = 2 := rfl
  have h1 : (1 : Parcel).toNat = 1 := rfl
  rw [toNat_half, BitVec.toNat_add, BitVec.toNat_add, toNat_half, h2, h1]
  omega

theorem Aligned.add_two {a : XLen} (h : Aligned a) : Aligned (a + 2) := by
  have h2 : (2 : XLen).toNat = 2 := rfl
  unfold Aligned at *
  rw [BitVec.toNat_add, h2]
  omega

theorem Aligned.add_four {a : XLen} (h : Aligned a) : Aligned (a + 4) := by
  have h4 : (4 : XLen).toNat = 4 := rfl
  unfold Aligned at *
  rw [BitVec.toNat_add, h4]
  omega

theorem Aligned.add {a b : XLen} (ha : Aligned a) (hb : Aligned b) : Aligned (a + b) := by
  unfold Aligned at *
  rw [BitVec.toNat_add]
  omega

theorem aligned_nextWord (a : XLen) : Aligned (nextWord a) := by
  unfold Aligned
  rw [toNat_nextWord]
  omega

/-! ## Words and parcels -/

theorem lowParcel_append (x y : BitVec 16) : lowParcel (x ++ y) = y := by
  apply BitVec.eq_of_getLsbD_eq
  intro k hk
  unfold lowParcel
  rw [BitVec.getLsbD_extractLsb, BitVec.getLsbD_append]
  simp [hk]

theorem highParcel_append (x y : BitVec 16) : highParcel (x ++ y) = x := by
  apply BitVec.eq_of_getLsbD_eq
  intro k hk
  have hlt : ¬16 + k < 16 := by omega
  unfold highParcel
  rw [BitVec.getLsbD_extractLsb, BitVec.getLsbD_append]
  simp [hk]

theorem lowParcel_shift (w : BitVec 32) : lowParcel (w >>> 16) = highParcel w := by
  apply BitVec.eq_of_getLsbD_eq
  intro k hk
  unfold lowParcel highParcel
  rw [BitVec.getLsbD_extractLsb, BitVec.getLsbD_extractLsb, BitVec.getLsbD_ushiftRight]
  simp

theorem highParcel_shift (w : BitVec 32) : highParcel (w >>> 16) = 0 := by
  apply BitVec.eq_of_getLsbD_eq
  intro k hk
  unfold highParcel
  rw [BitVec.getLsbD_extractLsb, BitVec.getLsbD_ushiftRight, BitVec.getLsbD_of_ge w _ (by omega)]
  simp

theorem isRvc_eq (w : BitVec 32) : isRvc w = Realign.isCompressed (lowParcel w) := by
  have h : CompressedDecoder.bits w 1 0 = (lowParcel w).extractLsb 1 0 := by
    apply BitVec.eq_of_getLsbD_eq
    intro k hk
    have hk16 : k < 16 := by omega
    unfold lowParcel
    rw [BitVec.getLsbD_extractLsb, BitVec.getLsbD_extractLsb, BitVec.getLsbD_extractLsb]
    simp [hk16]
  unfold isRvc Realign.isCompressed
  rw [h]

/-! ## The re-aligner -/

namespace Realign

open Queue (len)

structure WordOk (H : Parcel → BitVec 16 → Prop) (i : Input) : Prop where
  aligned : Aligned i.address
  low : H (half i.address) (lower i)
  high : i.address.getLsbD 1 = false → H (half i.address + 1) (upper i)
  none : i.address.getLsbD 1 = true → upper i = 0

/-- The lower half of an instruction that waits for the word at `a`. -/
structure PendingOk (H : Parcel → BitVec 16 → Prop) (q : Regs) (a : XLen) : Prop where
  address : a = q.unalignedAddress + 2
  upper : q.unalignedAddress.toNat % 4 = 2
  stored : H (half q.unalignedAddress) q.unalignedInstr
  long : isCompressed q.unalignedInstr = false

/-- Where the next instruction starts when the word at `a` is the next one. -/
def position (q : Regs) (a : XLen) : XLen := if q.unaligned then q.unalignedAddress else a

def endPos (q : Regs) (i : Input) : XLen :=
  if (slot1 q i).valid then (slot1 q i).addr + len (slot1 q i).instr
  else if (slot0 q i).valid then (slot0 q i).addr + len (slot0 q i).instr
  else position q i.address

variable {H : Parcel → BitVec 16 → Prop} {q : Regs} {i : Input}

theorem PendingOk.address_low (hp : PendingOk H q i.address) : i.address.getLsbD 1 = false := by
  have h2 : (2 : XLen).toNat = 2 := rfl
  have hu := hp.upper
  have ha : i.address.toNat = (q.unalignedAddress.toNat + 2) % 2 ^ 32 := by
    rw [hp.address, BitVec.toNat_add, h2]
  rw [← Bool.not_eq_true, getLsbD_one]
  omega

theorem slot0_ok (hw : WordOk H i) (hp : q.unaligned = true → PendingOk H q i.address)
    (hv : (slot0 q i).valid = true) :
    (slot0 q i).addr = position q i.address ∧ Stored H (slot0 q i).addr (slot0 q i).instr := by
  refine ⟨rfl, ?_⟩
  simp only [slot0, Bool.and_eq_true, Bool.not_eq_true'] at hv
  cases hu : q.unaligned with
  | true =>
      have hp := hp hu
      have hlow : lowParcel (lower i ++ q.unalignedInstr) = q.unalignedInstr := lowParcel_append _ _
      have hhigh : highParcel (lower i ++ q.unalignedInstr) = lower i := highParcel_append _ _
      simp only [slot0, hu, if_true, Stored, hlow, hhigh]
      refine ⟨hp.stored, fun _ => ?_⟩
      rw [← half_add_two, ← hp.address]
      exact hw.low
  | false =>
      simp only [slot0, hu, Bool.false_eq_true, if_false, Stored]
      refine ⟨hw.low, ?_⟩
      intro hlong
      rw [isRvc_eq] at hlong
      have hlong : isCompressed (lower i) = false := hlong
      apply hw.high
      simpa [startsUpper, hv.1, hlong] using hv.2

theorem WordOk.addresses_low (hw : WordOk H i) (h : i.address.getLsbD 1 = false) :
    upperAddress i = i.address + 2 ∧ nextWord i.address = i.address + 4 := by
  have ha := hw.aligned
  have hlt := i.address.isLt
  have h2 : (2 : XLen).toNat = 2 := rfl
  have h4 : (4 : XLen).toNat = 4 := rfl
  rw [← Bool.not_eq_true, getLsbD_one] at h
  unfold Aligned at ha
  constructor
  · apply BitVec.eq_of_toNat_eq
    rw [toNat_upperAddress, BitVec.toNat_add, h2]
    omega
  · apply BitVec.eq_of_toNat_eq
    rw [toNat_nextWord, BitVec.toNat_add, h4]
    omega

theorem WordOk.addresses_high (hw : WordOk H i) (h : i.address.getLsbD 1 = true) :
    upperAddress i = i.address ∧ nextWord i.address = i.address + 2 := by
  have ha := hw.aligned
  have hlt := i.address.isLt
  have h2 : (2 : XLen).toNat = 2 := rfl
  rw [getLsbD_one] at h
  unfold Aligned at ha
  constructor
  · apply BitVec.eq_of_toNat_eq
    rw [toNat_upperAddress]
    omega
  · apply BitVec.eq_of_toNat_eq
    rw [toNat_nextWord, BitVec.toNat_add, h2]
    omega

theorem toNat_upperAddress_mod : (upperAddress i).toNat % 4 = 2 := by
  rw [toNat_upperAddress]
  omega

theorem add_two_two (a : XLen) : a + 2 + 2 = a + 4 := by
  rw [BitVec.add_assoc]
  rfl

theorem slot0_end (hw : WordOk H i) (hp : q.unaligned = true → PendingOk H q i.address)
    (hlow : i.address.getLsbD 1 = false) (hs : splits q i = true) :
    (slot0 q i).addr + len (slot0 q i).instr = upperAddress i := by
  rw [(hw.addresses_low hlow).1]
  cases hu : q.unaligned with
  | true =>
      have hp := hp hu
      have hlong : isRvc (lower i ++ q.unalignedInstr) = false := by
        rw [isRvc_eq]
        erw [lowParcel_append]
        exact hp.long
      simp only [slot0, hu, if_true, len, hlong, Bool.false_eq_true, if_false]
      rw [hp.address, add_two_two]
  | false =>
      have hshort : isRvc i.data = true := by
        rw [isRvc_eq]
        simp only [splits, hu, Bool.or_false] at hs
        exact hs
      simp [slot0, hu, len, hshort]

theorem slot1_ok (hw : WordOk H i) (hp : q.unaligned = true → PendingOk H q i.address)
    (hv : (slot1 q i).valid = true) :
    (slot0 q i).valid = true ∧ (slot1 q i).addr = (slot0 q i).addr + len (slot0 q i).instr ∧
      Stored H (slot1 q i).addr (slot1 q i).instr ∧ len (slot1 q i).instr = 2 := by
  simp only [slot1, Bool.and_eq_true, Bool.not_eq_true'] at hv
  obtain ⟨⟨⟨hvalid, hs⟩, hc⟩, hstart⟩ := hv
  have hlow : i.address.getLsbD 1 = false := by simpa [startsUpper, hvalid] using hstart
  have hinstr : (slot1 q i).instr = 0#16 ++ upper i := by simp [slot1, hs, hc]
  have hparcel : lowParcel (0#16 ++ upper i) = upper i := lowParcel_append _ _
  have hrvc : isRvc (0#16 ++ upper i) = true := by
    rw [isRvc_eq, hparcel]
    exact hc
  refine ⟨by simp [slot0, hvalid, hstart], (slot0_end hw hp hlow hs).symm, ?_, ?_⟩
  · rw [hinstr]
    refine ⟨?_, ?_⟩
    · show H (half (upperAddress i)) (lowParcel (0#16 ++ upper i))
      rw [(hw.addresses_low hlow).1, half_add_two, hparcel]
      exact hw.high hlow
    · intro hlong
      rw [hrvc] at hlong
      simp at hlong
  · rw [hinstr, len, hrvc]
    rfl

/-- Fetching goes on where the instructions of the word end. -/
theorem next_ok (hw : WordOk H i) (hp : q.unaligned = true → PendingOk H q i.address)
    (hvalid : i.valid = true) (hflush : i.flush = false) :
    position (next q i) (nextWord i.address) = endPos q i ∧
      ((next q i).unaligned = true → PendingOk H (next q i) (nextWord i.address)) := by
  have hun : (next q i).unaligned = unalignedD q i := by simp [next, hflush, hvalid]
  have haddr : (next q i).unalignedAddress = upperAddress i := by simp [next, hvalid]
  have hinstr : (next q i).unalignedInstr = unalignedInstrD i := by simp [next, hvalid]
  simp only [position, endPos, hun, haddr]
  cases hlow : i.address.getLsbD 1 with
  | true =>
      obtain ⟨hup, hnext⟩ := hw.addresses_high hlow
      have hstart : startsUpper i = true := by simp [startsUpper, hvalid, hlow]
      have hq : q.unaligned = false := by
        cases hu : q.unaligned with
        | false => rfl
        | true => exact absurd ((hp hu).address_low.symm.trans hlow) (by decide)
      have hs1 : (slot1 q i).valid = false := by simp [slot1, hstart]
      cases hc : isCompressed (lower i) with
      | false =>
          have hd : unalignedD q i = true := by simp [unalignedD, hstart, hc]
          have hs0 : (slot0 q i).valid = false := by simp [slot0, hstart, hc]
          refine ⟨by simp [hd, hs1, hs0, hup, hq], fun _ => ⟨?_, ?_, ?_, ?_⟩⟩
          · rw [haddr, hup, hnext]
          · rw [haddr]
            exact toNat_upperAddress_mod
          · rw [haddr, hup, hinstr]
            simpa [unalignedInstrD, hstart, hc] using hw.low
          · rw [hinstr]
            simp [unalignedInstrD, hstart, hc]
      | true =>
          have hd : unalignedD q i = false := by
            have hzero : isCompressed (upper i) = true := by
              rw [hw.none hlow]
              rfl
            simp [unalignedD, hstart, hc, splits, hzero]
          have hs0 : (slot0 q i).valid = true := by simp [slot0, hstart, hc, hvalid]
          have hshort : isRvc i.data = true := by
            rw [isRvc_eq]
            exact hc
          refine ⟨?_, by simp [hd]⟩
          simp only [hd, hs1, hs0, Bool.false_eq_true, if_false, if_true, hnext]
          simp [slot0, hq, len, hshort]
  | false =>
      obtain ⟨hup, hnext⟩ := hw.addresses_low hlow
      have hstart : startsUpper i = false := by simp only [startsUpper, hlow, Bool.and_false]
      have hs0 : (slot0 q i).valid = true := by simp [slot0, hstart, hvalid]
      cases hs : splits q i with
      | false =>
          have hq : q.unaligned = false := by
            simp only [splits, Bool.or_eq_false_iff] at hs
            exact hs.2
          have hs1 : (slot1 q i).valid = false := by simp [slot1, hs]
          have hd : unalignedD q i = false := by simp [unalignedD, hstart, hs, hq]
          have hlong : isRvc i.data = false := by
            rw [isRvc_eq]
            simp only [splits, Bool.or_eq_false_iff] at hs
            exact hs.1
          refine ⟨?_, by simp [hd]⟩
          simp only [hd, hs1, hs0, Bool.false_eq_true, if_false, if_true, hnext]
          simp [slot0, hq, len, hlong]
      | true =>
          have hend := slot0_end hw hp hlow hs
          cases hc : isCompressed (upper i) with
          | true =>
              have hs1 : (slot1 q i).valid = true := by simp [slot1, hvalid, hs, hc, hstart]
              have hd : unalignedD q i = false := by simp [unalignedD, hstart, hs, hc]
              obtain ⟨-, -, -, hlen⟩ := slot1_ok hw hp hs1
              refine ⟨?_, by simp [hd]⟩
              simp only [hd, hs1, hlen, Bool.false_eq_true, if_false, if_true]
              show nextWord i.address = upperAddress i + 2
              rw [hup, hnext, add_two_two]
          | false =>
              have hs1 : (slot1 q i).valid = false := by simp [slot1, hc]
              have hd : unalignedD q i = true := by simp [unalignedD, hstart, hs, hc]
              refine ⟨by simp [hd, hs1, hs0, hend], fun _ => ⟨?_, ?_, ?_, ?_⟩⟩
              · rw [haddr, hup, hnext, add_two_two]
              · rw [haddr]
                exact toNat_upperAddress_mod
              · rw [haddr, hup, hinstr, half_add_two]
                simpa [unalignedInstrD, hstart] using hw.high hlow
              · rw [hinstr]
                simpa [unalignedInstrD, hstart] using hc

end Realign

end Cva6.Frontend
