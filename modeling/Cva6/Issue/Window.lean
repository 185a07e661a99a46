import Cva6.Issue.Scoreboard
/-!
# The window of issued slots

The issued slots of the scoreboard are the window between the commit pointer and
the issue pointer. A cycle drops the acknowledged slots at one end, adds the issued one at the
other, and writes back to those in between.
-/

namespace Cva6.Issue.Scoreboard

open Cva6.Sync

/-- The shape of the queue. -/
structure Ok (q : Regs) : Prop where
  issued_iff : ∀ n, (q.mem n).issued = true ↔
    Ring.InWindow q.commitPointer0 q.issueCnt.toNat n
  issuePointer_eq : q.issuePointer = Ring.slot q.commitPointer0 q.issueCnt.toNat
  valid_issued : ∀ n, (q.mem n).sbe.valid = true → (q.mem n).issued = true
  commitPointer1_eq : q.issueCnt ≠ 0 → q.commitPointer1 = q.commitPointer0 + 1

theorem reset_ok : Ok reset where
  issued_iff := by simp [reset]
  issuePointer_eq := by simp [reset]
  valid_issued := by simp [reset, default]
  commitPointer1_eq := by simp [reset]

def acks (a : CommitAck) : Nat := (if a.ack0 then 1 else 0) + (if a.ack1 then 1 else 0)

theorem numCommit_eq (a : CommitAck) : numCommit a = BitVec.ofNat 3 (acks a) := by
  obtain ⟨ack0, ack1⟩ := a
  cases ack0 <;> cases ack1 <;> rfl

def ackedSlot (q : Regs) (i : Input) (n : TransId) : Bool :=
  (i.commitAck.ack0 && n == q.commitPointer0) || (i.commitAck.ack1 && n == q.commitPointer1)

variable {q : Regs} {i : Input}

theorem Ok.count_pos_of_valid0 (h : Ok q) (hv : (commitInstr q).instr0.valid = true) :
    0 < q.issueCnt.toNat := by
  obtain ⟨k, hk, -⟩ := (h.issued_iff _).mp (h.valid_issued q.commitPointer0 hv)
  omega

theorem Ok.commitPointer1_of_pos (h : Ok q) (hpos : 0 < q.issueCnt.toNat) :
    q.commitPointer1 = q.commitPointer0 + 1 := by
  refine h.commitPointer1_eq ?_
  intro hzero
  simp [hzero] at hpos

theorem Ok.acks_le (h : Ok q) (ha : AckLegal q i) : acks i.commitAck ≤ q.issueCnt.toNat := by
  obtain ⟨h0, h1⟩ := ha
  unfold acks
  cases ha0 : i.commitAck.ack0 with
  | false =>
      have : i.commitAck.ack1 = false := by
        by_contra hne
        have := (h1 (by simpa using hne)).1
        simp [ha0] at this
      simp [this]
  | true =>
      have hpos := h.count_pos_of_valid0 (h0 ha0)
      cases ha1 : i.commitAck.ack1 with
      | false =>
          simp
          omega
      | true =>
          have hcp1 := h.commitPointer1_of_pos hpos
          have hw := (h.issued_iff _).mp (h.valid_issued q.commitPointer1 (h1 ha1).2)
          rw [hcp1, Ring.inWindow_iff_sub (by omega), BitVec.add_comm, BitVec.add_sub_cancel] at hw
          have hw : 1 < q.issueCnt.toNat := by simpa using hw
          simp
          omega

theorem Ok.inWindow_acks (h : Ok q) (ha : AckLegal q i) (n : TransId) :
    Ring.InWindow q.commitPointer0 (acks i.commitAck) n ↔
      ackedSlot q i n = true := by
  have hle := h.acks_le ha
  unfold acks at hle
  unfold acks ackedSlot
  cases ha1 : i.commitAck.ack1 with
  | false => cases ha0 : i.commitAck.ack0 <;> simp [Ring.inWindow_cons]
  | true =>
      have ha0 := (ha.2 ha1).1
      have hcp1 := h.commitPointer1_of_pos (by rw [ha0] at hle; simp at hle; omega)
      simp [ha0, hcp1, Ring.inWindow_cons]

/-! ## One clock edge -/

@[simp] theorem writeBack_issued (n : TransId) (s : Slot) (p : WbPort) :
    (writeBack q i n s p).issued = s.issued := by
  unfold writeBack
  split <;> rfl

@[simp] theorem foldl_writeBack_issued (n : TransId) (wb : List WbPort) (s : Slot) :
    (wb.foldl (writeBack q i n) s).issued = s.issued := by
  induction wb generalizing s with
  | nil => rfl
  | cons p wb ih => rw [List.foldl_cons, ih, writeBack_issued]

/-- A slot is filled by issuing into it and emptied by acknowledging it. -/
theorem issueFifo_issued (n : TransId) (hf : i.flush = false) :
    (issueFifo q i n).issued =
      (((issueEn q i && n == q.issuePointer) || (q.mem n).issued) && !ackedSlot q i n) := by
  simp only [issueFifo, ackedSlot, hf, Bool.false_eq_true, if_false, apply_ite Slot.issued, Slot.clear, Slot.complete,
    foldl_writeBack_issued, ite_self]
  cases i.commitAck.ack0 && n == q.commitPointer0 <;>
    cases i.commitAck.ack1 && n == q.commitPointer1 <;>
    cases issueEn q i && n == q.issuePointer <;> simp

theorem issueFifo_flush (n : TransId) (hf : i.flush = true) :
    (issueFifo q i n).issued = false ∧ (issueFifo q i n).sbe.valid = false := by
  simp [issueFifo, hf, Slot.flush, Slot.clear]

theorem foldl_writeBack_valid (n : TransId) (hn : (q.mem n).issued = false) (wb : List WbPort)
    (s : Slot) : wb.foldl (writeBack q i n) s = s := by
  induction wb generalizing s with
  | nil => rfl
  | cons p wb ih =>
      have : writeBack q i n s p = s := by simp [writeBack, hn]
      rw [List.foldl_cons, this, ih]

theorem Ok.issuePointer_free (h : Ok q) : (q.mem q.issuePointer).issued = false := by
  have hfree : ¬Ring.InWindow q.commitPointer0 q.issueCnt.toNat q.issuePointer := by
    rw [h.issuePointer_eq]
    exact Ring.slot_not_inWindow q.issueCnt.isLt
  rw [← h.issued_iff] at hfree
  simpa using hfree

theorem issueCnt_lt_of_issueEn (hen : issueEn q i = true) : q.issueCnt.toNat < 7 := by
  have hfull : q.issueCnt ≠ 7 := by
    simp [issueEn, decodedInstrAck, issueFull] at hen
    exact hen.1.2.2
  have hlt := q.issueCnt.isLt
  have hne : q.issueCnt.toNat ≠ 7 := by
    intro heq
    exact hfull (BitVec.eq_of_toNat_eq (by simpa using heq))
  omega

/-- The counter neither wraps around on issue nor on commit. -/
theorem Ok.issueCnt_next (h : Ok q) (ha : AckLegal q i) (hf : i.flush = false) :
    (next q i).issueCnt.toNat =
      q.issueCnt.toNat - acks i.commitAck + if issueEn q i then 1 else 0 := by
  have hle := h.acks_le ha
  have hlt := q.issueCnt.isLt
  show (if i.flush then 0 else q.issueCnt - numCommit i.commitAck +
    if issueEn q i then 1 else 0 : BitVec 3).toNat = _
  rw [hf, numCommit_eq]
  cases hen : issueEn q i with
  | true =>
      have := issueCnt_lt_of_issueEn hen
      simp [BitVec.toNat_add, BitVec.toNat_sub]
      omega
  | false =>
      simp [BitVec.toNat_sub]
      omega

theorem commitPointer0_next (hf : i.flush = false) :
    (next q i).commitPointer0 = Ring.slot q.commitPointer0 (acks i.commitAck) := by
  show (if i.flush then 0 else q.commitPointer0 + numCommit i.commitAck) = _
  rw [hf, numCommit_eq]
  rfl

theorem Ok.next_of_flush (hf : i.flush = true) : Ok (next q i) where
  issued_iff := by
    intro n
    simp [next, hf, (issueFifo_flush n hf).1]
  issuePointer_eq := by simp [next, hf]
  valid_issued := by
    intro n hv
    simp [next, (issueFifo_flush n hf).2] at hv
  commitPointer1_eq := by simp [next, hf]

theorem Ok.next_issued_iff (h : Ok q) (ha : AckLegal q i) (hf : i.flush = false) (n : TransId) :
    ((next q i).mem n).issued = true ↔
      Ring.InWindow (next q i).commitPointer0 (next q i).issueCnt.toNat n := by
  have hle := h.acks_le ha
  have hlt := q.issueCnt.isLt
  have hdrop := Ring.inWindow_drop q.commitPointer0 n hle hlt.le
  rw [h.issueCnt_next ha hf, commitPointer0_next hf]
  show (issueFifo q i n).issued = true ↔ _
  rw [issueFifo_issued n hf]
  simp only [Bool.and_eq_true, Bool.not_eq_true', ← Bool.not_eq_true, ← h.inWindow_acks ha]
  cases hen : issueEn q i with
  | false =>
      simp only [Bool.false_and, Bool.false_or, h.issued_iff]
      exact hdrop.symm
  | true =>
      -- the slot issued into lies behind the window, so it is not acknowledged
      have hfree : n = q.issuePointer → ¬Ring.InWindow q.commitPointer0 (acks i.commitAck) n := by
        rintro rfl ⟨k, hk, heq⟩
        have hin := (h.issued_iff q.issuePointer).mpr ⟨k, by omega, heq⟩
        simp [h.issuePointer_free] at hin
      simp only [Bool.true_and, Bool.or_eq_true, beq_iff_eq, h.issued_iff, if_true]
      rw [Ring.inWindow_snoc, hdrop, Ring.slot_slot, Nat.add_sub_cancel' hle, ← h.issuePointer_eq]
      constructor
      · rintro ⟨hn | hn, hnot⟩
        · exact .inr hn
        · exact .inl ⟨hn, hnot⟩
      · rintro (⟨hn, hnot⟩ | hn)
        · exact ⟨.inr hn, hnot⟩
        · exact ⟨.inl hn, hfree hn⟩

theorem Ok.next_valid_issued (h : Ok q) (hf : i.flush = false) (n : TransId)
    (hv : ((next q i).mem n).sbe.valid = true) : ((next q i).mem n).issued = true := by
  show (issueFifo q i n).issued = true
  have hv : (issueFifo q i n).sbe.valid = true := hv
  have hack : ackedSlot q i n = false := by
    by_contra hne
    rw [Bool.not_eq_false, ackedSlot, Bool.or_eq_true] at hne
    unfold issueFifo at hv
    rcases hne with hne | hne
    · simp only [hf, hne, Bool.false_eq_true, if_false, if_true, Slot.clear, ite_self] at hv
    · simp only [hf, hne, Bool.false_eq_true, if_false, if_true, Slot.clear] at hv
  rw [issueFifo_issued n hf, hack]
  cases hold : (q.mem n).issued with
  | true => simp
  | false =>
      cases hen : issueEn q i && n == q.issuePointer with
      | true => simp
      | false =>
          have hold' : (q.mem n).sbe.valid = false := by
            by_contra hne
            have := h.valid_issued n (by simpa using hne)
            simp [hold] at this
          simp only [ackedSlot, Bool.or_eq_false_iff] at hack
          simp [issueFifo, hf, hack, hen, hold, foldl_writeBack_valid n hold, hold'] at hv

theorem Ok.next (h : Ok q) (ha : AckLegal q i) : Ok (next q i) := by
  cases hf : i.flush with
  | true => exact Ok.next_of_flush hf
  | false =>
      refine ⟨h.next_issued_iff ha hf, ?_, h.next_valid_issued hf, ?_⟩
      · have hle := h.acks_le ha
        show (if i.flush then 0 else q.issuePointer + if issueEn q i then 1 else 0) = _
        rw [commitPointer0_next hf, h.issueCnt_next ha hf, Ring.slot_slot, hf, h.issuePointer_eq]
        have hsum : acks i.commitAck + (q.issueCnt.toNat - acks i.commitAck +
            if issueEn q i then 1 else 0) = q.issueCnt.toNat + if issueEn q i then 1 else 0 := by
          omega
        rw [hsum]
        cases issueEn q i with
        | true => simp [Ring.slot_succ_right]
        | false => simp
      · intro _
        simp [Scoreboard.next, hf]

/-! ## What a cycle does to a slot -/

theorem Ok.issueFifo_staying {n : TransId} (h : Ok q) (hn : (q.mem n).issued = true)
    (hf : i.flush = false) (hack : ackedSlot q i n = false) :
    issueFifo q i n = i.wb.foldl (writeBack q i n)
      (if (q.mem n).sbe.fu == .NONE then (q.mem n).complete else q.mem n) := by
  have hip : (issueEn q i && n == q.issuePointer) = false := by
    have hne : n ≠ q.issuePointer := by
      rintro rfl
      simp [h.issuePointer_free] at hn
    simp [hne]
  simp only [ackedSlot, Bool.or_eq_false_iff] at hack
  simp [issueFifo, hip, hack, hf, hn]

theorem foldl_writeBack_ex (n : TransId) (wb : List WbPort) {s : Slot}
    (hs : s.sbe.ex.valid = true) : (wb.foldl (writeBack q i n) s).sbe.ex.valid = true := by
  induction wb generalizing s with
  | nil => exact hs
  | cons p wb ih =>
      refine ih ?_
      unfold writeBack
      split
      · simp only [apply_ite Exception.valid, hs]
        split <;> simp_all
      · exact hs

/-- The exception of a slot that no floating-point unit writes is the one it had or that
of a port. -/
theorem foldl_writeBack_ex_cases {n : TransId}
    (hfu : (q.mem n).sbe.fu ≠ .FPU ∧ (q.mem n).sbe.fu ≠ .FPU_VEC)
    (wb : List WbPort) (s : Slot) :
    (wb.foldl (writeBack q i n) s).sbe.ex = s.sbe.ex ∨
      ∃ p ∈ wb, p.valid = true ∧ p.ex.valid = true ∧
        (wb.foldl (writeBack q i n) s).sbe.ex = p.ex := by
  induction wb generalizing s with
  | nil => exact .inl rfl
  | cons p wb ih =>
      have hstep : (writeBack q i n s p).sbe.ex = s.sbe.ex ∨
          p.valid = true ∧ p.ex.valid = true ∧ (writeBack q i n s p).sbe.ex = p.ex := by
        have hfu : ((q.mem n).sbe.fu == .FPU || (q.mem n).sbe.fu == .FPU_VEC) = false := by
          simp [hfu]
        unfold writeBack
        split
        case isTrue hc =>
          simp only [Bool.and_eq_true] at hc
          simp only [hfu, Bool.false_eq_true, if_false]
          cases hex : p.ex.valid with
          | false => exact .inl rfl
          | true => exact .inr ⟨hc.1.1, rfl, rfl⟩
        case isFalse => exact .inl rfl
      rw [List.foldl_cons]
      rcases ih (writeBack q i n s p) with hrest | ⟨p', hp', hport⟩
      · rw [hrest]
        rcases hstep with hsame | hport
        · exact .inl hsame
        · exact .inr ⟨p, List.mem_cons_self, hport⟩
      · exact .inr ⟨p', List.mem_cons_of_mem _ hp', hport⟩

theorem writeBack_of_no_ex {n : TransId} {s : Slot} {p : WbPort} (hex : p.ex.valid = false) :
    (writeBack q i n s p).sbe.ex.valid = s.sbe.ex.valid ∧
      (writeBack q i n s p).sbe.valid =
        (s.sbe.valid || (p.valid && p.transId == n && (q.mem n).issued)) := by
  unfold writeBack
  cases p.valid && p.transId == n && (q.mem n).issued with
  | false => simp
  | true =>
      simp only [if_true, hex, Bool.false_eq_true, if_false, Bool.or_true, and_true]
      split_ifs <;> rfl

theorem AckLegal.valid_of_ackedSlot {n : TransId} (ha : AckLegal q i) (h : ackedSlot q i n = true) :
    (q.mem n).sbe.valid = true := by
  simp only [ackedSlot, Bool.or_eq_true, Bool.and_eq_true, beq_iff_eq] at h
  rcases h with ⟨h0, rfl⟩ | ⟨h1, rfl⟩
  · exact ha.1 h0
  · exact (ha.2 h1).2

theorem foldl_writeBack_of_no_port {n : TransId} {wb : List WbPort}
    (hwb : ∀ p ∈ wb, p.valid = true → p.transId ≠ n) (s : Slot) :
    wb.foldl (writeBack q i n) s = s := by
  induction wb generalizing s with
  | nil => rfl
  | cons p wb ih =>
      obtain ⟨hp, hwb⟩ := List.forall_mem_cons.mp hwb
      have hskip : writeBack q i n s p = s := by
        unfold writeBack
        refine if_neg ?_
        simp only [Bool.and_eq_true, beq_iff_eq]
        rintro ⟨⟨hv, hid⟩, -⟩
        exact hp hv hid
      rw [List.foldl_cons, hskip, ih hwb]

theorem foldl_writeBack_of_port {n : TransId} (hn : (q.mem n).issued = true) {wb : List WbPort}
    (hwb : wb.Pairwise fun p p' => p.valid = true → p'.valid = true → p.transId ≠ p'.transId)
    {p : WbPort} (hp : p ∈ wb) (hv : p.valid = true) (hid : p.transId = n) (s : Slot) :
    (wb.foldl (writeBack q i n) s).sbe.valid = true ∧
      (wb.foldl (writeBack q i n) s).sbe.result = p.data := by
  induction wb generalizing s with
  | nil => cases hp
  | cons p' wb ih =>
      obtain ⟨hp', hwb⟩ := List.pairwise_cons.mp hwb
      rw [List.foldl_cons]
      rcases List.mem_cons.mp hp with rfl | hp
      · have hrest : ∀ p' ∈ wb, p'.valid = true → p'.transId ≠ n := by
          intro p' hmem hv'
          rw [← hid]
          exact (hp' p' hmem hv hv').symm
        rw [foldl_writeBack_of_no_port hrest]
        simp [writeBack, hv, hid, hn]
      · exact ih hwb hp _

theorem Ok.issueFifo_new (h : Ok q) (ha : AckLegal q i) (hf : i.flush = false)
    (hen : issueEn q i = true) :
    issueFifo q i q.issuePointer = ⟨true, isRdFpr i.decodedInstr.op, i.decodedInstr⟩ := by
  have hfree := h.issuePointer_free
  have hack : ackedSlot q i q.issuePointer = false := by
    by_contra hne
    obtain ⟨k, hk, heq⟩ := (h.inWindow_acks ha q.issuePointer).mpr (Bool.not_eq_false _ ▸ hne)
    have hle := h.acks_le ha
    have hin := (h.issued_iff q.issuePointer).mpr ⟨k, by omega, heq⟩
    simp [hfree] at hin
  simp only [ackedSlot, Bool.or_eq_false_iff] at hack
  simp [issueFifo, hen, hfree, hf, hack, foldl_writeBack_valid _ hfree]

theorem Ok.window_next {α : Type*} (h : Ok q) (ha : AckLegal q i) (hf : i.flush = false)
    (f : TransId → α) :
    Ring.window f (Scoreboard.next q i).commitPointer0 (Scoreboard.next q i).issueCnt.toNat =
      Ring.window f (Ring.slot q.commitPointer0 (acks i.commitAck))
        (q.issueCnt.toNat - acks i.commitAck) ++
      if issueEn q i then [f q.issuePointer] else [] := by
  have hle := h.acks_le ha
  rw [commitPointer0_next hf, h.issueCnt_next ha hf]
  cases hen : issueEn q i with
  | false => simp
  | true =>
      rw [Ring.window_add]
      simp [Ring.window_cons, Ring.slot_slot, Nat.add_sub_cancel' hle, ← h.issuePointer_eq]

theorem Ok.staying_iff (h : Ok q) (ha : AckLegal q i) (n : TransId) :
    Ring.InWindow (Ring.slot q.commitPointer0 (acks i.commitAck))
        (q.issueCnt.toNat - acks i.commitAck) n ↔
      (q.mem n).issued = true ∧ ackedSlot q i n = false := by
  rw [Ring.inWindow_drop _ _ (h.acks_le ha) q.issueCnt.isLt.le, h.issued_iff, h.inWindow_acks ha,
    Bool.not_eq_true]

def age (q : Regs) (n : TransId) : Nat := (n - q.commitPointer0).toNat

theorem age_commitPointer0 (q : Regs) : age q q.commitPointer0 = 0 := by
  simp [age]

/-- A slot that stays in flight comes closer by the number of acknowledged ones. -/
theorem Ok.age_next {n : TransId} (h : Ok q) (ha : AckLegal q i) (hf : i.flush = false)
    (hn : (q.mem n).issued = true) (hack : ackedSlot q i n = false) :
    age q n = acks i.commitAck + age (Scoreboard.next q i) n := by
  have hlt := q.issueCnt.isLt
  obtain ⟨k, hk, rfl⟩ := (h.staying_iff ha n).mpr ⟨hn, hack⟩
  have hold : age q (Ring.slot (Ring.slot q.commitPointer0 (acks i.commitAck)) k) =
      acks i.commitAck + k := by
    rw [Ring.slot_slot]
    exact Ring.sub_slot _ (by omega)
  have hnew : age (Scoreboard.next q i)
      (Ring.slot (Ring.slot q.commitPointer0 (acks i.commitAck)) k) = k := by
    rw [age, commitPointer0_next hf]
    exact Ring.sub_slot _ (by omega)
  rw [hold, hnew]

theorem Ok.age_lt_new {n : TransId} (h : Ok q) (ha : AckLegal q i) (hf : i.flush = false)
    (hn : (q.mem n).issued = true) (hack : ackedSlot q i n = false) :
    age (Scoreboard.next q i) n < age (Scoreboard.next q i) q.issuePointer := by
  have hlt := q.issueCnt.isLt
  have hle := h.acks_le ha
  obtain ⟨k, hk, rfl⟩ := (h.staying_iff ha n).mpr ⟨hn, hack⟩
  have hptr : q.issuePointer = Ring.slot (Ring.slot q.commitPointer0 (acks i.commitAck))
      (q.issueCnt.toNat - acks i.commitAck) := by
    rw [Ring.slot_slot, Nat.add_sub_cancel' hle]
    exact h.issuePointer_eq
  rw [hptr, age, age, commitPointer0_next hf, Ring.sub_slot _ (by omega),
    Ring.sub_slot _ (by omega)]
  exact hk

end Cva6.Issue.Scoreboard
