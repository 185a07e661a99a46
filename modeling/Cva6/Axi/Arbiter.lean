import Cva6.Axi.Bus
/-!
# The arbiter of the adapter

The arbiter is locked on the requests it has seen until one is granted, and the shim
keeps a write selected until both of its channels have taken it. Hence a grant is
always one of the selected request, on the channel that request asks for.
-/

namespace Cva6.Axi

open Cva6.Sync Cva6.Dcache

def MemReq.isWrite (r : MemReq) : Bool := r.rtype == .STORE || MemReq.writesAmo r

structure ArbOk (q : Regs) : Prop where
  fill : q.lock = true → q.req0 = true → arbReq0 q = true
  data : q.lock = true → q.req1 = true → arbReq1 q = true
  any : q.lock = true → (q.req0 || q.req1) = true
  write : q.wrState ≠ .IDLE → wrReq q = true

variable {q : Regs} {i : Input}

/-! ## The selected request -/

theorem reqD_any (h : ArbOk q) (ha : arbAny q = true) : (reqD0 q || reqD1 q) = true := by
  unfold reqD0 reqD1
  cases hl : q.lock with
  | false => simpa [arbAny] using ha
  | true => simpa using h.any hl

theorem ArbOk.arbReq0_of_reqD0 (h : ArbOk q) (hr : reqD0 q = true) : arbReq0 q = true := by
  unfold reqD0 at hr
  split_ifs at hr with hl
  · exact h.fill hl hr
  · exact hr

theorem ArbOk.arbReq1_of_reqD1 (h : ArbOk q) (hr : reqD1 q = true) : arbReq1 q = true := by
  unfold reqD1 at hr
  split_ifs at hr with hl
  · exact h.data hl hr
  · exact hr

theorem ArbOk.arbReq0_of_idx (h : ArbOk q) (hi : arbIdx q = false) : arbReq0 q = true := by
  apply h.arbReq0_of_reqD0
  unfold arbIdx at hi
  simp only [Bool.or_eq_false_iff, Bool.not_eq_false'] at hi
  exact hi.1

theorem ArbOk.arbReq1_of_idx (h : ArbOk q) (ha : arbAny q = true) (hi : arbIdx q = true) :
    arbReq1 q = true := by
  apply h.arbReq1_of_reqD1
  have hany := reqD_any h ha
  unfold arbIdx at hi
  cases h0 : reqD0 q with
  | false => simpa [h0] using hany
  | true =>
      simp only [h0, Bool.not_true, Bool.false_or, Bool.and_eq_true] at hi
      exact hi.1

theorem wrReq_eq : wrReq q = (arbAny q && arbIdx q && MemReq.isWrite (dcacheHead q)) := by
  simp only [wrReq, selects, MemReq.isWrite, MemReq.writesAmo]
  cases arbAny q <;> cases arbIdx q <;> simp

theorem rdReq_eq : rdReq q = (arbAny q && !(arbIdx q && MemReq.isWrite (dcacheHead q))) := by
  simp only [rdReq, selects, MemReq.isWrite, MemReq.writesAmo]
  cases arbAny q <;> cases arbIdx q <;> cases (dcacheHead q).rtype <;>
    cases (dcacheHead q).amoOp <;> rfl

theorem ArbOk.wrReq_of_wrGnt (h : ArbOk q) (hg : wrGnt q i = true) : wrReq q = true := by
  unfold wrGnt at hg
  cases hs : q.wrState with
  | IDLE =>
      simp only [hs, Bool.and_eq_true] at hg
      exact hg.1.1
  | WAIT_AW_READY => exact h.write (by simp [hs])
  | WAIT_LAST_W_READY => exact h.write (by simp [hs])

/-! ## Grants -/

theorem ArbOk.ack0 (h : ArbOk q) (ha : arbAck0 q i = true) :
    arbReq0 q = true ∧ rdGnt q i = true := by
  simp only [arbAck0, arbGnt, Bool.and_eq_true, Bool.or_eq_true, Bool.not_eq_true'] at ha
  obtain ⟨hg, hi⟩ := ha
  refine ⟨h.arbReq0_of_idx hi, ?_⟩
  rcases hg with hr | hw
  · exact hr
  · have hreq := h.wrReq_of_wrGnt hw
    simp [wrReq_eq, hi] at hreq

theorem ArbOk.ack1 (h : ArbOk q) (ha : arbAck1 q i = true) :
    arbReq1 q = true ∧ wrGnt q i = MemReq.isWrite (dcacheHead q) ∧
      rdGnt q i = !MemReq.isWrite (dcacheHead q) := by
  simp only [arbAck1, arbGnt, Bool.and_eq_true, Bool.or_eq_true] at ha
  obtain ⟨hg, hi⟩ := ha
  have hany : arbAny q = true := by
    rcases hg with hr | hw
    · simp only [rdGnt, rdReq_eq, Bool.and_eq_true] at hr
      exact hr.1.1
    · have hreq := h.wrReq_of_wrGnt hw
      simp only [wrReq_eq, Bool.and_eq_true] at hreq
      exact hreq.1.1
  refine ⟨h.arbReq1_of_idx hany hi, ?_⟩
  cases hw : MemReq.isWrite (dcacheHead q) with
  | false =>
      have hnw : wrGnt q i = false := by
        by_contra hc
        have hreq := h.wrReq_of_wrGnt (by simpa using hc)
        simp [wrReq_eq, hw] at hreq
      exact ⟨hnw, by simpa [hnw] using hg⟩
  | true =>
      have hnr : rdGnt q i = false := by simp [rdGnt, rdReq_eq, hi, hw]
      exact ⟨by simpa [hnr] using hg, by simp [hnr]⟩

theorem ArbOk.push0 (h : ArbOk q) : (arbAck0 q i && rdGnt q i) = arbAck0 q i := by
  cases ha : arbAck0 q i with
  | false => rfl
  | true => simp [(h.ack0 ha).2]

theorem ArbOk.push1_rd (h : ArbOk q) :
    (arbAck1 q i && rdGnt q i) = (arbAck1 q i && !MemReq.isWrite (dcacheHead q)) := by
  cases ha : arbAck1 q i with
  | false => rfl
  | true => simp [(h.ack1 ha).2.2]

theorem ArbOk.push1_wr (h : ArbOk q) :
    (arbAck1 q i && wrGnt q i) = (arbAck1 q i && MemReq.isWrite (dcacheHead q)) := by
  cases ha : arbAck1 q i with
  | false => rfl
  | true => simp [(h.ack1 ha).2.1]

theorem ArbOk.invalidate_eq (h : ArbOk q) :
    invalidate q i = (arbAck1 q i && (dcacheHead q).rtype == .ATOMIC) := by
  have hany : arbGnt q i = true → arbAny q = true := by
    intro hg
    simp only [arbGnt, Bool.or_eq_true] at hg
    rcases hg with hr | hw
    · simp only [rdGnt, rdReq_eq, Bool.and_eq_true] at hr
      exact hr.1.1
    · have hreq := h.wrReq_of_wrGnt hw
      simp only [wrReq_eq, Bool.and_eq_true] at hreq
      exact hreq.1.1
  unfold invalidate selects arbAck1
  cases hg : arbGnt q i with
  | false => simp
  | true => simp [hany hg]

/-! ## The queues of the adapter -/

theorem arbReq0_iff : arbReq0 q = true ↔ q.icacheData.contents ≠ [] ∧ q.rdIcacheId.full = false := by
  unfold arbReq0
  rw [Bool.not_eq_true', Bool.or_eq_false_iff, ← Bool.not_eq_true, Fifo.empty_iff]

theorem arbReq1_iff : arbReq1 q = true ↔
    q.dcacheData.contents ≠ [] ∧ q.wrDcacheId.full = false ∧ q.rdDcacheId.full = false := by
  unfold arbReq1
  rw [Bool.not_eq_true', Bool.or_eq_false_iff, Bool.or_eq_false_iff, ← Bool.not_eq_true,
    Fifo.empty_iff, and_assoc]

theorem icacheData_next : (next q i).icacheData.contents =
    q.icacheData.contents.drop (if arbAck0 q i then 1 else 0) ++
      if icacheDataAck q i then [i.icacheData] else [] := by
  have hack : (icacheDataAck q i && !q.icacheData.full) = icacheDataAck q i := by
    unfold icacheDataAck
    cases i.icacheDataReq <;> simp
  simp only [next, Fifo.contents_step, hack]

theorem dcacheData_next : (next q i).dcacheData.contents =
    q.dcacheData.contents.drop (if arbAck1 q i then 1 else 0) ++
      if dcacheDataAck q i then [i.dcacheData] else [] := by
  have hack : (dcacheDataAck q i && !q.dcacheData.full) = dcacheDataAck q i := by
    unfold dcacheDataAck
    cases i.dcacheDataReq <;> simp
  simp only [next, Fifo.contents_step, hack]

theorem icacheData_cons (h : arbReq0 q = true) :
    q.icacheData.contents = icacheHead q :: q.icacheData.contents.tail := by
  have hne := (arbReq0_iff.mp h).1
  cases hc : q.icacheData.contents with
  | nil => exact absurd hc hne
  | cons x l => rw [icacheHead, Fifo.mem_readPointer _ hc, List.tail_cons]

theorem dcacheData_cons (h : arbReq1 q = true) :
    q.dcacheData.contents = dcacheHead q :: q.dcacheData.contents.tail := by
  have hne := (arbReq1_iff.mp h).1
  cases hc : q.dcacheData.contents with
  | nil => exact absurd hc hne
  | cons x l => rw [dcacheHead, Fifo.mem_readPointer _ hc, List.tail_cons]

/-! ## A cycle without a grant -/

theorem not_full_of_drop {α : Type*} {w : Nat} {f g : Fifo α w} {n : Nat}
    (hf : f.full = false) (hg : g.contents = f.contents.drop n) : g.full = false := by
  have hlen := f.length_contents
  have hle := f.statusCnt_le
  rw [← Bool.not_eq_true, Fifo.full_iff] at hf ⊢
  rw [hg, List.length_drop]
  omega

theorem acks_of_no_gnt (hg : arbGnt q i = false) : arbAck0 q i = false ∧ arbAck1 q i = false := by
  simp [arbAck0, arbAck1, hg]

theorem arbReq0_next (hg : arbGnt q i = false) (h : arbReq0 q = true) :
    arbReq0 (next q i) = true := by
  obtain ⟨hne, hfull⟩ := arbReq0_iff.mp h
  obtain ⟨h0, -⟩ := acks_of_no_gnt hg
  refine arbReq0_iff.mpr ⟨?_, not_full_of_drop hfull (n := if icacheRtrnVldD q i then 1 else 0) ?_⟩
  · rw [icacheData_next, h0]
    simp [hne]
  · simp [next, Fifo.contents_step, h0]

theorem arbReq1_next (hg : arbGnt q i = false) (h : arbReq1 q = true) :
    arbReq1 (next q i) = true := by
  obtain ⟨hne, hwr, hrd⟩ := arbReq1_iff.mp h
  obtain ⟨-, h1⟩ := acks_of_no_gnt hg
  refine arbReq1_iff.mpr ⟨?_, not_full_of_drop hwr (n := if dcacheWrPop q i then 1 else 0) ?_,
    not_full_of_drop hrd (n := if dcacheRdPop q i then 1 else 0) ?_⟩
  · rw [dcacheData_next, h1]
    simp [hne]
  · simp [next, Fifo.contents_step, h1]
  · simp [next, Fifo.contents_step, h1]

theorem dcacheHead_next (hg : arbGnt q i = false) (h : arbReq1 q = true) :
    dcacheHead (next q i) = dcacheHead q := by
  have hcons := dcacheData_cons h
  have hnext := dcacheData_next (q := q) (i := i)
  rw [(acks_of_no_gnt hg).2, hcons] at hnext
  exact Fifo.mem_readPointer _ hnext

theorem ArbOk.wrReq_next (h : ArbOk q) (hg : arbGnt q i = false) (hw : wrReq q = true) :
    wrReq (next q i) = true := by
  simp only [wrReq_eq, Bool.and_eq_true] at hw
  obtain ⟨⟨hany, hidx⟩, hwrite⟩ := hw
  have hreq := h.arbReq1_of_idx hany hidx
  have hidx' : arbIdx (next q i) = arbIdx q := by
    have hlock : (next q i).lock = true := by simp [next, reqD_any h hany, hg]
    have hrr : (next q i).rr = q.rr := by simp [next, hg]
    have hreqs : (next q i).req0 = reqD0 q ∧ (next q i).req1 = reqD1 q := ⟨rfl, rfl⟩
    have h0 : reqD0 (next q i) = reqD0 q := by simp [reqD0, hlock, hreqs.1]
    have h1 : reqD1 (next q i) = reqD1 q := by simp [reqD1, hlock, hreqs.2]
    simp only [arbIdx, h0, h1, hrr]
  rw [wrReq_eq, hidx', hidx, dcacheHead_next hg hreq, hwrite, arbAny, arbReq1_next hg hreq]
  simp

theorem rdGnt_of_wrReq (hw : wrReq q = true) : rdGnt q i = false := by
  simp only [wrReq_eq, Bool.and_eq_true] at hw
  simp [rdGnt, rdReq_eq, hw.1.2, hw.2]

theorem ArbOk.waits (h : ArbOk q) (hs : wrStateD q i ≠ .IDLE) :
    wrReq q = true ∧ wrGnt q i = false := by
  unfold wrStateD at hs
  unfold wrGnt
  cases hq : q.wrState with
  | IDLE =>
      cases hw : wrReq q with
      | false => simp [hq, hw] at hs
      | true =>
          refine ⟨rfl, ?_⟩
          cases ha : i.axi.awReady <;> cases hb : i.axi.wReady <;> simp_all
  | WAIT_AW_READY =>
      refine ⟨h.write (by simp [hq]), ?_⟩
      cases ha : i.axi.awReady <;> simp_all
  | WAIT_LAST_W_READY =>
      refine ⟨h.write (by simp [hq]), ?_⟩
      cases ha : i.axi.wReady <;> simp_all

theorem ArbOk.next (h : ArbOk q) : ArbOk (next q i) where
  fill := by
    intro hl hr
    simp only [Axi.next, Bool.and_eq_true, Bool.not_eq_true'] at hl
    exact arbReq0_next hl.2 (h.arbReq0_of_reqD0 hr)
  data := by
    intro hl hr
    simp only [Axi.next, Bool.and_eq_true, Bool.not_eq_true'] at hl
    exact arbReq1_next hl.2 (h.arbReq1_of_reqD1 hr)
  any := by
    intro hl
    simp only [Axi.next, Bool.and_eq_true, Bool.not_eq_true'] at hl
    exact hl.1
  write := by
    intro hs
    obtain ⟨hw, hg⟩ := h.waits hs
    exact h.wrReq_next (by simp [arbGnt, hg, rdGnt_of_wrReq hw]) hw

theorem arbOk_reset : ArbOk reset where
  fill := by simp [reset]
  data := by simp [reset]
  any := by simp [reset]
  write := by simp [reset]

end Cva6.Axi
