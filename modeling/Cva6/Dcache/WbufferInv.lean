import Cva6.Dcache.Wbuffer
/-!
# The write buffer keeps its books

Entries hold distinct words, every transaction in flight blocks the bytes it
carries, an entry has at most one transaction, and the returned transactions are
among those in flight.
-/

namespace Cva6.Dcache.Wbuffer

structure Ok (q : Regs) : Prop where
  dirty_valid : ∀ n k, (q.buffer n).dirty k = true → (q.buffer n).valid k = true
  txblock_valid : ∀ n k, (q.buffer n).txblock k = true → (q.buffer n).valid k = true
  distinct : ∀ n n', valid q n = true → valid q n' = true →
    (q.buffer n).wtag = (q.buffer n').wtag → n = n'
  tx_block : ∀ id, (q.txStat id).vld = true → ∀ k, (q.txStat id).be k = true →
    (q.buffer (q.txStat id).ptr).txblock k = true
  tx_ptr : ∀ id id', (q.txStat id).vld = true → (q.txStat id').vld = true →
    (q.txStat id).ptr = (q.txStat id').ptr → id = id'
  tx_any : ∀ id, (q.txStat id).vld = true → ∃ k, (q.txStat id).be k = true
  fifo_vld : ∀ id ∈ q.rtrnFifo, (q.txStat id).vld = true
  fifo_nodup : q.rtrnFifo.Nodup
  dirtyLock : ∀ n ∈ q.dirtyLock, dirty q n = true
  txLock : ∀ id ∈ q.txLock, (q.txStat id).vld = false

theorem reset_ok : Ok reset := by
  constructor <;> simp [reset, Entry.reset, valid, any]

theorem valid_iff {q : Regs} {n : Ptr} : valid q n = true ↔ ∃ k, (q.buffer n).valid k = true :=
  any_iff

theorem bdirty_iff {q : Regs} {n : Ptr} {k : Lane} :
    bdirty q n k = true ↔ (∀ j, (q.buffer n).txblock j = false) ∧ (q.buffer n).dirty k = true ∧
      (q.buffer n).valid k = true := by
  simp only [bdirty, Bool.and_eq_true, Bool.not_eq_true', any_eq_false, and_assoc]

variable {cfg : Cfg} {q : Regs} {c : Choice} {i : Input}

/-- The arbiters choose a dirty entry and a free transaction when there are any. -/
def Chosen (q : Regs) (c : Choice) : Prop :=
  (any (dirty q) = true → dirty q c.dirtyPtr = true) ∧
    (freeTxSlots q = true → (q.txStat c.txId).vld = false)

/-- Only transactions in flight return, and each once. -/
def Returns (q : Regs) (i : Input) : Prop :=
  i.missRtrnVld = true →
    (q.txStat i.missRtrnId).vld = true ∧ i.missRtrnId ∉ q.rtrnFifo

theorem dirty_dirtyPtr (hlock : ∀ n ∈ q.dirtyLock, dirty q n = true) (hc : Chosen q c)
    (hd : any (dirty q) = true) : dirty q (dirtyPtr q c) = true := by
  unfold dirtyPtr
  cases hl : q.dirtyLock with
  | none => exact hc.1 hd
  | some n => exact hlock n (by simp [hl])

theorem Ok.dirty_dirtyPtr (h : Ok q) (hc : Chosen q c) (hd : any (dirty q) = true) :
    dirty q (dirtyPtr q c) = true :=
  Wbuffer.dirty_dirtyPtr h.dirtyLock hc hd

theorem Ok.free_txId (h : Ok q) (hc : Chosen q c) (hf : freeTxSlots q = true) :
    (q.txStat (txId q c)).vld = false := by
  unfold txId
  cases hl : q.txLock with
  | none => exact hc.2 hf
  | some id => exact h.txLock id (by simp [hl])

theorem of_dirtyRdEn (h : dirtyRdEn q i = true) :
    any (dirty q) = true ∧ freeTxSlots q = true := by
  simp only [dirtyRdEn, missReq, Bool.and_eq_true] at h
  exact h.1

/-- Sent bytes were dirty, and nothing of their word was in flight. -/
theorem Ok.of_sent (h : Ok q) (hc : Chosen q c) {n : Ptr} {k : Lane}
    (hs : sent q c i n k = true) :
    n = dirtyPtr q c ∧ dirtyRdEn q i = true ∧ (∀ j, (q.buffer n).txblock j = false) ∧
      (q.buffer n).dirty k = true ∧ (q.buffer n).valid k = true := by
  simp only [sent, Bool.and_eq_true, beq_iff_eq] at hs
  obtain ⟨⟨hen, rfl⟩, hbe⟩ := hs
  have hd := h.dirty_dirtyPtr hc (of_dirtyRdEn hen).1
  have hb := (transferOk hd).subset k hbe
  exact ⟨rfl, hen, bdirty_iff.mp hb⟩

theorem of_evict (h : evict q i = true) :
    q.rtrnFifo = rtrnId q :: q.rtrnFifo.tail ∧ (q.buffer (rtrnPtr q)).checked = true := by
  simp only [evict, rtrnReady, Bool.and_eq_true, Bool.not_eq_true'] at h
  obtain ⟨⟨hne, hchk⟩, -⟩ := h
  refine ⟨?_, hchk⟩
  unfold rtrnId
  cases hq : q.rtrnFifo with
  | nil => simp [hq] at hne
  | cons id l => rfl

theorem Ok.rtrnId_vld (h : Ok q) (he : evict q i = true) : (q.txStat (rtrnId q)).vld = true := by
  refine h.fifo_vld _ ?_
  rw [(of_evict he).1]
  exact List.mem_cons_self

theorem Ok.of_returned (h : Ok q) {n : Ptr} {k : Lane} (hr : returned q i n k = true) :
    evict q i = true ∧ n = rtrnPtr q ∧ (q.buffer n).txblock k = true := by
  simp only [returned, Bool.and_eq_true, beq_iff_eq] at hr
  obtain ⟨⟨he, rfl⟩, hbe⟩ := hr
  exact ⟨he, rfl, h.tx_block _ (h.rtrnId_vld he) k hbe⟩

/-- Where a store goes: to the entry that holds its word, or to a free one if none does. -/
theorem of_dataGnt (hg : dataGnt cfg q i = true) :
    (valid q (wrPtr q i) = true ∧ (q.buffer (wrPtr q i)).wtag = i.store.wtag) ∨
      (valid q (wrPtr q i) = false ∧
        ∀ n, valid q n = true → (q.buffer n).wtag ≠ i.store.wtag) := by
  simp only [dataGnt, rdy, Bool.and_eq_true, Bool.or_eq_true, Bool.not_eq_true'] at hg
  obtain ⟨⟨-, hrdy⟩, -⟩ := hg
  by_cases hhit : any (wbufferHitOh q i) = true
  · left
    have := lzc_of_any hhit
    rw [wrPtr, if_pos hhit]
    simp only [wbufferHitOh, Bool.and_eq_true, beq_iff_eq] at this
    exact this
  · right
    have hfull : full q = false := by
      rcases hrdy with h | h
      · exact absurd h hhit
      · exact h
    have hfree := lzc_of_any (m := fun n => !valid q n) (by simpa [full] using hfull)
    rw [wrPtr, if_neg hhit]
    refine ⟨by simpa using hfree, ?_⟩
    intro n hn hw
    rw [Bool.not_eq_true, any_eq_false] at hhit
    have := hhit n
    simp [wbufferHitOh, hn, hw] at this

/-- A valid entry goes on holding the same word. -/
theorem wtag_stable {n : Ptr} (hv : valid q n = true) :
    (bufferNext cfg q c i n).wtag = (q.buffer n).wtag := by
  rw [bufferNext_wtag]
  split
  · rename_i hw
    simp only [Bool.and_eq_true, beq_iff_eq] at hw
    obtain ⟨hg, rfl⟩ := hw
    rcases of_dataGnt hg with ⟨-, hw⟩ | ⟨hinv, -⟩
    · exact hw.symm
    · simp [hv] at hinv
  · rfl

theorem of_valid_next {n : Ptr} (hv : valid (next cfg q c i) n = true) (hold : valid q n = false) :
    dataGnt cfg q i = true ∧ n = wrPtr q i ∧ (bufferNext cfg q c i n).wtag = i.store.wtag := by
  obtain ⟨k, hk⟩ := valid_iff.mp hv
  have hk : (bufferNext cfg q c i n).valid k = true := hk
  have hkold : (q.buffer n).valid k = false := any_eq_false.mp hold k
  rw [bufferNext_valid, hkold] at hk
  have hst : stored cfg q i n k = true := by simpa using hk
  simp only [stored, Bool.and_eq_true, beq_iff_eq] at hst
  refine ⟨hst.1.1, hst.1.2, ?_⟩
  rw [bufferNext_wtag, if_pos (by simp [hst.1])]

theorem dirty_next {n : Ptr} {k : Lane} :
    (bufferNext cfg q c i n).dirty k = true ↔
      ((q.buffer n).dirty k = true ∧ sent q c i n k = false) ∨ stored cfg q i n k = true := by
  rw [bufferNext_dirty, Bool.or_eq_true, Bool.and_eq_true, Bool.not_eq_true']

theorem txblock_next {n : Ptr} {k : Lane} :
    (bufferNext cfg q c i n).txblock k = true ↔
      ((q.buffer n).txblock k = true ∧ returned q i n k = false) ∨ sent q c i n k = true := by
  rw [bufferNext_txblock, Bool.or_eq_true, Bool.and_eq_true, Bool.not_eq_true']

theorem valid_next {n : Ptr} {k : Lane} :
    (bufferNext cfg q c i n).valid k = true ↔
      ((q.buffer n).valid k = true ∧
        (returned q i n k = true → (q.buffer n).dirty k = true)) ∨ stored cfg q i n k = true := by
  rw [bufferNext_valid, Bool.or_eq_true, Bool.and_eq_true]
  cases returned q i n k <;> cases (q.buffer n).dirty k <;> simp

theorem dirty_kept {n : Ptr} (hd : dirty q n = true) (hen : dirtyRdEn q i = false) :
    dirty (Wbuffer.next cfg q c i) n = true := by
  obtain ⟨k, hk⟩ := any_iff.mp hd
  obtain ⟨htx, hd, hv⟩ := bdirty_iff.mp hk
  have hsent (j : Lane) : sent q c i n j = false := by simp [sent, hen]
  refine any_iff.mpr ⟨k, bdirty_iff.mpr ⟨?_, ?_, ?_⟩⟩
  · intro j
    by_contra hne
    rcases txblock_next.mp (Bool.not_eq_false _ ▸ hne) with ⟨hb, -⟩ | hs
    · simp [htx j] at hb
    · simp [hsent j] at hs
  · exact dirty_next.mpr (.inl ⟨hd, hsent k⟩)
  · exact valid_next.mpr (.inl ⟨hv, fun _ => hd⟩)

theorem next_dirtyLock (hlock : ∀ n ∈ q.dirtyLock, dirty q n = true) (hc : Chosen q c) (n : Ptr)
    (hn : n ∈ (Wbuffer.next cfg q c i).dirtyLock) : dirty (Wbuffer.next cfg q c i) n = true := by
  have hn : n ∈ if any (dirty q) && !dirtyRdEn q i then some (dirtyPtr q c) else none := hn
  rw [Option.mem_def, Option.ite_none_right_eq_some, Bool.and_eq_true, Bool.not_eq_true'] at hn
  obtain ⟨⟨hany, hen⟩, hptr⟩ := hn
  obtain rfl := Option.some.inj hptr
  exact dirty_kept (dirty_dirtyPtr hlock hc hany) hen

/-- A transaction in flight after the cycle was allocated in it or is still in flight. -/
theorem of_vld_next {id : TxId} (hv : (txStatNext q c i id).vld = true) :
    (dirtyRdEn q i = true ∧ id = txId q c ∧
        txStatNext q c i id = ⟨true, txBe q c, dirtyPtr q c⟩) ∨
      ((q.txStat id).vld = true ∧ txStatNext q c i id = q.txStat id ∧
        ¬(evict q i = true ∧ id = rtrnId q)) := by
  unfold txStatNext at hv ⊢
  split at hv
  · rename_i hnew
    simp only [Bool.and_eq_true, beq_iff_eq] at hnew
    exact .inl ⟨hnew.1, hnew.2, if_pos (by simp [hnew])⟩
  · rename_i hnew
    split at hv
    · cases hv
    · rename_i hold
      refine .inr ⟨hv, ?_, ?_⟩
      · rw [if_neg hnew, if_neg hold]
      · rintro ⟨he, rfl⟩
        exact hold (by simp [he])

section Step

variable (h : Ok q) (hc : Chosen q c)
include h hc

theorem Ok.txblock_of_dirtyRdEn (hen : dirtyRdEn q i = true) (k : Lane) :
    (q.buffer (dirtyPtr q c)).txblock k = false := by
  obtain ⟨j, hj⟩ := any_iff.mp (h.dirty_dirtyPtr hc (of_dirtyRdEn hen).1)
  exact (bdirty_iff.mp hj).1 k

/-- The entry that is sent has no transaction in flight. -/
theorem Ok.ptr_ne_dirtyPtr (hen : dirtyRdEn q i = true) {id : TxId}
    (hv : (q.txStat id).vld = true) : (q.txStat id).ptr ≠ dirtyPtr q c := by
  intro heq
  obtain ⟨k, hk⟩ := h.tx_any id hv
  have hb := h.tx_block id hv k hk
  rw [heq, h.txblock_of_dirtyRdEn hc hen] at hb
  cases hb

omit hc in
theorem Ok.next_tx_block (id : TxId) (hv : (txStatNext q c i id).vld = true) (k : Lane)
    (hk : (txStatNext q c i id).be k = true) :
    (bufferNext cfg q c i (txStatNext q c i id).ptr).txblock k = true := by
  rcases of_vld_next hv with ⟨hen, -, htx⟩ | ⟨hvold, htx, hkeep⟩
  · rw [htx] at hk ⊢
    refine txblock_next.mpr (.inr ?_)
    have hk : txBe q c k = true := hk
    simp [sent, hen, hk]
  · rw [htx] at hk ⊢
    refine txblock_next.mpr (.inl ⟨h.tx_block id hvold k hk, ?_⟩)
    by_contra hret
    obtain ⟨he, hp, -⟩ := h.of_returned (Bool.not_eq_false _ ▸ hret)
    exact hkeep ⟨he, h.tx_ptr _ _ hvold (h.rtrnId_vld he) hp⟩

theorem Ok.next_tx_ptr (id id' : TxId) (hv : (txStatNext q c i id).vld = true)
    (hv' : (txStatNext q c i id').vld = true)
    (heq : (txStatNext q c i id).ptr = (txStatNext q c i id').ptr) : id = id' := by
  rcases of_vld_next hv with ⟨hen, hid, htx⟩ | ⟨hvold, htx, -⟩ <;>
    rcases of_vld_next hv' with ⟨hen', hid', htx'⟩ | ⟨hvold', htx', -⟩ <;>
    rw [htx, htx'] at heq
  · rw [hid, hid']
  · exact absurd heq.symm (h.ptr_ne_dirtyPtr hc hen hvold')
  · exact absurd heq (h.ptr_ne_dirtyPtr hc hen' hvold)
  · exact h.tx_ptr _ _ hvold hvold' heq

theorem Ok.next_tx_any (id : TxId) (hv : (txStatNext q c i id).vld = true) :
    ∃ k, (txStatNext q c i id).be k = true := by
  rcases of_vld_next hv with ⟨hen, -, htx⟩ | ⟨hvold, htx, -⟩
  · rw [htx]
    exact ⟨_, (transferOk (h.dirty_dirtyPtr hc (of_dirtyRdEn hen).1)).nonempty⟩
  · rw [htx]
    exact h.tx_any id hvold

theorem Ok.vld_next {id : TxId} (hv : (q.txStat id).vld = true)
    (hkeep : ¬(evict q i = true ∧ id = rtrnId q)) :
    txStatNext q c i id = q.txStat id := by
  unfold txStatNext
  rw [if_neg, if_neg]
  · simpa [not_and] using hkeep
  · simp only [Bool.and_eq_true, beq_iff_eq]
    rintro ⟨hen, rfl⟩
    rw [h.free_txId hc (of_dirtyRdEn hen).2] at hv
    cases hv

omit hc in
theorem Ok.of_mem_rtrnFifo_next {id : TxId} (hid : id ∈ rtrnFifoNext q i) :
    (id ∈ q.rtrnFifo ∧ ¬(evict q i = true ∧ id = rtrnId q)) ∨
      (i.missRtrnVld = true ∧ id = i.missRtrnId) := by
  have hfifo {id : TxId} (hid : id ∈ if evict q i then q.rtrnFifo.tail else q.rtrnFifo) :
      id ∈ q.rtrnFifo ∧ ¬(evict q i = true ∧ id = rtrnId q) := by
    split at hid
    · rename_i he
      refine ⟨List.mem_of_mem_tail hid, ?_⟩
      rintro ⟨-, rfl⟩
      have hnd := h.fifo_nodup
      rw [(of_evict he).1, List.nodup_cons] at hnd
      exact hnd.1 hid
    · rename_i he
      exact ⟨hid, fun hev => he hev.1⟩
  unfold rtrnFifoNext at hid
  simp only at hid
  split at hid
  · rename_i hpush
    rcases List.mem_append.mp hid with hid | hid
    · exact .inl (hfifo hid)
    · simp only [Bool.and_eq_true] at hpush
      exact .inr ⟨hpush.1, List.mem_singleton.mp hid⟩
  · exact .inl (hfifo hid)

theorem Ok.next_fifo_vld (hr : Returns q i) (id : TxId) (hid : id ∈ rtrnFifoNext q i) :
    (txStatNext q c i id).vld = true := by
  rcases h.of_mem_rtrnFifo_next hid with ⟨hmem, hkeep⟩ | ⟨hret, rfl⟩
  · rw [h.vld_next hc (h.fifo_vld id hmem) hkeep]
    exact h.fifo_vld id hmem
  · obtain ⟨hv, hnot⟩ := hr hret
    rw [h.vld_next hc hv]
    · exact hv
    · rintro ⟨he, heq⟩
      refine hnot ?_
      rw [heq, (of_evict he).1]
      exact List.mem_cons_self

omit hc in
theorem Ok.next_fifo_nodup (hr : Returns q i) : (rtrnFifoNext q i).Nodup := by
  have hbase : (if evict q i then q.rtrnFifo.tail else q.rtrnFifo).Nodup := by
    split
    · exact h.fifo_nodup.tail
    · exact h.fifo_nodup
  unfold rtrnFifoNext
  simp only
  split
  · rename_i hpush
    simp only [Bool.and_eq_true] at hpush
    obtain ⟨-, hnot⟩ := hr hpush.1
    refine List.nodup_append.mpr ⟨hbase, List.nodup_singleton _, ?_⟩
    intro a ha b hb heq
    rw [List.mem_singleton.mp hb] at heq
    subst heq
    split at ha
    · exact hnot (List.mem_of_mem_tail ha)
    · exact hnot ha
  · exact hbase

omit hc in
theorem Ok.next_distinct (n n' : Ptr) (hv : valid (Wbuffer.next cfg q c i) n = true)
    (hv' : valid (Wbuffer.next cfg q c i) n' = true)
    (heq : (bufferNext cfg q c i n).wtag = (bufferNext cfg q c i n').wtag) : n = n' := by
  have hfresh {m m' : Ptr} (hm : valid q m = true)
      (hm' : valid (Wbuffer.next cfg q c i) m' = true) (hold : valid q m' = false)
      (heq : (bufferNext cfg q c i m).wtag = (bufferNext cfg q c i m').wtag) : False := by
    obtain ⟨hg, hw, htag⟩ := of_valid_next hm' hold
    rw [wtag_stable hm, htag] at heq
    rcases of_dataGnt hg with ⟨hvw, -⟩ | ⟨-, hnone⟩
    · rw [← hw, hold] at hvw
      cases hvw
    · exact hnone m hm heq
  cases hn : valid q n with
  | true =>
      cases hn' : valid q n' with
      | true =>
          rw [wtag_stable hn, wtag_stable hn'] at heq
          exact h.distinct n n' hn hn' heq
      | false => exact (hfresh hn hv' hn' heq).elim
  | false =>
      cases hn' : valid q n' with
      | true => exact (hfresh hn' hv hn heq.symm).elim
      | false => rw [(of_valid_next hv hn).2.1, (of_valid_next hv' hn').2.1]

theorem Ok.next_txLock (id : TxId) (hid : id ∈ (Wbuffer.next cfg q c i).txLock) :
    (txStatNext q c i id).vld = false := by
  have hlock : id ∈ if freeTxSlots q && !dirtyRdEn q i then some (txId q c) else none := hid
  rw [Option.mem_def, Option.ite_none_right_eq_some] at hlock
  obtain ⟨hcond, hptr⟩ := hlock
  simp only [Bool.and_eq_true, Bool.not_eq_true'] at hcond
  obtain rfl := Option.some.inj hptr
  have hfree := h.free_txId hc hcond.1
  unfold txStatNext
  rw [hcond.2, Bool.false_and, if_neg Bool.false_ne_true]
  split
  · rfl
  · exact hfree

theorem Ok.next (hr : Returns q i) : Ok (Wbuffer.next cfg q c i) where
  dirty_valid n k hd := by
    rcases dirty_next.mp hd with ⟨hd, -⟩ | hs
    · exact valid_next.mpr (.inl ⟨h.dirty_valid n k hd, fun _ => hd⟩)
    · exact valid_next.mpr (.inr hs)
  txblock_valid n k hb := by
    rcases txblock_next.mp hb with ⟨hb, hr⟩ | hs
    · exact valid_next.mpr (.inl ⟨h.txblock_valid n k hb, fun h => by simp [hr] at h⟩)
    · obtain ⟨-, -, -, hd, hv⟩ := h.of_sent hc hs
      exact valid_next.mpr (.inl ⟨hv, fun _ => hd⟩)
  distinct := h.next_distinct
  tx_block := h.next_tx_block
  tx_ptr := h.next_tx_ptr hc
  tx_any := h.next_tx_any hc
  fifo_vld := h.next_fifo_vld hc hr
  fifo_nodup := h.next_fifo_nodup hr
  dirtyLock := next_dirtyLock h.dirtyLock hc
  txLock := h.next_txLock hc

end Step

end Cva6.Dcache.Wbuffer
