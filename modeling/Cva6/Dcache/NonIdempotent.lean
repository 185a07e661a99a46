import Cva6.Dcache.ResetFlush
/-!
# Stores to non-idempotent pages

The data cache is run together with a record of the stores that the write buffer has taken
for non-idempotent pages, each with the writes that were sent for such pages until the next
one was taken. At most one of these stores is in the write buffer, in an entry of its own,
so an aligned one leaves it as one write.
-/

namespace Cva6.Dcache

open Cva6.Sync

/-- A store and the writes that were sent before the next one was taken. -/
structure Written where
  store : StoreReq
  writes : List MemReq

/-- The data cache with the stores to non-idempotent pages, newest first, and all writes to
these pages. -/
structure Traced where
  dc : State
  stores : List Written
  writes : List MemReq

def Written.send (rs : List MemReq) : List Written → List Written
  | [] => []
  | w :: rest => ⟨w.store, w.writes ++ rs⟩ :: rest

section Record

variable (cfg : Cfg) (s : State) (i : Input)

def niWrites : List MemReq :=
  (accepted cfg s.hw i).toList.filter fun r =>
    r.rtype == .STORE && cfg.nonIdempotent r.paddr.word.tag

def niStores : List StoreReq :=
  if storeGnt cfg s.hw i && cfg.nonIdempotent i.store.wtag.tag then [i.store] else []

end Record

def Traced.next (cfg : Cfg) (t : Traced) (i : Input) : Traced where
  dc := t.dc.next cfg i
  stores := (niStores cfg t.dc i).map (fun r => ⟨r, []⟩) ++
    Written.send (niWrites cfg t.dc i) t.stores
  writes := t.writes ++ niWrites cfg t.dc i

def traced (cfg : Cfg) (z : Start) : Machine Traced Input := ⟨⟨start z, [], []⟩, Traced.next cfg⟩

/-! ## The property -/

def StoreReq.Aligned (r : StoreReq) : Prop :=
  any r.be = true ∧ toByteEnable8 (lzc r.be) (toSize64 r.be) = r.be

/-- The write carries the bytes of the store to its address, in its size. -/
structure WriteOf (r : StoreReq) (m : MemReq) : Prop where
  rtype : m.rtype = .STORE
  paddr : m.paddr = ⟨r.wtag, lzc r.be⟩
  size : m.size = (toSize64 r.be).setWidth 3
  data : ∀ k, r.be k = true → m.data k = r.wdata k

def Written.Once (w : Written) : Prop := ∃ m, w.writes = [m] ∧ WriteOf w.store m

/-- The store is in entry `n`, whole, and nothing of it has been sent. -/
structure Written.Unsent (w : Written) (q : Wbuffer.Regs) (n : Ptr) : Prop where
  writes : w.writes = []
  valid : (q.buffer n).valid = w.store.be
  dirty : (q.buffer n).dirty = w.store.be
  txblock : ∀ k, (q.buffer n).txblock k = false
  data : ∀ k, w.store.be k = true → (q.buffer n).data k = w.store.wdata k

/-- The store in entry `n` has been sent, and nothing of it is sent again. -/
structure Written.Left (w : Written) (q : Wbuffer.Regs) (n : Ptr) : Prop where
  once : w.Once
  clean : ∀ k, (q.buffer n).dirty k = false

def HoldsNi (cfg : Cfg) (q : Wbuffer.Regs) (n : Ptr) : Prop :=
  Wbuffer.valid q n = true ∧ cfg.nonIdempotent (q.buffer n).wtag.tag = true

structure Exact (cfg : Cfg) (t : Traced) : Prop where
  books : Books t.dc
  all : t.writes = t.stores.reverse.flatMap Written.writes
  past : ∀ w ∈ t.stores.tail, w.store.Aligned → w.Once
  one : ∀ n n', t.dc.hw.wbuf.niPending n = true → t.dc.hw.wbuf.niPending n' = true → n = n'
  pending : ∀ n, HoldsNi cfg t.dc.hw.wbuf n → t.dc.hw.wbuf.niPending n = true ∧
    ∃ w rest, t.stores = w :: rest ∧ w.store.wtag = (t.dc.hw.wbuf.buffer n).wtag ∧
      (w.store.Aligned → w.Unsent t.dc.hw.wbuf n ∨ w.Left t.dc.hw.wbuf n)
  done : (∀ n, ¬HoldsNi cfg t.dc.hw.wbuf n) → ∀ w ∈ t.stores.head?, w.store.Aligned → w.Once

variable {cfg : Cfg} {t : Traced} {i : Input}

/-! ## What is sent -/

theorem niWrites_cases {s : State} (h : Books s) (he : Served s i) :
    (niWrites cfg s i = [storeMemReq cfg s.hw i] ∧
        Wbuffer.dirtyRdEn s.hw.wbuf (wbufIn cfg s.hw i) = true ∧
        HoldsNi cfg s.hw.wbuf (Wbuffer.dirtyPtr s.hw.wbuf i.choice)) ∨
      (niWrites cfg s i = [] ∧
        (Wbuffer.dirtyRdEn s.hw.wbuf (wbufIn cfg s.hw i) = true →
          ¬HoldsNi cfg s.hw.wbuf (Wbuffer.dirtyPtr s.hw.wbuf i.choice))) := by
  cases hen : Wbuffer.dirtyRdEn s.hw.wbuf (wbufIn cfg s.hw i) with
  | true =>
      have hacc := accepted_of_dirtyRdEn h.waits hen
      have hdirty := h.wbuf.dirty_dirtyPtr he.chosen (Wbuffer.of_dirtyRdEn hen).1
      have hvalid : Wbuffer.valid s.hw.wbuf (Wbuffer.dirtyPtr s.hw.wbuf i.choice) = true := by
        obtain ⟨k, hk⟩ := any_iff.mp hdirty
        exact Wbuffer.valid_iff.mpr ⟨k, (Wbuffer.bdirty_iff.mp hk).2.2⟩
      have htag : (storeMemReq cfg s.hw i).paddr.word.tag =
          (s.hw.wbuf.buffer (Wbuffer.dirtyPtr s.hw.wbuf i.choice)).wtag.tag := by
        simp only [storeMemReq, paddrSizeAlign, Wbuffer.missPaddr]
        split <;> rfl
      cases hni : cfg.nonIdempotent
          (s.hw.wbuf.buffer (Wbuffer.dirtyPtr s.hw.wbuf i.choice)).wtag.tag with
      | true =>
          refine .inl ⟨?_, rfl, hvalid, hni⟩
          have hrtype : (storeMemReq cfg s.hw i).rtype = .STORE := rfl
          rw [← htag] at hni
          simp [niWrites, hacc, hni, hrtype]
      | false =>
          refine .inr ⟨?_, fun _ hh => ?_⟩
          · rw [← htag] at hni
            simp [niWrites, hacc, hni]
          · rw [hh.2] at hni
            cases hni
  | false =>
      refine .inr ⟨?_, fun hh => by cases hh⟩
      cases hacc : accepted cfg s.hw i with
      | none => simp [niWrites, hacc]
      | some r =>
          cases h.waits.sent hacc with
          | store hen' => rw [hen] at hen'; cases hen'
          | load p _ _ => simp [niWrites, hacc, loadMemReq]
          | atomic _ _ hrtype => simp [niWrites, hacc, hrtype]

variable (cfg) in
theorem Written.Unsent.writeOf {w : Written} {s : Hw} {n : Ptr} (h : w.Unsent s.wbuf n)
    (ha : w.store.Aligned) (hn : Wbuffer.dirtyPtr s.wbuf i.choice = n)
    (htag : w.store.wtag = (s.wbuf.buffer n).wtag) :
    WriteOf w.store (storeMemReq cfg s i) ∧ Wbuffer.txBe s.wbuf i.choice = w.store.be := by
  have hbd : Wbuffer.bdirty s.wbuf n = w.store.be := by
    funext k
    have hb : any (s.wbuf.buffer n).txblock = false := any_eq_false.mpr h.txblock
    simp [Wbuffer.bdirty, hb, h.valid, h.dirty]
  have hoff : Wbuffer.bdirtyOff s.wbuf i.choice = lzc w.store.be := by
    rw [Wbuffer.bdirtyOff, hn, hbd]
  have hsize : Wbuffer.missSize s.wbuf i.choice = toSize64 w.store.be := by
    rw [Wbuffer.missSize, hn, hbd]
  have hbe : Wbuffer.txBe s.wbuf i.choice = w.store.be := by
    rw [Wbuffer.txBe, hoff, hsize]
    exact ha.2
  have htransfer := transferOk ha.1
  refine ⟨⟨rfl, ?_, ?_, ?_⟩, hbe⟩
  · have hne : ((toSize64 w.store.be).setWidth 3 : BitVec 3) ≠ 7 := by
      generalize toSize64 w.store.be = size
      revert size
      decide
    simp only [storeMemReq, paddrSizeAlign, Wbuffer.missPaddr, hoff, hsize, hn, if_neg hne,
      htransfer.align, htag]
  · simp only [storeMemReq, hsize]
  · intro k hk
    have hlane : repLane (lzc w.store.be) (toSize64 w.store.be) k = k := by
      apply htransfer.lane
      rw [ha.2]
      exact hk
    simp only [storeMemReq, Wbuffer.missWdata, repData64, hoff, hsize, hn, hlane]
    exact h.data k hk

/-! ## One cycle -/

theorem niStores_of_taken {s : State} (hg : storeGnt cfg s.hw i = true)
    (hni : cfg.nonIdempotent i.store.wtag.tag = true) :
    niStores cfg s i = [i.store] ∧ ∀ n, s.hw.wbuf.niPending n = false := by
  refine ⟨by simp [niStores, hg, hni], ?_⟩
  have hg : Wbuffer.dataGnt cfg s.hw.wbuf (wbufIn cfg s.hw i) = true := hg
  have hisNi : Wbuffer.isNi cfg (wbufIn cfg s.hw i) = true := hni
  simp only [Wbuffer.dataGnt, Wbuffer.niConflict, hisNi, Bool.and_eq_true, Bool.true_and,
    Bool.not_eq_true', any_eq_false] at hg
  exact hg.2

variable (cfg i) in
theorem niStores_cases (s : State) :
    (storeGnt cfg s.hw i = true ∧ cfg.nonIdempotent i.store.wtag.tag = true) ∨
      niStores cfg s i = [] := by
  unfold niStores
  cases hc : storeGnt cfg s.hw i && cfg.nonIdempotent i.store.wtag.tag with
  | true => exact .inl (Bool.and_eq_true _ _ ▸ hc)
  | false => exact .inr rfl

theorem holds_of_next
    (hnot : ¬(storeGnt cfg t.dc.hw i = true ∧ cfg.nonIdempotent i.store.wtag.tag = true))
    {n : Ptr} (hn : HoldsNi cfg (t.dc.next cfg i).hw.wbuf n) : HoldsNi cfg t.dc.hw.wbuf n := by
  cases hold : Wbuffer.valid t.dc.hw.wbuf n with
  | true =>
      have htag : ((t.dc.next cfg i).hw.wbuf.buffer n).wtag = (t.dc.hw.wbuf.buffer n).wtag :=
        Wbuffer.wtag_stable hold
      refine ⟨hold, ?_⟩
      rw [← htag]
      exact hn.2
  | false =>
      obtain ⟨hgnt, -, htag⟩ := Wbuffer.of_valid_next hn.1 hold
      have htag : ((t.dc.next cfg i).hw.wbuf.buffer n).wtag = i.store.wtag := htag
      refine absurd ⟨hgnt, ?_⟩ hnot
      rw [← htag]
      exact hn.2

section Step

variable (h : Exact cfg t)
include h

/-- While an entry holds such a word no store is taken for these pages, and none goes to the
entry. -/
theorem Exact.untouched {n : Ptr} (hn : HoldsNi cfg t.dc.hw.wbuf n) :
    niStores cfg t.dc i = [] ∧
      (Wbuffer.dataGnt cfg t.dc.hw.wbuf (wbufIn cfg t.dc.hw i) &&
        n == Wbuffer.wrPtr t.dc.hw.wbuf (wbufIn cfg t.dc.hw i)) = false := by
  have hpend := (h.pending n hn).1
  have hnot : ¬(storeGnt cfg t.dc.hw i = true ∧ cfg.nonIdempotent i.store.wtag.tag = true) := by
    rintro ⟨hg, hni⟩
    rw [(niStores_of_taken hg hni).2 n] at hpend
    cases hpend
  refine ⟨(niStores_cases _ _ t.dc).resolve_left hnot, ?_⟩
  by_contra hw
  rw [Bool.not_eq_false, Bool.and_eq_true, beq_iff_eq] at hw
  obtain ⟨hg, hptr⟩ := hw
  rcases Wbuffer.of_dataGnt hg with ⟨-, htag⟩ | ⟨hfree, -⟩
  · have hni := hn.2
    rw [hptr, htag] at hni
    exact hnot ⟨hg, hni⟩
  · rw [← hptr, hn.1] at hfree
    cases hfree

theorem Exact.stored_eq {n : Ptr} (hn : HoldsNi cfg t.dc.hw.wbuf n) (k : Lane) :
    Wbuffer.stored cfg t.dc.hw.wbuf (wbufIn cfg t.dc.hw i) n k = false := by
  rw [Wbuffer.stored, (h.untouched hn).2, Bool.false_and]

theorem Exact.holds_unique {n m : Ptr} (hn : HoldsNi cfg t.dc.hw.wbuf n)
    (hm : HoldsNi cfg t.dc.hw.wbuf m) : n = m :=
  h.one n m (h.pending n hn).1 (h.pending m hm).1

theorem Exact.niWrites_eq (he : Served t.dc i) {n : Ptr} (hn : HoldsNi cfg t.dc.hw.wbuf n)
    (hptr : Wbuffer.dirtyRdEn t.dc.hw.wbuf (wbufIn cfg t.dc.hw i) = true →
      Wbuffer.dirtyPtr t.dc.hw.wbuf i.choice ≠ n) : niWrites cfg t.dc i = [] := by
  rcases niWrites_cases h.books he with ⟨-, hen, hm⟩ | ⟨hnil, -⟩
  · exact absurd (h.holds_unique hm hn) (hptr hen)
  · exact hnil

theorem Exact.niPending_next {n : Ptr} (hn : HoldsNi cfg t.dc.hw.wbuf n)
    (hv : Wbuffer.valid (t.dc.next cfg i).hw.wbuf n = true) :
    (t.dc.next cfg i).hw.wbuf.niPending n = true := by
  show Wbuffer.niPendingNext cfg t.dc.hw.wbuf (wbufIn cfg t.dc.hw i) n = true
  obtain ⟨k, hk⟩ := Wbuffer.valid_iff.mp hv
  have hk : (Wbuffer.bufferNext cfg t.dc.hw.wbuf i.choice (wbufIn cfg t.dc.hw i) n).valid k =
    true := hk
  rw [Wbuffer.bufferNext_valid, h.stored_eq hn, Bool.or_false] at hk
  unfold Wbuffer.niPendingNext
  rw [(h.untouched hn).2, if_neg Bool.false_ne_true, if_neg]
  · exact (h.pending n hn).1
  · simp only [Bool.and_eq_true, beq_iff_eq, Bool.not_eq_true']
    rintro ⟨⟨hev, hptr⟩, hnone⟩
    have hnone := any_eq_false.mp hnone k
    simp [Wbuffer.Entry.evict] at hnone
    simp [Wbuffer.returned, hev, ← hptr] at hk
    simp_all

theorem Exact.unsent_next (he : Served t.dc i) {n : Ptr} (hn : HoldsNi cfg t.dc.hw.wbuf n)
    {w : Written} (htag : w.store.wtag = (t.dc.hw.wbuf.buffer n).wtag)
    (ha : w.store.Aligned) (hu : w.Unsent t.dc.hw.wbuf n) :
    Wbuffer.valid (t.dc.next cfg i).hw.wbuf n = true ∧
      (Written.Unsent ⟨w.store, w.writes ++ niWrites cfg t.dc i⟩ (t.dc.next cfg i).hw.wbuf n ∨
        Written.Left ⟨w.store, w.writes ++ niWrites cfg t.dc i⟩ (t.dc.next cfg i).hw.wbuf n) := by
  have hret (k : Lane) : Wbuffer.returned t.dc.hw.wbuf (wbufIn cfg t.dc.hw i) n k = false := by
    by_contra hne
    have htx := (h.books.wbuf.of_returned (Bool.not_eq_false _ ▸ hne)).2.2
    rw [hu.txblock k] at htx
    cases htx
  have hvalid : ((t.dc.next cfg i).hw.wbuf.buffer n).valid = w.store.be := by
    funext k
    show (Wbuffer.bufferNext cfg t.dc.hw.wbuf i.choice (wbufIn cfg t.dc.hw i) n).valid k = _
    rw [Wbuffer.bufferNext_valid, hret, h.stored_eq hn, hu.valid]
    simp
  have hdata (k : Lane) (hk : w.store.be k = true) :
      ((t.dc.next cfg i).hw.wbuf.buffer n).data k = w.store.wdata k := by
    show (Wbuffer.bufferNext cfg t.dc.hw.wbuf i.choice (wbufIn cfg t.dc.hw i) n).data k = _
    rw [Wbuffer.bufferNext_data, h.stored_eq hn, if_neg Bool.false_ne_true]
    exact hu.data k hk
  refine ⟨by rw [Wbuffer.valid, hvalid]; exact ha.1, ?_⟩
  by_cases hsend : Wbuffer.dirtyRdEn t.dc.hw.wbuf (wbufIn cfg t.dc.hw i) = true ∧
      Wbuffer.dirtyPtr t.dc.hw.wbuf i.choice = n
  · right
    obtain ⟨hen, hptr⟩ := hsend
    obtain ⟨hwrite, hbe⟩ := hu.writeOf cfg ha hptr htag
    have hnow : niWrites cfg t.dc i = [storeMemReq cfg t.dc.hw i] := by
      rcases niWrites_cases h.books he with ⟨hnow, -, -⟩ | ⟨-, hnot⟩
      · exact hnow
      · rw [hptr] at hnot
        exact absurd hn (hnot hen)
    refine ⟨⟨_, ?_, hwrite⟩, ?_⟩
    · rw [hu.writes, hnow, List.nil_append]
    · intro k
      show (Wbuffer.bufferNext cfg t.dc.hw.wbuf i.choice (wbufIn cfg t.dc.hw i) n).dirty k = _
      rw [Wbuffer.bufferNext_dirty, h.stored_eq hn, hu.dirty, Wbuffer.sent, hbe, hen, hptr]
      simp
  · left
    have hsent (k : Lane) :
        Wbuffer.sent t.dc.hw.wbuf i.choice (wbufIn cfg t.dc.hw i) n k = false := by
      by_contra hne
      have := h.books.wbuf.of_sent he.chosen (Bool.not_eq_false _ ▸ hne)
      exact hsend ⟨this.2.1, this.1.symm⟩
    have hnow := h.niWrites_eq he hn fun hen hptr => hsend ⟨hen, hptr⟩
    refine ⟨by rw [hu.writes, hnow]; rfl, hvalid, ?_, ?_, hdata⟩
    · funext k
      show (Wbuffer.bufferNext cfg t.dc.hw.wbuf i.choice (wbufIn cfg t.dc.hw i) n).dirty k = _
      rw [Wbuffer.bufferNext_dirty, hsent, h.stored_eq hn, hu.dirty]
      simp
    · intro k
      show (Wbuffer.bufferNext cfg t.dc.hw.wbuf i.choice (wbufIn cfg t.dc.hw i) n).txblock k = _
      rw [Wbuffer.bufferNext_txblock, hsent, hu.txblock]
      rfl

theorem Exact.left_next (he : Served t.dc i) {n : Ptr} (hn : HoldsNi cfg t.dc.hw.wbuf n)
    {w : Written} (hl : w.Left t.dc.hw.wbuf n) :
    niWrites cfg t.dc i = [] ∧ w.Left (t.dc.next cfg i).hw.wbuf n := by
  refine ⟨h.niWrites_eq he hn ?_, hl.once, ?_⟩
  · rintro hen rfl
    obtain ⟨k, hk⟩ := any_iff.mp (h.books.wbuf.dirty_dirtyPtr he.chosen (Wbuffer.of_dirtyRdEn hen).1)
    have hd := (Wbuffer.bdirty_iff.mp hk).2.1
    rw [hl.clean k] at hd
    cases hd
  · intro k
    show (Wbuffer.bufferNext cfg t.dc.hw.wbuf i.choice (wbufIn cfg t.dc.hw i) n).dirty k = _
    rw [Wbuffer.bufferNext_dirty, h.stored_eq hn, hl.clean]
    rfl

theorem Exact.niWrites_of_none (he : Served t.dc i) (hnone : ∀ n, ¬HoldsNi cfg t.dc.hw.wbuf n) :
    niWrites cfg t.dc i = [] := by
  rcases niWrites_cases h.books he with ⟨-, -, hm⟩ | ⟨hnil, -⟩
  · exact absurd hm (hnone _)
  · exact hnil

theorem Exact.none_of_taken (hg : storeGnt cfg t.dc.hw i = true)
    (hni : cfg.nonIdempotent i.store.wtag.tag = true) (n : Ptr) :
    ¬HoldsNi cfg t.dc.hw.wbuf n := by
  intro hn
  have hpend := (h.pending n hn).1
  rw [(niStores_of_taken hg hni).2 n] at hpend
  cases hpend

/-- The store that is taken for these pages is whole in its entry. -/
theorem Exact.taken_next (he : Served t.dc i) (hg : storeGnt cfg t.dc.hw i = true)
    (hni : cfg.nonIdempotent i.store.wtag.tag = true) {n : Ptr}
    (hn : HoldsNi cfg (t.dc.next cfg i).hw.wbuf n) :
    (t.dc.next cfg i).hw.wbuf.niPending n = true ∧
      i.store.wtag = ((t.dc.next cfg i).hw.wbuf.buffer n).wtag ∧
      Written.Unsent ⟨i.store, []⟩ (t.dc.next cfg i).hw.wbuf n := by
  have hold : Wbuffer.valid t.dc.hw.wbuf n = false := by
    by_contra hne
    have hv : Wbuffer.valid t.dc.hw.wbuf n = true := Bool.not_eq_false _ ▸ hne
    have htag : ((t.dc.next cfg i).hw.wbuf.buffer n).wtag = (t.dc.hw.wbuf.buffer n).wtag :=
      Wbuffer.wtag_stable hv
    refine h.none_of_taken hg hni n ⟨hv, ?_⟩
    rw [← htag]
    exact hn.2
  obtain ⟨hgnt, hptr, htag⟩ := Wbuffer.of_valid_next hn.1 hold
  have hvalid (k : Lane) : (t.dc.hw.wbuf.buffer n).valid k = false := any_eq_false.mp hold k
  have hdirty (k : Lane) : (t.dc.hw.wbuf.buffer n).dirty k = false := by
    by_contra hne
    have := h.books.wbuf.dirty_valid n k (Bool.not_eq_false _ ▸ hne)
    simp [hvalid k] at this
  have htx (k : Lane) : (t.dc.hw.wbuf.buffer n).txblock k = false := by
    by_contra hne
    have := h.books.wbuf.txblock_valid n k (Bool.not_eq_false _ ▸ hne)
    simp [hvalid k] at this
  have hstored (k : Lane) :
      Wbuffer.stored cfg t.dc.hw.wbuf (wbufIn cfg t.dc.hw i) n k = i.store.be k := by
    simp [Wbuffer.stored, hgnt, hptr]
    rfl
  have hsent (k : Lane) :
      Wbuffer.sent t.dc.hw.wbuf i.choice (wbufIn cfg t.dc.hw i) n k = false := by
    by_contra hne
    have := (h.books.wbuf.of_sent he.chosen (Bool.not_eq_false _ ▸ hne)).2.2.2.1
    simp [hdirty k] at this
  refine ⟨?_, htag.symm, rfl, ?_, ?_, ?_, ?_⟩
  · show Wbuffer.niPendingNext cfg t.dc.hw.wbuf (wbufIn cfg t.dc.hw i) n = true
    unfold Wbuffer.niPendingNext
    rw [if_pos (by simp [hgnt, hptr])]
    exact hni
  · funext k
    show (Wbuffer.bufferNext cfg t.dc.hw.wbuf i.choice (wbufIn cfg t.dc.hw i) n).valid k = _
    rw [Wbuffer.bufferNext_valid, hstored, hvalid]
    rfl
  · funext k
    show (Wbuffer.bufferNext cfg t.dc.hw.wbuf i.choice (wbufIn cfg t.dc.hw i) n).dirty k = _
    rw [Wbuffer.bufferNext_dirty, hstored, hdirty]
    rfl
  · intro k
    show (Wbuffer.bufferNext cfg t.dc.hw.wbuf i.choice (wbufIn cfg t.dc.hw i) n).txblock k = _
    rw [Wbuffer.bufferNext_txblock, hsent, htx]
    rfl
  · intro k hk
    show (Wbuffer.bufferNext cfg t.dc.hw.wbuf i.choice (wbufIn cfg t.dc.hw i) n).data k = _
    rw [Wbuffer.bufferNext_data, hstored, if_pos hk]
    rfl

theorem Exact.pending_next (he : Served t.dc i) (n : Ptr)
    (hn : HoldsNi cfg (t.dc.next cfg i).hw.wbuf n) :
    (t.dc.next cfg i).hw.wbuf.niPending n = true ∧
      ∃ w rest, (t.next cfg i).stores = w :: rest ∧
        w.store.wtag = ((t.dc.next cfg i).hw.wbuf.buffer n).wtag ∧
        (w.store.Aligned →
          w.Unsent (t.dc.next cfg i).hw.wbuf n ∨ w.Left (t.dc.next cfg i).hw.wbuf n) := by
  by_cases htaken : storeGnt cfg t.dc.hw i = true ∧ cfg.nonIdempotent i.store.wtag.tag = true
  · obtain ⟨hg, hni⟩ := htaken
    obtain ⟨hpend, htag, hunsent⟩ := h.taken_next he hg hni hn
    refine ⟨hpend, ⟨i.store, []⟩, Written.send (niWrites cfg t.dc i) t.stores, ?_, htag,
      fun _ => .inl hunsent⟩
    show (niStores cfg t.dc i).map _ ++ _ = _
    rw [(niStores_of_taken hg hni).1]
    rfl
  · have hold := holds_of_next htaken hn
    obtain ⟨-, w, rest, hstores, htag, hphase⟩ := h.pending n hold
    have hkeep : ((t.dc.next cfg i).hw.wbuf.buffer n).wtag = (t.dc.hw.wbuf.buffer n).wtag :=
      Wbuffer.wtag_stable hold.1
    refine ⟨h.niPending_next hold hn.1, ⟨w.store, w.writes ++ niWrites cfg t.dc i⟩, rest, ?_,
      htag.trans hkeep.symm, ?_⟩
    · show (niStores cfg t.dc i).map _ ++ Written.send _ t.stores = _
      rw [(h.untouched hold).1, hstores]
      rfl
    · intro ha
      rcases hphase ha with hu | hl
      · exact (h.unsent_next he hold htag ha hu).2
      · obtain ⟨hnow, hleft⟩ := h.left_next he hold hl
        rw [hnow, List.append_nil]
        exact .inr hleft

theorem Exact.done_next (he : Served t.dc i)
    (hnone : ∀ n, ¬HoldsNi cfg (t.dc.next cfg i).hw.wbuf n) (w : Written)
    (hw : w ∈ (t.next cfg i).stores.head?) (ha : w.store.Aligned) : w.Once := by
  have hw : w ∈ ((niStores cfg t.dc i).map (fun r => (⟨r, []⟩ : Written)) ++
    Written.send (niWrites cfg t.dc i) t.stores).head? := hw
  rcases niStores_cases cfg i t.dc with ⟨hg, hni⟩ | hnil
  · -- an aligned store has bytes, so it is in the buffer now
    rw [(niStores_of_taken hg hni).1] at hw
    obtain rfl : ⟨i.store, []⟩ = w := by simpa using hw
    obtain ⟨k, hk⟩ := any_iff.mp ha.1
    let n := Wbuffer.wrPtr t.dc.hw.wbuf (wbufIn cfg t.dc.hw i)
    have hg : Wbuffer.dataGnt cfg t.dc.hw.wbuf (wbufIn cfg t.dc.hw i) = true := hg
    refine absurd ⟨Wbuffer.valid_iff.mpr ⟨k, ?_⟩, ?_⟩ (hnone n)
    · show (Wbuffer.bufferNext cfg t.dc.hw.wbuf i.choice (wbufIn cfg t.dc.hw i) n).valid k = true
      refine Wbuffer.valid_next.mpr (.inr ?_)
      have hk : (wbufIn cfg t.dc.hw i).store.be k = true := hk
      simp [Wbuffer.stored, hg, n, hk]
    · show cfg.nonIdempotent (Wbuffer.bufferNext cfg t.dc.hw.wbuf i.choice
        (wbufIn cfg t.dc.hw i) n).wtag.tag = true
      rw [Wbuffer.bufferNext_wtag, if_pos (by simp [hg, n])]
      exact hni
  · rw [hnil, List.map_nil, List.nil_append] at hw
    cases hstores : t.stores with
    | nil => simp [hstores, Written.send] at hw
    | cons w' rest =>
        rw [hstores] at hw
        obtain rfl : ⟨w'.store, w'.writes ++ niWrites cfg t.dc i⟩ = w := by
          simpa [Written.send] using hw
        have ha : w'.store.Aligned := ha
        by_cases hold : ∀ n, ¬HoldsNi cfg t.dc.hw.wbuf n
        · have hw' : w' ∈ t.stores.head? := by simp [hstores]
          rw [h.niWrites_of_none he hold, List.append_nil]
          exact h.done hold w' hw' ha
        · obtain ⟨n, hn⟩ := not_forall.mp hold
          have hn := not_not.mp hn
          obtain ⟨-, v, rest', hv, htag, hphase⟩ := h.pending n hn
          obtain ⟨rfl, -⟩ : w' = v ∧ rest = rest' := by simpa [hstores] using hv
          have hkeep : (Wbuffer.bufferNext cfg t.dc.hw.wbuf i.choice (wbufIn cfg t.dc.hw i)
              n).wtag = (t.dc.hw.wbuf.buffer n).wtag := Wbuffer.wtag_stable hn.1
          rcases hphase ha with hu | hl
          · have hvalid := (h.unsent_next he hn htag ha hu).1
            refine absurd ⟨hvalid, ?_⟩ (hnone n)
            show cfg.nonIdempotent (Wbuffer.bufferNext cfg t.dc.hw.wbuf i.choice
              (wbufIn cfg t.dc.hw i) n).wtag.tag = true
            rw [hkeep]
            exact hn.2
          · rw [(h.left_next he hn hl).1, List.append_nil]
            exact hl.once

theorem Exact.past_next (he : Served t.dc i) (w : Written)
    (hw : w ∈ (t.next cfg i).stores.tail) (ha : w.store.Aligned) : w.Once := by
  have hw : w ∈ ((niStores cfg t.dc i).map (fun r => (⟨r, []⟩ : Written)) ++
    Written.send (niWrites cfg t.dc i) t.stores).tail := hw
  rcases niStores_cases cfg i t.dc with ⟨hg, hni⟩ | hnil
  · have hnone := h.none_of_taken hg hni
    have hsame : Written.send [] t.stores = t.stores := by
      cases t.stores with
      | nil => rfl
      | cons v rest => simp [Written.send]
    rw [(niStores_of_taken hg hni).1, h.niWrites_of_none he hnone, hsame] at hw
    have hw : w ∈ t.stores := hw
    cases hstores : t.stores with
    | nil => simp [hstores] at hw
    | cons v rest =>
        rw [hstores] at hw
        rcases List.mem_cons.mp hw with rfl | hmem
        · exact h.done hnone w (by simp [hstores]) ha
        · exact h.past w (by simpa [hstores] using hmem) ha
  · rw [hnil, List.map_nil, List.nil_append] at hw
    have hsame : (Written.send (niWrites cfg t.dc i) t.stores).tail = t.stores.tail := by
      cases t.stores <;> rfl
    rw [hsame] at hw
    exact h.past w hw ha

theorem Exact.one_next (n n' : Ptr) (hn : (t.dc.next cfg i).hw.wbuf.niPending n = true)
    (hn' : (t.dc.next cfg i).hw.wbuf.niPending n' = true) : n = n' := by
  have hcases {m : Ptr} (hm : (t.dc.next cfg i).hw.wbuf.niPending m = true) :
      (storeGnt cfg t.dc.hw i = true ∧ cfg.nonIdempotent i.store.wtag.tag = true ∧
        m = Wbuffer.wrPtr t.dc.hw.wbuf (wbufIn cfg t.dc.hw i)) ∨
        t.dc.hw.wbuf.niPending m = true := by
    have hm : Wbuffer.niPendingNext cfg t.dc.hw.wbuf (wbufIn cfg t.dc.hw i) m = true := hm
    unfold Wbuffer.niPendingNext at hm
    split_ifs at hm with hw
    · rw [Bool.and_eq_true, beq_iff_eq] at hw
      exact .inl ⟨hw.1, hm, hw.2⟩
    · exact .inr hm
  have hold {m : Ptr} (hg : storeGnt cfg t.dc.hw i = true)
      (hni : cfg.nonIdempotent i.store.wtag.tag = true)
      (hm : t.dc.hw.wbuf.niPending m = true) : False := by
    rw [(niStores_of_taken hg hni).2 m] at hm
    cases hm
  rcases hcases hn with ⟨hg, hni, hptr⟩ | hpend
  · rcases hcases hn' with ⟨-, -, hptr'⟩ | hpend'
    · rw [hptr, hptr']
    · exact (hold hg hni hpend').elim
  · rcases hcases hn' with ⟨hg, hni, -⟩ | hpend'
    · exact (hold hg hni hpend).elim
    · exact h.one n n' hpend hpend'

theorem Exact.all_next (he : Served t.dc i) :
    (t.next cfg i).writes = (t.next cfg i).stores.reverse.flatMap Written.writes := by
  show t.writes ++ niWrites cfg t.dc i = ((niStores cfg t.dc i).map (fun r => (⟨r, []⟩ : Written)) ++
    Written.send (niWrites cfg t.dc i) t.stores).reverse.flatMap Written.writes
  have hnew : ((niStores cfg t.dc i).map (fun r => (⟨r, []⟩ : Written))).reverse.flatMap
      Written.writes = [] := by
    unfold niStores
    split <;> rfl
  rw [List.reverse_append, List.flatMap_append, hnew, List.append_nil, h.all]
  cases hstores : t.stores with
  | nil =>
      have hnone (n : Ptr) : ¬HoldsNi cfg t.dc.hw.wbuf n := by
        intro hn
        obtain ⟨-, w, rest, hw, -⟩ := h.pending n hn
        rw [hstores] at hw
        cases hw
      rw [h.niWrites_of_none he hnone]
      rfl
  | cons w rest => simp [Written.send]

theorem Exact.next (he : Served t.dc i) : Exact cfg (t.next cfg i) where
  books := h.books.next he.1 he.chosen
  all := h.all_next he
  past := h.past_next he
  one := h.one_next
  pending := h.pending_next he
  done := h.done_next he

end Step

theorem exact_init (z : Start) : Exact cfg (traced cfg z).init where
  books := books_start z
  all := rfl
  past := by simp [traced]
  one := nofun
  pending := by
    intro n hn
    have hv : Wbuffer.valid Wbuffer.reset n = true := hn.1
    simp [Wbuffer.valid, Wbuffer.reset, Wbuffer.Entry.reset, any] at hv
  done := by simp [traced]

/-- The newest store has been sent once or not at all. -/
theorem Exact.newest {cfg : Cfg} {t : Traced} (h : Exact cfg t) (w : Written)
    (hw : w ∈ t.stores.head?) (ha : w.store.Aligned) : w.writes = [] ∨ w.Once := by
  by_cases hn : ∃ n, HoldsNi cfg t.dc.hw.wbuf n
  · obtain ⟨n, hn⟩ := hn
    obtain ⟨-, w', rest, hstores, -, hcase⟩ := h.pending n hn
    rw [hstores, List.head?_cons, Option.mem_some_iff] at hw
    subst hw
    exact (hcase ha).imp Written.Unsent.writes Written.Left.once
  · exact .inr (h.done (not_exists.mp hn) w hw ha)

/-- In every run the writes to non-idempotent pages are those of the stores to them, in the
order in which the write buffer took the stores. An aligned store is written once, with its own
address, size and bytes, before the next one is taken. -/
theorem ni_stores_written_once (cfg : Cfg) (z : Start) (ins : List Input)
    (henv : (traced cfg z).Throughout (fun t i => Served t.dc i) ins) :
    let t := (traced cfg z).run ins
    t.writes = t.stores.reverse.flatMap Written.writes ∧
      (∀ w ∈ t.stores.tail, w.store.Aligned → w.Once) ∧
      (∀ w ∈ t.stores.head?, w.store.Aligned → w.writes = [] ∨ w.Once) ∧
      ((∀ n, ¬HoldsNi cfg t.dc.hw.wbuf n) → ∀ w ∈ t.stores, w.store.Aligned → w.Once) := by
  intro t
  have h : Exact cfg t :=
    Machine.invariant (exact_init z) (fun _ _ h he => h.next he) ins henv
  refine ⟨h.all, h.past, h.newest, ?_⟩
  intro hnone w hw ha
  cases hstores : t.stores with
  | nil =>
      rw [hstores] at hw
      cases hw
  | cons w' rest =>
      rw [hstores] at hw
      rcases List.mem_cons.mp hw with rfl | hw
      · exact h.done hnone w (by rw [hstores]; rfl) ha
      · exact h.past w (by rw [hstores]; exact hw) ha

/-! ## Two stores to a device -/

theorem traced_quiet {cfg : Cfg} {z : Start} {ins : List Input} (hq : ∀ i ∈ ins, Quiet i) :
    (traced cfg z).run ins = ⟨(dcache cfg z).run ins, [], []⟩ := by
  induction ins using List.reverseRecOn with
  | nil => rfl
  | append_singleton ins i ih =>
      have hi : Quiet i := hq i (by simp)
      rw [Machine.run_snoc, Machine.run_snoc, ih fun j hj => hq j (by simp [hj])]
      show Traced.next cfg _ i = _
      rw [Traced.next, niWrites, accepted_quiet hi, niStores, storeGnt, dataGnt_quiet hi]
      rfl

theorem served_flushRun (cfg : Cfg) (z : Start) :
    (traced cfg z).Throughout (fun t i => Served t.dc i) flushRun := by
  intro pre i post hp
  have hpre : ∀ j ∈ pre, Quiet j := fun j hj => quiet_flushRun (by rw [hp]; simp [hj])
  have hc : Contract ((dcache cfg z).run pre) i := contract_flushRun pre i post hp
  rw [traced_quiet hpre]
  exact ⟨hc.write, hc.arbiters⟩

/-- Two stores after the flush. The second one waits until the first one has been acknowledged
and has left the buffer. -/
def twoStores : List Input :=
  let off : Input := { Input.silent with choice := ⟨0, 1, 0⟩ }
  let second (i : Input) : Input :=
    { i with store := ⟨{ (default : WordAddr) with bank := 1 }, fun _ => 9, lanes 0xf0, true⟩ }
  let acked (id : TxId) (i : Input) : Input :=
    { i with
      apply := fun id' => id' == id
      memRtrnVld := true
      memRtrn := ⟨.STORE_ACK, fun _ _ => 0, ⟨false, false, 0, 0⟩, id⟩ }
  [{ Input.silent with store := ⟨default, fun _ => 7, lanes 0x0f, true⟩ }, second .silent,
    second .silent, second { Input.silent with memDataAck := true }, second (acked 0 off),
    second off, second off, off, off, { off with memDataAck := true }, acked 1 .silent, .silent]

def storeRun : List Input := flushRun ++ twoStores

theorem run_storeRun : (traced devicePages cleared).run storeRun =
    (traced devicePages cleared).runFrom ⟨flushing cleared 255, [], []⟩ twoStores := by
  rw [storeRun, Machine.run_append, traced_quiet fun _ => quiet_flushRun, run_flushRun]

theorem served_storeRun :
    (traced devicePages cleared).Throughout (fun t i => Served t.dc i) storeRun := by
  refine Machine.throughout_append.mpr ⟨served_flushRun _ _, ?_⟩
  rw [traced_quiet fun _ => quiet_flushRun, run_flushRun]
  decide +kernel

instance (r : StoreReq) : Decidable r.Aligned := inferInstanceAs (Decidable (_ ∧ _))

theorem ni_stores_written_once_storeRun :
    let t := (traced devicePages cleared).run storeRun
    t.stores.length = 2 ∧ (∀ w ∈ t.stores, w.Once) ∧
      t.writes = t.stores.reverse.flatMap Written.writes := by
  have h := ni_stores_written_once devicePages cleared storeRun served_storeRun
  rw [run_storeRun] at h ⊢
  obtain ⟨hall, -, -, hdone⟩ := h
  refine ⟨by decide +kernel, fun w hw => hdone ?_ w hw ?_, hall⟩
  · have hempty : ∀ n, Wbuffer.valid ((traced devicePages cleared).runFrom
        ⟨flushing cleared 255, [], []⟩ twoStores).dc.hw.wbuf n = false := by decide +kernel
    exact fun n hn => Bool.noConfusion ((hempty n).symm.trans hn.1)
  · revert w
    decide +kernel

end Cva6.Dcache
