import Cva6.Dcache.Checked
import Cva6.Dcache.InFlight
import Cva6.Dcache.ResetFlush
import Cva6.Sync.Overlay
/-!
# One memory

A byte can be in the write buffer, in a transaction in flight, in a way of the cache and in
memory at the same time. What the core sees is the write buffer over the memory: an entry gives
up a byte only when the memory holds it, and a way that is valid holds what the memory holds
wherever the write buffer holds nothing.
-/

namespace Cva6.Dcache

open Cva6.Sync

/-! ## The bytes of the write buffer -/

abbrev ByteAddr := WordAddr × Lane

def byteOf (m : Memory) (x : ByteAddr) : Byte := m x.1 x.2

def buffered (buffer : Ptr → Entry) (x : ByteAddr) : Option Byte :=
  let hit := buffer (lzc (Mem.wbufferHitOh buffer x.1))
  if any (Mem.wbufferHitOh buffer x.1) && hit.valid x.2 then some (hit.data x.2) else none

/-- The readout of the cache shows the write buffer over what has been read. -/
theorem overlay_eq (buffer : Ptr → Entry) (a : WordAddr) (w : Word) (k : Lane) :
    Mem.overlay buffer a w k = (buffered buffer (a, k)).getD (w k) := by
  unfold Mem.overlay buffered
  simp only
  split <;> rfl

structure HoldsByte (q : Wbuffer.Regs) (n : Ptr) (x : ByteAddr) : Prop where
  wtag : (q.buffer n).wtag = x.1
  valid : (q.buffer n).valid x.2 = true

theorem HoldsByte.entry {q : Wbuffer.Regs} {n : Ptr} {x : ByteAddr} (h : HoldsByte q n x) :
    Wbuffer.valid q n = true :=
  Wbuffer.valid_iff.mpr ⟨x.2, h.valid⟩

section Buffered

variable {q : Wbuffer.Regs} {x : ByteAddr} {n : Ptr}

theorem buffered_of_holds (hq : Wbuffer.Ok q) (h : HoldsByte q n x) :
    buffered q.buffer x = some ((q.buffer n).data x.2) := by
  have hn : Mem.wbufferHitOh q.buffer x.1 n = true := by
    rw [Mem.wbufferHitOh, Bool.and_eq_true, beq_iff_eq]
    exact ⟨h.entry, h.wtag⟩
  have hany : any (Mem.wbufferHitOh q.buffer x.1) = true := any_iff.mpr ⟨n, hn⟩
  have hhit := lzc_of_any hany
  rw [Mem.wbufferHitOh, Bool.and_eq_true, beq_iff_eq] at hhit
  have hone : lzc (Mem.wbufferHitOh q.buffer x.1) = n :=
    hq.distinct _ _ hhit.1 h.entry (hhit.2.trans h.wtag.symm)
  unfold buffered
  simp only [hany, hone, h.valid, Bool.and_self, if_true]

theorem buffered_eq_none (h : ∀ n, ¬HoldsByte q n x) : buffered q.buffer x = none := by
  unfold buffered
  simp only
  refine if_neg fun hit => ?_
  rw [Bool.and_eq_true] at hit
  have hhit := lzc_of_any hit.1
  rw [Mem.wbufferHitOh, Bool.and_eq_true, beq_iff_eq] at hhit
  exact h _ ⟨hhit.2, hit.2⟩

theorem not_holds_of_none (hq : Wbuffer.Ok q) (h : buffered q.buffer x = none) (n : Ptr) :
    ¬HoldsByte q n x := by
  intro hn
  rw [buffered_of_holds hq hn] at h
  cases h

end Buffered

/-! ## The invariant -/

structure Carries (q : Wbuffer.Regs) (id : TxId) (x : ByteAddr) : Prop where
  vld : (q.txStat id).vld = true
  wtag : (q.buffer (q.txStat id).ptr).wtag = x.1
  be : (q.txStat id).be x.2 = true

/-- The write that the memory side has of transaction `id`. -/
structure WriteIs (s : State) (id : TxId) (w : PendingWrite) : Prop where
  addr : w.addr = (s.hw.wbuf.buffer (s.hw.wbuf.txStat id).ptr).wtag
  be : w.be = (s.hw.wbuf.txStat id).be
  /-- A byte that has not been stored again since it was sent. -/
  data : ∀ k, w.be k = true →
    (s.hw.wbuf.buffer (s.hw.wbuf.txStat id).ptr).dirty k = false →
    w.data k = (s.hw.wbuf.buffer (s.hw.wbuf.txStat id).ptr).data k
  applied : w.applied = true → ∀ k, w.be k = true → s.side.mem w.addr k = w.data k

/-- The valid ways of the set hold what the memory holds, where the write buffer holds nothing. -/
def SetOk (s : State) (idx : Idx) : Prop :=
  ∀ way tag, s.hw.mem.tags idx way = ⟨true, tag⟩ → ∀ b k,
    buffered s.hw.wbuf.buffer (⟨tag, idx, b⟩, k) = none →
    s.hw.mem.data b idx way k = s.side.mem ⟨tag, idx, b⟩ k

structure Consistent (s : State) : Prop where
  seen : byteOf s.arch = view (buffered s.hw.wbuf.buffer) (byteOf s.side.mem)
  sent : ∀ id, ∀ w ∈ s.side.writes id, WriteIs s id w
  /-- The memory holds the bytes of a transaction that has been answered. -/
  answered : ∀ id x, Carries s.hw.wbuf id x → s.side.writes id = none →
    (s.hw.wbuf.buffer (s.hw.wbuf.txStat id).ptr).dirty x.2 = false →
    byteOf s.side.mem x = (s.hw.wbuf.buffer (s.hw.wbuf.txStat id).ptr).data x.2
  /-- The write buffer was empty when the miss unit took the atomic. -/
  since : Missunit.amoSel s.hw.miss = true →
    ∀ x : ByteAddr, s.since x.1 x.2 = (buffered s.hw.wbuf.buffer x).isSome
  sampled : ∀ l ∈ s.side.load, ∀ d ∈ l.sample, d = lineAt s.side.mem l.paddr.word
  cached : ∀ idx, Awaited s.hw idx ∨ SetOk s idx

theorem consistent_start (z : Start) : Consistent (start z) where
  seen := by
    funext x
    have hnone : buffered (start z).hw.wbuf.buffer x = none :=
      buffered_eq_none fun n hn => by cases hn.valid
    rw [view_of_none hnone]
    rfl
  sent _ _ h := by cases h
  answered _ _ h := by cases h.vld
  since h := by cases h
  sampled _ h := by cases h
  cached _ := .inl ⟨rfl, Nat.zero_le _⟩

variable {cfg : Cfg} {s : State} {i : Input} {x : ByteAddr} {id : TxId}

/-! ## What changes in memory -/

theorem Carries.holds (hb : Books s) (hx : Carries s.hw.wbuf id x) :
    HoldsByte s.hw.wbuf (s.hw.wbuf.txStat id).ptr x :=
  ⟨hx.wtag, hb.wbuf.txblock_valid _ _ (hb.wbuf.tx_block id hx.vld _ hx.be)⟩

theorem Carries.unique (hb : Books s) {id' : TxId} (hx : Carries s.hw.wbuf id x)
    (hx' : Carries s.hw.wbuf id' x) : id = id' :=
  hb.wbuf.tx_ptr _ _ hx.vld hx'.vld (hb.wbuf.distinct _ _ (hx.holds hb).entry (hx'.holds hb).entry
    (hx.wtag.trans hx'.wtag.symm))

theorem Carries.txLine (hx : Carries s.hw.wbuf id x) : Dcache.txLine s.hw id = some x.1.line := by
  unfold Dcache.txLine
  simp only [hx.vld, if_true, hx.wtag]

section Memory

variable (h : Consistent s) (hb : Books s) (hf : InFlight s)
include h hb

theorem carries_of_appliesTo (ha : appliesTo s.side i x.1 x.2 id = true) :
    Carries s.hw.wbuf id x ∧ ∃ w, s.side.writes id = some w ∧ i.apply id = true := by
  rw [appliesTo, Bool.and_eq_true] at ha
  obtain ⟨hnow, ha⟩ := ha
  cases hw : s.side.writes id with
  | none => rw [hw] at ha; cases ha
  | some w =>
      rw [hw] at ha
      simp only [Bool.and_eq_true, beq_iff_eq] at ha
      obtain ⟨haddr, hbe, -, -⟩ := h.sent id w hw
      refine ⟨⟨(hb.writes id (by rw [hw]; rfl)).1, ?_, ?_⟩, w, rfl, hnow⟩
      · rw [← haddr, ha.1.2]
      · rw [← hbe, ha.2]

/-- Memory changes where a transaction carries a byte only. -/
theorem appliedByte_of_not_carried (hx : ∀ id, ¬Carries s.hw.wbuf id x) :
    appliedByte s.side i x.1 x.2 = byteOf s.side.mem x := by
  unfold appliedByte
  refine if_neg fun hany => ?_
  obtain ⟨id, hid⟩ := any_iff.mp hany
  exact hx id (carries_of_appliesTo h hb hid).1

theorem appliedByte_of_answered (hx : Carries s.hw.wbuf id x) (hw : s.side.writes id = none) :
    appliedByte s.side i x.1 x.2 = byteOf s.side.mem x := by
  unfold appliedByte
  refine if_neg fun hany => ?_
  obtain ⟨id', hid⟩ := any_iff.mp hany
  obtain ⟨hx', w, hw', -⟩ := carries_of_appliesTo h hb hid
  rw [← hx.unique hb hx', hw] at hw'
  cases hw'

theorem appliedByte_of_write {w : PendingWrite} (hx : Carries s.hw.wbuf id x)
    (hw : s.side.writes id = some w) (happ : w.applied = true ∨ i.apply id = true) :
    appliedByte s.side i x.1 x.2 = w.data x.2 := by
  obtain ⟨haddr, hbe, -, happlied⟩ := h.sent id w hw
  have haddr : w.addr = x.1 := haddr.trans hx.wtag
  have hbe : w.be x.2 = true := by rw [hbe, hx.be]
  unfold appliedByte
  by_cases hany : any (appliesTo s.side i x.1 x.2) = true
  · have hid := (carries_of_appliesTo h hb (lzc_of_any hany)).1
    rw [if_pos hany, ← hx.unique hb hid, hw]
    rfl
  · rw [if_neg hany]
    -- it is not applied now, so that it has been
    have hold : w.applied = true := by
      by_contra hnot
      refine hany (any_iff.mpr ⟨id, ?_⟩)
      simp only [appliesTo, hw, happ.resolve_left hnot, Bool.eq_false_iff.mpr hnot, haddr, hbe,
        beq_self_eq_true, Bool.not_false, Bool.and_self]
    rw [← haddr]
    exact happlied hold x.2 hbe

omit h hb in
include hf in
/-- The atomic is performed while nothing else is in flight. -/
theorem amoByte_eq_none (hsel : Missunit.amoSel s.hw.miss = false) (a : WordAddr) (k : Lane) :
    amoByte s.side i a k = none := by
  unfold amoByte
  cases ha : s.side.amo with
  | none => cases i.amoApply <;> rfl
  | some am =>
      have hstate := hf.amo (by rw [ha]; rfl)
      simp [Missunit.amoSel, hstate] at hsel

omit h hb in
include hf in
theorem amoSel_of_vld (hv : (s.hw.wbuf.txStat id).vld = true) :
    Missunit.amoSel s.hw.miss = false := by
  by_contra hsel
  rw [(hf.alone (Bool.not_eq_false _ ▸ hsel)).2 id] at hv
  cases hv

omit h hb in
include hf in
theorem amoSel_of_mshrVldQ (hv : s.hw.miss.mshrVldQ = true) :
    Missunit.amoSel s.hw.miss = false := by
  by_contra hsel
  rw [(hf.alone (Bool.not_eq_false _ ▸ hsel)).1] at hv
  cases hv

omit h hb in
include hf in
theorem byteOf_memNext (hsel : Missunit.amoSel s.hw.miss = false) :
    byteOf (memNext s.side i) x = appliedByte s.side i x.1 x.2 := by
  show (amoByte s.side i x.1 x.2).getD _ = _
  rw [amoByte_eq_none hf hsel]
  rfl

include hf in
theorem memNext_of_mshrVldQ (hv : s.hw.miss.mshrVldQ = true) (hx : x.1.line = mshrLine s.hw) :
    byteOf (memNext s.side i) x = byteOf s.side.mem x := by
  rw [byteOf_memNext hf (amoSel_of_mshrVldQ hf hv)]
  refine appliedByte_of_not_carried h hb fun id hid => hf.apart hv id ?_
  rw [hid.txLine, hx]

end Memory

/-! ## What changes in the write buffer -/

/-- The transaction of the byte is done, and the byte has not been stored again. -/
structure Released (cfg : Cfg) (s : State) (i : Input) (x : ByteAddr) : Prop where
  evict : Wbuffer.evict s.hw.wbuf (wbufIn cfg s.hw i) = true
  carries : Carries s.hw.wbuf (Wbuffer.rtrnId s.hw.wbuf) x
  clean : (rtrnEntry s.hw).dirty x.2 = false

variable (cfg s i) in
def storeWrite (x : ByteAddr) : Option Byte :=
  if stores cfg s i x.1 x.2 then some (i.store.wdata x.2) else none

theorem storeWrite_eq_none : storeWrite cfg s i x = none ↔ ¬stores cfg s i x.1 x.2 = true := by
  rw [storeWrite, ite_eq_right_iff]
  exact forall_congr' fun _ => iff_false_intro (Option.some_ne_none _)

theorem stores_iff : stores cfg s i x.1 x.2 = true ↔
    storeGnt cfg s.hw i = true ∧ i.store.wtag = x.1 ∧ i.store.be x.2 = true := by
  rw [stores, Bool.and_eq_true, Bool.and_eq_true, beq_iff_eq, and_assoc]

section Buffer

variable (hb : Books s)
include hb

theorem stored_iff {n : Ptr} (hn : Wbuffer.valid s.hw.wbuf n = true)
    (hx : (s.hw.wbuf.buffer n).wtag = x.1) :
    Wbuffer.stored cfg s.hw.wbuf (wbufIn cfg s.hw i) n x.2 = true ↔
      stores cfg s i x.1 x.2 = true := by
  rw [stores_iff, Wbuffer.stored, Bool.and_eq_true, Bool.and_eq_true, beq_iff_eq, and_assoc]
  refine and_congr_right fun hg => and_congr_left fun _ => ?_
  rcases Wbuffer.of_dataGnt hg with ⟨hv, htag⟩ | ⟨hfree, hnone⟩
  · constructor
    · rintro rfl
      rw [← hx]
      exact htag.symm
    · intro heq
      exact hb.wbuf.distinct _ _ hn hv (hx.trans (heq.symm.trans htag.symm))
  · constructor
    · rintro rfl
      rw [hn] at hfree
      cases hfree
    · intro heq
      exact absurd (hx.trans heq.symm) (hnone n hn)

theorem released_iff {n : Ptr} (hn : HoldsByte s.hw.wbuf n x) :
    (Wbuffer.returned s.hw.wbuf (wbufIn cfg s.hw i) n x.2 = true ∧
      (s.hw.wbuf.buffer n).dirty x.2 = false) ↔ Released cfg s i x := by
  constructor
  · rintro ⟨hr, hclean⟩
    obtain ⟨hev, rfl, -⟩ := hb.wbuf.of_returned hr
    rw [Wbuffer.returned, Bool.and_eq_true] at hr
    exact ⟨hev, ⟨hb.wbuf.rtrnId_vld hev, hn.wtag, hr.2⟩, hclean⟩
  · rintro ⟨hev, hx, hclean⟩
    have hptr : n = Wbuffer.rtrnPtr s.hw.wbuf :=
      hb.wbuf.distinct _ _ hn.entry (hx.holds hb).entry (hn.wtag.trans hx.wtag.symm)
    rw [hptr]
    refine ⟨?_, hclean⟩
    rw [Wbuffer.returned, hev, beq_self_eq_true]
    exact hx.be

theorem holds_next_iff {n : Ptr} : HoldsByte (hwNext cfg s.hw i).wbuf n x ↔
    (stores cfg s i x.1 x.2 = true ∧ n = Wbuffer.wrPtr s.hw.wbuf (wbufIn cfg s.hw i)) ∨
      (HoldsByte s.hw.wbuf n x ∧ ¬Released cfg s i x) := by
  constructor
  · rintro ⟨hwtag, hvalid⟩
    rcases Wbuffer.valid_next.mp hvalid with ⟨hold, hret⟩ | hst
    · have hn : HoldsByte s.hw.wbuf n x :=
        ⟨(Wbuffer.wtag_stable (Wbuffer.valid_iff.mpr ⟨_, hold⟩)).symm.trans hwtag, hold⟩
      refine .inr ⟨hn, fun hr => ?_⟩
      obtain ⟨hr, hclean⟩ := (released_iff hb hn).mpr hr
      rw [hret hr] at hclean
      cases hclean
    · have hst' := hst
      rw [Wbuffer.stored, Bool.and_eq_true, Bool.and_eq_true, beq_iff_eq] at hst'
      obtain ⟨⟨hg, hptr⟩, hbe⟩ := hst'
      have hwtag : (Wbuffer.bufferNext cfg s.hw.wbuf i.choice (wbufIn cfg s.hw i) n).wtag = x.1 :=
        hwtag
      rw [Wbuffer.bufferNext_wtag, hg, hptr, beq_self_eq_true] at hwtag
      exact .inl ⟨stores_iff.mpr ⟨hg, hwtag, hbe⟩, hptr⟩
  · rintro (⟨hst, rfl⟩ | ⟨hn, hkeep⟩)
    · obtain ⟨hg, hwtag, hbe⟩ := stores_iff.mp hst
      have hg : Wbuffer.dataGnt cfg s.hw.wbuf (wbufIn cfg s.hw i) = true := hg
      refine ⟨?_, Wbuffer.valid_next.mpr (.inr ?_)⟩
      · show (Wbuffer.bufferNext cfg s.hw.wbuf i.choice (wbufIn cfg s.hw i) _).wtag = _
        rw [Wbuffer.bufferNext_wtag, hg, beq_self_eq_true]
        exact hwtag
      · rw [Wbuffer.stored, hg, beq_self_eq_true]
        exact hbe
    · refine ⟨(Wbuffer.wtag_stable hn.entry).trans hn.wtag, Wbuffer.valid_next.mpr (.inl ?_)⟩
      refine ⟨hn.valid, fun hr => ?_⟩
      by_contra hclean
      exact hkeep ((released_iff hb hn).mp ⟨hr, Bool.eq_false_iff.mpr hclean⟩)

variable (hok : Wbuffer.Ok (hwNext cfg s.hw i).wbuf)

include hok in
theorem buffered_of_stores (hst : stores cfg s i x.1 x.2 = true) :
    buffered (hwNext cfg s.hw i).wbuf.buffer x = some (i.store.wdata x.2) := by
  have hn := (holds_next_iff hb).mpr (.inl ⟨hst, rfl⟩)
  obtain ⟨hg, -, hbe⟩ := stores_iff.mp hst
  have hg : Wbuffer.dataGnt cfg s.hw.wbuf (wbufIn cfg s.hw i) = true := hg
  have hbe : (wbufIn cfg s.hw i).store.be x.2 = true := hbe
  rw [buffered_of_holds hok hn]
  show some ((Wbuffer.bufferNext cfg s.hw.wbuf i.choice (wbufIn cfg s.hw i) _).data x.2) = _
  rw [Wbuffer.bufferNext_data, if_pos]
  · rfl
  · rw [Wbuffer.stored, hg, beq_self_eq_true, hbe]
    rfl

theorem buffered_of_released (hst : ¬stores cfg s i x.1 x.2 = true)
    (hr : Released cfg s i x) : buffered (hwNext cfg s.hw i).wbuf.buffer x = none := by
  refine buffered_eq_none fun n hn => ?_
  rcases (holds_next_iff hb).mp hn with ⟨hst', -⟩ | ⟨-, hkeep⟩
  · exact hst hst'
  · exact hkeep hr

include hok in
theorem buffered_kept (hst : ¬stores cfg s i x.1 x.2 = true) (hr : ¬Released cfg s i x) :
    buffered (hwNext cfg s.hw i).wbuf.buffer x = buffered s.hw.wbuf.buffer x := by
  by_cases hany : ∃ n, HoldsByte s.hw.wbuf n x
  · obtain ⟨n, hn⟩ := hany
    rw [buffered_of_holds hb.wbuf hn,
      buffered_of_holds hok ((holds_next_iff hb).mpr (.inr ⟨hn, hr⟩))]
    show some ((Wbuffer.bufferNext cfg s.hw.wbuf i.choice (wbufIn cfg s.hw i) n).data x.2) = _
    rw [Wbuffer.bufferNext_data, if_neg]
    rw [stored_iff hb hn.entry hn.wtag]
    exact hst
  · rw [not_exists] at hany
    rw [buffered_eq_none hany]
    refine buffered_eq_none fun n hn => ?_
    rcases (holds_next_iff hb).mp hn with ⟨hst', -⟩ | ⟨hold, -⟩
    · exact hst hst'
    · exact hany n hold

include hok in
/-- A byte that is not in the write buffer after a cycle is released in it, or was not there. -/
theorem of_buffered_next_none (hbuf : buffered (hwNext cfg s.hw i).wbuf.buffer x = none) :
    Released cfg s i x ∨ buffered s.hw.wbuf.buffer x = none := by
  by_cases hr : Released cfg s i x
  · exact .inl hr
  · refine .inr ?_
    rw [← buffered_kept hb hok (fun hst => ?_) hr, hbuf]
    rw [buffered_of_stores hb hok hst] at hbuf
    cases hbuf

end Buffer

/-! ## What changes in the cache -/

structure Refilled (cfg : Cfg) (s : Hw) (i : Input) (idx : Idx) (way : Way) : Prop where
  en : Missunit.clWriteEn s.miss (missIn cfg s i) = true
  set : idx = (mshrLine s).2
  repl : way = s.miss.mshr.replWay

section Sram

variable {s : Hw} {idx : Idx} {way : Way}

theorem quiet_of_loadAck (hh : Held s)
    (hack : Missunit.loadAck s.miss (missIn cfg s i) = true) :
    Missunit.flushEn s.miss = false ∧ Missunit.invVld (missIn cfg s i) = false ∧
      Missunit.invVldAll (missIn cfg s i) = false := by
  rw [Missunit.loadAck, Missunit.rtrn, Bool.and_eq_true, Bool.and_eq_true, beq_iff_eq] at hack
  have hrtrn : Missunit.rtrn (missIn cfg s i) .INV_REQ = false := by
    rw [Missunit.rtrn, hack.1.2]
    exact Bool.and_false _
  refine ⟨?_, ?_, ?_⟩
  · by_contra hflush
    have hv := hack.2
    rw [hh.drained (beq_iff_eq.mp (Bool.not_eq_false _ ▸ hflush))] at hv
    cases hv
  · rw [Missunit.invVld, hrtrn, Bool.false_and]
  · rw [Missunit.invVldAll, hrtrn, Bool.false_and]

theorem wrCl_idx_of_loadAck (hh : Held s)
    (hack : Missunit.loadAck s.miss (missIn cfg s i) = true) :
    (wrCl cfg s i).idx = (mshrLine s).2 := by
  obtain ⟨hflush, hinv, -⟩ := quiet_of_loadAck hh hack
  show (if Missunit.flushEn s.miss then s.miss.cnt
    else if Missunit.invVld (missIn cfg s i) then i.memRtrn.inv.idx
    else s.miss.mshr.paddr.word.idx) = _
  rw [hflush, hinv]
  rfl

theorem wrCl_of_clWriteEn (hh : Held s)
    (hen : Missunit.clWriteEn s.miss (missIn cfg s i) = true) :
    (wrCl cfg s i).vld = true ∧ (wrCl cfg s i).we = bin2oh s.miss.mshr.replWay ∧
      (wrCl cfg s i).idx = (mshrLine s).2 ∧ (wrCl cfg s i).dataBe = true ∧
      (wrCl cfg s i).vldBits = bin2oh s.miss.mshr.replWay := by
  have hack : Missunit.loadAck s.miss (missIn cfg s i) = true := (Bool.and_eq_true _ _ ▸ hen).1
  obtain ⟨hflush, hinv, hall⟩ := quiet_of_loadAck hh hack
  refine ⟨(of_clWriteEn hen).2.2, ?_, wrCl_idx_of_loadAck hh hack, hen, ?_⟩
  · show Missunit.wrClWe s.miss (missIn cfg s i) = _
    simp only [Missunit.wrClWe, hflush, hinv, hall, hen, Bool.false_eq_true, if_false, if_true]
  · show (if Missunit.flushEn s.miss then fun _ => false
      else if Missunit.invVld (missIn cfg s i) then fun _ => false
      else if Missunit.clWriteEn s.miss (missIn cfg s i) then bin2oh s.miss.mshr.replWay
      else fun _ => false : WayMask) = _
    rw [hflush, hinv, hen]
    rfl

theorem Refilled.line (hh : Held s) (hr : Refilled cfg s i idx way) :
    (hwNext cfg s i).mem.tags idx way = ⟨true, (mshrLine s).1⟩ ∧
      ∀ b, (hwNext cfg s i).mem.data b idx way = i.memRtrn.data b := by
  obtain ⟨hvld, hwe, hidx, hbe, hbits⟩ := wrCl_of_clWriteEn hh hr.en
  have hway : (wrCl cfg s i).we way = true := by
    rw [hwe, hr.repl]
    exact beq_self_eq_true _
  constructor
  · show Mem.tagsNext s.mem (wrCl cfg s i) idx way = _
    rw [Mem.tagsNext, hvld, hway, hidx, hr.set, beq_self_eq_true, hbits, hr.repl]
    exact congrArg (TagLine.mk · _) (beq_self_eq_true _)
  · intro b
    show Mem.dataNext s.mem (wrCl cfg s i) (readReq cfg s i) i.rdSel (wordWrite s) b idx way = _
    have hwrite : Mem.clWrite (wrCl cfg s i) = true := by
      rw [Mem.clWrite, hvld, Bool.true_and]
      exact any_iff.mpr ⟨way, hway⟩
    simp only [Mem.dataNext, hwrite, hway, hidx, hr.set, hbe, beq_self_eq_true, Bool.and_self,
      if_true]
    rfl

theorem data_next_of_not_refilled (hh : Held s) (hk : Checks s)
    (hnot : ¬Refilled cfg s i idx way) (b : Bank) (k : Lane) :
    (hwNext cfg s i).mem.data b idx way k =
      if wrAck cfg s i = true ∧ (rtrnEntry s).wtag.bank = b ∧ (rtrnEntry s).wtag.idx = idx ∧
          s.mem.tags idx way = ⟨true, (rtrnEntry s).wtag.tag⟩ ∧ Wbuffer.wrDataBe s.wbuf k = true then
        (rtrnEntry s).data k
      else s.mem.data b idx way k := by
  cases hack : wrAck cfg s i with
  | true =>
      have hup : Updates cfg s i := hk.updates
      rw [hup.written hack]
      by_cases hplace : b = (rtrnEntry s).wtag.bank ∧ idx = (rtrnEntry s).wtag.idx ∧
        s.mem.tags idx way = ⟨true, (rtrnEntry s).wtag.tag⟩
      · rw [if_pos hplace]
        obtain ⟨rfl, rfl, htags⟩ := hplace
        simp only [htags, true_and]
      · rw [if_neg hplace, if_neg]
        rintro ⟨-, hb, hidx, htags, -⟩
        exact hplace ⟨hb.symm, hidx.symm, htags⟩
  | false =>
      rw [if_neg fun hw => Bool.false_ne_true hw.1]
      show Mem.dataNext s.mem (wrCl cfg s i) (readReq cfg s i) i.rdSel (wordWrite s) b idx way k = _
      have hword : Mem.wrAck (wrCl cfg s i) (readReq cfg s i) i.rdSel (wordWrite s) = false := hack
      simp only [Mem.dataNext, hword, Bool.false_and, Bool.false_eq_true, if_false]
      split_ifs with hwrite hline
      · exfalso
        apply hnot
        simp only [Bool.and_eq_true, beq_iff_eq] at hline
        obtain ⟨⟨hidx, hwe⟩, hbe⟩ := hline
        have hen : Missunit.clWriteEn s.miss (missIn cfg s i) = true := hbe
        obtain ⟨-, hwe', hidx', -⟩ := wrCl_of_clWriteEn hh hen
        rw [hwe'] at hwe
        exact ⟨hen, hidx.trans hidx', beq_iff_eq.mp hwe⟩
      all_goals rfl

theorem evict_of_wrAck (h : wrAck cfg s i = true) :
    Wbuffer.evict s.wbuf (wbufIn cfg s i) = true := by
  have hreq := h
  simp only [wrAck, Mem.wrAck, Bool.and_eq_true] at hreq
  obtain ⟨w, hw⟩ := any_iff.mp hreq.1.2
  have hw : (Wbuffer.rtrnReady s.wbuf && Wbuffer.rtrnHit s.wbuf &&
    (rtrnEntry s).hitOh w) = true := hw
  rw [Bool.and_eq_true, Bool.and_eq_true] at hw
  have hack : (wbufIn cfg s i).wrAck = true := h
  rw [Wbuffer.evict, hw.1.1, hack, Bool.or_true]
  rfl

end Sram

/-! ## One cycle -/

namespace Consistent

section Step

variable (h : Consistent s) (hb : Books s) (hf : InFlight s)
  (hok : Wbuffer.Ok (hwNext cfg s.hw i).wbuf)
include h hb hf

/-- The memory holds what the write buffer gives up. -/
theorem memNext_of_released (hr : Released cfg s i x) :
    byteOf (memNext s.side i) x = (rtrnEntry s.hw).data x.2 := by
  have hnone : s.side.writes (Wbuffer.rtrnId s.hw.wbuf) = none := by
    by_contra hw
    refine (hb.writes _ (Option.isSome_iff_ne_none.mpr hw)).2 ?_
    rw [(Wbuffer.of_evict hr.evict).1]
    exact List.mem_cons_self
  rw [byteOf_memNext hf (amoSel_of_vld hf hr.carries.vld), appliedByte_of_answered h hb hr.carries
    hnone]
  exact h.answered _ x hr.carries hnone hr.clean

include hok in
theorem moves : Moves (storeWrite cfg s i) (buffered s.hw.wbuf.buffer)
    (buffered (hwNext cfg s.hw i).wbuf.buffer) (byteOf (memNext s.side i)) := by
  refine ⟨fun x b hw => ?_, fun x b hw hx => ?_, fun x hw hx => ?_⟩
  · rw [storeWrite, Option.ite_none_right_eq_some] at hw
    rw [buffered_of_stores hb hok hw.1, hw.2]
  · by_cases hr : Released cfg s i x
    · refine .inr ⟨buffered_of_released hb (storeWrite_eq_none.mp hw) hr, ?_⟩
      rw [h.memNext_of_released hb hf hr]
      rw [buffered_of_holds hb.wbuf (hr.carries.holds hb)] at hx
      exact Option.some.inj hx
    · rw [buffered_kept hb hok (storeWrite_eq_none.mp hw) hr, hx]
      exact .inl rfl
  · rw [buffered_kept hb hok (storeWrite_eq_none.mp hw) fun hr => ?_, hx]
    exact not_holds_of_none hb.wbuf hx _ (hr.carries.holds hb)

include hok in
theorem seen_next : byteOf (archNext cfg s i) =
    view (buffered (hwNext cfg s.hw i).wbuf.buffer) (byteOf (memNext s.side i)) := by
  rw [(h.moves hb hf hok).view_eq]
  funext x
  show (if stores cfg s i x.1 x.2 then i.store.wdata x.2 else if s.since x.1 x.2 then s.arch x.1 x.2
    else (amoByte s.side i x.1 x.2).getD (s.arch x.1 x.2)) = _
  by_cases hst : stores cfg s i x.1 x.2 = true
  · have hwrite : storeWrite cfg s i x = some (i.store.wdata x.2) := if_pos hst
    rw [if_pos hst, view_of_some hwrite]
  rw [if_neg hst, view_of_none (storeWrite_eq_none.mpr hst)]
  have harch : s.arch x.1 x.2 = view (buffered s.hw.wbuf.buffer) (byteOf s.side.mem) x :=
    congrFun h.seen x
  cases hamo : amoByte s.side i x.1 x.2 with
  | none =>
      rw [Option.getD_none, ite_self, harch]
      refine view_congr_at fun hx => ?_
      show _ = (amoByte s.side i x.1 x.2).getD (appliedByte s.side i x.1 x.2)
      rw [hamo, Option.getD_none, appliedByte_of_not_carried h hb]
      exact fun id hid => not_holds_of_none hb.wbuf hx _ (hid.holds hb)
  | some b =>
      -- a byte that has been stored since the atomic was taken is still in the write buffer
      have hsel : Missunit.amoSel s.hw.miss = true := by
        by_contra hsel
        rw [amoByte_eq_none hf (Bool.eq_false_iff.mpr hsel)] at hamo
        cases hamo
      rw [h.since hsel x]
      cases hx : buffered s.hw.wbuf.buffer x with
      | some c =>
          rw [Option.isSome_some, if_pos rfl, harch, view_of_some hx, view_of_some hx]
      | none =>
          rw [Option.isSome_none, if_neg Bool.false_ne_true, view_of_none hx]
          show b = (amoByte s.side i x.1 x.2).getD (appliedByte s.side i x.1 x.2)
          rw [hamo]
          rfl

/-! ### Transactions -/

omit h hf in
theorem writeIs_of_dirtyRdEn (hc : Wbuffer.Chosen s.hw.wbuf i.choice)
    (hen : Wbuffer.dirtyRdEn s.hw.wbuf (wbufIn cfg s.hw i) = true) :
    WriteIs (s.next cfg i) (Wbuffer.txId s.hw.wbuf i.choice)
      ⟨(storeMemReq cfg s.hw i).paddr.word, toByteEnable8 (storeMemReq cfg s.hw i).paddr.lane
        ((storeMemReq cfg s.hw i).size.setWidth 2), (storeMemReq cfg s.hw i).data, false⟩ := by
  have hdirty := hb.wbuf.dirty_dirtyPtr hc (Wbuffer.of_dirtyRdEn hen).1
  have htransfer := transferOk hdirty
  have htx : Wbuffer.txStatNext s.hw.wbuf i.choice (wbufIn cfg s.hw i)
      (Wbuffer.txId s.hw.wbuf i.choice) =
        ⟨true, Wbuffer.txBe s.hw.wbuf i.choice, Wbuffer.dirtyPtr s.hw.wbuf i.choice⟩ :=
    if_pos (by rw [hen, beq_self_eq_true]; rfl)
  obtain ⟨k, hk⟩ := any_iff.mp hdirty
  have hwtag : (Wbuffer.bufferNext cfg s.hw.wbuf i.choice (wbufIn cfg s.hw i)
      (Wbuffer.dirtyPtr s.hw.wbuf i.choice)).wtag =
        (s.hw.wbuf.buffer (Wbuffer.dirtyPtr s.hw.wbuf i.choice)).wtag :=
    Wbuffer.wtag_stable (Wbuffer.valid_iff.mpr ⟨k, (Wbuffer.bdirty_iff.mp hk).2.2⟩)
  have hbe : toByteEnable8 (storeMemReq cfg s.hw i).paddr.lane
      ((storeMemReq cfg s.hw i).size.setWidth 2) = Wbuffer.txBe s.hw.wbuf i.choice :=
    congrArg₂ toByteEnable8 htransfer.align (setWidth_size _)
  constructor
  · show (paddrSizeAlign (Wbuffer.missPaddr s.hw.wbuf i.choice) _).word =
      (Wbuffer.bufferNext cfg s.hw.wbuf i.choice (wbufIn cfg s.hw i)
        (Wbuffer.txStatNext s.hw.wbuf i.choice (wbufIn cfg s.hw i) _).ptr).wtag
    rw [htx, paddrSizeAlign_word, hwtag]
    rfl
  · show _ = (Wbuffer.txStatNext s.hw.wbuf i.choice (wbufIn cfg s.hw i) _).be
    rw [htx]
    exact hbe
  · intro j hj hclean
    have hj : Wbuffer.txBe s.hw.wbuf i.choice j = true := hbe ▸ hj
    change (Wbuffer.bufferNext cfg s.hw.wbuf i.choice (wbufIn cfg s.hw i)
      (Wbuffer.txStatNext s.hw.wbuf i.choice (wbufIn cfg s.hw i) _).ptr).dirty j = false at hclean
    show _ = (Wbuffer.bufferNext cfg s.hw.wbuf i.choice (wbufIn cfg s.hw i)
      (Wbuffer.txStatNext s.hw.wbuf i.choice (wbufIn cfg s.hw i) _).ptr).data j
    rw [htx] at hclean ⊢
    rw [Wbuffer.bufferNext_dirty, Bool.or_eq_false_iff] at hclean
    rw [Wbuffer.bufferNext_data, hclean.2, if_neg Bool.false_ne_true]
    exact congrArg (s.hw.wbuf.buffer (Wbuffer.dirtyPtr s.hw.wbuf i.choice)).data
      (htransfer.lane j hj)
  · intro happ
    cases happ

omit h hf in
theorem carries_clean (hc : Wbuffer.Chosen s.hw.wbuf i.choice) (hx : Carries s.hw.wbuf id x)
    (hclean : ((hwNext cfg s.hw i).wbuf.buffer (s.hw.wbuf.txStat id).ptr).dirty x.2 = false) :
    (s.hw.wbuf.buffer (s.hw.wbuf.txStat id).ptr).dirty x.2 = false ∧
      ((hwNext cfg s.hw i).wbuf.buffer (s.hw.wbuf.txStat id).ptr).data x.2 =
        (s.hw.wbuf.buffer (s.hw.wbuf.txStat id).ptr).data x.2 := by
  have hsent : Wbuffer.sent s.hw.wbuf i.choice (wbufIn cfg s.hw i)
      (s.hw.wbuf.txStat id).ptr x.2 = false := by
    by_contra hs
    have hfree := (hb.wbuf.of_sent hc (Bool.not_eq_false _ ▸ hs)).2.2.1 x.2
    rw [hb.wbuf.tx_block id hx.vld _ hx.be] at hfree
    cases hfree
  change (Wbuffer.bufferNext cfg s.hw.wbuf i.choice (wbufIn cfg s.hw i) _).dirty x.2 = false
    at hclean
  rw [Wbuffer.bufferNext_dirty, Bool.or_eq_false_iff, hsent, Bool.not_false, Bool.and_true]
    at hclean
  refine ⟨hclean.1, ?_⟩
  show (Wbuffer.bufferNext cfg s.hw.wbuf i.choice (wbufIn cfg s.hw i) _).data x.2 = _
  rw [Wbuffer.bufferNext_data, hclean.2, if_neg Bool.false_ne_true]

omit h hf in
theorem wtag_of_vld (hv : (s.hw.wbuf.txStat id).vld = true) :
    ((hwNext cfg s.hw i).wbuf.buffer (s.hw.wbuf.txStat id).ptr).wtag =
      (s.hw.wbuf.buffer (s.hw.wbuf.txStat id).ptr).wtag := by
  obtain ⟨k, hk⟩ := hb.wbuf.tx_any id hv
  exact Wbuffer.wtag_stable (Wbuffer.valid_iff.mpr
    ⟨k, hb.wbuf.txblock_valid _ k (hb.wbuf.tx_block id hv k hk)⟩)

theorem writeIs_kept (hc : Wbuffer.Chosen s.hw.wbuf i.choice) {w : PendingWrite}
    (hw : s.side.writes id = some w) :
    WriteIs (s.next cfg i) id { w with applied := w.applied || i.apply id } := by
  obtain ⟨hv, hnot⟩ := hb.writes id (by rw [hw]; rfl)
  have htx : (hwNext cfg s.hw i).wbuf.txStat id = s.hw.wbuf.txStat id := by
    refine hb.wbuf.vld_next hc hv ?_
    rintro ⟨hev, rfl⟩
    apply hnot
    rw [(Wbuffer.of_evict hev).1]
    exact List.mem_cons_self
  have hold := h.sent id w hw
  have hx {k : Lane} (hk : w.be k = true) : Carries s.hw.wbuf id (w.addr, k) :=
    ⟨hv, hold.addr.symm, by rw [← hold.be, hk]⟩
  have haddr : w.addr = ((s.next cfg i).hw.wbuf.buffer ((s.next cfg i).hw.wbuf.txStat id).ptr).wtag := by
    show _ = ((hwNext cfg s.hw i).wbuf.buffer ((hwNext cfg s.hw i).wbuf.txStat id).ptr).wtag
    rw [htx, wtag_of_vld hb hv, hold.addr]
  refine ⟨haddr, ?_, fun k hk hclean => ?_, fun happ k hk => ?_⟩
  · show w.be = ((hwNext cfg s.hw i).wbuf.txStat id).be
    rw [htx, hold.be]
  · change ((hwNext cfg s.hw i).wbuf.buffer ((hwNext cfg s.hw i).wbuf.txStat id).ptr).dirty k =
      false at hclean
    show _ = ((hwNext cfg s.hw i).wbuf.buffer ((hwNext cfg s.hw i).wbuf.txStat id).ptr).data k
    rw [htx] at hclean ⊢
    obtain ⟨hclean, hdata⟩ := carries_clean hb hc (hx hk) hclean
    exact (hold.data k hk hclean).trans hdata.symm
  · have happ : w.applied = true ∨ i.apply id = true := (Bool.or_eq_true _ _).mp happ
    have hmem := byteOf_memNext (i := i) (x := (w.addr, k)) hf (amoSel_of_vld hf hv)
    have hdata : appliedByte s.side i w.addr k = w.data k :=
      appliedByte_of_write h hb (hx hk) hw happ
    exact hmem.trans hdata

theorem sent_next (hc : Wbuffer.Chosen s.hw.wbuf i.choice) (id : TxId) (w : PendingWrite)
    (hw : w ∈ writesNext s.side i (accepted cfg s.hw i) id) : WriteIs (s.next cfg i) id w := by
  have hkept (hk : w ∈ writesNext.kept s.side i id) : WriteIs (s.next cfg i) id w := by
    unfold writesNext.kept at hk
    split_ifs at hk
    · cases hk
    · obtain ⟨w', hw', rfl⟩ := Option.map_eq_some_iff.mp hk
      exact h.writeIs_kept hb hf hc hw'
  unfold writesNext at hw
  split at hw
  · rename_i r hr
    split_ifs at hw with hnew
    · obtain ⟨hrtype, rfl⟩ := hnew
      obtain rfl := Option.some.inj hw
      cases hb.waits.sent hr with
      | store hen => exact writeIs_of_dirtyRdEn hb hc hen
      | load p _ _ => cases hrtype
      | atomic _ _ hatomic => rw [hatomic] at hrtype; cases hrtype
    · exact hkept hw
  · exact hkept hw

theorem answered_next (ha : WriteAnswered s i) (hc : Wbuffer.Chosen s.hw.wbuf i.choice) (id : TxId)
    (x : ByteAddr) (hx : Carries (hwNext cfg s.hw i).wbuf id x)
    (hw : writesNext s.side i (accepted cfg s.hw i) id = none)
    (hclean : ((hwNext cfg s.hw i).wbuf.buffer
      ((hwNext cfg s.hw i).wbuf.txStat id).ptr).dirty x.2 = false) :
    byteOf (memNext s.side i) x =
      ((hwNext cfg s.hw i).wbuf.buffer ((hwNext cfg s.hw i).wbuf.txStat id).ptr).data x.2 := by
  obtain ⟨hv, hwtag, hbe⟩ := hx
  rcases Wbuffer.of_vld_next hv with ⟨hen, rfl, -⟩ | ⟨hold, htx, -⟩
  · -- what has just been sent has not been answered
    simp only [writesNext, accepted_of_dirtyRdEn hb.waits hen, storeMemReq, and_self, if_true,
      reduceCtorEq] at hw
  have htx : (hwNext cfg s.hw i).wbuf.txStat id = s.hw.wbuf.txStat id := htx
  rw [htx] at hwtag hbe hclean ⊢
  rw [wtag_of_vld hb hold] at hwtag
  have hx : Carries s.hw.wbuf id x := ⟨hold, hwtag, hbe⟩
  obtain ⟨hclean, hdata⟩ := carries_clean hb hc hx hclean
  rw [byteOf_memNext hf (amoSel_of_vld hf hold), hdata]
  cases hwrite : s.side.writes id with
  | none =>
      rw [appliedByte_of_answered h hb hx hwrite]
      exact h.answered id x hx hwrite hclean
  | some w =>
      -- the acknowledgement of a write that has been applied
      have hack : (rtrns i .STORE_ACK && i.memRtrn.tid == id) = true := by
        by_contra hnot
        have hkept : (writesNext.kept s.side i id).isSome = true := by
          rw [writesNext.kept, if_neg hnot, hwrite]
          rfl
        unfold writesNext at hw
        split at hw
        · split_ifs at hw
          rw [hw] at hkept
          cases hkept
        · rw [hw] at hkept
          cases hkept
      rw [Bool.and_eq_true, beq_iff_eq] at hack
      obtain ⟨w', hw', happ⟩ := ha hack.1
      rw [hack.2, hwrite, Option.some.injEq] at hw'
      subst hw'
      rw [hack.2] at happ
      rw [appliedByte_of_write h hb hx hwrite happ]
      exact (h.sent id w hwrite).data x.2 (by rw [(h.sent id w hwrite).be, hbe]) hclean

include hok in
omit h in
/-- While the miss unit deals with an atomic, what is stored stays in the write buffer. -/
theorem since_next (hsince : Missunit.amoSel s.hw.miss = true →
      ∀ x : ByteAddr, s.since x.1 x.2 = (buffered s.hw.wbuf.buffer x).isSome)
    (hsel : Missunit.amoSel (hwNext cfg s.hw i).miss = true) (x : ByteAddr) :
    sinceNext cfg s i x.1 x.2 = (buffered (hwNext cfg s.hw i).wbuf.buffer x).isSome := by
  -- no transaction is in flight
  have hnone : (∀ id, (s.hw.wbuf.txStat id).vld = false) ∧
      (!amoTaken cfg s i && s.since x.1 x.2) = (buffered s.hw.wbuf.buffer x).isSome := by
    have hnext : (Missunit.stateD s.hw.miss (missIn cfg s.hw i) == .AMO ||
      Missunit.stateD s.hw.miss (missIn cfg s.hw i) == .AMO_WAIT) = true := hsel
    rcases Missunit.of_amoSel_next hsel with ⟨hidle, -, hempty, -⟩ | ⟨hold, -⟩
    · have hnot : (Missunit.stateD s.hw.miss (missIn cfg s.hw i) == .AMO_WAIT) = false := by
        rw [beq_eq_false_iff_ne, ne_eq, Missunit.stateD_eq_amoWait_iff, hidle]
        simp
      rw [hnot, Bool.or_false] at hnext
      have hnobyte (n : Ptr) : ¬HoldsByte s.hw.wbuf n x := by
        intro hn
        have hempty : Wbuffer.emptyO s.hw.wbuf = true := hempty
        rw [Wbuffer.emptyO, Bool.not_eq_true', any_eq_false] at hempty
        exact Bool.noConfusion ((hempty n).symm.trans hn.entry)
      refine ⟨hb.wbuf.no_tx_of_empty hempty, ?_⟩
      rw [buffered_eq_none hnobyte, amoTaken, hidle, hnext]
      rfl
    · refine ⟨(hf.alone hold).2, ?_⟩
      have hnot : amoTaken cfg s i = false := by
        rw [amoTaken, Bool.and_eq_false_imp]
        intro hidle
        rw [Missunit.amoSel, beq_iff_eq.mp hidle] at hold
        cases hold
      rw [hnot, Bool.not_false, Bool.true_and, hsince hold x]
  obtain ⟨htx, hold⟩ := hnone
  rw [sinceNext, hold]
  by_cases hst : stores cfg s i x.1 x.2 = true
  · rw [hst, Bool.or_true, buffered_of_stores hb hok hst]
    rfl
  · rw [Bool.eq_false_iff.mpr hst, Bool.or_false, buffered_kept hb hok hst fun hr => ?_]
    exact Bool.noConfusion ((htx _).symm.trans hr.carries.vld)

/-! ### The outstanding read -/

theorem lineAt_memNext (l : PendingLoad) (hl : l ∈ s.side.load) :
    lineAt (memNext s.side i) l.paddr.word = lineAt s.side.mem l.paddr.word := by
  have hv : s.hw.miss.mshrVldQ = true := by
    rw [← hf.load, Option.mem_def.mp hl]
    rfl
  have hline : l.paddr.word.line = mshrLine s.hw := by
    rw [(hf.asks l hl).1, paddrSizeAlign]
    split_ifs <;> rfl
  funext b k
  exact memNext_of_mshrVldQ (x := ({ l.paddr.word with bank := b }, k)) h hb hf hv hline

theorem sampled_next (l : PendingLoad) (hl : l ∈ loadNext s.side i (accepted cfg s.hw i))
    (d : Line) (hd : d ∈ l.sample) : d = lineAt (memNext s.side i) l.paddr.word := by
  have hkept (hk : l ∈ loadNext.kept s.side i) :
      d = lineAt (memNext s.side i) l.paddr.word := by
    unfold loadNext.kept at hk
    by_cases hack : rtrns i .LOAD_ACK = true
    · rw [if_pos hack] at hk
      cases hk
    · rw [if_neg hack] at hk
      obtain ⟨l', hl', rfl⟩ := Option.map_eq_some_iff.mp hk
      split_ifs at hd ⊢
      · obtain rfl := Option.some.inj hd
        exact (h.lineAt_memNext hb hf l' hl').symm
      · rw [h.lineAt_memNext hb hf l' hl']
        exact h.sampled l' hl' d hd
  unfold loadNext at hl
  split at hl
  · split_ifs at hl
    · obtain rfl := Option.some.inj hl
      cases hd
    · exact hkept hl
  · exact hkept hl

omit hb hf in
theorem answer (ha : LoadAnswered s i) (hack : rtrns i .LOAD_ACK = true) (l : PendingLoad)
    (hl : l ∈ s.side.load) :
    if l.nc then
      ∀ k, toByteEnable8 l.paddr.lane (l.size.setWidth 2) k = true →
        i.memRtrn.data 0 k = s.side.mem l.paddr.word k
    else i.memRtrn.data = lineAt s.side.mem l.paddr.word := by
  have hsample : l.sample.getD (lineAt s.side.mem l.paddr.word) =
      lineAt s.side.mem l.paddr.word := by
    cases hd : l.sample with
    | none => rfl
    | some d => exact h.sampled l hl d hd
  have hans := ha hack l hl
  rw [hsample] at hans
  exact hans

/-! ### The ways of a set -/

omit h hb in
theorem amoByte_of_held (he : AmoInvalidates s i) {tag : Tag} {idx : Idx} {way : Way} {b : Bank}
    {k : Lane} (hold : s.hw.mem.tags idx way = ⟨true, tag⟩)
    (hnext : (hwNext cfg s.hw i).mem.tags idx way = ⟨true, tag⟩) :
    amoByte s.side i ⟨tag, idx, b⟩ k = none := by
  by_contra hne
  unfold amoByte at hne
  split at hne
  · rename_i w am hw ham
    split_ifs at hne with hplace
    · have hstate : s.hw.miss.state = .AMO_WAIT := hf.amo (by rw [ham]; rfl)
      have hidx : am.addr.idx = idx := congrArg WordAddr.idx hplace.1
      rcases he (by rw [hw]; rfl) am ham with hinv | hnow
      · have hclear := hf.invalidated am ham hinv way
        rw [hidx, hold] at hclear
        cases hclear
      · have hflush : s.hw.miss.state ≠ .FLUSH := by simp [hstate]
        have hclear : ((hwNext cfg s.hw i).mem.tags am.addr.idx way).vld = false :=
          InFlight.cleared_of_invalidatesNow hflush hnow way
        rw [hidx, hnext] at hclear
        cases hclear
    · exact hne rfl
  · exact hne rfl

include hok
theorem setOk_next (hh : Held s.hw) (hk : Checks s.hw) (he : Contract s i) {idx : Idx}
    (hset : SetOk s idx) : SetOk (s.next cfg i) idx := by
  intro way tag htags b k hbuf
  have hbuf : buffered (hwNext cfg s.hw i).wbuf.buffer (⟨tag, idx, b⟩, k) = none := hbuf
  have htags : (hwNext cfg s.hw i).mem.tags idx way = ⟨true, tag⟩ := htags
  show (hwNext cfg s.hw i).mem.data b idx way k = byteOf (memNext s.side i) (⟨tag, idx, b⟩, k)
  by_cases hr : Refilled cfg s.hw i idx way
  · -- the answer to the outstanding read is what the memory holds
    obtain ⟨hline, hdata⟩ := hr.line hh
    obtain ⟨hv, hnc, -⟩ := of_clWriteEn hr.en
    obtain ⟨l, hl⟩ := Option.isSome_iff_exists.mp (hf.load.trans hv)
    have hack : rtrns i .LOAD_ACK = true := by
      have hen := hr.en
      rw [Missunit.clWriteEn, Missunit.loadAck, Bool.and_eq_true, Bool.and_eq_true] at hen
      exact hen.1.1
    have hans := h.answer he.load hack l hl
    rw [(hf.asks l hl).2.2, hnc, if_neg Bool.false_ne_true] at hans
    rw [hdata, hans, ← h.lineAt_memNext hb hf l hl]
    have hword : { l.paddr.word with bank := b } = (⟨tag, idx, b⟩ : WordAddr) := by
      have htag : tag = (mshrLine s.hw).1 := congrArg TagLine.tag (htags.symm.trans hline)
      rw [(hf.asks l hl).1, htag, hr.set, paddrSizeAlign]
      split_ifs <;> rfl
    exact congrFun (congrArg (memNext s.side i) hword) k
  -- the way holds the line already
  have hold : s.hw.mem.tags idx way = ⟨true, tag⟩ := by
    rcases of_vld_tags_next (congrArg TagLine.vld htags) with ⟨hsame, -⟩ | hfill
    · rw [← hsame, htags]
    · exact absurd ⟨hfill.en, hfill.set, hfill.repl⟩ hr
  rw [data_next_of_not_refilled hh hk hr]
  rcases of_buffered_next_none hb hok hbuf with hrel | hnone
  · -- a byte that is released is written to the cache
    have hwtag : (rtrnEntry s.hw).wtag = ⟨tag, idx, b⟩ := hrel.carries.wtag
    have hbe : Wbuffer.wrDataBe s.hw.wbuf k = true := by
      have hclean : (s.hw.wbuf.buffer (Wbuffer.rtrnPtr s.hw.wbuf)).dirty k = false := hrel.clean
      rw [Wbuffer.wrDataBe, hclean]
      exact (Bool.and_true _).trans hrel.carries.be
    have hack : wrAck cfg s.hw i = true := by
      have hup : Updates cfg s.hw i := hk.updates
      refine hup.reached hrel.evict (any_iff.mpr ⟨k, hbe⟩) way ?_
      rw [hwtag]
      exact hold
    rw [if_pos, h.memNext_of_released hb hf hrel]
    rw [hwtag]
    exact ⟨hack, rfl, rfl, hold, hbe⟩
  · have hnot (id : TxId) : ¬Carries s.hw.wbuf id (⟨tag, idx, b⟩, k) :=
      fun hid => not_holds_of_none hb.wbuf hnone _ (hid.holds hb)
    rw [if_neg, hset way tag hold b k hnone]
    · show _ = (amoByte s.side i ⟨tag, idx, b⟩ k).getD (appliedByte s.side i ⟨tag, idx, b⟩ k)
      rw [amoByte_of_held hf he.amo hold htags, Option.getD_none]
      exact (appliedByte_of_not_carried h hb hnot).symm
    · rintro ⟨hack, hbank, hidx, htag, hbe⟩
      have hwtag : (rtrnEntry s.hw).wtag = ⟨tag, idx, b⟩ := by
        have htag : tag = (rtrnEntry s.hw).wtag.tag := congrArg TagLine.tag (hold.symm.trans htag)
        rw [htag, ← hidx, ← hbank]
      rw [Wbuffer.wrDataBe, Bool.and_eq_true] at hbe
      exact hnot _ ⟨hb.wbuf.rtrnId_vld (evict_of_wrAck hack), hwtag, hbe.1⟩

theorem cached_next (hh : Held s.hw) (hk : Checks s.hw) (he : Contract s i) (idx : Idx) :
    Awaited (hwNext cfg s.hw i) idx ∨ SetOk (s.next cfg i) idx := by
  rcases h.cached idx with ⟨hflush, hle⟩ | hset
  · rcases Nat.lt_or_ge s.hw.miss.cnt.toNat idx.toNat with hlt | hge
    · rcases flush_next cfg i hflush with ⟨hdone, -⟩ | ⟨hstate, hcnt⟩
      · have hcnt : s.hw.miss.cnt = 255 := beq_iff_eq.mp hdone
        rw [hcnt] at hlt
        exact absurd hlt (Nat.not_lt.mpr (Nat.le_of_lt_succ idx.isLt))
      · exact .inl ⟨hstate, hcnt.trans_le hlt⟩
    · refine .inr fun way tag htags => ?_
      have hclear := hh.cleared_next cfg i hflush hge way
      have htags : (hwNext cfg s.hw i).mem.tags idx way = ⟨true, tag⟩ := htags
      rw [htags] at hclear
      cases hclear
  · exact .inr (h.setOk_next hb hf hok hh hk he hset)

theorem next (hh : Held s.hw) (hk : Checks s.hw) (he : Contract s i)
    (hc : Wbuffer.Chosen s.hw.wbuf i.choice) : Consistent (s.next cfg i) where
  seen := h.seen_next hb hf hok
  sent := h.sent_next hb hf hc
  answered := h.answered_next hb hf he.write hc
  since := since_next hb hf hok h.since
  sampled := h.sampled_next hb hf
  cached := h.cached_next hb hf hok hh hk he

end Step

end Consistent

/-! ## What the core reads -/

section Loads

variable (s : Hw) (i : Input) (p : Fin 2)

def loadPaddr : Paddr :=
  ⟨⟨Ctrl.addressTagD (s.ctrl p) (i.loads p), (s.ctrl p).addressIdxQ, (s.ctrl p).addressOffQ⟩,
    (s.ctrl p).addressLaneQ⟩

/-- The bytes of the load, whose address is aligned down to its size. -/
def loadBe : Mask :=
  toByteEnable8 (alignLane (s.ctrl p).addressLaneQ ((s.ctrl p).dataSizeQ.setWidth 3))
    (s.ctrl p).dataSizeQ

end Loads

/-- The answer of the memory to the outstanding read is seen under the write buffer. -/
theorem rdata_of_loadAck (hh : Held s.hw)
    (hack : Missunit.loadAck s.hw.miss (missIn cfg s.hw i) = true) :
    rdata cfg s.hw i = Mem.overlay s.hw.wbuf.buffer s.hw.miss.mshr.paddr.word
      (i.memRtrn.data (if s.hw.miss.mshr.nc then 0 else s.hw.miss.mshr.paddr.word.bank)) := by
  have hvld : (wrCl cfg s.hw i).vld = true := by
    show (Missunit.loadAck s.hw.miss (missIn cfg s.hw i) || any (wrCl cfg s.hw i).we) = true
    rw [hack, Bool.true_or]
  have haddr : Mem.wbufferCmpAddr s.hw.mem (wrCl cfg s.hw i) (rdTag s.hw i) =
      s.hw.miss.mshr.paddr.word := by
    rw [Mem.wbufferCmpAddr, hvld, if_pos rfl, wrCl_idx_of_loadAck hh hack]
    rfl
  rw [rdata, Mem.rdData, haddr, hvld]
  rfl

section Answers

variable (h : Consistent s) (hf : InFlight s) (hh : Held s.hw)
include h

/-- Under the write buffer, what the memory holds is what the core has written. -/
theorem overlay_mem {a : WordAddr} {w : Word} {k : Lane} (hw : w k = s.side.mem a k) :
    Mem.overlay s.hw.wbuf.buffer a w k = s.arch a k := by
  have harch : s.arch a k = view (buffered s.hw.wbuf.buffer) (byteOf s.side.mem) (a, k) :=
    congrFun h.seen (a, k)
  rw [overlay_eq, hw, harch]
  rfl

include hh in
theorem Consistent.read_hit (p : Fin 2)
    (hhit : Ctrl.hit (s.hw.ctrl p) (ctrlIn cfg s.hw i p) = true) (k : Lane) :
    rdata cfg s.hw i k = s.arch (loadPaddr s.hw i p).word k := by
  simp only [Ctrl.hit, Bool.and_eq_true, Bool.not_eq_true', Bool.or_eq_false_iff,
    Bool.not_eq_false'] at hhit
  obtain ⟨⟨⟨-, hcl, hack⟩, hany⟩, -⟩ := hhit
  have hcl : (wrCl cfg s.hw i).vld = false := hcl
  obtain ⟨way, hway⟩ := any_iff.mp hany
  obtain ⟨hheld, hdata⟩ := hh.rdata_of_hit hack hcl hway
  rw [hdata, overlay_eq]
  have hset : SetOk s (s.hw.ctrl p).addressIdxQ := by
    refine (h.cached _).resolve_left ?_
    rintro ⟨hflush, -⟩
    rw [(wrCl_vld_of_flush cfg i hflush).1] at hcl
    cases hcl
  have harch : s.arch (loadPaddr s.hw i p).word k = view (buffered s.hw.wbuf.buffer)
    (byteOf s.side.mem) ((loadPaddr s.hw i p).word, k) := congrFun h.seen (_, k)
  rw [harch]
  show view (buffered s.hw.wbuf.buffer) (fun x => s.hw.mem.data (s.hw.ctrl p).addressOffQ
    (s.hw.ctrl p).addressIdxQ way x.2) ((loadPaddr s.hw i p).word, k) = _
  exact view_congr_at fun hbuf => hset way _ hheld _ k hbuf

include hf hh in
theorem Consistent.read_miss (ha : LoadAnswered s i) (p : Fin 2)
    (hstate : (s.hw.ctrl p).state = .MISS_WAIT)
    (hrtrn : Missunit.missRtrnVld s.hw.miss (missIn cfg s.hw i) (.rd p) = true) (k : Lane)
    (hk : loadBe s.hw p k = true) :
    rdata cfg s.hw i k = s.arch (loadPaddr s.hw i p).word k := by
  obtain ⟨hv, hport, hpaddr, hsize⟩ := hf.waits p hstate
  have hack : Missunit.loadAck s.hw.miss (missIn cfg s.hw i) = true := by
    rw [Missunit.missRtrnVld, hport] at hrtrn
    simpa using hrtrn
  have hload : loadPaddr s.hw i p = s.hw.miss.mshr.paddr := by
    rw [hpaddr, loadPaddr, Ctrl.missPaddr, Ctrl.addressTagD, Ctrl.saveTag, hstate]
    rfl
  obtain ⟨l, hl⟩ := Option.isSome_iff_exists.mp (hf.load.trans hv)
  have hans := h.answer ha (Bool.and_eq_true _ _ ▸ hack).1 l hl
  obtain ⟨hlpaddr, hlsize, hlnc⟩ := hf.asks l hl
  rw [rdata_of_loadAck hh hack, hload]
  refine overlay_mem h ?_
  rw [hlnc, hlpaddr] at hans
  cases hnc : s.hw.miss.mshr.nc with
  | true =>
      rw [hnc, if_pos rfl] at hans hsize
      rw [hlsize, hsize, setWidth_size, paddrSizeAlign_word, hpaddr] at hans
      rw [hpaddr]
      exact hans k hk
  | false =>
      rw [hnc, if_neg Bool.false_ne_true] at hans
      have hword : { (paddrSizeAlign s.hw.miss.mshr.paddr s.hw.miss.mshr.size).word with
          bank := s.hw.miss.mshr.paddr.word.bank } = s.hw.miss.mshr.paddr.word := by
        rw [paddrSizeAlign]
        split_ifs <;> rfl
      rw [if_neg Bool.false_ne_true, hans]
      exact congrFun (congrArg s.side.mem hword) k

include hf hh in
theorem Consistent.read (ha : LoadAnswered s i) (p : Fin 2) (hv : rvalid cfg s.hw i p = true)
    (hkill : (i.loads p).killReq = false) (k : Lane) (hk : loadBe s.hw p k = true) :
    rdata cfg s.hw i k = s.arch (loadPaddr s.hw i p).word k := by
  have hkill : (ctrlIn cfg s.hw i p).req.killReq = false := hkill
  have hv : Ctrl.dataRvalid (s.hw.ctrl p) (ctrlIn cfg s.hw i p) = true := hv
  cases hs : (s.hw.ctrl p).state <;>
    simp only [Ctrl.dataRvalid, hs, hkill, Bool.false_or, Bool.false_eq_true] at hv
  case READ => exact h.read_hit hh p hv k
  case REPLAY_READ => exact h.read_hit hh p hv k
  case MISS_WAIT => exact h.read_miss hf hh ha p hs hv k hk

theorem Consistent.drained (hempty : Wbuffer.emptyO s.hw.wbuf = true) : s.side.mem = s.arch := by
  have hnone (x : ByteAddr) : buffered s.hw.wbuf.buffer x = none := by
    refine buffered_eq_none fun n hn => ?_
    rw [Wbuffer.emptyO, Bool.not_eq_true', any_eq_false] at hempty
    exact Bool.noConfusion ((hempty n).symm.trans hn.entry)
  have harch := h.seen
  rw [view_of_empty hnone] at harch
  funext a k
  exact (congrFun harch (a, k)).symm

end Answers

/-! ## Every run -/

/-- What holds in every state of the data cache. -/
structure Coherent (s : State) : Prop where
  books : Books s
  held : Held s.hw
  checks : Checks s.hw
  inFlight : InFlight s
  consistent : Consistent s

theorem coherent_start (z : Start) : Coherent (start z) :=
  ⟨books_start z, held_start z, checks_start z, inFlight_start z, consistent_start z⟩

theorem Coherent.next (h : Coherent s) (he : Contract s i) : Coherent (s.next cfg i) := by
  have hc : Wbuffer.Chosen s.hw.wbuf i.choice := ⟨he.arbiters.2.2.1, he.arbiters.2.2.2⟩
  have hbooks : Books (s.next cfg i) := h.books.next he.write hc
  exact ⟨hbooks, h.held.next, h.checks.next h.held he.arbiters.2.1, h.inFlight.next h.books h.held hc,
    h.consistent.next h.books h.inFlight hbooks.wbuf h.held h.checks he hc⟩

theorem coherent_run (cfg : Cfg) (z : Start) (ins : List Input)
    (he : (dcache cfg z).Throughout Contract ins) : Coherent ((dcache cfg z).run ins) :=
  Machine.invariant (coherent_start z) (fun _ _ h he => h.next he) ins he

/-- In every run in which the memory keeps its contract, a load that is answered and not killed
gets from the cache, the write buffer or the memory what the core sees as the memory, and with
an empty write buffer the memory is what the core sees. -/
theorem one_memory (cfg : Cfg) (z : Start) (ins : List Input)
    (he : (dcache cfg z).Throughout Contract ins) :
    let s := (dcache cfg z).run ins
    (∀ i, LoadAnswered s i → ∀ p, rvalid cfg s.hw i p = true → (i.loads p).killReq = false →
      ∀ k, loadBe s.hw p k = true → rdata cfg s.hw i k = s.arch (loadPaddr s.hw i p).word k) ∧
    (Wbuffer.emptyO s.hw.wbuf = true → s.side.mem = s.arch) := by
  intro s
  have h : Coherent s := coherent_run cfg z ins he
  exact ⟨fun i ha p hv hkill => h.consistent.read h.inFlight h.held ha p hv hkill,
    h.consistent.drained⟩

/-! ## A load that reads what was stored -/

instance (s : State) (i : Input) : Decidable (LoadAnswered s i) :=
  inferInstanceAs (Decidable (rtrns i .LOAD_ACK = true → ∀ l ∈ s.side.load,
    if l.nc then
      ∀ k, toByteEnable8 l.paddr.lane (l.size.setWidth 2) k = true →
        i.memRtrn.data 0 k = (l.sample.getD (lineAt s.side.mem l.paddr.word)) l.paddr.word.bank k
    else i.memRtrn.data = l.sample.getD (lineAt s.side.mem l.paddr.word)))

instance (s : State) (i : Input) : Decidable (AmoInvalidates s i) :=
  inferInstanceAs (Decidable (_ → ∀ am ∈ s.side.amo, _ ∨ _))

instance (s : State) (i : Input) : Decidable (Contract s i) :=
  decidable_of_iff (LoadAnswered s i ∧ WriteAnswered s i ∧ AmoInvalidates s i ∧ ArbitersChoose s i)
    ⟨fun ⟨hl, hw, ha, hc⟩ => ⟨hl, hw, ha, hc⟩, fun h => ⟨h.load, h.write, h.amo, h.arbiters⟩⟩

/-- A store that is sent to the memory and acknowledged, and a load of the same word that is
sent after it. -/
def storeThenLoad : List Input :=
  let off : Input := { Input.silent with choice := ⟨0, 1, 0⟩ }
  let load (r : LoadReq) : Input :=
    { off with loads := fun p => if p = 1 then r else default, rdSel := .rd 1 }
  [{ Input.silent with store := ⟨default, fun _ => 7, lanes 0x0f, true⟩ }, .silent, .silent,
    { Input.silent with memDataAck := true },
    { off with
      apply := fun id => id == 0
      memRtrnVld := true
      memRtrn := ⟨.STORE_ACK, fun _ _ => 0, ⟨false, false, 0, 0⟩, 0⟩ },
    off, off, load ⟨0, 0, 0, 0, true, 2, false, false⟩, load ⟨0, 0, 0, 0, false, 2, false, true⟩,
    { off with memDataAck := true }]

def answered : Input :=
  { Input.silent with
    choice := ⟨0, 1, 0⟩
    memRtrnVld := true
    memRtrn := ⟨.LOAD_ACK, fun _ _ => 7, ⟨false, false, 0, 0⟩, 1⟩ }

def oneStore : List Input := flushRun ++ storeThenLoad

theorem run_oneStore : (dcache devicePages cleared).run oneStore =
    (dcache devicePages cleared).runFrom (flushing cleared 255) storeThenLoad := by
  rw [oneStore, Machine.run_append, run_flushRun]

theorem contract_oneStore : (dcache devicePages cleared).Throughout Contract oneStore := by
  refine Machine.throughout_append.mpr ⟨contract_flushRun, ?_⟩
  rw [run_flushRun]
  decide +kernel

theorem one_memory_oneStore :
    let s := (dcache devicePages cleared).run oneStore
    rvalid devicePages s.hw answered 1 = true ∧ rdata devicePages s.hw answered 0 = s.arch default 0 ∧
      s.arch default 0 = 7 ∧ s.side.mem = s.arch := by
  obtain ⟨hread, hdrained⟩ := one_memory devicePages cleared oneStore contract_oneStore
  rw [run_oneStore] at hread hdrained ⊢
  intro s
  have hvalid : rvalid devicePages s.hw answered 1 = true := by decide +kernel
  have haddr : loadPaddr s.hw answered 1 = default := by decide +kernel
  have hdata := hread answered (by decide +kernel) 1 hvalid rfl 0 (by decide +kernel)
  rw [haddr] at hdata
  exact ⟨hvalid, hdata, by decide +kernel, hdrained (by decide +kernel)⟩

end Cva6.Dcache
