import Cva6.Dcache.OneHolder
/-!
# What is in flight together

The miss unit sends no write to the line of the outstanding read, and no read of a line that is
being written. While it deals with an atomic nothing else is in flight.
-/

namespace Cva6.Dcache

open Cva6.Sync

def Apart (s : Hw) (line : Tag × Idx) : Prop := ∀ id, txLine s id ≠ some line

structure Owner (s : Hw) (p : Fin 2) : Prop where
  vld : s.miss.mshrVldQ = true
  port : s.miss.mshr.missPortIdx = .rd p
  paddr : s.miss.mshr.paddr = Ctrl.missPaddr (s.ctrl p)
  size : s.miss.mshr.size = if s.miss.mshr.nc then (s.ctrl p).dataSizeQ.setWidth 3 else 7

structure InFlight (s : State) : Prop where
  load : s.side.load.isSome = s.hw.miss.mshrVldQ
  asks : ∀ l ∈ s.side.load, l.paddr = paddrSizeAlign s.hw.miss.mshr.paddr s.hw.miss.mshr.size ∧
    l.size = s.hw.miss.mshr.size ∧ l.nc = s.hw.miss.mshr.nc
  apart : s.hw.miss.mshrVldQ = true → Apart s.hw (mshrLine s.hw)
  /-- A read that waits for the memory has been checked, and no write is sent before it. -/
  loadWait : s.hw.miss.state = .LOAD_WAIT → ∀ p, lowestPort s.hw.miss.missReqMaskedQ = .rd p →
    Apart s.hw (missLine s.hw p)
  storeWait : s.hw.miss.state = .STORE_WAIT → s.hw.miss.mshrVldQ = true →
    ∃ n ∈ s.hw.wbuf.dirtyLock, (s.hw.wbuf.buffer n).wtag.line ≠ mshrLine s.hw
  waits : ∀ p, (s.hw.ctrl p).state = .MISS_WAIT → Owner s.hw p
  alone : Missunit.amoSel s.hw.miss = true →
    s.hw.miss.mshrVldQ = false ∧ ∀ id, (s.hw.wbuf.txStat id).vld = false
  amo : s.side.amo.isSome = true → s.hw.miss.state = .AMO_WAIT
  invalidated : ∀ am ∈ s.side.amo, am.invalidated = true →
    ∀ way, (s.hw.mem.tags am.addr.idx way).vld = false

theorem inFlight_start (z : Start) : InFlight (start z) where
  load := rfl
  asks _ h := by cases h
  apart h := by cases h
  loadWait h := by cases h
  storeWait h := by cases h
  waits _ h := by cases h
  alone h := by cases h
  amo h := by cases h
  invalidated _ h := by cases h

variable {cfg : Cfg} {s : State} {i : Input} {p : Fin 2} {line : Tag × Idx}

/-! ## The lines of the transactions -/

theorem txLine_next (hb : Books s) (hc : Wbuffer.Chosen s.hw.wbuf i.choice) {id : TxId}
    (h : txLine (hwNext cfg s.hw i) id = some line) : txLine s.hw id = some line ∨
      Wbuffer.dirtyRdEn s.hw.wbuf (wbufIn cfg s.hw i) = true ∧
        (s.hw.wbuf.buffer (Wbuffer.dirtyPtr s.hw.wbuf i.choice)).wtag.line = line := by
  unfold txLine at h
  simp only [Option.ite_none_right_eq_some, Option.some.injEq] at h
  obtain ⟨hv, hline⟩ := h
  have hstable {n : Ptr} (hn : Wbuffer.valid s.hw.wbuf n = true) :
      ((hwNext cfg s.hw i).wbuf.buffer n).wtag = (s.hw.wbuf.buffer n).wtag :=
    Wbuffer.wtag_stable hn
  rcases Wbuffer.of_vld_next hv with ⟨hen, -, htx⟩ | ⟨hold, htx, -⟩
  · refine .inr ⟨hen, ?_⟩
    have hptr : ((hwNext cfg s.hw i).wbuf.txStat id).ptr =
        Wbuffer.dirtyPtr s.hw.wbuf i.choice := congrArg Wbuffer.TxStat.ptr htx
    obtain ⟨k, hk⟩ := any_iff.mp (hb.wbuf.dirty_dirtyPtr hc (Wbuffer.of_dirtyRdEn hen).1)
    rw [hptr, hstable (Wbuffer.valid_iff.mpr ⟨k, (Wbuffer.bdirty_iff.mp hk).2.2⟩)] at hline
    exact hline
  · left
    have hptr : ((hwNext cfg s.hw i).wbuf.txStat id).ptr = (s.hw.wbuf.txStat id).ptr :=
      congrArg Wbuffer.TxStat.ptr htx
    obtain ⟨k, hk⟩ := hb.wbuf.tx_any id hold
    have hvalid := hb.wbuf.txblock_valid _ k (hb.wbuf.tx_block id hold k hk)
    rw [hptr, hstable (Wbuffer.valid_iff.mpr ⟨k, hvalid⟩)] at hline
    rw [txLine, if_pos hold, hline]

theorem Apart.next (h : Apart s.hw line) (hb : Books s)
    (hc : Wbuffer.Chosen s.hw.wbuf i.choice)
    (hsent : Wbuffer.dirtyRdEn s.hw.wbuf (wbufIn cfg s.hw i) = true →
      (s.hw.wbuf.buffer (Wbuffer.dirtyPtr s.hw.wbuf i.choice)).wtag.line ≠ line) :
    Apart (hwNext cfg s.hw i) line := by
  intro id hid
  rcases txLine_next hb hc hid with hold | ⟨hen, hline⟩
  · exact h id hold
  · exact hsent hen hline

/-- Without its answer a request is offered to the memory again. -/
theorem dirtyRdEn_of_memDataAck (h : i.memDataAck = false) :
    Wbuffer.dirtyRdEn s.hw.wbuf (wbufIn cfg s.hw i) = false := by
  have hack : Missunit.missAck s.hw.miss (missIn cfg s.hw i) .wr = false := by
    have hdata : (missIn cfg s.hw i).memDataAck = false := h
    simp [Missunit.missAck, hdata]
  rw [Wbuffer.dirtyRdEn]
  exact (congrArg _ hack).trans (Bool.and_false _)

theorem mshrAllocate_of_memDataAck (h : i.memDataAck = false) :
    Missunit.mshrAllocate s.hw.miss (missIn cfg s.hw i) = false := by
  have hdata : (missIn cfg s.hw i).memDataAck = false := h
  rw [Missunit.mshrAllocate, hdata, Bool.and_false]

variable (cfg s i) in
theorem mshrVldQ_next : (hwNext cfg s.hw i).miss.mshrVldQ =
    if Missunit.mshrAllocate s.hw.miss (missIn cfg s.hw i) then true
    else if Missunit.loadAck s.hw.miss (missIn cfg s.hw i) then false else s.hw.miss.mshrVldQ :=
  rfl

variable (cfg s i) in
theorem mshr_next : (hwNext cfg s.hw i).miss.mshr =
    Missunit.mshrD s.hw.miss (missIn cfg s.hw i) :=
  rfl

namespace InFlight

section Step

variable (h : InFlight s) (hb : Books s)
include h hb

omit hb in
theorem apart_of_sendsStore (hs : Missunit.sendsStore s.hw.miss (missIn cfg s.hw i) = true)
    (hv : s.hw.miss.mshrVldQ = true) :
    (s.hw.wbuf.buffer (Wbuffer.dirtyPtr s.hw.wbuf i.choice)).wtag.line ≠ mshrLine s.hw := by
  have hcoll (hc : Missunit.rdwrCollision s.hw.miss (missIn cfg s.hw i) = false) :
      (s.hw.wbuf.buffer (Wbuffer.dirtyPtr s.hw.wbuf i.choice)).wtag.line ≠ mshrLine s.hw := by
    rw [Missunit.rdwrCollision, hv, Bool.and_true, beq_eq_false_iff_ne] at hc
    exact fun heq => hc heq.symm
  cases hstate : s.hw.miss.state <;> simp only [Missunit.sendsStore, hstate] at hs
  case IDLE =>
    simp only [Missunit.idleStore, Bool.and_eq_true, Bool.not_eq_true'] at hs
    exact hcoll hs.2.2
  case STORE_WAIT =>
    obtain ⟨n, hn, hne⟩ := h.storeWait hstate hv
    rw [Wbuffer.dirtyPtr, Option.mem_def.mp hn]
    exact hne
  case DRAIN =>
    simp only [Bool.and_eq_true, Bool.not_eq_true'] at hs
    exact hcoll hs.2
  all_goals cases hs

omit hb in
theorem apart_of_sendsLoad (hs : Missunit.sendsLoad s.hw.miss (missIn cfg s.hw i) = true)
    (hport : Missunit.missPortIdx s.hw.miss (missIn cfg s.hw i) = .rd p) :
    Apart s.hw (missLine s.hw p) := by
  cases hstate : s.hw.miss.state <;> simp only [Missunit.sendsLoad, hstate] at hs
  case IDLE =>
    simp only [Missunit.idleLoad, Bool.and_eq_true, Bool.not_eq_true'] at hs
    have hcoll := hs.2.2
    rw [Missunit.txCollision, any_eq_false, hport] at hcoll
    exact fun id => beq_eq_false_iff_ne.mp (hcoll id)
  case LOAD_WAIT =>
    refine h.loadWait hstate p ?_
    simpa [Missunit.missPortIdx, Missunit.missReqMasked, Missunit.lockReqs, hstate] using hport
  all_goals cases hs

theorem apart_next (hc : Wbuffer.Chosen s.hw.wbuf i.choice)
    (hv : (hwNext cfg s.hw i).miss.mshrVldQ = true) :
    Apart (hwNext cfg s.hw i) (mshrLine (hwNext cfg s.hw i)) := by
  rw [mshrVldQ_next] at hv
  rw [mshrLine, mshr_next, Missunit.mshrD]
  split_ifs at hv ⊢ with halloc hack
  · obtain ⟨p, hport, -, -⟩ := hb.waits.of_mshrAllocate halloc
    rw [Missunit.mshrAllocate, Bool.and_eq_true] at halloc
    rw [hport]
    refine (h.apart_of_sendsLoad halloc.1 hport).next hb hc fun hen => ?_
    -- one request is sent in a cycle
    have hwr := (hb.waits.port_of_sendsStore (hb.waits.sendsStore_of_dirtyRdEn hen)).1
    rw [hport] at hwr
    cases hwr
  · exact (h.apart hv).next hb hc fun hen =>
      h.apart_of_sendsStore (hb.waits.sendsStore_of_dirtyRdEn hen) hv

theorem loadWait_next (hc : Wbuffer.Chosen s.hw.wbuf i.choice)
    (hnext : (hwNext cfg s.hw i).miss.state = .LOAD_WAIT) (p : Fin 2)
    (hp : lowestPort (hwNext cfg s.hw i).miss.missReqMaskedQ = .rd p) :
    Apart (hwNext cfg s.hw i) (missLine (hwNext cfg s.hw i) p) := by
  have hnext : Missunit.stateD s.hw.miss (missIn cfg s.hw i) = .LOAD_WAIT := hnext
  obtain ⟨hload, hdata, -⟩ := sendsLoad_of_loadWait hnext
  have hport : Missunit.missPortIdx s.hw.miss (missIn cfg s.hw i) = .rd p := hp
  obtain ⟨p', hport', hreq⟩ := hb.waits.port_of_sendsLoad hload
  obtain rfl : p = p' := Port.rd.inj (hport.symm.trans hport')
  have hline : missLine (hwNext cfg s.hw i) p = missLine s.hw p :=
    congrArg (fun a : Paddr => a.word.line) (Ctrl.missPaddr_next hreq)
  rw [hline]
  refine (h.apart_of_sendsLoad hload hport).next hb hc fun hen => ?_
  have hdata : i.memDataAck = false := hdata
  rw [dirtyRdEn_of_memDataAck hdata] at hen
  cases hen

theorem storeWait_next (hc : Wbuffer.Chosen s.hw.wbuf i.choice)
    (hnext : (hwNext cfg s.hw i).miss.state = .STORE_WAIT)
    (hv : (hwNext cfg s.hw i).miss.mshrVldQ = true) :
    ∃ n ∈ (hwNext cfg s.hw i).wbuf.dirtyLock,
      ((hwNext cfg s.hw i).wbuf.buffer n).wtag.line ≠ mshrLine (hwNext cfg s.hw i) := by
  have hnext : Missunit.stateD s.hw.miss (missIn cfg s.hw i) = .STORE_WAIT := hnext
  obtain ⟨hstore, hdata⟩ := sendsStore_of_storeWait hnext
  have halloc : Missunit.mshrAllocate s.hw.miss (missIn cfg s.hw i) = false :=
    mshrAllocate_of_memDataAck hdata
  have hen : Wbuffer.dirtyRdEn s.hw.wbuf (wbufIn cfg s.hw i) = false :=
    dirtyRdEn_of_memDataAck hdata
  have hany : any (Wbuffer.dirty s.hw.wbuf) = true := by
    have hreq := (hb.waits.port_of_sendsStore hstore).2
    rw [Wbuffer.missReq, Bool.and_eq_true] at hreq
    exact hreq.1
  refine ⟨Wbuffer.dirtyPtr s.hw.wbuf i.choice, Wbuffer.dirtyLock_next hany hen, ?_⟩
  obtain ⟨k, hk⟩ := any_iff.mp (hb.wbuf.dirty_dirtyPtr hc hany)
  have hwtag : ((hwNext cfg s.hw i).wbuf.buffer (Wbuffer.dirtyPtr s.hw.wbuf i.choice)).wtag =
      (s.hw.wbuf.buffer (Wbuffer.dirtyPtr s.hw.wbuf i.choice)).wtag :=
    Wbuffer.wtag_stable (Wbuffer.valid_iff.mpr ⟨k, (Wbuffer.bdirty_iff.mp hk).2.2⟩)
  rw [mshrVldQ_next, halloc, if_neg Bool.false_ne_true] at hv
  have hline : mshrLine (hwNext cfg s.hw i) = mshrLine s.hw := by
    rw [mshrLine, mshr_next, Missunit.mshrD, halloc]
    rfl
  rw [hwtag, hline]
  refine h.apart_of_sendsStore hstore ?_
  split_ifs at hv
  exact hv

/-! ## The outstanding read -/

omit h in
/-- Unless the miss unit takes up a read, the memory side keeps the one it has. -/
theorem loadNext_of_not_mshrAllocate
    (halloc : Missunit.mshrAllocate s.hw.miss (missIn cfg s.hw i) = false) :
    loadNext s.side i (accepted cfg s.hw i) = loadNext.kept s.side i := by
  unfold loadNext
  split
  · rename_i r hr
    refine if_neg fun hload => ?_
    rw [hb.waits.mshrAllocate_of_accepted hr hload] at halloc
    cases halloc
  · rfl

theorem load_next : (loadNext s.side i (accepted cfg s.hw i)).isSome =
    (hwNext cfg s.hw i).miss.mshrVldQ := by
  rw [mshrVldQ_next]
  cases halloc : Missunit.mshrAllocate s.hw.miss (missIn cfg s.hw i) with
  | true =>
      obtain ⟨p, -, -, hacc⟩ := hb.waits.of_mshrAllocate halloc
      rw [hacc, if_pos rfl]
      rfl
  | false =>
      rw [loadNext_of_not_mshrAllocate hb halloc, if_neg Bool.false_ne_true, ← h.load]
      have hack : Missunit.loadAck s.hw.miss (missIn cfg s.hw i) =
          (rtrns i .LOAD_ACK && s.hw.miss.mshrVldQ) := rfl
      rw [hack, ← h.load]
      unfold loadNext.kept
      cases rtrns i .LOAD_ACK <;> cases s.side.load <;> simp

theorem asks_next (l : PendingLoad) (hl : l ∈ loadNext s.side i (accepted cfg s.hw i)) :
    l.paddr = paddrSizeAlign (hwNext cfg s.hw i).miss.mshr.paddr
        (hwNext cfg s.hw i).miss.mshr.size ∧
      l.size = (hwNext cfg s.hw i).miss.mshr.size ∧
      l.nc = (hwNext cfg s.hw i).miss.mshr.nc := by
  rw [mshr_next, Missunit.mshrD]
  cases halloc : Missunit.mshrAllocate s.hw.miss (missIn cfg s.hw i) with
  | true =>
      obtain ⟨p, hport, -, hacc⟩ := hb.waits.of_mshrAllocate halloc
      rw [hacc] at hl
      obtain rfl : (⟨_, _, _, none⟩ : PendingLoad) = l := Option.some.inj hl
      rw [if_pos rfl, hport]
      exact ⟨rfl, rfl, rfl⟩
  | false =>
      rw [loadNext_of_not_mshrAllocate hb halloc] at hl
      rw [if_neg Bool.false_ne_true]
      unfold loadNext.kept at hl
      by_cases hack : rtrns i .LOAD_ACK = true
      · rw [if_pos hack] at hl
        cases hl
      · rw [if_neg hack] at hl
        obtain ⟨l', hl', rfl⟩ := Option.map_eq_some_iff.mp hl
        have hasks := h.asks l' hl'
        split_ifs <;> exact hasks

theorem waits_next (hh : Held s.hw) (p : Fin 2)
    (hnext : ((hwNext cfg s.hw i).ctrl p).state = .MISS_WAIT) : Owner (hwNext cfg s.hw i) p := by
  have hnext : Ctrl.stateD (s.hw.ctrl p) (ctrlIn cfg s.hw i p) = .MISS_WAIT := hnext
  -- a port that asks or waits keeps its address and its size
  have hsame (hs : (s.hw.ctrl p).state = .MISS_REQ ∨ (s.hw.ctrl p).state = .MISS_WAIT) :
      Ctrl.missPaddr ((hwNext cfg s.hw i).ctrl p) = Ctrl.missPaddr (s.hw.ctrl p) ∧
        ((hwNext cfg s.hw i).ctrl p).dataSizeQ = (s.hw.ctrl p).dataSizeQ := by
    have hgnt : Ctrl.dataGnt (s.hw.ctrl p) (ctrlIn cfg s.hw i p) = false := by
      rcases hs with hs | hs <;> simp [Ctrl.dataGnt, hs]
    have hsave : Ctrl.saveTag (s.hw.ctrl p) (ctrlIn cfg s.hw i p).req = false := by
      rcases hs with hs | hs <;> simp [Ctrl.saveTag, hs]
    constructor
    · simp [Ctrl.missPaddr, hwNext, Ctrl.next, Ctrl.addressTagD, Ctrl.addressIdxD,
        Ctrl.addressOffD, hgnt, hsave]
    · simp [hwNext, Ctrl.next, hgnt]
  cases hs : (s.hw.ctrl p).state <;> simp only [Ctrl.stateD, hs] at hnext
  case MISS_REQ =>
    split_ifs at hnext with _ _ _ hack
    have hack : Missunit.missAck s.hw.miss (missIn cfg s.hw i) (.rd p) = true := hack
    have halloc : Missunit.mshrAllocate s.hw.miss (missIn cfg s.hw i) = true := by
      rw [Missunit.mshrAllocate, hb.waits.sendsLoad_of_missAck hack]
      exact (sends_of_missAck hack).1
    obtain ⟨hpaddr, hsize⟩ := hsame (.inl hs)
    have hmshr : (hwNext cfg s.hw i).miss.mshr = ⟨Ctrl.missPaddr (s.hw.ctrl p),
        Ctrl.missSize (s.hw.ctrl p) cfg (cacheEn s.hw), (s.hw.ctrl p).vldDataQ, rdTxId,
        Ctrl.missNc (s.hw.ctrl p) cfg (cacheEn s.hw),
        Missunit.replWay s.hw.miss (missIn cfg s.hw i), .rd p⟩ := by
      rw [mshr_next, Missunit.mshrD, if_pos halloc, (accepted_of_missAck hack).2.1]
      rfl
    refine ⟨by rw [mshrVldQ_next, if_pos halloc], ?_, ?_, ?_⟩
    · rw [hmshr]
    · rw [hmshr, hpaddr]
    · rw [hmshr, hsize]
      rfl
  case MISS_WAIT =>
    split_ifs at hnext with _ _ hrtrn
    obtain ⟨hvld, hport, hmpaddr, hmsize⟩ := h.waits p hs
    have hrtrn : Missunit.missRtrnVld s.hw.miss (missIn cfg s.hw i) (.rd p) = false :=
      Bool.eq_false_iff.mpr hrtrn
    have hack : Missunit.loadAck s.hw.miss (missIn cfg s.hw i) = false := by
      rw [Missunit.missRtrnVld, hport, beq_self_eq_true, Bool.and_true, Bool.or_eq_false_iff] at hrtrn
      exact hrtrn.1
    have halloc : Missunit.mshrAllocate s.hw.miss (missIn cfg s.hw i) = false := by
      by_contra halloc
      rw [Bool.not_eq_false, Missunit.mshrAllocate, Bool.and_eq_true] at halloc
      rw [(hh.clean_of_sendsLoad halloc.1).1] at hvld
      cases hvld
    have hmshr : (hwNext cfg s.hw i).miss.mshr = s.hw.miss.mshr := by
      rw [mshr_next, Missunit.mshrD, halloc]
      rfl
    obtain ⟨hpaddr, hsize⟩ := hsame (.inr hs)
    refine ⟨?_, by rw [hmshr, hport], by rw [hmshr, hpaddr, hmpaddr], by rw [hmshr, hsize, hmsize]⟩
    rw [mshrVldQ_next, halloc, hack]
    exact hvld
  all_goals split_ifs at hnext

/-! ## Atomics -/

theorem alone_next (hsel : Missunit.amoSel (hwNext cfg s.hw i).miss = true) :
    (hwNext cfg s.hw i).miss.mshrVldQ = false ∧
      ∀ id, ((hwNext cfg s.hw i).wbuf.txStat id).vld = false := by
  -- neither a write nor a read is sent, and none has been before
  have hnone : (Missunit.sendsStore s.hw.miss (missIn cfg s.hw i) ||
      Missunit.sendsLoad s.hw.miss (missIn cfg s.hw i)) = false ∧
      s.hw.miss.mshrVldQ = false ∧ ∀ id, (s.hw.wbuf.txStat id).vld = false := by
    rcases Missunit.of_amoSel_next hsel with ⟨hidle, hreq, hempty, hvld⟩ | ⟨hsel, -⟩
    · refine ⟨?_, hvld, hb.wbuf.no_tx_of_empty hempty⟩
      have hmiss : Missunit.idleMiss s.hw.miss (missIn cfg s.hw i) = false := by
        simp [Missunit.idleMiss, hreq]
      simp [Missunit.sendsStore, Missunit.sendsLoad, hidle, hmiss]
    · refine ⟨?_, h.alone hsel⟩
      by_contra hsends
      rw [amoSel_of_sends (Bool.not_eq_false _ ▸ hsends)] at hsel
      cases hsel
  obtain ⟨hsends, hvld, htx⟩ := hnone
  rw [Bool.or_eq_false_iff] at hsends
  constructor
  · rw [mshrVldQ_next, Missunit.mshrAllocate, hsends.2, hvld]
    simp
  · intro id
    by_contra hv
    rcases Wbuffer.of_vld_next (Bool.not_eq_false _ ▸ hv) with ⟨hen, -, -⟩ | ⟨hold, -, -⟩
    · rw [hb.waits.sendsStore_of_dirtyRdEn hen] at hsends
      cases hsends.1
    · rw [htx id] at hold
      cases hold

theorem amo_next (ha : (amoNext s.side i (accepted cfg s.hw i)).isSome = true) :
    (hwNext cfg s.hw i).miss.state = .AMO_WAIT := by
  refine Missunit.stateD_eq_amoWait_iff.mpr ?_
  have hkept (hk : (amoNext.kept s.side i).isSome = true) : s.hw.miss.state = .AMO_WAIT ∧
      Missunit.amoAck s.hw.miss (missIn cfg s.hw i) = false := by
    unfold amoNext.kept at hk
    split_ifs at hk with hack
    · cases hk
    · rw [Option.isSome_map] at hk
      refine ⟨h.amo hk, ?_⟩
      have hrtrn : Missunit.rtrn (missIn cfg s.hw i) .ATOMIC_ACK = false :=
        Bool.eq_false_iff.mpr hack
      rw [Missunit.amoAck, hrtrn, Bool.false_and]
  unfold amoNext at ha
  split at ha
  · rename_i r hr
    split_ifs at ha with hatomic
    · cases hb.waits.sent hr with
      | store _ => cases hatomic
      | load p _ _ => cases hatomic
      | atomic _ hstate _ =>
          refine .inl ⟨hstate, ?_⟩
          unfold accepted at hr
          rw [Option.ite_none_right_eq_some, Bool.and_eq_true] at hr
          have hreq := hr.1.1
          rw [Missunit.memDataReq] at hreq
          simp only [Missunit.sendsStore, Missunit.sendsLoad, hstate, Bool.false_or] at hreq
          rw [Bool.and_eq_true]
          exact ⟨hreq, hr.1.2⟩
    · exact .inr (hkept ha)
  · exact .inr (hkept ha)

omit h hb in
/-- The return that invalidates a set clears all its ways, unless the cache is being flushed. -/
theorem cleared_of_invalidatesNow {am : PendingAmo} (hflush : s.hw.miss.state ≠ .FLUSH)
    (hinv : invalidatesNow i am = true) (way : Way) :
    ((hwNext cfg s.hw i).mem.tags am.addr.idx way).vld = false := by
  simp only [invalidatesNow, Bool.and_eq_true, beq_iff_eq] at hinv
  obtain ⟨⟨hrtrn, hall⟩, hidx⟩ := hinv
  have hen : Missunit.flushEn s.hw.miss = false := beq_eq_false_iff_ne.mpr hflush
  have hinvAll : Missunit.invVldAll (missIn cfg s.hw i) = true :=
    (Bool.and_eq_true _ _).mpr ⟨hrtrn, hall⟩
  have hinvVld : Missunit.invVld (missIn cfg s.hw i) = true :=
    (Bool.and_eq_true _ _).mpr ⟨hrtrn, by rw [Bool.or_eq_true]; exact .inr hall⟩
  have hwe : (wrCl cfg s.hw i).we = fun _ => true := by
    show Missunit.wrClWe s.hw.miss (missIn cfg s.hw i) = _
    rw [Missunit.wrClWe, hen, hinvAll]
    rfl
  have hvld : (wrCl cfg s.hw i).vld = true := by
    show (Missunit.loadAck s.hw.miss (missIn cfg s.hw i) || any (wrCl cfg s.hw i).we) = true
    rw [hwe, Bool.or_eq_true]
    exact .inr (any_iff.mpr ⟨way, rfl⟩)
  have hset : (wrCl cfg s.hw i).idx = am.addr.idx := by
    show (if Missunit.flushEn s.hw.miss then s.hw.miss.cnt
      else if Missunit.invVld (missIn cfg s.hw i) then i.memRtrn.inv.idx
      else s.hw.miss.mshr.paddr.word.idx) = _
    rw [hen, hinvVld]
    exact hidx
  have hbits : (wrCl cfg s.hw i).vldBits = fun _ => false := by
    show (if Missunit.flushEn s.hw.miss then fun _ => false
      else if Missunit.invVld (missIn cfg s.hw i) then fun _ => false
      else if Missunit.clWriteEn s.hw.miss (missIn cfg s.hw i) then bin2oh s.hw.miss.mshr.replWay
      else fun _ => false : WayMask) = _
    rw [hen, hinvVld]
    rfl
  show (Mem.tagsNext s.hw.mem (wrCl cfg s.hw i) am.addr.idx way).vld = false
  rw [Mem.tagsNext, hvld, hwe, hset, beq_self_eq_true, Bool.and_true, Bool.and_true, if_pos rfl,
    hbits]

omit hb in
theorem invalidated_next (am : PendingAmo) (ha : am ∈ amoNext s.side i (accepted cfg s.hw i))
    (hinv : am.invalidated = true) (way : Way) :
    ((hwNext cfg s.hw i).mem.tags am.addr.idx way).vld = false := by
  have hkept (hk : am ∈ amoNext.kept s.side i) :
      ((hwNext cfg s.hw i).mem.tags am.addr.idx way).vld = false := by
    unfold amoNext.kept at hk
    split_ifs at hk
    · cases hk
    · obtain ⟨am', ham', rfl⟩ := Option.map_eq_some_iff.mp hk
      have hstate : s.hw.miss.state = .AMO_WAIT := h.amo (Option.isSome_of_mem ham')
      rcases (Bool.or_eq_true _ _).mp hinv with hold | hnow
      · by_contra hv
        rcases of_vld_tags_next (Bool.not_eq_false _ ▸ hv) with ⟨hsame, -⟩ | hr
        · rw [hsame, h.invalidated am' ham' hold way] at hv
          exact hv rfl
        · -- no read is outstanding that could be refilled
          have hvld := (h.alone (by simp [Missunit.amoSel, hstate])).1
          rw [(of_clWriteEn hr.en).1] at hvld
          cases hvld
      · exact cleared_of_invalidatesNow (by simp [hstate]) hnow way
  unfold amoNext at ha
  split at ha
  · split_ifs at ha
    · obtain rfl : (⟨_, _, false⟩ : PendingAmo) = am := Option.some.inj ha
      cases hinv
    · exact hkept ha
  · exact hkept ha

theorem next (hh : Held s.hw) (hc : Wbuffer.Chosen s.hw.wbuf i.choice) :
    InFlight (s.next cfg i) where
  load := h.load_next hb
  asks := h.asks_next hb
  apart := h.apart_next hb hc
  loadWait := h.loadWait_next hb hc
  storeWait := h.storeWait_next hb hc
  waits := h.waits_next hb hh
  alone := h.alone_next hb
  amo := h.amo_next hb
  invalidated := h.invalidated_next

end Step

end InFlight

end Cva6.Dcache
