import Cva6.Dcache.Model
import Cva6.Dcache.WbufferInv
/-!
# What the data cache sends to memory

The request that the memory side accepts is the transaction of the write buffer, the miss
of a read port or the atomic. A request that waits for the memory keeps its port: the miss
unit latches the requests and the write buffer locks its choices.
-/

namespace Cva6.Dcache

open Cva6.Sync

def storeMemReq (cfg : Cfg) (s : Hw) (i : Input) : MemReq where
  rtype := .STORE
  size := (Wbuffer.missSize s.wbuf i.choice).setWidth 3
  paddr := paddrSizeAlign (Wbuffer.missPaddr s.wbuf i.choice)
    ((Wbuffer.missSize s.wbuf i.choice).setWidth 3)
  data := Wbuffer.missWdata s.wbuf i.choice
  nc := Wbuffer.missNc cfg s.wbuf i.choice (cacheEn s)
  tid := Wbuffer.txId s.wbuf i.choice
  amoOp := .NONE

def loadMemReq (cfg : Cfg) (s : Hw) (p : Fin 2) : MemReq where
  rtype := .LOAD
  size := Ctrl.missSize (s.ctrl p) cfg (cacheEn s)
  paddr := paddrSizeAlign (Ctrl.missPaddr (s.ctrl p)) (Ctrl.missSize (s.ctrl p) cfg (cacheEn s))
  data := fun _ => 0
  nc := Ctrl.missNc (s.ctrl p) cfg (cacheEn s)
  tid := rdTxId
  amoOp := .NONE

/-- A request that waits for the memory is still offered by its port. -/
structure Waits (s : Hw) : Prop where
  store : s.miss.state = .STORE_WAIT →
    lowestPort s.miss.missReqMaskedQ = .wr ∧ Wbuffer.missReq s.wbuf = true
  load : s.miss.state = .LOAD_WAIT →
    ∃ p, lowestPort s.miss.missReqMaskedQ = .rd p ∧ Ctrl.missReq (s.ctrl p) = true

variable {cfg : Cfg} {s : Hw} {i : Input}

@[simp] theorem missOf_we (p : Port) : (missOf cfg s i p).we = (p == .wr) := by
  cases p <;> rfl

theorem req_of_missReqMasked {p : Port} (hlock : Missunit.lockReqs s.miss = false)
    (h : Missunit.missReqMasked s.miss (missIn cfg s i) p = true) :
    (missOf cfg s i p).req = true := by
  unfold Missunit.missReqMasked at h
  rw [hlock, if_neg Bool.false_ne_true] at h
  split at h
  · rw [Bool.and_eq_true] at h
    exact h.2
  · exact h

theorem idleMiss_port (h : Missunit.idleMiss s.miss (missIn cfg s i) = true) :
    s.miss.state = .IDLE ∧
      (missOf cfg s i (Missunit.missPortIdx s.miss (missIn cfg s i))).req = true := by
  simp only [Missunit.idleMiss, Bool.and_eq_true, beq_iff_eq] at h
  obtain ⟨⟨⟨hidle, -⟩, -⟩, hany⟩ := h
  refine ⟨hidle, req_of_missReqMasked ?_ (anyPort_iff.mp hany)⟩
  simp [Missunit.lockReqs, hidle]

theorem Waits.port_of_sendsStore (h : Waits s)
    (hs : Missunit.sendsStore s.miss (missIn cfg s i) = true) :
    Missunit.missPortIdx s.miss (missIn cfg s i) = .wr ∧ Wbuffer.missReq s.wbuf = true := by
  cases hstate : s.miss.state <;> simp only [Missunit.sendsStore, hstate] at hs
  case IDLE =>
    rw [Bool.and_eq_true] at hs
    obtain ⟨hmiss, hstore⟩ := hs
    have hreq := (idleMiss_port hmiss).2
    have hwr : Missunit.missPortIdx s.miss (missIn cfg s i) = .wr := by
      rw [Missunit.idleStore, Bool.and_eq_true, Missunit.missIsWrite] at hstore
      have hwe : (missOf cfg s i (Missunit.missPortIdx s.miss (missIn cfg s i))).we = true :=
        hstore.1
      rw [missOf_we, beq_iff_eq] at hwe
      exact hwe
    rw [hwr] at hreq
    exact ⟨hwr, hreq⟩
  case STORE_WAIT =>
    obtain ⟨hport, hreq⟩ := h.store hstate
    refine ⟨?_, hreq⟩
    simpa [Missunit.missPortIdx, Missunit.missReqMasked, Missunit.lockReqs, hstate] using hport
  case DRAIN =>
    rw [Bool.and_eq_true] at hs
    have hmasked := anyPort_iff.mp hs.1
    have hport : Missunit.missReqMasked s.miss (missIn cfg s i) =
        fun p => (missOf cfg s i p).we && (missOf cfg s i p).req := by
      simp [Missunit.missReqMasked, Missunit.lockReqs, Missunit.maskReads, hstate, missIn]
    have hboth : ((missOf cfg s i (Missunit.missPortIdx s.miss (missIn cfg s i))).we &&
        (missOf cfg s i (Missunit.missPortIdx s.miss (missIn cfg s i))).req) = true := by
      rw [hport] at hmasked
      rw [Missunit.missPortIdx, hport]
      exact hmasked
    rw [Bool.and_eq_true, missOf_we, beq_iff_eq] at hboth
    obtain ⟨hwr, hreq⟩ := hboth
    rw [hwr] at hreq
    exact ⟨hwr, hreq⟩
  all_goals cases hs

theorem port_of_sendsLoad (hload : s.miss.state = .LOAD_WAIT →
      ∃ p, lowestPort s.miss.missReqMaskedQ = .rd p ∧ Ctrl.missReq (s.ctrl p) = true)
    (hs : Missunit.sendsLoad s.miss (missIn cfg s i) = true) :
    ∃ p, Missunit.missPortIdx s.miss (missIn cfg s i) = .rd p ∧
      Ctrl.missReq (s.ctrl p) = true := by
  cases hstate : s.miss.state <;> simp only [Missunit.sendsLoad, hstate] at hs
  case IDLE =>
    rw [Bool.and_eq_true] at hs
    obtain ⟨hmiss, hload⟩ := hs
    have hreq := (idleMiss_port hmiss).2
    have hread : (missOf cfg s i (Missunit.missPortIdx s.miss (missIn cfg s i))).we = false := by
      simp only [Missunit.idleLoad, Bool.and_eq_true, Bool.not_eq_true'] at hload
      exact hload.1.1.1
    cases hp : Missunit.missPortIdx s.miss (missIn cfg s i) with
    | rd p =>
        rw [hp] at hreq
        exact ⟨p, rfl, hreq⟩
    | wr => rw [hp, missOf_we] at hread; cases hread
  case LOAD_WAIT =>
    obtain ⟨p, hport, hreq⟩ := hload hstate
    refine ⟨p, ?_, hreq⟩
    simpa [Missunit.missPortIdx, Missunit.missReqMasked, Missunit.lockReqs, hstate] using hport
  all_goals cases hs

theorem Waits.port_of_sendsLoad (h : Waits s)
    (hs : Missunit.sendsLoad s.miss (missIn cfg s i) = true) :
    ∃ p, Missunit.missPortIdx s.miss (missIn cfg s i) = .rd p ∧
      Ctrl.missReq (s.ctrl p) = true :=
  Dcache.port_of_sendsLoad h.load hs

theorem sendsStore_of_storeWait
    (hnext : Missunit.stateD s.miss (missIn cfg s i) = .STORE_WAIT) :
    Missunit.sendsStore s.miss (missIn cfg s i) = true ∧ i.memDataAck = false := by
  cases hs : s.miss.state <;> simp only [Missunit.stateD, hs] at hnext
  case IDLE =>
    split_ifs at hnext with _ _ _ _ hstore
    simp only [Bool.and_eq_true, Bool.not_eq_true'] at hstore
    exact ⟨by simp [Missunit.sendsStore, hs, hstore.1], hstore.2⟩
  case STORE_WAIT =>
    split_ifs at hnext with hack
    exact ⟨by simp [Missunit.sendsStore, hs], Bool.eq_false_iff.mpr hack⟩
  all_goals split_ifs at hnext

theorem sendsLoad_of_loadWait
    (hnext : Missunit.stateD s.miss (missIn cfg s i) = .LOAD_WAIT) :
    Missunit.sendsLoad s.miss (missIn cfg s i) = true ∧ i.memDataAck = false ∧
      ∀ p, Missunit.missReplay s.miss (missIn cfg s i) p = false := by
  cases hs : s.miss.state <;> simp only [Missunit.stateD, hs] at hnext
  case IDLE =>
    split_ifs at hnext with _ _ _ _ _ hload
    simp only [Bool.and_eq_true, Bool.not_eq_true'] at hload
    refine ⟨by simp [Missunit.sendsLoad, hs, hload.1], hload.2, ?_⟩
    intro p
    have hidle := hload.1.2
    simp only [Missunit.idleLoad, Bool.and_eq_true, Bool.not_eq_true'] at hidle
    simp [Missunit.missReplay, hidle.1.2]
  case LOAD_WAIT =>
    split_ifs at hnext with hack
    refine ⟨by simp [Missunit.sendsLoad, hs], Bool.eq_false_iff.mpr hack, ?_⟩
    intro p
    simp [Missunit.missReplay, Missunit.idleMiss, hs]
  all_goals split_ifs at hnext

theorem amoSel_of_sends (h : (Missunit.sendsStore s.miss (missIn cfg s i) ||
    Missunit.sendsLoad s.miss (missIn cfg s i)) = true) : Missunit.amoSel s.miss = false := by
  unfold Missunit.amoSel
  cases hstate : s.miss.state <;> simp_all [Missunit.sendsStore, Missunit.sendsLoad]

inductive Sent (cfg : Cfg) (s : Hw) (i : Input) : MemReq → Prop where
  | store (acked : Wbuffer.dirtyRdEn s.wbuf (wbufIn cfg s i) = true) :
      Sent cfg s i (storeMemReq cfg s i)
  | load (p : Fin 2) (req : Ctrl.missReq (s.ctrl p) = true)
      (acked : Missunit.missAck s.miss (missIn cfg s i) (.rd p) = true) :
      Sent cfg s i (loadMemReq cfg s p)
  | atomic (r : MemReq) (state : s.miss.state = .AMO) (rtype : r.rtype = .ATOMIC) : Sent cfg s i r

theorem Waits.sent (h : Waits s) {r : MemReq} (hr : accepted cfg s i = some r) :
    Sent cfg s i r := by
  unfold accepted at hr
  rw [Option.ite_none_right_eq_some, Bool.and_eq_true, Missunit.memDataReq, Bool.or_eq_true] at hr
  obtain ⟨⟨hreq, hack⟩, hr⟩ := hr
  obtain rfl := Option.some.inj hr
  rcases hreq with hreq | hamo
  · have hsel := amoSel_of_sends hreq
    have hmissAck {p : Port} (hp : Missunit.missPortIdx s.miss (missIn cfg s i) = p) :
        Missunit.missAck s.miss (missIn cfg s i) p = true := by
      have hack : (missIn cfg s i).memDataAck = true := hack
      simp [Missunit.missAck, hsel, hp, hack, Missunit.memDataReq, hreq]
    cases hstore : Missunit.sendsStore s.miss (missIn cfg s i) with
    | true =>
        obtain ⟨hport, hmiss⟩ := h.port_of_sendsStore hstore
        have hen : Wbuffer.dirtyRdEn s.wbuf (wbufIn cfg s i) = true := by
          rw [Wbuffer.dirtyRdEn, hmiss, Bool.true_and]
          exact hmissAck hport
        have heq : Missunit.memData s.miss (missIn cfg s i) = storeMemReq cfg s i := by
          simp only [Missunit.memData, Missunit.rtype, hsel, hstore, hport, Bool.false_eq_true,
            if_false, if_true, Bool.false_or]
          rfl
        rw [heq]
        exact .store hen
    | false =>
        rw [hstore, Bool.false_or] at hreq
        obtain ⟨p, hport, hmiss⟩ := h.port_of_sendsLoad hreq
        have heq : Missunit.memData s.miss (missIn cfg s i) = loadMemReq cfg s p := by
          simp only [Missunit.memData, Missunit.rtype, hsel, hstore, hport, Bool.false_eq_true,
            if_false, Bool.false_or]
          rfl
        rw [heq]
        exact .load p hmiss (hmissAck hport)
  · rw [Missunit.sendsAmo, Bool.and_eq_true, beq_iff_eq] at hamo
    refine .atomic _ hamo.1 ?_
    simp [Missunit.memData, Missunit.rtype, Missunit.amoSel, hamo.1]

theorem accepted_of_missAck {p : Port}
    (h : Missunit.missAck s.miss (missIn cfg s i) p = true) :
    accepted cfg s i = some (Missunit.memData s.miss (missIn cfg s i)) ∧
      Missunit.missPortIdx s.miss (missIn cfg s i) = p ∧ Missunit.amoSel s.miss = false := by
  simp only [Missunit.missAck, Bool.and_eq_true, Bool.not_eq_true', beq_iff_eq] at h
  obtain ⟨⟨⟨hsel, hport⟩, hack⟩, hreq⟩ := h
  have hack : i.memDataAck = true := hack
  exact ⟨by simp [accepted, hreq, hack], hport.symm, hsel⟩

theorem sends_of_missAck {p : Port} (h : Missunit.missAck s.miss (missIn cfg s i) p = true) :
    i.memDataAck = true ∧ (Missunit.sendsStore s.miss (missIn cfg s i) = true ∨
      Missunit.sendsLoad s.miss (missIn cfg s i) = true) := by
  simp only [Missunit.missAck, Missunit.memDataReq, Bool.and_eq_true, Bool.or_eq_true,
    Bool.not_eq_true'] at h
  obtain ⟨⟨⟨hsel, -⟩, hack⟩, hsends | hamo⟩ := h
  · exact ⟨hack, hsends⟩
  · rw [Missunit.sendsAmo, Bool.and_eq_true, beq_iff_eq] at hamo
    simp [Missunit.amoSel, hamo.1] at hsel

theorem Waits.sendsStore_of_dirtyRdEn (h : Waits s)
    (hen : Wbuffer.dirtyRdEn s.wbuf (wbufIn cfg s i) = true) :
    Missunit.sendsStore s.miss (missIn cfg s i) = true := by
  have hack : Missunit.missAck s.miss (missIn cfg s i) .wr = true :=
    (Bool.and_eq_true _ _ ▸ hen : _ ∧ _).2
  refine (sends_of_missAck hack).2.resolve_right fun hload => ?_
  obtain ⟨p, hport, -⟩ := h.port_of_sendsLoad hload
  rw [(accepted_of_missAck hack).2.1] at hport
  cases hport

theorem Waits.sendsLoad_of_missAck (h : Waits s) {p : Fin 2}
    (hack : Missunit.missAck s.miss (missIn cfg s i) (.rd p) = true) :
    Missunit.sendsLoad s.miss (missIn cfg s i) = true := by
  refine (sends_of_missAck hack).2.resolve_left fun hstore => ?_
  have hport := (h.port_of_sendsStore hstore).1
  rw [(accepted_of_missAck hack).2.1] at hport
  cases hport

theorem accepted_of_dirtyRdEn {s : Hw} (h : Waits s)
    (hen : Wbuffer.dirtyRdEn s.wbuf (wbufIn cfg s i) = true) :
    accepted cfg s i = some (storeMemReq cfg s i) := by
  rw [Wbuffer.dirtyRdEn, Bool.and_eq_true] at hen
  obtain ⟨hacc, hport, hsel⟩ := accepted_of_missAck hen.2
  rw [hacc]
  generalize Missunit.memData s.miss (missIn cfg s i) = r at hacc
  cases h.sent hacc with
  | store _ => rfl
  | load p _ hack =>
      rw [(accepted_of_missAck hack).2.1] at hport
      cases hport
  | atomic _ hstate _ => simp [Missunit.amoSel, hstate] at hsel

theorem Waits.of_mshrAllocate (h : Waits s)
    (ha : Missunit.mshrAllocate s.miss (missIn cfg s i) = true) :
    ∃ p, Missunit.missPortIdx s.miss (missIn cfg s i) = .rd p ∧
      Ctrl.missReq (s.ctrl p) = true ∧ accepted cfg s i = some (loadMemReq cfg s p) := by
  rw [Missunit.mshrAllocate, Bool.and_eq_true] at ha
  obtain ⟨hload, hdata⟩ := ha
  obtain ⟨p, hport, hreq⟩ := h.port_of_sendsLoad hload
  have hsel := amoSel_of_sends (by rw [hload, Bool.or_true])
  have hack : Missunit.missAck s.miss (missIn cfg s i) (.rd p) = true := by
    simp [Missunit.missAck, Missunit.memDataReq, hsel, hport, hdata, hload]
  refine ⟨p, hport, hreq, ?_⟩
  obtain ⟨hacc, -, -⟩ := accepted_of_missAck hack
  rw [hacc]
  generalize Missunit.memData s.miss (missIn cfg s i) = r at hacc
  cases h.sent hacc with
  | store hen =>
      rw [Wbuffer.dirtyRdEn, Bool.and_eq_true] at hen
      rw [(accepted_of_missAck hen.2).2.1] at hport
      cases hport
  | atomic _ hstate _ => simp [Missunit.amoSel, hstate] at hsel
  | load p' _ hack' =>
      rw [(accepted_of_missAck hack').2.1, Port.rd.injEq] at hport
      rw [hport]

theorem Waits.mshrAllocate_of_accepted (h : Waits s) {r : MemReq}
    (hr : accepted cfg s i = some r) (hload : r.rtype = .LOAD) :
    Missunit.mshrAllocate s.miss (missIn cfg s i) = true := by
  cases h.sent hr with
  | store _ => cases hload
  | atomic _ _ hrtype => rw [hrtype] at hload; cases hload
  | load p _ hack =>
      have hdata : (missIn cfg s i).memDataAck = true := (sends_of_missAck hack).1
      rw [Missunit.mshrAllocate, h.sendsLoad_of_missAck hack, hdata]
      rfl

theorem not_missAck_of_missReplay {p p' : Port}
    (h : Missunit.missReplay s.miss (missIn cfg s i) p = true) :
    Missunit.missAck s.miss (missIn cfg s i) p' = false := by
  simp only [Missunit.missReplay, Bool.and_eq_true, Bool.not_eq_true'] at h
  obtain ⟨⟨⟨⟨hidle, hread⟩, -⟩, hcollision⟩, -⟩ := h
  have hstate : s.miss.state = .IDLE := (idleMiss_port hidle).1
  have hreq : Missunit.memDataReq s.miss (missIn cfg s i) = false := by
    simp [Missunit.memDataReq, Missunit.sendsStore, Missunit.sendsLoad, Missunit.sendsAmo, hstate,
      Missunit.idleStore, Missunit.idleLoad, hread, hcollision]
  rw [Missunit.missAck, hreq, Bool.and_false]

/-! ## One cycle -/

theorem Wbuffer.dirtyLock_next {q : Wbuffer.Regs} {c : Wbuffer.Choice} {j : Wbuffer.Input}
    (hdirty : any (Wbuffer.dirty q) = true) (hen : Wbuffer.dirtyRdEn q j = false) :
    (Wbuffer.next cfg q c j).dirtyLock = some (Wbuffer.dirtyPtr q c) := by
  simp [Wbuffer.next, hdirty, hen]

/-- A transaction that is not acknowledged is offered again. -/
theorem Wbuffer.Ok.missReq_next {q : Wbuffer.Regs} {c : Wbuffer.Choice} {j : Wbuffer.Input}
    (h : Wbuffer.Ok q) (hc : Wbuffer.Chosen q c) (hreq : Wbuffer.missReq q = true)
    (hen : Wbuffer.dirtyRdEn q j = false) : Wbuffer.missReq (Wbuffer.next cfg q c j) = true := by
  rw [Wbuffer.missReq, Bool.and_eq_true] at hreq ⊢
  obtain ⟨hdirty, hfree⟩ := hreq
  have hlock : (Wbuffer.next cfg q c j).dirtyLock = some (Wbuffer.dirtyPtr q c) :=
    Wbuffer.dirtyLock_next hdirty hen
  have htx : (Wbuffer.next cfg q c j).txLock = some (Wbuffer.txId q c) := by
    simp [Wbuffer.next, hfree, hen]
  refine ⟨any_iff.mpr ⟨_, Wbuffer.next_dirtyLock h.dirtyLock hc _ hlock⟩,
    any_iff.mpr ⟨Wbuffer.txId q c, ?_⟩⟩
  rw [Bool.not_eq_true']
  exact h.next_txLock hc _ htx

theorem missReq_next {q : Ctrl.Regs} {c : Ctrl.Input} (h : Ctrl.missReq q = true)
    (hack : c.missAck = false) (hreplay : c.missReplay = false) :
    Ctrl.missReq (Ctrl.next q c) = true := by
  simp only [Ctrl.missReq, Bool.or_eq_true, beq_iff_eq] at h
  simp only [Ctrl.missReq, Ctrl.next]
  rcases h with hs | hs
  · simp only [Ctrl.stateD, hs, hack, hreplay]
    cases c.req.killReq <;> rfl
  · simp only [Ctrl.stateD, hs, hack, hreplay]
    rfl

theorem Waits.next (h : Waits s) (hw : Wbuffer.Ok s.wbuf)
    (hc : Wbuffer.Chosen s.wbuf i.choice) : Waits (hwNext cfg s i) where
  store := by
    intro hnext
    have hnext : Missunit.stateD s.miss (missIn cfg s i) = .STORE_WAIT := hnext
    obtain ⟨hstore, hdata⟩ := sendsStore_of_storeWait hnext
    obtain ⟨hport, hmiss⟩ := h.port_of_sendsStore hstore
    refine ⟨hport, hw.missReq_next hc hmiss ?_⟩
    have hack : Missunit.missAck s.miss (missIn cfg s i) .wr = false := by
      have hdata : (missIn cfg s i).memDataAck = false := hdata
      simp [Missunit.missAck, hdata]
    rw [Wbuffer.dirtyRdEn, hmiss, Bool.true_and]
    exact hack
  load := by
    intro hnext
    have hnext : Missunit.stateD s.miss (missIn cfg s i) = .LOAD_WAIT := hnext
    obtain ⟨hload, hdata, hreplay⟩ := sendsLoad_of_loadWait hnext
    obtain ⟨p, hport, hmiss⟩ := h.port_of_sendsLoad hload
    refine ⟨p, hport, missReq_next hmiss ?_ (hreplay (.rd p))⟩
    have hdata : (missIn cfg s i).memDataAck = false := hdata
    show Missunit.missAck s.miss (missIn cfg s i) (.rd p) = false
    simp [Missunit.missAck, hdata]

/-! ## The memory side and the write buffer -/

/-- The write buffer, the miss unit and the memory side agree on what is in flight. -/
structure Books (s : State) : Prop where
  wbuf : Wbuffer.Ok s.hw.wbuf
  waits : Waits s.hw
  mshrPort : s.hw.miss.mshr.missPortIdx ≠ .wr
  writes : ∀ id, (s.side.writes id).isSome = true →
    (s.hw.wbuf.txStat id).vld = true ∧ id ∉ s.hw.wbuf.rtrnFifo

/-- The memory acknowledges writes it was given, and the arbiters choose requesters. -/
def Served (s : State) (i : Input) : Prop := WriteAnswered s i ∧ ArbitersChoose s i

instance (s : State) (i : Input) : Decidable (WriteAnswered s i) :=
  inferInstanceAs (Decidable (_ → ∃ w ∈ s.side.writes i.memRtrn.tid, _))

instance (s : State) (i : Input) : Decidable (ArbitersChoose s i) :=
  inferInstanceAs (Decidable ((_ → _) ∧ (_ → _) ∧ (_ → _) ∧ (_ → _)))

instance (s : State) (i : Input) : Decidable (Served s i) := inferInstanceAs (Decidable (_ ∧ _))

theorem books_start (z : Start) : Books (start z) where
  wbuf := Wbuffer.reset_ok
  waits := ⟨nofun, nofun⟩
  mshrPort := by simp [start, Missunit.reset]
  writes := by simp [start]

section Books

variable {s : State}

theorem Served.chosen (h : Served s i) : Wbuffer.Chosen s.hw.wbuf i.choice :=
  ⟨h.2.2.2.1, h.2.2.2.2⟩

/-- What returns to the write buffer is the acknowledgement of a write. -/
theorem Books.storeAck_of_missRtrnVld (h : Books s)
    (hv : (wbufIn cfg s.hw i).missRtrnVld = true) : rtrns i .STORE_ACK = true := by
  have hv : (Missunit.loadAck s.hw.miss (missIn cfg s.hw i) &&
    Port.wr == s.hw.miss.mshr.missPortIdx || Missunit.storeAck s.hw.miss (missIn cfg s.hw i) &&
      Port.wr == Port.wr) = true := hv
  have hne : (Port.wr == s.hw.miss.mshr.missPortIdx) = false := by
    rw [beq_eq_false_iff_ne]
    exact h.mshrPort.symm
  rw [hne, Bool.and_false, Bool.false_or, Bool.and_eq_true, Missunit.storeAck,
    Bool.and_eq_true] at hv
  exact hv.1.1

theorem Wbuffer.Ok.no_tx_of_empty {q : Wbuffer.Regs} (h : Wbuffer.Ok q)
    (hempty : Wbuffer.emptyO q = true) (id : TxId) : (q.txStat id).vld = false := by
  by_contra hvld
  rw [Bool.not_eq_false] at hvld
  obtain ⟨k, hk⟩ := h.tx_any id hvld
  have hvalid := h.txblock_valid _ k (h.tx_block id hvld k hk)
  rw [Wbuffer.emptyO, Bool.not_eq_true', any_eq_false] at hempty
  have hentry := any_eq_false.mp (hempty (q.txStat id).ptr) k
  exact Bool.noConfusion (hentry.symm.trans hvalid)

theorem Books.no_write_of_empty (h : Books s) (hempty : Wbuffer.emptyO s.hw.wbuf = true)
    (id : TxId) : s.side.writes id = none := by
  by_contra hne
  have hvld := (h.writes id (Option.isSome_iff_ne_none.mpr hne)).1
  exact Bool.noConfusion ((h.wbuf.no_tx_of_empty hempty id).symm.trans hvld)

theorem Books.returns (h : Books s) (ha : WriteAnswered s i) :
    Wbuffer.Returns s.hw.wbuf (wbufIn cfg s.hw i) := by
  intro hv
  obtain ⟨w, hw, -⟩ := ha (h.storeAck_of_missRtrnVld hv)
  exact h.writes _ (by show (s.side.writes i.memRtrn.tid).isSome = true; rw [hw]; rfl)

/-- A transaction in flight is not returned before the memory acknowledges it. -/
theorem Books.writes_kept (h : Books s) (hc : Wbuffer.Chosen s.hw.wbuf i.choice) {id : TxId}
    (hid : (s.side.writes id).isSome = true)
    (hack : (rtrns i .STORE_ACK && i.memRtrn.tid == id) = false) :
    (Wbuffer.txStatNext s.hw.wbuf i.choice (wbufIn cfg s.hw i) id).vld = true ∧
      id ∉ Wbuffer.rtrnFifoNext s.hw.wbuf (wbufIn cfg s.hw i) := by
  obtain ⟨hv, hnot⟩ := h.writes id hid
  have hkeep : ¬(Wbuffer.evict s.hw.wbuf (wbufIn cfg s.hw i) = true ∧
      id = Wbuffer.rtrnId s.hw.wbuf) := by
    rintro ⟨hev, rfl⟩
    apply hnot
    rw [(Wbuffer.of_evict hev).1]
    exact List.mem_cons_self
  refine ⟨?_, ?_⟩
  · rw [h.wbuf.vld_next hc hv hkeep]
    exact hv
  · intro hmem
    rcases h.wbuf.of_mem_rtrnFifo_next hmem with ⟨hold, -⟩ | ⟨hret, rfl⟩
    · exact hnot hold
    · rw [h.storeAck_of_missRtrnVld hret, Bool.true_and] at hack
      exact beq_eq_false_iff_ne.mp hack rfl

theorem Books.writes_next (h : Books s) (ha : WriteAnswered s i)
    (hc : Wbuffer.Chosen s.hw.wbuf i.choice) (id : TxId)
    (hid : (writesNext s.side i (accepted cfg s.hw i) id).isSome = true) :
    (Wbuffer.txStatNext s.hw.wbuf i.choice (wbufIn cfg s.hw i) id).vld = true ∧
      id ∉ Wbuffer.rtrnFifoNext s.hw.wbuf (wbufIn cfg s.hw i) := by
  have hkept (hk : (writesNext.kept s.side i id).isSome = true) :
      (Wbuffer.txStatNext s.hw.wbuf i.choice (wbufIn cfg s.hw i) id).vld = true ∧
        id ∉ Wbuffer.rtrnFifoNext s.hw.wbuf (wbufIn cfg s.hw i) := by
    unfold writesNext.kept at hk
    split at hk
    · cases hk
    · rename_i hack
      rw [Option.isSome_map] at hk
      exact h.writes_kept hc hk (Bool.eq_false_iff.mpr hack)
  unfold writesNext at hid
  split at hid
  · rename_i r hr
    split at hid
    · rename_i hnew
      cases h.waits.sent hr with
      | store hen =>
          have htid : id = Wbuffer.txId s.hw.wbuf i.choice := hnew.2.symm
          have hfree := h.wbuf.free_txId hc (Wbuffer.of_dirtyRdEn hen).2
          rw [← htid] at hfree
          refine ⟨by simp [Wbuffer.txStatNext, hen, htid], ?_⟩
          intro hmem
          rcases h.wbuf.of_mem_rtrnFifo_next hmem with ⟨hold, -⟩ | ⟨hret, hrtrn⟩
          · rw [h.wbuf.fifo_vld id hold] at hfree
            cases hfree
          · have hv := (h.returns ha hret).1
            rw [← hrtrn, hfree] at hv
            cases hv
      | load p _ _ => cases hnew.1
      | atomic _ _ hrtype => rw [hrtype] at hnew; cases hnew.1
    · exact hkept hid
  · exact hkept hid

theorem Books.next (h : Books s) (ha : WriteAnswered s i)
    (hc : Wbuffer.Chosen s.hw.wbuf i.choice) : Books (s.next cfg i) where
  wbuf := h.wbuf.next hc (h.returns ha)
  waits := h.waits.next h.wbuf hc
  mshrPort := by
    show (Missunit.mshrD s.hw.miss (missIn cfg s.hw i)).missPortIdx ≠ .wr
    unfold Missunit.mshrD
    split
    · rename_i halloc
      rw [Missunit.mshrAllocate, Bool.and_eq_true] at halloc
      obtain ⟨p, hport, -⟩ := h.waits.port_of_sendsLoad halloc.1
      show Missunit.missPortIdx s.hw.miss (missIn cfg s.hw i) ≠ .wr
      simp [hport]
    · exact h.mshrPort
  writes := h.writes_next ha hc

end Books

end Cva6.Dcache
