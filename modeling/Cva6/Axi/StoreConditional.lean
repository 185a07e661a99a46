import Cva6.Axi.Attached
import Cva6.Dcache.ResetFlush
/-!
# The answer to a store-conditional

A store-conditional has no read beat: the adapter makes the answer from its write response.
It puts the failure bit at the byte offset it remembers, but remembers the offset for one cycle
only, and it takes the next response of an atomic for the answer, whosever it is.
-/

namespace Cva6.Axi

open Cva6.Sync Cva6.Dcache

/-- The data cache on the adapter, with what it was asked for and what the bus accepted in the
cycle before. -/
structure Observed where
  x : Attached
  amo : AmoReq
  sent : List MemReq

def observed (cfg : Cfg) (z : Start) : Machine Observed CacheInput where
  init := ⟨(attached cfg z).init, default, []⟩
  next o i :=
    { x := (attached cfg z).next o.x i
      amo := i.dc.amo
      sent := granted o.x.axi (adapterIn cfg o.x i) }

/-- The byte of the doubleword that the access starts at, as the adapter computes it. -/
def scOff (r : MemReq) : Lane :=
  match r.size.setWidth 2 with
  | 0#2 => r.paddr.lane
  | 1#2 => Fin.ofNat 8 (r.paddr.lane.val / 2 * 2)
  | 2#2 => Fin.ofNat 8 (r.paddr.lane.val / 4 * 4)
  | _ => 0

def amoMemReq (a : AmoReq) : MemReq where
  rtype := .ATOMIC
  size := a.size.setWidth 3
  paddr := paddrSizeAlign a.paddr (a.size.setWidth 3)
  data := if a.size == 2 then fun k => a.operandB (Fin.ofNat 8 (k.val % 4)) else a.operandB
  nc := true
  tid := Missunit.amoTxId
  amoOp := a.op

/-! ## The environment -/

/-- An atomic is asked for until it is acknowledged. -/
def Asks (o : Observed) (i : CacheInput) : Prop :=
  o.x.dc.hw.miss.state = .AMO_WAIT → i.dc.amo = o.amo

/-- The refusal of a store-conditional that does not start at byte 0 of its doubleword is
taken in the cycle after the one in which the bus has accepted it. -/
def Prompt (cfg : Cfg) (o : Observed) (i : CacheInput) : Prop :=
  bPop o.x.axi.hw (adapterIn cfg o.x i) = true →
    ∀ r ∈ (bAll o.x.axi (adapterIn cfg o.x i)).head?, MemReq.isSc r.1 = true → r.2 = false →
      scOff r.1 ≠ 0 → o.sent = [r.1]

/-- The result of a store-conditional of a word tells whether its own write response has
reported success. -/
def Faithful (cfg : Cfg) (o : Observed) (i : CacheInput) : Prop :=
  Missunit.amoRespAck o.x.dc.hw.miss (missIn cfg o.x.dc.hw (dcIn cfg o.x i)) = true →
    i.dc.amo.op = .SC → i.dc.amo.size = 2 →
      ∃ d, o.x.axi.bus.done = some d ∧ d.req = amoMemReq i.dc.amo ∧
        (Missunit.amoResult (missIn cfg o.x.dc.hw (dcIn cfg o.x i)) = 0 ↔ d.exokay = true)

/-! ## The remembered offset -/

variable {cfg : Cfg} {z : Start} {o : Observed} {i : CacheInput}

structure Conditional (o : Observed) : Prop where
  joined : Joined o.x
  asked : o.x.dc.hw.miss.state = .AMO_WAIT → ∀ r ∈ unanswered o.x .ATOMIC, r = amoMemReq o.amo
  off : o.x.axi.hw.amoOff = 0 ∨
    ∃ r, unanswered o.x .ATOMIC = [r] ∧ o.x.axi.hw.amoOff = scOff r
  sent : ∀ r, o.sent = [r] → MemReq.isSc r = true → o.x.axi.hw.amoOff = scOff r
  answer : ∀ d, o.x.axi.bus.done = some d → MemReq.isSc d.req = true →
    ∃ off, o.x.axi.hw.dcacheShift.data 0 = scWord off d.exokay ∧
      (d.exokay = true ∨ off = scOff d.req)

theorem conditional_init : Conditional (observed cfg z).init where
  joined := (joined_init : Joined (attached cfg z).init)
  asked := nofun
  off := .inl rfl
  sent := nofun
  answer := nofun

theorem amoOffD_eq (q : Regs) : amoOffD q =
    if selects q .ATOMIC && (dcacheHead q).amoOp == .SC then scOff (dcacheHead q) else 0 := rfl

theorem Ok.mem_pending_of_selects {s : State} (h : Ok s) (hsel : selects s.hw .ATOMIC = true) :
    dcacheHead s.hw ∈ pending s .ATOMIC := by
  simp only [selects, Bool.and_eq_true, beq_iff_eq] at hsel
  obtain ⟨⟨hany, hidx⟩, ht⟩ := hsel
  have hqueue := dcacheData_cons (h.arb.arbReq1_of_idx hany hidx)
  refine List.mem_append_right _ (List.mem_filter.mpr ⟨?_, ?_⟩)
  · rw [queued, hqueue]
    exact List.mem_cons_self
  · rw [ht]
    rfl

theorem Ok.mem_pending_of_response {s : State} {j : Input} (h : Ok s) {p : MemReq × Bool}
    (hp : p ∈ bAll s j) (hsc : MemReq.isSc p.1 = true) : p.1 ∈ pending s .ATOMIC := by
  refine List.mem_append_left _ (List.mem_append_right _ (List.mem_filter.mpr ⟨?_, hsc⟩))
  rw [bAll, List.mem_append] at hp
  rcases hp with hp | hp
  · exact List.mem_append_left _ (List.mem_map.mpr ⟨p, hp, rfl⟩)
  · split_ifs at hp
    · rw [List.mem_singleton] at hp
      subst hp
      refine List.mem_append_right _ ?_
      have hsc : MemReq.isSc (bOwner s j) = true := hsc
      show bOwner s j ∈ s.bus.amoWrites
      unfold bOwner at hsc ⊢
      split_ifs at hsc ⊢
      · cases hw : s.bus.amoWrites with
        | nil => rw [hw] at hsc; cases hsc
        | cons r l => exact List.mem_cons_self
      · cases hw : s.bus.stores with
        | nil => rw [hw] at hsc; cases hsc
        | cons r l =>
            have hstore := h.flight.stores r (by show r ∈ s.bus.stores; rw [hw]; exact List.mem_cons_self)
            rw [hw] at hsc
            have hsc : MemReq.isSc r = true := hsc
            rw [MemReq.isSc_of_store hstore] at hsc
            cases hsc
    · cases hp

/-- A store-conditional is answered by its own write response. -/
theorem Ok.of_done_sc {s : State} {j : Input} (h : Ok s) (hl : Legal s j) {d : Done}
    (hd : doneNext s j = some d) (hsc : MemReq.isSc d.req = true) :
    bPop s.hw j = true ∧ dcacheRdEn s.hw j = false ∧ ∃ l, bAll s j = (d.req, d.exokay) :: l := by
  cases hr : dcacheRdEn s.hw j with
  | true =>
      exfalso
      obtain ⟨r, l, hrl, -⟩ := hl.dcacheBeat hr
      rw [doneNext, if_pos hr, hrl, rDone_cons] at hd
      split_ifs at hd
      rw [Option.some.injEq] at hd
      subst hd
      have hsc : MemReq.isSc r.req = true := hsc
      have hmem : r ∈ if j.axi.rId.getLsbD 1 then s.bus.amoReads else s.bus.loads := by
        rw [hrl]
        exact List.mem_cons_self
      obtain ⟨ht, hop⟩ := MemReq.isSc_iff.mp hsc
      split_ifs at hmem
      · exact (MemReq.readsBack_iff.mp (h.flight.amoReads r hmem)).2 hop
      · have hload := h.flight.loads r hmem
        rw [ht] at hload
        cases hload
  | false =>
      cases hp : bPop s.hw j with
      | false => simp [doneNext, hr, hp] at hd
      | true =>
          obtain ⟨r, ok, l, hb⟩ := h.bPop_cons hl hp
          simp only [doneNext, hr, hp, Bool.false_eq_true, if_false, if_true, bDone, hb] at hd
          split_ifs at hd
          rw [Option.some.injEq] at hd
          subst hd
          exact ⟨rfl, rfl, l, hb⟩

section Step

variable (h : Conditional o) (hs : NoStale cfg o.x i) (hl : OnBus cfg o.x i)

include h hs hl

theorem Conditional.asked_next (ha : Asks o i) (r : MemReq)
    (hr : r ∈ unanswered ((observed cfg z).next o i).x .ATOMIC) : r = amoMemReq i.dc.amo := by
  have hr : r ∈ unanswered ((attached cfg z).next o.x i) .ATOMIC := hr
  rw [h.joined.unanswered_next hs hl, List.mem_append] at hr
  rcases hr with hr | hr
  · have hnow : o.x.dc.hw.miss.state = .AMO_WAIT := by
      by_contra hne
      have hnone := h.joined.atomics
      rw [if_neg hne, Nat.le_zero, List.length_eq_zero_iff] at hnone
      rw [pending_nil hnone] at hr
      cases hr
    rw [h.asked hnow r (List.mem_append_right _ hr), ha hnow]
  · split_ifs at hr with hacc
    · rw [Bool.and_eq_true, beq_iff_eq] at hacc
      rw [List.mem_singleton] at hr
      rcases kind_of_ack hacc.1 with ⟨ht, -⟩ | ⟨ht, -⟩ | ⟨-, hamo, -⟩
      · rw [hacc.2] at ht
        cases ht
      · rw [hacc.2] at ht
        cases ht
      · rw [hr]
        show Missunit.memData o.x.dc.hw.miss (missIn cfg o.x.dc.hw (offered o.x i)) = _
        simp only [Missunit.memData, Missunit.rtype, Missunit.amoSel, hamo]
        rfl
    · cases hr

theorem Conditional.off_next : ((observed cfg z).next o i).x.axi.hw.amoOff = 0 ∨
    ∃ r, unanswered ((observed cfg z).next o i).x .ATOMIC = [r] ∧
      ((observed cfg z).next o i).x.axi.hw.amoOff = scOff r := by
  have hoff : ((observed cfg z).next o i).x.axi.hw.amoOff = amoOffD o.x.axi.hw := rfl
  rw [hoff, amoOffD_eq]
  split_ifs with hsel
  · rw [Bool.and_eq_true] at hsel
    have hmem := h.joined.axi.mem_pending_of_selects hsel.1
    refine .inr ⟨dcacheHead o.x.axi.hw, ?_, rfl⟩
    have hone := (length_pending_le (x := o.x) .ATOMIC).trans h.joined.atomics_le
    have hpend : pending o.x.axi .ATOMIC = [dcacheHead o.x.axi.hw] := by
      cases hp : pending o.x.axi .ATOMIC with
      | nil => rw [hp] at hmem; cases hmem
      | cons r l =>
          rw [hp, List.length_cons] at hone
          have hnil : l = [] := List.length_eq_zero_iff.mp (by omega)
          rw [hp, hnil, List.mem_singleton] at hmem
          rw [hnil, hmem]
    have hnone : (dcacheDataAck o.x.axi.hw (adapterIn cfg o.x i) &&
        (adapterIn cfg o.x i).dcacheData.rtype == .ATOMIC) = false := by
      by_contra hne
      rw [Bool.not_eq_false, Bool.and_eq_true] at hne
      have hempty := (h.joined.exclusive hs).alone hne.1
      rw [hpend] at hempty
      cases hempty
    show unanswered ((attached cfg z).next o.x i) .ATOMIC = _
    rw [h.joined.unanswered_next hs hl, hnone, hpend]
    rfl
  · exact .inl rfl

omit hs hl in
theorem Conditional.sent_next (r : MemReq) (hr : ((observed cfg z).next o i).sent = [r])
    (hsc : MemReq.isSc r = true) : ((observed cfg z).next o i).x.axi.hw.amoOff = scOff r := by
  have hr : (if arbAck1 o.x.axi.hw (adapterIn cfg o.x i) then [dcacheHead o.x.axi.hw] else []) =
    [r] := hr
  split_ifs at hr with hack
  rw [List.singleton_inj] at hr
  subst hr
  obtain ⟨ht, hop⟩ := MemReq.isSc_iff.mp hsc
  show amoOffD o.x.axi.hw = _
  rw [amoOffD_eq, h.joined.axi.selects_of_ack hack ht, hop]
  rfl

theorem Conditional.answer_next (hp : Prompt cfg o i) (d : Done)
    (hd : ((observed cfg z).next o i).x.axi.bus.done = some d) (hsc : MemReq.isSc d.req = true) :
    ∃ off, ((observed cfg z).next o i).x.axi.hw.dcacheShift.data 0 = scWord off d.exokay ∧
      (d.exokay = true ∨ off = scOff d.req) := by
  have hd : doneNext o.x.axi (adapterIn cfg o.x i) = some d := hd
  obtain ⟨hpop, hrd, l, hb⟩ := h.joined.axi.of_done_sc hl hd hsc
  obtain ⟨ht, -⟩ := MemReq.isSc_iff.mp hsc
  have hatomic : bAtomic o.x.axi.hw (adapterIn cfg o.x i) = true := by
    rw [bAtomic, h.joined.axi.bOut_eq hl hb, writeId_bit, ht]
    rfl
  have hgen : o.x.axi.hw.amoGenR = false := by
    have hdisc := h.joined.axi.bDiscard_eq (h.joined.exclusive hs) hl hb
    have hback : MemReq.readsBack d.req = false := by
      rw [MemReq.readsBack, (MemReq.isSc_iff.mp hsc).2]
      simp
    rw [bDiscard, hatomic, hback] at hdisc
    exact hdisc
  have hdata : ((observed cfg z).next o i).x.axi.hw.dcacheShift.data 0 =
      scWord o.x.axi.hw.amoOff d.exokay := by
    show (dcacheShiftD o.x.axi.hw (adapterIn cfg o.x i)).data 0 = _
    have hsr : dcacheScRtrn o.x.axi.hw (adapterIn cfg o.x i) = true := by
      rw [dcacheScRtrn, hpop, hatomic, hgen]
      rfl
    rw [dcacheShiftD, hrd, hsr, if_neg Bool.false_ne_true, if_pos rfl,
      h.joined.axi.bOut_eq hl hb]
    rfl
  refine ⟨_, hdata, ?_⟩
  cases hok : d.exokay with
  | true => exact .inl rfl
  | false =>
      right
      by_cases hz : scOff d.req = 0
      · -- an offset that is not forgotten is that of this request
        rcases h.off with hoff | ⟨r, hun, hoff⟩
        · rw [hoff, hz]
        · have hmem : d.req ∈ unanswered o.x .ATOMIC :=
            List.mem_append_right _ (h.joined.axi.mem_pending_of_response
              (p := (d.req, d.exokay)) (by rw [hb]; exact List.mem_cons_self) hsc)
          rw [hun, List.mem_singleton] at hmem
          rw [hoff, hmem]
      · exact h.sent _ (hp hpop (d.req, d.exokay) (by rw [hb]; rfl) hsc hok hz) hsc

theorem Conditional.next (ha : Asks o i) (hp : Prompt cfg o i) :
    Conditional ((observed cfg z).next o i) where
  joined := (h.joined.next hs hl : Joined ((attached cfg z).next o.x i))
  asked := fun _ => h.asked_next hs hl ha
  off := h.off_next hs hl
  sent := h.sent_next
  answer := h.answer_next hs hl hp

end Step

/-! ## The result -/

theorem result_of_scWord : ∀ lane : Lane,
    let off : Lane := Fin.ofNat 8 ((Fin.ofNat 8 (lane.val / 4 * 4)).val / 4 * 4)
    let d : Word := scWord off false
    (BitVec.extractLsb' (if lane.val / 4 % 2 = 1 then 32 else 0) 32
      (d 7 ++ d 6 ++ d 5 ++ d 4 ++ d 3 ++ d 2 ++ d 1 ++ d 0)).signExtend 64 ≠ 0 := by
  decide +kernel

theorem amoResult_eq_zero_iff {j : Missunit.Input} {off : Lane} {ok : Bool}
    (hdata : j.memRtrn.data 0 = scWord off ok) (hsize : j.amo.size = 2)
    (hoff : ok = true ∨ off = scOff (amoMemReq j.amo)) :
    Missunit.amoResult j = 0 ↔ ok = true := by
  rw [Missunit.amoResult, Missunit.amoRtrnMux, hdata, hsize, beq_self_eq_true, if_pos rfl]
  cases ok with
  | true =>
      refine ⟨fun _ => rfl, fun _ => ?_⟩
      have hz : scWord off true = fun _ => 0 := by
        funext k
        simp [scWord]
      rw [hz]
      split <;> rfl
  | false =>
      refine ⟨fun hz => absurd hz ?_, nofun⟩
      have hoff : off = scOff (amoMemReq j.amo) := hoff.resolve_left Bool.false_ne_true
      have hlane : scOff (amoMemReq j.amo) =
          Fin.ofNat 8 ((Fin.ofNat 8 (j.amo.paddr.lane.val / 4 * 4)).val / 4 * 4) := by
        simp only [scOff, amoMemReq, hsize]
        rfl
      rw [hoff, hlane]
      exact result_of_scWord j.amo.paddr.lane

theorem Conditional.faithful (h : Conditional o) (ha : Asks o i) : Faithful cfg o i := by
  intro hack hop hsize
  rw [Missunit.amoRespAck, Bool.and_eq_true, beq_iff_eq] at hack
  obtain ⟨hstate, hamo⟩ := hack
  rw [Missunit.amoAck, Bool.and_eq_true] at hamo
  have hrtrn : rtrns (dcIn cfg o.x i) (ackType .ATOMIC) = true := hamo.1
  obtain ⟨d, hd, ht, -⟩ := h.joined.answered_of_rtrns hrtrn
  have hreq : d.req = amoMemReq i.dc.amo := by
    rw [ha hstate]
    refine h.asked hstate _ ?_
    rw [unanswered, answered_of_done hd ht]
    exact List.mem_cons_self
  have hsc : MemReq.isSc d.req = true := by
    rw [hreq, MemReq.isSc, amoMemReq, hop]
    rfl
  obtain ⟨off, hdata, hoff⟩ := h.answer d hd hsc
  refine ⟨d, hd, hreq, amoResult_eq_zero_iff hdata hsize ?_⟩
  rw [hreq] at hoff
  exact hoff

/-- What a run has to meet: the bus keeps its protocol, an atomic is asked for until it is
acknowledged, and the adapter still knows what it is waiting for. -/
def Remembered (cfg : Cfg) (o : Observed) (i : CacheInput) : Prop :=
  OnBus cfg o.x i ∧ Asks o i ∧ NoStale cfg o.x i ∧ Prompt cfg o i

/-- In every run in which the write responses of the atomics before it have come when a
store-conditional is presented to the bus, and the refusal of one of an upper word comes in the
cycle after its acceptance by the bus, the result of a store-conditional tells its success. -/
theorem sc_faithful (cfg : Cfg) (z : Start) (ins : List CacheInput)
    (h : (observed cfg z).Throughout (Remembered cfg) ins) :
    (observed cfg z).Throughout (Faithful cfg) ins := by
  intro pre i post hp
  subst hp
  have hinv : Conditional ((observed cfg z).run pre) := by
    refine Machine.invariant (E := Remembered cfg) conditional_init ?_ pre h.take
    rintro o i ho ⟨hl, ha, hs, hprompt⟩
    exact ho.next hs hl ha hprompt
  exact hinv.faithful (h pre i post rfl).2.1

/-! ## A refusal that comes in time, and one that does not -/

instance (x : Attached) (i : CacheInput) : Decidable (OnBus cfg x i) :=
  inferInstanceAs (Decidable (Legal _ _))

instance (x : Attached) (i : CacheInput) : Decidable (NoStale cfg x i) :=
  inferInstanceAs (Decidable (_ → _ → _))

instance : Decidable (Asks o i) := inferInstanceAs (Decidable (_ → _))

instance : Decidable (Prompt cfg o i) :=
  inferInstanceAs (Decidable (_ → ∀ r ∈ (_ : Option _), _ → _ → _ → _))

instance : Decidable (Remembered cfg o i) := inferInstanceAs (Decidable (_ ∧ _ ∧ _ ∧ _))

def plain : Cfg := ⟨fun _ => true, fun _ => false⟩

def CacheInput.quiet : CacheInput := ⟨.silent, false, default, Resp.ready⟩

/-- `sc.w` to address 4 is asked for. -/
def CacheInput.scAt4 : CacheInput :=
  { CacheInput.quiet with dc.amo := ⟨true, .SC, 2, ⟨default, 4⟩, fun _ => 0⟩ }

/-- The bus answers it with a response other than `EXOKAY`. -/
def CacheInput.refused : CacheInput :=
  { CacheInput.scAt4 with axi := Resp.ready.response 3 false }

/-- After the flush that follows the reset the store-conditional is taken, sent and accepted by
the bus, which refuses it `n` cycles later. -/
def refusedAfter (n : Nat) : List CacheInput :=
  List.replicate 256 .quiet ++ List.replicate (2 + n) .scAt4 ++ [.refused]

def answerIn (o : Observed) : Bool × BitVec 64 × Option Bool :=
  (Missunit.amoRespAck o.x.dc.hw.miss (missIn plain o.x.dc.hw (dcIn plain o.x .scAt4)),
    Missunit.amoResult (missIn plain o.x.dc.hw (dcIn plain o.x .scAt4)),
    o.x.axi.bus.done.map (·.exokay))

def atRest (d : Dcache.State) : Observed := ⟨⟨d, adapter.init, 0, 0⟩, default, []⟩

section Flushing

variable {d : Dcache.State} {c x : Idx} {v : Bool} {l : Option TxId} {mem : Mem.Regs}
  (hw : d.hw = flushingHw c v x l mem)
include hw

theorem quiet_rest : Quiet (dcIn cfg (atRest d).x .quiet) where
  loads _ := rfl
  store := rfl
  enable := rfl
  amo := rfl
  rtrn := rfl
  ack := by
    show (Missunit.memDataReq d.hw.miss _ && _) = false
    rw [memDataReq_flushing hw, Bool.false_and]
  rdSel := rfl
  txId := by
    have hfree : d.hw.wbuf.txStat = Wbuffer.reset.txStat := by
      rw [hw]
      rfl
    show (choice (atRest d).x .quiet).txId = 0
    simp only [choice, atRest, hfree]
    decide
  checkPtr := rfl

theorem observed_next_rest : (observed cfg z).next (atRest d) .quiet =
    atRest (d.next cfg (dcIn cfg (atRest d).x .quiet)) := by
  have hsend : sends cfg (atRest d).x .quiet = false := by
    have hreq : Wbuffer.missReq d.hw.wbuf = false := missReq_flushing hw
    show Wbuffer.dirtyRdEn d.hw.wbuf _ = false
    rw [Wbuffer.dirtyRdEn, hreq, Bool.false_and]
  have haxi : adapter.next adapter.init (adapterIn cfg (atRest d).x .quiet) = adapter.init := by
    rw [adapterIn]
    show adapter.next adapter.init
      ⟨false, default, Missunit.memDataReq d.hw.miss _, _, Resp.ready⟩ = _
    rw [memDataReq_flushing hw]
    rfl
  show Observed.mk ⟨_, adapter.next adapter.init _, RoundRobin.advance 0 (sends _ _ _),
    RoundRobin.advance 0 (sends _ _ _)⟩ _ (granted adapter.init _) = _
  rw [haxi, hsend]
  rfl

end Flushing

theorem observed_rest {n : Nat} (hn : n < 256) :
    (observed cfg z).run (List.replicate (n + 1) .quiet) = atRest (flushing z n) := by
  induction n with
  | zero =>
      have hw : (start z).hw = flushingHw 0 false 0 none (Mem.reset z.tags z.data) := rfl
      show (observed cfg z).next (atRest (start z)) .quiet = _
      rw [observed_next_rest hw, start_next (quiet_rest hw)]
  | succ n ih =>
      have hw : (flushing z n).hw = _ := hw_flushing (by omega)
      rw [List.replicate_succ', Machine.run_snoc, ih (by omega), observed_next_rest hw,
        flushing_next (quiet_rest hw) (by omega)]

set_option maxRecDepth 20000 in
/-- The two runs share the flush. -/
theorem refused_runs :
    (observed plain cleared).Throughout (Remembered plain) (refusedAfter 1 ++ [.scAt4]) ∧
      answerIn ((observed plain cleared).run (refusedAfter 1)) = (true, 1, some false) ∧
      (observed plain cleared).Throughout
        (fun o i => OnBus plain o.x i ∧ Asks o i ∧ NoStale plain o.x i) (refusedAfter 2 ++ [.scAt4]) ∧
      answerIn ((observed plain cleared).run (refusedAfter 2)) = (true, 0, some false) := by
  simp only [refusedAfter, List.append_assoc]
  rw [Machine.throughout_append, Machine.throughout_append, Machine.run_append, Machine.run_append,
    observed_rest (n := 255) (by decide)]
  exact ⟨⟨by decide +kernel, by decide +kernel⟩, by decide +kernel,
    ⟨by decide +kernel, by decide +kernel⟩, by decide +kernel⟩

theorem sc_faithful_refused :
    (observed plain cleared).Throughout (Remembered plain) (refusedAfter 1 ++ [.scAt4]) ∧
      (observed plain cleared).Throughout (Faithful plain) (refusedAfter 1 ++ [.scAt4]) ∧
      answerIn ((observed plain cleared).run (refusedAfter 1)) = (true, 1, some false) :=
  ⟨refused_runs.1, sc_faithful plain cleared _ refused_runs.1, refused_runs.2.1⟩

/-- The write response of an `amoadd.w` comes while `sc.w` is presented to a bus that is not
ready. It is discarded, and the refusal of `sc.w` is its answer. -/
def responseWhilePresented : List CacheInput :=
  let add : CacheInput := { CacheInput.quiet with dc.amo := ⟨true, .ADD, 2, default, fun _ => 0⟩ }
  let late : Resp := { Resp.ready.response 3 false with awReady := false, wReady := false }
  List.replicate 256 .quiet ++
    [add, add, add, { add with axi := Resp.ready.beat 3 0xc0 true }, add, .scAt4, .scAt4,
      { CacheInput.scAt4 with axi := late }, .scAt4, .refused]

set_option maxRecDepth 20000 in
example :
    (observed plain cleared).Throughout (Remembered plain) (responseWhilePresented ++ [.scAt4]) ∧
      answerIn ((observed plain cleared).run responseWhilePresented) = (true, 1, some false) := by
  rw [responseWhilePresented, List.append_assoc, Machine.throughout_append, Machine.run_append,
    observed_rest (n := 255) (by decide)]
  exact ⟨⟨by decide +kernel, by decide +kernel⟩, by decide +kernel⟩

/-- A refusal that comes one cycle later is reported as a success. -/
theorem refusal_forgotten :
    (observed plain cleared).Throughout
        (fun o i => OnBus plain o.x i ∧ Asks o i ∧ NoStale plain o.x i) (refusedAfter 2 ++ [.scAt4]) ∧
      ¬(observed plain cleared).Throughout (Faithful plain) (refusedAfter 2 ++ [.scAt4]) := by
  obtain ⟨-, -, hrun, hanswer⟩ := refused_runs
  refine ⟨hrun, fun h => ?_⟩
  simp only [answerIn, Prod.mk.injEq] at hanswer
  obtain ⟨hack, hresult, hrefused⟩ := hanswer
  obtain ⟨d, hd, -, hiff⟩ := h (refusedAfter 2) .scAt4 [] rfl hack rfl rfl
  rw [hd, Option.map_some, hiff.mp hresult] at hrefused
  cases hrefused

end Cva6.Axi
