import Cva6.Sync.Handshake
import Cva6.Sync.Machine
import Mathlib.Data.Fin.VecNotation
import Mathlib.Data.Fintype.Basic
import Mathlib.Tactic.FinCases
/-!
# The two-phase clock domain crossing

`cdc_2phase.sv`, through which the requests and the responses of the debug module pass between
the clock of the test port and that of the core. The clocks are unrelated: an event is a rising
edge of one of them or of both at once, in any order. The first register of a synchronizer that
samples a level while it changes shows the old level or the new one.
-/

namespace Cva6.Cdc

open Cva6.Sync

variable {τ : Type*}

/-- `cdc_2phase_src`. -/
structure Src (τ : Type*) where
  reqSrcQ : Bool
  ackSrcQ : Bool
  ackQ : Bool
  dataSrcQ : τ

/-- `cdc_2phase_dst`. -/
structure Dst (τ : Type*) where
  reqDstQ : Bool
  reqQ0 : Bool
  reqQ1 : Bool
  ackDstQ : Bool
  dataDstQ : τ

structure Regs (τ : Type*) where
  src : Src τ
  dst : Dst τ

/-- Rising edges of the clocks, and what the ports show at them. -/
structure Edge (τ : Type*) where
  srcClk : Bool
  dstClk : Bool
  srcData : τ
  srcValid : Bool
  dstReady : Bool
  /-- The first register of the synchronizer takes the level that is asked of it. -/
  ackSettles : Bool
  reqSettles : Bool

def reset (d : τ) : Regs τ := ⟨⟨false, false, false, d⟩, ⟨false, false, false, false, d⟩⟩

/-! ## The source half -/

def Src.ready (q : Src τ) : Bool := q.reqSrcQ == q.ackQ

def Src.next (q : Src τ) (asyncAck : Bool) (e : Edge τ) : Src τ :=
  if e.srcClk then
    { reqSrcQ := if e.srcValid && q.ready then !q.reqSrcQ else q.reqSrcQ
      ackSrcQ := if e.ackSettles then asyncAck else q.ackSrcQ
      ackQ := q.ackSrcQ
      dataSrcQ := if e.srcValid && q.ready then e.srcData else q.dataSrcQ }
  else q

/-! ## The destination half -/

def Dst.valid (q : Dst τ) : Bool := q.ackDstQ != q.reqQ1

def Dst.next (q : Dst τ) (asyncReq : Bool) (asyncData : τ) (e : Edge τ) : Dst τ :=
  if e.dstClk then
    { reqDstQ := if e.reqSettles then asyncReq else q.reqDstQ
      reqQ0 := q.reqDstQ
      reqQ1 := q.reqQ0
      ackDstQ := if q.valid && e.dstReady then !q.ackDstQ else q.ackDstQ
      dataDstQ := if q.reqQ0 != q.reqQ1 && !q.valid then asyncData else q.dataDstQ }
  else q

/-! ## The crossing -/

section Crossing

variable (s : Regs τ) (e : Edge τ)

def Regs.next : Regs τ where
  src := s.src.next s.dst.ackDstQ e
  dst := s.dst.next s.src.reqSrcQ s.src.dataSrcQ e

def accepts : Bool := e.srcClk && (e.srcValid && s.src.ready)

def delivers : Bool := e.dstClk && (s.dst.valid && e.dstReady)

def sent : List τ := if accepts s e then [e.srcData] else []

def received : List τ := if delivers s e then [s.dst.dataDstQ] else []

def outstanding : List τ := if s.src.reqSrcQ != s.dst.ackDstQ then [s.src.dataSrcQ] else []

end Crossing

def cdc2phase (d : τ) : Machine (Regs τ) (Edge τ) := ⟨reset d, Regs.next⟩

/-! ## The levels -/

/-- The registers that the request passes through and comes back on. -/
def levels (s : Regs τ) : Fin 7 → Bool :=
  ![s.src.reqSrcQ, s.dst.reqDstQ, s.dst.reqQ0, s.dst.reqQ1, s.dst.ackDstQ, s.src.ackSrcQ,
    s.src.ackQ]

variable {s : Regs τ} {e : Edge τ} {d : τ}

theorem reqSrcQ_next : (s.next e).src.reqSrcQ =
    if accepts s e then !s.src.reqSrcQ else s.src.reqSrcQ := by
  show (s.src.next _ e).reqSrcQ = _
  unfold Src.next accepts
  cases e.srcClk <;> rfl

theorem dataSrcQ_next : (s.next e).src.dataSrcQ =
    if accepts s e then e.srcData else s.src.dataSrcQ := by
  show (s.src.next _ e).dataSrcQ = _
  unfold Src.next accepts
  cases e.srcClk <;> rfl

theorem ackDstQ_next : (s.next e).dst.ackDstQ =
    if delivers s e then !s.dst.ackDstQ else s.dst.ackDstQ := by
  show (s.dst.next _ _ e).ackDstQ = _
  unfold Dst.next delivers
  cases e.dstClk <;> rfl

theorem ready_of_accepts (h : accepts s e = true) : s.src.ackQ = s.src.reqSrcQ := by
  rw [accepts, Bool.and_eq_true, Bool.and_eq_true, Src.ready, beq_iff_eq] at h
  exact h.2.2.symm

theorem valid_of_delivers (h : delivers s e = true) : s.dst.reqQ1 ≠ s.dst.ackDstQ := by
  rw [delivers, Bool.and_eq_true, Bool.and_eq_true, Dst.valid, bne_iff_ne] at h
  exact h.2.1.symm

theorem levels_shift : Shifts (levels s) (levels (s.next e)) := by
  intro k
  fin_cases k
  · show (s.dst.next _ _ e).reqDstQ = s.dst.reqDstQ ∨ (s.dst.next _ _ e).reqDstQ = s.src.reqSrcQ
    unfold Dst.next
    split_ifs <;> simp
  · show (s.dst.next _ _ e).reqQ0 = s.dst.reqQ0 ∨ (s.dst.next _ _ e).reqQ0 = s.dst.reqDstQ
    unfold Dst.next
    split_ifs <;> simp
  · show (s.dst.next _ _ e).reqQ1 = s.dst.reqQ1 ∨ (s.dst.next _ _ e).reqQ1 = s.dst.reqQ0
    unfold Dst.next
    split_ifs <;> simp
  · show (s.next e).dst.ackDstQ = s.dst.ackDstQ ∨ (s.next e).dst.ackDstQ = s.dst.reqQ1
    rw [ackDstQ_next]
    cases hdel : delivers s e with
    | false => exact .inl rfl
    | true => exact .inr (Bool.eq_not_of_ne (valid_of_delivers hdel)).symm
  · show (s.src.next _ e).ackSrcQ = s.src.ackSrcQ ∨ (s.src.next _ e).ackSrcQ = s.dst.ackDstQ
    unfold Src.next
    split_ifs <;> simp
  · show (s.src.next _ e).ackQ = s.src.ackQ ∨ (s.src.next _ e).ackQ = s.src.ackSrcQ
    unfold Src.next
    split_ifs <;> simp

theorem levels_toggle : Toggles (levels s) (levels (s.next e)) := by
  show (s.next e).src.reqSrcQ = s.src.reqSrcQ ∨ (s.next e).src.reqSrcQ = !s.src.reqSrcQ ∧ _
  rw [reqSrcQ_next]
  cases hacc : accepts s e with
  | false => exact .inl rfl
  | true => exact .inr ⟨rfl, ready_of_accepts hacc⟩

/-! ## The invariant -/

structure Ok (s : Regs τ) : Prop where
  front : OneFront (levels s)
  /-- What is offered is what was sent. -/
  data : s.dst.reqQ1 ≠ s.dst.ackDstQ → s.dst.dataDstQ = s.src.dataSrcQ

theorem ok_reset : Ok (reset d) where
  front := by
    have hlevels : levels (reset d) = fun _ => false := by
      funext k
      fin_cases k <;> rfl
    rw [hlevels]
    exact oneFront_const false
  data h := absurd rfl h

section Step

variable (h : Ok s)
include h

theorem Ok.idle (hr : s.src.ackQ = s.src.reqSrcQ) (k : Fin 7) :
    levels s k = s.src.reqSrcQ :=
  h.front.eq_of_last hr k

theorem Ok.offered (hv : s.dst.reqQ1 ≠ s.dst.ackDstQ) :
    s.dst.reqQ0 = s.src.reqSrcQ ∧ s.dst.reqQ1 = s.src.reqSrcQ ∧
      s.dst.ackDstQ ≠ s.src.reqSrcQ := by
  obtain ⟨hreq, hack⟩ := h.front.of_ne (j := 3) (k := 4) (by decide) hv
  exact ⟨h.front.eq_of_le (j := 2) (k := 3) (by decide) hreq, hreq, hack⟩

theorem Ok.not_accepts (ho : s.src.reqSrcQ ≠ s.dst.ackDstQ) : accepts s e = false := by
  by_contra hacc
  exact ho (h.idle (ready_of_accepts (Bool.not_eq_false _ ▸ hacc)) 4).symm

theorem Ok.data_next (hv : (s.next e).dst.reqQ1 ≠ (s.next e).dst.ackDstQ) :
    (s.next e).dst.dataDstQ = (s.next e).src.dataSrcQ := by
  have hdst : (s.next e).dst = s.dst.next s.src.reqSrcQ s.src.dataSrcQ e := rfl
  rw [dataSrcQ_next]
  cases hclk : e.dstClk with
  | false =>
      have hsame : (s.next e).dst = s.dst := by
        rw [hdst, Dst.next, hclk]
        rfl
      rw [hsame] at hv ⊢
      have ho : s.src.reqSrcQ ≠ s.dst.ackDstQ := (h.offered hv).2.2.symm
      rw [h.not_accepts ho]
      exact h.data hv
  | true =>
      have hreq : (s.next e).dst.reqQ1 = s.dst.reqQ0 := by
        rw [hdst, Dst.next, hclk]
        rfl
      have hdata : (s.next e).dst.dataDstQ =
          if s.dst.reqQ0 != s.dst.reqQ1 && !s.dst.valid then s.src.dataSrcQ
          else s.dst.dataDstQ := by
        rw [hdst, Dst.next, hclk]
        rfl
      rw [hreq, ackDstQ_next] at hv
      cases hdel : delivers s e with
      | true =>
          -- the request is answered, so that nothing is offered
          obtain ⟨hq0, -, hack⟩ := h.offered (valid_of_delivers hdel)
          rw [hdel, if_pos rfl, hq0] at hv
          exact absurd (Bool.eq_not_of_ne hack.symm) hv
      | false =>
          rw [hdel, if_neg Bool.false_ne_true] at hv
          have ho : s.src.reqSrcQ ≠ s.dst.ackDstQ :=
            (h.front.of_ne (j := 2) (k := 4) (by decide) hv).2.symm
          rw [hdata, h.not_accepts ho, if_neg Bool.false_ne_true]
          by_cases hold : s.dst.reqQ1 = s.dst.ackDstQ
          · rw [Dst.valid, hold, bne_self_eq_false, bne_iff_ne.mpr hv]
            rfl
          · obtain ⟨hq0, hq1, -⟩ := h.offered hold
            rw [hq0, hq1, bne_self_eq_false]
            exact h.data hold

theorem Ok.next : Ok (s.next e) where
  front := h.front.next levels_shift levels_toggle
  data := h.data_next

/-- What is under way and what is sent is what is received or goes on being under way. -/
theorem Ok.outstanding_next :
    outstanding s ++ sent s e = received s e ++ outstanding (s.next e) := by
  unfold outstanding sent received
  rw [reqSrcQ_next, dataSrcQ_next, ackDstQ_next]
  cases hacc : accepts s e with
  | true =>
      have hidle := h.idle (ready_of_accepts hacc)
      have hack : s.dst.ackDstQ = s.src.reqSrcQ := hidle 4
      have hreq : s.dst.reqQ1 = s.src.reqSrcQ := hidle 3
      have hdel : delivers s e = false := by
        by_contra hdel
        exact valid_of_delivers (Bool.not_eq_false _ ▸ hdel) (hreq.trans hack.symm)
      simp [hdel, hack]
  | false =>
      cases hdel : delivers s e with
      | true =>
          have hv := valid_of_delivers hdel
          obtain ⟨-, -, hack⟩ := h.offered hv
          have hnext : s.src.reqSrcQ = !s.dst.ackDstQ := Bool.eq_not_of_ne hack.symm
          simp [hnext, h.data hv]
      | false => simp

end Step

/-! ## Progress -/

/-- An edge of the destination clock at which its synchronizer settles and an item is taken. -/
def Edge.helps (e : Edge τ) : Bool := e.dstClk && e.reqSettles && e.dstReady

theorem levels_of_helps (he : e.helps = true) (k : Fin 6) (hk : k.val < 4) :
    levels (s.next e) k.succ = levels s k.castSucc := by
  rw [Edge.helps, Bool.and_eq_true, Bool.and_eq_true] at he
  obtain ⟨⟨hclk, hset⟩, hready⟩ := he
  have hdst : (s.next e).dst = s.dst.next s.src.reqSrcQ s.src.dataSrcQ e := rfl
  rw [Dst.next, hclk, if_pos rfl] at hdst
  fin_cases k
  · show (s.next e).dst.reqDstQ = s.src.reqSrcQ
    rw [hdst, hset]
    rfl
  · show (s.next e).dst.reqQ0 = s.dst.reqDstQ
    rw [hdst]
  · show (s.next e).dst.reqQ1 = s.dst.reqQ0
    rw [hdst]
  · show (s.next e).dst.ackDstQ = s.dst.reqQ1
    rw [ackDstQ_next, delivers, hclk, hready, Dst.valid, Bool.and_true, Bool.true_and]
    cases s.dst.ackDstQ <;> cases s.dst.reqQ1 <;> rfl
  all_goals exact absurd hk (by decide)

/-! ## Every run -/

theorem ok_run (d : τ) (ins : List (Edge τ)) : Ok ((cdc2phase d).run ins) :=
  Machine.invariant (E := fun _ _ => True) (I := Ok) ok_reset (fun _ _ h _ => h.next) ins
    fun _ _ _ _ => trivial

/-- What has been sent has been received, but for the item under way. -/
theorem sent_eq (d : τ) (ins : List (Edge τ)) : (cdc2phase d).log sent ins =
    (cdc2phase d).log received ins ++ outstanding ((cdc2phase d).run ins) := by
  induction ins using List.reverseRecOn with
  | nil => rfl
  | append_singleton ins e ih =>
      rw [Machine.log_snoc, Machine.log_snoc, Machine.run_snoc, ih, List.append_assoc,
        (ok_run d ins).outstanding_next, List.append_assoc]
      rfl

theorem Ok.shown_next {t : Nat} (h : Ok s) (ho : s.src.reqSrcQ ≠ s.dst.ackDstQ)
    (hs : Shown (levels s) t) :
    Shown (levels (s.next e)) (if e.helps && decide (t < 4) then t + 1 else t) := by
  have hkeep : levels (s.next e) 0 = levels s 0 := by
    show (s.next e).src.reqSrcQ = s.src.reqSrcQ
    rw [reqSrcQ_next, h.not_accepts ho, if_neg Bool.false_ne_true]
  split_ifs with hhelps
  · rw [Bool.and_eq_true, decide_eq_true_iff] at hhelps
    refine hs.advance levels_shift hkeep fun k hk => levels_of_helps hhelps.1 k ?_
    omega
  · exact hs.next levels_shift hkeep

theorem sent_prefix (d : τ) (ins : List (Edge τ))
    (ho : ((cdc2phase d).run ins).src.reqSrcQ = ((cdc2phase d).run ins).dst.ackDstQ) :
    (cdc2phase d).log sent ins <+: (cdc2phase d).log received ins := by
  rw [sent_eq, outstanding, ho, bne_self_eq_false, if_neg Bool.false_ne_true, List.append_nil]

theorem received_or_shown (d : τ) (ins post : List (Edge τ)) :
    (cdc2phase d).log sent ins <+: (cdc2phase d).log received (ins ++ post) ∨
      (cdc2phase d).log sent (ins ++ post) = (cdc2phase d).log sent ins ∧
        Shown (levels ((cdc2phase d).run (ins ++ post))) (min 4 (post.countP Edge.helps)) := by
  induction post using List.reverseRecOn with
  | nil =>
      refine .inr ⟨by rw [List.append_nil], ?_⟩
      exact shown_zero
  | append_singleton post e ih =>
      rw [← List.append_assoc]
      have hlater (hp : (cdc2phase d).log sent ins <+: (cdc2phase d).log received (ins ++ post)) :
          (cdc2phase d).log sent ins <+: (cdc2phase d).log received (ins ++ post ++ [e]) := by
        rw [Machine.log_snoc]
        exact hp.trans (List.prefix_append _ _)
      rcases ih with hp | ⟨hsent, hshown⟩
      · exact .inl (hlater hp)
      · by_cases ho : ((cdc2phase d).run (ins ++ post)).src.reqSrcQ =
          ((cdc2phase d).run (ins ++ post)).dst.ackDstQ
        · exact .inl (hlater (hsent ▸ sent_prefix d (ins ++ post) ho))
        · have hok := ok_run d (ins ++ post)
          refine .inr ⟨?_, ?_⟩
          · rw [Machine.log_snoc, sent, hok.not_accepts ho, if_neg Bool.false_ne_true,
              List.append_nil, hsent]
          · rw [Machine.run_snoc, List.countP_append, List.countP_singleton]
            have hnext := hok.shown_next (e := e) ho hshown
            have hcount : min 4 (post.countP Edge.helps + if e.helps = true then 1 else 0) =
                if e.helps && decide (min 4 (post.countP Edge.helps) < 4) then
                  min 4 (post.countP Edge.helps) + 1
                else min 4 (post.countP Edge.helps) := by
              cases e.helps with
              | false => simp
              | true =>
                  simp only [Bool.true_and, decide_eq_true_iff, if_true]
                  split_ifs <;> omega
            rw [hcount]
            exact hnext

/-- Four edges that help suffice for everything that has been accepted. -/
theorem received_within (d : τ) (ins post : List (Edge τ)) (hcount : 4 ≤ post.countP Edge.helps) :
    (cdc2phase d).log sent ins <+: (cdc2phase d).log received (ins ++ post) := by
  rcases received_or_shown d ins post with hp | ⟨hsent, hshown⟩
  · exact hp
  · rw [Nat.min_eq_left hcount] at hshown
    rw [← hsent]
    exact sent_prefix d (ins ++ post) (hshown 4 (by decide)).symm

theorem offered_eq (d : τ) (ins : List (Edge τ)) (hv : ((cdc2phase d).run ins).dst.valid = true) :
    outstanding ((cdc2phase d).run ins) = [((cdc2phase d).run ins).dst.dataDstQ] := by
  have hok := ok_run d ins
  have hv : ((cdc2phase d).run ins).dst.reqQ1 ≠ ((cdc2phase d).run ins).dst.ackDstQ :=
    (bne_iff_ne.mp hv).symm
  rw [outstanding, if_pos (bne_iff_ne.mpr (hok.offered hv).2.2.symm), hok.data hv]

/-! ## The interface of the debug module -/

structure DmiReq where
  addr : BitVec 7
  op : BitVec 2
  data : BitVec 32
  deriving DecidableEq, Inhabited

structure DmiResp where
  data : BitVec 32
  resp : BitVec 2
  deriving DecidableEq, Inhabited

/-- `dmi_cdc`: the requests go to the core, and the responses come back. -/
structure DmiCdc where
  req : Regs DmiReq
  resp : Regs DmiResp

structure DmiEdge where
  tck : Bool
  clk : Bool
  jtagDmiReq : DmiReq
  jtagDmiReqValid : Bool
  jtagDmiRespReady : Bool
  coreDmiResp : DmiResp
  coreDmiRespValid : Bool
  coreDmiReqReady : Bool
  /-- The synchronizers at `tck` and at `clk` that settle, of the requests and of the responses. -/
  reqTckSettles : Bool
  reqClkSettles : Bool
  respTckSettles : Bool
  respClkSettles : Bool

namespace DmiEdge

variable (e : DmiEdge)

def cdcReq : Edge DmiReq :=
  ⟨e.tck, e.clk, e.jtagDmiReq, e.jtagDmiReqValid, e.coreDmiReqReady, e.reqTckSettles,
    e.reqClkSettles⟩

def cdcResp : Edge DmiResp :=
  ⟨e.clk, e.tck, e.coreDmiResp, e.coreDmiRespValid, e.jtagDmiRespReady, e.respClkSettles,
    e.respTckSettles⟩

end DmiEdge

def dmiCdc : Machine DmiCdc DmiEdge where
  init := ⟨reset default, reset default⟩
  next s e := ⟨s.req.next e.cdcReq, s.resp.next e.cdcResp⟩

section Dmi

variable (s : DmiCdc) (e : DmiEdge)

def requestsSent : List DmiReq := sent s.req e.cdcReq

def requestsReceived : List DmiReq := received s.req e.cdcReq

def responsesSent : List DmiResp := sent s.resp e.cdcResp

def responsesReceived : List DmiResp := received s.resp e.cdcResp

end Dmi

theorem log_requests (out : Regs DmiReq → Edge DmiReq → List DmiReq) (ins : List DmiEdge) :
    dmiCdc.log (fun s e => out s.req e.cdcReq) ins =
      (cdc2phase default).log out (ins.map DmiEdge.cdcReq) :=
  Machine.log_part DmiCdc.req DmiEdge.cdcReq rfl (fun _ _ => rfl) out ins

theorem log_responses (out : Regs DmiResp → Edge DmiResp → List DmiResp) (ins : List DmiEdge) :
    dmiCdc.log (fun s e => out s.resp e.cdcResp) ins =
      (cdc2phase default).log out (ins.map DmiEdge.cdcResp) :=
  Machine.log_part DmiCdc.resp DmiEdge.cdcResp rfl (fun _ _ => rfl) out ins

/-- For every order of the edges of the two clocks the core gets the requests of the test port,
and the test port the responses of the core, once and in order, with at most one of each under
way, which is what is offered if anything is. Four edges that help bring everything accepted
before to the other side. -/
theorem dmi_transferred_once (ins : List DmiEdge) :
    (dmiCdc.log requestsSent ins =
        dmiCdc.log requestsReceived ins ++ outstanding (dmiCdc.run ins).req ∧
      dmiCdc.log responsesSent ins =
        dmiCdc.log responsesReceived ins ++ outstanding (dmiCdc.run ins).resp) ∧
    (((dmiCdc.run ins).req.dst.valid = true →
        outstanding (dmiCdc.run ins).req = [(dmiCdc.run ins).req.dst.dataDstQ]) ∧
      ((dmiCdc.run ins).resp.dst.valid = true →
        outstanding (dmiCdc.run ins).resp = [(dmiCdc.run ins).resp.dst.dataDstQ])) ∧
    ∀ post : List DmiEdge,
      (4 ≤ post.countP (fun e => e.cdcReq.helps) →
        dmiCdc.log requestsSent ins <+: dmiCdc.log requestsReceived (ins ++ post)) ∧
      (4 ≤ post.countP (fun e => e.cdcResp.helps) →
        dmiCdc.log responsesSent ins <+: dmiCdc.log responsesReceived (ins ++ post)) := by
  have hreq : (dmiCdc.run ins).req = (cdc2phase default).run (ins.map DmiEdge.cdcReq) :=
    Machine.run_part DmiCdc.req DmiEdge.cdcReq rfl (fun _ _ => rfl) ins
  have hresp : (dmiCdc.run ins).resp = (cdc2phase default).run (ins.map DmiEdge.cdcResp) :=
    Machine.run_part DmiCdc.resp DmiEdge.cdcResp rfl (fun _ _ => rfl) ins
  have hreqSent (l : List DmiEdge) : dmiCdc.log requestsSent l =
      (cdc2phase default).log sent (l.map DmiEdge.cdcReq) := log_requests sent l
  have hreqReceived (l : List DmiEdge) : dmiCdc.log requestsReceived l =
      (cdc2phase default).log received (l.map DmiEdge.cdcReq) := log_requests received l
  have hrespSent (l : List DmiEdge) : dmiCdc.log responsesSent l =
      (cdc2phase default).log sent (l.map DmiEdge.cdcResp) := log_responses sent l
  have hrespReceived (l : List DmiEdge) : dmiCdc.log responsesReceived l =
      (cdc2phase default).log received (l.map DmiEdge.cdcResp) := log_responses received l
  refine ⟨⟨?_, ?_⟩, ⟨?_, ?_⟩, fun post => ⟨fun hcount => ?_, fun hcount => ?_⟩⟩
  · rw [hreqSent, hreqReceived, hreq]
    exact sent_eq _ _
  · rw [hrespSent, hrespReceived, hresp]
    exact sent_eq _ _
  · rw [hreq]
    exact offered_eq _ _
  · rw [hresp]
    exact offered_eq _ _
  · rw [hreqSent, hreqReceived, List.map_append]
    refine received_within _ _ _ ?_
    rw [List.countP_map]
    exact hcount
  · rw [hrespSent, hrespReceived, List.map_append]
    refine received_within _ _ _ ?_
    rw [List.countP_map]
    exact hcount

/-- A request is accepted from the test port, and is with the core after four edges of its
clock, one of them together with an edge of the other clock. -/
def oneRequest : List DmiEdge :=
  let quiet : DmiEdge := ⟨false, true, default, false, true, default, false, true, true, true, true,
    true⟩
  [{ quiet with tck := true, clk := false, jtagDmiReq := ⟨0x10, 2, 1⟩, jtagDmiReqValid := true },
    quiet, { quiet with tck := true }, quiet, quiet]

theorem dmi_transferred_once_oneRequest :
    dmiCdc.log requestsSent (oneRequest.take 1) = [⟨0x10, 2, 1⟩] ∧
      dmiCdc.log requestsSent (oneRequest.take 1) <+: dmiCdc.log requestsReceived oneRequest := by
  refine ⟨by decide, ?_⟩
  exact ((dmi_transferred_once (oneRequest.take 1)).2.2 (oneRequest.drop 1)).1 (by decide)

end Cva6.Cdc
