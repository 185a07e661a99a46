import Cva6.Lsu.LoadPath
/-!
# Loads are written back exactly once

Every answer of the data cache is written back one cycle later under the identifier of its
load. A load that is not flushed is answered once, and a flushed one is not answered any
more. That a load is answered at all depends on the environment; the cycles that bring it
closer are counted against those that set it back.
-/

namespace Cva6.Lsu

open Cva6.Sync Cva6.Dcache

variable {ni : NonIdempotent} {s : PathState} {i : PathInput}

/-! ## The write-back port -/

def pending (s : PathState) : List (TransId × XLen) :=
  if s.lsu.hw.loadPipe.valid then [(s.lsu.hw.loadPipe.transId, s.lsu.hw.loadPipe.result)] else []

def loadValids (s : PathState) (_ : PathInput) : List (TransId × XLen) := pending s

/-- What an answer writes back: the identifier of its load, and the bytes of the load out of
the doubleword that was returned. -/
def Answer.writeBack (a : Answer) : TransId × XLen :=
  let d := LoadUnit.inData a.item.2
  (d.transId, LoadUnit.resultOf d (LoadUnit.signIdx d) (LoadUnit.isSigned d.operator)
    (LoadUnit.isFpSign d.operator) a.data)

theorem PathOk.pending_next (h : PathOk s) :
    pending ((loadPath ni).next s i) = (answeredNow ni s i).map Answer.writeBack := by
  show (if ldValidO ni s i then [_] else []) = _
  unfold answeredNow
  cases hv : ldValidO ni s i with
  | false => rfl
  | true =>
      obtain ⟨e, he⟩ := Option.isSome_iff_exists.mp ((h.answer ni i).1 hv)
      have hdata := h.load_data e he
      obtain ⟨hidx, hsigned, hfp⟩ := h.signOk
      have hex : LoadUnit.retiresException (loadIn ni s.lsu.hw (lsuIn ni s i)) = false := by
        simp [LoadUnit.retiresException, loadIn, mmuException]
      rw [he, if_pos rfl, if_pos rfl]
      show [(if LoadUnit.retiresException (loadIn ni s.lsu.hw (lsuIn ni s i)) then _
        else s.lsu.hw.load.loadData.transId, LoadUnit.resultOf _ _ _ _ _)] = [Answer.writeBack _]
      rw [hex, hidx, hsigned, hfp, hdata]
      rfl

variable (ni) in
theorem log_loadValids (ins : List PathInput) :
    (loadPath ni).log loadValids ins ++ pending ((loadPath ni).run ins) =
      ((loadPath ni).run ins).answered.map Answer.writeBack := by
  induction ins using List.reverseRecOn with
  | nil => rfl
  | append_singleton ins i ih =>
      rw [Machine.log_snoc, Machine.run_snoc, (pathOk_run ins).pending_next]
      show ((loadPath ni).log loadValids ins ++ pending ((loadPath ni).run ins)) ++ _ = _
      rw [ih, ← List.map_append]
      rfl

/-! ## After a flush -/

/-- Of the loads accepted before the `m`-th, none is answered beyond `old`. -/
structure Fresh (m : Nat) (old : List Answer) (s : PathState) : Prop where
  answered : ∃ later, s.answered = old ++ later ∧ ∀ a ∈ later, m ≤ a.item.1
  outstanding : ∀ e ∈ s.outstanding, m ≤ e.1
  waiting : ∀ e ∈ s.lsu.record.waiting, m ≤ e.1
  accepted : m ≤ s.lsu.record.accepted.length

theorem Fresh.next {m : Nat} {old : List Answer} (hf : Fresh m old s) (h : PathOk s) :
    Fresh m old ((loadPath ni).next s i) := by
  have hpresent : ∀ e ∈ present s.lsu, m ≤ e.1 := by
    intro e he
    rcases List.mem_append.mp he with he | he
    · exact hf.waiting e he
    · rw [(mem_arriving he).1]
      exact hf.accepted
  obtain ⟨later, hlater, hnum⟩ := hf.answered
  refine ⟨⟨later ++ answeredNow ni s i, ?_, ?_⟩, ?_, ?_, ?_⟩
  · show s.answered ++ answeredNow ni s i = _
    rw [hlater, List.append_assoc]
  · intro a ha
    rcases List.mem_append.mp ha with ha | ha
    · exact hnum a ha
    · unfold answeredNow at ha
      split_ifs at ha
      · obtain ⟨e, he, rfl⟩ := List.mem_map.mp ha
        exact hf.outstanding e (Option.mem_toList.mp he)
      · cases ha
  · intro e he
    obtain ⟨-, ⟨-, -, rest, hpres⟩ | ⟨-, -, hold⟩⟩ := h.outstanding_next he
    · exact hpresent e (hpres ▸ List.mem_cons_self)
    · exact hf.outstanding e hold
  · intro e he
    exact hpresent e (waiting_next_subset e he)
  · show m ≤ (s.lsu.record.accepted ++ _).length
    rw [List.length_append]
    exact Nat.le_add_right_of_le hf.accepted

theorem fresh_of_flush (hflush : i.lsu.flush = true) :
    Fresh ((loadPath ni).next s i).lsu.record.accepted.length
      ((loadPath ni).next s i).answered ((loadPath ni).next s i) where
  answered := ⟨[], (List.append_nil _).symm, by simp⟩
  outstanding := by simp [loadPath, hflush]
  waiting := by
    have hff : (lsuIn ni s i).flush = true := hflush
    simp [loadPath, tracked, recordNext, hff]
  accepted := Nat.le_refl _

/-- After a flush only loads that were accepted later are answered: what is written back from
the cycle after the next on belongs to them. -/
theorem flush_safe (pre post : List PathInput) (hflush : i.lsu.flush = true) :
    let s₁ := (loadPath ni).run (pre ++ [i])
    ∃ later, ((loadPath ni).run (pre ++ i :: post)).answered = s₁.answered ++ later ∧
      (∀ a ∈ later, s₁.lsu.record.accepted.length ≤ a.item.1) ∧
      (loadPath ni).logFrom loadValids s₁ post ++ pending ((loadPath ni).run (pre ++ i :: post)) =
        pending s₁ ++ later.map Answer.writeBack := by
  intro s₁
  have hfresh : Fresh s₁.lsu.record.accepted.length s₁.answered
      ((loadPath ni).run (pre ++ i :: post)) := by
    induction post using List.reverseRecOn with
    | nil =>
        show Fresh _ _ ((loadPath ni).run (pre ++ [i]))
        simp only [s₁, Machine.run_snoc]
        exact fresh_of_flush hflush
    | append_singleton post j ih =>
        rw [← List.cons_append, ← List.append_assoc, Machine.run_snoc]
        exact ih.next (pathOk_run _)
  obtain ⟨later, hlater, hnum⟩ := hfresh.answered
  refine ⟨later, hlater, hnum, ?_⟩
  have hall := log_loadValids ni (pre ++ i :: post)
  have hpre := log_loadValids ni (pre ++ [i])
  have hsplit : (loadPath ni).log loadValids (pre ++ i :: post) =
      (loadPath ni).log loadValids (pre ++ [i]) ++ (loadPath ni).logFrom loadValids s₁ post := by
    rw [show pre ++ i :: post = (pre ++ [i]) ++ post by simp]
    exact Machine.logFrom_append ..
  rw [hsplit, hlater, List.map_append, ← hpre, List.append_assoc, List.append_assoc] at hall
  exact List.append_cancel_left hall

/-! ## Progress -/

def ctrlRank : Ctrl.FsmState → Nat
  | .IDLE => 0
  | .MISS_WAIT | .KILL_MISS => 1
  | .MISS_REQ | .KILL_MISS_ACK => 2
  | .REPLAY_READ => 3
  | .REPLAY_REQ => 4
  | .READ => 5

def loadRank : LoadUnit.Fsm → Nat
  | .WAIT_GNT => 0
  | .WAIT_PAGE_OFFSET | .WAIT_TRANSLATION => 1
  | .IDLE | .WAIT_WB_EMPTY => 2
  | .SEND_TAG | .WAIT_FLUSH | .ABORT_TRANSACTION | .ABORT_TRANSACTION_NI => 3

def ahead (s : PathState) (n : Nat) : Nat := (present s.lsu).countP fun e => e.1 ≤ n

/-- How far the `n`-th request is from its answer. -/
def rank (s : PathState) (n : Nat) : Nat :=
  10 * ahead s n + ctrlRank s.ctrl.state + loadRank s.lsu.hw.load.state

/-- A cycle that sets a load back: its read collides with a refill or its miss with another
one, or its page is not idempotent and has to wait. -/
def disturbed (ni : NonIdempotent) (s : PathState) (i : PathInput) : Bool :=
  i.wrClVld || i.missReplay || stallNi ni s.lsu.hw i.lsu

/-- The cycle brings what the path waits for. With no read under way it waits for the oldest
request, if there is one: for the store unit to take it, for the older stores to its
doubleword, for the write buffer, or for the arrays. -/
def helpful (ni : NonIdempotent) (s : PathState) (i : PathInput) : Bool :=
  match s.ctrl.state with
  | .READ | .REPLAY_READ => true
  | .REPLAY_REQ => i.rdAck
  | .MISS_REQ | .KILL_MISS_ACK => i.missAck
  | .MISS_WAIT | .KILL_MISS => i.missRtrnVld
  | .IDLE =>
      match s.lsu.hw.load.state with
      | .IDLE =>
          !(lsuCtrl s.lsu.hw).valid || ldValid s.lsu.hw || (storeOut s.lsu.hw (lsuIn ni s i)).popSt
      | .WAIT_GNT => i.rdAck
      | .WAIT_PAGE_OFFSET => !pageOffsetMatches s.lsu.hw (lsuIn ni s i)
      | .WAIT_WB_EMPTY => i.lsu.dcacheWbufferNotNi
      | _ => true

theorem ctrlRank_next {q : Ctrl.Regs} {c : Ctrl.Input} (hg : Ctrl.dataGnt q c = false)
    (hread : q.state = .READ → c.req.killReq = true ∨ c.req.tagValid = true)
    (hack : q.state = .READ ∨ q.state = .REPLAY_READ → q.rdAckQ = true) :
    ctrlRank (Ctrl.stateD q c) ≤ ctrlRank q.state + (if c.wrClVld || c.missReplay then 2 else 0) ∧
      ((c.wrClVld || c.missReplay) = false →
        (match q.state with
        | .READ | .REPLAY_READ => true
        | .REPLAY_REQ => c.rdAck
        | .MISS_REQ | .KILL_MISS_ACK => c.missAck
        | .MISS_WAIT | .KILL_MISS => c.missRtrnVld
        | .IDLE => false) = true →
        ctrlRank (Ctrl.stateD q c) < ctrlRank q.state) := by
  simp only [Ctrl.dataGnt, Ctrl.hit, Ctrl.tagCycle] at hg
  cases hs : q.state <;> simp only [hs, true_or, or_true, forall_true_left] at hg hread hack <;>
    simp only [Ctrl.stateD, hs]
  case IDLE => simp [hg, ctrlRank]
  case READ =>
    rw [hack] at hg ⊢
    revert hg hread
    cases c.req.killReq <;> cases c.req.tagValid <;> cases c.wrClVld <;> cases c.missReplay <;>
      cases any c.rdHitOh <;> cases c.cacheEn <;> cases c.rdAck <;> cases c.req.dataReq <;> decide
  case REPLAY_READ =>
    rw [hack] at hg ⊢
    revert hg
    cases c.req.killReq <;> cases c.req.tagValid <;> cases c.wrClVld <;> cases c.missReplay <;>
      cases any c.rdHitOh <;> cases c.cacheEn <;> cases c.rdAck <;> cases c.req.dataReq <;> decide
  case MISS_REQ =>
    cases c.req.killReq <;> cases c.wrClVld <;> cases c.missReplay <;> cases c.missAck <;> decide
  case MISS_WAIT =>
    cases c.req.killReq <;> cases c.wrClVld <;> cases c.missReplay <;> cases c.missRtrnVld <;>
      decide
  case KILL_MISS => cases c.wrClVld <;> cases c.missReplay <;> cases c.missRtrnVld <;> decide
  case KILL_MISS_ACK => cases c.wrClVld <;> cases c.missReplay <;> cases c.missAck <;> decide
  case REPLAY_REQ =>
    cases c.req.killReq <;> cases c.wrClVld <;> cases c.missReplay <;> cases c.rdAck <;> decide

theorem loadRank_next {state : LoadUnit.Fsm} {j : LoadUnit.Input} (hex : j.ex.valid = false)
    (hf : j.flush = false) (hg : j.dataGnt = false) (hd : j.dtlbHit = true) :
    loadRank (LoadUnit.loadControl state j).state ≤ loadRank state ∧
      ((match state with
        | .IDLE => j.valid
        | .WAIT_GNT => false
        | .WAIT_PAGE_OFFSET => !j.pageOffsetMatches
        | .WAIT_WB_EMPTY => j.wbufferNotNi
        | _ => true) = true →
        loadRank (LoadUnit.loadControl state j).state < loadRank state) := by
  rw [LoadUnit.loadControl_of_no_ex hex, hf, if_neg Bool.false_ne_true]
  cases state <;> simp only [LoadUnit.fsm, LoadUnit.takeRequest, hg, hd, hex]
  case IDLE => cases j.valid <;> cases j.pageOffsetMatches <;> simp [loadRank]
  case SEND_TAG => cases j.valid <;> cases j.pageOffsetMatches <;> simp [loadRank]
  case WAIT_PAGE_OFFSET => cases j.pageOffsetMatches <;> simp [loadRank]
  case WAIT_WB_EMPTY => cases j.wbufferNotNi <;> simp [loadRank]
  all_goals simp [loadRank]

/-- A load that is accepted and neither answered nor flushed. -/
structure UnderWay (s : PathState) (e : Item) : Prop where
  here : e ∈ s.outstanding ∨ e ∈ present s.lsu
  load : e.2.fu = .LOAD

variable {e : Item}

theorem UnderWay.next (hu : UnderWay s e) (h : PathOk s) (hf : i.lsu.flush = false)
    (hno : ∀ a ∈ answeredNow ni s i, a.item ≠ e) : UnderWay ((loadPath ni).next s i) e := by
  refine ⟨?_, hu.load⟩
  rcases hu.here with he | he
  · refine .inl (h.outstanding_stays he hf ?_)
    apply Bool.eq_false_iff.mpr
    intro hv
    refine hno ⟨e, ctrlAddr ni s i, i.rdData⟩ ?_ rfl
    simp [answeredNow, hv, Option.mem_def.mp he]
  · rcases h.load_present_stays ni he hu.load hf with he | he
    · exact .inl (Option.mem_toList.mp he)
    · exact .inr (List.mem_append_left _ he)

variable (ni) in
theorem UnderWay.accepted (hu : UnderWay s e) (h : PathOk s) :
    e.1 < ((loadPath ni).next s i).lsu.record.accepted.length := by
  show e.1 < (s.lsu.record.accepted ++ (arriving s.lsu).map Prod.snd).length
  rw [List.length_append, List.length_map]
  have hchain : ∀ e ∈ chain s, e.1 < s.lsu.record.accepted.length + (arriving s.lsu).length :=
    fun e he => Nat.lt_add_right _ (h.lt_accepted he)
  rcases hu.here with he | he
  · exact hchain e (List.mem_append_left _ (List.mem_append_right _ (Option.mem_toList.mpr he)))
  · exact h.queue.present_ordered.2 e he

variable (ni) in
theorem UnderWay.ahead_next (hu : UnderWay s e) (h : PathOk s) (hf : i.lsu.flush = false) :
    ahead ((loadPath ni).next s i) e.1 + (if popped ni s.lsu (lsuIn ni s i) ∧ e ∈ present s.lsu
      then 1 else 0) ≤ ahead s e.1 := by
  have hff : (lsuIn ni s i).flush = false := hf
  have hwaiting : ((loadPath ni).next s i).lsu.record.waiting =
      if popped ni s.lsu (lsuIn ni s i) then (present s.lsu).tail else present s.lsu := by
    simp [loadPath, tracked, recordNext, hff]
  have harriving : (arriving ((loadPath ni).next s i).lsu).countP (fun x => x.1 ≤ e.1) = 0 := by
    rw [List.countP_eq_zero]
    intro x hx
    have := (mem_arriving hx).1
    have := hu.accepted ni (i := i) h
    simp
    omega
  have hahead : ahead ((loadPath ni).next s i) e.1 =
      (if popped ni s.lsu (lsuIn ni s i) then (present s.lsu).tail
        else present s.lsu).countP fun x => x.1 ≤ e.1 := by
    rw [ahead, present, List.countP_append, harriving, hwaiting, Nat.add_zero]
  rw [hahead, ahead]
  cases hpop : popped ni s.lsu (lsuIn ni s i) with
  | false => simp
  | true =>
      cases hpres : present s.lsu with
      | nil => simp
      | cons x rest =>
          have hord := h.queue.present_ordered.1
          rw [hpres, List.map_cons, List.pairwise_cons] at hord
          by_cases he : e ∈ x :: rest
          · have hle : x.1 ≤ e.1 := by
              rcases List.mem_cons.mp he with rfl | he
              · exact Nat.le_refl _
              · exact Nat.le_of_lt (hord.1 _ (List.mem_map_of_mem he))
            simp [he, hle]
          · simp only [he, and_false, if_false, if_true, List.tail_cons, Nat.add_zero]
            exact (List.sublist_cons_self x rest).countP_le

theorem ctrlRank_le (state : Ctrl.FsmState) : ctrlRank state ≤ 5 := by
  cases state <;> decide

theorem loadRank_le (state : LoadUnit.Fsm) : loadRank state ≤ 3 := by
  cases state <;> decide

/-- A grant brings the load closer, because the request ahead is popped with it, unless that
one has to wait for its page. -/
theorem UnderWay.rank_granted (hu : UnderWay s e) (h : PathOk s) (hf : i.lsu.flush = false)
    (hno : ∀ a ∈ answeredNow ni s i, a.item ≠ e)
    (hg : Ctrl.dataGnt s.ctrl (ctrlIn ni s i) = true) :
    rank ((loadPath ni).next s i) e.1 + (if disturbed ni s i then 0 else 1) ≤
      rank s e.1 + (if disturbed ni s i then 8 else 0) := by
  have hpresent : e ∈ present s.lsu := by
    rcases hu.here with he | he
    · have hv := ((h.answer ni i).2 (Option.isSome_of_mem he)).2.2.1 hg
      refine absurd rfl (hno ⟨e, ctrlAddr ni s i, i.rdData⟩ ?_)
      simp [answeredNow, hv, Option.mem_def.mp he]
    · exact he
  have hahead := hu.ahead_next ni h hf
  have hctrl := ctrlRank_le ((loadPath ni).next s i).ctrl.state
  have hload := loadRank_le ((loadPath ni).next s i).lsu.hw.load.state
  have hw := wired ni s i
  have hpop : popLd ni s i = !stallNi ni s.lsu.hw i.lsu := by
    have hasks := hw.dataReq.symm.trans (Ctrl.dataReq_of_dataGnt hg)
    show (LoadUnit.loadControl _ _).popLd = _
    rw [LoadUnit.loadControl_popLd rfl, hasks, hw.dataGnt, hg]
    rfl
  unfold rank
  cases hstall : stallNi ni s.lsu.hw i.lsu with
  | true =>
      have hd : disturbed ni s i = true := by simp [disturbed, hstall]
      simp only [hd, if_true]
      split_ifs at hahead <;> omega
  | false =>
      have hpopped : popped ni s.lsu (lsuIn ni s i) = true := by
        rw [hstall] at hpop
        have hpop : (loadOut ni s.lsu.hw (lsuIn ni s i)).popLd = true := hpop
        rw [popped, hpop]
        rfl
      rw [if_pos ⟨hpopped, hpresent⟩] at hahead
      split_ifs <;> omega

theorem UnderWay.helped (hu : UnderWay s e) (h : PathOk s) (hf : i.lsu.flush = false)
    (hg : Ctrl.dataGnt s.ctrl (ctrlIn ni s i) = false)
    (hcalm : (i.wrClVld || i.missReplay) = false) (hhelp : helpful ni s i = true) :
    ctrlRank ((loadPath ni).next s i).ctrl.state < ctrlRank s.ctrl.state ∨
      loadRank ((loadPath ni).next s i).lsu.hw.load.state < loadRank s.lsu.hw.load.state ∨
      (popped ni s.lsu (lsuIn ni s i) = true ∧ e ∈ present s.lsu) := by
  have hctrl := (ctrlRank_next hg (h.tag_of_read ni) h.rdAck).2 hcalm
  have hload := (@loadRank_next s.lsu.hw.load.state
    (loadIn ni s.lsu.hw (lsuIn ni s i)) rfl hf hg rfl).2
  by_cases hidle : s.ctrl.state = .IDLE
  · -- no read is under way, so that the oldest request is waited for
    have hnone : s.outstanding = none := by
      have hcoupled := h.coupled
      rw [hidle] at hcoupled
      rw [← Option.not_isSome_iff_eq_none]
      intro hsome
      rw [hsome] at hcoupled
      cases hcoupled
    have hpresent : e ∈ present s.lsu := by
      rcases hu.here with he | he
      · rw [hnone] at he
        cases he
      · exact he
    rw [helpful, hidle] at hhelp
    cases hls : s.lsu.hw.load.state <;> simp only [hls] at hhelp hload
    case IDLE =>
      have hvalid : (lsuCtrl s.lsu.hw).valid = true := by
        cases hpres : present s.lsu with
        | nil => simp [hpres] at hpresent
        | cons x rest =>
            rw [h.queue.lsuCtrl_eq, hpres]
            exact (h.queue.valid x (by simp [hpres])).1
      rw [hvalid, Bool.not_true, Bool.false_or, Bool.or_eq_true] at hhelp
      rcases hhelp with hv | hst
      · exact .inr (.inl (by simpa only [loadPath, tracked, loadStoreUnit, LoadUnit.next,
          LoadUnit.control, hls] using hload hv))
      · refine .inr (.inr ⟨?_, hpresent⟩)
        rw [popped, hst, Bool.or_true]
    case WAIT_GNT =>
      -- the arrays answer, so that the load is granted
      have hreq := (wired ni s i).dataReq
      rw [hls] at hreq
      simp only [Ctrl.dataGnt, hidle, hreq, LoadUnit.asks] at hg
      have hack : (ctrlIn ni s i).rdAck = true := hhelp
      simp [hack] at hg
    all_goals
      exact .inr (.inl (by simpa only [loadPath, tracked, loadStoreUnit, LoadUnit.next,
        LoadUnit.control, hls] using hload hhelp))
  · refine .inl (hctrl ?_)
    rw [helpful] at hhelp
    cases hs : s.ctrl.state <;> simp_all [ctrlIn]

/-- Every cycle that brings what the path waits for brings the load closer to its answer, and
only replays and stalls set it back. -/
theorem UnderWay.rank_next (hu : UnderWay s e) (h : PathOk s) (hf : i.lsu.flush = false)
    (hno : ∀ a ∈ answeredNow ni s i, a.item ≠ e) :
    rank ((loadPath ni).next s i) e.1 + (if helpful ni s i && !disturbed ni s i then 1 else 0) ≤
      rank s e.1 + (if disturbed ni s i then 8 else 0) := by
  cases hg : Ctrl.dataGnt s.ctrl (ctrlIn ni s i) with
  | true =>
      have := hu.rank_granted h hf hno hg
      cases helpful ni s i <;> cases hd : disturbed ni s i <;> simp [hd] at this ⊢ <;> omega
  | false =>
      have hahead := hu.ahead_next ni h hf
      obtain ⟨hctrl, hctrl'⟩ := ctrlRank_next hg (h.tag_of_read ni) h.rdAck
      obtain ⟨hload, hload'⟩ := @loadRank_next s.lsu.hw.load.state
        (loadIn ni s.lsu.hw (lsuIn ni s i)) rfl hf hg rfl
      have hctrl : ctrlRank ((loadPath ni).next s i).ctrl.state ≤ ctrlRank s.ctrl.state +
        (if i.wrClVld || i.missReplay then 2 else 0) := hctrl
      have hload : loadRank ((loadPath ni).next s i).lsu.hw.load.state ≤
        loadRank s.lsu.hw.load.state := hload
      unfold rank
      cases hd : disturbed ni s i with
      | true =>
          simp only [Bool.not_true, Bool.and_false, Bool.false_eq_true, if_false, if_true]
          split_ifs at hctrl hahead <;> omega
      | false =>
          have hcalm : (i.wrClVld || i.missReplay) = false := by
            simp only [disturbed, Bool.or_eq_false_iff] at hd ⊢
            exact hd.1
          rw [hcalm] at hctrl
          cases hhelp : helpful ni s i with
          | false =>
              simp only [Bool.false_and, Bool.false_eq_true, if_false] at hctrl ⊢
              split_ifs at hahead <;> omega
          | true =>
              simp only [Bool.not_false, Bool.and_self, Bool.false_eq_true, if_false, if_true] at hctrl ⊢
              rcases hu.helped h hf hg hcalm hhelp with hlt | hlt | hlt
              · split_ifs at hahead <;> omega
              · split_ifs at hahead <;> omega
              · rw [if_pos hlt] at hahead
                omega

def helps (ni : NonIdempotent) (s : PathState) (i : PathInput) : Bool :=
  helpful ni s i && !disturbed ni s i

theorem PathOk.rank_le (h : PathOk s) (n : Nat) : rank s n ≤ 28 := by
  have hahead : ahead s n ≤ 2 := by
    refine (List.countP_le_length).trans ?_
    have hlen := congrArg List.length h.queue.waiting_eq
    rw [Bypass.length_contents, List.length_map] at hlen
    have hle := h.queue.bypass_ok.le
    have hroom := h.queue.room
    rw [present, List.length_append, arriving]
    cases hv : s.lsu.hw.lsuValid with
    | true =>
        have := hroom hv
        simp
        omega
    | false =>
        simp
        omega
  have hctrl := ctrlRank_le s.ctrl.state
  have hload := loadRank_le s.lsu.hw.load.state
  unfold rank
  omega

theorem answered_runFrom (ext : List PathInput) (s : PathState) :
    ∀ a ∈ s.answered, a ∈ ((loadPath ni).runFrom s ext).answered := by
  induction ext generalizing s with
  | nil => exact fun a ha => ha
  | cons i ext ih =>
      intro a ha
      exact ih ((loadPath ni).next s i) a (List.mem_append_left _ ha)

/-- A load is answered once it has been helped more often than it has been set back. -/
theorem UnderWay.answered (ext : List PathInput) (hu : UnderWay s e) (h : PathOk s)
    (hf : ∀ i ∈ ext, i.lsu.flush = false)
    (hcount : rank s e.1 + 8 * (loadPath ni).countFrom (disturbed ni) s ext <
      (loadPath ni).countFrom (helps ni) s ext) :
    ∃ a ∈ ((loadPath ni).runFrom s ext).answered, a.item = e := by
  induction ext generalizing s with
  | nil => simp [Machine.countFrom] at hcount
  | cons i ext ih =>
      by_cases hno : ∀ a ∈ answeredNow ni s i, a.item ≠ e
      · have hfi := hf i List.mem_cons_self
        have hrank := hu.rank_next h hfi hno
        refine ih (hu.next h hfi hno) h.next (fun j hj => hf j (List.mem_cons_of_mem _ hj)) ?_
        simp only [Machine.countFrom, helps] at hcount
        cases hd : disturbed ni s i <;> cases helpful ni s i <;> simp [hd] at hcount hrank <;>
          omega
      · push Not at hno
        obtain ⟨a, ha, hitem⟩ := hno
        exact ⟨a, answered_runFrom ext _ a (List.mem_append_right _ ha), hitem⟩

/-! ## Every run -/

/-- What an answer belongs to: a load that was accepted, whose own address the controller
presented. -/
structure Answer.Ok (a : Answer) (s : PathState) : Prop where
  accepted : s.lsu.record.accepted[a.item.1]? = some a.item.2
  load : a.item.2.fu = .LOAD
  addr : a.addr = loadAddr a.item.2
  value : LoadUnit.FitsDword (LoadUnit.inData a.item.2) → a.writeBack =
    (a.item.2.transId,
      LoadUnit.loadValue a.item.2.operator (a.item.2.vaddr.setWidth 3 : BitVec 3).toNat a.data)

theorem PathOk.answer_ok (h : PathOk s) (a : Answer) (ha : a ∈ s.answered) : a.Ok s where
  accepted := h.identity _ (List.mem_append_left _ (List.mem_append_left _ (List.mem_map_of_mem ha)))
  load := h.loads _ (List.mem_append_left _ (List.mem_map_of_mem ha))
  addr := h.answers a ha
  value := fun hfits => congrArg _ (LoadUnit.resultOf_eq_loadValue hfits a.data)

theorem PathOk.fate (h : PathOk s) (n : Nat) (c : LsuCtrl)
    (hacc : s.lsu.record.accepted[n]? = some c) (hfu : c.fu = .LOAD) :
    (∃ a ∈ s.answered, a.item = (n, c)) ∨ UnderWay s (n, c) ∨ (n, c) ∈ s.flushed := by
  rcases h.accounted n c hacc hfu with hmem | hmem
  · rcases List.mem_append.mp hmem with hmem | hmem
    · rcases List.mem_append.mp hmem with hmem | hmem
      · exact .inl (List.mem_map.mp hmem)
      · exact .inr (.inl ⟨.inl (Option.mem_toList.mp hmem), hfu⟩)
    · exact .inr (.inl ⟨.inr (List.mem_append_left _ hmem), hfu⟩)
  · exact .inr (.inr hmem)

/-- Everything the load port writes back is the answer to one accepted load, with the
identifier of that load and the data read at its address, and no load is answered twice. A
load that was not flushed has been answered or is under way, and one that is under way is
answered when the environment helps often enough. After a flush nothing that was accepted
before is written back, except what is in the output register. -/
theorem loads_written_back_once (ni : NonIdempotent) (ins : List PathInput) :
    let m := loadPath ni
    let s := m.run ins
    (m.log loadValids ins ++ pending s = s.answered.map Answer.writeBack ∧
      (∀ a ∈ s.answered, a.Ok s) ∧ (s.answered.map fun a => a.item.1).Pairwise (· < ·)) ∧
    (∀ n c, s.lsu.record.accepted[n]? = some c → c.fu = .LOAD →
      (∃ a ∈ s.answered, a.item = (n, c)) ∨ UnderWay s (n, c) ∨ (n, c) ∈ s.flushed) ∧
    (∀ e ext, UnderWay s e → (∀ i ∈ ext, i.lsu.flush = false) →
      28 + 8 * m.countFrom (disturbed ni) s ext < m.countFrom (helps ni) s ext →
      ∃ a ∈ (m.run (ins ++ ext)).answered, a.item = e) ∧
    (∀ pre i post, ins = pre ++ i :: post → i.lsu.flush = true →
      let s₁ := m.run (pre ++ [i])
      ∃ later, s.answered = s₁.answered ++ later ∧
        (∀ a ∈ later, s₁.lsu.record.accepted.length ≤ a.item.1) ∧
        m.logFrom loadValids s₁ post ++ pending s = pending s₁ ++ later.map Answer.writeBack) := by
  intro m s
  have h : PathOk s := pathOk_run ins
  have hordered : (s.answered.map fun a => a.item.1).Pairwise (· < ·) := by
    have hsub : ((s.answered.map Answer.item).map Prod.fst).Sublist ((chain s).map Prod.fst) := by
      rw [chain, List.append_assoc]
      exact (List.sublist_append_left _ _).map Prod.fst
    have hpair := h.ordered.sublist hsub
    rwa [List.map_map] at hpair
  refine ⟨⟨log_loadValids ni ins, h.answer_ok, hordered⟩, h.fate, ?_, ?_⟩
  · intro e ext hu hf hcount
    rw [Machine.run_append]
    refine hu.answered ext h hf (Nat.lt_of_le_of_lt ?_ hcount)
    exact Nat.add_le_add_right (h.rank_le e.1) _
  · rintro pre i post hins hflush
    have hs : s = (loadPath ni).run (pre ++ i :: post) := congrArg _ hins
    rw [hs]
    exact flush_safe pre post hflush

/-! ## A run -/

def PathInput.still : PathInput :=
  ⟨{ (default : Input) with dcacheWbufferNotNi := true }, true, false, false, false, false, false,
    fun _ => false, fun _ => false, 0⟩

def PathInput.issue (i : PathInput) (d : FuData) : PathInput :=
  { i with lsu := { i.lsu with fuData := d, issueValid := true } }

/-- A load misses and is flushed while its miss is under way; a second one is accepted after
the flush, before the miss returns. -/
def flushedMissRun : List PathInput :=
  [PathInput.still.issue (loadWord 0x104 1), { PathInput.still with rdAck := true }, .still,
    { PathInput.still with missAck := true },
    { PathInput.still with lsu := { PathInput.still.lsu with flush := true } },
    PathInput.still.issue (loadWord 0x204 2), .still]

def secondLoadRun : List PathInput :=
  [{ PathInput.still with missRtrnVld := true, rdData := 0xdead }, { PathInput.still with rdAck := true },
    { PathInput.still with rdHitOh := fun w => w == 0, rdData := 0x8877665544332211 }] ++
  List.replicate 27 .still

/-- The return of the miss of the flushed load is not taken for the answer to the second. -/
theorem loads_written_back_once_flushedMissRun :
    let m := loadPath fun _ => false
    let s := m.run flushedMissRun
    m.log loadValids (flushedMissRun ++ secondLoadRun) = [(2, 0x88776655)] ∧
      (∃ a ∈ (m.run (flushedMissRun ++ secondLoadRun)).answered,
        a.item = (1, lsuReq true (loadWord 0x204 2))) ∧
      s.flushed = [(0, lsuReq true (loadWord 0x104 1))] := by
  intro m s
  have h := loads_written_back_once (fun _ => false) flushedMissRun
  refine ⟨by decide +kernel, ?_, by decide +kernel⟩
  refine h.2.2.1 (1, lsuReq true (loadWord 0x204 2)) secondLoadRun ⟨.inr ?_, rfl⟩ ?_ ?_
  · decide +kernel
  · decide +kernel
  · decide +kernel

end Cva6.Lsu
