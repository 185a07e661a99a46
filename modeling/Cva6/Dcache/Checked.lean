import Cva6.Dcache.OneHolder
import Cva6.Dcache.WbufferInv
import Cva6.Sync.RoundRobin
/-!
# Where the word of a write buffer entry is

The write buffer looks up each of its words in the tag array. The answer takes two cycles, in
which a refill, an invalidation or a flush of the set withdraws it. No entry is freed before it
is checked, so that an answer always finds the word that was looked up, or no word at all.
-/

namespace Cva6.Dcache

open Cva6.Sync

namespace Wbuffer

/-! ## The `checked` flag -/

section Entry

variable (cfg : Cfg) (q : Regs) (c : Choice) (i : Input)

def returns (n : Ptr) : Bool := q.checkEnQ1 && n == q.checkPtrQ1 && valid q n

theorem bufferNext_hitOh (n : Ptr) :
    (bufferNext cfg q c i n).hitOh =
      if returns q n then q.rdHitOhQ else (q.buffer n).hitOh := by
  unfold bufferNext returns valid
  cases q.checkEnQ1 && n == q.checkPtrQ1 <;> cases invalHit q i n <;>
    cases evict q i && n == rtrnPtr q <;> cases dirtyRdEn q i && n == dirtyPtr q c <;>
    cases dataGnt cfg q i && n == wrPtr q i <;>
    simp [Entry.check, Entry.evict, Entry.send, Entry.write]

theorem bufferNext_checked (n : Ptr) :
    (bufferNext cfg q c i n).checked =
      ((returns q n || (q.buffer n).checked) && !invalHit q i n &&
        (!(evict q i && n == rtrnPtr q) ||
          any fun k => (q.buffer n).valid k && !(rtrnBe q k && !(q.buffer n).dirty k)) &&
        !(dataGnt cfg q i && n == wrPtr q i)) := by
  unfold bufferNext returns valid
  cases q.checkEnQ1 && n == q.checkPtrQ1 <;> cases invalHit q i n <;>
    cases evict q i && n == rtrnPtr q <;> cases dirtyRdEn q i && n == dirtyPtr q c <;>
    cases dataGnt cfg q i && n == wrPtr q i <;>
    simp [Entry.check, Entry.evict, Entry.send, Entry.write, Bool.or_comm]

end Entry

variable {cfg : Cfg} {q : Regs} {c : Choice} {i : Input} {n : Ptr}

theorem valid_kept (hv : valid q n = true) (hne : (evict q i && n == rtrnPtr q) = false) :
    valid (Wbuffer.next cfg q c i) n = true := by
  obtain ⟨k, hk⟩ := valid_iff.mp hv
  refine valid_iff.mpr ⟨k, valid_next.mpr (.inl ⟨hk, fun hr => ?_⟩)⟩
  rw [returned, hne, Bool.false_and] at hr
  cases hr

/-- A checked entry: its answer is known or has just returned, its set is not written, and it
stays valid. -/
structure CheckedNext (cfg : Cfg) (q : Regs) (c : Choice) (i : Input) (n : Ptr) : Prop where
  known : returns q n = true ∧ (bufferNext cfg q c i n).hitOh = q.rdHitOhQ ∨
    (q.buffer n).checked = true ∧ (bufferNext cfg q c i n).hitOh = (q.buffer n).hitOh
  inval : invalHit q i n = false
  valid : Wbuffer.valid q n = true
  stays : Wbuffer.valid (Wbuffer.next cfg q c i) n = true

theorem of_checked_next (hk : (q.buffer n).checked = true → valid q n = true)
    (hc : (bufferNext cfg q c i n).checked = true) : CheckedNext cfg q c i n := by
  rw [bufferNext_checked] at hc
  simp only [Bool.and_eq_true, Bool.not_eq_true'] at hc
  obtain ⟨⟨⟨hreturn, hinval⟩, hevict⟩, -⟩ := hc
  have hvalid : valid q n = true := by
    rcases Bool.or_eq_true _ _ ▸ hreturn with hr | hold
    · exact (Bool.and_eq_true _ _ ▸ hr).2
    · exact hk hold
  refine ⟨?_, hinval, hvalid, ?_⟩
  · rw [bufferNext_hitOh]
    cases hr : returns q n with
    | true => exact .inl ⟨rfl, rfl⟩
    | false =>
        rw [hr, Bool.false_or] at hreturn
        exact .inr ⟨hreturn, rfl⟩
  · cases hne : evict q i && n == rtrnPtr q with
    | false => exact valid_kept hvalid hne
    | true =>
        rw [hne, Bool.not_true, Bool.false_or] at hevict
        obtain ⟨k, hk⟩ := any_iff.mp hevict
        refine valid_iff.mpr ⟨k, valid_next.mpr (.inl ?_)⟩
        simp only [Bool.and_eq_true, Bool.not_eq_true', Bool.and_eq_false_imp] at hk
        refine ⟨hk.1, fun hr => ?_⟩
        rw [returned, hne, Bool.true_and] at hr
        have hdirty := hk.2 hr
        rwa [Bool.not_eq_false'] at hdirty

end Wbuffer

/-! ## The lookups under way -/

/-- The mask is the set of the ways that hold the line of a word, and has one bit at most. -/
structure HitOf (s : Hw) (a : WordAddr) (m : WayMask) : Prop where
  one : ∀ w w', m w = true → m w' = true → w = w'
  holds : ∀ way, m way = true ↔ s.mem.tags a.idx way = ⟨true, a.tag⟩

structure Checks (s : Hw) : Prop where
  valid : ∀ n, (s.wbuf.buffer n).checked = true → Wbuffer.valid s.wbuf n = true
  known : ∀ n, (s.wbuf.buffer n).checked = true →
    HitOf s (s.wbuf.buffer n).wtag (s.wbuf.buffer n).hitOh
  /-- The answer that returns is right, unless the set was written in the last cycle. -/
  answered : s.wbuf.checkEnQ1 = true → Wbuffer.valid s.wbuf s.wbuf.checkPtrQ1 = true →
    HitOf s (s.wbuf.buffer s.wbuf.checkPtrQ1).wtag s.wbuf.rdHitOhQ ∨
      s.wbuf.wrClVldQ = true ∧ (s.wbuf.buffer s.wbuf.checkPtrQ1).wtag.idx = s.wbuf.wrClIdxQ
  asked : s.wbuf.checkEnQ = true → Wbuffer.valid s.wbuf s.wbuf.checkPtrQ = true ∧
    s.wbuf.rdTagQ = (s.wbuf.buffer s.wbuf.checkPtrQ).wtag.tag ∧
    TagRead s .wr (s.wbuf.buffer s.wbuf.checkPtrQ).wtag.idx

variable {cfg : Cfg} {s : Hw} {i : Input} {n : Ptr}

theorem tags_kept {idx : Idx} (h : (wrCl cfg s i).vld = true → idx ≠ (wrCl cfg s i).idx) :
    (hwNext cfg s i).mem.tags idx = s.mem.tags idx := by
  funext way
  show Mem.tagsNext s.mem (wrCl cfg s i) idx way = _
  rw [Mem.tagsNext, if_neg]
  simp only [Bool.and_eq_true, beq_iff_eq]
  rintro ⟨⟨hvld, -⟩, hidx⟩
  exact h hvld hidx

theorem HitOf.next {a : WordAddr} {m : WayMask} (h : HitOf s a m)
    (hw : (wrCl cfg s i).vld = true → a.idx ≠ (wrCl cfg s i).idx) : HitOf (hwNext cfg s i) a m where
  one := h.one
  holds way := by rw [tags_kept hw, h.holds]

namespace Checks

theorem known_next (h : Checks s) (hc : ((hwNext cfg s i).wbuf.buffer n).checked = true) :
    HitOf (hwNext cfg s i) ((hwNext cfg s i).wbuf.buffer n).wtag
      ((hwNext cfg s i).wbuf.buffer n).hitOh := by
  obtain ⟨hknown, hinval, hvalid, -⟩ := Wbuffer.of_checked_next (h.valid n) hc
  have hwtag : ((hwNext cfg s i).wbuf.buffer n).wtag = (s.wbuf.buffer n).wtag :=
    Wbuffer.wtag_stable hvalid
  simp only [Wbuffer.invalHit, hvalid, Bool.and_true, Bool.or_eq_false_iff,
    Bool.and_eq_false_imp, beq_eq_false_iff_ne] at hinval
  have hhit : HitOf s (s.wbuf.buffer n).wtag ((hwNext cfg s i).wbuf.buffer n).hitOh := by
    rcases hknown with ⟨hr, hhit⟩ | ⟨hold, hhit⟩
    · rw [Wbuffer.returns, Bool.and_eq_true, Bool.and_eq_true, beq_iff_eq] at hr
      obtain ⟨⟨hen, rfl⟩, -⟩ := hr
      rw [show ((hwNext cfg s i).wbuf.buffer s.wbuf.checkPtrQ1).hitOh = _ from hhit]
      refine (h.answered hen hvalid).resolve_right ?_
      rintro ⟨hvld, hidx⟩
      exact hinval.2 hvld hidx
    · rw [show ((hwNext cfg s i).wbuf.buffer n).hitOh = _ from hhit]
      exact h.known n hold
  rw [hwtag]
  exact hhit.next hinval.1

theorem answered_next (h : Checks s) (hh : Held s)
    (hen : (hwNext cfg s i).wbuf.checkEnQ1 = true) :
    HitOf (hwNext cfg s i) ((hwNext cfg s i).wbuf.buffer (hwNext cfg s i).wbuf.checkPtrQ1).wtag
        (hwNext cfg s i).wbuf.rdHitOhQ ∨
      (hwNext cfg s i).wbuf.wrClVldQ = true ∧
        ((hwNext cfg s i).wbuf.buffer (hwNext cfg s i).wbuf.checkPtrQ1).wtag.idx =
          (hwNext cfg s i).wbuf.wrClIdxQ := by
  obtain ⟨hvalid, htag, hread⟩ := h.asked hen
  have hwtag : ((hwNext cfg s i).wbuf.buffer s.wbuf.checkPtrQ).wtag =
      (s.wbuf.buffer s.wbuf.checkPtrQ).wtag := Wbuffer.wtag_stable hvalid
  have hhit : HitOf s (s.wbuf.buffer s.wbuf.checkPtrQ).wtag (rdHitOh s i) := by
    refine ⟨fun w w' => hh.hit_unique, fun way => ?_⟩
    rw [hread.hit_iff, ← htag]
    rfl
  show HitOf (hwNext cfg s i) ((hwNext cfg s i).wbuf.buffer s.wbuf.checkPtrQ).wtag (rdHitOh s i) ∨
    (wrCl cfg s i).vld = true ∧
      ((hwNext cfg s i).wbuf.buffer s.wbuf.checkPtrQ).wtag.idx = (wrCl cfg s i).idx
  rw [hwtag]
  by_cases hw : (wrCl cfg s i).vld = true ∧
      (s.wbuf.buffer s.wbuf.checkPtrQ).wtag.idx = (wrCl cfg s i).idx
  · exact .inr hw
  · exact .inl (hhit.next fun hvld hidx => hw ⟨hvld, hidx⟩)

/-- An entry that is looked up has not been checked, so that it is not evicted. -/
theorem asked_next (harb : any (Wbuffer.tocheck s.wbuf) = true →
      Wbuffer.tocheck s.wbuf i.choice.checkPtr = true)
    (hen : (hwNext cfg s i).wbuf.checkEnQ = true) :
    Wbuffer.valid (hwNext cfg s i).wbuf (hwNext cfg s i).wbuf.checkPtrQ = true ∧
      (hwNext cfg s i).wbuf.rdTagQ =
        ((hwNext cfg s i).wbuf.buffer (hwNext cfg s i).wbuf.checkPtrQ).wtag.tag ∧
      TagRead (hwNext cfg s i) .wr
        ((hwNext cfg s i).wbuf.buffer (hwNext cfg s i).wbuf.checkPtrQ).wtag.idx := by
  have hen : (Wbuffer.rdReq s.wbuf && rdAck cfg s i .wr) = true := hen
  rw [Bool.and_eq_true] at hen
  have hcheck := harb hen.1
  rw [Wbuffer.tocheck, Bool.and_eq_true, Bool.not_eq_true'] at hcheck
  obtain ⟨hnot, hvalid⟩ := hcheck
  have hwtag : ((hwNext cfg s i).wbuf.buffer i.choice.checkPtr).wtag =
      (s.wbuf.buffer i.choice.checkPtr).wtag := Wbuffer.wtag_stable hvalid
  have hne : (Wbuffer.evict s.wbuf (wbufIn cfg s i) &&
      i.choice.checkPtr == Wbuffer.rtrnPtr s.wbuf) = false := by
    rw [Bool.and_eq_false_imp]
    intro hev
    rw [beq_eq_false_iff_ne]
    intro heq
    rw [heq, (Wbuffer.of_evict hev).2] at hnot
    cases hnot
  refine ⟨Wbuffer.valid_kept hvalid hne, ?_, ?_⟩
  · exact (congrArg WordAddr.tag hwtag).symm
  · show TagRead _ _ ((hwNext cfg s i).wbuf.buffer i.choice.checkPtr).wtag.idx
    rw [hwtag]
    exact (tagRead_next hen.2).2.2.2

theorem next (h : Checks s) (hh : Held s) (harb : any (Wbuffer.tocheck s.wbuf) = true →
      Wbuffer.tocheck s.wbuf i.choice.checkPtr = true) : Checks (hwNext cfg s i) where
  valid n hc := (Wbuffer.of_checked_next (h.valid n) hc).stays
  known _ := h.known_next
  answered hen _ := h.answered_next hh hen
  asked := asked_next harb

end Checks

theorem checks_start (z : Start) : Checks (start z).hw where
  valid := nofun
  known := nofun
  answered := nofun
  asked := nofun

/-! ## What a returned transaction writes -/

def rtrnEntry (s : Hw) : Entry := s.wbuf.buffer (Wbuffer.rtrnPtr s.wbuf)

/-- The data arrays are updated in the way that holds the line, and nowhere else. -/
structure Updates (cfg : Cfg) (s : Hw) (i : Input) : Prop where
  written : wrAck cfg s i = true → ∀ b idx way, (hwNext cfg s i).mem.data b idx way =
    if b = (rtrnEntry s).wtag.bank ∧ idx = (rtrnEntry s).wtag.idx ∧
        s.mem.tags idx way = ⟨true, (rtrnEntry s).wtag.tag⟩ then
      fun k => if Wbuffer.wrDataBe s.wbuf k then (rtrnEntry s).data k
        else s.mem.data b idx way k
    else s.mem.data b idx way
  kept : wrAck cfg s i = false → Mem.clWrite (wrCl cfg s i) = false →
    (hwNext cfg s i).mem.data = s.mem.data
  reached : Wbuffer.evict s.wbuf (wbufIn cfg s i) = true → any (Wbuffer.wrDataBe s.wbuf) = true →
    ∀ way, s.mem.tags (rtrnEntry s).wtag.idx way = ⟨true, (rtrnEntry s).wtag.tag⟩ →
      wrAck cfg s i = true

theorem Checks.updates (h : Checks s) : Updates cfg s i where
  written hack b idx way := by
    have hwr := hack
    simp only [wrAck, Mem.wrAck, Bool.and_eq_true, Bool.not_eq_true'] at hwr
    obtain ⟨⟨hcl, hany⟩, -⟩ := hwr
    obtain ⟨w, hw⟩ := any_iff.mp hany
    have hw : (Wbuffer.rtrnReady s.wbuf && Wbuffer.rtrnHit s.wbuf &&
      (rtrnEntry s).hitOh w) = true := hw
    simp only [Bool.and_eq_true] at hw
    obtain ⟨⟨hready, hrtrn⟩, -⟩ := hw
    have hchecked : (rtrnEntry s).checked = true := (Bool.and_eq_true _ _ ▸ hready).2
    have hreq : (wordWrite s).req way = true ↔
        s.mem.tags (rtrnEntry s).wtag.idx way = ⟨true, (rtrnEntry s).wtag.tag⟩ := by
      refine Iff.trans ?_ ((h.known _ hchecked).holds way)
      show (Wbuffer.rtrnReady s.wbuf && Wbuffer.rtrnHit s.wbuf &&
        (rtrnEntry s).hitOh way) = true ↔ _
      rw [hready, hrtrn]
      rfl
    have hcond : (wrAck cfg s i && b == (wordWrite s).off && idx == (wordWrite s).idx &&
        (wordWrite s).req way) = true ↔ b = (rtrnEntry s).wtag.bank ∧
          idx = (rtrnEntry s).wtag.idx ∧
          s.mem.tags idx way = ⟨true, (rtrnEntry s).wtag.tag⟩ := by
      rw [hack, Bool.true_and, Bool.and_eq_true, Bool.and_eq_true, beq_iff_eq, beq_iff_eq, hreq,
        and_assoc]
      refine and_congr_right fun _ => and_congr_right fun hidx => ?_
      rw [hidx]
      rfl
    show Mem.dataNext s.mem (wrCl cfg s i) (readReq cfg s i) i.rdSel (wordWrite s) b idx way = _
    rw [Mem.dataNext, if_neg (by rw [hcl]; exact Bool.false_ne_true)]
    exact if_congr hcond rfl rfl
  kept hack hcl := by
    funext b idx way
    show Mem.dataNext s.mem (wrCl cfg s i) (readReq cfg s i) i.rdSel (wordWrite s) b idx way = _
    have hack : Mem.wrAck (wrCl cfg s i) (readReq cfg s i) i.rdSel (wordWrite s) = false := hack
    simp only [Mem.dataNext, hcl, hack, Bool.false_and, Bool.false_eq_true, if_false]
  reached hev hbe way hway := by
    have hchecked : (rtrnEntry s).checked = true := (Wbuffer.of_evict hev).2
    have hhit : Wbuffer.rtrnHit s.wbuf = true := by
      rw [Wbuffer.rtrnHit, hbe, Bool.true_and]
      exact any_iff.mpr ⟨way, ((h.known _ hchecked).holds way).mpr hway⟩
    rw [Wbuffer.evict, hhit, Bool.and_eq_true, Bool.not_true, Bool.false_or] at hev
    exact hev.2

/-! ## Every run -/

/-- The data cache with the counter of `i_clean_rr`, which chooses the word to look up. -/
structure Arbitrated where
  state : State
  checkRr : BitVec 3

namespace Arbitrated

variable (cfg : Cfg) (a : Arbitrated) (i : Input)

def input : Input :=
  { i with
    choice.checkPtr := RoundRobin.choose (h := 3) (Wbuffer.tocheck a.state.hw.wbuf) a.checkRr }

def next : Arbitrated where
  state := a.state.next cfg (a.input i)
  checkRr := RoundRobin.advance a.checkRr
    (Wbuffer.rdReq a.state.hw.wbuf && rdAck cfg a.state.hw (a.input i) .wr)

end Arbitrated

def arbitrated (cfg : Cfg) (z : Start) : Machine Arbitrated Input :=
  ⟨⟨start z, 0⟩, Arbitrated.next cfg⟩

/-- In every run an entry that is checked knows the way that holds its line, or that none does,
and what a returned transaction writes to the cache goes there. -/
theorem checked_exact (cfg : Cfg) (z : Start) (ins : List Input) :
    let s := ((arbitrated cfg z).run ins).state.hw
    (∀ n, (s.wbuf.buffer n).checked = true →
      HitOf s (s.wbuf.buffer n).wtag (s.wbuf.buffer n).hitOh) ∧ ∀ i, Updates cfg s i := by
  have hinv : Held ((arbitrated cfg z).run ins).state.hw ∧
      Checks ((arbitrated cfg z).run ins).state.hw := by
    refine Machine.invariant (E := fun _ _ => True)
      (I := fun a : Arbitrated => Held a.state.hw ∧ Checks a.state.hw)
      ⟨held_start z, checks_start z⟩ ?_ ins (fun _ _ _ _ => trivial)
    rintro a i ⟨hh, hc⟩ -
    exact ⟨hh.next, hc.next hh fun hany => RoundRobin.choose_req (h := 3) _ (any_iff.mp hany)⟩
  intro s
  exact ⟨hinv.2.known, fun i => hinv.2.updates⟩

end Cva6.Dcache
