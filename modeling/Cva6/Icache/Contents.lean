import Cva6.Icache.Model
/-!
# The instruction cache returns memory contents

The cache is run beside a record of the request it has to answer and of the fill the
memory owes it. What the memory may answer is a predicate `H` on words: `H a v` says
that `v` is an acceptable content of word `a`. The invariant carries `H` through the
arrays; a flush may replace it by any other.
-/

namespace Cva6.Icache

open Cva6.Sync

/-- The cache with the fill it waits for and the request it has to answer. Accepted
requests are numbered. -/
structure State where
  hw : Regs
  fill : Option FillReq
  current : Option (Nat × XLen)
  accepted : Nat

section Cycle

variable (cacheable : Tag → Bool) (s : State) (i : Input)

/-- The request of this cycle is taken and not killed at once. -/
def takes : Bool := accepts cacheable s.hw i && !i.dreq.killS1

def validO : Bool := (fsm cacheable s.hw i).valid

/-- The open request is dropped: killed in the second stage, or by a flush. -/
def drops : Bool := i.dreq.killS2 || flushPending s.hw i

def fillNext : Option FillReq :=
  if (fsm cacheable s.hw i).memDataReq && i.memDataAck then some (memData cacheable s.hw)
  else if rtrns i .IFILL_ACK then none
  else s.fill

def currentNext : Option (Nat × XLen) :=
  if takes cacheable s i then some (s.accepted, i.dreq.vaddr)
  else if validO cacheable s i || drops s i then none
  else s.current

def State.next : State where
  hw := Icache.next cacheable s.hw i
  fill := fillNext cacheable s i
  current := currentNext cacheable s i
  accepted := if takes cacheable s i then s.accepted + 1 else s.accepted

end Cycle

def start (tags : Idx → Way → TagLine) (data : Idx → Way → Line) : State :=
  ⟨reset tags data, none, none, 0⟩

/-! ## The invariant -/

def Unique (tags : Idx → Way → TagLine) : Prop :=
  ∀ x w w', (tags x w).vld = true → (tags x w').vld = true → (tags x w).tag = (tags x w').tag →
    w = w'

def serving : FsmState → Bool
  | .READ | .TLB_MISS | .MISS => true
  | _ => false

def waiting : FsmState → Bool
  | .MISS | .KILL_MISS => true
  | _ => false

/-- The data of a fill holds acceptable words. A non-cacheable fill is one 64-bit word. -/
def FillOk (H : WordAddr → XLen → Prop) (r : FillReq) (data : Line) : Prop :=
  if r.nc then ∀ k : Offset, H (wordIn r.tag r.idx (r.off ||| (k &&& 1))) (data (k &&& 1))
  else ∀ k, H (wordIn r.tag r.idx k) (data k)

/-- The memory answers the request it has, with acceptable words unless the request
has been dropped. -/
def Fills (H : WordAddr → XLen → Prop) (s : State) (i : Input) : Prop :=
  rtrns i .IFILL_ACK = true → ∃ r, s.fill = some r ∧
    (s.current ≠ none → i.flush = false → FillOk H r i.memRtrn.data)

variable (cacheable : Tag → Bool)

/-- The address is not cached as long as the cache stays as it is. -/
def Uncached (q : Regs) : Prop := q.cacheEnQ = false ∨ cacheable (tagOf q.vaddrQ) = false

structure MissOk (s : State) : Prop where
  clTag : s.hw.clTagQ = tagOf s.hw.vaddrQ
  cmpEn : s.hw.cmpEnQ = false
  fill : ∃ r, s.fill = some r ∧ r.tag = tagOf s.hw.vaddrQ ∧ r.idx = idxOf s.hw.vaddrQ ∧
    (r.nc = true → s.hw.clOffsetQ = offsetOf s.hw.vaddrQ &&& 1 ∧
      r.off = offsetOf s.hw.vaddrQ &&& 2 ∧ Uncached cacheable s.hw) ∧
    (r.nc = false → s.hw.clOffsetQ = offsetOf s.hw.vaddrQ)
  absent : s.hw.cacheEnQ = true → cacheable (tagOf s.hw.vaddrQ) = true →
    ∀ w, (s.hw.tags (idxOf s.hw.vaddrQ) w).vld = true →
      (s.hw.tags (idxOf s.hw.vaddrQ) w).tag ≠ tagOf s.hw.vaddrQ

structure Ok (H : WordAddr → XLen → Prop) (s : State) : Prop where
  fill_iff : s.fill.isSome = waiting s.hw.state
  current_eq : s.current.map Prod.snd = if serving s.hw.state then some s.hw.vaddrQ else none
  current_last : ∀ r ∈ s.current, r.1 + 1 = s.accepted
  flushCnt : s.hw.state ≠ .FLUSH → s.hw.flushCntQ = 0
  cleared : s.hw.state = .FLUSH → ∀ x < s.hw.flushCntQ, ∀ w, (s.hw.tags x w).vld = false
  flushQ : s.hw.flushQ = true → serving s.hw.state = false
  replWayOh : ∀ w w', s.hw.replWayOhQ w = true → s.hw.replWayOhQ w' = true → w = w'
  unique : s.hw.cacheEnQ = true → Unique s.hw.tags
  lines : s.hw.cacheEnQ = true → s.hw.flushQ = false → s.hw.state ≠ .FLUSH →
    ∀ x w, (s.hw.tags x w).vld = true → cacheable (s.hw.tags x w).tag = true ∧
      ∀ k, H (wordIn (s.hw.tags x w).tag x k) (s.hw.data x w k)
  rdata : s.hw.state = .READ → s.hw.cacheEnQ = true → s.hw.cmpEnQ = true ∧
    ∀ w, s.hw.tagRdata w = s.hw.tags (idxOf s.hw.vaddrQ) w ∧
      s.hw.clRdata w = s.hw.data (idxOf s.hw.vaddrQ) w
  offset : s.hw.state = .READ ∨ s.hw.state = .TLB_MISS →
    s.hw.clOffsetQ = offsetOf s.hw.vaddrQ ∨
      s.hw.clOffsetQ = offsetOf s.hw.vaddrQ &&& 1 ∧ Uncached cacheable s.hw
  miss : s.hw.state = .MISS → MissOk cacheable s

/-! ## What one cycle does -/

section Steps

variable {cacheable} {q : Regs} {i : Input}

theorem clTagD_of_serving (h : q.state = .READ ∨ q.state = .TLB_MISS) :
    clTagD q = tagOf q.vaddrQ := by
  have hreq : fetchReq q = true := by
    rcases h with h | h <;> simp [fetchReq, h]
  simp only [clTagD, areq, hreq, if_true, tagOf]
  ext k hk
  simp only [BitVec.getElem_extractLsb', BitVec.getLsbD_and, BitVec.getLsbD_not]
  have hmask : ∀ k < 20, (3#32).getLsbD (12 + k) = false := by decide
  simp [hmask k hk]
  omega

theorem flushEn_iff : (fsm cacheable q i).flushEn = (q.state == .FLUSH) := by
  cases h : q.state <;>
    simp only [fsm, h, fsmFlush, fsmIdle, fsmRead, fsmTlbMiss, fsmMiss, idleFsm] <;>
    split_ifs <;> rfl

theorem of_cacheWren (h : (fsm cacheable q i).cacheWren = true) :
    q.state = .MISS ∧ rtrns i .IFILL_ACK = true ∧ (i.dreq.killS2 || flushPending q i) = false ∧
      paddrIsNc cacheable q = false := by
  cases hst : q.state <;>
    simp only [fsm, hst, fsmFlush, fsmIdle, fsmRead, fsmTlbMiss, fsmMiss, idleFsm] at h <;>
    split_ifs at h
  simp_all

theorem of_accepts (h : accepts cacheable q i = true) :
    (q.state = .IDLE ∨ q.state = .READ ∧ q.cacheEnQ = true) ∧ i.memRtrnVld = false ∧
      flushPending q i = false ∧ (fsm cacheable q i).cacheRden = true ∧ i.dreq.req = true ∧
      (fsm cacheable q i).stateD = if i.dreq.killS1 then .IDLE else .READ := by
  have hex : (areq q).fetchException = false := rfl
  simp only [accepts, Bool.and_eq_true] at h
  obtain ⟨h, hreq⟩ := h
  cases hst : q.state <;>
    simp only [fsm, hst, fsmFlush, fsmIdle, fsmRead, fsmTlbMiss, fsmMiss, idleFsm] at h ⊢ <;>
    split_ifs at h ⊢ <;> simp_all

theorem of_stateD_read (h : (fsm cacheable q i).stateD = .READ) :
    i.memRtrnVld = false ∧ flushPending q i = false ∧
      (q.cacheEnQ = true → (fsm cacheable q i).cacheRden = true ∧ (fsm cacheable q i).cmpEnD = true) ∧
      (accepts cacheable q i = true ∧ i.dreq.killS1 = false ∨
        accepts cacheable q i = false ∧ q.state = .TLB_MISS ∧ i.dreq.killS2 = false) := by
  have hex : (areq q).fetchException = false := rfl
  cases hst : q.state <;>
    simp only [accepts, fsm, hst, fsmFlush, fsmIdle, fsmRead, fsmTlbMiss, fsmMiss, idleFsm] at h ⊢ <;>
    split_ifs at h ⊢ <;> simp_all

theorem of_stateD_miss (h : (fsm cacheable q i).stateD = .MISS) :
    (fsm cacheable q i).cmpEnD = false ∧ accepts cacheable q i = false ∧
      (i.dreq.killS2 || flushPending q i) = false ∧ (fsm cacheable q i).valid = false ∧
      (q.state = .READ ∧ (anyWay (clHit q) && q.cacheEnQ) = false ∧
          (fsm cacheable q i).memDataReq = true ∧ i.memDataAck = true ∨
        q.state = .MISS ∧ rtrns i .IFILL_ACK = false ∧ (fsm cacheable q i).memDataReq = false) := by
  have hex : (areq q).fetchException = false := rfl
  cases hst : q.state <;>
    simp only [accepts, fsm, hst, fsmFlush, fsmIdle, fsmRead, fsmTlbMiss, fsmMiss, idleFsm] at h ⊢ <;>
    split_ifs at h ⊢ <;> simp_all

/-- A request that is neither answered nor dropped stays the one to answer. -/
theorem serving_next (h : (accepts cacheable q i && !i.dreq.killS1) = false) :
    serving (fsm cacheable q i).stateD =
        (serving q.state && !(fsm cacheable q i).valid && !(i.dreq.killS2 || flushPending q i)) ∧
      (serving (fsm cacheable q i).stateD = true → accepts cacheable q i = false) := by
  have hex : (areq q).fetchException = false := rfl
  have hvalid : q.state = .READ ∨ q.state = .TLB_MISS → (areq q).fetchValid = true := by
    rintro (h | h) <;> simp [areq, fetchReq, h]
  simp only [accepts] at h ⊢
  cases hst : q.state <;>
    simp only [fsm, hst, fsmFlush, fsmIdle, fsmRead, fsmTlbMiss, fsmMiss, idleFsm] at h ⊢ <;>
    split_ifs at h ⊢ <;> simp_all [serving] <;> grind

theorem cacheEn_next (h : (fsm cacheable q i).cacheEnD = true) :
    q.cacheEnQ = true ∨ q.state = .FLUSH ∧ flushDone q = true ∧ (fsm cacheable q i).stateD = .IDLE := by
  cases hst : q.state <;>
    simp only [fsm, hst, fsmFlush, fsmIdle, fsmRead, fsmTlbMiss, fsmMiss, idleFsm] at h ⊢ <;>
    split_ifs at h ⊢ <;> simp_all

theorem line_next {x : Idx} {w : Way} (h : (tagsNext cacheable q i x w).vld = true) :
    (fsm cacheable q i).cacheWren = true ∧ q.replWayOhQ w = true ∧ x = idxOf q.vaddrQ ∧
        (tagsNext cacheable q i x w).tag = q.clTagQ ∧ dataNext cacheable q i x w = i.memRtrn.data ∨
      tagsNext cacheable q i x w = q.tags x w ∧ dataNext cacheable q i x w = q.data x w ∧
        (q.tags x w).vld = true ∧ (q.state = .FLUSH → x ≠ q.flushCntQ) := by
  cases hwren : (fsm cacheable q i).cacheWren with
  | false =>
      right
      have hdata : dataNext cacheable q i x w = q.data x w := by simp [dataNext, hwren]
      have htag : (vldWe cacheable q i && vldReq cacheable q i w && x == vldAddr cacheable q i) = false := by
        by_contra hc
        rw [Bool.not_eq_false] at hc
        simp [tagsNext, hc, hwren] at h
      have htags : tagsNext cacheable q i x w = q.tags x w := by simp [tagsNext, htag]
      refine ⟨htags, hdata, htags ▸ h, ?_⟩
      rintro hst rfl
      have hflush : (fsm cacheable q i).flushEn = true := by simp [flushEn_iff, hst]
      simp [vldWe, vldReq, vldAddr, hflush] at htag
  | true =>
      obtain ⟨hst, hrtrn, -, -⟩ := of_cacheWren hwren
      have hacc : accepts cacheable q i = false := by
        cases hacc : accepts cacheable q i with
        | false => rfl
        | true =>
            obtain ⟨hidle | ⟨hread, -⟩, -⟩ := of_accepts hacc
            · simp [hst] at hidle
            · simp [hst] at hread
      have hinv : invEn i = false := by
        simp only [rtrns, Bool.and_eq_true, beq_iff_eq] at hrtrn
        simp [invEn, rtrns, hrtrn.2]
      have hflush : (fsm cacheable q i).flushEn = false := by simp [flushEn_iff, hst]
      have hrden : (fsm cacheable q i).cacheRden = false := by
        simp only [fsm, hst, fsmMiss, idleFsm]
        split_ifs <;> rfl
      have hidx : clIndex cacheable q i = idxOf q.vaddrQ := by simp [clIndex, vaddrD, hacc]
      by_cases hw : q.replWayOhQ w = true ∧ x = idxOf q.vaddrQ
      · left
        obtain ⟨hw, rfl⟩ := hw
        simp [tagsNext, dataNext, vldWe, vldReq, vldAddr, clReq, hwren, hinv, hflush, hrden, hidx, hw]
      · right
        have htags : tagsNext cacheable q i x w = q.tags x w := by
          simp only [tagsNext, vldWe, vldReq, vldAddr, hwren, hinv, hflush, hrden, hidx]
          simp only [Bool.or_false, Bool.true_and, Bool.and_false, Bool.false_eq_true, if_false,
            Bool.and_eq_true, beq_iff_eq, hw]
        have hdata : dataNext cacheable q i x w = q.data x w := by
          simp only [dataNext, clReq, hwren, hrden, hidx]
          simp only [Bool.true_and, Bool.false_eq_true, if_false, Bool.and_eq_true, beq_iff_eq, hw]
        exact ⟨htags, hdata, htags ▸ h, by simp [hst]⟩

/-- Lines do not change in a cycle that leads to a tag comparison. -/
theorem rdata_next (h : (fsm cacheable q i).stateD = .READ) (hen : q.cacheEnQ = true) (w : Way) :
    (next cacheable q i).tagRdata w =
        (next cacheable q i).tags (idxOf (next cacheable q i).vaddrQ) w ∧
      (next cacheable q i).clRdata w =
        (next cacheable q i).data (idxOf (next cacheable q i).vaddrQ) w := by
  obtain ⟨hvld, -, hrden, hfrom⟩ := of_stateD_read h
  have hrden := (hrden hen).1
  have hstate : q.state ≠ .FLUSH ∧ q.state ≠ .MISS := by
    rcases hfrom with ⟨hacc, -⟩ | ⟨-, hst, -⟩
    · obtain ⟨hidle | ⟨hread, -⟩, -⟩ := of_accepts hacc
      · simp [hidle]
      · simp [hread]
    · simp [hst]
  have hwren : (fsm cacheable q i).cacheWren = false := by
    cases hc : (fsm cacheable q i).cacheWren with
    | false => rfl
    | true => exact absurd (of_cacheWren hc).1 hstate.2
  have hflush : (fsm cacheable q i).flushEn = false := by simp [flushEn_iff, hstate.1]
  have hinv : invEn i = false := by simp [invEn, rtrns, hvld]
  simp [next, tagsNext, dataNext, vldWe, vldReq, vldAddr, clReq, clIndex, hrden, hwren, hflush, hinv]

end Steps

/-! ## The invariant is kept -/

section Kept

variable {cacheable} {H H' : WordAddr → XLen → Prop} {s : State} {i : Input}

theorem Ok.start (tags : Idx → Way → TagLine) (data : Idx → Way → Line) :
    Ok cacheable H (start tags data) := by
  constructor <;> simp [Icache.start, reset, waiting, serving]

theorem Ok.current_ne (ok : Ok cacheable H s) (h : serving s.hw.state = true) : s.current ≠ none := by
  intro hnone
  have := ok.current_eq
  simp [hnone, h] at this

/-- A fill goes into a set that does not hold the line yet. -/
theorem Ok.unique_next (ok : Ok cacheable H s) (hu : Unique s.hw.tags) :
    Unique (tagsNext cacheable s.hw i) := by
  have hfill (hwren : (fsm cacheable s.hw i).cacheWren = true) (w : Way)
      (hv : (s.hw.tags (idxOf s.hw.vaddrQ) w).vld = true) :
      (s.hw.tags (idxOf s.hw.vaddrQ) w).tag ≠ s.hw.clTagQ := by
    obtain ⟨hst, -, -, hnc⟩ := of_cacheWren hwren
    have hm := ok.miss hst
    have htag : clTagD s.hw = s.hw.clTagQ := by simp [clTagD, areq, fetchReq, hst]
    rw [paddrIsNc, htag, hm.clTag, Bool.or_eq_false_iff, Bool.not_eq_false', Bool.not_eq_false'] at hnc
    rw [hm.clTag]
    exact hm.absent hnc.1 hnc.2 w hv
  intro x w w' hw hw' htag
  rcases line_next hw with ⟨hwren, hrepl, hx, ht, -⟩ | ⟨ht, -, hv, -⟩ <;>
    rcases line_next hw' with ⟨hwren', hrepl', hx', ht', -⟩ | ⟨ht', -, hv', -⟩
  · exact ok.replWayOh w w' hrepl hrepl'
  · rw [ht, ht'] at htag
    subst hx
    exact absurd htag.symm (hfill hwren w' hv')
  · rw [ht, ht'] at htag
    subst hx'
    exact absurd htag (hfill hwren' w hv)
  · rw [ht, ht'] at htag
    exact hu x w w' hv hv' htag

theorem Ok.empty_of_flushDone (ok : Ok cacheable H s) (hst : s.hw.state = .FLUSH)
    (hdone : flushDone s.hw = true) (x : Idx) (w : Way) :
    (tagsNext cacheable s.hw i x w).vld = false := by
  by_contra hv
  rw [Bool.not_eq_false] at hv
  simp only [flushDone, beq_iff_eq] at hdone
  rcases line_next hv with ⟨hwren, -⟩ | ⟨-, -, hold, hx⟩
  · simp [(of_cacheWren hwren).1] at hst
  · have hlt : x < s.hw.flushCntQ := by
      have := hx hst
      rw [hdone] at this ⊢
      bv_omega
    simp [ok.cleared hst x hlt w] at hold

theorem Ok.lines_next (ok : Ok cacheable H s) (hfills : Fills H' s i)
    (hmono : i.flush = false → ∀ a v, H a v → H' a v)
    (hen : (fsm cacheable s.hw i).cacheEnD = true) (hfl : (fsm cacheable s.hw i).flushD = false)
    (hst : (fsm cacheable s.hw i).stateD ≠ .FLUSH) (x : Idx) (w : Way)
    (hv : (tagsNext cacheable s.hw i x w).vld = true) :
    cacheable (tagsNext cacheable s.hw i x w).tag = true ∧
      ∀ k, H' (wordIn (tagsNext cacheable s.hw i x w).tag x k) (dataNext cacheable s.hw i x w k) := by
  rcases line_next hv with ⟨hwren, -, rfl, htag, hdata⟩ | ⟨htag, hdata, hold, -⟩
  · obtain ⟨hmiss, hrtrn, hflush, hnc⟩ := of_cacheWren hwren
    simp only [flushPending, Bool.or_eq_false_iff] at hflush
    have hm := ok.miss hmiss
    have hclTag : clTagD s.hw = s.hw.clTagQ := by simp [clTagD, areq, fetchReq, hmiss]
    rw [paddrIsNc, hclTag, hm.clTag, Bool.or_eq_false_iff, Bool.not_eq_false', Bool.not_eq_false'] at hnc
    obtain ⟨r, hr, hrtag, hridx, hrnc, -⟩ := hm.fill
    obtain ⟨r', hr', hfill⟩ := hfills hrtrn
    have hfill := hfill (ok.current_ne (by simp [hmiss, serving])) hflush.2.2
    obtain rfl : r = r' := Option.some.inj (hr.symm.trans hr')
    have hcached : r.nc = false := by
      cases hc : r.nc with
      | false => rfl
      | true =>
          rcases (hrnc hc).2.2 with h | h
          · simp [h] at hnc
          · simp [h] at hnc
    rw [htag, hdata, hm.clTag]
    refine ⟨hnc.2, ?_⟩
    simpa [FillOk, hcached, hrtag, hridx] using hfill
  · by_cases hflush : s.hw.state = .FLUSH
    · have hdone : flushDone s.hw = true := by
        by_contra hd
        simp [fsm, hflush, fsmFlush, idleFsm, hd] at hst
      simp [ok.empty_of_flushDone hflush hdone] at hv
    · have hpend : flushPending s.hw i = false := by
        revert hfl
        cases hs : s.hw.state <;>
          simp only [fsm, hs, fsmFlush, fsmIdle, fsmRead, fsmTlbMiss, fsmMiss, idleFsm] <;>
          split_ifs <;> simp_all
      simp only [flushPending, Bool.or_eq_false_iff] at hpend
      have hcen : s.hw.cacheEnQ = true := by
        rcases cacheEn_next hen with h | ⟨h, -⟩
        · exact h
        · exact absurd h hflush
      obtain ⟨hc, hH⟩ := ok.lines hcen hpend.1 hflush x w hold
      rw [htag, hdata]
      exact ⟨hc, fun k => hmono hpend.2 _ _ (hH k)⟩

theorem Ok.miss_next (ok : Ok cacheable H s) (hst : (fsm cacheable s.hw i).stateD = .MISS) :
    MissOk cacheable (s.next cacheable i) := by
  obtain ⟨hcmp, hacc, -, -, hfrom⟩ := of_stateD_miss hst
  have hvaddr : (Icache.next cacheable s.hw i).vaddrQ = s.hw.vaddrQ := by
    simp [Icache.next, vaddrD, hacc]
  have hen : (fsm cacheable s.hw i).cacheEnD = true → s.hw.cacheEnQ = true := by
    intro hen
    rcases cacheEn_next hen with h | ⟨-, -, h⟩
    · exact h
    · simp [hst] at h
  have huncached (h : Uncached cacheable s.hw) :
      Uncached cacheable (Icache.next cacheable s.hw i) := by
    rcases h with h | h
    · left
      cases hc : (fsm cacheable s.hw i).cacheEnD with
      | false => exact hc
      | true => simp [hen hc] at h
    · right
      rw [hvaddr]
      exact h
  have hkept (w : Way) (hv : (tagsNext cacheable s.hw i (idxOf s.hw.vaddrQ) w).vld = true) :
      tagsNext cacheable s.hw i (idxOf s.hw.vaddrQ) w = s.hw.tags (idxOf s.hw.vaddrQ) w ∧
        (s.hw.tags (idxOf s.hw.vaddrQ) w).vld = true := by
    rcases line_next hv with ⟨hwren, -⟩ | ⟨h, -, hold, -⟩
    · exfalso
      obtain ⟨hmiss, hrtrn, -⟩ := of_cacheWren hwren
      simp only [fsm, hmiss, fsmMiss, idleFsm, hrtrn, if_true] at hst
      split_ifs at hst
    · exact ⟨h, hold⟩
  rcases hfrom with ⟨hread, hmiss, hreq, hack⟩ | ⟨hmiss, hrtrn, hreq⟩
  · have htag := clTagD_of_serving (.inl hread)
    refine ⟨?_, hcmp, ⟨memData cacheable s.hw, ?_, ?_, ?_, ?_, ?_⟩, ?_⟩
    · show clTagD s.hw = tagOf (Icache.next cacheable s.hw i).vaddrQ
      rw [hvaddr, htag]
    · show fillNext cacheable s i = _
      simp [fillNext, hreq, hack]
    · show clTagD s.hw = tagOf (Icache.next cacheable s.hw i).vaddrQ
      rw [hvaddr, htag]
    · show idxOf s.hw.vaddrQ = idxOf (Icache.next cacheable s.hw i).vaddrQ
      rw [hvaddr]
    · intro hnc
      have hnc : paddrIsNc cacheable s.hw = true := hnc
      have hoff : (Icache.next cacheable s.hw i).clOffsetQ = s.hw.clOffsetQ &&& 1 := by
        simp [Icache.next, clOffsetD, hacc, hnc, hreq]
      refine ⟨?_, ?_, huncached ?_⟩
      · show (Icache.next cacheable s.hw i).clOffsetQ = offsetOf (Icache.next cacheable s.hw i).vaddrQ &&& 1
        rw [hoff, hvaddr]
        rcases ok.offset (.inl hread) with h | ⟨h, -⟩
        · rw [h]
        · rw [h, BitVec.and_assoc]
          rfl
      · show (memData cacheable s.hw).off = offsetOf (Icache.next cacheable s.hw i).vaddrQ &&& 2
        rw [hvaddr]
        simp [memData, hnc]
      · simpa [Uncached, paddrIsNc, htag] using hnc
    · intro hnc
      have hnc : paddrIsNc cacheable s.hw = false := hnc
      show (Icache.next cacheable s.hw i).clOffsetQ = offsetOf (Icache.next cacheable s.hw i).vaddrQ
      rw [hvaddr]
      have hoff : (Icache.next cacheable s.hw i).clOffsetQ = s.hw.clOffsetQ := by
        simp [Icache.next, clOffsetD, hacc, hnc]
      rw [hoff]
      rcases ok.offset (.inl hread) with h | ⟨-, h⟩
      · exact h
      · simp only [paddrIsNc, htag, Bool.or_eq_false_iff, Bool.not_eq_false'] at hnc
        simp [Uncached, hnc] at h
    · intro hcen _ w hv
      have hcen := hen hcen
      rw [show (s.next cacheable i).hw.vaddrQ = s.hw.vaddrQ from hvaddr] at hv ⊢
      obtain ⟨hsame, hold⟩ := hkept w hv
      show (tagsNext cacheable s.hw i (idxOf s.hw.vaddrQ) w).tag ≠ _
      rw [hsame]
      intro heq
      have hrd := ((ok.rdata hread hcen).2 w).1
      have hhit : anyWay (clHit s.hw) = true := by
        simp only [anyWay, decide_eq_true_eq]
        exact ⟨w, by simp [clHit, hrd, htag, heq, hold]⟩
      simp [hhit, hcen] at hmiss
  · have hm := ok.miss hmiss
    have htag : clTagD s.hw = s.hw.clTagQ := by simp [clTagD, areq, fetchReq, hmiss]
    have hoff : (Icache.next cacheable s.hw i).clOffsetQ = s.hw.clOffsetQ := by
      simp [Icache.next, clOffsetD, hacc, hreq]
    have hfill : fillNext cacheable s i = s.fill := by simp [fillNext, hreq, hrtrn]
    refine ⟨?_, hcmp, ?_, ?_⟩
    · show clTagD s.hw = tagOf (Icache.next cacheable s.hw i).vaddrQ
      rw [hvaddr, htag, hm.clTag]
    · obtain ⟨r, hr, hrtag, hridx, hnc, hc⟩ := hm.fill
      refine ⟨r, hfill.trans hr, ?_⟩
      rw [show (s.next cacheable i).hw.vaddrQ = s.hw.vaddrQ from hvaddr,
        show (s.next cacheable i).hw.clOffsetQ = s.hw.clOffsetQ from hoff]
      exact ⟨hrtag, hridx, fun h => ⟨(hnc h).1, (hnc h).2.1, huncached (hnc h).2.2⟩, hc⟩
    · intro hcen hcache w hv
      rw [show (s.next cacheable i).hw.vaddrQ = s.hw.vaddrQ from hvaddr] at hv hcache ⊢
      obtain ⟨hsame, hold⟩ := hkept w hv
      show (tagsNext cacheable s.hw i (idxOf s.hw.vaddrQ) w).tag ≠ _
      rw [hsame]
      exact hm.absent (hen hcen) hcache w hold

theorem Ok.fill_next (ok : Ok cacheable H s) (hfills : Fills H' s i) :
    (fillNext cacheable s i).isSome = waiting (fsm cacheable s.hw i).stateD := by
  have hrtrn : rtrns i .IFILL_ACK = true → waiting s.hw.state = true := by
    intro h
    obtain ⟨r, hr, -⟩ := hfills h
    rw [← ok.fill_iff, hr]
    rfl
  have hfill := ok.fill_iff
  have hex : (areq s.hw).fetchException = false := rfl
  cases hst : s.hw.state <;> rw [hst] at hrtrn hfill <;>
    simp only [fillNext, fsm, hst, fsmFlush, fsmIdle, fsmRead, fsmTlbMiss, fsmMiss, idleFsm] <;>
    split_ifs <;> simp_all [waiting]

theorem Ok.current_next (ok : Ok cacheable H s) :
    (currentNext cacheable s i).map Prod.snd =
      if serving (fsm cacheable s.hw i).stateD then some (vaddrD cacheable s.hw i) else none := by
  cases htake : takes cacheable s i with
  | true =>
      simp only [takes, Bool.and_eq_true, Bool.not_eq_true'] at htake
      have hst := (of_accepts htake.1).2.2.2.2.2
      rw [htake.2] at hst
      simp [currentNext, takes, htake, hst, serving, vaddrD]
  | false =>
      obtain ⟨hserving, hkeeps⟩ := serving_next htake
      rw [Bool.and_assoc, ← Bool.not_or] at hserving
      change serving _ = (serving s.hw.state && !(validO cacheable s i || drops s i)) at hserving
      cases hdrop : validO cacheable s i || drops s i with
      | true =>
        have hnot : serving (fsm cacheable s.hw i).stateD = false := by
          rw [hserving, hdrop]
          simp
        simp [currentNext, htake, hdrop, hnot]
      | false =>
        have hsame : serving (fsm cacheable s.hw i).stateD = serving s.hw.state := by
          rw [hserving, hdrop]
          simp
        have hcur : currentNext cacheable s i = s.current := by
          simp only [currentNext, htake, hdrop, Bool.false_eq_true, if_false]
        rw [hcur, ok.current_eq, hsame]
        cases hserv : serving s.hw.state with
        | false => rfl
        | true => simp [vaddrD, hkeeps (hsame.trans hserv)]

theorem flush_next (h : (fsm cacheable s.hw i).flushD = true) :
    serving (fsm cacheable s.hw i).stateD = false := by
  have hex : (areq s.hw).fetchException = false := rfl
  cases hst : s.hw.state <;>
    simp only [fsm, hst, fsmFlush, fsmIdle, fsmRead, fsmTlbMiss, fsmMiss, idleFsm] at h ⊢ <;>
    split_ifs at h ⊢ <;> simp_all [serving, areq, fetchReq]

theorem Ok.flushCnt_next (ok : Ok cacheable H s) (h : (fsm cacheable s.hw i).stateD ≠ .FLUSH) :
    flushCntD cacheable s.hw i = 0 := by
  by_cases hst : s.hw.state = .FLUSH
  · cases hdone : flushDone s.hw with
    | true => simp [flushCntD, hdone]
    | false => simp [fsm, hst, fsmFlush, idleFsm, hdone] at h
  · have hcnt := ok.flushCnt hst
    simp [flushCntD, flushDone, hcnt, flushEn_iff, hst]

theorem Ok.cleared_next (ok : Ok cacheable H s) (h : (fsm cacheable s.hw i).stateD = .FLUSH)
    {x : Idx} (hx : x < flushCntD cacheable s.hw i) (w : Way) :
    (tagsNext cacheable s.hw i x w).vld = false := by
  by_contra hv
  rw [Bool.not_eq_false] at hv
  by_cases hst : s.hw.state = .FLUSH
  · have hdone : flushDone s.hw = false := by
      by_contra hd
      rw [Bool.not_eq_false] at hd
      simp [fsm, hst, fsmFlush, idleFsm, hd] at h
    have hcnt : flushCntD cacheable s.hw i = s.hw.flushCntQ + 1 := by
      simp [flushCntD, hdone, flushEn_iff, hst]
    rcases line_next hv with ⟨hwren, -⟩ | ⟨-, -, hold, hne⟩
    · simp [(of_cacheWren hwren).1] at hst
    · have hlt : x < s.hw.flushCntQ := by
        have := hne hst
        simp only [flushDone, beq_eq_false_iff_ne] at hdone
        rw [hcnt] at hx
        bv_omega
      simp [ok.cleared hst x hlt w] at hold
  · have hcnt := ok.flushCnt hst
    have : flushCntD cacheable s.hw i = 0 := by
      simp [flushCntD, flushDone, hcnt, flushEn_iff, hst]
    rw [this] at hx
    simp at hx

theorem Ok.offset_next (ok : Ok cacheable H s)
    (h : (fsm cacheable s.hw i).stateD = .READ ∨ (fsm cacheable s.hw i).stateD = .TLB_MISS) :
    clOffsetD cacheable s.hw i = offsetOf (vaddrD cacheable s.hw i) ∨
      clOffsetD cacheable s.hw i = offsetOf (vaddrD cacheable s.hw i) &&& 1 ∧
        Uncached cacheable (Icache.next cacheable s.hw i) := by
  cases hacc : accepts cacheable s.hw i with
  | true => simp [clOffsetD, vaddrD, hacc]
  | false =>
      have hst : s.hw.state = .READ ∨ s.hw.state = .TLB_MISS := by
        have hex : (areq s.hw).fetchException = false := rfl
        revert h hacc
        cases hst : s.hw.state <;>
          simp only [accepts, fsm, hst, fsmFlush, fsmIdle, fsmRead, fsmTlbMiss, fsmMiss, idleFsm] <;>
          split_ifs <;> simp_all
      have htag := clTagD_of_serving hst
      have hflush : s.hw.state ≠ .FLUSH := by
        rcases hst with hst | hst <;> simp [hst]
      have huncached (hu : Uncached cacheable s.hw) :
          Uncached cacheable (Icache.next cacheable s.hw i) := by
        rcases hu with hu | hu
        · left
          cases hc : (fsm cacheable s.hw i).cacheEnD with
          | false => exact hc
          | true =>
              rcases cacheEn_next hc with h | ⟨h, -⟩
              · simp [h] at hu
              · exact absurd h hflush
        · right
          simpa [Icache.next, vaddrD, hacc] using hu
      have hold := ok.offset hst
      have hvaddr : vaddrD cacheable s.hw i = s.hw.vaddrQ := by simp [vaddrD, hacc]
      rw [hvaddr]
      by_cases hnc : (paddrIsNc cacheable s.hw && (fsm cacheable s.hw i).memDataReq) = true
      · right
        have hoff : clOffsetD cacheable s.hw i = s.hw.clOffsetQ &&& 1 := by
          simp only [clOffsetD, hacc, Bool.false_eq_true, if_false, hnc, if_true]
        refine ⟨?_, huncached ?_⟩
        · rw [hoff]
          rcases hold with h | ⟨h, -⟩
          · rw [h]
          · rw [h, BitVec.and_assoc]
            rfl
        · rw [Bool.and_eq_true] at hnc
          simpa [Uncached, paddrIsNc, htag] using hnc.1
      · have hoff : clOffsetD cacheable s.hw i = s.hw.clOffsetQ := by
          simp only [clOffsetD, hacc, Bool.false_eq_true, if_false, hnc]
        rw [hoff]
        exact hold.imp id fun h => ⟨h.1, huncached h.2⟩

theorem Ok.next (ok : Ok cacheable H s) (hfills : Fills H' s i)
    (hmono : i.flush = false → ∀ a v, H a v → H' a v) :
    Ok cacheable H' (s.next cacheable i) where
  fill_iff := ok.fill_next hfills
  current_eq := ok.current_next
  current_last := by
    intro r hr
    show r.1 + 1 = if takes cacheable s i then s.accepted + 1 else s.accepted
    have hr : r ∈ currentNext cacheable s i := hr
    unfold currentNext at hr
    split_ifs at hr with htake hdrop
    · rw [if_pos htake]
      simp only [Option.mem_def, Option.some.injEq] at hr
      simp [← hr]
    · simp at hr
    · rw [if_neg htake]
      exact ok.current_last r hr
  flushCnt := ok.flushCnt_next
  cleared := fun h x hx w => ok.cleared_next h hx w
  flushQ := flush_next
  replWayOh := by
    intro w w' hw hw'
    have hw : (if s.hw.cmpEnQ then bin2oh (replWay s.hw i) else s.hw.replWayOhQ) w = true := hw
    have hw' : (if s.hw.cmpEnQ then bin2oh (replWay s.hw i) else s.hw.replWayOhQ) w' = true := hw'
    split_ifs at hw hw'
    · simp only [bin2oh, beq_iff_eq] at hw hw'
      rw [hw, hw']
    · exact ok.replWayOh w w' hw hw'
  unique := by
    intro hen
    rcases cacheEn_next hen with h | ⟨hst, hdone, -⟩
    · exact ok.unique_next (ok.unique h)
    · intro x w w' hw
      have hw : (tagsNext cacheable s.hw i x w).vld = true := hw
      simp [ok.empty_of_flushDone hst hdone] at hw
  lines := ok.lines_next hfills hmono
  rdata := by
    intro hst hen
    rcases cacheEn_next hen with h | ⟨-, -, h⟩
    · exact ⟨((of_stateD_read hst).2.2.1 h).2, rdata_next hst h⟩
    · have hst : (fsm cacheable s.hw i).stateD = .READ := hst
      simp [hst] at h
  offset := ok.offset_next
  miss := ok.miss_next

end Kept

/-! ## Answers -/

section Answers

variable {cacheable} {H H' : WordAddr → XLen → Prop} {s : State} {i : Input}

theorem lzcWay_of_any {m : Way → Bool} (h : anyWay m = true) : m (lzcWay m) = true := by
  simp only [anyWay, decide_eq_true_eq] at h
  obtain ⟨w, hw⟩ := h
  unfold lzcWay
  cases hfind : (List.finRange 4).find? m with
  | none => exact absurd hw (List.find?_eq_none.mp hfind w (List.mem_finRange w))
  | some j => exact List.find?_some hfind

/-- The cache answers from a hit, or from the fill it waited for. -/
theorem of_validO (h : validO cacheable s i = true) :
    drops s i = false ∧
      (s.hw.state = .READ ∧ anyWay (clHit s.hw) = true ∧ s.hw.cacheEnQ = true ∨
        s.hw.state = .MISS ∧ rtrns i .IFILL_ACK = true) := by
  have hex : (areq s.hw).fetchException = false := rfl
  unfold validO at h
  unfold drops
  cases hst : s.hw.state <;>
    simp only [fsm, hst, fsmFlush, fsmIdle, fsmRead, fsmTlbMiss, fsmMiss, idleFsm] at h ⊢ <;>
    split_ifs at h ⊢ <;> simp_all

theorem Ok.answer_hit (ok : Ok cacheable H s) (hst : s.hw.state = .READ)
    (hhit : anyWay (clHit s.hw) = true) (hen : s.hw.cacheEnQ = true) :
    H (wordOf s.hw.vaddrQ) (dataO s.hw i) := by
  have hw := lzcWay_of_any hhit
  set w := lzcWay (clHit s.hw) with hwdef
  obtain ⟨hcmp, hrd⟩ := ok.rdata hst hen
  have hflushQ : s.hw.flushQ = false := by
    cases hf : s.hw.flushQ with
    | false => rfl
    | true => simpa [hst, serving] using ok.flushQ hf
  simp only [clHit, clTagD_of_serving (.inl hst), (hrd w).1, Bool.and_eq_true, beq_iff_eq] at hw
  obtain ⟨hcache, hH⟩ := ok.lines hen hflushQ (by simp [hst]) _ w hw.2
  have hoff : s.hw.clOffsetQ = offsetOf s.hw.vaddrQ := by
    rcases ok.offset (.inl hst) with h | ⟨-, h | h⟩
    · exact h
    · simp [hen] at h
    · rw [hw.1] at hcache
      simp [hcache] at h
  have hdata : dataO s.hw i = s.hw.data (idxOf s.hw.vaddrQ) w (offsetOf s.hw.vaddrQ) := by
    simp only [dataO, hcmp, if_true, ← hwdef, (hrd w).2, hoff]
  rw [hdata, ← wordIn_of, ← hw.1]
  exact hH _

theorem Ok.answer_fill (ok : Ok cacheable H s) (hfills : Fills H' s i) (hst : s.hw.state = .MISS)
    (hrtrn : rtrns i .IFILL_ACK = true) (hflush : i.flush = false) :
    H' (wordOf s.hw.vaddrQ) (dataO s.hw i) := by
  have hm := ok.miss hst
  obtain ⟨r, hr, htag, hidx, hnc, hc⟩ := hm.fill
  obtain ⟨r', hr', hfill⟩ := hfills hrtrn
  have hfill := hfill (ok.current_ne (by simp [hst, serving])) hflush
  obtain rfl : r = r' := Option.some.inj (hr.symm.trans hr')
  have hdata : dataO s.hw i = i.memRtrn.data s.hw.clOffsetQ := by simp [dataO, hm.cmpEn]
  rw [hdata, ← wordIn_of, ← htag, ← hidx]
  cases hn : r.nc with
  | false =>
      simp only [FillOk, hn, Bool.false_eq_true, if_false] at hfill
      rw [hc hn]
      exact hfill _
  | true =>
      obtain ⟨hoff, hroff, -⟩ := hnc hn
      simp only [FillOk, hn, if_true] at hfill
      have hsplit : ∀ k : Offset, (k &&& 2) ||| (k &&& 1) = k := by decide
      have := hfill (offsetOf s.hw.vaddrQ)
      rw [hroff, hsplit, ← hoff] at this
      exact this

theorem Ok.answer (ok : Ok cacheable H s) (hfills : Fills H' s i)
    (hmono : i.flush = false → ∀ a v, H a v → H' a v) (h : validO cacheable s i = true) :
    drops s i = false ∧ s.current.map Prod.snd = some s.hw.vaddrQ ∧
      H' (wordOf s.hw.vaddrQ) (dataO s.hw i) := by
  obtain ⟨hdrop, hfrom⟩ := of_validO h
  have hflush : i.flush = false := by
    simp only [drops, flushPending, Bool.or_eq_false_iff] at hdrop
    exact hdrop.2.2
  rcases hfrom with ⟨hst, hhit, hen⟩ | ⟨hst, hrtrn⟩
  · exact ⟨hdrop, by simp [ok.current_eq, hst, serving], hmono hflush _ _ (ok.answer_hit hst hhit hen)⟩
  · exact ⟨hdrop, by simp [ok.current_eq, hst, serving], ok.answer_fill hfills hst hrtrn hflush⟩

/-- `cl_hit` is one-hot or zero whenever it is used. -/
theorem Ok.clHit_unique (ok : Ok cacheable H s) (hst : s.hw.state = .READ)
    (hen : s.hw.cacheEnQ = true) {w w' : Way} (hw : clHit s.hw w = true) (hw' : clHit s.hw w' = true) :
    w = w' := by
  obtain ⟨-, hrd⟩ := ok.rdata hst hen
  simp only [clHit, (hrd _).1, Bool.and_eq_true, beq_iff_eq] at hw hw'
  exact ok.unique hen _ w w' hw.2 hw'.2 (hw.1.trans hw'.1.symm)

end Answers

end Cva6.Icache
