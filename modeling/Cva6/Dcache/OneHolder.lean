import Cva6.Dcache.Lines
/-!
# No line is held twice

A refill writes a line that no way of its set holds. The line was absent when the read missed,
and a refill for the other port since then is remembered as a collision while the miss waits:
the port then looks the line up again.
-/

namespace Cva6.Dcache

open Cva6.Sync

/-! ## Sets and lines -/

def Unique (set : Way → TagLine) : Prop :=
  ∀ w w', (set w).vld = true → (set w').vld = true → (set w).tag = (set w').tag → w = w'

def Absent (s : Hw) (line : Tag × Idx) : Prop :=
  ∀ way, s.mem.tags line.2 way ≠ ⟨true, line.1⟩

/-- A flush is under way and has not reached the set yet. -/
def Awaited (s : Hw) (idx : Idx) : Prop :=
  s.miss.state = .FLUSH ∧ s.miss.cnt.toNat ≤ idx.toNat

def mshrLine (s : Hw) : Tag × Idx := s.miss.mshr.paddr.word.line

def missLine (s : Hw) (p : Fin 2) : Tag × Idx := (Ctrl.missPaddr (s.ctrl p)).word.line

/-- What the port asks for is not in the cache, as far as the cache is in use. -/
def Clean (s : Hw) (p : Fin 2) : Prop := cacheEn s = true → Absent s (missLine s p)

/-- The tag SRAMs show a set, which they still hold, for the port. -/
structure TagRead (s : Hw) (p : Port) (idx : Idx) : Prop where
  sel : s.mem.vldSelQ = p
  cmpEn : s.mem.cmpEnQ = true
  tags : s.mem.tagRdata = s.mem.tags idx

structure ReadOut (s : Hw) (p : Fin 2) : Prop extends
    TagRead s (.rd p) (s.ctrl p).addressIdxQ where
  idx : s.mem.bankIdxQ = (s.ctrl p).addressIdxQ
  off : s.mem.bankOffQ = (s.ctrl p).addressOffQ
  data : s.mem.bankRdata (s.ctrl p).addressOffQ =
    s.mem.data (s.ctrl p).addressOffQ (s.ctrl p).addressIdxQ

/-! ## The invariant -/

structure Held (s : Hw) : Prop where
  unique : ∀ idx, Awaited s idx ∨ Unique (s.mem.tags idx)
  counter : s.miss.state ≠ .FLUSH → s.miss.cnt = 0
  cleared : s.miss.state = .FLUSH → ∀ idx, idx.toNat < s.miss.cnt.toNat →
    ∀ way, (s.mem.tags idx way).vld = false
  drained : s.miss.state = .FLUSH → s.miss.mshrVldQ = false
  mshr : s.miss.mshrVldQ = true → s.miss.mshr.nc = false → Absent s (mshrLine s)
  loadWait : s.miss.state = .LOAD_WAIT → s.miss.mshrVldQ = false ∧
    ∃ p, lowestPort s.miss.missReqMaskedQ = .rd p ∧ Ctrl.missReq (s.ctrl p) = true ∧ Clean s p
  /-- A port whose line may have come in since its lookup is going to look it up again. -/
  looked : ∀ p, Ctrl.missReq (s.ctrl p) = true →
    s.miss.rdrdCollisionQ (.rd p) = true ∨ Clean s p
  read : ∀ p, (s.ctrl p).rdAckQ = true → ReadOut s p
  lookup : s.mem.cmpEnQ = true → Unique s.mem.tagRdata

theorem held_start (z : Start) : Held (start z).hw where
  unique _ := .inl ⟨rfl, Nat.zero_le _⟩
  counter h := absurd rfl h
  cleared _ _ h := absurd h (Nat.not_lt_zero _)
  drained _ := rfl
  mshr := nofun
  loadWait := nofun
  looked := nofun
  read := nofun
  lookup := nofun

variable {cfg : Cfg} {s : Hw} {i : Input} {line : Tag × Idx} {idx : Idx} {p : Fin 2}

/-! ## Tag lookups -/

theorem TagRead.hit_iff {q : Port} (h : TagRead s q idx) (way : Way) :
    rdHitOh s i way = true ↔ s.mem.tags idx way = ⟨true, rdTag s i q⟩ := by
  show (rdTag s i s.mem.vldSelQ == (s.mem.tagRdata way).tag && (s.mem.tagRdata way).vld &&
    s.mem.cmpEnQ) = true ↔ _
  rw [h.sel, h.cmpEn, h.tags, Bool.and_true, Bool.and_eq_true, beq_iff_eq]
  constructor
  · rintro ⟨htag, hvld⟩
    rw [htag, ← hvld]
  · intro heq
    rw [heq]
    exact ⟨rfl, rfl⟩

theorem rdReqs_readReq : Mem.rdReqs (readReq cfg s i) = rdReqs s i := by
  funext p
  cases p <;> rfl

theorem tagRead_next {q : Port} (hack : rdAck cfg s i q = true) :
    i.rdSel = q ∧ (wrCl cfg s i).vld = false ∧
      Mem.rdAcked (wrCl cfg s i) (Mem.rdReqs (readReq cfg s i)) = true ∧
      TagRead (hwNext cfg s i) q (readReq cfg s i q).idx := by
  have hack : Mem.rdAck (wrCl cfg s i) (rdReqs s i) i.rdSel q = true := hack
  simp only [Mem.rdAck, Bool.and_eq_true, Bool.not_eq_true', beq_iff_eq] at hack
  obtain ⟨⟨hreq, hsel⟩, hcl⟩ := hack
  have hreq : rdReqs s i q = true := by
    cases q with
    | rd p => exact hreq
    | wr => exact (Bool.and_eq_true _ _ ▸ hreq).1
  have hany : anyPort (rdReqs s i) = true := anyPort_of hreq
  have hacked : Mem.rdAcked (wrCl cfg s i) (Mem.rdReqs (readReq cfg s i)) = true := by
    rw [rdReqs_readReq, Mem.rdAcked, hany, hcl]
    rfl
  refine ⟨hsel.symm, hcl, hacked, hsel.symm, hacked, ?_⟩
  funext way
  show Mem.tagRdataNext s.mem (wrCl cfg s i) (readReq cfg s i) i.rdSel way =
    Mem.tagsNext s.mem (wrCl cfg s i) (readReq cfg s i q).idx way
  simp only [Mem.tagRdataNext, Mem.tagsNext, hcl, hacked, ← hsel, Bool.false_and, if_true,
    Bool.false_eq_true, if_false]

/-! ## Line writes -/

structure Refills (cfg : Cfg) (s : Hw) (i : Input) (idx : Idx) (way : Way) : Prop where
  en : Missunit.clWriteEn s.miss (missIn cfg s i) = true
  state : s.miss.state ≠ .FLUSH
  set : idx = (mshrLine s).2
  repl : way = s.miss.mshr.replWay
  line : (hwNext cfg s i).mem.tags idx way = ⟨true, (mshrLine s).1⟩

theorem of_clWriteEn (h : Missunit.clWriteEn s.miss (missIn cfg s i) = true) :
    s.miss.mshrVldQ = true ∧ s.miss.mshr.nc = false ∧ (wrCl cfg s i).vld = true := by
  simp only [Missunit.clWriteEn, Missunit.loadAck, Bool.and_eq_true, Bool.not_eq_true'] at h
  refine ⟨h.1.2, h.2, ?_⟩
  simp [wrCl, Missunit.wrCl, Missunit.loadAck, h.1.1, h.1.2]

theorem of_vld_tags_next {way : Way} (hv : ((hwNext cfg s i).mem.tags idx way).vld = true) :
    ((hwNext cfg s i).mem.tags idx way = s.mem.tags idx way ∧
        (s.miss.state = .FLUSH → idx ≠ s.miss.cnt)) ∨ Refills cfg s i idx way := by
  have hnext : (hwNext cfg s i).mem.tags idx way =
      Mem.tagsNext s.mem (wrCl cfg s i) idx way := rfl
  rw [hnext, Mem.tagsNext] at hv
  by_cases hw : ((wrCl cfg s i).vld && (wrCl cfg s i).we way && idx == (wrCl cfg s i).idx) = true
  · rw [if_pos hw] at hv
    have hbits : (wrCl cfg s i).vldBits way = true := hv
    have hline : (hwNext cfg s i).mem.tags idx way = ⟨true, (mshrLine s).1⟩ := by
      rw [hnext, Mem.tagsNext, if_pos hw, hbits]
      rfl
    have hbits : (if Missunit.flushEn s.miss then fun _ => false
      else if Missunit.invVld (missIn cfg s i) then fun _ => false
      else if Missunit.clWriteEn s.miss (missIn cfg s i) then bin2oh s.miss.mshr.replWay
      else fun _ => false : WayMask) way = true := hbits
    split_ifs at hbits with hflush hinv hen
    rw [Bool.and_eq_true, beq_iff_eq] at hw
    refine .inr ⟨hen, ?_, ?_, beq_iff_eq.mp hbits, hline⟩
    · intro hs
      exact hflush (by simp [Missunit.flushEn, hs])
    · rw [hw.2]
      show (if Missunit.flushEn s.miss then s.miss.cnt
        else if Missunit.invVld (missIn cfg s i) then i.memRtrn.inv.idx
        else s.miss.mshr.paddr.word.idx) = s.miss.mshr.paddr.word.idx
      rw [if_neg hflush, if_neg hinv]
  · refine .inl ⟨by rw [hnext, Mem.tagsNext, if_neg hw], ?_⟩
    intro hflush heq
    obtain ⟨hvld, hwe, hidx⟩ := wrCl_vld_of_flush cfg i hflush
    exact hw (by simp [hvld, hwe, hidx, heq])

theorem Absent.next (h : Absent s line)
    (hne : Missunit.clWriteEn s.miss (missIn cfg s i) = true → mshrLine s ≠ line) :
    Absent (hwNext cfg s i) line := by
  intro way heq
  rcases of_vld_tags_next (congrArg TagLine.vld heq) with ⟨hold, -⟩ | hr
  · exact h way (hold.symm.trans heq)
  · refine hne hr.en (Prod.ext ?_ hr.set.symm)
    exact congrArg TagLine.tag (hr.line.symm.trans heq)

/-- A set stays without duplicates when the line that is refilled is absent. -/
theorem Unique.next (h : Unique (s.mem.tags idx))
    (hm : Missunit.clWriteEn s.miss (missIn cfg s i) = true → Absent s (mshrLine s)) :
    Unique ((hwNext cfg s i).mem.tags idx) := by
  have hmiss {w w' : Way} (hr : Refills cfg s i idx w)
      (hold : (hwNext cfg s i).mem.tags idx w' = s.mem.tags idx w')
      (hv : ((hwNext cfg s i).mem.tags idx w').vld = true)
      (ht : ((hwNext cfg s i).mem.tags idx w).tag = ((hwNext cfg s i).mem.tags idx w').tag) :
      False := by
    refine hm hr.en w' ?_
    rw [hr.line, hold] at ht
    rw [hold] at hv
    rw [← hr.set, ← hv]
    exact congrArg (TagLine.mk _) ht.symm
  intro w w' hv hv' ht
  rcases of_vld_tags_next hv with ⟨hold, -⟩ | hr <;>
    rcases of_vld_tags_next hv' with ⟨hold', -⟩ | hr'
  · rw [hold] at hv ht
    rw [hold'] at hv' ht
    exact h w w' hv hv' ht
  · exact (hmiss hr' hold hv ht.symm).elim
  · exact (hmiss hr hold' hv' ht).elim
  · exact hr.repl.trans hr'.repl.symm

/-! ## The flush -/

variable (cfg i) in
/-- A flush goes on with the next set, or ends with the last one. -/
theorem flush_next (hflush : s.miss.state = .FLUSH) :
    (Missunit.flushDone s.miss = true ∧ (hwNext cfg s i).miss.state = .IDLE) ∨
      ((hwNext cfg s i).miss.state = .FLUSH ∧
        (hwNext cfg s i).miss.cnt.toNat = s.miss.cnt.toNat + 1) := by
  have hstate : (hwNext cfg s i).miss.state =
      if Missunit.flushDone s.miss then .IDLE else .FLUSH := by
    show Missunit.stateD s.miss (missIn cfg s i) = _
    simp [Missunit.stateD, hflush]
  have hcnt : (hwNext cfg s i).miss.cnt = s.miss.cnt + 1 := by
    show (if Missunit.flushEn s.miss then s.miss.cnt + 1 else 0 : Idx) = _
    simp [Missunit.flushEn, hflush]
  rw [hstate, hcnt]
  cases hdone : Missunit.flushDone s.miss with
  | true => exact .inl ⟨rfl, rfl⟩
  | false =>
      have hne : s.miss.cnt ≠ 255 := by
        rw [Missunit.flushDone, beq_eq_false_iff_ne] at hdone
        exact hdone
      refine .inr ⟨rfl, ?_⟩
      have hlt := s.miss.cnt.isLt
      have hne : s.miss.cnt.toNat ≠ 255 := fun heq => hne (BitVec.eq_of_toNat_eq heq)
      rw [BitVec.toNat_add]
      show (s.miss.cnt.toNat + 1) % 2 ^ 8 = _
      omega

namespace Held

variable (cfg i) in
theorem cleared_next (h : Held s) (hflush : s.miss.state = .FLUSH)
    (hle : idx.toNat ≤ s.miss.cnt.toNat) (way : Way) :
    ((hwNext cfg s i).mem.tags idx way).vld = false := by
  by_contra hv
  rcases of_vld_tags_next (Bool.not_eq_false _ ▸ hv) with ⟨hold, hne⟩ | hr
  · have hlt : idx.toNat < s.miss.cnt.toNat :=
      lt_of_le_of_ne hle fun heq => hne hflush (BitVec.eq_of_toNat_eq heq)
    rw [hold, h.cleared hflush idx hlt way] at hv
    exact hv rfl
  · exact hr.state hflush

/-- After a flush the cache is empty. -/
theorem absent_of_flushDone (h : Held s) (hflush : s.miss.state = .FLUSH)
    (hdone : Missunit.flushDone s.miss = true) (line : Tag × Idx) :
    Absent (hwNext cfg s i) line := by
  intro way heq
  have hcnt : s.miss.cnt = 255 := beq_iff_eq.mp hdone
  have hle : line.2.toNat ≤ s.miss.cnt.toNat := by
    rw [hcnt]
    exact Nat.le_of_lt_succ line.2.isLt
  have hv := h.cleared_next cfg i hflush hle way
  rw [heq] at hv
  cases hv

/-! ## The miss unit -/

/-- A read is sent while no miss is outstanding, for a port whose line is absent. -/
theorem clean_of_sendsLoad (h : Held s)
    (hs : Missunit.sendsLoad s.miss (missIn cfg s i) = true) :
    s.miss.mshrVldQ = false ∧ ∃ p, Missunit.missPortIdx s.miss (missIn cfg s i) = .rd p ∧
      Ctrl.missReq (s.ctrl p) = true ∧ Clean s p := by
  have hload (hstate : s.miss.state = .LOAD_WAIT) : ∃ p,
      lowestPort s.miss.missReqMaskedQ = .rd p ∧ Ctrl.missReq (s.ctrl p) = true := by
    obtain ⟨-, p, hport, hreq, -⟩ := h.loadWait hstate
    exact ⟨p, hport, hreq⟩
  obtain ⟨p, hport, hreq⟩ := port_of_sendsLoad hload hs
  cases hstate : s.miss.state <;> simp only [Missunit.sendsLoad, hstate] at hs
  case IDLE =>
    rw [Bool.and_eq_true] at hs
    obtain ⟨hmiss, hidle⟩ := hs
    constructor
    · -- a read is not taken from the port while another one is outstanding
      by_contra hv
      rw [Bool.not_eq_false] at hv
      simp only [Missunit.idleMiss, Bool.and_eq_true] at hmiss
      have hmasked := anyPort_iff.mp hmiss.2
      have hp : lowestPort (Missunit.missReqMasked s.miss (missIn cfg s i)) = .rd p := hport
      rw [hp] at hmasked
      simp [Missunit.missReqMasked, Missunit.lockReqs, Missunit.maskReads, hstate, hv, missIn]
        at hmasked
    · refine ⟨p, hport, hreq, ?_⟩
      simp only [Missunit.idleLoad, Bool.and_eq_true, Bool.not_eq_true'] at hidle
      have hcoll := hidle.1.2
      rw [hport, Missunit.rdrdCollisionD] at hcoll
      have hreq' : ((missIn cfg s i).miss (.rd p)).req = true := hreq
      rw [hreq', Bool.true_and, Bool.or_eq_false_iff] at hcoll
      refine (h.looked p hreq).resolve_left ?_
      rw [hcoll.1]
      exact Bool.false_ne_true
  case LOAD_WAIT =>
    obtain ⟨hv, p', hport', hreq', hclean⟩ := h.loadWait hstate
    refine ⟨hv, p', ?_, hreq', hclean⟩
    simpa [Missunit.missPortIdx, Missunit.missReqMasked, Missunit.lockReqs, hstate] using hport'
  all_goals cases hs

theorem mshr_next (h : Held s) (hv : (hwNext cfg s i).miss.mshrVldQ = true)
    (hnc : (hwNext cfg s i).miss.mshr.nc = false) :
    Absent (hwNext cfg s i) (mshrLine (hwNext cfg s i)) := by
  have hv : (if Missunit.mshrAllocate s.miss (missIn cfg s i) then true
    else if Missunit.loadAck s.miss (missIn cfg s i) then false else s.miss.mshrVldQ) = true := hv
  have hnc : (Missunit.mshrD s.miss (missIn cfg s i)).nc = false := hnc
  show Absent (hwNext cfg s i) (Missunit.mshrD s.miss (missIn cfg s i)).paddr.word.line
  unfold Missunit.mshrD at hnc ⊢
  split_ifs at hv hnc ⊢ with halloc hack
  · rw [Missunit.mshrAllocate, Bool.and_eq_true] at halloc
    obtain ⟨hidle, p, hport, -, hclean⟩ := h.clean_of_sendsLoad halloc.1
    rw [hport] at hnc ⊢
    have hnc : (!cacheEn s || !cfg.cacheable (s.ctrl p).addressTagQ) = false := hnc
    rw [Bool.or_eq_false_iff, Bool.not_eq_false'] at hnc
    refine Absent.next (hclean hnc.1) fun hen => ?_
    rw [(of_clWriteEn hen).1] at hidle
    cases hidle
  · refine Absent.next (h.mshr hv hnc) fun hen => ?_
    rw [Missunit.clWriteEn, Bool.and_eq_true] at hen
    exact absurd hen.1 hack

/-! ## The read ports -/

/-- The cache goes into use at the end of a flush only. -/
theorem cacheEn_next (hen : cacheEn (hwNext cfg s i) = true) : cacheEn s = true ∨
    s.miss.state = .FLUSH ∧ Missunit.flushDone s.miss = true := by
  have hen : (if s.miss.state == .FLUSH && Missunit.flushDone s.miss then i.enable
    else s.miss.enableQ && i.enable) = true := hen
  split at hen
  · rename_i hdone
    rw [Bool.and_eq_true, beq_iff_eq] at hdone
    exact .inr hdone
  · rw [Bool.and_eq_true] at hen
    exact .inl hen.1

theorem clean_next (h : Held s) (hreq : Ctrl.missReq (s.ctrl p) = true) (hclean : Clean s p)
    (hne : Missunit.clWriteEn s.miss (missIn cfg s i) = true → mshrLine s ≠ missLine s p) :
    Clean (hwNext cfg s i) p := by
  intro hen
  have hline : missLine (hwNext cfg s i) p = missLine s p :=
    congrArg (fun a : Paddr => a.word.line) (Ctrl.missPaddr_next hreq)
  rw [hline]
  rcases cacheEn_next hen with hen | ⟨hflush, hdone⟩
  · exact Absent.next (hclean hen) hne
  · exact h.absent_of_flushDone hflush hdone _

theorem clean_of_missed (h : Held s) (hm : Ctrl.Missed (s.ctrl p) (ctrlIn cfg s i p)) :
    Clean (hwNext cfg s i) p := by
  intro hen
  have hcl : (wrCl cfg s i).vld = false := hm.wrCl
  have hen : cacheEn s = true := by
    refine (cacheEn_next hen).resolve_right ?_
    rintro ⟨hflush, -⟩
    rw [(wrCl_vld_of_flush cfg i hflush).1] at hcl
    cases hcl
  have hread := h.read p hm.acked
  have hline : missLine (hwNext cfg s i) p =
      (Ctrl.addressTagD (s.ctrl p) (i.loads p), (s.ctrl p).addressIdxQ) :=
    Prod.ext rfl hm.idx
  rw [hline]
  refine Absent.next ?_ fun hwr => ?_
  · intro way heq
    have hmiss : rdHitOh s i way = false := any_eq_false.mp (hm.miss hen) way
    have hhit : rdHitOh s i way = true := (hread.hit_iff way).mpr heq
    rw [hmiss] at hhit
    cases hhit
  · rw [(of_clWriteEn hwr).2.2] at hcl
    cases hcl

theorem looked_next (h : Held s) (p : Fin 2)
    (hreq : Ctrl.missReq ((hwNext cfg s i).ctrl p) = true) :
    (hwNext cfg s i).miss.rdrdCollisionQ (.rd p) = true ∨ Clean (hwNext cfg s i) p := by
  rcases Ctrl.of_missReq_next hreq with hold | hmissed
  · have hcoll : (hwNext cfg s i).miss.rdrdCollisionQ (.rd p) =
        (s.miss.rdrdCollisionQ (.rd p) ||
          Missunit.rdrdCollision s.miss (missIn cfg s i) (.rd p)) := by
      have hreq' : ((missIn cfg s i).miss (.rd p)).req = true := hold
      show Missunit.rdrdCollisionD s.miss (missIn cfg s i) (.rd p) = _
      rw [Missunit.rdrdCollisionD, hreq', Bool.true_and]
    rw [hcoll, Bool.or_eq_true]
    rcases h.looked p hold with hq | hclean
    · exact .inl (.inl hq)
    · by_cases hc : Missunit.rdrdCollision s.miss (missIn cfg s i) (.rd p) = true
      · exact .inl (.inr hc)
      · refine .inr (h.clean_next hold hclean fun hen heq => hc ?_)
        have heq : s.miss.mshr.paddr.word.line =
          ((missIn cfg s i).miss (.rd p)).paddr.word.line := heq
        rw [Missunit.rdrdCollision, heq, (of_clWriteEn hen).1, beq_self_eq_true]
        rfl
  · exact .inr (h.clean_of_missed hmissed)

theorem loadWait_next (h : Held s) (hnext : (hwNext cfg s i).miss.state = .LOAD_WAIT) :
    (hwNext cfg s i).miss.mshrVldQ = false ∧
      ∃ p, lowestPort (hwNext cfg s i).miss.missReqMaskedQ = .rd p ∧
        Ctrl.missReq ((hwNext cfg s i).ctrl p) = true ∧ Clean (hwNext cfg s i) p := by
  have hnext : Missunit.stateD s.miss (missIn cfg s i) = .LOAD_WAIT := hnext
  obtain ⟨hload, hdata, hreplay⟩ := sendsLoad_of_loadWait hnext
  obtain ⟨hidle, p, hport, hreq, hclean⟩ := h.clean_of_sendsLoad hload
  have hdata : (missIn cfg s i).memDataAck = false := hdata
  constructor
  · show (if Missunit.mshrAllocate s.miss (missIn cfg s i) then true
      else if Missunit.loadAck s.miss (missIn cfg s i) then false else s.miss.mshrVldQ) = false
    simp [Missunit.mshrAllocate, hdata, hidle]
  · refine ⟨p, hport, missReq_next hreq ?_ (hreplay (.rd p)), ?_⟩
    · show Missunit.missAck s.miss (missIn cfg s i) (.rd p) = false
      simp [Missunit.missAck, hdata]
    · refine h.clean_next hreq hclean fun hen => ?_
      rw [(of_clWriteEn hen).1] at hidle
      cases hidle

/-! ## The SRAMs -/

theorem readOut_next (hack : ((hwNext cfg s i).ctrl p).rdAckQ = true) :
    ReadOut (hwNext cfg s i) p := by
  have hack : rdAck cfg s i (.rd p) = true := hack
  obtain ⟨hsel, hcl, hacked, htags⟩ := tagRead_next hack
  have hread : readReq cfg s i i.rdSel = readReq cfg s i (.rd p) := by rw [hsel]
  have hoff : ((hwNext cfg s i).ctrl p).addressOffQ = (readReq cfg s i (.rd p)).off := rfl
  have hidx : ((hwNext cfg s i).ctrl p).addressIdxQ = (readReq cfg s i (.rd p)).idx := rfl
  have hwrite : Mem.clWrite (wrCl cfg s i) = false := by rw [Mem.clWrite, hcl, Bool.false_and]
  refine ⟨htags, ?_, ?_, ?_⟩
  · show (if (wrCl cfg s i).vld then _ else (readReq cfg s i i.rdSel).idx) = _
    rw [hcl, if_neg Bool.false_ne_true, hread, hidx]
  · show (if (wrCl cfg s i).vld then _ else (readReq cfg s i i.rdSel).off) = _
    rw [hcl, if_neg Bool.false_ne_true, hread, hoff]
  · rw [hidx, hoff]
    have hbank : Mem.bankRead (wrCl cfg s i) (readReq cfg s i) i.rdSel
        (readReq cfg s i (.rd p)).off = true := by
      rw [Mem.bankRead, hacked, hread, beq_self_eq_true]
      rfl
    -- a word of the bank that is read is not written
    have hword : (Mem.wrAck (wrCl cfg s i) (readReq cfg s i) i.rdSel (wordWrite s) &&
        (readReq cfg s i (.rd p)).off == (wordWrite s).off) = false := by
      rw [Bool.and_eq_false_imp]
      intro hwr
      have hack : Mem.rdAck (wrCl cfg s i) (rdReqs s i) (.rd p) (.rd p) = true := by
        rw [rdAck, hsel] at hack
        exact hack
      rw [Mem.wrAck, hread, rdReqs_readReq, hsel, hack] at hwr
      simp only [Bool.and_eq_true, Bool.or_eq_true, Bool.true_and, Bool.not_eq_true'] at hwr
      exact hwr.2.resolve_left Bool.false_ne_true
    funext way
    show Mem.bankRdataNext s.mem (wrCl cfg s i) (readReq cfg s i) i.rdSel (wordWrite s)
        (readReq cfg s i (.rd p)).off way =
      Mem.dataNext s.mem (wrCl cfg s i) (readReq cfg s i) i.rdSel (wordWrite s)
        (readReq cfg s i (.rd p)).off (readReq cfg s i (.rd p)).idx way
    simp only [Mem.bankRdataNext, Mem.dataNext, hwrite, hbank, hword, hread, Bool.false_and,
      if_true, Bool.false_eq_true, if_false]

theorem lookup_next (h : Held s) (hcmp : (hwNext cfg s i).mem.cmpEnQ = true) :
    Unique (hwNext cfg s i).mem.tagRdata := by
  have hcmp : Mem.rdAcked (wrCl cfg s i) (Mem.rdReqs (readReq cfg s i)) = true := hcmp
  have hcl : (wrCl cfg s i).vld = false := by
    rw [Mem.rdAcked, Bool.and_eq_true, Bool.not_eq_true'] at hcmp
    exact hcmp.2
  have hread : (hwNext cfg s i).mem.tagRdata = s.mem.tags (readReq cfg s i i.rdSel).idx := by
    funext way
    show Mem.tagRdataNext s.mem (wrCl cfg s i) (readReq cfg s i) i.rdSel way = _
    simp only [Mem.tagRdataNext, hcl, hcmp, Bool.false_eq_true, if_false, if_true]
  rw [hread]
  refine (h.unique _).resolve_left ?_
  rintro ⟨hflush, -⟩
  rw [(wrCl_vld_of_flush cfg i hflush).1] at hcl
  cases hcl

/-! ## One cycle -/

theorem mshr_absent (h : Held s)
    (hen : Missunit.clWriteEn s.miss (missIn cfg s i) = true) : Absent s (mshrLine s) :=
  h.mshr (of_clWriteEn hen).1 (of_clWriteEn hen).2.1

theorem unique_next (h : Held s) (idx : Idx) :
    Awaited (hwNext cfg s i) idx ∨ Unique ((hwNext cfg s i).mem.tags idx) := by
  rcases h.unique idx with ⟨hflush, hle⟩ | hu
  · rcases Nat.lt_or_ge s.miss.cnt.toNat idx.toNat with hlt | hge
    · rcases flush_next cfg i hflush with ⟨hdone, -⟩ | ⟨hstate, hcnt⟩
      · have hcnt : s.miss.cnt = 255 := beq_iff_eq.mp hdone
        have hidx := idx.isLt
        rw [hcnt] at hlt
        exact absurd hlt (Nat.not_lt.mpr (Nat.le_of_lt_succ hidx))
      · exact .inl ⟨hstate, hcnt.trans_le hlt⟩
    · refine .inr fun w _ hv => ?_
      rw [h.cleared_next cfg i hflush hge w] at hv
      cases hv
  · exact .inr (hu.next fun hen => h.mshr_absent hen)

theorem of_flush_start (hstate : s.miss.state ≠ .FLUSH)
    (hnext : (hwNext cfg s i).miss.state = .FLUSH) :
    (hwNext cfg s i).miss.cnt = 0 ∧ (hwNext cfg s i).miss.mshrVldQ = false := by
  have hnext : Missunit.stateD s.miss (missIn cfg s i) = .FLUSH := hnext
  cases hs : s.miss.state <;> simp only [Missunit.stateD, hs] at hnext
  case IDLE =>
    split_ifs at hnext with hflush hempty
    rw [Bool.and_eq_true, Bool.not_eq_true'] at hempty
    have hidle : Missunit.idleMiss s.miss (missIn cfg s i) = false := by
      rw [Missunit.idleMiss, hflush]
      simp
    constructor
    · show (if Missunit.flushEn s.miss then s.miss.cnt + 1 else 0 : Idx) = 0
      simp [Missunit.flushEn, hs]
    · show (if Missunit.mshrAllocate s.miss (missIn cfg s i) then true
        else if Missunit.loadAck s.miss (missIn cfg s i) then false else s.miss.mshrVldQ) = false
      simp [Missunit.mshrAllocate, Missunit.sendsLoad, hs, hidle, hempty.2]
  case FLUSH => exact absurd hs hstate
  all_goals split_ifs at hnext

theorem next (h : Held s) : Held (hwNext cfg s i) where
  unique := h.unique_next
  counter hne := by
    show (if Missunit.flushEn s.miss then s.miss.cnt + 1 else 0 : Idx) = 0
    by_cases hflush : s.miss.state = .FLUSH
    · rcases flush_next cfg i hflush with ⟨hdone, -⟩ | ⟨hstate, -⟩
      · have hcnt : s.miss.cnt = 255 := beq_iff_eq.mp hdone
        simp [Missunit.flushEn, hflush, hcnt]
      · exact absurd hstate hne
    · simp [Missunit.flushEn, hflush]
  cleared hnext idx hlt way := by
    by_cases hflush : s.miss.state = .FLUSH
    · rcases flush_next cfg i hflush with ⟨-, hstate⟩ | ⟨-, hcnt⟩
      · rw [hstate] at hnext
        cases hnext
      · rw [hcnt] at hlt
        exact h.cleared_next cfg i hflush (Nat.le_of_lt_succ hlt) way
    · rw [(of_flush_start hflush hnext).1] at hlt
      exact absurd hlt (Nat.not_lt_zero _)
  drained hnext := by
    by_cases hflush : s.miss.state = .FLUSH
    · show (if Missunit.mshrAllocate s.miss (missIn cfg s i) then true
        else if Missunit.loadAck s.miss (missIn cfg s i) then false else s.miss.mshrVldQ) = false
      simp [Missunit.mshrAllocate, Missunit.sendsLoad, hflush, h.drained hflush]
    · exact (of_flush_start hflush hnext).2
  mshr := h.mshr_next
  loadWait := h.loadWait_next
  looked := h.looked_next
  read _ := readOut_next
  lookup := h.lookup_next

/-- `rd_hit_oh_o` is one-hot or zero. -/
theorem hit_unique (h : Held s) {w w' : Way} (hw : rdHitOh s i w = true)
    (hw' : rdHitOh s i w' = true) : w = w' := by
  have hw : (rdTag s i s.mem.vldSelQ == (s.mem.tagRdata w).tag && (s.mem.tagRdata w).vld &&
    s.mem.cmpEnQ) = true := hw
  have hw' : (rdTag s i s.mem.vldSelQ == (s.mem.tagRdata w').tag && (s.mem.tagRdata w').vld &&
    s.mem.cmpEnQ) = true := hw'
  simp only [Bool.and_eq_true, beq_iff_eq] at hw hw'
  exact h.lookup hw.2 w w' hw.1.2 hw'.1.2 (hw.1.1.symm.trans hw'.1.1)

/-- The data of a hit is that of the way that holds the line. -/
theorem rdata_of_hit (h : Held s) (hack : (s.ctrl p).rdAckQ = true)
    (hcl : (wrCl cfg s i).vld = false) {way : Way} (hhit : rdHitOh s i way = true) :
    s.mem.tags (s.ctrl p).addressIdxQ way = ⟨true, rdTag s i (.rd p)⟩ ∧
      rdata cfg s i = Mem.overlay s.wbuf.buffer
        ⟨rdTag s i (.rd p), (s.ctrl p).addressIdxQ, (s.ctrl p).addressOffQ⟩
        (s.mem.data (s.ctrl p).addressOffQ (s.ctrl p).addressIdxQ way) := by
  obtain ⟨htags, hidx, hoff, hdata⟩ := h.read p hack
  have hone : lzc (rdHitOh s i) = way :=
    h.hit_unique (lzc_of_any (any_iff.mpr ⟨way, hhit⟩)) hhit
  have haddr : Mem.wbufferCmpAddr s.mem (wrCl cfg s i) (rdTag s i) =
      ⟨rdTag s i (.rd p), (s.ctrl p).addressIdxQ, (s.ctrl p).addressOffQ⟩ := by
    rw [Mem.wbufferCmpAddr, hcl, if_neg Bool.false_ne_true, htags.sel, hidx, hoff]
  have hword : s.mem.bankRdata s.mem.bankOffQ (lzc (Mem.rdHitOh s.mem (rdTag s i))) =
      s.mem.data (s.ctrl p).addressOffQ (s.ctrl p).addressIdxQ way := by
    rw [show Mem.rdHitOh s.mem (rdTag s i) = rdHitOh s i from rfl, hone, hoff, hdata]
  refine ⟨(htags.hit_iff way).mp hhit, ?_⟩
  rw [rdata, Mem.rdData, haddr, hcl, hword]
  rfl

end Held

/-! ## Every run -/

/-- In every run, whatever the memory answers: a set that holds no line twice at reset, or that
the first flush has passed, holds no line twice; a lookup hits in at most one way, and a load
that hits reads the word of the way that holds its line. -/
theorem held_once (cfg : Cfg) (z : Start) (ins : List Input) :
    let s := ((dcache cfg z).run ins).hw
    (∀ idx, (Unique (z.tags idx) ∨
        ∃ pre post, ins = pre ++ post ∧ ¬Awaited ((dcache cfg z).run pre).hw idx) →
      Unique (s.mem.tags idx)) ∧
    (∀ i w w', rdHitOh s i w = true → rdHitOh s i w' = true → w = w') ∧
    ∀ i p way, (s.ctrl p).rdAckQ = true → (wrCl cfg s i).vld = false →
      rdHitOh s i way = true →
      s.mem.tags (s.ctrl p).addressIdxQ way = ⟨true, rdTag s i (.rd p)⟩ ∧
        rdata cfg s i = Mem.overlay s.wbuf.buffer
          ⟨rdTag s i (.rd p), (s.ctrl p).addressIdxQ, (s.ctrl p).addressOffQ⟩
          (s.mem.data (s.ctrl p).addressOffQ (s.ctrl p).addressIdxQ way) := by
  have hheld (ins : List Input) : Held ((dcache cfg z).run ins).hw :=
    Machine.invariant (E := fun _ _ => True) (I := fun s : State => Held s.hw) (held_start z)
      (fun _ _ h _ => h.next) ins (fun _ _ _ _ => trivial)
  -- a set that holds no line twice goes on doing so
  have hstays (idx : Idx) (pre post : List Input)
      (hu : Unique (((dcache cfg z).run pre).hw.mem.tags idx)) :
      Unique (((dcache cfg z).run (pre ++ post)).hw.mem.tags idx) := by
    induction post using List.reverseRecOn with
    | nil => rwa [List.append_nil]
    | append_singleton post i ih =>
        rw [← List.append_assoc, Machine.run_snoc]
        exact ih.next fun hen => (hheld (pre ++ post)).mshr_absent hen
  intro s
  refine ⟨?_, ?_, ?_⟩
  · rintro idx (hz | ⟨pre, post, rfl, hpassed⟩)
    · exact hstays idx [] ins hz
    · exact hstays idx pre post (((hheld pre).unique idx).resolve_left hpassed)
  · exact fun i w w' => (hheld ins).hit_unique
  · exact fun i p way hack hcl hhit => (hheld ins).rdata_of_hit hack hcl hhit

end Cva6.Dcache
