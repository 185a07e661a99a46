import Cva6.Dcache.Requests
/-!
# Only cacheable lines are in the cache

The tag array holds anything after reset and is cleared before the first lookup that can
hit. A refill that is not marked non-cacheable is the only way a line becomes valid, so a
load can hit on a cacheable page only.
-/

namespace Cva6.Dcache

structure LinesOk (cfg : Cfg) (s : Hw) : Prop where
  /-- What the first flush has not reached yet may be valid without being cacheable. -/
  tags : ∀ idx way, (s.mem.tags idx way).vld = true →
    cfg.cacheable (s.mem.tags idx way).tag = true ∨
      s.miss.state = .FLUSH ∧ s.miss.cnt.toNat ≤ idx.toNat
  rdata : s.mem.cmpEnQ = true → ∀ way, (s.mem.tagRdata way).vld = true →
    cfg.cacheable (s.mem.tagRdata way).tag = true
  mshr : s.miss.mshrVldQ = true → s.miss.mshr.nc = false →
    cfg.cacheable s.miss.mshr.paddr.word.tag = true
  vldSel : ∀ p, (s.ctrl p).rdAckQ = true → s.mem.vldSelQ = .rd p

theorem linesOk_start (cfg : Cfg) (z : Start) : LinesOk cfg (start z).hw where
  tags _ _ _ := .inr ⟨rfl, Nat.zero_le _⟩
  rdata := nofun
  mshr := nofun
  vldSel := nofun

variable {cfg : Cfg} {s : Hw} {i : Input}

variable (cfg i) in
theorem wrCl_vld_of_flush (hf : s.miss.state = .FLUSH) :
    (wrCl cfg s i).vld = true ∧ (∀ way, (wrCl cfg s i).we way = true) ∧
      (wrCl cfg s i).idx = s.miss.cnt := by
  have hen : Missunit.flushEn s.miss = true := by simp [Missunit.flushEn, hf]
  have hwe : Missunit.wrClWe s.miss (missIn cfg s i) = fun _ => true := by
    simp [Missunit.wrClWe, hen]
  refine ⟨?_, ?_, ?_⟩
  · simp [wrCl, Missunit.wrCl, hwe, any]
  · intro way
    simp [wrCl, Missunit.wrCl, hwe]
  · simp [wrCl, Missunit.wrCl, hen]

/-- A line that becomes valid is the refill of a miss that is not marked non-cacheable. -/
theorem refill_of_vldBits {way : Way} (h : (wrCl cfg s i).vldBits way = true) :
    s.miss.mshrVldQ = true ∧ s.miss.mshr.nc = false := by
  have h : (if Missunit.flushEn s.miss then fun _ => false
    else if Missunit.invVld (missIn cfg s i) then fun _ => false
    else if Missunit.clWriteEn s.miss (missIn cfg s i) then bin2oh s.miss.mshr.replWay
    else fun _ => false : WayMask) way = true := h
  split_ifs at h with _ _ hen
  simp only [Missunit.clWriteEn, Missunit.loadAck, Bool.and_eq_true, Bool.not_eq_true'] at hen
  exact ⟨hen.1.2, hen.2⟩

theorem LinesOk.tags_next (h : LinesOk cfg s) (idx : Idx) (way : Way)
    (hv : ((hwNext cfg s i).mem.tags idx way).vld = true) :
    cfg.cacheable ((hwNext cfg s i).mem.tags idx way).tag = true ∨
      (hwNext cfg s i).miss.state = .FLUSH ∧ (hwNext cfg s i).miss.cnt.toNat ≤ idx.toNat := by
  have hv : (Mem.tagsNext s.mem (wrCl cfg s i) idx way).vld = true := hv
  show cfg.cacheable (Mem.tagsNext s.mem (wrCl cfg s i) idx way).tag = true ∨
    Missunit.stateD s.miss (missIn cfg s i) = .FLUSH ∧
      (if Missunit.flushEn s.miss then s.miss.cnt + 1 else 0 : Idx).toNat ≤ idx.toNat
  unfold Mem.tagsNext at hv ⊢
  by_cases hw : ((wrCl cfg s i).vld && (wrCl cfg s i).we way && idx == (wrCl cfg s i).idx) = true
  · rw [if_pos hw] at hv ⊢
    obtain ⟨hvld, hnc⟩ := refill_of_vldBits hv
    exact .inl (h.mshr hvld hnc)
  · rw [if_neg hw] at hv ⊢
    rcases h.tags idx way hv with hc | ⟨hflush, hle⟩
    · exact .inl hc
    · -- the set that is cleared in this cycle is the one at the counter
      obtain ⟨hvld, hwe, hidx⟩ := wrCl_vld_of_flush cfg i hflush
      have hne : idx ≠ s.miss.cnt := by
        intro heq
        exact hw (by simp [hvld, hwe, hidx, heq])
      have hlt : s.miss.cnt.toNat < idx.toNat := by
        refine lt_of_le_of_ne hle ?_
        intro heq
        exact hne (BitVec.eq_of_toNat_eq heq.symm)
      have hidx := idx.isLt
      have hlast : Missunit.flushDone s.miss = false := by
        rw [Missunit.flushDone, beq_eq_false_iff_ne]
        intro heq
        simp [heq] at hlt
        omega
      refine .inr ⟨by simp [Missunit.stateD, hflush, hlast], ?_⟩
      have hen : Missunit.flushEn s.miss = true := by simp [Missunit.flushEn, hflush]
      rw [if_pos hen, BitVec.toNat_add]
      exact (Nat.mod_le _ _).trans hlt

theorem LinesOk.rdata_next (h : LinesOk cfg s) (hcmp : (hwNext cfg s i).mem.cmpEnQ = true)
    (way : Way) (hv : ((hwNext cfg s i).mem.tagRdata way).vld = true) :
    cfg.cacheable ((hwNext cfg s i).mem.tagRdata way).tag = true := by
  have hcmp : Mem.rdAcked (wrCl cfg s i) (Mem.rdReqs (readReq cfg s i)) = true := hcmp
  have hcl : (wrCl cfg s i).vld = false := by
    rw [Mem.rdAcked, Bool.and_eq_true, Bool.not_eq_true'] at hcmp
    exact hcmp.2
  have hread : (hwNext cfg s i).mem.tagRdata way =
      s.mem.tags ((readReq cfg s i) i.rdSel).idx way := by
    show Mem.tagRdataNext s.mem (wrCl cfg s i) (readReq cfg s i) i.rdSel way = _
    simp [Mem.tagRdataNext, hcl, hcmp]
  rw [hread] at hv ⊢
  rcases h.tags _ way hv with hc | ⟨hflush, -⟩
  · exact hc
  · rw [(wrCl_vld_of_flush _ _ hflush).1] at hcl
    cases hcl

theorem LinesOk.mshr_next (h : LinesOk cfg s) (hw : Waits s)
    (hvld : (hwNext cfg s i).miss.mshrVldQ = true) (hnc : (hwNext cfg s i).miss.mshr.nc = false) :
    cfg.cacheable (hwNext cfg s i).miss.mshr.paddr.word.tag = true := by
  have hvld : (if Missunit.mshrAllocate s.miss (missIn cfg s i) then true
    else if Missunit.loadAck s.miss (missIn cfg s i) then false else s.miss.mshrVldQ) = true := hvld
  have hnc : (Missunit.mshrD s.miss (missIn cfg s i)).nc = false := hnc
  show cfg.cacheable (Missunit.mshrD s.miss (missIn cfg s i)).paddr.word.tag = true
  unfold Missunit.mshrD at hnc ⊢
  split_ifs at hvld hnc ⊢ with halloc
  · rw [Missunit.mshrAllocate, Bool.and_eq_true] at halloc
    obtain ⟨p, hport, -⟩ := hw.port_of_sendsLoad halloc.1
    rw [hport] at hnc ⊢
    have hnc : (!cacheEn s || !cfg.cacheable (s.ctrl p).addressTagQ) = false := hnc
    rw [Bool.or_eq_false_iff, Bool.not_eq_false'] at hnc
    have hc : (!cfg.cacheable (s.ctrl p).addressTagQ) = false := hnc.2
    rw [Bool.not_eq_false'] at hc
    exact hc
  · exact h.mshr hvld hnc

theorem LinesOk.next (h : LinesOk cfg s) (hw : Waits s) : LinesOk cfg (hwNext cfg s i) where
  tags := h.tags_next
  rdata := h.rdata_next
  mshr := h.mshr_next hw
  vldSel := by
    intro p hack
    have hack : Mem.rdAck (wrCl cfg s i) (rdReqs s i) i.rdSel (.rd p) = true := hack
    simp only [Mem.rdAck, Bool.and_eq_true, beq_iff_eq] at hack
    exact hack.1.2.symm

/-- A load hits on a cacheable page only. -/
theorem LinesOk.hit_cacheable (h : LinesOk cfg s) {p : Fin 2}
    (hhit : Ctrl.hit (s.ctrl p) (ctrlIn cfg s i p) = true) :
    cfg.cacheable (Ctrl.addressTagD (s.ctrl p) (i.loads p)) = true := by
  simp only [Ctrl.hit, Bool.and_eq_true, Bool.not_eq_true', Bool.or_eq_false_iff,
    Bool.not_eq_false'] at hhit
  obtain ⟨⟨⟨-, -, hack⟩, hany⟩, -⟩ := hhit
  obtain ⟨way, hway⟩ := any_iff.mp hany
  have hway : (rdTag s i s.mem.vldSelQ == (s.mem.tagRdata way).tag &&
    (s.mem.tagRdata way).vld && s.mem.cmpEnQ) = true := hway
  rw [h.vldSel p hack] at hway
  simp only [Bool.and_eq_true, beq_iff_eq] at hway
  have htag : Ctrl.addressTagD (s.ctrl p) (i.loads p) = (s.mem.tagRdata way).tag := hway.1.1
  rw [htag]
  exact h.rdata hway.2 way hway.1.2

end Cva6.Dcache
