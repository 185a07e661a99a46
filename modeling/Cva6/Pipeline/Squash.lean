import Cva6.Pipeline.Model
/-!
# Mispredicted branches

A branch is resolved in the cycle after it was issued. When it was mispredicted, nothing
that was fetched behind it has been issued, and nothing of it is left in the pipeline
after this cycle.
-/

namespace Cva6.Pipeline

open Cva6.Sync Cva6.Issue

variable {s : State} {i : Input}

/-! ## The controller -/

/-- Every redirection by the commit stage goes with a flush of the issue stage. -/
theorem flushCtrl_no_redirect (c : Controller.Input) (h : (Controller.flushCtrl c).flushId = false) :
    c.eret = false ∧ c.exValid = false ∧ c.setDebugPc = false ∧
      (Controller.flushCtrl c).setPcCommit = false := by
  revert h
  obtain ⟨a1, a2, a3, a4, a5, a6, a7, a8, a9⟩ := c
  cases a1 <;> cases a2 <;> cases a3 <;> cases a4 <;> cases a5 <;> cases a6 <;> cases a7 <;>
    cases a8 <;> cases a9 <;> decide

theorem flushes_eq :
    (flushes s i).flushUnissuedInstr = ((resolvedBranch s).isMispredict || commitFlush s i) ∧
      (flushes s i).flushIf = ((resolvedBranch s).isMispredict || commitFlush s i) :=
  Controller.flushCtrl_flushUnissuedInstr _

theorem valid_of_isMispredict (h : (resolvedBranch s).isMispredict = true) :
    (resolvedBranch s).valid = true ∧ s.core.iro.branchValid = true := by
  have h : (s.core.iro.branchValid && _) = true := h
  rw [Bool.and_eq_true] at h
  exact ⟨h.1, h.1⟩

theorem isMispredict_feIn : Frontend.isMispredict (feIn s i) = (resolvedBranch s).isMispredict := by
  show ((resolvedBranch s).valid && (resolvedBranch s).isMispredict) = _
  cases h : (resolvedBranch s).isMispredict with
  | false => simp
  | true => simp [(valid_of_isMispredict h).1]

theorem wired : Frontend.Wired s.fe (feIn s i) where
  flush := by
    rw [isMispredict_feIn]
    exact ctrl_redirect (Backend.ctrlInput s.core.be (Core.backendIn s.core (coreIn s i)))
  ready := by
    intro h
    have h : IdStage.takes s.id (idIn s i) = true := h
    simp only [IdStage.takes, IdStage.fetchEntryReady, Bool.and_eq_true] at h
    exact h.2

/-! ## Issue -/

theorem started_next (h : started (pipeline.next s i).core.iro = true) :
    Scoreboard.issueInstrValid s.core.sb s.id.valid = true ∧
      ReadOperands.issueAck s.core.iro (Core.iroIn s.core (coreIn s i)) = true ∧
      (flushes s i).flushUnissuedInstr = false := by
  have hnext : (pipeline.next s i).core.iro =
      ReadOperands.next s.core.iro (Core.iroIn s.core (coreIn s i)) := rfl
  rw [hnext] at h
  simp only [started, ReadOperands.next] at h
  generalize hv : (!(Core.iroIn s.core (coreIn s i)).issueInstr.ex.valid &&
    (Core.iroIn s.core (coreIn s i)).issueInstrValid &&
    ReadOperands.issueAck s.core.iro (Core.iroIn s.core (coreIn s i)) &&
    !(Core.iroIn s.core (coreIn s i)).flush) = v at h
  cases v with
  | false => simp at h
  | true =>
      simp only [Bool.and_eq_true, Bool.not_eq_true'] at hv
      exact ⟨hv.1.1.2, hv.1.2, hv.2⟩

/-- What is started in a functional unit has been written into the scoreboard. -/
theorem issueEn_of_started (h : started (pipeline.next s i).core.iro = true) : issueEn s i = true := by
  obtain ⟨hv, hack, hf⟩ := started_next h
  simp only [Scoreboard.issueInstrValid, Bool.and_eq_true] at hv
  show (s.id.valid && (ReadOperands.issueAck s.core.iro (Core.iroIn s.core (coreIn s i)) &&
    !Scoreboard.issueFull s.core.sb) && !(flushes s i).flushUnissuedInstr) = true
  simp [hv.1, hv.2, hack, hf]

theorem no_flush_of_issueEn (h : issueEn s i = true) : (flushes s i).flushUnissuedInstr = false := by
  have h : (_ && !(flushes s i).flushUnissuedInstr) = true := h
  simp only [Bool.and_eq_true, Bool.not_eq_true'] at h
  exact h.2

theorem issueEn_of_ack (hf : (flushes s i).flushUnissuedInstr = false)
    (ha : issueInstrAck s i = true) : issueEn s i = true := by
  have hv : s.id.valid = true := by
    simp only [issueInstrAck, Scoreboard.decodedInstrAck, Bool.and_eq_true] at ha
    have hack := ha.1
    simp only [ReadOperands.issueAck] at hack
    split_ifs at hack
    simp only [Bool.and_eq_true] at hack
    have hvalid : (s.id.valid && !Scoreboard.issueFull s.core.sb) = true := hack.1
    rw [Bool.and_eq_true] at hvalid
    exact hvalid.1
  show (s.id.valid && issueInstrAck s i && !(flushes s i).flushUnissuedInstr) = true
  simp [hv, ha, hf]

/-- The branch being resolved is the youngest instruction in the scoreboard. -/
def Youngest (s : State) : Prop :=
  s.core.iro.branchValid = true →
    let y := s.core.sb.mem (s.core.sb.issuePointer - 1)
    y.issued = true ∧ y.sbe.fu = .CTRL_FLOW ∧ y.sbe.pc = (resolvedBranch s).pc ∧
      s.core.iro.transId = s.core.sb.issuePointer - 1

theorem youngest_next (hok : Scoreboard.Ok s.core.sb) : Youngest (pipeline.next s i) := by
  intro hb
  have hen : issueEn s i = true := by
    apply issueEn_of_started
    simp [started, hb]
  have hf : (Core.sbIn s.core (coreIn s i)).flush = false := by
    have hu := no_flush_of_issueEn hen
    rw [flushes_eq.1, Bool.or_eq_false_iff] at hu
    exact hu.2
  have hnew := hok.issueFifo_new (Core.ackLegal s.core (coreIn s i)) hf hen
  have hp : (pipeline.next s i).core.sb.issuePointer - 1 = s.core.sb.issuePointer := by
    show (if (Core.sbIn s.core (coreIn s i)).flush then 0
      else s.core.sb.issuePointer + if issueEn s i then 1 else 0) - 1 = _
    rw [hf, hen]
    exact BitVec.add_sub_cancel _ _
  have hmem : (pipeline.next s i).core.sb.mem s.core.sb.issuePointer =
      ⟨true, isRdFpr (Core.decodedInstr (coreIn s i)).op, Core.decodedInstr (coreIn s i)⟩ := hnew
  have hfu : (Core.decodedInstr (coreIn s i)).fu = .CTRL_FLOW := by
    have hb : (_ && (Core.decodedInstr (coreIn s i)).fu == .CTRL_FLOW) = true := hb
    rw [Bool.and_eq_true, beq_iff_eq] at hb
    exact hb.2
  show _ ∧ _
  rw [hp, hmem]
  exact ⟨rfl, hfu, rfl, rfl⟩

theorem sb_ok (ins : List Input) : Scoreboard.Ok (pipeline.run ins).core.sb := by
  induction ins using List.reverseRecOn with
  | nil => exact Scoreboard.reset_ok
  | append_singleton ins i ih =>
      rw [Machine.run_snoc]
      exact ih.next (Core.ackLegal _ _)

theorem youngest_run (ins : List Input) : Youngest (pipeline.run ins) := by
  induction ins using List.reverseRecOn with
  | nil => exact fun h => absurd h Bool.false_ne_true
  | append_singleton ins i _ =>
      rw [Machine.run_snoc]
      exact youngest_next (sb_ok ins)

/-! ## The cycle of a mispredict -/

theorem not_issueEn (h : (resolvedBranch s).isMispredict = true) : issueEn s i = false := by
  cases hen : issueEn s i with
  | false => rfl
  | true =>
      have hf := no_flush_of_issueEn hen
      rw [flushes_eq.1, h] at hf
      exact absurd hf (by simp)

theorem not_started (h : issueEn s i = false) : started (pipeline.next s i).core.iro = false := by
  cases hst : started (pipeline.next s i).core.iro with
  | false => rfl
  | true => simp [issueEn_of_started hst] at h

theorem id_flushed (h : (flushes s i).flushIf = true) : (pipeline.next s i).id.valid = false := by
  show (!(flushes s i).flushIf && _) = false
  simp [h]

theorem older_untouched (hok : Scoreboard.Ok s.core.sb) (hc : commitFlush s i = false) (n : TransId)
    (hn : (s.core.sb.mem n).issued = true)
    (ha : Scoreboard.ackedSlot s.core.sb (Core.sbIn s.core (coreIn s i)) n = false) :
    ((pipeline.next s i).core.sb.mem n).issued = true ∧
      Scoreboard.decodedFields ((pipeline.next s i).core.sb.mem n).sbe =
        Scoreboard.decodedFields (s.core.sb.mem n).sbe := by
  have hstay := hok.issueFifo_staying (i := Core.sbIn s.core (coreIn s i)) hn hc ha
  have hmem : (pipeline.next s i).core.sb.mem n =
      Scoreboard.issueFifo s.core.sb (Core.sbIn s.core (coreIn s i)) n := rfl
  rw [hmem, hstay, Scoreboard.foldl_writeBack_issued, Scoreboard.foldl_writeBack_decodedFields]
  split_ifs
  · exact ⟨hn, rfl⟩
  · exact ⟨hn, rfl⟩

theorem npcD_mispredict (h : (resolvedBranch s).isMispredict = true) (hc : commitFlush s i = false) :
    Frontend.npcD s.fe.q (feIn s i) = (resolvedBranch s).targetAddress := by
  obtain ⟨he, hx, hd, hp⟩ := flushCtrl_no_redirect _ hc
  have he : (feIn s i).eret = false := he
  have hx : (feIn s i).exValid = false := hx
  have hd : (feIn s i).setDebugPc = false := hd
  have hp : (feIn s i).setPcCommit = false := hp
  have hm : Frontend.isMispredict (feIn s i) = true := isMispredict_feIn.trans h
  simp only [Frontend.npcD, he, hx, hd, hp, hm, Bool.false_eq_true, if_false, if_true]
  rfl

/-! ## After a mispredict -/

section Runs

variable {H : Frontend.Parcel → BitVec 16 → Prop} {t : XLen}

def Answers (H : Frontend.Parcel → BitVec 16 → Prop) (s : State) (i : Input) : Prop :=
  Frontend.Cached H s.fe (feIn s i)

/-- Nothing is entered, and the commit stage does not flush. -/
def Quiet (s : State) (i : Input) : Prop := commitFlush s i = false ∧ entered s i = []

/-- The next instruction to be entered is the one at `t`. -/
structure Heading (H : Frontend.Parcel → BitVec 16 → Prop) (t : XLen) (s : State) : Prop where
  started : started s.core.iro = false
  held : s.id.valid = true → s.id.fetch.pc = t
  coming : s.id.valid = false → Frontend.Fresh H t s.fe

theorem heading_of_mispredict (h : (resolvedBranch s).isMispredict = true)
    (hc : commitFlush s i = false) (ha : Answers H s i)
    (ht : Frontend.Aligned (resolvedBranch s).targetAddress) :
    Heading H (resolvedBranch s).targetAddress (pipeline.next s i) := by
  have hf : (flushes s i).flushIf = true := by simp [flushes_eq.2, h]
  have hid := id_flushed hf
  have hnpc := npcD_mispredict (i := i) h hc
  refine ⟨not_started (not_issueEn h), fun hv => absurd (hid.symm.trans hv) Bool.false_ne_true, ?_⟩
  intro _
  rw [← hnpc] at ht ⊢
  exact Frontend.fresh_of_flush ha hf ht

theorem Heading.next (h : Heading H t s) (hq : Quiet s i) (ha : Answers H s i) :
    Heading H t (pipeline.next s i) := by
  have hen : issueEn s i = false := by
    cases hen : issueEn s i with
    | false => rfl
    | true =>
        have := hq.2
        simp [entered, hen] at this
  have hm : (resolvedBranch s).isMispredict = false := by
    cases hm : (resolvedBranch s).isMispredict with
    | false => rfl
    | true =>
        have hb := (valid_of_isMispredict hm).2
        have hs := h.started
        simp [Pipeline.started, hb] at hs
  have hu : (flushes s i).flushUnissuedInstr = false := by rw [flushes_eq.1, hm, hq.1]; rfl
  have hf : (flushes s i).flushIf = false := by rw [flushes_eq.2, hm, hq.1]; rfl
  have hack : issueInstrAck s i = false := by
    cases hack : issueInstrAck s i with
    | false => rfl
    | true => simp [issueEn_of_ack hu hack] at hen
  have hvalid : (pipeline.next s i).id.valid =
      (IdStage.takes s.id (idIn s i) || (s.id.valid && !issueInstrAck s i)) := by
    show (!(flushes s i).flushIf && _) = _
    rw [hf]
    rfl
  have hfetch : (pipeline.next s i).id.fetch =
      if IdStage.takes s.id (idIn s i) then
        IdStage.decoderIn i.hart (Frontend.Queue.fetchEntry s.fe.q.queue) else s.id.fetch := rfl
  have htakes : IdStage.takes s.id (idIn s i) =
      ((!s.id.valid || issueInstrAck s i) && Frontend.Queue.fetchEntryValid s.fe.q.queue) := rfl
  rw [hack, Bool.not_false, Bool.and_true] at hvalid
  rw [hack, Bool.or_false] at htakes
  refine ⟨not_started hen, ?_, ?_⟩
  · intro _
    rw [hfetch]
    cases hv : s.id.valid with
    | true =>
        rw [hv, Bool.not_true, Bool.false_and] at htakes
        rw [htakes, if_neg Bool.false_ne_true]
        exact h.held hv
    | false =>
        rw [hv, Bool.or_false] at hvalid
        have htake : IdStage.takes s.id (idIn s i) = true := by simp_all
        rw [htake, if_pos rfl]
        rw [hv, Bool.not_false, Bool.true_and, htake] at htakes
        exact (h.coming hv).address htakes.symm
  · intro hv'
    rw [hvalid, Bool.or_eq_false_iff] at hv'
    have hd : Frontend.delivered s.fe.q (feIn s i) = [] := by
      have hready : (feIn s i).fetchEntryReady = false := hv'.1
      simp [Frontend.delivered, hready]
    exact (h.coming hv'.2).next wired ha hf hd

theorem captured_since (hid : s.id.valid = false) (mid : List Input)
    (hv : (pipeline.runFrom s mid).id.valid = true) :
    ∃ m₁ k m₂ f, mid = m₁ ++ k :: m₂ ∧
      Frontend.delivered (pipeline.runFrom s m₁).fe.q (feIn (pipeline.runFrom s m₁) k) = [f] ∧
      (pipeline.runFrom s mid).id.fetch = IdStage.decoderIn k.hart f := by
  induction mid using List.reverseRecOn with
  | nil =>
      have hv : s.id.valid = true := hv
      simp [hid] at hv
  | append_singleton mid k ih =>
      have hrun : pipeline.runFrom s (mid ++ [k]) = pipeline.next (pipeline.runFrom s mid) k := by
        simp [Machine.runFrom]
      rw [hrun] at hv ⊢
      have hfetch : (pipeline.next (pipeline.runFrom s mid) k).id.fetch =
          if IdStage.takes (pipeline.runFrom s mid).id (idIn (pipeline.runFrom s mid) k) then
            IdStage.decoderIn k.hart (Frontend.Queue.fetchEntry (pipeline.runFrom s mid).fe.q.queue)
          else (pipeline.runFrom s mid).id.fetch := rfl
      cases ht : IdStage.takes (pipeline.runFrom s mid).id (idIn (pipeline.runFrom s mid) k) with
      | true =>
          rw [ht, if_pos rfl] at hfetch
          have hvalid := (wired (s := pipeline.runFrom s mid) (i := k)).ready ht
          have hready : (feIn (pipeline.runFrom s mid) k).fetchEntryReady = true := ht
          exact ⟨mid, k, [], _, rfl, by simp [Frontend.delivered, hvalid, hready], hfetch⟩
      | false =>
          rw [ht, if_neg Bool.false_ne_true] at hfetch
          have hold : (pipeline.runFrom s mid).id.valid = true := by
            have hv : (!_ && (IdStage.takes (pipeline.runFrom s mid).id
              (idIn (pipeline.runFrom s mid) k) || ((pipeline.runFrom s mid).id.valid && _))) = true := hv
            rw [ht, Bool.false_or] at hv
            simp only [Bool.and_eq_true] at hv
            exact hv.2.1
          obtain ⟨m₁, k', m₂, f, hmid, hd, hf⟩ := ih hold
          exact ⟨m₁, k', m₂ ++ [k], f, by simp [hmid], hd, hfetch.trans hf⟩

theorem Heading.runFrom (h : Heading H t s) (mid : List Input)
    (hq : pipeline.ThroughoutFrom Quiet s mid) (ha : pipeline.ThroughoutFrom (Answers H) s mid) :
    Heading H t (pipeline.runFrom s mid) := by
  induction mid generalizing s with
  | nil => exact h
  | cons i mid ih => exact ih (h.next hq.1 ha.1) hq.2 ha.2

/-- What follows from a mispredict in the cycle `i` after the cycles `pre`, seen from the
cycles `post` that come after it. -/
structure Squashed (pre : List Input) (i : Input) (post : List Input) : Prop where
  /-- No younger instruction has been entered before. -/
  youngest : let sb := (pipeline.run pre).core.sb
    (sb.mem (sb.issuePointer - 1)).issued = true ∧
      (sb.mem (sb.issuePointer - 1)).sbe.pc = (resolvedBranch (pipeline.run pre)).pc
  /-- None is entered or started now, and none is left. -/
  entered : entered (pipeline.run pre) i = []
  started : Pipeline.started (pipeline.run (pre ++ [i])).core.iro = false
  decode : (pipeline.run (pre ++ [i])).id.valid = false
  fetch : Frontend.Emptied (pipeline.run (pre ++ [i])).fe
  /-- What is entered later has been delivered later. -/
  later : ∀ mid j post', post = mid ++ j :: post' →
    ∀ e ∈ Pipeline.entered (pipeline.run (pre ++ i :: mid)) j, ∃ m₁ k m₂ f, mid = m₁ ++ k :: m₂ ∧
      Frontend.delivered (pipeline.run (pre ++ i :: m₁)).fe.q
        (feIn (pipeline.run (pre ++ i :: m₁)) k) = [f] ∧
      e = ReadOperands.reName (IdStage.decodedInstruction k.hart f)
  /-- Older instructions stay, unless the commit stage flushes them. -/
  older : commitFlush (pipeline.run pre) i = false →
    (flushes (pipeline.run pre) i).flushEx = false ∧
      ∀ n, ((pipeline.run pre).core.sb.mem n).issued = true →
        Scoreboard.ackedSlot (pipeline.run pre).core.sb
          (Core.sbIn (pipeline.run pre).core (coreIn (pipeline.run pre) i)) n = false →
        ((pipeline.run (pre ++ [i])).core.sb.mem n).issued = true ∧
          Scoreboard.decodedFields ((pipeline.run (pre ++ [i])).core.sb.mem n).sbe =
            Scoreboard.decodedFields ((pipeline.run pre).core.sb.mem n).sbe
  /-- The next instruction entered is the one at the target, unless the commit stage
  flushes the pipeline before. -/
  target : commitFlush (pipeline.run pre) i = false →
    Frontend.Aligned (resolvedBranch (pipeline.run pre)).targetAddress →
    ∀ mid j post', post = mid ++ j :: post' →
      pipeline.ThroughoutFrom Quiet (pipeline.run (pre ++ [i])) mid →
      ∀ e ∈ Pipeline.entered (pipeline.run (pre ++ i :: mid)) j,
        e.pc = (resolvedBranch (pipeline.run pre)).targetAddress

theorem run_after (pre : List Input) (i : Input) (mid : List Input) :
    pipeline.run (pre ++ i :: mid) = pipeline.runFrom (pipeline.run (pre ++ [i])) mid := by
  have h : pre ++ i :: mid = pre ++ [i] ++ mid := by simp
  rw [h, Machine.run_append]

theorem entered_eq {e : ScoreboardEntry} (h : e ∈ entered s i) :
    s.id.valid = true ∧ e = ReadOperands.reName (Decoder.instructionO s.id.fetch) := by
  unfold entered at h
  split_ifs at h with hen
  · have hv : (s.id.valid && issueInstrAck s i && !(flushes s i).flushUnissuedInstr) = true := hen
    simp only [Bool.and_eq_true] at hv
    exact ⟨hv.1.1, List.mem_singleton.mp h⟩
  · simp at h

/-- Instructions on a mispredicted path never enter the scoreboard. -/
theorem wrong_path_squashed (ins : List Input) (h : pipeline.Throughout (Answers fun _ _ => True) ins)
    (pre : List Input) (i : Input) (post : List Input) (hins : ins = pre ++ i :: post)
    (hm : (resolvedBranch (pipeline.run pre)).isMispredict = true) : Squashed pre i post := by
  have hnext : pipeline.run (pre ++ [i]) = pipeline.next (pipeline.run pre) i := Machine.run_snoc ..
  have hai : Answers (fun _ _ => True) (pipeline.run pre) i := h pre i post hins
  have hf : (flushes (pipeline.run pre) i).flushIf = true := by simp [flushes_eq.2, hm]
  have hid : (pipeline.run (pre ++ [i])).id.valid = false := hnext ▸ id_flushed hf
  have hen := not_issueEn (i := i) hm
  have hy := youngest_run pre (valid_of_isMispredict hm).2
  refine ⟨⟨hy.1, hy.2.2.1⟩, by simp [entered, hen], hnext ▸ not_started hen, hid,
    hnext ▸ Frontend.emptied_of_flush hai hf, ?_, ?_, ?_⟩
  · intro mid j post' hpost e he
    obtain ⟨hv, rfl⟩ := entered_eq he
    rw [run_after] at hv ⊢
    obtain ⟨m₁, k, m₂, f, hmid, hd, hfetch⟩ := captured_since hid mid hv
    rw [← run_after] at hd
    refine ⟨m₁, k, m₂, f, hmid, hd, ?_⟩
    rw [hfetch]
    rfl
  · intro hc
    refine ⟨?_, ?_⟩
    · rw [← hc]
      exact (Controller.flushCtrl_flushId _).symm
    · rw [hnext]
      exact older_untouched (sb_ok pre) hc
  · intro hc ht mid j post' hpost hq e he
    obtain ⟨hv, rfl⟩ := entered_eq he
    have hhead := heading_of_mispredict hm hc hai ht
    rw [← hnext] at hhead
    have hall : pipeline.ThroughoutFrom (Answers fun _ _ => True) (pipeline.run (pre ++ [i])) mid := by
      refine (Machine.throughoutFrom_iff _ _).mpr ?_
      intro p k q hmid
      rw [← run_after]
      exact h (pre ++ i :: p) k (q ++ j :: post') (by simp [hins, hpost, hmid])
    rw [run_after] at hv ⊢
    exact (hhead.runFrom mid hq hall).held hv

end Runs

/-! ## A branch behind a load -/

instance (H : Frontend.Parcel → BitVec 16 → Prop) [∀ p v, Decidable (H p v)] (s : State) (i : Input) :
    Decidable (Answers H s i) := inferInstanceAs (Decidable (Frontend.Cached H s.fe (feIn s i)))

def bootCycle (ready : Bool) (answer : Option (XLen × BitVec 32)) (wb : List Scoreboard.WbPort) : Input :=
  { (default : Input) with
    core :=
      { (default : Core.Input) with
        fluReady := true, lsuReady := true, dtlbHit := true, wb := wb
        platform := { (default : Csr.Platform) with bootAddr := 0x100 } }
    hart := { (default : IdStage.Hart) with privLvl := Riscv.privLvlM }
    icache := ⟨ready, answer.isSome, (answer.getD (0, 0)).2, (answer.getD (0, 0)).1, 0⟩ }

/-- `lw x1, 0(x0)` and `beq x0, x0, 8` are issued; in the last cycle the load writes back. -/
def branchIssued (wb : List Scoreboard.WbPort) : List Input :=
  [bootCycle true none [], bootCycle true (some (0x100, 0x00002083)) [],
    bootCycle true (some (0x104, 0x00000463)) [], bootCycle false none [], bootCycle false none [],
    bootCycle false none wb]

/-- Two compressed instructions are fetched from `a`, the first one is decoded. -/
def fetchedFrom (a : XLen) : List Input :=
  [bootCycle true none [], bootCycle true (some (a, 0x00010001)) [], bootCycle false none [],
    bootCycle false none []]

theorem wrong_path_squashed_takenBranch :
    (resolvedBranch (pipeline.run (branchIssued []))).isMispredict = true ∧
      Squashed (branchIssued []) (bootCycle false none [])
        (fetchedFrom 0x10c ++ [bootCycle false none []]) ∧
      (entered (pipeline.run (branchIssued [] ++ bootCycle false none [] :: fetchedFrom 0x10c))
        (bootCycle false none [])).map (·.pc) = [0x10c] := by
  have h : pipeline.Throughout (Answers fun _ _ => True)
      (branchIssued [] ++ bootCycle false none [] :: (fetchedFrom 0x10c ++ [bootCycle false none []])) := by
    decide +kernel
  have hm : (resolvedBranch (pipeline.run (branchIssued []))).isMispredict = true := by decide +kernel
  exact ⟨hm, wrong_path_squashed _ h _ _ _ rfl hm, by decide +kernel⟩

def loadFault : Scoreboard.WbPort := ⟨0, 0, ⟨Riscv.ldAccessFault, 0, true⟩, true⟩

/-- When the load traps in the cycle of the mispredict, the load is flushed as well, and
the next instruction entered is the first one of the trap handler. -/
theorem mispredict_with_trap :
    let pre := branchIssued [loadFault]
    let i := bootCycle false none []
    let mid := fetchedFrom 0x140
    pipeline.Throughout (Answers fun _ _ => True) (pre ++ i :: (mid ++ [i])) ∧
      (resolvedBranch (pipeline.run pre)).isMispredict = true ∧
      (resolvedBranch (pipeline.run pre)).targetAddress = 0x10c ∧
      (((pipeline.run pre).core.sb.mem 0).issued = true ∧
        (entered (pipeline.run pre) i = [] ∧
          ((pipeline.run (pre ++ [i])).core.sb.mem 0).issued = false)) ∧
      pipeline.logFrom entered (pipeline.run (pre ++ [i])) mid = [] ∧
      (entered (pipeline.run (pre ++ i :: mid)) i).map (·.pc) = [0x140] := by
  decide +kernel

end Cva6.Pipeline
