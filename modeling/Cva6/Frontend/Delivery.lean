import Cva6.BranchUnit
import Cva6.Frontend.Stream
import Cva6.IdStage
/-!
# Delivered entries

Every entry the frontend delivers is followed by the instruction it predicts, and an
instruction whose prediction the branch unit accepts is followed by its real successor,
in every run that meets no return on an empty return address stack.
-/

namespace Cva6.Frontend

open Cva6.Sync Queue
open IdStage (Hart decodedInstruction)
open BranchUnit (realSuccessor)

/-! ## Runs -/

section Runs

variable {H : Parcel → BitVec 16 → Prop} {s : State} {i : Input}

/-- A cycle in which the pipeline and the cache keep their promises, and which meets no
return on an empty stack. -/
structure Clean (H : Parcel → BitVec 16 → Prop) (s : State) (i : Input) : Prop where
  wired : Wired s i
  even : Even i
  cached : Cached H s i
  followed : i.flush = false → emptyReturn s.q = false

theorem reset_ok : Ok H stream.init where
  aligned := ⟨rfl, ⟨rfl, rfl⟩, fun _ _ => rfl, rfl⟩
  fetch :=
    { boot := fun _ => ⟨rfl, rfl, rfl, rfl⟩
      asked := by simp [stream]
      word := fun h => absurd h Bool.false_ne_true
      pending := fun h => absurd h Bool.false_ne_true }
  queue := ⟨[], Queue.reset_holds, rfl, rfl, fun h => absurd h (by decide)⟩

theorem ok_run (ins : List Input) (h : stream.Throughout (Clean H) ins) : Ok H (stream.run ins) := by
  induction ins using List.reverseRecOn with
  | nil => exact reset_ok
  | append_singleton ins i ih =>
      obtain ⟨hpre, hi⟩ := Machine.throughout_snoc.mp h
      rw [Machine.run_snoc]
      exact (ih hpre).next hi.wired hi.even hi.cached hi.followed

theorem Ok.entry (ok : Ok H s) (hv : fetchEntryValid s.q.queue = true) :
    (fetchEntry s.q.queue).address = s.due ∧
      EntryOk H s.due (instrDataOut s.q.queue) (successor (fetchEntry s.q.queue)) := by
  obtain ⟨es, hh, h⟩ := ok.queue
  cases hreset : s.q.queue.resetAddress with
  | true =>
      rw [hreset, if_pos rfl] at h
      exact absurd h.1 (hh.fetchEntryValid_iff.mp hv)
  | false =>
      rw [hreset, if_neg Bool.false_ne_true] at h
      have haddr : (fetchEntry s.q.queue).address = s.due := h.2
      rw [← haddr]
      exact ⟨rfl, (path_head hh h.1 hv).1⟩

theorem delivered_eq {e : FetchEntry} (h : delivered s.q i = [e]) :
    fetchEntryValid s.q.queue = true ∧ i.fetchEntryReady = true ∧ fetchEntry s.q.queue = e := by
  unfold delivered at h
  split_ifs at h with hc
  rw [Bool.and_eq_true] at hc
  exact ⟨hc.1, hc.2, List.singleton_inj.mp h⟩

/-- The address of the next entry stays as it is until the next entry is delivered. -/
theorem due_runFrom (s : State) (mid : List Input) (hb : s.q.npcRstLoad = false)
    (hf : ∀ i ∈ mid, i.flush = false)
    (hd : stream.logFrom (fun s i => delivered s.q i) s mid = []) :
    (stream.runFrom s mid).due = s.due := by
  induction mid generalizing s with
  | nil => rfl
  | cons i mid ih =>
      have hd : delivered s.q i ++ stream.logFrom (fun s i => delivered s.q i) (s.next i) mid = [] := hd
      rw [List.append_eq_nil_iff] at hd
      have hnot : (fetchEntryValid s.q.queue && i.fetchEntryReady) = false := by
        cases hc : fetchEntryValid s.q.queue && i.fetchEntryReady with
        | false => rfl
        | true => simp [delivered, hc] at hd
      have hdue : (s.next i).due = s.due := by
        show dueNext s i = s.due
        simp only [dueNext, hf i List.mem_cons_self, hnot, hb, Bool.false_eq_true, if_false]
      show (stream.runFrom (s.next i) mid).due = s.due
      rw [← hdue]
      exact ih (s.next i) rfl (fun j hj => hf j (List.mem_cons_of_mem _ hj)) hd.2

end Runs

/-! ## Real successors -/

section Real

variable (c : Hart) (e : FetchEntry) (a b : XLen)

def branchIn : BranchUnit.Input :=
  let d := decodedInstruction c e
  let data : BranchUnit.FuData := ⟨d.op, a, b, d.result⟩
  { fuData := data
    pc := d.pc
    isCompressedInstr := d.isCompressed
    branchValid := d.fu == .CTRL_FLOW
    branchCompRes := BranchUnit.aluBranchRes data
    branchPredict := d.bp }

theorem exceptionHandling_valid {i : Decoder.Input} {d : Decoder.Decoded}
    (h : (Decoder.exceptionHandling i d).valid = false) :
    i.ex.valid = false ∧ i.isIllegal = false ∧ d.illegalInstr = false ∧ d.ebreak = false := by
  unfold Decoder.exceptionHandling at h
  cases hx : i.ex.valid <;> cases hi : i.isIllegal <;> cases hd : d.illegalInstr <;>
    cases hb : d.ebreak <;> cases he : d.ecall <;> cases ht : Decoder.interruptTaken i <;>
    cases hg : i.debugReq && !i.debugMode <;> simp_all

theorem decoder_ebreak (i : Decoder.Input) (hx : i.ex.valid = false) (h : i.instruction = 0x00100073) :
    (Decoder.decoder i).ebreak = true := by
  have hop : Decoder.opcode i.instruction = 0b1110011 := by rw [h]; rfl
  have hf : Decoder.funct3 i.instruction = 0 := by rw [h]; rfl
  have hi : Decoder.immI i.instruction = 1 := by rw [h]; rfl
  simp [Decoder.decoder, hx, hop, Decoder.decodeSystem, hf, Decoder.decodePrivileged, hi]

/-- The scan of an instruction that does not trap, and what the decoder makes of it. -/
theorem decoded_flow (h : (decodedInstruction c e).ex.valid = false) :
    match (instrScan e.instruction).flow with
    | .branch => (decodedInstruction c e).fu = .CTRL_FLOW ∧
        opIsBranch (decodedInstruction c e).op = true ∧
        (decodedInstruction c e).result = (instrScan e.instruction).imm
    | .jump => (decodedInstruction c e).fu = .CTRL_FLOW ∧ (decodedInstruction c e).op = .JAL ∧
        (decodedInstruction c e).result = (instrScan e.instruction).imm
    | .jalr => (decodedInstruction c e).fu = .CTRL_FLOW ∧ (decodedInstruction c e).op = .JALR
    | .none => (decodedInstruction c e).fu ≠ .CTRL_FLOW := by
  obtain ⟨hex, hill, hd, hbreak⟩ := exceptionHandling_valid h
  have hflow : flowOf (Decoder.opcode (IdStage.decoderIn c e).instruction) =
      (instrScan e.instruction).flow := by
    refine (flow_compressedDecoder e.instruction hill).resolve_right fun hw => ?_
    simp [decoder_ebreak (IdStage.decoderIn c e) hex hw] at hbreak
  have hdec := decoder_flow (IdStage.decoderIn c e) hex hd
  obtain ⟨hbr, hj⟩ := imm_compressedDecoder e.instruction
  rw [hflow] at hdec
  have hresult (sel : Decoder.ImmSelect)
      (hs : (Decoder.decoder (IdStage.decoderIn c e)).immSelect = sel) :
      (decodedInstruction c e).result =
        Decoder.signExtend (CompressedDecoder.compressedDecoder e.instruction).instr sel := by
    rw [← hs]
    rfl
  cases hf : (instrScan e.instruction).flow with
  | branch =>
      rw [hf] at hdec
      exact ⟨hdec.1, hdec.2.1, (hresult _ hdec.2.2).trans (hbr hf)⟩
  | jump =>
      rw [hf] at hdec
      exact ⟨hdec.1, hdec.2.1, (hresult _ hdec.2.2).trans (hj hf)⟩
  | jalr =>
      rw [hf] at hdec
      exact hdec
  | none =>
      rw [hf] at hdec
      exact hdec

/-- A prediction the branch unit accepts is the real successor. -/
theorem successor_eq_realSuccessor
    (hflow : FlowOk e.address e.instruction e.branchPredict.cf (successor e))
    (h : (decodedInstruction c e).ex.valid = false)
    (hm : (BranchUnit.resolvedBranch (branchIn c e a b)).isMispredict = false) :
    successor e = realSuccessor (decodedInstruction c e) a b := by
  have hdec := decoded_flow c e h
  have hseq : e.address + len e.instruction =
      (decodedInstruction c e).pc + if (decodedInstruction c e).isCompressed then 2 else 4 := by
    have hc : (decodedInstruction c e).isCompressed = isRvc e.instruction :=
      isCompressed_compressedDecoder e.instruction
    rw [hc]
    rfl
  have htarget : e.address + (decodedInstruction c e).result =
      (decodedInstruction c e).pc + (decodedInstruction c e).result := rfl
  cases hf : (instrScan e.instruction).flow with
  | none =>
      rw [hf] at hdec
      have hcf : e.branchPredict.cf = .NoCF := by
        cases hcf : e.branchPredict.cf <;> simp_all [FlowOk]
      rw [successor, if_pos hcf, realSuccessor, if_neg hdec, hseq]
  | jump =>
      rw [hf] at hdec
      obtain ⟨hfu, hop, hres⟩ := hdec
      have hsucc : successor e = e.address + (instrScan e.instruction).imm := by
        cases hcf : e.branchPredict.cf <;> simp [FlowOk, hcf, hf] at hflow
        exact hflow
      rw [hsucc, ← hres, htarget]
      simp [realSuccessor, hfu, hop]
  | jalr =>
      rw [hf] at hdec
      obtain ⟨hfu, hop⟩ := hdec
      have hv : (branchIn c e a b).branchValid = true := by
        show ((decodedInstruction c e).fu == .CTRL_FLOW) = true
        simp [hfu]
      obtain ⟨hcf, ht⟩ := BranchUnit.jalr_accepted hv hop hm
      have hcf : e.branchPredict.cf ≠ .NoCF := hcf
      have ht : BranchUnit.even (a + (decodedInstruction c e).result) =
        e.branchPredict.predictAddress := ht
      rw [successor, if_neg hcf, ← ht]
      simp [realSuccessor, hfu, hop]
  | branch =>
      rw [hf] at hdec
      obtain ⟨hfu, hop, hres⟩ := hdec
      have hv : (branchIn c e a b).branchValid = true := by
        show ((decodedInstruction c e).fu == .CTRL_FLOW) = true
        simp [hfu]
      have htaken : BranchUnit.taken (decodedInstruction c e).op a b =
          (e.branchPredict.cf == .Branch) := by
        have hacc : BranchUnit.aluBranchRes
            ⟨(decodedInstruction c e).op, a, b, (decodedInstruction c e).result⟩ =
              (e.branchPredict.cf == .Branch) := BranchUnit.branch_accepted hv hop hm
        rw [← hacc, BranchUnit.aluBranchRes_eq]
      have hreal : realSuccessor (decodedInstruction c e) a b =
          if BranchUnit.taken (decodedInstruction c e).op a b then
            (decodedInstruction c e).pc + (decodedInstruction c e).result
          else (decodedInstruction c e).pc + if (decodedInstruction c e).isCompressed then 2 else 4 := by
        unfold realSuccessor
        rw [if_pos hfu]
        split <;> simp_all [opIsBranch]
      rw [hreal, htaken, ← hseq, ← htarget, hres]
      cases hcf : e.branchPredict.cf <;> simp [FlowOk, hcf, hf] at hflow
      · simp [successor, hcf]
      · simp [hflow]

end Real

/-! ## Consecutive entries -/

def InMemory (imem : Parcel → BitVec 16) (p : Parcel) (v : BitVec 16) : Prop := v = imem p

instance (imem : Parcel → BitVec 16) (p : Parcel) (v : BitVec 16) : Decidable (InMemory imem p v) :=
  inferInstanceAs (Decidable (v = imem p))

/-- `e₁` is delivered in the cycle `i` after the cycles `pre`, and `e₂` is the next one,
in the cycle `j` after the cycles `mid`, with no flush in between. -/
structure Consecutive (pre : List Input) (i : Input) (mid : List Input) (j : Input)
    (e₁ e₂ : FetchEntry) : Prop where
  first : delivered (stream.run pre).q i = [e₁]
  no_flush : ∀ k ∈ i :: mid, k.flush = false
  between : stream.logFrom (fun s k => delivered s.q k) (stream.run (pre ++ [i])) mid = []
  second : delivered (stream.run (pre ++ i :: mid)).q j = [e₂]

/-- In a run without a return on an empty stack, an entry is followed by the instruction
that the memory holds where the entry predicts it; when the branch unit accepts the
prediction, this is where the program goes on. -/
theorem prediction_matches_fetch (imem : Parcel → BitVec 16) (ins : List Input)
    (h : stream.Throughout (Clean (InMemory imem)) ins) (pre : List Input) (i : Input)
    (mid : List Input) (j : Input) (post : List Input) (hins : ins = pre ++ i :: (mid ++ j :: post))
    (e₁ e₂ : FetchEntry) (hc : Consecutive pre i mid j e₁ e₂) :
    Stored (InMemory imem) e₂.address e₂.instruction ∧ e₂.address = successor e₁ ∧
      ∀ (c : Hart) (a b : XLen), (decodedInstruction c e₁).ex.valid = false →
        (BranchUnit.resolvedBranch (branchIn c e₁ a b)).isMispredict = false →
        e₂.address = realSuccessor (decodedInstruction c e₁) a b := by
  have hins' : ins = pre ++ i :: mid ++ j :: post := by simp [hins]
  have hpre : Ok (InMemory imem) (stream.run pre) := by
    rw [hins] at h
    exact ok_run pre h.take
  have hmid : Ok (InMemory imem) (stream.run (pre ++ i :: mid)) := by
    rw [hins'] at h
    exact ok_run _ h.take
  obtain ⟨hv1, hr1, rfl⟩ := delivered_eq hc.first
  obtain ⟨hv2, -, rfl⟩ := delivered_eq hc.second
  obtain ⟨haddr1, hok1⟩ := hpre.entry hv1
  obtain ⟨haddr2, hok2⟩ := hmid.entry hv2
  have hdue1 : (stream.run (pre ++ [i])).due = successor (fetchEntry (stream.run pre).q.queue) := by
    rw [Machine.run_snoc]
    show dueNext (stream.run pre) i = _
    simp [dueNext, hc.no_flush i List.mem_cons_self, hv1, hr1]
  have hboot : (stream.run (pre ++ [i])).q.npcRstLoad = false := by
    rw [Machine.run_snoc]
    rfl
  have hdue2 : (stream.run (pre ++ i :: mid)).due = (stream.run (pre ++ [i])).due := by
    have happ : pre ++ i :: mid = pre ++ [i] ++ mid := by simp
    rw [happ, Machine.run_append]
    exact due_runFrom _ mid hboot (fun k hk => hc.no_flush k (List.mem_cons_of_mem _ hk)) hc.between
  have hsucc := haddr2.trans (hdue2.trans hdue1)
  refine ⟨?_, hsucc, ?_⟩
  · rw [haddr2]
    exact hok2.1
  · intro c a b hex hm
    rw [hsucc]
    rw [← haddr1] at hok1
    exact successor_eq_realSuccessor c _ a b hok1.2 hex hm

/-! ## Runs of a few cycles -/

instance (H : Parcel → BitVec 16 → Prop) [∀ p v, Decidable (H p v)] (s : State) (i : Input) :
    Decidable (Clean H s i) :=
  decidable_of_iff (Wired s i ∧ Even i ∧ Cached H s i ∧ (i.flush = false → emptyReturn s.q = false))
    ⟨fun ⟨h1, h2, h3, h4⟩ => ⟨h1, h2, h3, h4⟩, fun ⟨h1, h2, h3, h4⟩ => ⟨h1, h2, h3, h4⟩⟩

instance (pre : List Input) (i : Input) (mid : List Input) (j : Input) (e₁ e₂ : FetchEntry) :
    Decidable (Consecutive pre i mid j e₁ e₂) :=
  decidable_of_iff
    (delivered (stream.run pre).q i = [e₁] ∧ (∀ k ∈ i :: mid, k.flush = false) ∧
      stream.logFrom (fun s k => delivered s.q k) (stream.run (pre ++ [i])) mid = [] ∧
      delivered (stream.run (pre ++ i :: mid)).q j = [e₂])
    ⟨fun ⟨h1, h2, h3, h4⟩ => ⟨h1, h2, h3, h4⟩, fun ⟨h1, h2, h3, h4⟩ => ⟨h1, h2, h3, h4⟩⟩

/-- A cycle of a frontend that boots at `0x100`. The cache answers and takes a request, or
an entry is delivered. -/
def bootCycle (answer : Option (XLen × BitVec 32)) (take : Bool) : Input :=
  { (default : Input) with
    bootAddr := 0x100
    icache := ⟨!take, answer.isSome, (answer.getD (0, 0)).2, (answer.getD (0, 0)).1, 0⟩
    fetchEntryReady := take }

def callAtBoot : Parcel → BitVec 16 := fun p =>
  if p = 0x80 then 0x00ef else if p = 0x81 then 0x0100 else if p = 0x88 then 0x8082 else 0x0001

/-- The call is fetched, its target, and the instruction that the return is predicted to. -/
def callAndReturn : List Input :=
  [bootCycle none false, bootCycle (some (0x100, 0x010000ef)) false, bootCycle none false,
    bootCycle (some (0x110, 0x00018082)) false, bootCycle none false,
    bootCycle (some (0x104, 0x00010001)) false]

theorem prediction_matches_fetch_callAndReturn :
    let take := bootCycle none true
    stream.Throughout (Clean (InMemory callAtBoot)) (callAndReturn ++ [take, take, take]) ∧
      ∃ e₁ e₂, Consecutive (callAndReturn ++ [take]) take [] take e₁ e₂ ∧
        e₁.address = 0x110 ∧ e₁.branchPredict.cf = .Return ∧ e₂.address = 0x104 ∧
          e₂.address = successor e₁ := by
  intro take
  have h : stream.Throughout (Clean (InMemory callAtBoot))
      (callAndReturn ++ [take, take, take]) := by decide +kernel
  have hc : Consecutive (callAndReturn ++ [take]) take [] take
      (fetchEntry (stream.run (callAndReturn ++ [take])).q.queue)
      (fetchEntry (stream.run (callAndReturn ++ [take, take])).q.queue) := by decide +kernel
  exact ⟨h, _, _, hc, by decide +kernel, by decide +kernel, by decide +kernel,
    (prediction_matches_fetch callAtBoot _ h _ _ _ _ [] rfl _ _ hc).2.1⟩

def returnAtBoot : Parcel → BitVec 16 := fun p =>
  if p = 0x80 then 0x8082 else if p < 0x80 then 0x4501 else 0x0001

/-- The return is fetched while the return address stack is empty. -/
def emptyStackRun : List Input :=
  [bootCycle none false, bootCycle (some (0x100, 0x00018082)) false,
    bootCycle (some (0x104, 0x00010001)) false]

/-- A return on an empty stack is delivered with the predicted address zero, and the
instruction behind it in memory as the one at address zero. The branch unit accepts it
when the program returns to address zero. -/
theorem return_on_empty_stack :
    stream.Throughout (fun s i => Wired s i ∧ Even i ∧ Cached (InMemory returnAtBoot) s i)
        (emptyStackRun ++ [bootCycle none true, bootCycle none true]) ∧
      ∃ e₁ e₂, Consecutive emptyStackRun (bootCycle none true) [] (bootCycle none true) e₁ e₂ ∧
        (BranchUnit.resolvedBranch (branchIn default e₁ 0 0)).isMispredict = false ∧
        e₂.address = 0 ∧ ¬Stored (InMemory returnAtBoot) e₂.address e₂.instruction :=
  ⟨by decide +kernel, fetchEntry (stream.run emptyStackRun).q.queue,
    fetchEntry (stream.run (emptyStackRun ++ [bootCycle none true])).q.queue, by decide +kernel,
    by decide +kernel, by decide +kernel, by decide +kernel⟩

end Cva6.Frontend
