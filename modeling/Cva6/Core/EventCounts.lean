import Cva6.Core.Operands
import Cva6.Core.StoreCommit
import Cva6.Csr.PerfCounters
/-!
# The event counters of the core

The performance counters at the commit stage of the core. What they add in a cycle is compared
with the instructions that the cycle commits.
-/

namespace Cva6.Core

open Cva6.Sync Cva6.Issue
open Cva6.Perf (Counter)

/-! ## What the decoder calls a jump -/

def isJump (op : FuOp) : Bool := op == .JAL || op == .JALR

theorem decodePrivileged_op (i : Decoder.Input) {d : Decoder.Decoded} (hop : d.op = .ADD) :
    isJump (Decoder.decodePrivileged i d).op = false := by
  unfold Decoder.decodePrivileged
  simp only [apply_ite Decoder.Decoded.op, hop]
  split_ifs <;> rfl

theorem decodeSystem_op (i : Decoder.Input) : isJump (Decoder.decodeSystem i).op = false := by
  have hset {op : FuOp} (hop : isJump op = false) :
      isJump (Decoder.csrSetOp i.instruction op) = false := by
    rcases Decoder.csrSetOp_cases i.instruction op with h | h
    · rw [h]
      rfl
    · rwa [h]
  unfold Decoder.decodeSystem
  split
  · exact decodePrivileged_op i rfl
  all_goals first
    | rfl
    | exact hset rfl

theorem decodeMiscMem_op (w : BitVec 32) : isJump (Decoder.decodeMiscMem w).op = false := by
  unfold Decoder.decodeMiscMem Decoder.decodeFence
  split <;> simp only [apply_ite Decoder.Decoded.op, ite_self] <;> rfl

theorem decodeOp_op (w : BitVec 32) : isJump (Decoder.decodeOp w).op = false := by
  unfold Decoder.decodeOp
  split
  · rfl
  · split <;> rfl

theorem decodeOpImm_op (w : BitVec 32) : isJump (Decoder.decodeOpImm w).op = false := by
  unfold Decoder.decodeOpImm
  split
  all_goals first
    | rfl
    | simp only [apply_ite Decoder.Decoded.op, ite_self]
      repeat' split
      all_goals rfl

theorem decodeStore_op (w : BitVec 32) : isJump (Decoder.decodeStore w).op = false := by
  unfold Decoder.decodeStore
  split <;> rfl

theorem decodeLoad_op (w : BitVec 32) : isJump (Decoder.decodeLoad w).op = false := by
  unfold Decoder.decodeLoad
  split <;> rfl

theorem decodeAmo_op (w : BitVec 32) : isJump (Decoder.decodeAmo w).op = false := by
  unfold Decoder.decodeAmo
  split <;> rfl

/-- A jump is a control-flow instruction, and a control-flow instruction decoded as an addition,
which is a branch of no kind, has no destination. -/
structure FlowOps (fu : Fu) (op : FuOp) (rd : RegAddr) : Prop where
  jump : isJump op = true → fu = .CTRL_FLOW
  add : fu = .CTRL_FLOW → op = .ADD → rd = 0

theorem FlowOps.of_other {fu : Fu} {op : FuOp} {rd : RegAddr} (hfu : fu ≠ .CTRL_FLOW)
    (hop : isJump op = false) : FlowOps fu op rd :=
  ⟨fun h => Bool.noConfusion (hop.symm.trans h), fun h => absurd h hfu⟩

theorem decoder_flowOps (i : Decoder.Input) :
    FlowOps (Decoder.decoder i).fu (Decoder.decoder i).op (Decoder.decoder i).rd := by
  have hfu {d : Decoder.Decoded} {u : Fu} (h : d.fu = u) (hu : u ≠ .CTRL_FLOW)
      (hop : isJump d.op = false) : FlowOps d.fu d.op d.rd := FlowOps.of_other (h ▸ hu) hop
  unfold Decoder.decoder
  split
  · exact hfu (u := .NONE) rfl (by decide) rfl
  split
  · exact hfu (Decoder.decodeSystem_fu _) (by decide) (decodeSystem_op _)
  · exact hfu (Decoder.decodeMiscMem_fu _) (by decide) (decodeMiscMem_op _)
  · exact FlowOps.of_other (Decoder.decodeOp_not_flow _) (decodeOp_op _)
  · refine FlowOps.of_other ?_ rfl
    show Decoder.opUnit i.instruction ≠ .CTRL_FLOW
    rcases Decoder.opUnit_cases i.instruction with h | h <;> simp [h]
  · exact hfu (Decoder.decodeOpImm_fu _) (by decide) (decodeOpImm_op _)
  · exact hfu (u := .ALU) rfl (by decide) rfl
  · exact hfu (Decoder.decodeStore_fu _) (by decide) (decodeStore_op _)
  · exact hfu (Decoder.decodeLoad_fu _) (by decide) (decodeLoad_op _)
  · exact hfu (Decoder.decodeAmo_fu _) (by decide) (decodeAmo_op _)
  · refine ⟨fun _ => Decoder.decodeBranch_fu _, fun _ _ => ?_⟩
    unfold Decoder.decodeBranch
    split <;> rfl
  · refine ⟨fun _ => (Decoder.decodeJalr_spec _).1, fun _ hop => ?_⟩
    exact FuOp.noConfusion ((Decoder.decodeJalr_spec i.instruction).2.symm.trans hop)
  · exact ⟨fun _ => rfl, fun _ hop => FuOp.noConfusion hop⟩
  · exact hfu (u := .ALU) rfl (by decide) rfl
  · exact hfu (u := .ALU) rfl (by decide) rfl
  · exact hfu (u := .NONE) rfl (by decide) rfl

theorem sb_flowOps (ins : List Input) (n : TransId) :
    FlowOps ((core.run ins).sb.mem n).sbe.fu ((core.run ins).sb.mem n).sbe.op
      ((core.run ins).sb.mem n).sbe.rd := by
  refine sb_decoded (p := fun e => FlowOps e.fu e.op e.rd) (fun _ => Iff.rfl)
    (FlowOps.of_other (by decide) rfl) ?_ ins n
  intro i
  have h := decoder_flowOps i.fetch
  refine ⟨h.jump, fun hfu hop => ?_⟩
  have hrd : (Decoder.decoder i.fetch).rd = 0 := h.add hfu hop
  show ((Decoder.decoder i.fetch).rd.setWidth 5).setWidth 6 = 0
  rw [hrd]
  rfl

/-! ## The core with its counters -/

structure CountedInput where
  core : Input
  l1IcacheMiss : Bool
  l1DcacheMiss : Bool
  itlbMiss : Bool
  dtlbMiss : Bool
  ifEmpty : Bool
  deriving Inhabited

structure Counted where
  s : State
  perf : Perf.Regs

def coreIn (x : Counted) (j : CountedInput) : Input :=
  { j.core with
    platform := { j.core.platform with perfData := Perf.dataO x.perf (j.core.csrAddr.setWidth 5) } }

variable (x : Counted) (j : CountedInput)

def csrUpdate : Csr.Update := Backend.csrUpdate x.s.be (backendIn x.s (coreIn x j))

def perfIn : Perf.Input where
  debugMode := x.s.be.csr.debugMode
  addr := j.core.csrAddr.setWidth 5
  we := (csrUpdate x j).perfWe
  data := (csrUpdate x j).perfData
  commitInstr := Scoreboard.commitInstr x.s.sb
  commitAck := (out x.s (coreIn x j)).commitAck
  l1IcacheMiss := j.l1IcacheMiss
  l1DcacheMiss := j.l1DcacheMiss
  itlbMiss := j.itlbMiss
  dtlbMiss := j.dtlbMiss
  sbFull := Scoreboard.issueFull x.s.sb
  ifEmpty := j.ifEmpty
  exValid := (Backend.ex x.s.be (backendIn x.s (coreIn x j))).valid
  eret := (csrUpdate x j).eret
  isMispredict := j.core.isMispredict

def counted : Machine Counted CountedInput where
  init := ⟨core.init, Perf.reset⟩
  next x j := ⟨core.next x.s (coreIn x j), Perf.next x.perf (perfIn x j)⟩

theorem run_counted (ins : List CountedInput) :
    (counted.run ins).s = core.run (counted.log (fun x j => [coreIn x j]) ins) := by
  induction ins using List.reverseRecOn with
  | nil => rfl
  | append_singleton ins j ih =>
      rw [Machine.run_snoc, Machine.log_snoc, Machine.run_snoc, ← ih]
      rfl

/-! ## What should be counted -/

def committed : List ScoreboardEntry :=
  acknowledged (perfIn x j).commitInstr (perfIn x j).commitAck

def isCall (e : ScoreboardEntry) : Bool := isJump e.op && e.rd == 1

def isReturn (e : ScoreboardEntry) : Bool := e.op == .JALR && e.rs1 == 1 && e.rd == 0

def classes : List (Counter × (ScoreboardEntry → Bool)) :=
  [(.MLOAD, fun e => e.fu == .LOAD), (.MSTORE, fun e => e.fu == .STORE),
    (.MBRANCH_JUMP, fun e => e.fu == .CTRL_FLOW), (.MCALL, isCall), (.MRET, isReturn)]

/-- Each counter is the number of committed instructions of its class. -/
def CountsEvery (ins : List CountedInput) : Prop :=
  ∀ c ∈ classes,
    (counted.run ins).perf c.1 = BitVec.ofNat 32 ((counted.log committed ins).countP c.2)

instance (ins : List CountedInput) : Decidable (CountsEvery ins) :=
  inferInstanceAs (Decidable (∀ c ∈ classes, _))

/-- The core is outside debug mode and none of the counters of instructions is written. -/
def Counting (x : Counted) (j : CountedInput) : Prop :=
  (perfIn x j).debugMode = false ∧
    ∀ c ∈ classes, ((perfIn x j).we && Counter.ofAddr (perfIn x j).addr == some c.1) = false

instance (x : Counted) (j : CountedInput) : Decidable (Counting x j) :=
  inferInstanceAs (Decidable (_ ∧ ∀ c ∈ classes, _))

/-- No load, branch or jump is committed on the second port, and neither a call nor a return on
the first. -/
structure Seen (x : Counted) (j : CountedInput) : Prop where
  load : (perfIn x j).commitAck.ack1 = true → (perfIn x j).commitInstr.instr1.fu ≠ .LOAD
  flow : (perfIn x j).commitAck.ack1 = true → (perfIn x j).commitInstr.instr1.fu ≠ .CTRL_FLOW
  call : (perfIn x j).commitAck.ack0 = true → isCall (perfIn x j).commitInstr.instr0 = false
  ret : (perfIn x j).commitAck.ack0 = true → isReturn (perfIn x j).commitInstr.instr0 = false

instance (x : Counted) (j : CountedInput) : Decidable (Seen x j) :=
  decidable_of_iff (((perfIn x j).commitAck.ack1 = true →
      (perfIn x j).commitInstr.instr1.fu ≠ .LOAD ∧
        (perfIn x j).commitInstr.instr1.fu ≠ .CTRL_FLOW) ∧
    ((perfIn x j).commitAck.ack0 = true → isCall (perfIn x j).commitInstr.instr0 = false ∧
      isReturn (perfIn x j).commitInstr.instr0 = false))
    ⟨fun h => ⟨fun a => (h.1 a).1, fun a => (h.1 a).2, fun a => (h.2 a).1, fun a => (h.2 a).2⟩,
      fun h => ⟨fun a => ⟨h.load a, h.flow a⟩, fun a => ⟨h.call a, h.ret a⟩⟩⟩

section Cycle

variable {x j}

theorem countP_committed (p : ScoreboardEntry → Bool) : (committed x j).countP p =
    ((perfIn x j).commitAck.ack0 && p (perfIn x j).commitInstr.instr0).toNat +
      ((perfIn x j).commitAck.ack1 && p (perfIn x j).commitInstr.instr1).toNat := by
  have hport (a : Bool) (e : ScoreboardEntry) :
      (if a then [e] else []).countP p = (a && p e).toNat := by
    cases a with
    | false => rfl
    | true => cases h : p e <;> simp [h]
  rw [committed, acknowledged, List.countP_append, hport, hport]

theorem count_step (k n : Nat) (b : Bool) (hn : n ≤ 2) :
    (if b then BitVec.ofNat 32 k + 1 else BitVec.ofNat 32 k) = BitVec.ofNat 32 (k + n) ↔
      b.toNat = n := by
  have hadd : (if b then BitVec.ofNat 32 k + 1 else BitVec.ofNat 32 k) =
      BitVec.ofNat 32 k + BitVec.ofNat 32 b.toNat := by
    cases b <;> simp
  rw [hadd, BitVec.ofNat_add, BitVec.add_right_inj, ← BitVec.toNat_inj, BitVec.toNat_ofNat,
    BitVec.toNat_ofNat, Nat.mod_eq_of_lt, Nat.mod_eq_of_lt]
  · omega
  · cases b <;> simp

/-- The second port commits no stores. -/
theorem not_store_of_ack1 (h : (perfIn x j).commitAck.ack1 = true) :
    (perfIn x j).commitInstr.instr1.fu ≠ .STORE := by
  intro hst
  have hport := (of_ack1 (s := x.s) (i := coreIn x j) h).2.2.2.2.2
  have hst : (port1 x.s).fu = .STORE := hst
  rw [hst] at hport
  exact Bool.noConfusion hport

/-- The counter of calls waits for an operation that no call has. -/
theorem FlowOps.testsCall {e : ScoreboardEntry} (h : FlowOps e.fu e.op e.rd) :
    Perf.testsCall e = false := by
  by_contra htest
  simp only [Bool.not_eq_false, Perf.testsCall, Bool.and_eq_true, beq_iff_eq] at htest
  obtain ⟨⟨hfu, hop⟩, hrd⟩ := htest
  rw [h.add hfu hop] at hrd
  exact absurd hrd (by decide)

theorem FlowOps.not_jump {e : ScoreboardEntry} (h : FlowOps e.fu e.op e.rd)
    (hfu : e.fu ≠ .CTRL_FLOW) : isCall e = false ∧ isReturn e = false := by
  have hjump : isJump e.op = false := by
    by_contra hj
    exact hfu (h.jump (Bool.not_eq_false _ ▸ hj))
  have hjalr : (e.op == .JALR) = false := (Bool.or_eq_false_iff.mp hjump).2
  simp [isCall, isReturn, hjump, hjalr]

theorem testsReturn_isCall {e : ScoreboardEntry} (h : Perf.testsReturn e = true) :
    isCall e = true := by
  simp only [Perf.testsReturn, Bool.and_eq_true, beq_iff_eq] at h
  simp [isCall, isJump, h]

/-- In a cycle the counters go up by the number of instructions committed exactly when the loop
sees them all and neither calls nor returns are tested. -/
theorem events_iff (h0 : FlowOps (perfIn x j).commitInstr.instr0.fu
      (perfIn x j).commitInstr.instr0.op (perfIn x j).commitInstr.instr0.rd)
    (h1 : FlowOps (perfIn x j).commitInstr.instr1.fu
      (perfIn x j).commitInstr.instr1.op (perfIn x j).commitInstr.instr1.rd) :
    (∀ c ∈ classes, (Perf.event (perfIn x j) c.1).toNat = (committed x j).countP c.2) ↔
      Seen x j := by
  have hstore := @not_store_of_ack1 x j
  have hzero : ∀ a b : Bool, 0 = a.toNat + b.toNat ↔ a = false ∧ b = false := by decide
  simp only [classes, List.forall_mem_cons, List.not_mem_nil, false_imp_iff, implies_true, and_true,
    Perf.event, Perf.retired_eq, countP_committed, Nat.left_eq_add, Bool.toNat_eq_zero,
    Bool.and_eq_false_imp, beq_eq_false_iff_ne, ne_eq, h0.testsCall, Bool.and_false, Bool.toNat_false,
    hzero]
  constructor
  · rintro ⟨hload, -, hflow, ⟨hcall, -⟩, hret⟩
    refine ⟨hload, hflow, hcall, fun ha => ?_⟩
    have hlast : ((perfIn x j).commitAck.ack1 &&
        isReturn (perfIn x j).commitInstr.instr1) = false := by
      cases ha1 : (perfIn x j).commitAck.ack1 with
      | true => exact (h1.not_jump (hflow ha1)).2
      | false => rfl
    have htest : Perf.testsReturn (perfIn x j).commitInstr.instr0 = false := by
      by_contra ht
      exact Bool.noConfusion ((hcall ha).symm.trans (testsReturn_isCall (Bool.not_eq_false _ ▸ ht)))
    rw [hlast, htest, ha, Bool.true_and, Bool.true_and] at hret
    exact Bool.toNat_eq_zero.mp hret.symm
  · intro h
    have hret (ha : (perfIn x j).commitAck.ack0 = true) :
        Perf.testsReturn (perfIn x j).commitInstr.instr0 = false := by
      by_contra ht
      exact Bool.noConfusion
        ((h.call ha).symm.trans (testsReturn_isCall (Bool.not_eq_false _ ▸ ht)))
    refine ⟨h.load, hstore, h.flow, ⟨h.call, fun ha => (h1.not_jump (h.flow ha)).1⟩, ?_⟩
    have hzero0 : ((perfIn x j).commitAck.ack0 &&
        isReturn (perfIn x j).commitInstr.instr0) = false := Bool.and_eq_false_imp.mpr h.ret
    have hzero1 : ((perfIn x j).commitAck.ack1 &&
        isReturn (perfIn x j).commitInstr.instr1) = false :=
      Bool.and_eq_false_imp.mpr fun ha => (h1.not_jump (h.flow ha)).2
    rw [hzero0, hzero1, Bool.and_eq_false_imp.mpr hret]
    rfl

end Cycle

/-! ## Runs -/

theorem countsEvery_nil : CountsEvery [] := by
  intro c _
  rfl

theorem countsEvery_snoc {ins : List CountedInput} {j : CountedInput} (h : CountsEvery ins)
    (hj : Counting (counted.run ins) j) :
    CountsEvery (ins ++ [j]) ↔ Seen (counted.run ins) j := by
  have hflow (n : TransId) := sb_flowOps (counted.log (fun x j => [coreIn x j]) ins) n
  rw [← run_counted] at hflow
  rw [← events_iff (hflow _) (hflow _)]
  refine forall₂_congr fun c hc => ?_
  have hnext : (counted.run (ins ++ [j])).perf c.1 =
      Perf.next (counted.run ins).perf (perfIn (counted.run ins) j) c.1 := by
    rw [Machine.run_snoc]
    rfl
  rw [hnext, Perf.next_of_not_written hj.1 (hj.2 c hc), h c hc, Machine.log_snoc,
    List.countP_append]
  refine count_step _ _ _ ?_
  rw [countP_committed]
  have hle (b : Bool) : b.toNat ≤ 1 := by cases b <;> decide
  exact Nat.add_le_add (hle _) (hle _)

/-- In a run outside debug mode that does not write them, the counters of loads, stores,
control-flow instructions, calls and returns are right after every cycle exactly when every
cycle commits no load, branch or jump on the second port and neither a call nor a return on the
first. -/
theorem counts_every_iff (ins : List CountedInput) (h : counted.Throughout Counting ins) :
    (∀ pre, pre <+: ins → CountsEvery pre) ↔ counted.Throughout Seen ins := by
  induction ins using List.reverseRecOn with
  | nil =>
      refine iff_of_true ?_ Machine.throughout_nil
      intro pre hpre
      rw [List.prefix_nil.mp hpre]
      exact countsEvery_nil
  | append_singleton ins j ih =>
      obtain ⟨hins, hj⟩ := Machine.throughout_snoc.mp h
      rw [Machine.throughout_snoc, ← ih hins]
      constructor
      · intro hall
        have hpre := fun pre hp => hall pre (List.IsPrefix.trans hp (List.prefix_append ins [j]))
        exact ⟨hpre, (countsEvery_snoc (hpre ins (List.prefix_refl ins)) hj).mp
          (hall _ (List.prefix_refl _))⟩
      · rintro ⟨hpre, hseen⟩ pre hp
        rcases List.prefix_concat_iff.mp hp with rfl | hp
        · exact (countsEvery_snoc (hpre ins (List.prefix_refl ins)) hj).mpr hseen
        · exact hpre pre hp

def countedRun (w : BitVec 32) : List CountedInput :=
  [{ (default : CountedInput) with core := .offer w },
    { (default : CountedInput) with core := Input.quiet.written 0 0 },
    { (default : CountedInput) with core := .quiet }]

/-- `beq x0, x0, 8`. -/
theorem counts_every_branch : (counted.run (countedRun 0x00000463)).perf .MBRANCH_JUMP = 1 ∧
    ∀ pre, pre <+: countedRun 0x00000463 → CountsEvery pre :=
  ⟨by decide +kernel, (counts_every_iff _ (by decide +kernel)).mpr (by decide +kernel)⟩

/-- `jal x1, 8` is a call that no counter sees as one. -/
theorem call_not_counted : counted.Throughout Counting (countedRun 0x008000ef) ∧
    ¬CountsEvery (countedRun 0x008000ef) := by
  decide +kernel

end Cva6.Core
