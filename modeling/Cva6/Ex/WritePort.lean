import Cva6.Ex.FixedLatency
/-!
# The write port of the fixed-latency units

The issue stage and the units keep a schedule for the port: a one-cycle result is due in the
cycle after the issue, a product a cycle later, and a quotient when the divider is done.
-/

namespace Cva6.Ex

open Cva6.Sync Cva6.Issue Cva6.Sync.Schedule
open Cva6.Mult (mult)

/-! ## The instruction that was issued last -/

/-- The valid flags of the issue stage belong to the unit of the instruction, if at all. -/
structure Flags (q : ReadOperands.Regs) (valid : Bool) : Prop where
  alu : q.aluValid = (valid && q.fu == .ALU)
  branch : q.branchValid = (valid && q.fu == .CTRL_FLOW)
  csr : q.csrValid = (valid && q.fu == .CSR)
  mult : q.multValid = (valid && q.fu == .MULT)

def Dividing (m : Mult.State) (n : Nat) (v : TransId × XLen) : Prop :=
  mult.Answers (fun i => i.flush = false) Mult.divOffer Mult.divTaken m n v

inductive Held (q : ReadOperands.Regs) : Schedule WriteBack → Prop
  | none (hflags : Flags q false) : Held q []
  | oneCycle (hflags : Flags q true) (hfu : q.fu = .ALU ∨ q.fu = .CTRL_FLOW ∨ q.fu = .CSR) :
      Held q [(ownResult q, 0)]
  | product (hflags : Flags q true) (hfu : q.fu = .MULT) (hop : Mult.isMul q.operator = true) :
      Held q [(ownResult q, 1)]
  | division (n : Nat) (hflags : Flags q true) (hfu : q.fu = .MULT)
      (hop : Mult.isDivision q.operator = true) (hn : n ≤ 33)
      (hdiv : Dividing (mult.next mult.init (multIn q false)) n
        (q.transId, Mult.value q.operator q.operandA q.operandB)) :
      Held q [(ownResult q, n + 1)]

variable {s : State} {i : Input} {q : ReadOperands.Regs} {r : Schedule WriteBack}

theorem multIn_of_valid (h : q.multValid = true) (flush : Bool) :
    multIn q flush = ⟨q.operator, q.operandA, q.operandB, q.transId, true, flush⟩ := by
  simp [multIn, h]

theorem multIn_of_not_valid (h : q.multValid = false) (flush : Bool) :
    multIn q flush = ⟨.ADD, 0, 0, 0, false, flush⟩ := by
  simp [multIn, h]

theorem Flags.multValid (h : Flags q true) (hfu : q.fu = .MULT) : q.multValid = true := by
  simp [h.mult, hfu]

theorem held_of_flags (h : Flags q true) (hflu : isFlu q.fu = true)
    (hdef : q.fu = .MULT → Mult.isDefined q.operator = true) :
    ∃ n, Held q [(ownResult q, n)] := by
  by_cases hfu : q.fu = .MULT
  · have hvalid := h.multValid hfu
    have hop := hdef hfu
    rw [Mult.isDefined, Bool.or_eq_true] at hop
    rcases hop with hop | hop
    · exact ⟨1, .product h hfu hop⟩
    · have hstart : Mult.Starts mult.init (multIn q false) := by
        rw [multIn_of_valid hvalid]
        exact ⟨rfl, rfl, rfl, hop⟩
      have hcomputes := hstart.computes_value
      obtain ⟨n, hn, hdiv⟩ := Mult.answers_of_computes hcomputes
      refine ⟨n + 1, .division n h hfu hop hn ?_⟩
      rw [multIn_of_valid hvalid] at hdiv ⊢
      exact hdiv
  · refine ⟨0, .oneCycle h ?_⟩
    revert hflu hfu
    cases q.fu <;> simp [isFlu]

theorem flags_next : Flags (ReadOperands.next s.iro (iroIn s i)) (issues s i) := by
  have hcase (f : Fu) (hf : isFlu f = true) (v : Bool) (e : Fu) :
      (v && e == f) = ((v && isFlu e) && e == f) := by
    by_cases he : e = f
    · rw [he, hf]
      simp
    · simp [beq_eq_false_iff_ne.mpr he]
  exact ⟨hcase .ALU rfl _ _, hcase .CTRL_FLOW rfl _ _, hcase .CSR rfl _ _, hcase .MULT rfl _ _⟩

theorem held_next (hlegal : Legal i) :
    ∃ new, items new = issued s i ∧ Held (ReadOperands.next s.iro (iroIn s i)) new := by
  have hflags := flags_next (s := s) (i := i)
  cases hissue : issues s i with
  | false =>
      rw [hissue] at hflags
      exact ⟨[], by simp [issued, hissue, items], .none hflags⟩
  | true =>
      rw [hissue] at hflags
      unfold issues at hissue
      simp only [Bool.and_eq_true, Bool.not_eq_true'] at hissue
      obtain ⟨n, hheld⟩ := held_of_flags hflags hissue.2 fun hfu => hlegal hissue.1.1.1.1 hfu
      exact ⟨_, by simp [issued, issues, hissue, items], hheld⟩

/-- An issue needs the units to be ready, and only a multiplication or a division follows
such an instruction. -/
theorem ready_of_issues (h : issues s i = true) :
    Mult.multReady s.mult (multIn s.iro i.flush) = true ∧
      (s.iro.multValid = true → (ReadOperands.next s.iro (iroIn s i)).multValid = true) := by
  have hflags := flags_next (s := s) (i := i)
  rw [h] at hflags
  unfold issues at h
  simp only [Bool.and_eq_true, Bool.not_eq_true'] at h
  obtain ⟨⟨⟨⟨hex, hvalid⟩, hack⟩, -⟩, hflu⟩ := h
  have hex' : (iroIn s i).issueInstr.ex.valid = false := hex
  have hne : i.issue.issueInstr.fu ≠ .NONE := by
    intro hfu
    simp [hfu, isFlu] at hflu
  have hready : fluReady s i = true := by
    by_contra hbusy
    rw [Bool.not_eq_true] at hbusy
    have hfu : ReadOperands.fuBusy (iroIn s i) = true := by
      have hissue : (iroIn s i).issueInstr.fu = i.issue.issueInstr.fu := rfl
      have hflu' : (iroIn s i).fluReady = false := hbusy
      rw [ReadOperands.fuBusy, hissue]
      revert hflu
      cases i.issue.issueInstr.fu <;> simp [isFlu, hflu']
    have hne' : ((iroIn s i).issueInstr.fu == .NONE) = false := beq_eq_false_iff_ne.mpr hne
    simp [ReadOperands.issueAck, hfu, hex', hne'] at hack
  refine ⟨((Bool.and_eq_true _ _).mp hready).2, ?_⟩
  intro hmult
  by_contra hno
  have hfu : ((iroIn s i).issueInstr.fu != .MULT) = true := by
    rw [bne_iff_ne]
    intro hfu
    exact hno (hflags.multValid hfu)
  simp [ReadOperands.issueAck, hmult, hfu] at hack

/-! ## The schedule -/

def productOut (m : Mult.State) : WriteBack := ⟨m.mul.transId, Mult.Multiplier.result m.mul, none⟩

/-- The schedule of the stage. A product in its output register is followed by the
multiplication unit only, and while the divider works there is nothing else. -/
inductive Holds (s : State) : Schedule WriteBack → Prop
  | idle (r : Schedule WriteBack) (hmul : s.mult.mul.multValid = false)
      (hdiv : s.mult.div.state = .IDLE) (hheld : Held s.iro r) : Holds s r
  | product (r : Schedule WriteBack) (hmul : s.mult.mul.multValid = true)
      (hdiv : s.mult.div.state = .IDLE) (hheld : Held s.iro r)
      (honly : r ≠ [] → s.iro.multValid = true) : Holds s ((productOut s.mult, 0) :: r)
  | division (n : Nat) (v : TransId × XLen) (hn : n ≤ 33) (hmul : s.mult.mul.multValid = false)
      (hdiv : s.mult.div.state ≠ .IDLE) (hflags : Flags s.iro false)
      (hanswer : Dividing s.mult n v) : Holds s [(⟨v.1, v.2, none⟩, n)]

theorem Held.pos (h : Held q r) (honly : r ≠ [] → q.multValid = true) : ∀ e ∈ r, 0 < e.2 := by
  cases h with
  | none => simp
  | oneCycle hflags hfu =>
      have hmult := honly (by simp)
      rw [hflags.mult] at hmult
      rcases hfu with hfu | hfu | hfu <;> simp [hfu] at hmult
  | product => simp
  | division => simp

theorem Held.time_le (h : Held q r) : ∀ e ∈ r, e.2 ≤ 34 := by
  cases h with
  | none => simp
  | oneCycle => simp
  | product => simp
  | division n hflags hfu hop hn =>
      intro e he
      rw [List.mem_singleton.mp he]
      exact Nat.succ_le_succ hn

theorem Holds.time_le (h : Holds s r) : ∀ e ∈ r, e.2 ≤ 34 := by
  cases h with
  | idle r hmul hdiv hheld => exact hheld.time_le
  | product r hmul hdiv hheld honly => simpa using hheld.time_le
  | division n v hn => simp; omega

theorem Held.ordered (h : Held q r) : Ordered r := by
  cases h with
  | none => exact List.Pairwise.nil
  | oneCycle => exact List.pairwise_singleton _ _
  | product => exact List.pairwise_singleton _ _
  | division => exact List.pairwise_singleton _ _

theorem Holds.ordered (h : Holds s r) : Ordered r := by
  cases h with
  | idle r hmul hdiv hheld => exact hheld.ordered
  | product r hmul hdiv hheld honly =>
      exact List.pairwise_cons.mpr ⟨fun e he => hheld.pos honly e he, hheld.ordered⟩
  | division n v hn => exact List.pairwise_singleton _ _

/-! ## The port in one cycle -/

section Divider

variable {m : Mult.State} {j : Mult.Input}

theorem divValid_of_idle (h : m.div.state = .IDLE) : Mult.divValid m j = false := by
  unfold Mult.divValid Mult.Serdiv.fsm
  simp only [h]
  cases (Mult.divIn m j).inVld <;> cases (Mult.divIn m j).flush <;> rfl

theorem multReady_of_busy (h : m.div.state ≠ .IDLE) : Mult.multReady m j = false := by
  unfold Mult.multReady Mult.Serdiv.fsm
  cases hs : m.div.state <;> simp_all [apply_ite Mult.Serdiv.Fsm.inRdy]

theorem multReady_of_start (h : Mult.Starts m j) : Mult.multReady m j = false := by
  rw [Mult.multReady, h.loads.fsm_eq]

theorem idle_next (h : j.flush = true ∨ m.div.state = .IDLE ∧ (Mult.divIn m j).inVld = false) :
    (mult.next m j).div.state = .IDLE := by
  show (Mult.Serdiv.fsm m.div (Mult.divIn m j)).state = .IDLE
  rcases h with hf | ⟨hs, hv⟩
  · have hf : (Mult.divIn m j).flush = true := hf
    simp [Mult.Serdiv.fsm, hf]
  · simp only [Mult.Serdiv.fsm, hs, hv]
    cases (Mult.divIn m j).flush <;> rfl

end Divider

theorem port_of_flags (hdiv : s.mult.div.state = .IDLE) (ha : s.iro.aluValid = false)
    (hb : s.iro.branchValid = false) (hc : s.iro.csrValid = false) :
    needs s i = (if s.mult.mul.multValid then [productOut s.mult] else []) ∧
      written s i = needs s i := by
  have hraised : raised (fluException s) = none := by
    simp [raised, fluException, BranchUnit.branchException, branchIn, hb]
  have hidle := divValid_of_idle (j := multIn s.iro i.flush) hdiv
  cases hm : s.mult.mul.multValid <;>
    simp [needs, written, fluValid, fluTransId, fluResult, multValid, Mult.multValidO,
      Mult.multTransId, Mult.result, productOut, ha, hb, hc, hm, hidle, hraised]

theorem port_of_oneCycle (hmul : s.mult.mul.multValid = false) (hdiv : s.mult.div.state = .IDLE)
    (hflags : Flags s.iro true)
    (hfu : s.iro.fu = .ALU ∨ s.iro.fu = .CTRL_FLOW ∨ s.iro.fu = .CSR) :
    needs s i = [ownResult s.iro] ∧ written s i = needs s i := by
  have hidle := divValid_of_idle (j := multIn s.iro i.flush) hdiv
  have hmult : multValid s i = false := by simp [multValid, Mult.multValidO, hmul, hidle]
  obtain ⟨ha, hb, hc, -⟩ := hflags
  rcases hfu with hfu | hfu | hfu
  · rw [hfu] at ha hb hc
    have hraised : raised (fluException s) = none := by
      simp [raised, fluException, BranchUnit.branchException, branchIn, hb]
    simp [needs, written, fluValid, fluTransId, fluResult, ownResult, aluData, ha, hb, hc, hmul,
      hidle, hraised, hfu]
  · rw [hfu] at ha hb hc
    have hexc : fluException s = BranchUnit.branchException ⟨fuData s.iro, s.iro.pc,
        s.iro.isCompressedInstr, true, Alu.aluBranchRes (fuData s.iro), s.iro.branchPredict⟩ := by
      simp [fluException, branchIn, aluData, hb]
    simp [needs, written, fluValid, fluTransId, fluResult, ownResult, hexc, ha, hb, hc, hmul,
      hidle, hfu, hmult, BranchUnit.branchResult, BranchUnit.nextPc, branchIn]
  · rw [hfu] at ha hb hc
    have hraised : raised (fluException s) = none := by
      simp [raised, fluException, BranchUnit.branchException, branchIn, hb]
    simp [needs, written, fluValid, fluTransId, fluResult, ownResult, ha, hb, hc, hmul, hidle,
      hraised, hfu]

theorem Held.flags_of_mult (h : Held q r) (honly : r ≠ [] → q.multValid = true) :
    q.aluValid = false ∧ q.branchValid = false ∧ q.csrValid = false := by
  have hcase {v : Bool} (hf : Flags q v) (hv : v = true → q.fu = .MULT) :
      q.aluValid = false ∧ q.branchValid = false ∧ q.csrValid = false := by
    obtain ⟨ha, hb, hc, -⟩ := hf
    cases v with
    | false => simpa using ⟨ha, hb, hc⟩
    | true =>
        rw [hv rfl] at ha hb hc
        exact ⟨ha, hb, hc⟩
  cases h with
  | none hflags => exact hcase hflags (by simp)
  | oneCycle hflags hfu =>
      have hmult := honly (by simp)
      rw [hflags.mult] at hmult
      exact hcase hflags fun _ => by simpa using hmult
  | product hflags hfu hop => exact hcase hflags fun _ => hfu
  | division n hflags hfu hop hn hdiv => exact hcase hflags fun _ => hfu

theorem Dividing.offer_eq {m : Mult.State} {n : Nat} {v : TransId × XLen} (h : Dividing m n v) :
    Mult.divOffer m = if n = 0 then some v else none := by
  have hoffer : Mult.divOffer m = if n ≤ 0 then some v else none := h [] (by simp) rfl
  simpa using hoffer

/-- No two results need the port in one cycle, and what needs it is written: without a flush
it is what is due. -/
theorem Holds.port (h : Holds s r) :
    written s i = needs s i ∧ (needs s i = due r ∨ i.flush = true ∧ needs s i = []) := by
  cases h with
  | idle r hmul hdiv hheld =>
      cases hheld with
      | none hflags =>
          obtain ⟨ha, hb, hc, -⟩ := hflags
          obtain ⟨hneeds, hwritten⟩ := port_of_flags (i := i) hdiv ha hb hc
          exact ⟨hwritten, .inl (by simp [hneeds, hmul, due, items])⟩
      | oneCycle hflags hfu =>
          obtain ⟨hneeds, hwritten⟩ := port_of_oneCycle (i := i) hmul hdiv hflags hfu
          exact ⟨hwritten, .inl hneeds⟩
      | product hflags hfu hop =>
          obtain ⟨ha, hb, hc⟩ :=
            (Held.product hflags hfu hop).flags_of_mult fun _ => hflags.multValid hfu
          obtain ⟨hneeds, hwritten⟩ := port_of_flags (i := i) hdiv ha hb hc
          exact ⟨hwritten, .inl (by simp [hneeds, hmul, due, items])⟩
      | division n hflags hfu hop hn hanswer =>
          obtain ⟨ha, hb, hc⟩ :=
            (Held.division n hflags hfu hop hn hanswer).flags_of_mult fun _ => hflags.multValid hfu
          obtain ⟨hneeds, hwritten⟩ := port_of_flags (i := i) hdiv ha hb hc
          exact ⟨hwritten, .inl (by simp [hneeds, hmul, due, items])⟩
  | product r hmul hdiv hheld honly =>
      obtain ⟨ha, hb, hc⟩ := hheld.flags_of_mult honly
      obtain ⟨hneeds, hwritten⟩ := port_of_flags (i := i) hdiv ha hb hc
      refine ⟨hwritten, .inl ?_⟩
      rw [hneeds, due_cons_zero, due_eq_nil (hheld.pos honly)]
      simp [hmul]
  | division n v hn hmul hdiv hflags hanswer =>
      obtain ⟨ha, hb, hc, hm⟩ := hflags
      have hraised : raised (fluException s) = none := by
        simp [raised, fluException, BranchUnit.branchException, branchIn, hb]
      have hneeds : needs s i = if Mult.divValid s.mult (multIn s.iro i.flush) then
          [⟨s.mult.div.id, Mult.Serdiv.resO s.mult.div, none⟩] else [] := by
        simp [needs, ha, hb, hc, hmul]
      have hwritten : written s i = needs s i := by
        rw [hneeds]
        cases hd : Mult.divValid s.mult (multIn s.iro i.flush) <;>
          simp [written, fluValid, fluTransId, fluResult, multValid, Mult.multValidO,
            Mult.multTransId, Mult.result, ha, hb, hc, hmul, hd, hraised]
      refine ⟨hwritten, ?_⟩
      have hflush : (multIn s.iro i.flush).flush = i.flush := by
        rw [multIn_of_not_valid (by simpa using hm)]
      cases hf : i.flush with
      | true =>
          rw [hf] at hflush
          have hvalid : Mult.divValid s.mult (multIn s.iro i.flush) = false := by
            rw [hf]
            simp [Mult.divValid, Mult.Serdiv.fsm, Mult.divIn, hflush]
          exact .inr ⟨rfl, by simp [hneeds, hvalid]⟩
      | false =>
          left
          rw [hf] at hflush
          rw [hneeds, hf, Mult.divValid_eq hflush, hanswer.offer_eq]
          cases n with
          | zero =>
              have hv := Mult.divOffer_eq (a := v) (by rw [hanswer.offer_eq, if_pos rfl])
              simp [hv, due, items]
          | succ n => rfl

/-! ## The schedule of the next cycle -/

theorem issued_eq_nil (h : Mult.multReady s.mult (multIn s.iro i.flush) = false) :
    issues s i = false ∧ issued s i = [] := by
  have hissue : issues s i = false := by
    by_contra hissue
    rw [(ready_of_issues (by simpa using hissue)).1] at h
    exact Bool.noConfusion h
  exact ⟨hissue, by simp [issued, hissue]⟩

theorem flags_of_not_ready (h : Mult.multReady s.mult (multIn s.iro i.flush) = false) :
    Flags (ex.next s i).iro false := by
  rw [← (issued_eq_nil h).1]
  exact flags_next

theorem mul_next (h : s.iro.multValid = false ∨ i.flush = true) :
    (ex.next s i).mult.mul.multValid = false := by
  show (!(multIn s.iro i.flush).flush && (multIn s.iro i.flush).multValid &&
    Mult.isMul (multIn s.iro i.flush).operator &&
      Mult.isMul (multIn s.iro i.flush).operator) = false
  rcases h with h | h
  · simp [multIn_of_not_valid h]
  · cases hm : s.iro.multValid <;> simp [multIn, hm, h]

theorem div_next (h : s.mult.div.state = .IDLE ∧ s.iro.multValid = false ∨ i.flush = true) :
    (ex.next s i).mult.div.state = .IDLE := by
  refine idle_next ?_
  rcases h with ⟨hdiv, hm⟩ | hf
  · exact .inr ⟨hdiv, by simp [multIn_of_not_valid hm, Mult.divIn]⟩
  · left
    cases hm : s.iro.multValid <;> simp [multIn, hm, hf]

/-- Behind an idle divider the units are free in the next cycle, or they work on the
instruction of the multiplication unit. -/
theorem step_of_idle (hlegal : Legal i) (hf : i.flush = false)
    (hdiv : s.mult.div.state = .IDLE) (hheld : Held s.iro r) :
    ∃ new, items new = issued s i ∧ Holds (ex.next s i) (tick r ++ new) := by
  obtain ⟨new, hnew, hnext⟩ := held_next (s := s) hlegal
  cases hheld with
  | none hflags =>
      have hm : s.iro.multValid = false := by simpa using hflags.mult
      exact ⟨new, hnew, .idle _ (mul_next (.inl hm)) (div_next (.inl ⟨hdiv, hm⟩)) hnext⟩
  | oneCycle hflags hfu =>
      have hm : s.iro.multValid = false := by
        rw [hflags.mult]
        rcases hfu with hfu | hfu | hfu <;> simp [hfu]
      exact ⟨new, hnew, .idle _ (mul_next (.inl hm)) (div_next (.inl ⟨hdiv, hm⟩)) hnext⟩
  | product hflags hfu hop =>
      have hm := hflags.multValid hfu
      have hin := multIn_of_valid hm i.flush
      have hout : productOut (ex.next s i).mult = ownResult s.iro := by
        show (⟨(multIn s.iro i.flush).transId, Mult.Multiplier.result (Mult.Multiplier.next
          (multIn s.iro i.flush) _), none⟩ : WriteBack) = _
        rw [Mult.Multiplier.result_next, hin]
        simp [ownResult, hfu, Mult.value, hop]
      refine ⟨new, hnew, ?_⟩
      show Holds (ex.next s i) ((ownResult s.iro, 0) :: new)
      rw [← hout]
      refine .product _ ?_ ?_ hnext ?_
      · show (!(multIn s.iro i.flush).flush && (multIn s.iro i.flush).multValid &&
          Mult.isMul (multIn s.iro i.flush).operator &&
            Mult.isMul (multIn s.iro i.flush).operator) = true
        rw [hin]
        simp [hop, hf]
      · exact idle_next (.inr ⟨hdiv, by simp [hin, Mult.divIn, Mult.mul_not_isDiv hop]⟩)
      · intro hne
        refine (ready_of_issues ?_).2 hm
        by_contra hissue
        rw [issued, if_neg hissue] at hnew
        exact hne (List.map_eq_nil_iff.mp hnew)
  | division n hflags hfu hop hn hanswer =>
      have hm := hflags.multValid hfu
      have hin := multIn_of_valid hm i.flush
      have hstart : Mult.Starts s.mult (multIn s.iro i.flush) := by
        rw [hin]
        exact ⟨hdiv, rfl, hf, hop⟩
      have hready := multReady_of_start hstart
      refine ⟨[], (issued_eq_nil hready).2.symm, ?_⟩
      have hvalue : ownResult s.iro =
          ⟨s.iro.transId, Mult.value s.iro.operator s.iro.operandA s.iro.operandB, none⟩ := by
        simp [ownResult, hfu]
      show Holds (ex.next s i) [(ownResult s.iro, n)]
      rw [hvalue]
      refine .division n (s.iro.transId, _) hn ?_ ?_ (flags_of_not_ready hready) ?_
      · show (!(multIn s.iro i.flush).flush && (multIn s.iro i.flush).multValid &&
          Mult.isMul (multIn s.iro i.flush).operator &&
            Mult.isMul (multIn s.iro i.flush).operator) = false
        simp [hin, Mult.division_not_mul hop]
      · show (Mult.Serdiv.next s.mult.div (Mult.divIn s.mult (multIn s.iro i.flush))).state ≠ .IDLE
        rw [hstart.loads.next_eq]
        simp
      · show Dividing (mult.next s.mult (multIn s.iro i.flush)) n _
        rw [hstart.next_eq, hf]
        exact hanswer

theorem busy_next {m : Mult.State} {j : Mult.Input} (hdiv : m.div.state ≠ .IDLE)
    (hoffer : Mult.divOffer m = none) (hf : j.flush = false) :
    (mult.next m j).div.state ≠ .IDLE := by
  have hf' : (Mult.divIn m j).flush = false := hf
  show (Mult.Serdiv.fsm m.div (Mult.divIn m j)).state ≠ .IDLE
  unfold Mult.divOffer Mult.Serdiv.offer at hoffer
  have hno := (ite_eq_right_iff.mp hoffer)
  cases hs : m.div.state with
  | IDLE => exact absurd hs hdiv
  | FINISH => simp [hs] at hno
  | DIVIDE =>
      have hzero : m.div.divResZero = false := by simpa [hs] using hno
      simp only [Mult.Serdiv.fsm, hs, hzero, hf']
      cases m.div.cnt == 0 <;> simp

theorem step_of_division {n : Nat} {v : TransId × XLen} (hf : i.flush = false) (hn : n ≤ 33)
    (hmul : s.mult.mul.multValid = false) (hdiv : s.mult.div.state ≠ .IDLE)
    (hflags : Flags s.iro false) (hanswer : Dividing s.mult n v) :
    issued s i = [] ∧ Holds (ex.next s i) (tick [(⟨v.1, v.2, none⟩, n)]) := by
  have hm : s.iro.multValid = false := by simpa using hflags.mult
  have hready := multReady_of_busy (j := multIn s.iro i.flush) hdiv
  have hquiet : (multIn s.iro i.flush).flush = false := by
    rw [multIn_of_not_valid hm]
    exact hf
  have hflags' := flags_of_not_ready hready
  refine ⟨(issued_eq_nil hready).2, ?_⟩
  cases n with
  | zero =>
      have hoffer : Mult.divOffer s.mult = some v := by rw [hanswer.offer_eq, if_pos rfl]
      refine .idle _ (mul_next (.inl hm)) ?_ (.none hflags')
      exact Mult.Serdiv.idle_of_taken hoffer hquiet (by simp [Mult.divIn, hmul])
  | succ n =>
      have hoffer : Mult.divOffer s.mult = none := by rw [hanswer.offer_eq, if_neg (by omega)]
      exact .division n v (by omega) (mul_next (.inl hm)) (busy_next hdiv hoffer hquiet) hflags'
        (hanswer.next hquiet)

theorem ex_keeps : ex.Keeps Legal Input.flush written issued Holds where
  init := .idle [] rfl rfl (.none ⟨rfl, rfl, rfl, rfl⟩)
  ordered _ _ h := h.ordered
  step s i l h hlegal hf := by
    obtain ⟨hwritten, hdue | ⟨hflush, -⟩⟩ := h.port (i := i)
    · refine ⟨hwritten.trans hdue, ?_⟩
      cases h with
      | idle _ hmul hdiv hheld => exact step_of_idle hlegal hf hdiv hheld
      | product r hmul hdiv hheld honly =>
          rw [tick_cons_zero]
          exact step_of_idle hlegal hf hdiv hheld
      | division n v hn hmul hdiv hflags hanswer =>
          obtain ⟨hissued, hnext⟩ := step_of_division hf hn hmul hdiv hflags hanswer
          exact ⟨[], hissued.symm, by simpa using hnext⟩
    · simp [hf] at hflush
  dropping s i l h hlegal hf := by
    constructor
    · obtain ⟨hwritten, hneeds⟩ := h.port (i := i)
      rw [hwritten, h.ordered.items_eq]
      rcases hneeds with hdue | ⟨-, hnil⟩
      · exact hdue ▸ List.prefix_append _ _
      · exact hnil ▸ List.nil_prefix
    · obtain ⟨new, hnew, hnext⟩ := held_next (s := s) hlegal
      exact ⟨new, hnew, .idle _ (mul_next (.inr hf)) (div_next (.inr hf)) hnext⟩

/-! ## Runs -/

/-- In every run, whatever is issued and flushed: in no cycle do two results need the port, and
what needs it is written; the divider would hold its answer behind a product; each write is the
result of the oldest issued instruction that is neither written nor flushed, under its own
identifier; and what is owed is written, in order, within 35 cycles without a flush. -/
theorem write_port_lossless (ins : List Input) (hlegal : ∀ i ∈ ins, Legal i) :
    (∀ pre i post, ins = pre ++ i :: post →
      (needs (ex.run pre) i).length ≤ 1 ∧ written (ex.run pre) i = needs (ex.run pre) i) ∧
    (∀ (s : State) (i : Input) (a : TransId × XLen), i.flush = false →
      Mult.divOffer s.mult = some a → s.mult.mul.multValid = true →
        Mult.divOffer (ex.next s i).mult = some a) ∧
    ∃ owed : List WriteBack, (ex.log portEvents ins).foldlM settle [] = some owed ∧
      ∀ later : List Input, (∀ i ∈ later, Legal i) → (∀ i ∈ later, i.flush = false) →
        35 ≤ later.length → owed <+: ex.logFrom written (ex.run ins) later := by
  refine ⟨?_, ?_, ?_⟩
  · intro pre i post hins
    obtain ⟨l, hl, -⟩ := ex_keeps.replay pre fun j hj => hlegal j (by simp [hins, hj])
    obtain ⟨hwritten, hneeds⟩ := hl.port (i := i)
    refine ⟨?_, hwritten⟩
    rcases hneeds with hdue | ⟨-, hnil⟩
    · exact hdue ▸ hl.ordered.length_due_le
    · simp [hnil]
  · intro s i a hf ha hmul
    refine Mult.Serdiv.offer_held ha ?_ ?_
    · show (multIn s.iro i.flush).flush = false
      cases hm : s.iro.multValid <;> simp [multIn, hm, hf]
    · simp [Mult.divIn, hmul]
  · obtain ⟨l, hl, hreplay⟩ := ex_keeps.replay ins hlegal
    refine ⟨items l, hreplay, ?_⟩
    intro later hlater hquiet hlen
    have hall : Holds (ex.run ins) (l ++ []) := by rwa [List.append_nil]
    refine ex_keeps.delivered_of_time hlater hquiet hall ?_
    intro e he
    have := hl.time_le e he
    omega

def offered (fu : Fu) (op : FuOp) (id : TransId) : Input where
  issue :=
    { flush := false
      issueInstr := { (default : ScoreboardEntry) with
        fu := fu, op := op, transId := id, rs1 := 5, rs2 := 6, rd := 7 }
      issueInstrValid := true
      rs1 := some 7
      rs2 := some 3
      rdClobberGpr := fun r => if r = 7 then .NONE else .ALU
      fluReady := false
      lsuReady := true
      fpuReady := false
      commit := default }
  flush := false
  csrCommit := false

/-- A product and a quotient, and a sum that waits for the divider. -/
def mixedRun : List Input :=
  offered .MULT .MUL 1 :: offered .MULT .DIV 2 :: List.replicate 6 (offered .ALU .ADD 3)

theorem write_port_lossless_mixedRun :
    ex.log written mixedRun = [⟨1, 21, none⟩, ⟨2, 2, none⟩, ⟨3, 10, none⟩] ∧
      ∃ owed : List WriteBack, (ex.log portEvents mixedRun).foldlM settle [] = some owed ∧
        ∀ later : List Input, (∀ i ∈ later, Legal i) → (∀ i ∈ later, i.flush = false) →
          35 ≤ later.length → owed <+: ex.logFrom written (ex.run mixedRun) later :=
  ⟨by decide +kernel, (write_port_lossless mixedRun (by decide)).2.2⟩

end Cva6.Ex
