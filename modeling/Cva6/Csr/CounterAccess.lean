import Cva6.Csr.Privilege
/-!
# Access to the counters

The counters `0xC00` to `0xC1F` are user-level registers that `mcounteren` and
`scounteren` hide from the levels below. The check selects its rule by the level
in the address, which is the user level for the whole range, and not by the
level of the core; outside the range the levels and the debug registers are
checked as they should be.
-/

namespace Cva6.Csr

open Cva6.Riscv Cva6.Sync

/-! ## The rule -/

/-- The range `CSR_CYCLE` to `CSR_HPM_COUNTER_31`. -/
def CounterAddr (addr : BitVec 12) : Prop :=
  0xC00#12 ≤ addr ∧ addr ≤ 0xC1F#12

instance (addr : BitVec 12) : Decidable (CounterAddr addr) :=
  inferInstanceAs (Decidable (_ ∧ _))

def counterIndex (addr : BitVec 12) : Nat :=
  (addr.setWidth 5).toNat

/-- The registers `0x7B0` to `0x7BF`. -/
def DebugAddr (addr : BitVec 12) : Prop :=
  addr.extractLsb' 4 8 = 0x7b#8

instance (addr : BitVec 12) : Decidable (DebugAddr addr) :=
  inferInstanceAs (Decidable (_ = _))

/-- What an access must be refused for: a counter that a level above hides, a register of a
level above, a debug register outside debug mode. -/
def MustRefuse (q : Regs) (addr : BitVec 12) : Prop :=
  if CounterAddr addr then
    (q.privLvlO = privLvlS ∧ q.mcounteren.getLsbD (counterIndex addr) = false) ∨
      (q.privLvlO = privLvlU ∧ (q.mcounteren.getLsbD (counterIndex addr) = false ∨
        q.scounteren.getLsbD (counterIndex addr) = false))
  else q.privLvlO < addr.extractLsb' 8 2 ∨ (DebugAddr addr ∧ q.debugMode = false)

instance (q : Regs) (addr : BitVec 12) : Decidable (MustRefuse q addr) :=
  inferInstanceAs (Decidable (if CounterAddr addr then _ else _))

/-- The enable bits with which the rule of the check agrees with the one of the level. -/
def CounterRule (q : Regs) (addr : BitVec 12) : Prop :=
  let m := q.mcounteren.getLsbD (counterIndex addr)
  let s := q.scounteren.getLsbD (counterIndex addr)
  (q.privLvlO = privLvlM → m = true ∨ s = true) ∧
    (q.privLvlO = privLvlS → m = true ∨ s = false) ∧
    (q.privLvlO = privLvlU → m = s)

instance (q : Regs) (addr : BitVec 12) : Decidable (CounterRule q addr) :=
  inferInstanceAs (Decidable (_ ∧ _ ∧ _))

/-! ## The check -/

variable {q : Regs} {op : FuOp} {addr : BitVec 12}

theorem counterAddr_level (h : CounterAddr addr) : addr.extractLsb' 8 2 = privLvlU := by
  obtain ⟨hlo, hhi⟩ := h
  have hlo : 0xC00 ≤ addr.toNat := hlo
  have hhi : addr.toNat ≤ 0xC1F := hhi
  apply BitVec.eq_of_toNat_eq
  rw [BitVec.extractLsb'_toNat, Nat.shiftRight_eq_div_pow]
  show addr.toNat / 2 ^ 8 % 2 ^ 2 = 0
  omega

theorem and_eq_iff_not_lt {v w : PrivLvl} (h : LegalLvl v) : v &&& w = w ↔ ¬v < w := by
  have htable : ∀ v w : PrivLvl, LegalLvl v → (v &&& w = w ↔ ¬v < w) := by decide
  exact htable v w h

theorem violation_of_counter (hop : isAccess op = true) (h : CounterAddr addr) :
    privilegeViolation q op addr =
      (!q.mcounteren.getLsbD (counterIndex addr) &&
        !q.scounteren.getLsbD (counterIndex addr)) := by
  have hlvl := counterAddr_level h
  have hrange : 0xC00#12 ≤ addr ∧ addr ≤ 0xC1F#12 := h
  unfold privilegeViolation
  rw [if_pos hop, if_pos hrange, hlvl]
  rfl

theorem violation_of_not_counter (hop : isAccess op = true) (hlvl : LegalLvl q.privLvlO)
    (h : ¬CounterAddr addr) : privilegeViolation q op addr = true ↔
      q.privLvlO < addr.extractLsb' 8 2 ∨ (DebugAddr addr ∧ q.debugMode = false) := by
  have hbelow : (q.privLvlO &&& addr.extractLsb' 8 2 != addr.extractLsb' 8 2) = true ↔
      q.privLvlO < addr.extractLsb' 8 2 := by
    rw [bne_iff_ne, ne_eq, and_eq_iff_not_lt hlvl, not_not]
  have hdebug : (addr.extractLsb' 4 8 == 0x7b && !q.debugMode) = true ↔
      DebugAddr addr ∧ q.debugMode = false := by
    rw [Bool.and_eq_true, beq_iff_eq, Bool.not_eq_true']
    rfl
  have hrange : ¬(0xC00#12 ≤ addr ∧ addr ≤ 0xC1F#12) := h
  unfold privilegeViolation
  rw [if_pos hop, if_neg hrange, ← hbelow, ← hdebug]
  cases q.privLvlO &&& addr.extractLsb' 8 2 != addr.extractLsb' 8 2 <;> simp

/-- Outside the counters the check is right, and for a counter it is right when the enable bits
of the two levels make the rules agree. -/
theorem refused_iff (hop : isAccess op = true) (hlvl : LegalLvl q.privLvlO) :
    (privilegeViolation q op addr = true ↔ MustRefuse q addr) ↔
      (CounterAddr addr → CounterRule q addr) := by
  by_cases h : CounterAddr addr
  · rw [violation_of_counter hop h, MustRefuse, if_pos h]
    unfold CounterRule
    rcases hlvl with hlvl | hlvl | hlvl
    all_goals
      rw [hlvl]
      cases q.mcounteren.getLsbD (counterIndex addr) <;>
        cases q.scounteren.getLsbD (counterIndex addr) <;> simp [h, privLvlU, privLvlS, privLvlM]
  · rw [MustRefuse, if_neg h]
    exact iff_of_true (violation_of_not_counter hop hlvl h) (fun hc => absurd hc h)

/-- Supervisor mode reads a counter that both masks allow or that only `mcounteren` allows. -/
theorem refused_supervisor :
    let q := { Regs.reset with privLvl := privLvlS, mcounteren := 4 }
    (privilegeViolation q .CSR_READ 0xC02 = true ↔ MustRefuse q 0xC02) := by
  intro q
  have hlvl : LegalLvl q.privLvlO := by decide
  exact (refused_iff (show isAccess .CSR_READ = true by decide) hlvl).mpr (by decide)

/-- After reset machine mode cannot read the cycle counter. -/
theorem machine_refused_cycle :
    Regs.reset.privLvlO = privLvlM ∧ privilegeViolation Regs.reset .CSR_READ 0xC00 = true ∧
      ¬MustRefuse Regs.reset 0xC00 := by
  decide

end Cva6.Csr
