import Cva6.Pmp.Region
import Cva6.Riscv
import Mathlib.Data.List.FinRange
/-!
# The PMP unit

`pmp_entry.sv` and `pmp.sv`. An entry matches the addresses of its region. The
unit scans the entries from the lowest on; in machine mode it passes over the
ones that are not locked, where the architecture stops at the first match.
-/

namespace Cva6.Pmp

open Cva6.Riscv

def Mode.ofBits (b : BitVec 2) : Mode :=
  if b = 0b01 then .TOR else if b = 0b10 then .NA4 else if b = 0b11 then .NAPOT else .OFF

/-! ## One entry -/

/-- `lzc` with `MODE = 0`: the lowest bit that is set, or the last bit when none is. -/
def lzc {w : Nat} (x : BitVec w) : Nat :=
  ((List.range w).find? x.getLsbD).getD (w - 1)

section Entry

variable {plen pmpLen : Nat}

def trailOnes (plen : Nat) (confAddr : BitVec pmpLen) : Nat :=
  lzc (~~~confAddr.setWidth plen)

def matchO (addr : BitVec plen) (confAddr confAddrPrev : BitVec pmpLen) (mode : Mode) : Bool :=
  match mode with
  | .TOR =>
      decide (confAddrPrev.setWidth plen <<< 2 ≤ addr ∧ addr < confAddr.setWidth plen <<< 2)
  | .NA4 | .NAPOT =>
      let size := if mode = .NA4 then 2 else trailOnes plen confAddr + 3
      let mask := BitVec.allOnes plen <<< size
      let base := confAddr.setWidth plen <<< 2 &&& mask
      addr &&& mask == base
  | .OFF => false

theorem trailOnes_eq (confAddr : BitVec pmpLen) (h : pmpLen + 2 ≤ plen) :
    trailOnes plen confAddr = trailingOnes confAddr := by
  obtain ⟨hclear, hset⟩ := trailingOnes_eq_iff.mp (rfl : trailingOnes confAddr = _)
  have hle := trailingOnes_le confAddr
  have hfind : (List.range plen).find? (~~~confAddr.setWidth plen).getLsbD =
      some (trailingOnes confAddr) := by
    rw [List.find?_range_eq_some]
    refine ⟨?_, List.mem_range.mpr (by omega), ?_⟩
    · simp [hclear, show trailingOnes confAddr < plen by omega]
    · intro j hj
      simp [hset j hj, show j < plen by omega]
  rw [trailOnes, lzc, hfind, Option.getD_some]

theorem toNat_word (x : BitVec pmpLen) (h : pmpLen + 2 ≤ plen) :
    (x.setWidth plen <<< 2).toNat = 4 * x.toNat := by
  have hpow : 2 ^ pmpLen * 4 ≤ 2 ^ plen := by
    rw [show (4 : Nat) = 2 ^ 2 by decide, ← Nat.pow_add]
    exact Nat.pow_le_pow_right (by decide) h
  have hlt := x.isLt
  rw [BitVec.toNat_shiftLeft, BitVec.toNat_setWidth, Nat.shiftLeft_eq,
    Nat.mod_eq_of_lt (show x.toNat < 2 ^ plen by omega), Nat.mod_eq_of_lt (by omega)]
  omega

/-- An entry matches exactly the addresses of its region. -/
theorem matchO_iff (addr : BitVec plen) (confAddr confAddrPrev : BitVec pmpLen) (mode : Mode)
    (h : pmpLen + 2 ≤ plen) :
    matchO addr confAddr confAddrPrev mode = true ↔
      addr.toNat ∈ region mode confAddrPrev confAddr := by
  cases mode with
  | OFF => simp [matchO, region]
  | TOR =>
      rw [matchO, decide_eq_true_iff, region, Set.mem_Ico, BitVec.le_def, BitVec.lt_def,
        toNat_word _ h, toNat_word _ h]
  | NA4 =>
      have hblock : matchO addr confAddr confAddrPrev .NA4 = true ↔
          addr.toNat ∈ block 2 (confAddr.setWidth plen <<< 2).toNat := by
        rw [← and_mask_eq_iff, matchO, beq_iff_eq]
        rfl
      rw [hblock, toNat_word _ h, mem_block, region, Set.mem_Ico]
      omega
  | NAPOT =>
      have hblock : matchO addr confAddr confAddrPrev .NAPOT = true ↔
          addr.toNat ∈ block (trailOnes plen confAddr + 3) (confAddr.setWidth plen <<< 2).toNat := by
        rw [← and_mask_eq_iff, matchO, beq_iff_eq]
        rfl
      rw [hblock, toNat_word _ h, trailOnes_eq _ h, region]

end Entry

/-! ## The scan -/

structure Input (plen pmpLen : Nat) where
  addr : BitVec plen
  accessType : BitVec 3
  privLvl : PrivLvl
  confAddr : Fin 16 → BitVec pmpLen
  conf : Fin 16 → Pmpcfg

section Scan

variable {plen pmpLen : Nat} (i : Input plen pmpLen)

/-- `conf_addr_prev_i` of an entry. -/
def Input.prev (k : Fin 16) : BitVec pmpLen :=
  if k = 0 then 0 else i.confAddr (k - 1)

def matchK (k : Fin 16) : Bool :=
  matchO i.addr (i.confAddr k) (i.prev k) (Mode.ofBits (i.conf k).addrMode)

/-- The entry grants all requested permissions. -/
def Granted (k : Fin 16) : Prop :=
  i.accessType &&& (i.conf k).accessType = i.accessType

instance (k : Fin 16) : Decidable (Granted i k) :=
  inferInstanceAs (Decidable (_ = _))

def applies (k : Fin 16) : Bool :=
  i.privLvl != privLvlM || (i.conf k).locked

/-- The loop over the entries, with `none` when it ends without a `break`. -/
def scan : List (Fin 16) → Option Bool
  | [] => none
  | k :: ks =>
      if applies i k then
        if matchK i k then some (decide (Granted i k)) else scan ks
      else scan ks

/-- The entries that are implemented; the arrays have 16. -/
def entries (nrEntries : Nat) : List (Fin 16) :=
  (List.finRange 16).take nrEntries

def allowO (nrEntries : Nat) : Bool :=
  if 0 < nrEntries then (scan i (entries nrEntries)).getD (i.privLvl == privLvlM) else true

/-! ## The rule -/

def Covers (k : Fin 16) : Prop :=
  i.addr.toNat ∈ region (Mode.ofBits (i.conf k).addrMode) (i.prev k) (i.confAddr k)

/-- The lowest implemented entry with a property. -/
def IsFirst (nrEntries : Nat) (P : Fin 16 → Prop) (k : Fin 16) : Prop :=
  k.val < nrEntries ∧ P k ∧ ∀ j < k, ¬P j

/-- The first entry that covers the address decides; in machine mode an entry that is not locked
permits everything, and so does the absence of an entry. -/
def Permitted (nrEntries : Nat) : Prop :=
  nrEntries = 0 ∨
    (∃ k, IsFirst nrEntries (Covers i) k ∧
      ((i.privLvl = privLvlM ∧ (i.conf k).locked = false) ∨ Granted i k)) ∨
    ((∀ k : Fin 16, k.val < nrEntries → ¬Covers i k) ∧ i.privLvl = privLvlM)

/-- In machine mode an entry that is not locked decides, and a locked one behind it denies. -/
def Shadowed (nrEntries : Nat) : Prop :=
  i.privLvl = privLvlM ∧ ∃ k, IsFirst nrEntries (Covers i) k ∧ (i.conf k).locked = false ∧
    ∃ j, IsFirst nrEntries (fun j => Covers i j ∧ (i.conf j).locked = true) j ∧ ¬Granted i j

/-! ## The first match -/

theorem mem_entries {n : Nat} {k : Fin 16} : k ∈ entries n ↔ k.val < n := by
  rw [entries, List.mem_take_iff_getElem]
  simp only [List.length_finRange, List.getElem_finRange]
  constructor
  · rintro ⟨j, hj, rfl⟩
    exact lt_of_lt_of_le hj (Nat.min_le_left _ _)
  · intro hk
    exact ⟨k.val, lt_min hk k.isLt, rfl⟩

theorem find?_entries {n : Nat} {p : Fin 16 → Bool} {k : Fin 16} :
    (entries n).find? p = some k ↔ IsFirst n (fun j => p j = true) k := by
  rw [List.find?_eq_some_iff_getElem]
  simp only [entries, List.getElem_take, List.getElem_finRange, List.length_take,
    List.length_finRange]
  constructor
  · rintro ⟨hp, m, hm, rfl, hbefore⟩
    refine ⟨lt_of_lt_of_le hm (Nat.min_le_left _ _), hp, ?_⟩
    intro j hj hpj
    have hj : (!p j) = true := hbefore j.val hj
    rw [hpj] at hj
    cases hj
  · rintro ⟨hk, hp, hbefore⟩
    refine ⟨hp, k.val, lt_min hk k.isLt, rfl, ?_⟩
    intro j hj
    rw [Bool.not_eq_true', Bool.eq_false_iff]
    exact hbefore _ hj

theorem scan_eq (l : List (Fin 16)) : scan i l =
    (l.find? fun k => applies i k && matchK i k).map fun k => decide (Granted i k) := by
  induction l with
  | nil => rfl
  | cons k ks ih =>
      rw [scan, List.find?_cons, ih]
      cases applies i k <;> cases matchK i k <;> rfl

theorem IsFirst.unique {n : Nat} {P : Fin 16 → Prop} {k j : Fin 16} (hk : IsFirst n P k)
    (hj : IsFirst n P j) : k = j := by
  rcases lt_trichotomy k j with h | h | h
  · exact absurd hk.2.1 (hj.2.2 k h)
  · exact h
  · exact absurd hj.2.1 (hk.2.2 j h)

theorem isFirst_congr {n : Nat} {P Q : Fin 16 → Prop} {k : Fin 16} (h : ∀ j, P j ↔ Q j) :
    IsFirst n P k ↔ IsFirst n Q k := by
  simp only [IsFirst, h]

/-! ## The unit and the rule -/

variable {i} {n : Nat}

theorem matchK_iff (hw : pmpLen + 2 ≤ plen) (k : Fin 16) : matchK i k = true ↔ Covers i k :=
  matchO_iff i.addr (i.confAddr k) (i.prev k) _ hw

theorem allowO_of_first {k : Fin 16} (hn : 0 < n)
    (h : IsFirst n (fun j => (applies i j && matchK i j) = true) k) :
    allowO i n = true ↔ Granted i k := by
  rw [allowO, if_pos hn, scan_eq, find?_entries.mpr h]
  exact decide_eq_true_iff

theorem allowO_of_none (hn : 0 < n)
    (h : ∀ k : Fin 16, k.val < n → (applies i k && matchK i k) = false) :
    allowO i n = true ↔ i.privLvl = privLvlM := by
  have hnone : (entries n).find? (fun k => applies i k && matchK i k) = none := by
    rw [List.find?_eq_none]
    intro k hk
    rw [h k (mem_entries.mp hk)]
    decide
  rw [allowO, if_pos hn, scan_eq, hnone]
  exact beq_iff_eq

theorem permitted_of_first {k : Fin 16} (hn : 0 < n) (h : IsFirst n (Covers i) k) :
    Permitted i n ↔ (i.privLvl = privLvlM ∧ (i.conf k).locked = false) ∨ Granted i k := by
  constructor
  · rintro (hzero | ⟨j, hj, hperm⟩ | ⟨hnone, -⟩)
    · omega
    · rw [h.unique hj]
      exact hperm
    · exact absurd h.2.1 (hnone k h.1)
  · intro hperm
    exact .inr (.inl ⟨k, h, hperm⟩)

theorem permitted_of_none (hn : 0 < n) (h : ∀ k : Fin 16, k.val < n → ¬Covers i k) :
    Permitted i n ↔ i.privLvl = privLvlM := by
  constructor
  · rintro (hzero | ⟨j, hj, -⟩ | ⟨-, hM⟩)
    · omega
    · exact absurd hj.2.1 (h j hj.1)
    · exact hM
  · intro hM
    exact .inr (.inr ⟨h, hM⟩)

/-- The unit follows the rule unless, in machine mode, the first match is not locked and a locked
match behind it denies the access. -/
theorem allow_iff (hw : pmpLen + 2 ≤ plen) :
    (allowO i n = true ↔ Permitted i n) ↔ ¬Shadowed i n := by
  rcases Nat.eq_zero_or_pos n with rfl | hn
  · refine iff_of_true (iff_of_true rfl (.inl rfl)) ?_
    rintro ⟨-, k, hk, -⟩
    exact absurd hk.1 (Nat.not_lt_zero _)
  cases hfirst : (entries n).find? (matchK i) with
  | none =>
      have hnone (k : Fin 16) (hk : k.val < n) : matchK i k = false := by
        simpa using List.find?_eq_none.mp hfirst k (mem_entries.mpr hk)
      have hcover (k : Fin 16) (hk : k.val < n) : ¬Covers i k := by
        rw [← matchK_iff hw, hnone k hk]
        decide
      have hallow := allowO_of_none hn fun k hk => by rw [hnone k hk, Bool.and_false]
      refine iff_of_true (hallow.trans (permitted_of_none hn hcover).symm) ?_
      rintro ⟨-, k, hk, -⟩
      exact hcover k hk.1 hk.2.1
  | some k =>
      have hmatch := find?_entries.mp hfirst
      have hk : IsFirst n (Covers i) k := (isFirst_congr (matchK_iff hw)).mp hmatch
      rw [permitted_of_first hn hk]
      cases happ : applies i k with
      | true =>
          -- the first match applies, so the loop stops there
          have hloop : IsFirst n (fun j => (applies i j && matchK i j) = true) k := by
            refine ⟨hk.1, Bool.and_eq_true_iff.mpr ⟨happ, hmatch.2.1⟩, ?_⟩
            intro j hj hboth
            exact hmatch.2.2 j hj (Bool.and_eq_true_iff.mp hboth).2
          have hnot : ¬(i.privLvl = privLvlM ∧ (i.conf k).locked = false) := by
            rintro ⟨hM, hopen⟩
            simp [applies, hM, hopen] at happ
          rw [allowO_of_first hn hloop]
          refine iff_of_true (or_iff_right hnot).symm ?_
          rintro ⟨hM, j, hj, hopen, -⟩
          rw [hj.unique hk] at hopen
          exact hnot ⟨hM, hopen⟩
      | false =>
          -- machine mode passes over the first match
          have hpass : i.privLvl = privLvlM ∧ (i.conf k).locked = false := by
            simpa [applies] using happ
          have hlocked (j : Fin 16) : (applies i j && matchK i j) = true ↔
              Covers i j ∧ (i.conf j).locked = true := by
            rw [← matchK_iff hw, applies, hpass.1, bne_self_eq_false, Bool.false_or,
              Bool.and_eq_true, and_comm]
          cases hnext : (entries n).find? (fun j => applies i j && matchK i j) with
          | none =>
              have hallow := allowO_of_none (i := i) hn fun j hj => by
                simpa using List.find?_eq_none.mp hnext j (mem_entries.mpr hj)
              refine iff_of_true (iff_of_true (hallow.mpr hpass.1) (.inl hpass)) ?_
              rintro ⟨-, -, -, -, j, hj, -⟩
              have hj := find?_entries.mpr ((isFirst_congr hlocked).mpr hj)
              rw [hnext] at hj
              cases hj
          | some j =>
              have hj := find?_entries.mp hnext
              have hj' := (isFirst_congr hlocked).mp hj
              rw [allowO_of_first hn hj, iff_true_right (Or.inl hpass)]
              constructor
              · rintro hgrant ⟨-, -, -, -, j', hfirst', hdeny⟩
                rw [hfirst'.unique hj'] at hdeny
                exact hdeny hgrant
              · intro h
                by_contra hdeny
                exact h ⟨hpass.1, k, hk, hpass.2, j, hj', hdeny⟩

end Scan

/-- Two entries over the word at 4: the first grants everything, the second is locked and denies. -/
def overlap (privLvl : PrivLvl) : Input 32 30 where
  addr := 4
  accessType := 0b001
  privLvl := privLvl
  confAddr := fun _ => 1
  conf := fun k =>
    if k = 0 then ⟨false, 0, 0b10, 0b111⟩ else if k = 1 then ⟨true, 0, 0b10, 0⟩ else Pmpcfg.ofBits 0

/-- User mode is served by the first entry. -/
theorem overlap_user : allowO (overlap privLvlU) 8 = true ∧ Permitted (overlap privLvlU) 8 := by
  have hallow : allowO (overlap privLvlU) 8 = true := by decide
  have hnot : ¬Shadowed (overlap privLvlU) 8 := by
    rintro ⟨hM, -⟩
    exact absurd hM (by decide)
  exact ⟨hallow, ((allow_iff (by decide)).mpr hnot).mp hallow⟩

/-- Machine mode is denied by the second entry, although the first one decides. -/
theorem overlap_machine :
    allowO (overlap privLvlM) 8 = false ∧ Permitted (overlap privLvlM) 8 := by
  have hcover : Covers (overlap privLvlM) 0 := (matchK_iff (by decide) 0).mp (by decide)
  exact ⟨by decide, .inr (.inl ⟨0, ⟨by decide, hcover, fun j hj => absurd hj (Fin.not_lt_zero j)⟩,
    .inl ⟨rfl, rfl⟩⟩)⟩

end Cva6.Pmp
