import Mathlib.Data.List.Forall2
import Mathlib.Data.List.Nodup
import Mathlib.Data.List.Range
import Mathlib.Data.BitVec
import Mathlib.Logic.Function.Basic
/-!
# Circular buffers

A circular buffer is a memory indexed by a `w`-bit pointer, a read pointer and a
fill count. Its contents are the `window` of slots from the read pointer on, in
order; pointer arithmetic wraps around. The lemmas say what writing behind the
window, advancing the read pointer and overwriting a slot outside the window do
to the contents.
-/

namespace Cva6.Sync.Ring

variable {w : Nat} {α : Type*}

def slot (rd : BitVec w) (k : Nat) : BitVec w :=
  rd + BitVec.ofNat w k

def InWindow (rd : BitVec w) (n : Nat) (i : BitVec w) : Prop :=
  ∃ k < n, i = slot rd k

/-- The contents of a window of length `n`, oldest first. -/
def window (mem : BitVec w → α) (rd : BitVec w) (n : Nat) : List α :=
  (List.range n).map fun k => mem (slot rd k)

@[simp] theorem slot_zero (rd : BitVec w) : slot rd 0 = rd := by
  simp [slot]

theorem slot_succ (rd : BitVec w) (k : Nat) : slot rd (k + 1) = slot (rd + 1) k := by
  have h : BitVec.ofNat w (k + 1) = 1 + BitVec.ofNat w k := by
    rw [Nat.add_comm, BitVec.ofNat_add]
    rfl
  rw [slot, slot, h, BitVec.add_assoc]

theorem slot_succ_right (rd : BitVec w) (k : Nat) : slot rd (k + 1) = slot rd k + 1 := by
  rw [slot, slot, BitVec.ofNat_add, BitVec.add_assoc]
  rfl

theorem slot_slot (rd : BitVec w) (m k : Nat) : slot (slot rd m) k = slot rd (m + k) := by
  rw [slot, slot, slot, BitVec.add_assoc, BitVec.ofNat_add]

theorem slot_inj {rd : BitVec w} {k k' : Nat} (hk : k < 2 ^ w) (hk' : k' < 2 ^ w)
    (h : slot rd k = slot rd k') : k = k' := by
  have h' : (BitVec.ofNat w k).toNat = (BitVec.ofNat w k').toNat := by
    rw [BitVec.add_right_inj rd |>.mp h]
  simpa [Nat.mod_eq_of_lt hk, Nat.mod_eq_of_lt hk'] using h'

theorem slot_sub (rd i : BitVec w) : slot rd (i - rd).toNat = i := by
  rw [slot, BitVec.ofNat_toNat, BitVec.setWidth_eq, BitVec.add_comm, BitVec.sub_add_cancel]

/-! ## The slots of a window -/

theorem sub_slot (rd : BitVec w) {k : Nat} (hk : k < 2 ^ w) : (slot rd k - rd).toNat = k := by
  simp [slot, Nat.mod_eq_of_lt hk]

theorem inWindow_iff_sub {rd i : BitVec w} {n : Nat} (hn : n ≤ 2 ^ w) :
    InWindow rd n i ↔ (i - rd).toNat < n := by
  constructor
  · rintro ⟨k, hk, rfl⟩
    rw [sub_slot rd (by omega)]
    exact hk
  · intro h
    exact ⟨_, h, (slot_sub rd i).symm⟩

@[simp] theorem not_inWindow_zero (rd i : BitVec w) : ¬InWindow rd 0 i := by
  simp [InWindow]

theorem inWindow_snoc {rd i : BitVec w} {n : Nat} :
    InWindow rd (n + 1) i ↔ InWindow rd n i ∨ i = slot rd n := by
  constructor
  · rintro ⟨k, hk, rfl⟩
    rcases Nat.lt_succ_iff_lt_or_eq.mp hk with hlt | rfl
    · exact .inl ⟨k, hlt, rfl⟩
    · exact .inr rfl
  · rintro (⟨k, hk, rfl⟩ | rfl)
    · exact ⟨k, by omega, rfl⟩
    · exact ⟨n, by omega, rfl⟩

theorem inWindow_cons {rd i : BitVec w} {n : Nat} :
    InWindow rd (n + 1) i ↔ i = rd ∨ InWindow (rd + 1) n i := by
  constructor
  · rintro ⟨k, hk, rfl⟩
    cases k with
    | zero => exact .inl (slot_zero rd)
    | succ k => exact .inr ⟨k, by omega, slot_succ rd k⟩
  · rintro (rfl | ⟨k, hk, rfl⟩)
    · exact ⟨0, by omega, (slot_zero _).symm⟩
    · exact ⟨k + 1, by omega, (slot_succ rd k).symm⟩

theorem inWindow_drop (rd i : BitVec w) {m n : Nat} (hm : m ≤ n) (hn : n ≤ 2 ^ w) :
    InWindow (slot rd m) (n - m) i ↔ InWindow rd n i ∧ ¬InWindow rd m i := by
  constructor
  · rintro ⟨k, hk, rfl⟩
    rw [slot_slot]
    refine ⟨⟨m + k, by omega, rfl⟩, ?_⟩
    rintro ⟨k', hk', heq⟩
    have := slot_inj (by omega) (by omega) heq
    omega
  · rintro ⟨⟨k, hk, rfl⟩, hnot⟩
    have hmk : m ≤ k := by
      by_contra hlt
      exact hnot ⟨k, by omega, rfl⟩
    refine ⟨k - m, by omega, ?_⟩
    rw [slot_slot, Nat.add_sub_cancel' hmk]

theorem slot_not_inWindow {rd : BitVec w} {n : Nat} (hn : n < 2 ^ w) :
    ¬InWindow rd n (slot rd n) := by
  rintro ⟨k, hk, h⟩
  have := slot_inj hn (by omega) h
  omega

theorem head_not_inWindow {rd : BitVec w} {n : Nat} (hn : n < 2 ^ w) :
    ¬InWindow (rd + 1) n rd := by
  rintro ⟨k, hk, h⟩
  rw [← slot_succ] at h
  have := @slot_inj w rd 0 (k + 1) (Nat.two_pow_pos w) (by omega) (by simpa using h)
  omega

/-! ## The contents of a window -/

@[simp] theorem window_zero (mem : BitVec w → α) (rd : BitVec w) : window mem rd 0 = [] := rfl

@[simp] theorem length_window (mem : BitVec w → α) (rd : BitVec w) (n : Nat) :
    (window mem rd n).length = n := by
  simp [window]

theorem window_snoc (mem : BitVec w → α) (rd : BitVec w) (n : Nat) :
    window mem rd (n + 1) = window mem rd n ++ [mem (slot rd n)] := by
  simp [window, List.range_succ]

theorem window_cons (mem : BitVec w → α) (rd : BitVec w) (n : Nat) :
    window mem rd (n + 1) = mem rd :: window mem (rd + 1) n := by
  simp only [window, List.range_succ_eq_map, List.map_cons, List.map_map, slot_zero,
    List.cons.injEq, true_and]
  refine List.map_congr_left ?_
  intro k _
  exact congrArg mem (slot_succ rd k)

theorem window_add (mem : BitVec w → α) (rd : BitVec w) (m n : Nat) :
    window mem rd (m + n) = window mem rd m ++ window mem (slot rd m) n := by
  simp [window, List.range_add, Function.comp_def, slot_slot]

theorem window_congr {mem mem' : BitVec w → α} {rd : BitVec w} {n : Nat}
    (h : ∀ i, InWindow rd n i → mem i = mem' i) : window mem rd n = window mem' rd n := by
  refine List.map_congr_left ?_
  intro k hk
  exact h _ ⟨k, List.mem_range.mp hk, rfl⟩

theorem mem_window {mem : BitVec w → α} {rd : BitVec w} {n : Nat} {a : α} :
    a ∈ window mem rd n ↔ ∃ i, InWindow rd n i ∧ mem i = a := by
  simp only [window, List.mem_map, List.mem_range, InWindow]
  constructor
  · rintro ⟨k, hk, rfl⟩
    exact ⟨_, ⟨k, hk, rfl⟩, rfl⟩
  · rintro ⟨_, ⟨k, hk, rfl⟩, rfl⟩
    exact ⟨k, hk, rfl⟩

theorem window_forall₂ {β : Type*} {R : α → β → Prop} {mem : BitVec w → α} {mem' : BitVec w → β}
    {rd : BitVec w} {n : Nat} (h : ∀ i, InWindow rd n i → R (mem i) (mem' i)) :
    List.Forall₂ R (window mem rd n) (window mem' rd n) := by
  rw [window, window, List.forall₂_map_left_iff, List.forall₂_map_right_iff, List.forall₂_same]
  intro k hk
  exact h _ ⟨k, List.mem_range.mp hk, rfl⟩

/-! ## Counting slots -/

def count (p : BitVec w → Bool) : Nat :=
  ((List.range (2 ^ w)).map (BitVec.ofNat w)).countP p

private theorem countP_range_lt {n m : Nat} (h : n ≤ m) :
    (List.range m).countP (fun k => decide (k < n)) = n := by
  induction m with
  | zero => simp; omega
  | succ m ih =>
      rw [List.range_succ, List.countP_append]
      rcases Nat.lt_or_eq_of_le h with hlt | rfl
      · have hm : ¬m < n := by omega
        simp [ih (by omega), hm]
      · have hall : (List.range m).countP (fun k => decide (k < m + 1)) = m := by
          rw [List.countP_eq_length.mpr]
          · simp
          · intro k hk
            have := List.mem_range.mp hk
            simp
            omega
        have hlast : [m].countP (fun k => decide (k < m + 1)) = 1 := by simp
        rw [hall, hlast]

theorem count_eq_of_inWindow {p : BitVec w → Bool} {rd : BitVec w} {n : Nat} (hn : n ≤ 2 ^ w)
    (h : ∀ i, p i = true ↔ InWindow rd n i) : count p = n := by
  have hperm (rd : BitVec w) : ((List.range (2 ^ w)).map (slot rd)).Perm
      ((List.range (2 ^ w)).map (BitVec.ofNat w)) := by
    have hnodup (rd : BitVec w) : ((List.range (2 ^ w)).map (slot rd)).Nodup := by
      refine (List.nodup_map_iff_inj_on List.nodup_range).mpr ?_
      intro k hk k' hk' heq
      exact slot_inj (List.mem_range.mp hk) (List.mem_range.mp hk') heq
    have hmem (rd i : BitVec w) : i ∈ (List.range (2 ^ w)).map (slot rd) :=
      List.mem_map.mpr ⟨(i - rd).toNat, List.mem_range.mpr (i - rd).isLt, slot_sub rd i⟩
    have hzero : (List.range (2 ^ w)).map (BitVec.ofNat w) =
        (List.range (2 ^ w)).map (slot 0) := by simp [slot]
    rw [hzero]
    refine (List.perm_ext_iff_of_nodup (hnodup rd) (hnodup 0)).mpr ?_
    intro i
    simp [hmem]
  have hslot (k : Nat) (hk : k ∈ List.range (2 ^ w)) : (p ∘ slot rd) k = decide (k < n) := by
    rw [Bool.eq_iff_iff]
    have hk : k < 2 ^ w := List.mem_range.mp hk
    simp only [Function.comp, h, inWindow_iff_sub hn, decide_eq_true_iff]
    simp [slot, Nat.mod_eq_of_lt hk]
  calc count p = ((List.range (2 ^ w)).map (slot rd)).countP p := ((hperm rd).countP_eq p).symm
    _ = (List.range (2 ^ w)).countP (p ∘ slot rd) := List.countP_map ..
    _ = (List.range (2 ^ w)).countP (fun k => decide (k < n)) :=
        List.countP_congr fun k hk => by rw [hslot k hk]
    _ = n := countP_range_lt hn

end Cva6.Sync.Ring
