import Cva6.Pkg
import Cva6.Sync.Machine
import Cva6.Sync.Selection
import Mathlib.Data.BitVec
import Mathlib.Data.List.FinRange
/-!
# The interrupt controller

`plic_top.sv` with `rv_plic_gateway.sv` and the sequential `rv_plic_target.sv`. A gateway keeps a
source pending until a target claims it, and shut until the target has completed it. What a
target is offered is chosen one cycle behind what is pending.
-/

namespace Cva6.Plic

open Cva6.Sync

variable {n k w : Nat}

/-! ## The gateways -/

structure Gateway (n : Nat) where
  srcD : Fin n → Bool
  ip : Fin n → Bool
  ia : Fin n → Bool

namespace Gateway

variable (q : Gateway n) (src le : Fin n → Bool)

def set (i : Fin n) : Bool := if le i then src i && !q.srcD i else src i

def next (claim complete : Option (Fin n)) : Gateway n where
  srcD := src
  ip i := (q.ip i || (q.set src le i && !q.ia i && !q.ip i)) && !(claim == some i)
  ia i := (q.ia i || (q.set src le i && !q.ia i)) && !(complete == some i)

def handled (i : Fin n) : Bool := q.ia i && !q.ip i

end Gateway

/-! ## The controller -/

/-- The register access of a cycle. Identifier zero, and one that is out of range, is `none`. -/
inductive Access (n k w : Nat)
  | idle
  | claim (t : Fin k)
  | complete (t : Fin k) (id : Option (Fin n))
  | setPrio (i : Fin n) (prio : BitVec w)
  | setThreshold (t : Fin k) (threshold : BitVec w)
  | setIe (t : Fin k) (ie : Fin n → Bool)

structure Input (n k w : Nat) where
  irqSources : Fin n → Bool
  /-- Level or edge. -/
  le : Fin n → Bool
  access : Access n k w

/-- A target raises its interrupt while `irqId` names a source. -/
structure Regs (n k w : Nat) where
  gateway : Gateway n
  irqId : Fin k → Option (Fin n)
  prioQ : Fin n → BitVec w
  thresholdQ : Fin k → BitVec w
  ieQ : Fin k → Fin n → Bool

section Cycle

variable (s : Regs n k w) (a : Input n k w)

def claim : Option (Fin n) :=
  match a.access with
  | .claim t => s.irqId t
  | _ => none

def complete : Option (Fin n) :=
  match a.access with
  | .complete _ id => id
  | _ => none

def listened (t : Fin k) (i : Fin n) : Bool := s.gateway.ip i && s.ieQ t i

/-- `rv_plic_target`. The bound is computed in the width of a priority. -/
def irqIdNext (t : Fin k) : Option (Fin n) :=
  (firstBest (listened s t) (fun i => (s.prioQ i).toNat) (s.thresholdQ t + 1).toNat
    (List.finRange n)).2

def Regs.next : Regs n k w where
  gateway := s.gateway.next a.irqSources a.le (claim s a) (complete a)
  irqId t := irqIdNext s t
  prioQ :=
    match a.access with
    | .setPrio i prio => Function.update s.prioQ i prio
    | _ => s.prioQ
  thresholdQ :=
    match a.access with
    | .setThreshold t threshold => Function.update s.thresholdQ t threshold
    | _ => s.thresholdQ
  ieQ :=
    match a.access with
    | .setIe t ie => Function.update s.ieQ t ie
    | _ => s.ieQ

end Cycle

def reset : Regs n k w where
  gateway := ⟨fun _ => false, fun _ => false, fun _ => false⟩
  irqId _ := none
  prioQ _ := 0
  thresholdQ _ := 0
  ieQ _ _ := false

def plic (n k w : Nat) : Machine (Regs n k w) (Input n k w) := ⟨reset, Regs.next⟩

/-! ## What a target is offered -/

/-- The first of the pending and enabled sources of the highest priority, if that is greater
than the threshold. -/
def Highest (s : Regs n k w) (t : Fin k) : Option (Fin n) → Prop
  | none => ∀ i, listened s t i = true → s.prioQ i ≤ s.thresholdQ t
  | some i => listened s t i = true ∧ s.thresholdQ t < s.prioQ i ∧
      ∀ j, listened s t j = true → s.prioQ j ≤ s.prioQ i ∧ (j < i → s.prioQ j < s.prioQ i)

variable {s : Regs n k w} {a : Input n k w} {t : Fin k} {i : Fin n}

theorem toNat_succ {x : BitVec w} (h : x ≠ BitVec.allOnes w) : (x + 1).toNat = x.toNat + 1 := by
  have hne : x.toNat ≠ 2 ^ w - 1 := by
    intro heq
    apply h
    apply BitVec.eq_of_toNat_eq
    rw [heq, BitVec.toNat_allOnes]
  have hlt := x.isLt
  rcases Nat.eq_zero_or_pos w with rfl | hw
  · simp at hne
    omega
  · have hone : (1 : BitVec w).toNat = 1 := Nat.mod_eq_of_lt (Nat.one_lt_two_pow hw.ne')
    rw [BitVec.toNat_add, hone, Nat.mod_eq_of_lt (by omega)]

theorem allOnes_succ : BitVec.allOnes w + 1 = 0 := by
  rw [← BitVec.neg_one_eq_allOnes]
  exact neg_add_cancel 1

theorem listened_of_irqIdNext (h : irqIdNext s t = some i) : listened s t i = true :=
  (firstBest_fst h).2

theorem highest_irqIdNext (ht : s.thresholdQ t ≠ BitVec.allOnes w) :
    Highest s t (irqIdNext s t) := by
  have hsucc := toNat_succ ht
  cases hid : irqIdNext s t with
  | none =>
      intro i hi
      have hlt := (firstBest_none hid).2 i (List.mem_finRange i) hi
      rw [hsucc] at hlt
      exact BitVec.le_def.mpr (Nat.le_of_lt_succ hlt)
  | some i =>
      obtain ⟨hbound, hall⟩ := firstBest_max hid
      rw [hsucc] at hbound
      refine ⟨listened_of_irqIdNext hid, BitVec.lt_def.mpr hbound, fun j hj => ⟨?_, fun hlt => ?_⟩⟩
      · exact BitVec.le_def.mpr (hall j (List.mem_finRange j) hj)
      · exact BitVec.lt_def.mpr (firstBest_lt (List.pairwise_lt_finRange n) hid j
          (List.mem_finRange j) hlt hj)

/-- At the highest threshold, which nothing exceeds, the bound wraps round to zero. -/
theorem highest_iff : Highest s t (irqIdNext s t) ↔
    s.thresholdQ t ≠ BitVec.allOnes w ∨ ∀ i, listened s t i = false := by
  by_cases ht : s.thresholdQ t = BitVec.allOnes w
  · have hmax (i : Fin n) : s.prioQ i ≤ s.thresholdQ t := by
      rw [ht, BitVec.le_def, BitVec.toNat_allOnes]
      exact Nat.le_pred_of_lt (s.prioQ i).isLt
    simp only [ne_eq, ht, not_true_eq_false, false_or]
    cases hid : irqIdNext s t with
    | none =>
        refine ⟨fun _ i => ?_, fun _ i _ => hmax i⟩
        by_contra hi
        have hlt := (firstBest_none hid).2 i (List.mem_finRange i) (Bool.not_eq_false _ ▸ hi)
        rw [ht, allOnes_succ] at hlt
        exact Nat.not_lt_zero _ hlt
    | some i =>
        constructor
        · intro h
          exact absurd (BitVec.le_def.mp (hmax i)) (Nat.not_le.mpr (BitVec.lt_def.mp h.2.1))
        · intro h
          exact absurd (listened_of_irqIdNext hid) (Bool.eq_false_iff.mp (h i))
  · exact iff_of_true (highest_irqIdNext ht) (.inl ht)

/-! ## One cycle -/

def accepted (s : Regs n k w) (a : Input n k w) : List (Fin n) :=
  (List.finRange n).filter fun i => s.gateway.set a.irqSources a.le i && !s.gateway.ia i

def claims (s : Regs n k w) (a : Input n k w) : List (Fin n) := (claim s a).toList

def completions (_ : Regs n k w) (a : Input n k w) : List (Fin n) := (complete a).toList

def Input.isClaim (a : Input n k w) : Bool :=
  match a.access with
  | .claim _ => true
  | _ => false

theorem count_accepted : (accepted s a).count i =
    (s.gateway.set a.irqSources a.le i && !s.gateway.ia i).toNat := by
  have hnodup : (accepted s a).Nodup := (List.nodup_finRange n).filter _
  have hmem : i ∈ accepted s a ↔
      (s.gateway.set a.irqSources a.le i && !s.gateway.ia i) = true := by
    simp [accepted]
  rw [hnodup.count, if_congr hmem rfl rfl, Bool.toNat, Bool.cond_eq_ite]

theorem count_toList (o : Option (Fin n)) : o.toList.count i = (o == some i).toNat := by
  cases o with
  | none => rfl
  | some j => rw [Option.toList_some, List.count_singleton, Bool.toNat, Bool.cond_eq_ite]; rfl

theorem claim_eq (h : claim s a = some i) : ∃ t, a.access = .claim t ∧ s.irqId t = some i := by
  unfold claim at h
  split at h
  case h_1 t ht => exact ⟨t, ht, h⟩
  case h_2 => cases h

/-- Where the request of a source goes in one cycle, for a claim of a pending source and a
completion of one that is with a target. -/
theorem gateway_books : ∀ set ip ia claim complete : Bool,
    (ip = true → ia = true) → (claim = true → ip = true) →
    (complete = true → (ia && !ip) = true) →
    let ip' := (ip || (set && !ia && !ip)) && !claim
    let ia' := (ia || (set && !ia)) && !complete
    (ip' = true → ia' = true) ∧
      (set && !ia).toNat + ip.toNat = claim.toNat + ip'.toNat ∧
      claim.toNat + (ia && !ip).toNat = complete.toNat + (ia' && !ip').toNat := by
  decide

/-! ## Every run -/

/-- A claim does not directly follow another one, as the registers are behind APB, which accesses
them every other cycle at most, and what is completed has been claimed. -/
structure CycleOk (pre : List (Input n k w)) (a : Input n k w) : Prop where
  apart : a.isClaim = true → ∀ b ∈ pre.getLast?, b.isClaim = false
  own : ∀ i, complete a = some i → ((plic n k w).log completions pre).count i <
    ((plic n k w).log claims pre).count i

def Served (ins : List (Input n k w)) : Prop :=
  ∀ pre a post, ins = pre ++ a :: post → CycleOk pre a

theorem served_snoc {ins : List (Input n k w)} :
    Served (ins ++ [a]) ↔ Served ins ∧ CycleOk ins a := by
  constructor
  · intro h
    refine ⟨fun pre b post hp => h pre b (post ++ [a]) ?_, h ins a [] rfl⟩
    rw [hp, List.append_assoc, List.cons_append]
  · rintro ⟨h, ha⟩ pre b post hp
    rcases Machine.cycle_snoc hp with ⟨rfl, rfl⟩ | ⟨post', hins⟩
    · exact ha
    · exact h pre b post' hins

structure Books (ins : List (Input n k w)) (s : Regs n k w) : Prop where
  active : ∀ i, s.gateway.ip i = true → s.gateway.ia i = true
  /-- What a target is offered is pending, but for one cycle after a claim. -/
  offered : ∀ t i, s.irqId t = some i →
    s.gateway.ip i = true ∨ ∃ b ∈ ins.getLast?, b.isClaim = true
  accepted : ∀ i, ((plic n k w).log accepted ins).count i =
    ((plic n k w).log claims ins).count i + (s.gateway.ip i).toNat
  claimed : ∀ i, ((plic n k w).log claims ins).count i =
    ((plic n k w).log completions ins).count i + (s.gateway.handled i).toNat

theorem books_reset : Books [] (plic n k w).init where
  active _ h := absurd h Bool.false_ne_true
  offered _ i h := absurd h.symm (Option.some_ne_none i)
  accepted _ := rfl
  claimed _ := rfl

section Step

variable {ins : List (Input n k w)} (h : Books ins s) (ha : CycleOk ins a)
include h ha

theorem Books.pending_of_claim (hc : claim s a = some i) : s.gateway.ip i = true := by
  obtain ⟨t, hacc, hid⟩ := claim_eq hc
  rcases h.offered t i hid with hip | ⟨b, hb, hclaim⟩
  · exact hip
  · have hisClaim : a.isClaim = true := by
      rw [Input.isClaim, hacc]
    rw [ha.apart hisClaim b hb] at hclaim
    exact absurd hclaim Bool.false_ne_true

theorem Books.handled_of_complete (hc : complete a = some i) : s.gateway.handled i = true := by
  have hlt := ha.own i hc
  rw [h.claimed i] at hlt
  by_contra hn
  rw [Bool.eq_false_iff.mpr hn] at hlt
  exact absurd hlt (lt_irrefl _)

theorem Books.gateway (i : Fin n) :
    let q := (s.next a).gateway
    (q.ip i = true → q.ia i = true) ∧
      (s.gateway.set a.irqSources a.le i && !s.gateway.ia i).toNat + (s.gateway.ip i).toNat =
        (claim s a == some i).toNat + (q.ip i).toNat ∧
      (claim s a == some i).toNat + (s.gateway.handled i).toNat =
        (complete a == some i).toNat + (q.handled i).toNat :=
  gateway_books _ _ _ _ _ (h.active i)
    (fun hc => h.pending_of_claim ha (beq_iff_eq.mp hc))
    (fun hc => h.handled_of_complete ha (beq_iff_eq.mp hc))

end Step

theorem isClaim_of_claim (h : claim s a = some i) : a.isClaim = true := by
  obtain ⟨t, hacc, -⟩ := claim_eq h
  rw [Input.isClaim, hacc]

theorem offered_next (hid : (s.next a).irqId t = some i) :
    (s.next a).gateway.ip i = true ∨ a.isClaim = true := by
  have hlistened : listened s t i = true := listened_of_irqIdNext hid
  rw [listened, Bool.and_eq_true] at hlistened
  by_cases hc : claim s a = some i
  · exact .inr (isClaim_of_claim hc)
  · refine .inl ?_
    show ((s.gateway.ip i || _) && !(claim s a == some i)) = true
    rw [hlistened.1, beq_eq_false_iff_ne.mpr hc]
    rfl

theorem Books.next {ins : List (Input n k w)} (h : Books ins ((plic n k w).run ins))
    (ha : CycleOk ins a) : Books (ins ++ [a]) (((plic n k w).run ins).next a) where
  active i := (h.gateway ha i).1
  offered t i hid := by
    rcases offered_next hid with hip | hclaim
    · exact .inl hip
    · exact .inr ⟨a, by rw [List.getLast?_concat]; rfl, hclaim⟩
  accepted i := by
    obtain ⟨-, hcycle, -⟩ := h.gateway ha i
    have hold := h.accepted i
    rw [Machine.log_snoc, Machine.log_snoc, List.count_append, List.count_append, count_accepted,
      claims, count_toList]
    omega
  claimed i := by
    obtain ⟨-, -, hcycle⟩ := h.gateway ha i
    have hold := h.claimed i
    rw [Machine.log_snoc, Machine.log_snoc, List.count_append, List.count_append, claims,
      count_toList, completions, count_toList]
    omega

theorem books_run (ins : List (Input n k w)) (h : Served ins) :
    Books ins ((plic n k w).run ins) := by
  induction ins using List.reverseRecOn with
  | nil => exact books_reset
  | append_singleton ins a ih =>
      obtain ⟨h, ha⟩ := served_snoc.mp h
      rw [Machine.run_snoc]
      exact (ih h).next ha

/-- Every request that a gateway lets in is claimed once or pending, what is claimed is completed
or with a target, and a source has one request under way at most. A target is offered the highest
of the pending sources, unless its threshold is the highest one. -/
theorem interrupts_claimed_once (ins : List (Input n k w)) (h : Served ins) :
    (∀ i, ((plic n k w).log accepted ins).count i = ((plic n k w).log claims ins).count i +
        (((plic n k w).run ins).gateway.ip i).toNat ∧
      ((plic n k w).log claims ins).count i = ((plic n k w).log completions ins).count i +
        (((plic n k w).run ins).gateway.handled i).toNat ∧
      ((plic n k w).log accepted ins).count i ≤
        ((plic n k w).log completions ins).count i + 1) ∧
    ∀ a t, Highest ((plic n k w).run ins) t (((plic n k w).run (ins ++ [a])).irqId t) ↔
      ((plic n k w).run ins).thresholdQ t ≠ BitVec.allOnes w ∨
        ∀ i, listened ((plic n k w).run ins) t i = false := by
  have hbooks := books_run ins h
  refine ⟨fun i => ⟨hbooks.accepted i, hbooks.claimed i, ?_⟩, fun a t => ?_⟩
  · have hone : ((((plic n k w).run ins).gateway.ip i).toNat +
        (((plic n k w).run ins).gateway.handled i).toNat) ≤ 1 := by
      rw [Gateway.handled]
      cases ((plic n k w).run ins).gateway.ip i <;> cases ((plic n k w).run ins).gateway.ia i <;>
        decide
    rw [hbooks.accepted i, hbooks.claimed i, Nat.add_assoc]
    omega
  · rw [Machine.run_snoc]
    exact highest_iff

instance (pre : List (Input n k w)) (a : Input n k w) : Decidable (CycleOk pre a) :=
  decidable_of_iff ((a.isClaim = true → ∀ b ∈ pre.getLast?, b.isClaim = false) ∧
      ∀ i, complete a = some i → ((plic n k w).log completions pre).count i <
        ((plic n k w).log claims pre).count i)
    ⟨fun h => ⟨h.1, h.2⟩, fun h => ⟨h.apart, h.own⟩⟩

theorem served_iff {ins : List (Input n k w)} :
    Served ins ↔ ∀ j (hj : j < ins.length), CycleOk (ins.take j) ins[j] := by
  constructor
  · intro h j hj
    exact h _ _ (ins.drop (j + 1)) (by simp)
  · rintro h pre a post rfl
    simpa using h pre.length (by simp)

instance (ins : List (Input n k w)) : Decidable (Served ins) := decidable_of_iff _ served_iff.symm

/-- A target raises the priority of the one source, listens to it, claims it and completes it. -/
def oneInterrupt : List (Input 1 2 3) :=
  let cycle (access : Access 1 2 3) : Input 1 2 3 := ⟨fun _ => true, fun _ => true, access⟩
  [cycle (.setPrio 0 1), cycle (.setIe 0 fun _ => true), cycle (.setIe 1 fun _ => true),
    cycle .idle, cycle (.claim 0), cycle .idle, cycle (.complete 0 (some 0))]

theorem interrupts_claimed_once_oneInterrupt :
    ((plic 1 2 3).log accepted oneInterrupt).count 0 = 1 ∧
      ((plic 1 2 3).log completions oneInterrupt).count 0 = 1 := by
  have hserved : Served oneInterrupt := by decide
  obtain ⟨hbooks, -⟩ := interrupts_claimed_once oneInterrupt hserved
  obtain ⟨haccepted, hclaimed, -⟩ := hbooks 0
  have hcompleted : ((plic 1 2 3).log completions oneInterrupt).count 0 = 1 := by decide
  have hip : ((plic 1 2 3).run oneInterrupt).gateway.ip 0 = false := by decide
  have hhandled : ((plic 1 2 3).run oneInterrupt).gateway.handled 0 = false := by decide
  rw [hclaimed, hcompleted, hip, hhandled] at haccepted
  exact ⟨haccepted, hcompleted⟩

/-- Two claims in a row get the same source. -/
example : (plic 1 2 3).log claims (oneInterrupt.take 4 ++
    [⟨fun _ => true, fun _ => true, .claim 0⟩, ⟨fun _ => true, fun _ => true, .claim 1⟩]) =
      [0, 0] := by
  decide

end Cva6.Plic
