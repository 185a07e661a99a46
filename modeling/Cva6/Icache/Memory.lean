import Cva6.Icache.Contents
/-!
# Fetching from a memory

The cache with a memory that is read at some cycle between request and answer. The
contents may change when the cache is flushed and stay the same in between.
-/

namespace Cva6.Icache

open Cva6.Sync

abbrev Memory := WordAddr → XLen

structure SysInput extends Input where
  /-- What the memory holds in this cycle. -/
  mem : Memory
  /-- The memory reads the words of the pending fill in this cycle. -/
  sample : Bool

structure System where
  cache : State
  mem : Memory
  /-- What the memory has read for the pending fill. -/
  sampled : Option Memory

section Cycle

variable (cacheable : Tag → Bool) (s : System) (i : SysInput)

def granted : Bool := (fsm cacheable s.cache.hw i.toInput).memDataReq && i.memDataAck

def sampledNow : Option Memory := if i.sample then some i.mem else s.sampled

def System.next : System where
  cache := s.cache.next cacheable i.toInput
  mem := i.mem
  sampled :=
    if granted cacheable s i then if i.sample then some i.mem else none else sampledNow s i

end Cycle

def icache (cacheable : Tag → Bool) (tags : Idx → Way → TagLine) (data : Idx → Way → Line)
    (mem : Memory) : Machine System SysInput :=
  ⟨⟨start tags data, mem, none⟩, System.next cacheable⟩

/-- The memory changes with a flush only, and answers the pending fill with what it
has read for it. -/
def Serves (s : System) (i : SysInput) : Prop :=
  (i.flush = false → i.mem = s.mem) ∧
    (rtrns i.toInput .IFILL_ACK = true → ∃ r m, s.cache.fill = some r ∧ sampledNow s i = some m ∧
      FillOk (fun a v => m a = v) r i.memRtrn.data)

def answered (cacheable : Tag → Bool) (s : System) (i : SysInput) : List Nat :=
  if validO cacheable s.cache i.toInput then s.cache.current.toList.map Prod.fst else []

/-! ## Invariants of the run -/

section Run

variable {cacheable : Tag → Bool} {tags : Idx → Way → TagLine} {data : Idx → Way → Line}
  {mem : Memory} {s : System} {i : SysInput}

structure SysOk (cacheable : Tag → Bool) (s : System) : Prop where
  cache : Ok cacheable (fun a v => s.mem a = v) s.cache
  fresh : s.cache.fill ≠ none → s.cache.current ≠ none → ∀ m, s.sampled = some m → m = s.mem

theorem SysOk.fills (ok : SysOk cacheable s) (he : Serves s i) :
    Fills (fun a v => i.mem a = v) s.cache i.toInput := by
  intro hrtrn
  obtain ⟨r, m, hr, hm, hfill⟩ := he.2 hrtrn
  refine ⟨r, hr, ?_⟩
  intro hcur hflush
  have hmem : m = i.mem := by
    unfold sampledNow at hm
    split_ifs at hm
    · exact (Option.some.inj hm).symm
    · rw [he.1 hflush]
      exact ok.fresh (by simp [hr]) hcur m hm
  rw [← hmem]
  exact hfill

theorem SysOk.steady (he : Serves s i) (hflush : i.flush = false) (a : WordAddr) (v : XLen)
    (h : s.mem a = v) : i.mem a = v := by
  rw [he.1 hflush]
  exact h

theorem SysOk.next (ok : SysOk cacheable s) (he : Serves s i) :
    SysOk cacheable (s.next cacheable i) where
  cache := ok.cache.next (ok.fills he) (SysOk.steady he)
  fresh := by
    intro hfill hcur m hm
    show m = i.mem
    have hfill : fillNext cacheable s.cache i.toInput ≠ none := hfill
    have hcur : currentNext cacheable s.cache i.toInput ≠ none := hcur
    have hm : (if granted cacheable s i then if i.sample then some i.mem else none
      else sampledNow s i) = some m := hm
    by_cases hg : granted cacheable s i = true
    · rw [if_pos hg] at hm
      split_ifs at hm
      exact (Option.some.inj hm).symm
    · rw [if_neg hg] at hm
      unfold sampledNow at hm
      split_ifs at hm with hsample
      · exact (Option.some.inj hm).symm
      · -- The fill was pending before, so its request was not taken in this cycle.
        have hkept : s.cache.fill ≠ none := by
          intro hnone
          have hg : ¬((fsm cacheable s.cache.hw i.toInput).memDataReq && i.memDataAck) = true := hg
          simp [fillNext, hg, hnone] at hfill
        have hwait : waiting s.cache.hw.state = true := by
          rw [← ok.cache.fill_iff]
          exact Option.isSome_iff_ne_none.mpr hkept
        have htake : takes cacheable s.cache i.toInput = false := by
          cases ht : takes cacheable s.cache i.toInput with
          | false => rfl
          | true =>
              simp only [takes, Bool.and_eq_true] at ht
              rcases (of_accepts ht.1).1 with h | ⟨h, -⟩ <;> simp [h, waiting] at hwait
        simp only [currentNext, htake, Bool.false_eq_true, if_false] at hcur
        split_ifs at hcur with hdrop
        · exact absurd rfl hcur
        · have hflush : i.flush = false := by
            simp only [drops, flushPending, Bool.or_eq_true, not_or, Bool.not_eq_true] at hdrop
            exact hdrop.2.2.2
          rw [he.1 hflush]
          exact ok.fresh hkept hcur m hm

theorem sysOk_run (ins : List SysInput)
    (h : (icache cacheable tags data mem).Throughout Serves ins) :
    SysOk cacheable ((icache cacheable tags data mem).run ins) := by
  refine Machine.invariant ?_ ?_ ins h
  · exact ⟨Ok.start tags data, by simp [icache, start]⟩
  · intro s i ok he
    exact ok.next he

theorem unique_run (hu : Unique tags) (ins : List SysInput)
    (h : (icache cacheable tags data mem).Throughout Serves ins) :
    Unique ((icache cacheable tags data mem).run ins).cache.hw.tags := by
  have hrun := Machine.invariant (m := icache cacheable tags data mem) (E := Serves)
    (I := fun s => SysOk cacheable s ∧ Unique s.cache.hw.tags)
    ⟨⟨Ok.start tags data, by simp [icache, start]⟩, hu⟩
    (fun s i ok he => ⟨ok.1.next he, ok.1.cache.unique_next ok.2⟩)
  exact (hrun ins h).2

theorem answered_run (ins : List SysInput)
    (h : (icache cacheable tags data mem).Throughout Serves ins) :
    ((icache cacheable tags data mem).log (answered cacheable) ins).Pairwise (· < ·) ∧
      ∀ n ∈ (icache cacheable tags data mem).log (answered cacheable) ins,
        n < ((icache cacheable tags data mem).run ins).cache.accepted ∧
          ∀ r ∈ ((icache cacheable tags data mem).run ins).cache.current, n < r.1 := by
  revert ins
  refine Machine.run_induction ⟨by simp, by simp⟩ ?_
  intro ins i hins ⟨hpair, hlt⟩ he
  have ok := sysOk_run ins hins
  set s := (icache cacheable tags data mem).run ins
  have hnow : ∀ n ∈ answered cacheable s i, n + 1 = s.cache.accepted ∧
      validO cacheable s.cache i.toInput = true ∧ ∃ r ∈ s.cache.current, r.1 = n := by
    intro n hn
    unfold answered at hn
    split_ifs at hn with hv
    · obtain ⟨r, hr, rfl⟩ := List.mem_map.mp hn
      rw [Option.mem_toList] at hr
      exact ⟨ok.cache.current_last r hr, hv, r, hr, rfl⟩
    · simp at hn
  rw [Machine.log_snoc, Machine.run_snoc]
  refine ⟨List.pairwise_append.mpr ⟨hpair, ?_, ?_⟩, ?_⟩
  · unfold answered
    split_ifs
    · cases s.cache.current <;> simp
    · simp
  · intro n hn n' hn'
    obtain ⟨-, -, r, hr, rfl⟩ := hnow n' hn'
    exact (hlt n hn).2 r hr
  · intro n hn
    show n < (if takes cacheable s.cache i.toInput then s.cache.accepted + 1 else s.cache.accepted) ∧
      ∀ r ∈ currentNext cacheable s.cache i.toInput, n < r.1
    have hacc : n < s.cache.accepted := by
      rcases List.mem_append.mp hn with hn | hn
      · exact (hlt n hn).1
      · have := (hnow n hn).1
        omega
    refine ⟨by split_ifs <;> omega, ?_⟩
    intro r hr
    unfold currentNext at hr
    split_ifs at hr with htake hdrop
    · rw [Option.mem_some] at hr
      rw [← hr]
      exact hacc
    · simp at hr
    · rcases List.mem_append.mp hn with hn | hn
      · exact (hlt n hn).2 r hr
      · simp [(hnow n hn).2.1] at hdrop

/-- Every answer is the memory word of the latest request that was taken and neither
killed nor flushed since, no request is answered twice, and no line is held twice once
the cache is enabled; arrays that start without duplicates never have one. -/
theorem answers_are_memory_contents (cacheable : Tag → Bool) (tags : Idx → Way → TagLine)
    (data : Idx → Way → Line) (mem : Memory) (ins : List SysInput)
    (h : (icache cacheable tags data mem).Throughout Serves ins) :
    (∀ pre i post, ins = pre ++ i :: post →
      let s := ((icache cacheable tags data mem).run pre).cache
      (validO cacheable s i.toInput = true →
        ∃ n, s.current = some (n, s.hw.vaddrQ) ∧ n + 1 = s.accepted ∧
          dataO s.hw i.toInput = i.mem (wordOf s.hw.vaddrQ)) ∧
      (drops s i.toInput = true → validO cacheable s i.toInput = false) ∧
      (s.hw.cacheEnQ = true ∨ Unique tags → Unique s.hw.tags) ∧
      (s.hw.state = .READ → s.hw.cacheEnQ = true →
        ∀ w w', clHit s.hw w = true → clHit s.hw w' = true → w = w')) ∧
    ((icache cacheable tags data mem).log (answered cacheable) ins).Pairwise (· < ·) := by
  refine ⟨?_, (answered_run ins h).1⟩
  intro pre i post hp
  have hpre : (icache cacheable tags data mem).Throughout Serves pre := by
    rw [hp] at h
    exact h.take
  have he := h pre i post hp
  have ok := sysOk_run pre hpre
  refine ⟨?_, ?_, ?_, ?_⟩
  · intro hv
    obtain ⟨-, hcur, hdata⟩ := ok.cache.answer (ok.fills he) (SysOk.steady he) hv
    obtain ⟨⟨n, a⟩, hr, ha⟩ := Option.map_eq_some_iff.mp hcur
    obtain rfl : a = _ := ha
    exact ⟨n, hr, ok.cache.current_last _ hr, hdata.symm⟩
  · intro hdrop
    by_contra hv
    rw [Bool.not_eq_false] at hv
    simp [(of_validO hv).1] at hdrop
  · rintro (hen | hu)
    · exact ok.cache.unique hen
    · exact unique_run hu pre hpre
  · intro hst hen w w'
    exact ok.cache.clHit_unique hst hen

/-! ## A fetch past the cache, a miss, a hit and a killed fetch -/

theorem mem_run {ins : List SysInput} (hmem : ∀ i ∈ ins, i.mem = mem) :
    ((icache cacheable tags data mem).run ins).mem = mem := by
  induction ins using List.reverseRecOn with
  | nil => rfl
  | append_singleton ins i _ =>
      rw [Machine.run_snoc]
      exact hmem i (by simp)

/-- The memory reads the line that was asked for in the cycle in which it answers. -/
def AnswersAtOnce (mem : Memory) (s : System) (i : SysInput) : Prop :=
  rtrns i.toInput .IFILL_ACK = true →
    i.sample = true ∧ ∃ r ∈ s.cache.fill, FillOk (fun a v => mem a = v) r i.memRtrn.data

theorem serves_of_constant {ins : List SysInput} (hmem : ∀ i ∈ ins, i.mem = mem)
    (hans : (icache cacheable tags data mem).Throughout (AnswersAtOnce mem) ins) :
    (icache cacheable tags data mem).Throughout Serves ins := by
  rintro pre i post rfl
  have hnow : i.mem = mem := hmem i (by simp)
  refine ⟨fun _ => ?_, fun hrtrn => ?_⟩
  · rw [hnow, mem_run fun j hj => hmem j (by simp [hj])]
  · obtain ⟨hsample, r, hr, hfill⟩ := hans pre i post rfl hrtrn
    refine ⟨r, mem, hr, ?_, hfill⟩
    rw [sampledNow, if_pos hsample, hnow]

instance (r : FillReq) (line : Line) : Decidable (FillOk (fun a v => mem a = v) r line) :=
  inferInstanceAs (Decidable (if r.nc then ∀ _ : Offset, mem _ = _ else ∀ _ : Offset, mem _ = _))

instance : Decidable (AnswersAtOnce mem s i) :=
  inferInstanceAs (Decidable (_ → _ ∧ ∃ r ∈ (_ : Option FillReq), _))

def numbers : Memory := fun a => a.setWidth 32

/-- With the cache disabled the word at 8 is fetched. The cache is enabled and flushed; the word at
64 is fetched with its line, and the next one hits. The fetch after it is killed. -/
def fetches : List SysInput :=
  let on : SysInput := { (⟨default, numbers, false⟩ : SysInput) with en := true }
  let fetch (a : XLen) : SysInput := { on with dreq := ⟨true, false, false, a⟩ }
  let fill (l : Line) : SysInput :=
    { on with sample := true, memRtrnVld := true, memRtrn := ⟨.IFILL_ACK, l, default⟩ }
  [{ fetch 8 with en := false }, { on with en := false, memDataAck := true },
    { fill (fun k => 2 + k.setWidth 32) with en := false }] ++ List.replicate 257 on ++
    [fetch 64, { on with memDataAck := true }, fill fun k => 16 + k.setWidth 32,
      fetch 68, fetch 72, { fetch 76 with dreq.killS2 := true }, on]

set_option maxRecDepth 20000 in
theorem answers_are_memory_contents_fetches :
    let m := icache (fun _ => true) (fun _ _ => default) (fun _ _ _ => 0) numbers
    m.Throughout Serves fetches ∧ m.log (answered fun _ => true) fetches = [0, 1, 2, 4] ∧
      (m.log (answered fun _ => true) fetches).Pairwise (· < ·) ∧
      ∀ pre i post, fetches = pre ++ i :: post →
        validO (fun _ => true) (m.run pre).cache i.toInput = true →
          dataO (m.run pre).cache.hw i.toInput = i.mem (wordOf (m.run pre).cache.hw.vaddrQ) := by
  have hmem : ∀ i ∈ fetches, i.mem = numbers := by
    simp [fetches, or_imp, forall_and]
  have hserves : (icache (fun _ => true) (fun _ _ => default) (fun _ _ _ => 0)
      numbers).Throughout Serves fetches := serves_of_constant hmem (by decide +kernel)
  obtain ⟨hall, honce⟩ := answers_are_memory_contents _ _ _ _ _ hserves
  refine ⟨hserves, by decide +kernel, honce, fun pre i post hp hv => ?_⟩
  obtain ⟨n, -, -, hdata⟩ := (hall pre i post hp).1 hv
  exact hdata

end Run

end Cva6.Icache
