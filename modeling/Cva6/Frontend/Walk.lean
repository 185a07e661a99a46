import Cva6.Frontend.Parcels
/-!
# Walking the instruction memory

What the re-aligner is for: the words that are fetched one after the other hold
instructions of one or two parcels, and the re-aligner finds the instructions
that a walk over the parcels finds. The walk takes a parcel whose low bits are
not `11` as an instruction and every other parcel together with its successor.
-/

namespace Cva6.Frontend

open Cva6.Sync

abbrev Image := Parcel → BitVec 16

/-- The instructions in the `n` parcels from the address on. -/
def walk (M : Image) (a : XLen) : Nat → List (XLen × BitVec 32)
  | 0 => []
  | 1 => if Realign.isCompressed (M (half a)) then [(a, 0#16 ++ M (half a))] else []
  | n + 2 =>
      if Realign.isCompressed (M (half a)) then (a, 0#16 ++ M (half a)) :: walk M (a + 2) (n + 1)
      else (a, M (half a + 1) ++ M (half a)) :: walk M (a + 4) n

def ownBits (w : BitVec 32) : BitVec 32 :=
  if isRvc w then 0#16 ++ lowParcel w else w

def parcels (w : BitVec 32) : Nat := if isRvc w then 1 else 2

def Image.Holds (M : Image) (p : Parcel) (v : BitVec 16) : Prop := v = M p

theorem append_parcels (w : BitVec 32) : highParcel w ++ lowParcel w = w := by
  apply BitVec.eq_of_getLsbD_eq
  intro k hk
  unfold highParcel lowParcel
  erw [BitVec.getLsbD_append]
  by_cases h : k < 16
  · rw [if_pos h, BitVec.getLsbD_extractLsb]
    simp [h]
  · rw [if_neg h, BitVec.getLsbD_extractLsb]
    have h16 : k - 16 < 16 := by omega
    have hk : 16 + (k - 16) = k := by omega
    simp [h16, hk]

/-- The walk takes a stored instruction as a whole. -/
theorem walk_stored {M : Image} {a : XLen} {w : BitVec 32} (h : Stored M.Holds a w) (n : Nat) :
    walk M a (parcels w + n) = (a, ownBits w) :: walk M (a + Queue.len w) n := by
  obtain ⟨hlow, hhigh⟩ := h
  have hlow : lowParcel w = M (half a) := hlow
  have hrvc := isRvc_eq w
  rw [hlow] at hrvc
  cases hc : isRvc w with
  | true =>
      have hM : Realign.isCompressed (M (half a)) = true := by rw [← hrvc, hc]
      have hp : parcels w = 1 := by simp [parcels, hc]
      have hlen : Queue.len w = 2 := by simp [Queue.len, hc]
      have hown : ownBits w = 0#16 ++ M (half a) := by simp [ownBits, hc, hlow]
      rw [hp, hlen, hown]
      cases n with
      | zero => simp [walk, hM]
      | succ n =>
          rw [Nat.add_comm 1 (n + 1), walk, if_pos hM]
  | false =>
      have hM : Realign.isCompressed (M (half a)) = false := by rw [← hrvc, hc]
      have hp : parcels w = 2 := by simp [parcels, hc]
      have hlen : Queue.len w = 4 := by simp [Queue.len, hc]
      have hhigh : highParcel w = M (half a + 1) := hhigh hc
      have hown : ownBits w = M (half a + 1) ++ M (half a) := by
        rw [← hlow, ← hhigh, append_parcels]
        simp [ownBits, hc]
      rw [hp, hlen, hown, Nat.add_comm 2 n, walk, if_neg (by simp [hM])]

/-! ## Fetching -/

namespace Realign

def found (q : Regs) (i : Input) : List (XLen × BitVec 32) :=
  (if (slot0 q i).valid then [((slot0 q i).addr, (slot0 q i).instr)] else []) ++
    (if (slot1 q i).valid then [((slot1 q i).addr, (slot1 q i).instr)] else [])

/-- The parcels that wait for the next word. -/
def waiting (q : Regs) : Nat := if q.unaligned then 1 else 0

def fetched (i : Input) : Nat :=
  if i.valid then if i.address.getLsbD 1 then 1 else 2 else 0

variable {H : Parcel → BitVec 16 → Prop} {q : Regs} {i : Input}

theorem parcels_slot0 (hp : q.unaligned = true → PendingOk H q i.address) :
    parcels (slot0 q i).instr =
      if q.unaligned then 2 else if isCompressed (lower i) then 1 else 2 := by
  cases hu : q.unaligned with
  | true =>
      have hlong : isRvc (lower i ++ q.unalignedInstr) = false := by
        rw [isRvc_eq]
        erw [lowParcel_append]
        exact (hp hu).long
      simp only [slot0, hu, if_true, parcels, hlong, Bool.false_eq_true, if_false]
  | false =>
      have hrvc : isRvc i.data = isCompressed (lower i) := isRvc_eq i.data
      simp only [slot0, hu, Bool.false_eq_true, if_false, parcels, hrvc]

theorem parcels_slot1 (hw : WordOk H i) (hp : q.unaligned = true → PendingOk H q i.address)
    (hv : (slot1 q i).valid = true) : parcels (slot1 q i).instr = 1 := by
  obtain ⟨-, -, -, hlen⟩ := slot1_ok hw hp hv
  unfold Queue.len at hlen
  cases hc : isRvc (slot1 q i).instr with
  | true => simp [parcels, hc]
  | false =>
      rw [hc] at hlen
      exact absurd hlen (by decide)

/-- A word and the parcel that waited for it are used up, except for the
parcel that waits next. -/
theorem parcels_found (hw : WordOk H i) (hp : q.unaligned = true → PendingOk H q i.address)
    (hvalid : i.valid = true) (hflush : i.flush = false) :
    ((found q i).map fun x => parcels x.2).sum + waiting (next q i) =
      waiting q + fetched i := by
  have hun : (next q i).unaligned = unalignedD q i := by simp [next, hflush, hvalid]
  have h0 := parcels_slot0 hp
  have h1 := parcels_slot1 hw hp
  simp only [waiting, hun, fetched, hvalid, if_true, found]
  cases hlow : i.address.getLsbD 1 with
  | true =>
      have hq : q.unaligned = false := by
        cases hu : q.unaligned with
        | false => rfl
        | true => exact absurd ((hp hu).address_low.symm.trans hlow) (by decide)
      have hstart : startsUpper i = true := by simp [startsUpper, hvalid, hlow]
      have hs1 : (slot1 q i).valid = false := by simp [slot1, hstart]
      have hs0 : (slot0 q i).valid = isCompressed (lower i) := by simp [slot0, hstart, hvalid]
      have hzero : isCompressed (upper i) = true := by
        rw [hw.none hlow]
        rfl
      have hd : unalignedD q i = !isCompressed (lower i) := by
        cases hc : isCompressed (lower i) <;> simp [unalignedD, hstart, splits, hc, hzero]
      rw [hs0, hs1, hd, hq]
      cases hc : isCompressed (lower i) <;> simp [h0, hq, hc]
  | false =>
      have hstart : startsUpper i = false := by simp only [startsUpper, hlow, Bool.and_false]
      have hs0 : (slot0 q i).valid = true := by simp [slot0, hstart, hvalid]
      have hs1 : (slot1 q i).valid = (splits q i && isCompressed (upper i)) := by
        simp [slot1, hstart, hvalid]
      have hd : unalignedD q i = if splits q i then !isCompressed (upper i) else q.unaligned := by
        simp [unalignedD, hstart]
      rw [hs1] at h1
      rw [hs0, hs1, hd]
      cases hs : splits q i with
      | true =>
          cases hc : isCompressed (upper i) with
          | true =>
              have h1 := h1 (by rw [hs, hc]; rfl)
              cases hu : q.unaligned <;> simp_all [splits]
          | false => cases hu : q.unaligned <;> simp_all [splits]
      | false =>
          simp only [splits, Bool.or_eq_false_iff] at hs
          simp [h0, hs.1, hs.2]

/-- The walk over the parcels that are left of earlier words and those of this
word starts with the instructions found, and goes on where they end. -/
theorem walk_found {M : Image} (hw : WordOk M.Holds i)
    (hp : q.unaligned = true → PendingOk M.Holds q i.address) (n : Nat) :
    walk M (position q i.address) (((found q i).map fun x => parcels x.2).sum + n) =
      ((found q i).map fun x => (x.1, ownBits x.2)) ++ walk M (endPos q i) n := by
  unfold found endPos
  cases h1 : (slot1 q i).valid with
  | true =>
      obtain ⟨h0, haddr, hstored1, -⟩ := slot1_ok hw hp h1
      obtain ⟨hpos, hstored0⟩ := slot0_ok hw hp h0
      have hwalk0 := walk_stored hstored0 (parcels (slot1 q i).instr + n)
      have hwalk1 := walk_stored hstored1 n
      rw [← haddr, hwalk1] at hwalk0
      simp only [h0, if_true, ← hpos, List.cons_append, List.nil_append, List.map_cons,
        List.map_nil, List.sum_cons, List.sum_nil, Nat.add_zero, Nat.add_assoc, hwalk0]
  | false =>
      cases h0 : (slot0 q i).valid with
      | true =>
          obtain ⟨hpos, hstored0⟩ := slot0_ok hw hp h0
          have hwalk0 := walk_stored hstored0 n
          simp only [if_true, ← hpos, Bool.false_eq_true, if_false, List.append_nil, List.map_cons,
            List.map_nil, List.sum_cons, List.sum_nil, Nat.add_zero, List.cons_append,
            List.nil_append, hwalk0]
      | false => simp

def realigner : Machine Regs Input := ⟨reset, next⟩

end Realign

/-! ## Fetches -/

def Image.word (M : Image) (a : XLen) : BitVec 32 :=
  M (a.extractLsb 31 2 ++ 1#1) ++ M (a.extractLsb 31 2 ++ 0#1)

/-- An answer of the cache, shifted to its first parcel, as the re-aligner
sees it. -/
def shifted (r : IcacheRsp) : Realign.Input := ⟨false, r.valid, r.vaddr, icacheData r⟩

/-- The cache answers with the word at `a` and those after it, with any number
of bubbles in between. -/
def Fetches (M : Image) : XLen → List IcacheRsp → Prop
  | _, [] => True
  | a, r :: rs =>
      if r.valid then r.vaddr = a ∧ r.data = M.word a ∧ Fetches M (nextWord a) rs
      else Fetches M a rs

instance decidableFetches (M : Image) : ∀ a rs, Decidable (Fetches M a rs)
  | _, [] => .isTrue trivial
  | a, r :: rs =>
      have := decidableFetches M (nextWord a) rs
      have := decidableFetches M a rs
      inferInstanceAs (Decidable (if r.valid then _ else _))

def fetchedParcels (rs : List IcacheRsp) : Nat :=
  (rs.map fun r => Realign.fetched (shifted r)).sum

def foundFrom (q : Realign.Regs) (rs : List IcacheRsp) : List (XLen × BitVec 32) :=
  Realign.realigner.logFrom Realign.found q (rs.map shifted)

theorem highParcel_word (M : Image) (a : XLen) :
    highParcel (M.word a) = M (a.extractLsb 31 2 ++ 1#1) :=
  highParcel_append _ _

theorem lowParcel_word (M : Image) (a : XLen) :
    lowParcel (M.word a) = M (a.extractLsb 31 2 ++ 0#1) :=
  lowParcel_append _ _

theorem shifted_ok {M : Image} {r : IcacheRsp} (halign : Aligned r.vaddr)
    (hdata : r.data = M.word r.vaddr) : Realign.WordOk M.Holds (shifted r) := by
  have hparcel := half_eq_parcel r.vaddr
  refine ⟨halign, ?_, ?_, ?_⟩
  · change lowParcel (icacheData r) = M (half r.vaddr)
    unfold icacheData
    cases hup : r.vaddr.getLsbD 1 with
    | true =>
        simp only [if_true]
        rw [lowParcel_shift, hdata, highParcel_word, hparcel.1 hup]
    | false =>
        simp only [Bool.false_eq_true, if_false]
        rw [hdata, lowParcel_word, (hparcel.2 hup).1]
  · intro hup
    have hup : r.vaddr.getLsbD 1 = false := hup
    change highParcel (icacheData r) = M (half r.vaddr + 1)
    rw [icacheData, hup, if_neg Bool.false_ne_true, hdata, highParcel_word, (hparcel.2 hup).2]
  · intro hup
    have hup : r.vaddr.getLsbD 1 = true := hup
    change highParcel (icacheData r) = 0
    rw [icacheData, hup, if_pos rfl, highParcel_shift]

/-- The induction over the fetches. Its invariant is that the half instruction
kept by the re-aligner is the one before the next word. -/
theorem foundFrom_eq_walk {M : Image} (rs : List IcacheRsp) :
    ∀ (q : Realign.Regs) (a : XLen), Aligned a →
      (q.unaligned = true → Realign.PendingOk M.Holds q a) → Fetches M a rs →
      ((foundFrom q rs).map fun x => (x.1, ownBits x.2)) =
        walk M (Realign.position q a) (Realign.waiting q + fetchedParcels rs) := by
  induction rs with
  | nil =>
      intro q a _ hp _
      cases hu : q.unaligned with
      | false => simp [foundFrom, Machine.logFrom, fetchedParcels, Realign.waiting, hu, walk]
      | true =>
          have hp := hp hu
          have hM : Realign.isCompressed (M (half q.unalignedAddress)) = false := by
            have hstored : q.unalignedInstr = M (half q.unalignedAddress) := hp.stored
            rw [← hstored, hp.long]
          simp [foundFrom, Machine.logFrom, fetchedParcels, Realign.waiting, Realign.position, hu,
            walk, hM]
  | cons r rs ih =>
      intro q a ha hp hf
      have hcons : foundFrom q (r :: rs) =
          Realign.found q (shifted r) ++ foundFrom (Realign.next q (shifted r)) rs := rfl
      have hcount : fetchedParcels (r :: rs) = Realign.fetched (shifted r) + fetchedParcels rs := rfl
      cases hv : r.valid with
      | false =>
          simp only [Fetches, hv, Bool.false_eq_true, if_false] at hf
          have hval : (shifted r).valid = false := hv
          have hnext : Realign.next q (shifted r) = q := by
            simp [Realign.next, shifted, hv]
          have hnone : Realign.found q (shifted r) = [] := by
            simp [Realign.found, Realign.slot0, Realign.slot1, hval]
          have hzero : Realign.fetched (shifted r) = 0 := by simp [Realign.fetched, hval]
          rw [hcons, hcount, hnext, hnone, hzero, List.nil_append, Nat.zero_add]
          exact ih q a ha hp hf
      | true =>
          simp only [Fetches, hv, if_true] at hf
          obtain ⟨rfl, hdata, hrest⟩ := hf
          have hval : (shifted r).valid = true := hv
          have hw := shifted_ok ha hdata
          obtain ⟨hpos, hp'⟩ := Realign.next_ok hw hp hval rfl
          have hparcels := Realign.parcels_found hw hp hval rfl
          have hrec := ih (Realign.next q (shifted r)) (nextWord r.vaddr) (aligned_nextWord _) hp'
            hrest
          have hwalk := Realign.walk_found hw hp
            (Realign.waiting (Realign.next q (shifted r)) + fetchedParcels rs)
          have hpos : Realign.position (Realign.next q (shifted r)) (nextWord r.vaddr) =
              Realign.endPos q (shifted r) := hpos
          rw [hcons, hcount, List.map_append, hrec, hpos, ← hwalk, ← Nat.add_assoc, hparcels,
            Nat.add_assoc]
          rfl

/-- After a flush, the instructions found in any sequence of sequential fetches
with bubbles are those of a walk over the fetched parcels. -/
theorem realign_walks (M : Image) (a : XLen) (ha : Aligned a) (q : Realign.Regs) (i : Realign.Input)
    (hflush : i.flush = true) (rs : List IcacheRsp) (hf : Fetches M a rs) :
    ((foundFrom (Realign.next q i) rs).map fun x => (x.1, ownBits x.2)) =
      walk M a (fetchedParcels rs) := by
  have hun : (Realign.next q i).unaligned = false := by simp [Realign.next, hflush]
  have hall := foundFrom_eq_walk rs (Realign.next q i) a ha (by simp [hun]) hf
  simpa [Realign.position, Realign.waiting, hun] using hall

/-- A compressed instruction in an upper half, a 32-bit one across two words and
two compressed ones. -/
def mixedImage : Image := fun p =>
  if p = 0x81 then 0x0001 else if p = 0x82 then 0x0001
  else if p = 0x83 then 0x0013 else if p = 0x84 then 0x0050 else 0x4501

def mixedFetches : List IcacheRsp :=
  [⟨true, true, mixedImage.word 0x102, 0x102, 0⟩, ⟨true, false, 0xFFFFFFFF, 0, 0⟩,
    ⟨true, true, mixedImage.word 0x104, 0x104, 0⟩, ⟨true, true, mixedImage.word 0x108, 0x108, 0⟩]

theorem realign_walks_mixed :
    Fetches mixedImage 0x102 mixedFetches ∧
      ((foundFrom (Realign.next Realign.reset ⟨true, false, 0, 0⟩) mixedFetches).map
        fun x => (x.1, ownBits x.2)) =
        [(0x102, 0x0001), (0x104, 0x0001), (0x106, 0x00500013), (0x10A, 0x4501)] := by
  have hf : Fetches mixedImage 0x102 mixedFetches := by decide
  refine ⟨hf, ?_⟩
  rw [realign_walks mixedImage 0x102 (by decide) Realign.reset ⟨true, false, 0, 0⟩ rfl _ hf]
  decide

end Cva6.Frontend
