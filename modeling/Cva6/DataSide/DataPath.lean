import Cva6.DataSide.Model
/-!
# Store data and load data

A store is rotated inside its word by `data_align`, placed in the half of the doubleword that its
address selects, and masked by `be_gen`. A load shifts the doubleword and extends the sign that was
selected beforehand. The two are inverse: a load inside what was stored returns the stored bytes.
-/

namespace Cva6.DataSide

open Cva6.Lsu
open Cva6.Dcache (paddrOf)

/-! ## Sizes -/

inductive Size where
  | byte | half | word
  deriving DecidableEq, Repr

namespace Size

def bytes : Size → Nat
  | byte => 1
  | half => 2
  | word => 4

def storeOp : Size → FuOp
  | byte => .SB
  | half => .SH
  | word => .SW

def loadOp : Size → Bool → FuOp
  | byte, signed => if signed then .LB else .LBU
  | half, signed => if signed then .LH else .LHU
  | word, signed => if signed then .LW else .LWU

def Aligned (sz : Size) (a : XLen) : Prop := a.toNat % sz.bytes = 0

def extend (sz : Size) (signed : Bool) (x : XLen) : XLen :=
  if signed then (x.setWidth (8 * sz.bytes)).signExtend 32
  else (x.setWidth (8 * sz.bytes)).setWidth 32

instance (sz : Size) (a : XLen) : Decidable (sz.Aligned a) := inferInstanceAs (Decidable (_ = _))

end Size

def lane (a : XLen) : Nat := (paddrOf a).lane.val

structure Inside (sz' : Size) (a' : XLen) (sz : Size) (a : XLen) : Prop where
  word : (paddrOf a').word = (paddrOf a).word
  le : lane a ≤ lane a'
  end_le : lane a' + sz'.bytes ≤ lane a + sz.bytes

def written (r : Dcache.StoreReq) (m : Dcache.WordAddr → Dcache.Word) :
    Dcache.WordAddr → Dcache.Word :=
  fun w k => if w = r.wtag ∧ r.be k = true then r.wdata k else m w k

/-! ## Lanes -/

section Lanes

variable (a : XLen)

theorem lane_eq : lane a = (a.setWidth 3).toNat := by
  have hlt := (a.setWidth 3).isLt
  exact Nat.mod_eq_of_lt hlt

theorem lane_lt : lane a < 8 := (paddrOf a).lane.isLt

theorem lane_eq_mod : lane a = a.toNat % 8 := by
  rw [lane_eq, BitVec.toNat_setWidth]

variable {a}

theorem Size.Aligned.lane_mod {sz : Size} (h : sz.Aligned a) : lane a % sz.bytes = 0 := by
  have hdvd : sz.bytes ∣ 8 := by
    cases sz <;> decide
  rw [lane_eq_mod, Nat.mod_mod_of_dvd _ hdvd]
  exact h

theorem Size.Aligned.lane_le {sz : Size} (h : sz.Aligned a) :
    lane a % 4 + sz.bytes ≤ 4 ∧ lane a + sz.bytes ≤ 8 := by
  have hmod := h.lane_mod
  have hlt := lane_lt a
  cases sz <;> simp only [Size.bytes] at hmod ⊢ <;> omega

end Lanes

/-! ## The byte enables -/

theorem beGen_lanes {sz : Size} {a : XLen} (h : sz.Aligned a) (k : Dcache.Lane) :
    Dcache.lanes (beGen (a.setWidth 3) (extractTransferSize sz.storeOp)) k = true ↔
      lane a ≤ k.val ∧ k.val < lane a + sz.bytes := by
  have hle := h.lane_le.2
  rw [lane_eq] at hle ⊢
  generalize a.setWidth 3 = x at hle ⊢
  revert x k
  cases sz <;> decide

/-! ## The store data -/

theorem rotate_getLsbD {m n : Nat} (v : XLen) (h : m + n = 32) {t : Nat} (ht : t < 32) :
    (v.extractLsb' 0 m ++ v.extractLsb' m n).getLsbD t = v.getLsbD ((t + m) % 32) := by
  rw [BitVec.getLsbD_append, BitVec.getLsbD_extractLsb', BitVec.getLsbD_extractLsb']
  by_cases htn : t < n
  · have hmod : (t + m) % 32 = m + t := by omega
    rw [if_pos htn, hmod, decide_eq_true htn, Bool.true_and]
  · have hmod : (t + m) % 32 = 0 + (t - n) := by omega
    have hlt : t - n < m := by omega
    rw [if_neg htn, hmod, decide_eq_true hlt, Bool.true_and]

theorem dataAlign_getLsbD (x : BitVec 3) (v : XLen) {t : Nat} (ht : t < 32) :
    (dataAlign x v).getLsbD t = v.getLsbD ((t + (32 - 8 * (x.toNat % 4))) % 32) := by
  have hx : x.toNat % 4 = (x.setWidth 2).toNat := (BitVec.toNat_setWidth 2 x).symm
  rw [hx]
  unfold dataAlign
  generalize x.setWidth 2 = y
  have hcases : y = 0 ∨ y = 1 ∨ y = 2 ∨ y = 3 := by
    revert y
    decide
  rcases hcases with rfl | rfl | rfl | rfl
  · have hmod : (t + 32) % 32 = t := by omega
    exact (congrArg v.getLsbD hmod).symm
  · exact rotate_getLsbD (m := 24) (n := 8) v rfl ht
  · exact rotate_getLsbD (m := 16) (n := 16) v rfl ht
  · exact rotate_getLsbD (m := 8) (n := 24) v rfl ht

/-- The word of a store on the data port, `data_wdata`. -/
def portData (a v : XLen) : BitVec 64 :=
  if a.getLsbD 2 then dataAlign (a.setWidth 3) v ++ 0#32
  else (dataAlign (a.setWidth 3) v).setWidth 64

theorem portData_byte {sz : Size} {a : XLen} (h : sz.Aligned a) (v : XLen) {k : Nat}
    (hk : lane a ≤ k) (hk' : k < lane a + sz.bytes) :
    (portData a v).extractLsb' (8 * k) 8 = v.extractLsb' (8 * (k - lane a)) 8 := by
  have hle := h.lane_le
  have hhalf : a.getLsbD 2 = decide (4 ≤ lane a) := by
    rw [lane_eq]
    have hbit : a.getLsbD 2 = (a.setWidth 3).getLsbD 2 := by
      rw [BitVec.getLsbD_setWidth]
      rfl
    rw [hbit]
    generalize a.setWidth 3 = x
    revert x
    decide
  have hmod : (a.setWidth 3).toNat % 4 = lane a % 4 := by rw [lane_eq]
  apply BitVec.eq_of_getLsbD_eq
  intro t ht
  rw [BitVec.getLsbD_extractLsb', BitVec.getLsbD_extractLsb']
  unfold portData
  rw [hhalf]
  by_cases hhi : 4 ≤ lane a
  · have hidx : (8 * k + t - 32 + (32 - 8 * (lane a % 4))) % 32 = 8 * (k - lane a) + t := by omega
    rw [decide_eq_true hhi, if_pos rfl, BitVec.getLsbD_append, if_neg (by omega),
      dataAlign_getLsbD _ _ (by omega), hmod, hidx]
  · have hidx : (8 * k + t + (32 - 8 * (lane a % 4))) % 32 = 8 * (k - lane a) + t := by omega
    have hlt : 8 * k + t < 64 := by omega
    rw [decide_eq_false hhi, if_neg Bool.false_ne_true, BitVec.getLsbD_setWidth,
      dataAlign_getLsbD _ _ (by omega), hmod, hidx, decide_eq_true hlt, Bool.true_and]

/-! ## The loaded value -/

theorem ofWord_getLsbD (w : Dcache.Word) (k : Dcache.Lane) {t : Nat} (ht : t < 8) :
    (ofWord w).getLsbD (8 * k.val + t) = (w k).getLsbD t := by
  have here {n : Nat} (x : BitVec n) (b : Dcache.Byte) :
      (x ++ b).getLsbD (8 * 0 + t) = b.getLsbD t := by
    rw [Nat.mul_zero, Nat.zero_add, BitVec.getLsbD_append, if_pos ht]
  have above {n : Nat} (x : BitVec n) (b : Dcache.Byte) (j : Nat) :
      (x ++ b).getLsbD (8 * (j + 1) + t) = x.getLsbD (8 * j + t) := by
    have hidx : 8 * (j + 1) + t = 8 * j + t + 8 := by omega
    rw [hidx, BitVec.getLsbD_append, if_neg (by omega), Nat.add_sub_cancel]
  have last : (w 7).getLsbD (8 * 0 + t) = (w 7).getLsbD t := by
    rw [Nat.mul_zero, Nat.zero_add]
  unfold ofWord
  match k with
  | 0 => exact here _ _
  | 1 => exact (above _ _ 0).trans (here _ _)
  | 2 => exact (above _ _ 1).trans ((above _ _ 0).trans (here _ _))
  | 3 => exact (above _ _ 2).trans ((above _ _ 1).trans ((above _ _ 0).trans (here _ _)))
  | 4 =>
      refine (above _ _ 3).trans ((above _ _ 2).trans ?_)
      exact (above _ _ 1).trans ((above _ _ 0).trans (here _ _))
  | 5 =>
      refine (above _ _ 4).trans ((above _ _ 3).trans ((above _ _ 2).trans ?_))
      exact (above _ _ 1).trans ((above _ _ 0).trans (here _ _))
  | 6 =>
      refine (above _ _ 5).trans ((above _ _ 4).trans ((above _ _ 3).trans ((above _ _ 2).trans ?_)))
      exact (above _ _ 1).trans ((above _ _ 0).trans (here _ _))
  | 7 =>
      refine (above _ _ 6).trans ((above _ _ 5).trans ((above _ _ 4).trans ((above _ _ 3).trans ?_)))
      exact (above _ _ 2).trans ((above _ _ 1).trans ((above _ _ 0).trans last))

theorem Size.extend_congr {sz : Size} {signed : Bool} {x y : XLen}
    (h : ∀ t, t < 8 * sz.bytes → x.getLsbD t = y.getLsbD t) :
    sz.extend signed x = sz.extend signed y := by
  have hlow : x.setWidth (8 * sz.bytes) = y.setWidth (8 * sz.bytes) := by
    apply BitVec.eq_of_getLsbD_eq
    intro t ht
    rw [BitVec.getLsbD_setWidth, BitVec.getLsbD_setWidth, h t ht]
  unfold Size.extend
  rw [hlow]

theorem result_eq_extend {q : LoadUnit.Regs} {j : LoadUnit.Input} {sz : Size} {signed : Bool}
    {a : XLen} (hsign : LoadUnit.SignOk q) (hop : q.loadData.operator = sz.loadOp signed)
    (hoff : q.loadData.addressOffset = a.setWidth 3) (h : sz.Aligned a) :
    LoadUnit.result q j = sz.extend signed ((j.dataRdata >>> (8 * lane a)).setWidth 32) := by
  have hle := h.lane_le.2
  have hlane : q.loadData.addressOffset.toNat = lane a := by rw [hoff, lane_eq]
  have hfits : LoadUnit.FitsDword q.loadData := by
    unfold LoadUnit.FitsDword
    rw [hop, hlane]
    cases sz <;> cases signed <;> simp only [Size.bytes] at hle <;>
      first
        | trivial
        | show lane a ≤ _
          omega
  have hvalue := LoadUnit.resultOf_eq_loadValue hfits j.dataRdata
  unfold LoadUnit.result
  rw [hsign.1, hsign.2.1, hsign.2.2, hvalue, hop, hlane]
  unfold Size.extend LoadUnit.loadValue
  have htrunc (n : Nat) (hn : n ≤ 32) (x : BitVec 64) : (x.setWidth 32).setWidth n = x.setWidth n :=
    BitVec.setWidth_setWidth_of_le x hn
  have hall (x : XLen) : x.signExtend 32 = x := BitVec.signExtend_eq x
  have hsame (x : XLen) : x.setWidth 32 = x := BitVec.setWidth_eq x
  cases sz <;> cases signed
  · exact congrArg (BitVec.setWidth 32) (htrunc 8 (by omega) _).symm
  · exact congrArg (BitVec.signExtend 32) (htrunc 8 (by omega) _).symm
  · exact congrArg (BitVec.setWidth 32) (htrunc 16 (by omega) _).symm
  · exact congrArg (BitVec.signExtend 32) (htrunc 16 (by omega) _).symm
  · exact ((hsame _).trans (hsame _)).symm
  · exact ((hall _).trans (hsame _)).symm

/-! ## The request of a store -/

section Store

variable {sz : Size} {d : FuData} {s : StoreUnit.State} {i i' : StoreUnit.Input}

theorem posted_entry (hop : d.operator = sz.storeOp) (hi : i.lsuCtrl = lsuReq true d)
    (hp : i'.paddr = d.vaddr) :
    (StoreUnit.bufferIn (StoreUnit.storeUnit.next s i) i').entry =
      { address := d.vaddr
        data := dataAlign (d.vaddr.setWidth 3) d.operandB
        be := beGen (d.vaddr.setWidth 3) (extractTransferSize sz.storeOp)
        dataSize := extractTransferSize sz.storeOp
        valid := true } := by
  have hdata : (d.operandB.setWidth 64).setWidth 32 = d.operandB := by
    rw [BitVec.setWidth_setWidth_of_le _ (by omega), BitVec.setWidth_eq]
  have hamo : isAmo sz.storeOp = false := by
    cases sz <;> rfl
  show StoreBuffer.Entry.mk i'.paddr (StoreUnit.unitNext s i).stData
    (StoreUnit.unitNext s i).stBe (StoreUnit.unitNext s i).stDataSize true = _
  unfold StoreUnit.unitNext
  rw [hp, hi]
  unfold lsuReq
  simp only [hop, hamo, hdata, Bool.false_eq_true, if_false]

variable {q : StoreBuffer.Regs}

theorem storeReq_of_head {e : StoreBuffer.Entry} (hq : q.commit.head = e) :
    (storeReq q).wtag = (paddrOf e.address).word ∧ (storeReq q).be = Dcache.lanes e.be ∧
      (storeReq q).wdata =
        wordOf (if e.address.getLsbD 2 then e.data ++ 0#32 else e.data.setWidth 64) := by
  subst hq
  have hidx (x : BitVec 32) : (x.extractLsb' 0 12).extractLsb' 4 8 = x.extractLsb' 4 8 := by
    apply BitVec.eq_of_getLsbD_eq
    intro t ht
    simp only [BitVec.getLsbD_extractLsb', Nat.zero_add]
    have hlt : 4 + t < 12 := by omega
    rw [decide_eq_true hlt, Bool.true_and]
  have hbank (x : BitVec 32) : (x.extractLsb' 0 12).getLsbD 3 = x.getLsbD 3 := by
    rw [BitVec.getLsbD_extractLsb']
    rfl
  refine ⟨?_, rfl, rfl⟩
  unfold storeReq StoreBuffer.reqPort StoreBuffer.Entry.reqPort paddrOf
  simp only [hidx, hbank]

/-- Applied to the memory, the request of a store changes the bytes of the access. -/
theorem written_storeReq (hop : d.operator = sz.storeOp) (h : sz.Aligned d.vaddr)
    (hi : i.lsuCtrl = lsuReq true d) (hp : i'.paddr = d.vaddr)
    (hq : q.commit.head = (StoreUnit.bufferIn (StoreUnit.storeUnit.next s i) i').entry)
    (m : Dcache.WordAddr → Dcache.Word) (w : Dcache.WordAddr) (k : Dcache.Lane) :
    written (storeReq q) m w k =
      if w = (paddrOf d.vaddr).word ∧ lane d.vaddr ≤ k.val ∧ k.val < lane d.vaddr + sz.bytes then
        d.operandB.extractLsb' (8 * (k.val - lane d.vaddr)) 8
      else m w k := by
  rw [posted_entry hop hi hp] at hq
  obtain ⟨hw, hbe, hdata⟩ := storeReq_of_head hq
  unfold written
  rw [hw, hbe, hdata]
  simp only [beGen_lanes h]
  split
  case isTrue hin => exact portData_byte h d.operandB hin.2.1 hin.2.2
  case isFalse => rfl

end Store

/-! ## Storing and loading -/

/-- A store of any size at an aligned address changes exactly its bytes, whatever the memory
held. A load of the same access returns the stored value, and a load inside the access returns the
bytes it names, both extended as the operator says. -/
theorem load_after_store {sz : Size} {d : FuData} (hop : d.operator = sz.storeOp)
    (h : sz.Aligned d.vaddr) {s : StoreUnit.State} {i i' : StoreUnit.Input}
    (hi : i.lsuCtrl = lsuReq true d) (hp : i'.paddr = d.vaddr) {q : StoreBuffer.Regs}
    (hq : q.commit.head = (StoreUnit.bufferIn (StoreUnit.storeUnit.next s i) i').entry)
    (m : Dcache.WordAddr → Dcache.Word) :
    let m' := written (storeReq q) m
    (∀ w k, m' w k =
      if w = (paddrOf d.vaddr).word ∧ lane d.vaddr ≤ k.val ∧ k.val < lane d.vaddr + sz.bytes then
        d.operandB.extractLsb' (8 * (k.val - lane d.vaddr)) 8
      else m w k) ∧
    ∀ (load : LoadUnit.Regs) (j : LoadUnit.Input) (c : FuData) (sz' : Size) (signed : Bool),
      LoadUnit.SignOk load → load.loadData = LoadUnit.inData (lsuReq true c) →
      c.operator = sz'.loadOp signed → sz'.Aligned c.vaddr →
      j.dataRdata = ofWord (m' (paddrOf c.vaddr).word) →
      ((c.vaddr = d.vaddr → sz' = sz →
        LoadUnit.result load j = sz.extend signed d.operandB) ∧
      (Inside sz' c.vaddr sz d.vaddr →
        LoadUnit.result load j =
          sz'.extend signed (d.operandB >>> (8 * (lane c.vaddr - lane d.vaddr))))) := by
  intro m'
  have hm' := written_storeReq hop h hi hp hq m
  refine ⟨hm', ?_⟩
  intro load j c sz' signed hsign hload hcop hc hr
  have hinside (hin : Inside sz' c.vaddr sz d.vaddr) : LoadUnit.result load j =
      sz'.extend signed (d.operandB >>> (8 * (lane c.vaddr - lane d.vaddr))) := by
    rw [result_eq_extend (a := c.vaddr) hsign (by rw [hload]; exact hcop) (by rw [hload]; rfl) hc]
    refine Size.extend_congr ?_
    intro t ht
    have hend := hc.lane_le.2
    have hlow := hin.le
    have hhigh := hin.end_le
    have hdiv : t / 8 < sz'.bytes := Nat.div_lt_of_lt_mul ht
    -- bit `t` of the loaded value lies in lane `lane c.vaddr + t / 8`
    have hlane : lane c.vaddr + t / 8 < 8 := by omega
    have hidx : 8 * lane c.vaddr + t = 8 * (lane c.vaddr + t / 8) + t % 8 := by omega
    have hbit := ofWord_getLsbD (m' (paddrOf c.vaddr).word) ⟨lane c.vaddr + t / 8, hlane⟩
      (Nat.mod_lt t (by omega))
    have hbyte := hm' (paddrOf c.vaddr).word ⟨lane c.vaddr + t / 8, hlane⟩
    rw [if_pos ⟨hin.word, by simp only; omega, by simp only; omega⟩] at hbyte
    have ht32 : t < 32 := by
      have := hc.lane_le.1
      omega
    have hsum : 8 * (lane c.vaddr + t / 8 - lane d.vaddr) + t % 8 =
        8 * (lane c.vaddr - lane d.vaddr) + t := by omega
    rw [BitVec.getLsbD_setWidth, decide_eq_true ht32, Bool.true_and, BitVec.getLsbD_ushiftRight,
      BitVec.getLsbD_ushiftRight, hr, hidx, hbit]
    refine (congrArg (fun b : Dcache.Byte => b.getLsbD (t % 8)) hbyte).trans ?_
    have ht8 : t % 8 < 8 := Nat.mod_lt t (by omega)
    rw [BitVec.getLsbD_extractLsb', decide_eq_true ht8, Bool.true_and, hsum]
  refine ⟨?_, hinside⟩
  rintro ha rfl
  have hsame := hinside ⟨by rw [ha], by rw [ha], by rw [ha]⟩
  rw [ha, Nat.sub_self, Nat.mul_zero, BitVec.ushiftRight_zero] at hsame
  exact hsame

/-- `sh` of `0xcafe8001` to `0x102`, sampled by the store unit and posted one cycle later. -/
def halfStore : FuData := ⟨.STORE, .SH, 0x100, 0xcafe8001, 2, 0⟩

def halfSampled : StoreUnit.Input := { (default : StoreUnit.Input) with lsuCtrl := lsuReq true halfStore }

def halfPosted : StoreUnit.Input := { (default : StoreUnit.Input) with paddr := 0x102 }

def halfQueue : StoreBuffer.Regs where
  speculative := StoreBuffer.Queue.reset
  commit := StoreBuffer.Queue.reset.push
    (StoreUnit.bufferIn (StoreUnit.storeUnit.next StoreUnit.storeUnit.init halfSampled) halfPosted).entry

def byteLoad : FuData := ⟨.LOAD, .LB, 0x100, 0, 3, 1⟩

def awaiting : LoadUnit.Regs := ⟨.IDLE, LoadUnit.inData (lsuReq true byteLoad), 3, true, false⟩

def answered : LoadUnit.Input :=
  { (default : LoadUnit.Input) with
    dataRdata := ofWord (written (storeReq halfQueue) (fun _ _ => 0x55) (paddrOf 0x103).word) }

/-- The load returns the upper byte of the stored half-word, sign-extended. -/
theorem load_after_store_half : LoadUnit.result awaiting answered = 0xffffff80 := by
  have hop : halfStore.operator = Size.half.storeOp := rfl
  have hload := (load_after_store (d := halfStore) hop (by decide) (s := StoreUnit.storeUnit.init)
    (i := halfSampled) rfl (show halfPosted.paddr = halfStore.vaddr by decide) (q := halfQueue) rfl
    fun _ _ => 0x55).2 awaiting answered byteLoad .byte true ⟨by decide, rfl, rfl⟩ rfl rfl (by decide)
    rfl
  exact (hload.2 ⟨by decide, by decide, by decide⟩).trans (by decide)

end Cva6.DataSide
