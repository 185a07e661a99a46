import Cva6.Arith.Words
import Cva6.Axi.Shim
import Cva6.Dcache.Splitting
import Cva6.DataSide.DataPath
/-!
# From dirty bytes to the write channel

The adapter turns a request of the data cache into an address, a strobe and data. What the
transactions of an entry put on the bus is its dirty bytes, each once and at its own address.
-/

namespace Cva6.Axi

open Cva6.Sync Cva6.Dcache Cva6.Dcache.Wbuffer

/-! ## Addresses -/

/-- The physical address, which the cache keeps as its fields. -/
def addrBits (a : Paddr) : BitVec 32 :=
  a.word.tag ++ a.word.idx ++ BitVec.ofFin (w := 1) a.word.bank ++ BitVec.ofFin (w := 3) a.lane

def wordNumber (a : WordAddr) : Nat :=
  (a.tag.toNat * 2 ^ 8 + a.idx.toNat) * 2 + a.bank.val

def byteAddr (a : WordAddr) (k : Lane) : Nat := wordNumber a * 8 + k.val

theorem toNat_addrBits (a : Paddr) : (addrBits a).toNat = byteAddr a.word a.lane := by
  unfold addrBits byteAddr wordNumber
  rw [Arith.toNat_append_eq, Arith.toNat_append_eq, Arith.toNat_append_eq]
  rfl

theorem byteAddr_div (a : WordAddr) (k : Lane) : byteAddr a k / 8 = wordNumber a := by
  have hk := k.isLt
  unfold byteAddr
  omega

theorem byteAddr_mod (a : WordAddr) (k : Lane) : byteAddr a k % 8 = k.val := by
  have hk := k.isLt
  unfold byteAddr
  omega

/-! ## The write channel -/

def wrAtop : Lsu.Amo → BitVec 6
  | .SWAP => 0b110000
  | .ADD => 0b100000
  | .AND => 0b100001
  | .XOR => 0b100010
  | .OR => 0b100011
  | .MAX => 0b100100
  | .MIN => 0b100101
  | .MAXU => 0b100110
  | .MINU => 0b100111
  | .NONE | .LR | .SC => 0

/-- `axi_wr_be`, the byte enables of the first word. -/
def wrBe (r : MemReq) : Mask :=
  match r.rtype with
  | .LOAD => fun _ => false
  | .STORE => toByteEnable8 r.paddr.lane (r.size.setWidth 2)
  | .ATOMIC =>
      if r.amoOp = .LR then fun _ => false else toByteEnable8 r.paddr.lane (r.size.setWidth 2)

/-- The write channel of the process `p_axi_req`, for a request of the data cache. -/
def wrRequest (r : MemReq) : Shim.Request 1 where
  addr := (addrBits r.paddr).setWidth 64
  data := fun k =>
    let data := if k = 0 then DataSide.ofWord r.data else 0
    if r.rtype = .ATOMIC ∧ r.amoOp = .AND then ~~~data else data
  be := fun k => if k = 0 then Arith.maskBits (wrBe r) else 0
  blen := 0
  size := r.size.setWidth 2
  id := if r.rtype = .ATOMIC then 3 else 1
  lock := r.rtype == .ATOMIC && r.amoOp == .SC
  atop := if r.rtype = .ATOMIC then wrAtop r.amoOp else 0

namespace Shim

def written (a : Aw) (t : Beat) (b : Nat) : Option Byte :=
  if b / 8 = a.addr.toNat / 8 ∧ t.strb.getLsbD (b % 8) = true then
    some (t.data.extractLsb' (8 * (b % 8)) 8)
  else none

end Shim

/-- A transaction is a single transfer of 1, 2, 4 or 8 bytes to a naturally aligned address
inside the word, and writes the covered bytes. -/
structure Puts (t : Transaction) (wtag : WordAddr) (data : Word) (r : Shim.Request 1) : Prop where
  size : (Shim.aw r).size = t.size
  aligned : 2 ^ t.size.toNat ∣ (Shim.aw r).addr.toNat
  inside : (Shim.aw r).addr.toNat / 8 = wordNumber wtag ∧
    (Shim.aw r).addr.toNat % 8 + 2 ^ t.size.toNat ≤ 8
  single : (Shim.aw r).len = 0 ∧ (Shim.aw r).atop = 0 ∧ (Shim.aw r).lock = false
  beat : ∃ beat, Shim.beats r = [beat] ∧ ∀ b v, Shim.written (Shim.aw r) beat b = some v ↔
    ∃ k, t.covers k = true ∧ b = byteAddr wtag k ∧ v = data k

section Transfer

variable {t : Transaction} {wtag : WordAddr} {data : Word} {m : Mask}

theorem memReq_paddr (h : t.Splits wtag data m) (nc : Bool) : (t.memReq nc).paddr = t.paddr := by
  have hne : t.size.setWidth 3 ≠ 7#3 := by
    intro h7
    have hlt := t.size.isLt
    have hnat := congrArg BitVec.toNat h7
    rw [BitVec.toNat_setWidth] at hnat
    simp only [BitVec.toNat_ofNat] at hnat
    omega
  show paddrSizeAlign t.paddr (t.size.setWidth 3) = t.paddr
  have hlane : alignLane t.paddr.lane (t.size.setWidth 3) = t.paddr.lane := h.aligned
  unfold paddrSizeAlign
  rw [hlane]
  exact congrArg (Paddr.mk · t.paddr.lane) (if_neg hne)

theorem memReq_size (t : Transaction) (nc : Bool) : (t.memReq nc).size.setWidth 2 = t.size := by
  show (t.size.setWidth 3).setWidth 2 = t.size
  rw [BitVec.setWidth_setWidth_of_le _ (by decide), BitVec.setWidth_eq]

theorem aw_addr (h : t.Splits wtag data m) (nc : Bool) :
    (Shim.aw (wrRequest (t.memReq nc))).addr.toNat = byteAddr wtag t.paddr.lane := by
  show ((addrBits (t.memReq nc).paddr).setWidth 64).toNat = _
  rw [memReq_paddr h, BitVec.toNat_setWidth, toNat_addrBits, h.word, Nat.mod_eq_of_lt]
  have hb := wtag.bank.isLt
  have htag := wtag.tag.isLt
  have hidx := wtag.idx.isLt
  have hl := t.paddr.lane.isLt
  unfold byteAddr wordNumber
  omega

theorem wrBe_eq (h : t.Splits wtag data m) (nc : Bool) : wrBe (t.memReq nc) = t.covers := by
  funext k
  show toByteEnable8 (t.memReq nc).paddr.lane ((t.memReq nc).size.setWidth 2) k = t.covers k
  rw [memReq_paddr h, memReq_size, h.aligned.byteEnable]
  rfl

theorem ofWord_byte (w : Word) (k : Lane) :
    (DataSide.ofWord w).extractLsb' (8 * k.val) 8 = w k := by
  apply BitVec.eq_of_getLsbD_eq
  intro j hj
  rw [BitVec.getLsbD_extractLsb', decide_eq_true hj, Bool.true_and, DataSide.ofWord_getLsbD w k hj]

theorem puts_memReq (h : t.Splits wtag data m) (nc : Bool) :
    Puts t wtag data (wrRequest (t.memReq nc)) := by
  obtain ⟨hdvd, hend⟩ := h.aligned.dvd
  have haddr := aw_addr h nc
  constructor
  · exact memReq_size t nc
  · have height : (2 : Nat) ^ t.size.toNat ∣ 8 :=
      Nat.pow_dvd_pow (n := 3) 2 (Nat.le_of_lt_succ t.size.isLt)
    rw [haddr, byteAddr]
    exact Nat.dvd_add (height.mul_left _) hdvd
  · rw [haddr, byteAddr_div, byteAddr_mod]
    exact ⟨rfl, hend⟩
  · exact ⟨rfl, rfl, rfl⟩
  · refine ⟨⟨DataSide.ofWord t.data, Arith.maskBits t.covers, true⟩, ?_, ?_⟩
    · show [Shim.Beat.mk (DataSide.ofWord t.data) (Arith.maskBits (wrBe (t.memReq nc))) true] = _
      rw [wrBe_eq h]
    · intro b v
      unfold Shim.written
      rw [haddr, byteAddr_div]
      constructor
      · intro hv
        rw [Option.ite_none_right_eq_some] at hv
        obtain ⟨⟨hword, hstrb⟩, hv⟩ := hv
        have hlane : b % 8 < 8 := Nat.mod_lt _ (by decide)
        have hcov : t.covers ⟨b % 8, hlane⟩ = true :=
          (Arith.getLsbD_maskBits t.covers ⟨b % 8, hlane⟩).symm.trans hstrb
        refine ⟨⟨b % 8, hlane⟩, hcov, ?_, ?_⟩
        · show b = wordNumber wtag * 8 + b % 8
          omega
        · rw [← h.data _ hcov]
          exact (Option.some.inj hv).symm.trans (ofWord_byte t.data ⟨b % 8, hlane⟩)
      · rintro ⟨k, hcov, rfl, rfl⟩
        have hstrb := (Arith.getLsbD_maskBits t.covers k).trans hcov
        rw [byteAddr_div, byteAddr_mod, if_pos ⟨rfl, hstrb⟩, ofWord_byte, h.data k hcov]

end Transfer

/-! ## Every run -/

/-- From any reachable state on, while no store goes to an entry, what is sent for it is put on
the bus unchanged, covers each byte that stops being dirty by exactly one transaction, and no
other byte by any. -/
theorem splitting_exact (cfg : Dcache.Cfg) (n : Ptr) (pre post : List Wbuffer.Input)
    (hu : (audited cfg).ThroughoutFrom (Unwritten cfg n) ((audited cfg).run pre) post) :
    let start := ((audited cfg).run pre).q.buffer n
    let final := (((audited cfg).run (pre ++ post)).q.buffer n)
    let txs := (audited cfg).logFrom (issued n) ((audited cfg).run pre) post
    (∀ t ∈ txs, ∀ nc, Puts t start.wtag start.data (wrRequest (t.memReq nc))) ∧
    ∀ k, (final.dirty k = true → start.dirty k = true) ∧
      txs.countP (·.covers k) = if start.dirty k && !final.dirty k then 1 else 0 := by
  intro start final txs
  obtain ⟨hsplits, hcount⟩ := (offers_run cfg pre).split_run post hu
  rw [← Machine.run_append] at hcount
  refine ⟨fun t ht nc => puts_memReq (hsplits t ht) nc, fun k => ?_⟩
  have hk : txs.countP (·.covers k) + (final.dirty k).toNat = (start.dirty k).toNat := hcount k
  revert hk
  cases start.dirty k <;> cases final.dirty k <;> simp

/-- Three bytes are stored, and the last two wait until the first one is answered. -/
def threeBytes : List Wbuffer.Input :=
  [{ Input.storing default 0 with store.be := lanes 0x0e }]

def sendBytes : List Wbuffer.Input :=
  let idle : Wbuffer.Input := { Input.storing default 0 with store.dataReq := false }
  [{ idle with missAck := true }, idle, idle, { idle with missRtrnVld := true }, idle,
    { idle with missAck := true }]

theorem splitting_exact_threeBytes :
    let cfg : Dcache.Cfg := ⟨fun _ => true, fun _ => false⟩
    let txs := (audited cfg).logFrom (issued 0) ((audited cfg).run threeBytes) sendBytes
    txs.map (fun t => (t.size, t.paddr.lane)) = [(0, 1), (1, 2)] ∧
      ∀ k, txs.countP (·.covers k) = if lanes 0x0e k then 1 else 0 := by
  intro cfg txs
  have hu : (audited cfg).ThroughoutFrom (Unwritten cfg 0) ((audited cfg).run threeBytes)
      sendBytes := by
    decide +kernel
  have hstart : (((audited cfg).run threeBytes).q.buffer 0).dirty = lanes 0x0e := by
    decide +kernel
  have hfinal : ∀ k, (((audited cfg).run (threeBytes ++ sendBytes)).q.buffer 0).dirty k =
      false := by
    decide +kernel
  refine ⟨by decide +kernel, fun k => ?_⟩
  have hcount := ((splitting_exact cfg 0 threeBytes sendBytes hu).2 k).2
  rw [hstart, hfinal k, Bool.not_false, Bool.and_true] at hcount
  exact hcount

end Cva6.Axi
