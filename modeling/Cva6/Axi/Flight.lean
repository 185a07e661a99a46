import Cva6.Axi.Arbiter
/-!
# The transactions in flight

What the adapter does in a cycle is a sequence of small actions on the transactions in
flight: a request is accepted, a write response arrives, a beat or a write response is
returned, an atomic is selected, a request is granted. The invariant ties the identifier
FIFOs of the adapter to the transactions, and holds as long as an atomic is alone.
-/

namespace Cva6.Axi

open Cva6.Sync Cva6.Dcache

/-! ## Beats -/

def Holds (line : Line) (beats : List Word) : Prop :=
  ∀ (k : Bank) b, beats[k.val]? = some b → line k = b

/-- The shift register holds the beats of the oldest read; no other has any. -/
structure ReadsOk {ρ : Type} (len : ρ → Nat) (l : List (Read ρ)) (sh : Shift) : Prop where
  each : ∀ r ∈ l, r.len = len r.req ∧ r.len ≤ 2 ∧ r.beats.length < r.len
  fresh : ∀ r ∈ l.tail, r.beats = []
  first : sh.first = true ↔ ∀ r ∈ l.head?, r.beats = []
  kept : ∀ r ∈ l.head?, ∀ b, r.beats = [b] → sh.data 1 = b

namespace ReadsOk

variable {ρ : Type} {len : ρ → Nat} {l : List (Read ρ)} {sh : Shift} {r : Read ρ}

theorem snoc (h : ReadsOk len l sh) (hlen : r.len = len r.req) (hle : r.len ≤ 2)
    (hpos : 0 < r.len) (hr : r.beats = []) : ReadsOk len (l ++ [r]) sh where
  each := by
    intro x hx
    rcases List.mem_append.mp hx with hx | hx
    · exact h.each x hx
    · obtain rfl := List.mem_singleton.mp hx
      exact ⟨hlen, hle, by simpa [hr] using hpos⟩
  fresh := by
    intro x hx
    cases l with
    | nil => simp at hx
    | cons y l =>
        rcases List.mem_append.mp hx with hx | hx
        · exact h.fresh x hx
        · obtain rfl := List.mem_singleton.mp hx
          exact hr
  first := by
    rw [h.first]
    cases l with
    | nil => simp [hr]
    | cons y l => simp
  kept := by
    cases l with
    | nil => simp [hr]
    | cons y l => simpa using h.kept

theorem congr {sh' : Shift} (h : ReadsOk len l sh) (hfirst : sh'.first = sh.first)
    (hdata : sh'.data 1 = sh.data 1) : ReadsOk len l sh' :=
  ⟨h.each, h.fresh, hfirst ▸ h.first, hdata ▸ h.kept⟩

theorem beat (h : ReadsOk len (r :: l) sh) (b : Word) :
    ReadsOk len (advance b (decide (r.beats.length + 1 = r.len)) (r :: l))
      (sh.push b (decide (r.beats.length + 1 = r.len))) := by
  obtain ⟨hlen, hle, hlt⟩ := h.each r (by simp)
  have hfresh : ∀ x ∈ l, x.beats = [] := h.fresh
  by_cases hlast : r.beats.length + 1 = r.len
  · simp only [hlast, decide_true, advance, if_true]
    refine ⟨fun x hx => h.each x (by simp [hx]), fun x hx => hfresh x (List.mem_of_mem_tail hx),
      ?_, ?_⟩
    · simp only [Shift.push, true_iff]
      intro x hx
      exact hfresh x (List.mem_of_mem_head? hx)
    · intro x hx c hc
      simp [hfresh x (List.mem_of_mem_head? hx)] at hc
  · have hnil : r.beats = [] := by
      rw [← List.length_eq_zero_iff]
      omega
    simp only [hlast, decide_false, advance, Bool.false_eq_true, if_false]
    rw [hnil, List.nil_append]
    refine ⟨?_, hfresh, ?_, ?_⟩
    · intro x hx
      rcases List.mem_cons.mp hx with rfl | hx
      · exact ⟨hlen, hle, by simp [hnil] at hlast ⊢; omega⟩
      · exact h.each x (by simp [hx])
    · simp [Shift.push]
    · intro x hx c hc
      simp only [List.head?_cons, Option.mem_some_iff] at hx
      subst hx
      simpa [Shift.push] using hc

theorem line (h : ReadsOk len (r :: l) sh) (b : Word) (last : Bool)
    (hlast : r.beats.length + 1 = r.len) :
    Holds (sh.push b last).data (r.beats ++ [b]) ∧ (r.beats ++ [b]).length = len r.req := by
  obtain ⟨hlen, hle, -⟩ := h.each r (by simp)
  refine ⟨?_, by simp [← hlen, hlast]⟩
  intro k c hc
  have hfirst := h.first
  have hkept := h.kept r (by simp)
  cases hb : r.beats with
  | nil =>
      have hf : sh.first = true := hfirst.mpr (by simp [hb])
      have hk : k = 0 := by
        rw [hb] at hc
        have := (List.getElem?_eq_some_iff.mp hc).1
        simp at this
        omega
      subst hk
      simp [hb] at hc
      simp [Shift.push, hf, hc]
  | cons b0 bs =>
      have hbs : bs = [] := by
        rw [← List.length_eq_zero_iff]
        simp [hb] at hlast
        omega
      subst hbs
      have hf : sh.first = false := by
        rw [← Bool.not_eq_true, hfirst]
        simp [hb]
      have hd := hkept b0 hb
      have hbank : ∀ k : Bank, k = 0 ∨ k = 1 := by decide
      obtain rfl | rfl := hbank k
      · simp [hb] at hc
        simp [Shift.push, hf, hd, hc]
      · simp [hb] at hc
        simp [Shift.push, hc]

end ReadsOk

/-! ## Transactions -/

def MemReq.beats (r : MemReq) : Nat :=
  match r.rtype, r.amoOp with
  | .STORE, _ | .ATOMIC, .SC => 0
  | .LOAD, _ | .ATOMIC, .LR => if r.size.getLsbD 2 then 2 else 1
  | .ATOMIC, _ => 1

@[ext] structure Flight where
  queue : List MemReq
  loads : List (Read MemReq)
  amoReads : List (Read MemReq)
  stores : List MemReq
  amoWrites : List MemReq
  buffered : List (MemReq × Bool)
  rdIds : List TxId
  wrIds : List TxId
  amoGenR : Bool

namespace Flight

variable (f : Flight)

def bufStores : List MemReq := (f.buffered.map (·.1)).filter (·.rtype == .STORE)

def scs : List MemReq := (f.buffered.map (·.1) ++ f.amoWrites).filter MemReq.isSc

def stale : List MemReq := (f.buffered.map (·.1) ++ f.amoWrites).filter MemReq.readsBack

def pending : ReqType → List MemReq
  | .LOAD => f.loads.map (·.req) ++ f.queue.filter (·.rtype == .LOAD)
  | .STORE => f.bufStores ++ f.stores ++ f.queue.filter (·.rtype == .STORE)
  | .ATOMIC => f.amoReads.map (·.req) ++ f.scs ++ f.queue.filter (·.rtype == .ATOMIC)

def accept (r : MemReq) : Flight := { f with queue := f.queue ++ [r] }

/-- A write response arrives. -/
def pushB (amo ok : Bool) : Flight :=
  if amo then
    { f with
      amoWrites := f.amoWrites.tail
      buffered := f.buffered ++ [(f.amoWrites.headD zeroReq, ok)] }
  else
    { f with
      stores := f.stores.tail
      buffered := f.buffered ++ [(f.stores.headD zeroReq, ok)] }

/-- A beat is returned; the last beat of an atomic pops the identifiers of the writes,
if there are any. -/
def beat (amo : Bool) (b : Word) (last : Bool) : Flight :=
  { f with
    loads := if amo then f.loads else advance b last f.loads
    amoReads := if amo then advance b last f.amoReads else f.amoReads
    wrIds := f.wrIds.drop (if amo && !f.wrIds.isEmpty && last then 1 else 0)
    rdIds := f.rdIds.drop (if !(amo && !f.wrIds.isEmpty) && last then 1 else 0) }

/-- A write response is returned or discarded. -/
def popB : Flight :=
  match f.buffered with
  | [] => f
  | (r, _) :: l =>
      { f with
        buffered := l
        wrIds := f.wrIds.drop (if r.rtype == .ATOMIC && f.amoGenR then 0 else 1) }

def select : Flight :=
  match f.queue with
  | [] => f
  | r :: _ => { f with amoGenR := if r.rtype = .ATOMIC then r.amoOp != .SC else f.amoGenR }

def grant : Flight :=
  match f.queue with
  | [] => f
  | r :: l =>
      { f with
        queue := l
        loads := f.loads ++ if r.rtype = .LOAD then [⟨r, MemReq.beats r, []⟩] else []
        amoReads := f.amoReads ++ if MemReq.readsBack r then [⟨r, MemReq.beats r, []⟩] else []
        stores := f.stores ++ if r.rtype = .STORE then [r] else []
        amoWrites := f.amoWrites ++ if MemReq.writesAmo r then [r] else []
        rdIds := f.rdIds ++ if MemReq.isWrite r then [] else [r.tid]
        wrIds := f.wrIds ++ if MemReq.isWrite r then [r.tid] else [] }

end Flight

/-- The atomic does not write: its identifier is kept with the reads. -/
def MemReq.isLr (r : MemReq) : Bool := r.amoOp == .LR

theorem MemReq.beats_of_read {r : MemReq} (h : r.rtype = .LOAD ∨ MemReq.readsBack r = true) :
    0 < MemReq.beats r ∧ MemReq.beats r ≤ 2 := by
  rcases h with h | h
  · simp only [MemReq.beats, h]
    split_ifs <;> decide
  · simp only [MemReq.readsBack, Bool.and_eq_true, beq_iff_eq, bne_iff_ne] at h
    simp only [MemReq.beats, h.1]
    cases hop : r.amoOp <;> simp [hop] at h ⊢
    split_ifs <;> decide

structure FlightOk (f : Flight) : Prop where
  loads : ∀ r ∈ f.loads, r.req.rtype = .LOAD
  amoReads : ∀ r ∈ f.amoReads, MemReq.readsBack r.req = true
  stores : ∀ r ∈ f.stores, r.rtype = .STORE
  amoWrites : ∀ r ∈ f.amoWrites, MemReq.writesAmo r = true
  buffered : ∀ p ∈ f.buffered, p.1.rtype = .STORE ∨ MemReq.writesAmo p.1 = true
  rdIds : f.rdIds =
    (f.loads.map (·.req) ++ (f.amoReads.map (·.req)).filter MemReq.isLr).map (·.tid)
  wrIds : f.wrIds = (f.bufStores ++ f.stores ++
    (f.amoReads.map (·.req)).filter (fun r => !MemReq.isLr r) ++ f.scs).map (·.tid)
  genR : f.amoReads ≠ [] ∨ f.stale ≠ [] → f.amoGenR = true
  noGenR : f.scs ≠ [] → f.amoGenR = false
  single : f.pending .ATOMIC = [] ∨ ∃ a, f.pending .ATOMIC = [a] ∧ f.pending .LOAD = [] ∧
    f.pending .STORE = []

variable {f : Flight} {r : MemReq}

/-! ## Kinds of requests -/

theorem MemReq.readsBack_iff : MemReq.readsBack r = true ↔ r.rtype = .ATOMIC ∧ r.amoOp ≠ .SC := by
  simp [MemReq.readsBack]

theorem MemReq.isSc_iff : MemReq.isSc r = true ↔ r.rtype = .ATOMIC ∧ r.amoOp = .SC := by
  simp [MemReq.isSc]

theorem MemReq.writesAmo_iff : MemReq.writesAmo r = true ↔ r.rtype = .ATOMIC ∧ r.amoOp ≠ .LR := by
  simp [MemReq.writesAmo]

theorem MemReq.isSc_of_store (h : r.rtype = .STORE) : MemReq.isSc r = false := by
  simp [MemReq.isSc, h]

theorem MemReq.readsBack_of_store (h : r.rtype = .STORE) : MemReq.readsBack r = false := by
  simp [MemReq.readsBack, h]

/-! ## An atomic is alone -/

theorem FlightOk.no_atomic (h : FlightOk f)
    (hp : f.pending .LOAD ≠ [] ∨ f.pending .STORE ≠ []) : f.pending .ATOMIC = [] := by
  rcases h.single with ha | ⟨a, -, hl, hs⟩
  · exact ha
  · rcases hp with hp | hp
    · exact absurd hl hp
    · exact absurd hs hp

theorem Flight.pending_atomic_nil : f.pending .ATOMIC = [] ↔
    f.amoReads = [] ∧ f.scs = [] ∧ f.queue.filter (·.rtype == .ATOMIC) = [] := by
  simp only [Flight.pending, List.append_eq_nil_iff, List.map_eq_nil_iff, and_assoc]

theorem FlightOk.accept (h : FlightOk f) (ha : f.pending .ATOMIC = [])
    (hp : r.rtype = .ATOMIC → f.pending .LOAD = [] ∧ f.pending .STORE = []) :
    FlightOk (f.accept r) where
  loads := h.loads
  amoReads := h.amoReads
  stores := h.stores
  amoWrites := h.amoWrites
  buffered := h.buffered
  rdIds := h.rdIds
  wrIds := h.wrIds
  genR := h.genR
  noGenR := h.noGenR
  single := by
    have hpend (t : ReqType) :
        (f.accept r).pending t = f.pending t ++ if r.rtype = t then [r] else [] := by
      cases t <;> simp [Flight.pending, Flight.accept, Flight.bufStores, Flight.scs,
        List.filter_cons]
    by_cases hr : r.rtype = .ATOMIC
    · obtain ⟨hl, hst⟩ := hp hr
      exact .inr ⟨r, by simp [hpend, ha, hr], by simp [hpend, hl, hr], by simp [hpend, hst, hr]⟩
    · exact .inl (by simp [hpend, ha, hr])

/-! ## A write response arrives -/

variable {l : List MemReq} {ok : Bool}

variable (ok) in
/-- The response of a store moves it behind the buffered ones. -/
theorem Flight.pushB_stores (hf : f.stores = r :: l) (hr : r.rtype = .STORE) :
    (f.pushB false ok).bufStores ++ (f.pushB false ok).stores = f.bufStores ++ f.stores ∧
      (f.pushB false ok).scs = f.scs ∧ (f.pushB false ok).stale = f.stale := by
  simp [Flight.pushB, Flight.bufStores, Flight.scs, Flight.stale, hf, hr,
    MemReq.isSc_of_store hr, MemReq.readsBack_of_store hr]

variable (ok) in
theorem Flight.pushB_amoWrites (hf : f.amoWrites = r :: l) (hr : r.rtype = .ATOMIC) :
    (f.pushB true ok).bufStores = f.bufStores ∧ (f.pushB true ok).scs = f.scs ∧
      (f.pushB true ok).stale = f.stale := by
  simp [Flight.pushB, Flight.bufStores, Flight.scs, Flight.stale, hf, hr, List.filter_cons]

theorem FlightOk.pushB_amo (h : FlightOk f) (hne : f.amoWrites ≠ []) :
    FlightOk (f.pushB true ok) ∧ ∀ t, (f.pushB true ok).pending t = f.pending t := by
  obtain ⟨r, l, hf⟩ := List.exists_cons_of_ne_nil hne
  have hr := h.amoWrites r (by simp [hf])
  obtain ⟨hbuf, hscs, hstale⟩ :=
    Flight.pushB_amoWrites ok hf (MemReq.writesAmo_iff.mp hr).1
  have hpend (t : ReqType) : (f.pushB true ok).pending t = f.pending t := by
    cases t <;> simp [Flight.pending, hbuf, hscs] <;> rfl
  refine ⟨⟨h.loads, h.amoReads, h.stores, ?_, ?_, h.rdIds, ?_, ?_, ?_, ?_⟩, hpend⟩
  · intro x hx
    exact h.amoWrites x (List.mem_of_mem_tail hx)
  · intro x hx
    simp only [Flight.pushB, if_true, hf, List.headD_cons, List.mem_append,
      List.mem_singleton] at hx
    rcases hx with hx | rfl
    · exact h.buffered x hx
    · exact .inr hr
  · rw [hbuf, hscs]
    exact h.wrIds
  · rw [hstale]
    exact h.genR
  · rw [hscs]
    exact h.noGenR
  · simpa only [hpend] using h.single

theorem FlightOk.pushB_store (h : FlightOk f) (hne : f.stores ≠ []) :
    FlightOk (f.pushB false ok) ∧ ∀ t, (f.pushB false ok).pending t = f.pending t := by
  obtain ⟨r, l, hf⟩ := List.exists_cons_of_ne_nil hne
  have hr := h.stores r (by simp [hf])
  obtain ⟨hbuf, hscs, hstale⟩ := Flight.pushB_stores ok hf hr
  have hpend (t : ReqType) : (f.pushB false ok).pending t = f.pending t := by
    cases t <;> simp only [Flight.pending, hbuf, hscs] <;> rfl
  refine ⟨⟨h.loads, h.amoReads, ?_, h.amoWrites, ?_, h.rdIds, ?_, ?_, ?_, ?_⟩, hpend⟩
  · intro x hx
    exact h.stores x (List.mem_of_mem_tail hx)
  · intro x hx
    simp only [Flight.pushB, Bool.false_eq_true, if_false, hf, List.headD_cons, List.mem_append,
      List.mem_singleton] at hx
    rcases hx with hx | rfl
    · exact h.buffered x hx
    · exact .inl hr
  · rw [hbuf, hscs]
    exact h.wrIds
  · rw [hstale]
    exact h.genR
  · rw [hscs]
    exact h.noGenR
  · simpa only [hpend] using h.single

/-! ## A beat is returned -/

theorem FlightOk.beat_load (h : FlightOk f) {r : Read MemReq} {l : List (Read MemReq)}
    (hf : f.loads = r :: l) (b : Word) (last : Bool) :
    FlightOk (f.beat false b last) ∧
      (∀ t, (if last && r.req.rtype == t then [r.req] else []) ++ (f.beat false b last).pending t =
        f.pending t) ∧
      f.rdIds.head? = some r.req.tid ∧ r.req.rtype = .LOAD := by
  have hr := h.loads r (by simp [hf])
  have hpend (t : ReqType) : (if last && r.req.rtype == t then [r.req] else []) ++
      (f.beat false b last).pending t = f.pending t := by
    cases t <;> cases last <;>
      simp [Flight.pending, Flight.beat, Flight.bufStores, Flight.scs, hf, advance, hr]
  have hatomic := h.no_atomic (.inl (by simp [Flight.pending, hf]))
  refine ⟨⟨?_, h.amoReads, h.stores, h.amoWrites, h.buffered, ?_, ?_, h.genR, h.noGenR, ?_⟩,
    hpend, by simp [h.rdIds, hf], hr⟩
  · intro x hx
    simp only [Flight.beat, Bool.false_eq_true, if_false, hf, advance] at hx
    cases last with
    | true => exact h.loads x (by simp only [if_true] at hx; simp [hf, hx])
    | false =>
        simp only [Bool.false_eq_true, if_false, List.mem_cons] at hx
        rcases hx with rfl | hx
        · exact hr
        · exact h.loads x (by simp [hf, hx])
  · have hids := h.rdIds
    cases last <;> simp [Flight.beat, hids, hf, advance]
  · have hwr : (f.beat false b last).wrIds = f.wrIds := by simp [Flight.beat]
    rw [hwr]
    exact h.wrIds
  · refine .inl ?_
    have := hpend .ATOMIC
    simpa [hatomic, hr] using this

theorem FlightOk.reading (h : FlightOk f) {r : Read MemReq} {l : List (Read MemReq)}
    (hf : f.amoReads = r :: l) :
    l = [] ∧ f.scs = [] ∧ f.queue = [] ∧ f.loads = [] ∧ f.bufStores = [] ∧ f.stores = [] := by
  rcases h.single with ha | ⟨a, ha, hload, hstore⟩
  · simp [Flight.pending, hf] at ha
  · simp only [Flight.pending, hf, List.map_cons, List.cons_append, List.cons.injEq,
      List.append_eq_nil_iff, List.map_eq_nil_iff] at ha hload hstore
    obtain ⟨-, ⟨hl, hscs⟩, hatomic⟩ := ha
    refine ⟨hl, hscs, ?_, hload.1, hstore.1.1, hstore.1.2⟩
    rw [List.eq_nil_iff_forall_not_mem]
    intro x hx
    cases ht : x.rtype with
    | LOAD => exact List.filter_eq_nil_iff.mp hload.2 x hx (by simp [ht])
    | STORE => exact List.filter_eq_nil_iff.mp hstore.2 x hx (by simp [ht])
    | ATOMIC => exact List.filter_eq_nil_iff.mp hatomic x hx (by simp [ht])

theorem FlightOk.beat_amo (h : FlightOk f) {r : Read MemReq} {l : List (Read MemReq)}
    (hf : f.amoReads = r :: l) (b : Word) (last : Bool) :
    FlightOk (f.beat true b last) ∧
      (∀ t, (if last && r.req.rtype == t then [r.req] else []) ++ (f.beat true b last).pending t =
        f.pending t) ∧
      (if f.wrIds.isEmpty then f.rdIds else f.wrIds).head? = some r.req.tid ∧
      MemReq.readsBack r.req = true := by
  have hr := h.amoReads r (by simp [hf])
  obtain ⟨rfl, hscs, hqueue, hloads, hbuf, hstores⟩ := h.reading hf
  have htype := (MemReq.readsBack_iff.mp hr).1
  have hrd := h.rdIds
  have hwr := h.wrIds
  have hgen := h.genR (.inl (by simp [hf]))
  simp only [hf, hloads, hbuf, hstores, hscs, List.map_nil, List.map_cons, List.nil_append,
    List.append_nil, List.filter_cons, List.filter_nil] at hrd hwr
  have hreads : (f.beat true b last).amoReads =
      if last then [] else [⟨r.req, r.len, r.beats ++ [b]⟩] := by
    simp [Flight.beat, hf, advance]
  have hpend (t : ReqType) : (if last && r.req.rtype == t then [r.req] else []) ++
      (f.beat true b last).pending t = f.pending t := by
    have hscs' : (f.beat true b last).scs = [] := hscs
    have hbuf' : (f.beat true b last).bufStores = [] := hbuf
    have hqueue' : (f.beat true b last).queue = [] := hqueue
    have hstores' : (f.beat true b last).stores = [] := hstores
    have hloads' : (f.beat true b last).loads = [] := hloads
    cases t <;> cases last <;>
      simp [Flight.pending, hreads, hscs, hbuf, hqueue, hloads, hstores, hf, htype, hscs', hbuf',
        hqueue', hstores', hloads']
  refine ⟨⟨h.loads, ?_, h.stores, h.amoWrites, h.buffered, ?_, ?_, fun _ => hgen, ?_, ?_⟩, hpend,
    ?_, hr⟩
  · intro x hx
    rw [hreads] at hx
    split_ifs at hx with hlast
    · simp at hx
    · obtain rfl := List.mem_singleton.mp hx
      exact hr
  · rw [hreads]
    cases last <;> cases hlr : MemReq.isLr r.req <;>
      simp [Flight.beat, hrd, hwr, hloads, hlr]
  · have hscs' : (f.beat true b last).scs = [] := hscs
    have hbuf' : (f.beat true b last).bufStores = [] := hbuf
    have hstores' : (f.beat true b last).stores = [] := hstores
    rw [hreads, hscs', hbuf', hstores']
    cases last <;> cases hlr : MemReq.isLr r.req <;> simp [Flight.beat, hwr, hlr]
  · intro hne
    exact absurd hscs hne
  · cases last with
    | true =>
        refine .inl ?_
        have hone := hpend .ATOMIC
        simp only [Flight.pending, hf, hscs, hqueue, htype] at hone ⊢
        simpa using hone
    | false =>
        have hsame (t : ReqType) : (f.beat true b false).pending t = f.pending t := by
          simpa using hpend t
        simpa only [hsame] using h.single
  · cases hlr : MemReq.isLr r.req <;> simp [hrd, hwr, hlr]

/-! ## A write response is returned -/

theorem FlightOk.writing (h : FlightOk f) (hne : f.scs ≠ []) :
    ∃ a, f.scs = [a] ∧ f.amoReads = [] ∧ f.bufStores = [] ∧ f.stores = [] ∧
      f.pending .ATOMIC = [a] ∧ f.pending .STORE = [] := by
  rcases h.single with ha | ⟨a, ha, -, hstore⟩
  · exact absurd (Flight.pending_atomic_nil.mp ha).2.1 hne
  · obtain ⟨x, l, hx⟩ := List.exists_cons_of_ne_nil hne
    have hreads : f.amoReads = [] := by
      cases hf : f.amoReads with
      | nil => rfl
      | cons r l' => exact absurd (h.reading hf).2.1 hne
    have hparts := ha
    simp only [Flight.pending, hreads, hx, List.map_nil, List.nil_append, List.cons_append,
      List.cons.injEq, List.append_eq_nil_iff] at hparts
    obtain ⟨rfl, rfl, -⟩ := hparts
    have hparts' := hstore
    simp only [Flight.pending, List.append_eq_nil_iff] at hparts'
    exact ⟨x, hx, hreads, hparts'.1.1, hparts'.1.2, ha, hstore⟩

theorem Flight.popB_lists {l : List (MemReq × Bool)} (hf : f.buffered = (r, ok) :: l) :
    f.bufStores = (if r.rtype = .STORE then [r] else []) ++ f.popB.bufStores ∧
      f.scs = (if MemReq.isSc r then [r] else []) ++ f.popB.scs ∧
      f.stale = (if MemReq.readsBack r then [r] else []) ++ f.popB.stale := by
  simp only [Flight.bufStores, Flight.scs, Flight.stale, Flight.popB, hf, List.map_cons,
    List.cons_append, List.filter_cons, beq_iff_eq]
  refine ⟨?_, ?_, ?_⟩ <;> split_ifs <;> simp

theorem MemReq.write_kinds (h : r.rtype = .STORE ∨ MemReq.writesAmo r = true) :
    (r.rtype = .STORE ∧ MemReq.isSc r = false ∧ MemReq.readsBack r = false) ∨
      (r.rtype = .ATOMIC ∧ MemReq.isSc r = true ∧ MemReq.readsBack r = false) ∨
      (r.rtype = .ATOMIC ∧ MemReq.isSc r = false ∧ MemReq.readsBack r = true) := by
  rcases h with h | h
  · exact .inl ⟨h, MemReq.isSc_of_store h, MemReq.readsBack_of_store h⟩
  · obtain ⟨ht, -⟩ := MemReq.writesAmo_iff.mp h
    by_cases hop : r.amoOp = .SC
    · exact .inr (.inl ⟨ht, by simp [MemReq.isSc, ht, hop], by simp [MemReq.readsBack, hop]⟩)
    · exact .inr (.inr ⟨ht, by simp [MemReq.isSc, hop], by simp [MemReq.readsBack, ht, hop]⟩)

theorem FlightOk.discards (h : FlightOk f) {l : List (MemReq × Bool)}
    (hf : f.buffered = (r, ok) :: l) :
    (r.rtype == .ATOMIC && f.amoGenR) = MemReq.readsBack r := by
  obtain ⟨-, hscs, hstale⟩ := Flight.popB_lists hf
  rcases MemReq.write_kinds (h.buffered (r, ok) (by simp [hf])) with
    ⟨ht, -, hr⟩ | ⟨-, hs, hr⟩ | ⟨ht, -, hr⟩
  · rw [hr, ht]
    rfl
  · rw [hr, h.noGenR (by simp [hscs, hs]), Bool.and_false]
  · rw [hr, ht, h.genR (.inr (by simp [hstale, hr]))]
    rfl

theorem FlightOk.of_popB (h : FlightOk f) {l : List (MemReq × Bool)}
    (hf : f.buffered = (r, ok) :: l)
    (hwr : f.popB.wrIds = (f.popB.bufStores ++ f.stores ++
      (f.amoReads.map (·.req)).filter (fun r => !MemReq.isLr r) ++ f.popB.scs).map (·.tid))
    (hsingle : f.popB.pending .ATOMIC = [] ∨ ∃ a, f.popB.pending .ATOMIC = [a] ∧
      f.popB.pending .LOAD = [] ∧ f.popB.pending .STORE = []) : FlightOk f.popB := by
  obtain ⟨-, hscs, hstale⟩ := Flight.popB_lists hf
  obtain ⟨hl, har, hst, haw, hrd, hg, hb⟩ : f.popB.loads = f.loads ∧
      f.popB.amoReads = f.amoReads ∧ f.popB.stores = f.stores ∧ f.popB.amoWrites = f.amoWrites ∧
      f.popB.rdIds = f.rdIds ∧ f.popB.amoGenR = f.amoGenR ∧ f.popB.buffered = l := by
    simp [Flight.popB, hf]
  refine ⟨hl ▸ h.loads, har ▸ h.amoReads, hst ▸ h.stores, haw ▸ h.amoWrites, ?_, ?_, ?_, ?_, ?_,
    hsingle⟩
  · rw [hb]
    intro p hp
    exact h.buffered p (by simp [hf, hp])
  · rw [hrd, hl, har]
    exact h.rdIds
  · rw [hst, har]
    exact hwr
  · rw [har, hg]
    rintro (hne | hne)
    · exact h.genR (.inl hne)
    · exact h.genR (.inr (by simp [hstale, hne]))
  · rw [hg]
    intro hne
    exact h.noGenR (by simp [hscs, hne])

theorem FlightOk.popB_store (h : FlightOk f) {l : List (MemReq × Bool)}
    (hf : f.buffered = (r, ok) :: l) (ht : r.rtype = .STORE) (hr : MemReq.readsBack r = false) :
    FlightOk f.popB ∧ (∀ t, (if r.rtype = t then [r] else []) ++ f.popB.pending t = f.pending t) ∧
      f.wrIds.head? = some r.tid := by
  obtain ⟨hbuf, hscs, hstale⟩ := Flight.popB_lists hf
  simp only [ht, hr, MemReq.isSc_of_store ht, if_true, Bool.false_eq_true, if_false,
    List.nil_append, List.cons_append] at hbuf hscs hstale
  have hids : f.popB.wrIds = f.wrIds.drop 1 := by
    simp [Flight.popB, hf, h.discards hf, hr]
  obtain ⟨hl, har, hst, hq⟩ : f.popB.loads = f.loads ∧ f.popB.amoReads = f.amoReads ∧
      f.popB.stores = f.stores ∧ f.popB.queue = f.queue := by
    simp [Flight.popB, hf]
  have hpend (t : ReqType) : (if r.rtype = t then [r] else []) ++ f.popB.pending t =
      f.pending t := by
    cases t <;> simp [Flight.pending, ht, hl, har, hst, hq, hbuf, hscs]
  have hatomic := h.no_atomic (.inr (by simp [Flight.pending, hbuf]))
  refine ⟨h.of_popB hf ?_ (.inl ?_), hpend, ?_⟩
  · rw [hids, h.wrIds, hbuf, hscs]
    simp
  · simpa [ht, hatomic] using hpend .ATOMIC
  · simp [h.wrIds, hbuf]

theorem FlightOk.popB_sc (h : FlightOk f) {l : List (MemReq × Bool)}
    (hf : f.buffered = (r, ok) :: l) (ht : r.rtype = .ATOMIC) (hs : MemReq.isSc r = true)
    (hr : MemReq.readsBack r = false) :
    FlightOk f.popB ∧ (∀ t, (if r.rtype = t then [r] else []) ++ f.popB.pending t = f.pending t) ∧
      f.wrIds.head? = some r.tid := by
  obtain ⟨hbuf, hscs, hstale⟩ := Flight.popB_lists hf
  simp only [ht, hr, hs, if_true, Bool.false_eq_true, if_false, reduceCtorEq,
    List.nil_append, List.cons_append] at hbuf hscs hstale
  have hids : f.popB.wrIds = f.wrIds.drop 1 := by
    simp [Flight.popB, hf, h.discards hf, hr]
  obtain ⟨hl, har, hst, hq⟩ : f.popB.loads = f.loads ∧ f.popB.amoReads = f.amoReads ∧
      f.popB.stores = f.stores ∧ f.popB.queue = f.queue := by
    simp [Flight.popB, hf]
  have hpend (t : ReqType) : (if r.rtype = t then [r] else []) ++ f.popB.pending t =
      f.pending t := by
    obtain ⟨a, ha, hreads, -⟩ := h.writing (by simp [hscs])
    cases t <;> simp [Flight.pending, ht, hl, har, hst, hq, hbuf, hscs, hreads]
  obtain ⟨a, ha, hreads, hbufs, hstores, hatomic, -⟩ := h.writing (by simp [hscs])
  have hnil : f.popB.scs = [] := by
    simp only [ha, List.cons.injEq] at hscs
    exact hscs.2.symm
  refine ⟨h.of_popB hf ?_ (.inl ?_), hpend, ?_⟩
  · rw [hids, h.wrIds, hbufs, hstores, hreads, ha, ← hbuf, hbufs, hnil]
    simp
  · have hone := hpend .ATOMIC
    simp only [hatomic, ht, if_true, List.cons_append, List.nil_append, List.cons.injEq] at hone
    exact hone.2
  · simp [h.wrIds, hbufs, hstores, hreads, hscs]

theorem FlightOk.popB_stale (h : FlightOk f) {l : List (MemReq × Bool)}
    (hf : f.buffered = (r, ok) :: l) (ht : r.rtype = .ATOMIC) (hs : MemReq.isSc r = false)
    (hr : MemReq.readsBack r = true) :
    FlightOk f.popB ∧ ∀ t, f.popB.pending t = f.pending t := by
  obtain ⟨hbuf, hscs, hstale⟩ := Flight.popB_lists hf
  simp only [ht, hr, hs, if_true, Bool.false_eq_true, if_false, reduceCtorEq,
    List.nil_append, List.cons_append] at hbuf hscs hstale
  have hids : f.popB.wrIds = f.wrIds := by
    simp [Flight.popB, hf, h.discards hf, hr]
  obtain ⟨hl, har, hst, hq⟩ : f.popB.loads = f.loads ∧ f.popB.amoReads = f.amoReads ∧
      f.popB.stores = f.stores ∧ f.popB.queue = f.queue := by
    simp [Flight.popB, hf]
  have hpend (t : ReqType) : f.popB.pending t = f.pending t := by
    cases t <;> simp [Flight.pending, hl, har, hst, hq, hbuf, hscs]
  refine ⟨h.of_popB hf ?_ ?_, hpend⟩
  · rw [hids, h.wrIds, hbuf, hscs]
  · simp only [hpend]
    exact h.single

/-! ## A request is granted -/

/-- An atomic in the queue is the only transaction in flight, apart from responses that
are discarded. -/
theorem FlightOk.waiting (h : FlightOk f) (hq : f.queue = r :: l) (ht : r.rtype = .ATOMIC) :
    l = [] ∧ f.amoReads = [] ∧ f.scs = [] ∧ f.loads = [] ∧ f.bufStores = [] ∧ f.stores = [] := by
  have hreads : f.amoReads = [] := by
    cases hf : f.amoReads with
    | nil => rfl
    | cons x l' =>
        have := (h.reading hf).2.2.1
        simp [hq] at this
  rcases h.single with ha | ⟨a, ha, hload, hstore⟩
  · simp [Flight.pending, hq, ht] at ha
  · simp only [Flight.pending, hreads, hq, ht, List.filter_cons, List.map_nil, List.nil_append,
      if_true, beq_eq_decide, decide_true, reduceCtorEq, decide_false, Bool.false_eq_true,
      if_false, List.append_eq_nil_iff, List.map_eq_nil_iff] at ha hload hstore
    have hscs : f.scs = [] := by
      rw [← List.length_eq_zero_iff]
      have := congrArg List.length ha
      simp only [List.length_append, List.length_cons, List.length_nil] at this
      omega
    simp only [hscs, List.nil_append, List.cons.injEq] at ha
    obtain ⟨rfl, hatomic⟩ := ha
    refine ⟨?_, hreads, hscs, hload.1, hstore.1.1, hstore.1.2⟩
    rw [List.eq_nil_iff_forall_not_mem]
    intro x hx
    cases hxt : x.rtype with
    | LOAD => exact List.filter_eq_nil_iff.mp hload.2 x hx (by simp [hxt])
    | STORE => exact List.filter_eq_nil_iff.mp hstore.2 x hx (by simp [hxt])
    | ATOMIC => exact List.filter_eq_nil_iff.mp hatomic x hx (by simp [hxt])

theorem FlightOk.select (h : FlightOk f)
    (hs : ∀ r ∈ f.queue.head?, MemReq.isSc r = true → f.stale = []) :
    FlightOk f.select ∧ ∀ t, f.select.pending t = f.pending t := by
  cases hq : f.queue with
  | nil => simpa [Flight.select, hq] using h
  | cons r l =>
      by_cases ht : r.rtype = .ATOMIC
      · obtain ⟨-, hreads, hscs, -⟩ := h.waiting hq ht
        have hsel : f.select = { f with amoGenR := r.amoOp != .SC } := by
          simp [Flight.select, hq, ht]
        rw [hsel]
        refine ⟨⟨h.loads, h.amoReads, h.stores, h.amoWrites, h.buffered, h.rdIds, h.wrIds, ?_, ?_,
          h.single⟩, fun t => by cases t <;> rfl⟩
        · rintro (hne | hne)
          · exact absurd hreads hne
          · by_contra hop
            exact hne (hs r (by simp [hq]) (MemReq.isSc_iff.mpr ⟨ht, by simpa using hop⟩))
        · intro hne
          exact absurd hscs hne
      · have hsel : f.select = f := by
          unfold Flight.select
          split
          · rfl
          · next x l' hx =>
              obtain rfl := (List.cons.inj (hq.symm.trans hx)).1
              rw [if_neg ht]
        rw [hsel]
        exact ⟨h, fun _ => rfl⟩

theorem Flight.grant_lists (hq : f.queue = r :: l) :
    f.grant.bufStores = f.bufStores ∧
      f.grant.scs = f.scs ++ (if MemReq.isSc r then [r] else []) ∧
      f.grant.stale = f.stale ++
        if MemReq.readsBack r && MemReq.writesAmo r then [r] else [] := by
  refine ⟨by simp [Flight.grant, Flight.bufStores, hq], ?_, ?_⟩
  · simp only [Flight.grant, Flight.scs, hq, List.filter_append, ← List.append_assoc]
    congr 1
    cases hs : MemReq.isSc r with
    | false => cases MemReq.writesAmo r <;> simp [hs]
    | true =>
        have hw : MemReq.writesAmo r = true := by
          obtain ⟨ht, hop⟩ := MemReq.isSc_iff.mp hs
          simp [MemReq.writesAmo, ht, hop]
        simp [hw, hs]
  · simp only [Flight.grant, Flight.stale, hq, List.filter_append, ← List.append_assoc]
    congr 1
    cases hb : MemReq.readsBack r <;> cases hw : MemReq.writesAmo r <;> simp [hb]

theorem FlightOk.grant_plain (h : FlightOk f) (hq : f.queue = r :: l) (ht : r.rtype ≠ .ATOMIC) :
    FlightOk f.grant ∧ ∀ t, f.grant.pending t = f.pending t := by
  have hnot : MemReq.isSc r = false ∧ MemReq.readsBack r = false ∧ MemReq.writesAmo r = false := by
    simp [MemReq.isSc, MemReq.readsBack, MemReq.writesAmo, ht]
  obtain ⟨hbuf, hscs, hstale⟩ := Flight.grant_lists hq
  simp only [hnot, Bool.false_eq_true, if_false, Bool.and_self, List.append_nil] at hscs hstale
  have hatomic : f.pending .ATOMIC = [] := by
    apply h.no_atomic
    cases hr : r.rtype with
    | LOAD => exact .inl (by simp [Flight.pending, hq, hr])
    | STORE => exact .inr (by simp [Flight.pending, hq, hr])
    | ATOMIC => exact absurd hr ht
  obtain ⟨hreads, hsc, -⟩ := Flight.pending_atomic_nil.mp hatomic
  have hpend (t : ReqType) : f.grant.pending t = f.pending t := by
    simp only [Flight.pending, hbuf, hscs]
    cases t <;> cases hr : r.rtype <;>
      simp [Flight.grant, hq, hnot, hr] at ht ⊢
  have hids : f.grant.rdIds = f.rdIds ++ (if r.rtype = .LOAD then [r.tid] else []) ∧
      f.grant.wrIds = f.wrIds ++ if r.rtype = .STORE then [r.tid] else [] := by
    cases hr : r.rtype <;> simp [Flight.grant, hq, MemReq.isWrite, hnot, hr] at ht ⊢
  refine ⟨⟨?_, ?_, ?_, ?_, ?_, ?_, ?_, ?_, ?_, .inl ((hpend _).trans hatomic)⟩, hpend⟩
  · intro x hx
    simp only [Flight.grant, hq, List.mem_append] at hx
    rcases hx with hx | hx
    · exact h.loads x hx
    · split_ifs at hx with hr
      · obtain rfl := List.mem_singleton.mp hx
        exact hr
      · simp at hx
  · simpa [Flight.grant, hq, hnot] using h.amoReads
  · intro x hx
    simp only [Flight.grant, hq, List.mem_append] at hx
    rcases hx with hx | hx
    · exact h.stores x hx
    · split_ifs at hx with hr
      · obtain rfl := List.mem_singleton.mp hx
        exact hr
      · simp at hx
  · simpa [Flight.grant, hq, hnot] using h.amoWrites
  · simpa [Flight.grant, hq] using h.buffered
  · rw [hids.1, h.rdIds]
    cases hr : r.rtype <;> simp [Flight.grant, hq, hnot, hreads, hr]
  · rw [hids.2, h.wrIds, hbuf, hscs]
    cases hr : r.rtype <;> simp [Flight.grant, hq, hnot, hreads, hsc, hr]
  · rw [hstale]
    simpa [Flight.grant, hq, hnot] using h.genR
  · rw [hscs]
    simpa [Flight.grant, hq, hnot] using h.noGenR

theorem FlightOk.grant_atomic (h : FlightOk f) (hq : f.queue = r :: l) (ht : r.rtype = .ATOMIC)
    (hg : f.amoGenR = (r.amoOp != .SC)) (hst : MemReq.isSc r = true → f.stale = []) :
    FlightOk f.grant ∧ ∀ t, f.grant.pending t = f.pending t := by
  obtain ⟨rfl, hreads, hsc, hloads, hbufs, hstores⟩ := h.waiting hq ht
  obtain ⟨hbuf, hscs, hstale⟩ := Flight.grant_lists hq
  have hkind : MemReq.readsBack r = !MemReq.isSc r ∧ MemReq.writesAmo r = !MemReq.isLr r ∧
      MemReq.isWrite r = !MemReq.isLr r := by
    simp [MemReq.readsBack, MemReq.isSc, MemReq.writesAmo, MemReq.isLr, MemReq.isWrite, ht, bne,
      beq_eq_decide]
  have hlrsc : MemReq.isLr r = true → MemReq.isSc r = false := by
    intro hlr
    simp only [MemReq.isLr, beq_iff_eq] at hlr
    simp [MemReq.isSc, hlr, beq_eq_decide]
  have hgen : f.amoGenR = !MemReq.isSc r := by
    rw [hg]
    simp [MemReq.isSc, ht, bne]
  have hreads' : f.grant.amoReads =
      if MemReq.isSc r then [] else [⟨r, MemReq.beats r, []⟩] := by
    cases hs : MemReq.isSc r <;> simp [Flight.grant, hq, hreads, hkind, hs]
  simp only [hsc, List.nil_append] at hscs
  have hpend (t : ReqType) : f.grant.pending t = f.pending t := by
    simp only [Flight.pending, hbuf, hscs, hreads']
    cases t <;> cases hs : MemReq.isSc r <;>
      simp [Flight.grant, hq, ht, hreads, hsc, hloads, hstores, hbufs, beq_eq_decide]
  refine ⟨⟨?_, ?_, ?_, ?_, ?_, ?_, ?_, ?_, ?_, ?_⟩, hpend⟩
  · simp [Flight.grant, hq, hloads, ht]
  · intro x hx
    rw [hreads'] at hx
    split_ifs at hx with hs
    · simp at hx
    · obtain rfl := List.mem_singleton.mp hx
      simp [hkind.1, hs]
  · simp [Flight.grant, hq, hstores, ht]
  · intro x hx
    simp only [Flight.grant, hq, List.mem_append] at hx
    rcases hx with hx | hx
    · exact h.amoWrites x hx
    · split_ifs at hx with hw
      · obtain rfl := List.mem_singleton.mp hx
        exact hw
      · simp at hx
  · simpa [Flight.grant, hq] using h.buffered
  · have hrd := h.rdIds
    simp only [hloads, hreads, List.map_nil, List.filter_nil, List.append_nil] at hrd
    rw [hreads']
    cases hlr : MemReq.isLr r with
    | false =>
        cases hs : MemReq.isSc r <;> simp [Flight.grant, hq, hrd, hloads, ht, hkind, hlr]
    | true => simp [Flight.grant, hq, hrd, hloads, ht, hkind, hlr, hlrsc hlr]
  · have hwr := h.wrIds
    simp only [hbufs, hstores, hreads, hsc, List.map_nil, List.filter_nil, List.append_nil] at hwr
    rw [hreads', hbuf, hscs, hbufs]
    cases hlr : MemReq.isLr r with
    | false =>
        cases hs : MemReq.isSc r <;> simp [Flight.grant, hq, hwr, hstores, ht, hkind, hlr]
    | true => simp [Flight.grant, hq, hwr, hstores, ht, hkind, hlr, hlrsc hlr]
  · have hgen' : f.grant.amoGenR = f.amoGenR := by simp [Flight.grant, hq]
    rw [hgen', hgen, hreads', hstale]
    cases hs : MemReq.isSc r with
    | false => simp
    | true => simp [hst hs, hkind, hs]
  · have hgen' : f.grant.amoGenR = f.amoGenR := by simp [Flight.grant, hq]
    rw [hgen', hgen, hscs]
    cases hs : MemReq.isSc r <;> simp
  · simpa only [hpend] using h.single

theorem FlightOk.grant (h : FlightOk f) (hq : f.queue = r :: l)
    (hg : r.rtype = .ATOMIC → f.amoGenR = (r.amoOp != .SC))
    (hst : MemReq.isSc r = true → f.stale = []) :
    FlightOk f.grant ∧ ∀ t, f.grant.pending t = f.pending t := by
  by_cases ht : r.rtype = .ATOMIC
  · exact h.grant_atomic hq ht (hg ht) hst
  · exact h.grant_plain hq ht

end Cva6.Axi
