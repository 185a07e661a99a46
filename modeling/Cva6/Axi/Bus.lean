import Cva6.Axi.Adapter
import Cva6.Sync.Machine
/-!
# The adapter on a bus

The transactions the bus has accepted and not answered yet are recorded beside the
adapter: the reads of each identifier with the beats they got, the writes of each
identifier, the owners of the buffered write responses, and the transactions that are
answered in this cycle. None of it is hardware.
-/

namespace Cva6.Axi

open Cva6.Sync Cva6.Dcache

/-- A read the bus has accepted. -/
structure Read (ρ : Type) where
  req : ρ
  /-- The number of beats asked for. -/
  len : Nat
  beats : List Word
  deriving DecidableEq

variable {ρ : Type}

def advance (beat : Word) (last : Bool) : List (Read ρ) → List (Read ρ)
  | [] => []
  | r :: l => if last then l else { r with beats := r.beats ++ [beat] } :: l

def complete (beat : Word) : List (Read ρ) → Option (Read ρ)
  | [] => none
  | r :: _ => some { r with beats := r.beats ++ [beat] }

/-- A transaction of the data cache that is answered, with the beats it got and the
success of its write. -/
structure Done where
  req : MemReq
  beats : List Word
  exokay : Bool
  deriving DecidableEq

structure Bus where
  /-- The fills of the instruction cache, identifier 0. -/
  fills : List (Read IcacheReq)
  /-- The loads, identifier 1. -/
  loads : List (Read MemReq)
  /-- The atomics that get a read beat, identifier 3. -/
  amoReads : List (Read MemReq)
  /-- The stores, identifier 1. -/
  stores : List MemReq
  /-- The atomics that get a write response, identifier 3. -/
  amoWrites : List MemReq
  /-- The owners of the buffered write responses. -/
  buffered : List (MemReq × Bool)
  filled : Option (Read IcacheReq)
  done : Option Done

structure State where
  hw : Regs
  bus : Bus

variable (s : State) (i : Input)

def MemReq.isSc (r : MemReq) : Bool := r.rtype == .ATOMIC && r.amoOp == .SC

/-- The atomic is answered by a read beat. -/
def MemReq.readsBack (r : MemReq) : Bool := r.rtype == .ATOMIC && r.amoOp != .SC

def MemReq.writesAmo (r : MemReq) : Bool := r.rtype == .ATOMIC && r.amoOp != .LR

def granted : List MemReq := if arbAck1 s.hw i then [dcacheHead s.hw] else []

def bOwner : MemReq :=
  if i.axi.bId.getLsbD 1 then s.bus.amoWrites.headD zeroReq else s.bus.stores.headD zeroReq

def bAll : List (MemReq × Bool) :=
  s.bus.buffered ++ if bPush s.hw i then [(bOwner s i, i.axi.bExokay)] else []

def bDone : Option Done :=
  match bAll s i with
  | [] => none
  | (r, ok) :: _ => if MemReq.readsBack r then none else some ⟨r, [], ok⟩

def rDone (l : List (Read MemReq)) : Option Done :=
  if i.axi.rLast then (complete i.axi.rData l).map fun r => ⟨r.req, r.beats, false⟩ else none

def doneNext : Option Done :=
  if dcacheRdEn s.hw i then rDone i (if i.axi.rId.getLsbD 1 then s.bus.amoReads else s.bus.loads)
  else if bPop s.hw i then bDone s i
  else none

def busNext : Bus where
  fills :=
    (if icacheRdEn s.hw i then advance i.axi.rData i.axi.rLast s.bus.fills else s.bus.fills) ++
      if arbAck0 s.hw i then [⟨icacheHead s.hw, rdBeats s.hw, []⟩] else []
  loads :=
    (if dcacheRdEn s.hw i && !i.axi.rId.getLsbD 1 then
      advance i.axi.rData i.axi.rLast s.bus.loads else s.bus.loads) ++
      ((granted s i).filter fun r => r.rtype == .LOAD).map fun r => ⟨r, rdBeats s.hw, []⟩
  amoReads :=
    (if dcacheRdEn s.hw i && i.axi.rId.getLsbD 1 then
      advance i.axi.rData i.axi.rLast s.bus.amoReads else s.bus.amoReads) ++
      ((granted s i).filter MemReq.readsBack).map fun r =>
        ⟨r, if r.amoOp = .LR then rdBeats s.hw else 1, []⟩
  stores :=
    s.bus.stores.drop (if bPush s.hw i && !i.axi.bId.getLsbD 1 then 1 else 0) ++
      (granted s i).filter fun r => r.rtype == .STORE
  amoWrites :=
    s.bus.amoWrites.drop (if bPush s.hw i && i.axi.bId.getLsbD 1 then 1 else 0) ++
      (granted s i).filter MemReq.writesAmo
  buffered := (bAll s i).drop (if bPop s.hw i then 1 else 0)
  filled :=
    if icacheRdEn s.hw i && i.axi.rLast then complete i.axi.rData s.bus.fills else none
  done := doneNext s i

def adapter : Machine State Input where
  init := ⟨reset, ⟨[], [], [], [], [], [], none, none⟩⟩
  next s i := ⟨next s.hw i, busNext s i⟩

/-- The bus answers with a beat of the oldest read of an identifier, marks exactly its
last one, and gives one write response for each write it has accepted. -/
structure Legal : Prop where
  read : i.axi.rValid = true →
    (i.axi.rId = 0 ∧ ∃ r l, s.bus.fills = r :: l ∧ i.axi.rLast = decide (r.beats.length + 1 = r.len)) ∨
      (i.axi.rId = 1 ∧ ∃ r l, s.bus.loads = r :: l ∧
        i.axi.rLast = decide (r.beats.length + 1 = r.len)) ∨
      (i.axi.rId = 3 ∧ ∃ r l, s.bus.amoReads = r :: l ∧
        i.axi.rLast = decide (r.beats.length + 1 = r.len))
  write : i.axi.bValid = true →
    (i.axi.bId = 1 ∧ s.bus.stores ≠ []) ∨ (i.axi.bId = 3 ∧ s.bus.amoWrites ≠ [])

/-! ## What is in flight -/

def queued : List MemReq := s.hw.dcacheData.contents

/-- The accepted requests of a type without an answer, oldest first. -/
def pending : ReqType → List MemReq
  | .LOAD => s.bus.loads.map (·.req) ++ (queued s).filter (·.rtype == .LOAD)
  | .STORE =>
      (s.bus.buffered.map (·.1)).filter (·.rtype == .STORE) ++ s.bus.stores ++
        (queued s).filter (·.rtype == .STORE)
  | .ATOMIC =>
      s.bus.amoReads.map (·.req) ++
        (s.bus.buffered.map (·.1) ++ s.bus.amoWrites).filter MemReq.isSc ++
          (queued s).filter (·.rtype == .ATOMIC)

def pendingFills : List IcacheReq :=
  s.bus.fills.map (·.req) ++ s.hw.icacheData.contents

/-- The atomics that are answered by a read beat and whose write response is still to
come or waits in the buffer. -/
def stale : List MemReq := (s.bus.buffered.map (·.1) ++ s.bus.amoWrites).filter MemReq.readsBack

end Cva6.Axi
