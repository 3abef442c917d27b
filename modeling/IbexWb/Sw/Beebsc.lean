import Mathlib.Tactic.Common

/-! # `beebsc.c`

On the target a `long int` and a pointer have 32 bits.
-/

namespace IbexWb.Beebsc

/-! ## Random numbers -/

/-- `rand_beebs`: the result and the new seed. -/
def rand (seed : BitVec 32) : BitVec 32 × BitVec 32 :=
  let seed := (seed * 1103515245#32 + 12345#32) &&& BitVec.ofNat 32 (1 <<< 31 - 1)
  (seed >>> 16, seed)

/-- The results of some calls, and the seed behind them. -/
def draws : Nat → BitVec 32 → List (BitVec 32) × BitVec 32
  | 0, seed => ([], seed)
  | count + 1, seed =>
    let result := rand seed
    let results := draws count result.2
    (result.1 :: results.1, results.2)

theorem length_draws (count : Nat) (seed : BitVec 32) : (draws count seed).1.length = count := by
  induction count generalizing seed with
  | zero => rfl
  | succ count inductionHypothesis => exact congrArg (· + 1) (inductionHypothesis (rand seed).2)

/-! ## Heap -/

structure Heap where
  heapPtr : BitVec 32
  heapEnd : BitVec 32
  heapRequested : BitVec 32
deriving DecidableEq, Repr

def initHeap (heap heapSize : BitVec 32) : Heap := ⟨heap, heap + heapSize, 0⟩

def checkHeap (state : Heap) (heap : BitVec 32) : Bool :=
  (heap + state.heapRequested).ule state.heapEnd

def malloc (state : Heap) (size : BitVec 32) : BitVec 32 × Heap :=
  let newPtr := state.heapPtr
  let state := { state with heapRequested := state.heapRequested + size }
  if state.heapEnd.ult (state.heapPtr + size) || size == 0 then (0, state)
  else (newPtr, { state with heapPtr := state.heapPtr + size })

/-- The first bytes from `ptr` on, set one by one. -/
def memset (memory : Nat → BitVec 8) (ptr : BitVec 32) (value : BitVec 8) : Nat → Nat → BitVec 8
  | 0 => memory
  | count + 1 =>
    Function.update (memset memory ptr value count) (ptr + BitVec.ofNat 32 count).toNat value

def calloc (state : Heap) (memory : Nat → BitVec 8) (nmemb size : BitVec 32) :
    BitVec 32 × Heap × (Nat → BitVec 8) :=
  let (newPtr, state) := malloc state (nmemb * size)
  (newPtr, state, if newPtr ≠ 0 then memset memory newPtr 0 (nmemb * size).toNat else memory)

/-- `for (i = 0; i < size; i++) ((char *) new_ptr)[i] = ((char *) ptr)[i];` -/
def copy (memory : Nat → BitVec 8) (newPtr ptr : BitVec 32) : Nat → Nat → BitVec 8
  | 0 => memory
  | i + 1 =>
    let memory := copy memory newPtr ptr i
    Function.update memory (newPtr + BitVec.ofNat 32 i).toNat
      (memory (ptr + BitVec.ofNat 32 i).toNat)

def realloc (state : Heap) (memory : Nat → BitVec 8) (ptr size : BitVec 32) :
    BitVec 32 × Heap × (Nat → BitVec 8) :=
  let newPtr := state.heapPtr
  let state := { state with heapRequested := state.heapRequested + size }
  if state.heapEnd.ult (state.heapPtr + size) || size == 0 then (0, state, memory)
  else
    (newPtr, { state with heapPtr := state.heapPtr + size },
      if ptr ≠ 0 then copy memory newPtr ptr size.toNat else memory)

def free (state : Heap) (_ptr : BitVec 32) : Heap := state

/-! ## Callers -/

/-- What a program does with the heap; it names its blocks by their serial numbers, and `none` is
`NULL`. -/
inductive Request where
  | malloc (size : BitVec 32)
  | calloc (nmemb size : BitVec 32)
  | realloc (block : Option Nat) (size : BitVec 32)
  | free (block : Option Nat)
  | store (block offset : Nat) (byte : BitVec 8)
deriving DecidableEq, Repr

structure Program where
  heap : Heap
  memory : Nat → BitVec 8
  /-- The blocks so far. -/
  blocks : List (BitVec 32)

namespace Program

def pointer (program : Program) (block : Option Nat) : BitVec 32 :=
  (block.bind (program.blocks[·]?)).getD 0

def receive (program : Program) (newPtr : BitVec 32) (heap : Heap) (memory : Nat → BitVec 8) :
    Program where
  heap := heap
  memory := memory
  blocks := if newPtr = 0 then program.blocks else program.blocks ++ [newPtr]

/-- The pointer that a request returns. -/
def answer (program : Program) : Request → BitVec 32
  | .malloc size => (malloc program.heap size).1
  | .calloc nmemb size => (calloc program.heap program.memory nmemb size).1
  | .realloc block size => (realloc program.heap program.memory (program.pointer block) size).1
  | .free _ => 0
  | .store _ _ _ => 0

def step (program : Program) : Request → Program
  | .malloc size =>
    let (newPtr, heap) := malloc program.heap size
    program.receive newPtr heap program.memory
  | .calloc nmemb size =>
    let (newPtr, heap, memory) := calloc program.heap program.memory nmemb size
    program.receive newPtr heap memory
  | .realloc block size =>
    let (newPtr, heap, memory) := realloc program.heap program.memory (program.pointer block) size
    program.receive newPtr heap memory
  | .free block => { program with heap := free program.heap (program.pointer block) }
  | .store block offset byte =>
    { program with
      memory := Function.update program.memory
        (program.pointer (some block) + BitVec.ofNat 32 offset).toNat byte }

end Program

end IbexWb.Beebsc
