import IbexWb.Memory.ObjectStore
import IbexWb.Sw.Beebsc

/-! # The heap of `beebsc.c`

The blocks of the heap are the objects of a store, laid out in the order in which they were
allocated.  As no block is ever given back, an object is never moved and never ends.
-/

namespace IbexWb.Beebsc

open Memory

/-! ## A store of objects -/

/-- What the heap is for: objects of a total size up to a capacity. -/
structure Store where
  capacity : Nat
  objects : List Object

namespace Store

def allocate (store : Store) (size : Nat) (bytes : Nat → Option (BitVec 8)) : Store :=
  if size = 0 ∨ store.capacity < extent store.objects + size then store
  else { store with objects := store.objects ++ [⟨size, bytes⟩] }

/-- The bytes of an object, as far as it goes. -/
def contents (store : Store) (block : Option Nat) (index : Nat) : Option (BitVec 8) :=
  (block.bind (store.objects[·]?)).bind fun object =>
    if index < object.size then object.bytes index else none

def step (store : Store) : Request → Store
  | .malloc size => store.allocate size.toNat fun _ => none
  | .calloc nmemb size => store.allocate (nmemb.toNat * size.toNat) fun _ => some 0
  | .realloc block size => store.allocate size.toNat (store.contents block)
  | .free _ => store
  | .store block offset byte =>
    { store with objects := store.objects.modify block (Object.write · offset byte) }

/-- The size of a request does not take an address of the heap, which ends at `top`, around the
address space, and the program stays within its blocks. -/
def Allowed (top : Nat) (store : Store) : Request → Prop
  | .malloc size => top + size.toNat < 2 ^ 32
  | .calloc nmemb size => top + nmemb.toNat * size.toNat < 2 ^ 32
  | .realloc _ size => top + size.toNat < 2 ^ 32
  | .free _ => True
  | .store block offset _ => ∃ object, store.objects[block]? = some object ∧ offset < object.size

def AllAllowed (top : Nat) : Store → List Request → Prop
  | _, [] => True
  | store, request :: rest => store.Allowed top request ∧ AllAllowed top (store.step request) rest

end Store

/-! ## Memory operations -/

section Memory

variable {memory : Nat → BitVec 8} {newPtr ptr : BitVec 32} {count : Nat}

theorem toNat_offset {offset : Nat} (room : ptr.toNat + offset < 2 ^ 32) :
    (ptr + BitVec.ofNat 32 offset).toNat = ptr.toNat + offset := by
  rw [BitVec.toNat_add, BitVec.toNat_ofNat]
  omega

theorem memset_apply (room : ptr.toNat + count ≤ 2 ^ 32) (value : BitVec 8) (place : Nat) :
    memset memory ptr value count place =
      if ptr.toNat ≤ place ∧ place < ptr.toNat + count then value else memory place := by
  induction count with
  | zero => exact (if_neg (by omega)).symm
  | succ count inductionHypothesis =>
    rw [memset, toNat_offset (by omega)]
    by_cases last : place = ptr.toNat + count
    · rw [last, Function.update_self, if_pos (by omega)]
    · rw [Function.update_of_ne last, inductionHypothesis (by omega)]
      exact if_congr (by omega) rfl rfl

theorem copy_outside (room : newPtr.toNat + count ≤ 2 ^ 32) {place : Nat}
    (outside : place < newPtr.toNat ∨ newPtr.toNat + count ≤ place) :
    copy memory newPtr ptr count place = memory place := by
  induction count with
  | zero => rfl
  | succ count inductionHypothesis =>
    rw [copy, toNat_offset (by omega), Function.update_of_ne (by omega)]
    exact inductionHypothesis (by omega) (by omega)

/-- What lies below the new block arrives in it, even if the copy runs on into the new block. -/
theorem copy_inside (room : newPtr.toNat + count ≤ 2 ^ 32) {index : Nat} (inside : index < count)
    (below : ptr.toNat + index < newPtr.toNat) :
    copy memory newPtr ptr count (newPtr.toNat + index) = memory (ptr.toNat + index) := by
  induction count with
  | zero => exact absurd inside (Nat.not_lt_zero index)
  | succ count inductionHypothesis =>
    rw [copy, toNat_offset (by omega)]
    by_cases last : index = count
    · subst last
      rw [Function.update_self, toNat_offset (by omega)]
      exact copy_outside (by omega) (Or.inl below)
    · rw [Function.update_of_ne (by omega)]
      exact inductionHypothesis (by omega) (by omega)

end Memory

/-! ## Requests -/

/-- Without a wrap the addresses compare as numbers. -/
theorem refused_iff {state : Heap} {size : BitVec 32}
    (room : state.heapPtr.toNat + size.toNat < 2 ^ 32) :
    (state.heapEnd.ult (state.heapPtr + size) || size == 0) = true ↔
      size.toNat = 0 ∨ state.heapEnd.toNat < state.heapPtr.toNat + size.toNat := by
  have sum : (state.heapPtr + size).toNat = state.heapPtr.toNat + size.toNat :=
    (BitVec.toNat_add _ _).trans (Nat.mod_eq_of_lt room)
  have zero : size = 0 ↔ size.toNat = 0 := BitVec.toNat_inj.symm
  rw [Bool.or_eq_true, BitVec.ult, sum, decide_eq_true_eq, beq_iff_eq, zero, or_comm]

/-- With a wrap a block overlaps what is given out already. -/
example : malloc ⟨0x8010, 0x8040, 0⟩ 0xfffffff8 = (0x8010, ⟨0x8008, 0x8040, 0xfffffff8⟩) := by
  decide

theorem malloc_refused {state : Heap} {size : BitVec 32}
    (refused : (state.heapEnd.ult (state.heapPtr + size) || size == 0) = true) :
    malloc state size = (0, { state with heapRequested := state.heapRequested + size }) := by
  rw [malloc]
  exact if_pos refused

theorem malloc_granted {state : Heap} {size : BitVec 32}
    (granted : ¬ (state.heapEnd.ult (state.heapPtr + size) || size == 0) = true) :
    malloc state size = (state.heapPtr, { state with
      heapPtr := state.heapPtr + size, heapRequested := state.heapRequested + size }) := by
  rw [malloc]
  exact if_neg granted

theorem calloc_eq (state : Heap) (memory : Nat → BitVec 8) (nmemb size : BitVec 32) :
    calloc state memory nmemb size = ((malloc state (nmemb * size)).1,
      (malloc state (nmemb * size)).2, if (malloc state (nmemb * size)).1 ≠ 0 then
        memset memory (malloc state (nmemb * size)).1 0 (nmemb * size).toNat else memory) := rfl

/-- `realloc_beebs` allocates as `malloc_beebs` does. -/
theorem realloc_eq (state : Heap) (memory : Nat → BitVec 8) (ptr size : BitVec 32) :
    realloc state memory ptr size = ((malloc state size).1, (malloc state size).2,
      if (state.heapEnd.ult (state.heapPtr + size) || size == 0) = true then memory
      else if ptr ≠ 0 then copy memory state.heapPtr ptr size.toNat else memory) := by
  by_cases refused : (state.heapEnd.ult (state.heapPtr + size) || size == 0) = true
  · rw [malloc_refused refused, if_pos refused, realloc]
    exact if_pos refused
  · rw [malloc_granted refused, if_neg refused, realloc]
    exact if_neg refused

/-! ## The program and its objects -/

/-- The heap starts at `heap` and ends at `top`. -/
structure Represents (heap : BitVec 32) (top : Nat) (program : Program) (store : Store) : Prop where
  heapPtr : program.heap.heapPtr.toNat = heap.toNat + extent store.objects
  heapEnd : program.heap.heapEnd.toNat = top
  capacity : heap.toNat + store.capacity = top
  fits : extent store.objects ≤ store.capacity
  blocks : program.blocks.map BitVec.toNat = addresses heap.toNat store.objects
  laid : Laid program.memory heap.toNat store.objects

section Run

variable {heap : BitVec 32} {top : Nat} {program : Program} {store : Store}

theorem Represents.heapPtr_ne (represents : Represents heap top program store)
    (nonnull : 0 < heap.toNat) : program.heap.heapPtr ≠ 0 := by
  intro null
  have start := represents.heapPtr
  rw [null] at start
  replace start : 0 = heap.toNat + extent store.objects := start
  omega

/-- What the three ways to get a block have in common: the memory below the block is kept, and the
block is filled. -/
theorem Represents.receive (represents : Represents heap top program store)
    (nonnull : 0 < heap.toNat) {size : BitVec 32} (room : top + size.toNat < 2 ^ 32)
    {bytes : Nat → Option (BitVec 8)} {memory : Nat → BitVec 8}
    (refused : (program.heap.heapEnd.ult (program.heap.heapPtr + size) || size == 0) = true →
      memory = program.memory)
    (granted : ¬ (program.heap.heapEnd.ult (program.heap.heapPtr + size) || size == 0) = true →
      (∀ place, place < program.heap.heapPtr.toNat → memory place = program.memory place) ∧
        Object.Holds ⟨size.toNat, bytes⟩ memory program.heap.heapPtr.toNat) :
    Represents heap top
      (program.receive (malloc program.heap size).1 (malloc program.heap size).2 memory)
      (store.allocate size.toNat bytes) := by
  have some := represents.heapPtr_ne nonnull
  obtain ⟨heapPtr, heapEnd, capacity, fits, blocks, laid⟩ := represents
  have inside : program.heap.heapPtr.toNat + size.toNat < 2 ^ 32 := by omega
  by_cases fails : (program.heap.heapEnd.ult (program.heap.heapPtr + size) || size == 0) = true
  · -- what the heap refuses the store refuses too
    have full : size.toNat = 0 ∨ store.capacity < extent store.objects + size.toNat := by
      have reason := (refused_iff inside).mp fails
      omega
    rw [malloc_refused fails, Program.receive, if_pos rfl, Store.allocate, if_pos full,
      refused fails]
    exact ⟨heapPtr, heapEnd, capacity, fits, blocks, laid⟩
  · have free : ¬ (size.toNat = 0 ∨ store.capacity < extent store.objects + size.toNat) := by
      have reason := mt (refused_iff inside).mpr fails
      omega
    -- the new block starts where the last object ends
    obtain ⟨kept, filled⟩ := granted fails
    rw [malloc_granted fails, Program.receive, if_neg some, Store.allocate, if_neg free]
    constructor
    · rw [extent_append, ← Nat.add_assoc, ← heapPtr, BitVec.toNat_add, Nat.mod_eq_of_lt inside]
    · exact heapEnd
    · exact capacity
    · rw [extent_append]
      show extent store.objects + size.toNat ≤ store.capacity
      omega
    · rw [List.map_append, blocks, addresses_append, ← heapPtr]
      rfl
    · refine (laid.congr fun place _ below => kept place (heapPtr ▸ below)).append ?_
      exact heapPtr ▸ filled

/-- The pointer to a block, and the object in it. -/
theorem Represents.block (represents : Represents heap top program store) {index : Nat}
    {object : Object} (found : store.objects[index]? = some object) :
    (addresses heap.toNat store.objects)[index]? = some (program.pointer (some index)).toNat ∧
      object.Holds program.memory (program.pointer (some index)).toNat ∧
      heap.toNat ≤ (program.pointer (some index)).toNat ∧
      (program.pointer (some index)).toNat + object.size ≤ program.heap.heapPtr.toNat := by
  have inside : index < program.blocks.length := by
    have lengths := congrArg List.length represents.blocks
    rw [List.length_map, length_addresses] at lengths
    rw [lengths]
    exact (List.getElem?_eq_some_iff.mp found).1
  have pointer : program.pointer (some index) = program.blocks[index] := by
    rw [Program.pointer, Option.bind_some, List.getElem?_eq_getElem inside]
    rfl
  have located : (addresses heap.toNat store.objects)[index]? =
      some (program.pointer (some index)).toNat := by
    rw [← represents.blocks, List.getElem?_map, List.getElem?_eq_getElem inside, pointer]
    rfl
  rw [represents.heapPtr]
  exact ⟨located, represents.laid.get found located⟩

theorem Represents.step_malloc (represents : Represents heap top program store)
    (nonnull : 0 < heap.toNat) {size : BitVec 32} (room : top + size.toNat < 2 ^ 32) :
    Represents heap top (program.step (.malloc size)) (store.step (.malloc size)) :=
  represents.receive nonnull room (fun _ => rfl) fun _ =>
    ⟨fun _ _ => rfl, fun _ _ _ known => absurd known.symm (Option.some_ne_none _)⟩

theorem Represents.step_calloc (represents : Represents heap top program store)
    (nonnull : 0 < heap.toNat) {nmemb size : BitVec 32}
    (room : top + nmemb.toNat * size.toNat < 2 ^ 32) :
    Represents heap top (program.step (.calloc nmemb size)) (store.step (.calloc nmemb size)) := by
  have product : (nmemb * size).toNat = nmemb.toNat * size.toNat := by
    rw [BitVec.toNat_mul, Nat.mod_eq_of_lt (Nat.lt_of_le_of_lt (Nat.le_add_left _ top) room)]
  have bound : program.heap.heapPtr.toNat + (nmemb * size).toNat ≤ 2 ^ 32 := by
    have fits := represents.fits
    have capacity := represents.capacity
    rw [represents.heapPtr]
    omega
  -- the product does not wrap, as the request is allowed
  simp only [Program.step, calloc_eq, Store.step]
  rw [← product]
  refine represents.receive nonnull (product ▸ room) (fun fails => ?_) fun given => ?_
  · rw [malloc_refused fails]
    exact if_neg fun some => some rfl
  · rw [malloc_granted given, if_pos (represents.heapPtr_ne nonnull)]
    refine ⟨fun place below => ?_, fun index byte inside known => ?_⟩
    · rw [memset_apply bound, if_neg (by omega)]
    · rw [memset_apply bound, if_pos ⟨Nat.le_add_right _ _, Nat.add_lt_add_left inside _⟩]
      exact Option.some.inj known

theorem Represents.step_realloc (represents : Represents heap top program store)
    (nonnull : 0 < heap.toNat) {block : Option Nat} {size : BitVec 32}
    (room : top + size.toNat < 2 ^ 32) :
    Represents heap top (program.step (.realloc block size))
      (store.step (.realloc block size)) := by
  have bound : program.heap.heapPtr.toNat + size.toNat ≤ 2 ^ 32 := by
    have fits := represents.fits
    have capacity := represents.capacity
    rw [represents.heapPtr]
    omega
  simp only [Program.step, realloc_eq]
  refine represents.receive nonnull room (fun fails => if_pos fails) fun given => ?_
  rw [if_neg given]
  refine ⟨fun place below => ?_, fun index byte inside known => ?_⟩
  · by_cases null : program.pointer block = 0
    · rw [if_neg fun some => some null]
    · rw [if_pos null]
      exact copy_outside bound (Or.inl below)
  · -- a byte that is known lies in the old block
    obtain ⟨object, chosen, old⟩ := Option.bind_eq_some_iff.mp known
    obtain ⟨number, rfl, found⟩ := Option.bind_eq_some_iff.mp chosen
    obtain ⟨_, holds, above, below⟩ := represents.block found
    by_cases within : index < object.size
    · rw [if_pos within] at old
      have some : program.pointer (some number) ≠ 0 := by
        intro null
        rw [null] at above
        replace above : heap.toNat ≤ 0 := above
        omega
      rw [if_pos some, copy_inside bound inside (by omega)]
      exact holds index byte within old
    · rw [if_neg within] at old
      exact absurd old.symm (Option.some_ne_none _)

theorem Represents.step_store (represents : Represents heap top program store) {block offset : Nat}
    {object : Object} (found : store.objects[block]? = some object) (inside : offset < object.size)
    (byte : BitVec 8) : Represents heap top (program.step (.store block offset byte))
      (store.step (.store block offset byte)) := by
  obtain ⟨located, _, _, below⟩ := represents.block found
  obtain ⟨heapPtr, heapEnd, capacity, fits, blocks, laid⟩ := represents
  have small := program.heap.heapPtr.isLt
  have address : (program.pointer (some block) + BitVec.ofNat 32 offset).toNat =
      (program.pointer (some block)).toNat + offset := toNat_offset (by omega)
  constructor
  · exact heapPtr.trans (congrArg _ (extent_modify _ _ _ _).symm)
  · exact heapEnd
  · exact capacity
  · exact (extent_modify _ _ _ _).trans_le fits
  · exact blocks.trans (addresses_modify _ _ _ _ _).symm
  · simp only [Program.step, address]
    exact laid.write found located inside byte

/-- Each request does to the objects what it is for. -/
theorem Represents.step (represents : Represents heap top program store) (nonnull : 0 < heap.toNat)
    {request : Request} (allowed : store.Allowed top request) :
    Represents heap top (program.step request) (store.step request) := by
  cases request with
  | malloc size => exact represents.step_malloc nonnull allowed
  | calloc nmemb size => exact represents.step_calloc nonnull allowed
  | realloc block size => exact represents.step_realloc nonnull allowed
  | free block => exact represents
  | store block offset byte =>
    obtain ⟨object, found, inside⟩ := allowed
    exact represents.step_store found inside byte

end Run

/-! ## Runs -/

/-- How much a request asks for. -/
def Request.amount : Request → BitVec 32
  | .malloc size => size
  | .calloc nmemb size => nmemb * size
  | .realloc _ size => size
  | .free _ => 0
  | .store _ _ _ => 0

/-- Each request for something gets a block. -/
def Served : Program → List Request → Prop
  | _, [] => True
  | program, request :: rest =>
    (request.amount ≠ 0 → program.answer request ≠ 0) ∧ Served (program.step request) rest

/-- Every request asks the heap for its amount. -/
theorem step_malloc (program : Program) (request : Request) :
    (request.amount ≠ 0 → program.answer request = (malloc program.heap request.amount).1) ∧
      (program.step request).heap = (malloc program.heap request.amount).2 := by
  -- `free` and stores count as requests for nothing
  have nothing : (malloc program.heap 0).2 = program.heap := by
    rw [malloc_refused (by rw [Bool.or_eq_true]; exact Or.inr rfl)]
    exact congrArg (fun asked => { program.heap with heapRequested := asked }) (BitVec.add_zero _)
  cases request with
  | malloc size => exact ⟨fun _ => rfl, rfl⟩
  | calloc nmemb size => exact ⟨fun _ => rfl, rfl⟩
  | realloc block size =>
    simp only [Program.answer, Program.step, realloc_eq]
    exact ⟨fun _ => rfl, rfl⟩
  | free block => exact ⟨fun some => absurd rfl some, nothing.symm⟩
  | store block offset byte => exact ⟨fun some => absurd rfl some, nothing.symm⟩

/-- The heap between `heap` and `top`, of which `granted` bytes are given out and `requested` asked
for. -/
structure Counts (heap : BitVec 32) (top granted requested : Nat) (state : Heap) : Prop where
  heapPtr : state.heapPtr.toNat = heap.toNat + granted
  heapEnd : state.heapEnd.toNat = top
  heapRequested : state.heapRequested.toNat = requested
  inside : heap.toNat + granted ≤ top
  within : granted ≤ requested

section Check

variable {heap : BitVec 32} {top granted requested : Nat} {state : Heap} {size : BitVec 32}

theorem Counts.malloc (counts : Counts heap top granted requested state) (nonnull : 0 < heap.toNat)
    (room : heap.toNat + requested + size.toNat < 2 ^ 32) :
    ((Beebsc.malloc state size).1 ≠ 0 ∧
        Counts heap top (granted + size.toNat) (requested + size.toNat)
          (Beebsc.malloc state size).2) ∨
      (Beebsc.malloc state size).1 = 0 ∧
        (size.toNat = 0 ∨ top < heap.toNat + granted + size.toNat) ∧
        Counts heap top granted (requested + size.toNat) (Beebsc.malloc state size).2 := by
  obtain ⟨heapPtr, heapEnd, heapRequested, inside, within⟩ := counts
  have asked : (state.heapRequested + size).toNat = requested + size.toNat := by
    rw [BitVec.toNat_add, heapRequested, Nat.mod_eq_of_lt (by omega)]
  by_cases fails : (state.heapEnd.ult (state.heapPtr + size) || size == 0) = true
  · have reason := (refused_iff (by omega)).mp fails
    rw [malloc_refused fails]
    exact Or.inr ⟨rfl, by omega, heapPtr, heapEnd, asked, inside, by omega⟩
  · have reason := mt (refused_iff (by omega)).mpr fails
    rw [malloc_granted fails]
    refine Or.inl ⟨fun null => ?_, ?_, heapEnd, asked, by omega, by omega⟩
    · replace null : state.heapPtr = 0 := null
      rw [null] at heapPtr
      replace heapPtr : 0 = heap.toNat + granted := heapPtr
      omega
    · rw [BitVec.toNat_add, Nat.mod_eq_of_lt (by omega)]
      omega

theorem Counts.checkHeap (counts : Counts heap top granted requested state)
    (room : heap.toNat + requested < 2 ^ 32) :
    checkHeap state heap = decide (heap.toNat + requested ≤ top) := by
  rw [Beebsc.checkHeap, BitVec.ule, BitVec.toNat_add, counts.heapRequested, counts.heapEnd,
    Nat.mod_eq_of_lt room]

/-- What requests ask for in total. -/
def total (requests : List Request) : Nat := (requests.map fun request => request.amount.toNat).sum

theorem total_cons (request : Request) (rest : List Request) :
    total (request :: rest) = request.amount.toNat + total rest := List.sum_cons

/-- Once more was requested than there is, the check fails for good. -/
theorem checkHeap_of_exceeded (nonnull : 0 < heap.toNat) (requests : List Request)
    (program : Program) (granted requested : Nat)
    (counts : Counts heap top granted requested program.heap) (exceeded : top < heap.toNat + requested)
    (room : heap.toNat + requested + total requests < 2 ^ 32) :
    checkHeap (requests.foldl Program.step program).heap heap = false := by
  induction requests generalizing program granted requested with
  | nil =>
    refine (counts.checkHeap (Nat.lt_of_le_of_lt (Nat.le_add_right _ _) room)).trans ?_
    exact decide_eq_false (by omega)
  | cons request rest inductionHypothesis =>
    rw [total_cons] at room
    have fits : heap.toNat + requested + request.amount.toNat < 2 ^ 32 := by omega
    have step := counts.malloc nonnull fits
    rw [← (step_malloc program request).2] at step
    obtain ⟨_, after⟩ | ⟨_, _, after⟩ := step
    · exact inductionHypothesis _ _ _ after (by omega) (by omega)
    · exact inductionHypothesis _ _ _ after (by omega) (by omega)

theorem checkHeap_iff_served (nonnull : 0 < heap.toNat) (requests : List Request)
    (program : Program) (granted : Nat) (counts : Counts heap top granted granted program.heap)
    (room : heap.toNat + granted + total requests < 2 ^ 32) :
    checkHeap (requests.foldl Program.step program).heap heap = true ↔ Served program requests := by
  induction requests generalizing program granted with
  | nil =>
    have inside := counts.inside
    have passes := counts.checkHeap (Nat.lt_of_le_of_lt (Nat.le_add_right _ _) room)
    exact ⟨fun _ => trivial, fun _ => passes.trans (decide_eq_true inside)⟩
  | cons request rest inductionHypothesis =>
    rw [total_cons] at room
    obtain ⟨asks, heapStep⟩ := step_malloc program request
    have inside := counts.inside
    rw [List.foldl_cons, Served]
    have fits : heap.toNat + granted + request.amount.toNat < 2 ^ 32 := by omega
    have step := counts.malloc nonnull fits
    rw [← heapStep] at step
    obtain ⟨given, after⟩ | ⟨null, reason, after⟩ := step
    · rw [inductionHypothesis _ _ after (by omega)]
      exact ⟨fun served => ⟨fun asked => (asks asked).trans_ne given, served⟩, And.right⟩
    -- a request for nothing is refused and does not count
    by_cases nothing : request.amount = 0
    · have zero : request.amount.toNat = 0 := congrArg BitVec.toNat nothing
      rw [zero] at after
      rw [inductionHypothesis _ _ after (by omega)]
      exact ⟨fun served => ⟨fun asked => absurd nothing asked, served⟩, And.right⟩
    · -- the first request that fails asks for more than there is left
      have positive : request.amount.toNat ≠ 0 := fun zero =>
        nothing (BitVec.eq_of_toNat_eq zero)
      have fails := checkHeap_of_exceeded nonnull rest _ _ _ after (by omega) (by omega)
      rw [fails]
      exact ⟨fun passes => absurd passes Bool.false_ne_true, fun served =>
        absurd ((asks nothing).trans null) (served.1 nothing)⟩

end Check

end IbexWb.Beebsc
