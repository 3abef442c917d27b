import IbexWb.Sw.Crt0

/-! # What the start-up code clears

The loop stores to every word from `_bss_start` on whose address is not above `_bss_end`, because
the branch back is `ble`.  The word at `_bss_end` itself is no part of the section, so an aligned
`_bss_end` costs the word behind the section its content.
-/

namespace IbexWb.Crt0

open Riscv StateTransition

/-- The memory in which `count` words from `first` on are zero. -/
def cleared (memory : Nat → BitVec 8) (first count : Nat) : Nat → BitVec 8 := fun address =>
  if first ≤ address ∧ address < first + 4 * count then 0 else memory address

theorem cleared_zero (memory : Nat → BitVec 8) (first : Nat) : cleared memory first 0 = memory := by
  funext address
  exact if_neg (by omega)

theorem store_cleared (memory : Nat → BitVec 8) (first count : Nat) :
    Memory.store (cleared memory first count) (first + 4 * count) (BitVec.allOnes 4) 0 =
      cleared memory first (count + 1) := by
  funext address
  have zero : ∀ index, Memory.byte 0 index = 0 := fun index => by simp [Memory.byte]
  have enabled : ∀ index, index < 4 → (BitVec.allOnes 4).getLsbD index = true := by decide
  rw [Memory.store, zero]
  by_cases stored : first + 4 * count ≤ address ∧ address < first + 4 * count + 4
  · rw [if_pos ⟨stored.1, stored.2, enabled _ (by omega)⟩, cleared, if_pos (by omega)]
  · rw [if_neg (fun all => stored ⟨all.1, all.2.1⟩), cleared, cleared]
    exact if_congr (by omega) rfl rfl

theorem word_cleared (memory : Nat → BitVec 8) {first count address : Nat} (aligned : 4 ∣ first)
    (word : 4 ∣ address) : Memory.word (cleared memory first count) address =
      if first ≤ address ∧ address < first + 4 * count then 0 else Memory.word memory address := by
  by_cases inside : first ≤ address ∧ address < first + 4 * count
  · rw [if_pos inside, ← Memory.ofBytes_byte 0]
    refine Memory.ofBytes_congr fun index bound => ?_
    rw [cleared, if_pos (by omega)]
    simp [Memory.byte]
  · rw [if_neg inside]
    refine Memory.ofBytes_congr fun index bound => ?_
    rw [cleared, if_neg (by omega)]

/-! ## The run -/

section Run

variable {bssStart bssEnd : BitVec 32} {initial : State}

/-- The code is at `label`, with `count` words cleared and the pointer behind them. -/
structure At (bssStart bssEnd : BitVec 32) (initial : State) (label count : Nat) (state : State) :
    Prop where
  pc : state.pc = label
  pointer : (read state.regs x26).toNat = bssStart.toNat + 4 * count
  bound : read state.regs x27 = bssEnd
  memory : state.memory = cleared initial.memory bssStart.toNat count

variable {state : State} {count : Nat}

theorem load_reaches (entry : initial.pc = 0) : ∃ next,
    Reaches (step (start bssStart bssEnd)) initial next ∧ At bssStart bssEnd initial 2 0 next := by
  refine ⟨_, reaches_step (by rw [entry]; rfl) rfl (reaches_step (by rw [entry]; rfl) rfl
    Relation.ReflTransGen.refl), ?_⟩
  constructor
  · rw [entry]
  · rw [read_update_of_ne _ _ (by decide), read_update_self _ _ (by decide)]
    rfl
  · exact read_update_self _ _ (by decide)
  · exact (cleared_zero _ _).symm

/-- `sw x0, 0(x26)` and `addi x26, x26, 4` clear one more word. -/
theorem store_reaches (aligned : 4 ∣ bssStart.toNat)
    (bounded : bssStart.toNat + 4 * (count + 1) < 2 ^ 32)
    (looping : At bssStart bssEnd initial zeroLoop count state) : ∃ next,
    Reaches (step (start bssStart bssEnd)) state next ∧
      At bssStart bssEnd initial (zeroLoop + 2) (count + 1) next := by
  obtain ⟨pc, pointer, bound, memory⟩ := looping
  have located : (read state.regs x26 + BitVec.signExtend 32 (0 : BitVec 12)).toNat =
      bssStart.toNat + 4 * count := by
    rw [show BitVec.signExtend 32 (0 : BitVec 12) = 0#32 from rfl, BitVec.add_zero, pointer]
  have moved : (read state.regs x26 + BitVec.signExtend 32 (4 : BitVec 12)).toNat =
      bssStart.toNat + 4 * (count + 1) := by
    rw [show BitVec.signExtend 32 (4 : BitVec 12) = 4#32 from rfl, BitVec.toNat_add, pointer,
      BitVec.toNat_ofNat]
    omega
  refine ⟨_, reaches_step (by rw [pc]; rfl) (execute_sw located (by omega))
    (reaches_step (by rw [pc]; rfl) rfl Relation.ReflTransGen.refl), ?_⟩
  constructor
  · rw [pc]
  · rw [read_update_self _ _ (by decide), moved]
  · rw [read_update_of_ne _ _ (by decide), bound]
  · rw [memory, read_zero, store_cleared]

/-- `ble x26, x27, zero_loop` goes back while the pointer is not above the end. -/
theorem branch_reaches (bounded : bssStart.toNat + 4 * count < 2 ^ 31) (small : bssEnd.toNat < 2 ^ 31)
    (branching : At bssStart bssEnd initial (zeroLoop + 2) count state) : ∃ next,
    Reaches (step (start bssStart bssEnd)) state next ∧ At bssStart bssEnd initial
      (if bssStart.toNat + 4 * count ≤ bssEnd.toNat then zeroLoop else zeroLoopEnd) count next := by
  obtain ⟨pc, pointer, bound, memory⟩ := branching
  refine ⟨_, reaches_step (by rw [pc]; rfl)
    (execute_bge (congrArg BitVec.toNat bound) pointer small bounded) Relation.ReflTransGen.refl, ?_⟩
  constructor
  · rw [pc]
    rfl
  · exact pointer
  · exact bound
  · exact memory

/-- `bge x26, x27, zero_loop_end` leaves out the loop if the section is empty. -/
theorem entry_reaches (ordered : bssStart.toNat ≤ bssEnd.toNat) (small : bssEnd.toNat < 2 ^ 31)
    (entered : At bssStart bssEnd initial 2 0 state) : ∃ next,
    Reaches (step (start bssStart bssEnd)) state next ∧ At bssStart bssEnd initial
      (if bssEnd.toNat ≤ bssStart.toNat then zeroLoopEnd else zeroLoop) 0 next := by
  obtain ⟨pc, pointer, bound, memory⟩ := entered
  refine ⟨_, reaches_step (by rw [pc]; rfl)
    (execute_bge pointer (congrArg BitVec.toNat bound) (by omega) small) Relation.ReflTransGen.refl, ?_⟩
  constructor
  · rw [pc]
    rfl
  · exact pointer
  · exact bound
  · exact memory

/-- How many words the code clears. -/
def clearedWords (bssStart bssEnd : BitVec 32) : Nat :=
  if bssEnd.toNat ≤ bssStart.toNat then 0 else (bssEnd.toNat - bssStart.toNat) / 4 + 1

/-- The code ends, with all words cleared whose address is not above the end. -/
theorem start_reaches (entry : initial.pc = 0) (aligned : 4 ∣ bssStart.toNat)
    (ordered : bssStart.toNat ≤ bssEnd.toNat) (small : bssEnd.toNat < 2 ^ 31 - 8) : ∃ final,
    Reaches (step (start bssStart bssEnd)) initial final ∧
      At bssStart bssEnd initial zeroLoopEnd (clearedWords bssStart bssEnd) final := by
  obtain ⟨loaded, loads, atEntry⟩ : ∃ next, Reaches (step (start bssStart bssEnd)) initial next ∧
      At bssStart bssEnd initial 2 0 next := load_reaches entry
  obtain ⟨entered, enters, atLoop⟩ := entry_reaches ordered (by omega) atEntry
  have prologue := Relation.ReflTransGen.trans loads enters
  by_cases empty : bssEnd.toNat ≤ bssStart.toNat
  · rw [if_pos empty] at atLoop
    rw [clearedWords, if_pos empty]
    exact ⟨entered, prologue, atLoop⟩
  · rw [if_neg empty] at atLoop
    rw [clearedWords, if_neg empty]
    -- all rounds but the last branch back
    obtain ⟨last, rounds, atLast⟩ := reaches_rounds (At bssStart bssEnd initial zeroLoop)
      ((bssEnd.toNat - bssStart.toNat) / 4) (fun count state bound looping => by
        obtain ⟨stored, stores, atBranch⟩ := store_reaches aligned (by omega) looping
        obtain ⟨next, branches, atNext⟩ := branch_reaches (by omega) (by omega) atBranch
        rw [if_pos (by omega)] at atNext
        exact ⟨next, Relation.ReflTransGen.trans stores branches, atNext⟩) atLoop
    obtain ⟨stored, stores, atBranch⟩ := store_reaches aligned (by omega) atLast
    obtain ⟨final, branches, atEnd⟩ := branch_reaches (by omega) (by omega) atBranch
    rw [if_neg (by omega)] at atEnd
    exact ⟨final, .trans prologue (.trans rounds (.trans stores branches)), atEnd⟩

end Run

/-! ## The section -/

/-- A byte of the word lies in the section. -/
def Overlaps (bssStart bssEnd : BitVec 32) (word : Nat) : Prop :=
  ∃ address, word ≤ address ∧ address < word + 4 ∧
    bssStart.toNat ≤ address ∧ address < bssEnd.toNat

/-- The code from `_start` on ends at `zero_loop_end`; the words of the section are zero then and
all other words are what they were. -/
def ClearsExactly (bssStart bssEnd : BitVec 32) (initial : State) : Prop :=
  ∃ final ∈ eval (step (start bssStart bssEnd)) initial, final.pc = zeroLoopEnd ∧
    ∀ word, 4 ∣ word →
      (Overlaps bssStart bssEnd word → Memory.word final.memory word = 0) ∧
      (¬ Overlaps bssStart bssEnd word →
        Memory.word final.memory word = Memory.word initial.memory word)

section Section

variable {bssStart bssEnd : BitVec 32} {initial : State}

theorem overlaps_iff (aligned : 4 ∣ bssStart.toNat) {word : Nat} (wordAligned : 4 ∣ word) :
    Overlaps bssStart bssEnd word ↔ bssStart.toNat ≤ word ∧ word < bssEnd.toNat := by
  constructor
  · rintro ⟨address, above, below, first, last⟩
    omega
  · rintro ⟨first, last⟩
    exact ⟨word, Nat.le_refl word, by omega, first, last⟩

/-- The words that the code clears are those of a section that is not empty, and one at its end. -/
theorem word_final (aligned : 4 ∣ bssStart.toNat) (ordered : bssStart.toNat ≤ bssEnd.toNat)
    {word : Nat} (wordAligned : 4 ∣ word) :
    Memory.word (cleared initial.memory bssStart.toNat (clearedWords bssStart bssEnd)) word =
      if bssStart.toNat ≠ bssEnd.toNat ∧ bssStart.toNat ≤ word ∧ word ≤ bssEnd.toNat then 0
      else Memory.word initial.memory word := by
  rw [word_cleared _ aligned wordAligned]
  refine if_congr ?_ rfl rfl
  rw [clearedWords]
  by_cases empty : bssEnd.toNat ≤ bssStart.toNat
  · rw [if_pos empty]
    omega
  · rw [if_neg empty]
    omega

/-- The code ends, and it is exact if the memory it leaves is. -/
theorem clearsExactly_iff_word (entry : initial.pc = 0) (aligned : 4 ∣ bssStart.toNat)
    (ordered : bssStart.toNat ≤ bssEnd.toNat) (small : bssEnd.toNat < 2 ^ 31 - 8) :
    ClearsExactly bssStart bssEnd initial ↔
      (4 ∣ bssEnd.toNat → bssStart.toNat ≠ bssEnd.toNat →
        Memory.word initial.memory bssEnd.toNat = 0) := by
  obtain ⟨final, reaches, atEnd⟩ := start_reaches entry aligned ordered small
  have ends : final ∈ eval (step (start bssStart bssEnd)) initial :=
    eval_of_reaches reaches (Nat.le_of_eq atEnd.pc.symm)
  constructor
  · rintro ⟨other, otherEnds, _, exact⟩ endAligned different
    obtain rfl := Part.mem_unique otherEnds ends
    -- the word at the end is cleared, but no part of the section
    have outside : ¬ Overlaps bssStart bssEnd bssEnd.toNat := by
      rw [overlaps_iff aligned endAligned]
      omega
    rw [← (exact _ endAligned).2 outside, atEnd.memory, word_final aligned ordered endAligned,
      if_pos ⟨different, ordered, Nat.le_refl _⟩]
  · intro kept
    refine ⟨final, ends, atEnd.pc, fun word wordAligned => ?_⟩
    rw [atEnd.memory, word_final aligned ordered wordAligned, overlaps_iff aligned wordAligned]
    constructor
    · exact fun inside => if_pos (by omega)
    · intro outside
      by_cases last : bssStart.toNat ≠ bssEnd.toNat ∧ word = bssEnd.toNat
      · obtain ⟨different, rfl⟩ := last
        rw [if_pos ⟨different, ordered, Nat.le_refl _⟩, kept wordAligned different]
      · exact if_neg (by omega)

end Section

/-- The start-up code clears exactly the section unless that ends, not empty, at a word aligned
address with something in the word there. -/
theorem clearsExactly_iff {bssStart bssEnd : BitVec 32} {initial : State} (entry : initial.pc = 0)
    (aligned : 4 ∣ bssStart.toNat) (ordered : bssStart.toNat ≤ bssEnd.toNat)
    (small : bssEnd.toNat < 2 ^ 31 - 8) : ClearsExactly bssStart bssEnd initial ↔
      bssStart = bssEnd ∨ ¬ 4 ∣ bssEnd.toNat ∨ Memory.word initial.memory bssEnd.toNat = 0 := by
  have same : bssStart.toNat = bssEnd.toNat ↔ bssStart = bssEnd := BitVec.toNat_inj
  rw [clearsExactly_iff_word entry aligned ordered small, Ne, same]
  by_cases empty : bssStart = bssEnd
  · simp [empty]
  · by_cases endAligned : 4 ∣ bssEnd.toNat <;> simp [empty, endAligned]

/-- A memory with ones in all bytes. -/
def filled : State := ⟨0, fun _ => 0, fun _ => BitVec.allOnes 8⟩

theorem clearsExactly_unaligned : ClearsExactly 16 22 filled :=
  (clearsExactly_iff rfl (by decide) (by decide) (by decide)).mpr (Or.inr (Or.inl (by decide)))

/-- The word behind a section of one word is cleared with it. -/
theorem clears_word_behind : ¬ ClearsExactly 16 20 filled := by
  rw [clearsExactly_iff_word rfl (by decide) (by decide) (by decide)]
  decide

end IbexWb.Crt0
