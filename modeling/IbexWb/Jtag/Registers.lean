import IbexWb.Binary.Linear
import IbexWb.Jtag.Tap

/-! # The registers behind a TAP controller

The instruction register has five bits and selects the data register that is scanned.  A scan
captures something, shifts TDI in at the top, and updates the register with what it then holds.
The widths of the data registers and what they capture are the chip's.
-/

namespace IbexWb.Jtag

open Binary

inductive Update where
  | instr (value : BitVec 5)
  | data (instr : BitVec 5) (value : BitVec 64)
deriving DecidableEq, Repr

structure Registers where
  instr : BitVec 5
  shift : BitVec 64
  /-- The updates so far. -/
  updates : List Update
deriving DecidableEq, Repr

structure Chip where
  /-- The instruction after Test-Logic-Reset. -/
  reset : BitVec 5
  /-- The width of the data register that an instruction selects. -/
  width : BitVec 5 → Nat
  captured : Scan → Registers → BitVec 64

def shiftIn (width : Nat) (shift : BitVec 64) (tdi : Bool) : BitVec 64 :=
  low width shift >>> 1 ^^^ if tdi then BitVec.twoPow 64 (width - 1) else 0

namespace Chip

variable (chip : Chip)

def scanned (instr : BitVec 5) : Scan → Nat
  | .ir => 5
  | .dr => chip.width instr

def next (registers : Registers) (cycle : Cycle) : Registers :=
  match cycle with
  | .visit .testLogicReset => { registers with instr := chip.reset }
  | .visit (.capture scan) => { registers with shift := chip.captured scan registers }
  | .shift scan tdi =>
    { registers with shift := shiftIn (chip.scanned registers.instr scan) registers.shift tdi }
  | .visit (.update .ir) =>
    { registers with
      instr := registers.shift.setWidth 5
      updates := registers.updates ++ [.instr (registers.shift.setWidth 5)] }
  | .visit (.update .dr) =>
    { registers with
      updates := registers.updates ++
        [.data registers.instr (low (chip.width registers.instr) registers.shift)] }
  | _ => registers

def run (registers : Registers) (cycles : List Cycle) : Registers := cycles.foldl chip.next registers

theorem run_append (registers : Registers) (first second : List Cycle) :
    chip.run registers (first ++ second) = chip.run (chip.run registers first) second :=
  List.foldl_append

theorem next_updates (registers : Registers) (cycle : Cycle) :
    registers.updates <+: (chip.next registers cycle).updates := by
  cases cycle with
  | shift scan tdi => exact List.prefix_rfl
  | visit state =>
    cases state with
    | update scan =>
      cases scan with
      | ir => exact List.prefix_append _ _
      | dr => exact List.prefix_append _ _
    | _ => exact List.prefix_rfl

/-- Updates are never taken back. -/
theorem run_updates (registers : Registers) (cycles : List Cycle) :
    registers.updates <+: (chip.run registers cycles).updates := by
  induction cycles generalizing registers with
  | nil => exact List.prefix_rfl
  | cons cycle rest inductionHypothesis =>
    exact (chip.next_updates registers cycle).trans (inductionHypothesis _)

end Chip

/-! ## A scan -/

theorem getLsbD_shiftIn {width place : Nat} (inside : place < width) (bound : width ≤ 64)
    (shift : BitVec 64) (tdi : Bool) : (shiftIn width shift tdi).getLsbD place =
      if place + 1 < width then shift.getLsbD (place + 1) else tdi := by
  have entered : (if tdi then BitVec.twoPow 64 (width - 1) else 0).getLsbD place =
      (tdi && decide (place + 1 = width)) := by
    cases tdi with
    | false => exact BitVec.getLsbD_zero
    | true =>
      rw [if_pos rfl, BitVec.getLsbD_twoPow, decide_eq_true (by omega : width - 1 < 64)]
      exact decide_eq_decide.mpr (by omega)
  rw [shiftIn, BitVec.getLsbD_xor, BitVec.getLsbD_ushiftRight, getLsbD_low, entered,
    Nat.add_comm 1 place]
  by_cases more : place + 1 < width
  · simp [more, Nat.ne_of_lt more]
  · simp [(by omega : place + 1 = width)]

/-- After `count` shifts the bits of the value are in the top places. -/
theorem getLsbD_shiftIns {width count place : Nat} (bound : width ≤ 64) (few : count ≤ width)
    (value shift : BitVec 64) (inside : place < width) :
    (((List.range count).map value.getLsbD).foldl (shiftIn width) shift).getLsbD place =
      if place + count < width then shift.getLsbD (place + count)
      else value.getLsbD (place + count - width) := by
  induction count generalizing place with
  | zero =>
    rw [Nat.add_zero, if_pos inside]
    rfl
  | succ count inductionHypothesis =>
    rw [List.range_succ, List.map_append, List.foldl_append, List.map_singleton, List.foldl_cons,
      List.foldl_nil, getLsbD_shiftIn inside bound]
    by_cases more : place + 1 < width
    · rw [if_pos more, inductionHypothesis (Nat.le_of_succ_le few) more, Nat.add_assoc,
        Nat.add_comm 1]
    · -- the last bit is in the top place
      have top : place + (count + 1) - width = count := by omega
      rw [if_neg more, if_neg (by omega), top]

/-- A scan of as many bits as the register has leaves nothing of what it captured. -/
theorem low_shiftIns {width : Nat} (bound : width ≤ 64) (value shift : BitVec 64) :
    low width (((List.range width).map value.getLsbD).foldl (shiftIn width) shift) =
      low width value := by
  apply BitVec.eq_of_getLsbD_eq
  intro place _
  rw [getLsbD_low, getLsbD_low]
  by_cases inside : place < width
  · rw [getLsbD_shiftIns bound (Nat.le_refl width) value shift inside, if_neg (by omega),
      Nat.add_sub_cancel]
  · rw [decide_eq_false inside, Bool.and_false, Bool.and_false]

end IbexWb.Jtag
