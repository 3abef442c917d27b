import Mathlib.Tactic.Common

/-! # The TAP controller of IEEE 1149.1

The controller moves at each rising edge of TCK, as TMS says.  Its sixteen states are two columns
of six, one for the instruction and one for the data register, and four in front of them.

What a TAP does in a run is told by a `Cycle` for each rising edge: the state the edge finds it in,
and in a shift state the bit that TDI shifts in.
-/

namespace IbexWb.Jtag

/-- The register that is scanned: `enum : bool { JTAG_IR, JTAG_DR }`. -/
inductive Scan where
  | ir
  | dr
deriving DecidableEq, Repr

inductive State where
  | testLogicReset
  | runTestIdle
  | selectDrScan
  | selectIrScan
  | capture (scan : Scan)
  | shift (scan : Scan)
  | exit1 (scan : Scan)
  | pause (scan : Scan)
  | exit2 (scan : Scan)
  | update (scan : Scan)
deriving DecidableEq, Repr

inductive Cycle where
  | visit (state : State)
  | shift (scan : Scan) (tdi : Bool)
deriving DecidableEq, Repr

namespace State

def next (state : State) (tms : Bool) : State :=
  match state with
  | testLogicReset => if tms then testLogicReset else runTestIdle
  | runTestIdle => if tms then selectDrScan else runTestIdle
  | selectDrScan => if tms then selectIrScan else capture .dr
  | selectIrScan => if tms then testLogicReset else capture .ir
  | capture scan => if tms then exit1 scan else shift scan
  | shift scan => if tms then exit1 scan else shift scan
  | exit1 scan => if tms then update scan else pause scan
  | pause scan => if tms then exit2 scan else pause scan
  | exit2 scan => if tms then update scan else shift scan
  | update _ => if tms then selectDrScan else runTestIdle

def cycle (state : State) (tdi : Bool) : Cycle :=
  match state with
  | shift scan => .shift scan tdi
  | state => .visit state

end State

/-! ## Scans -/

/-- The low `count` bits of a value, the least significant first. -/
def shifts (scan : Scan) (value : BitVec 64) (count : Nat) : List Cycle :=
  (List.range count).map fun bit => .shift scan (value.getLsbD bit)

theorem shifts_succ (scan : Scan) (value : BitVec 64) (count : Nat) : shifts scan value (count + 1) =
    .shift scan (value.getLsbD 0) :: shifts scan (value >>> 1) count := by
  have later : ∀ bit, (value >>> 1).getLsbD bit = value.getLsbD (bit + 1) := by
    intro bit
    rw [BitVec.getLsbD_ushiftRight, Nat.add_comm]
  simp only [shifts, List.range_succ_eq_map, List.map_cons, List.map_map, later]
  rfl

end IbexWb.Jtag
