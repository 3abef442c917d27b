import IbexWb.Synchronous.Machine

/-! # Clock and reset generator

`crg` divides the 100 MHz clock by two and synchronizes the release of the external reset with
the divided clock.  Both inputs are wires whose edges come in any order, one after the other.
The divider is the simulation model of `clkgen_50mhz`.
-/

namespace IbexWb

open IbexWb.Synchronous

namespace SyncReset

variable {N : Nat}

-- `q <= {q[N-2:0], 1'b1}`
def shift (q : BitVec N) : BitVec N := (q.setWidth (N - 1) ++ 1#1).setWidth N

/-- What `q` is loaded with at `posedge clk` and at `negedge ext_rst_n`. -/
def next (q : BitVec N) (extRstN : Bool) : BitVec N := if !extRstN then 0 else shift q

def rstN (q : BitVec N) : Bool := q.getLsbD (N - 1)

end SyncReset

namespace Crg

/-- The levels of the two inputs, of the divided clock, and the shift register. -/
structure State (N : Nat) where
  clk100m : Bool
  extRstN : Bool
  clk : Bool
  q : BitVec N

/-- One of the inputs changes its level. -/
inductive Edge where
  | clk100m
  | extRstN
deriving DecidableEq, Repr

variable {N : Nat}

def next (state : State N) : Edge → State N
  | .clk100m =>
    -- `clk_out1 <= ~clk_out1` at `posedge clk_in1`
    let clk := if !state.clk100m then !state.clk else state.clk
    { state with
      clk100m := !state.clk100m
      clk := clk
      q := if !state.clk && clk then SyncReset.next state.q state.extRstN else state.q }
  | .extRstN =>
    { state with
      extRstN := !state.extRstN
      q := if state.extRstN then SyncReset.next state.q (!state.extRstN) else state.q }

def machine (N : Nat) : Machine Edge (State N) Bool where
  next := next
  out state _ := SyncReset.rstN state.q

end Crg

end IbexWb
