import IbexWb.Jtag.Tap

/-! # The JTAG driver of the debug simulation

`drive` is called in each time step of the simulation.  When it sees TCK fall it makes one move:
it sets TMS and TDI for the next rising edge and goes to the state it expects the TAP in after
that edge.  The branches of the source for the two scan columns are the same but for the column;
here the column is an index of the state.

A transaction is an object that the driver shifts in place.  The objects of the queue are
distinct, so a move changes the one it is called for and no other.
-/

namespace IbexWb.Jtag

structure Transaction where
  mode : Scan
  req : BitVec 64
  len : BitVec 64
deriving DecidableEq, Repr

/-- The pins of `top` that the driver reads and drives. -/
structure Pins where
  tck : Bool
  tms : Bool
  tdi : Bool
deriving DecidableEq, Repr

structure Driver where
  pastTck : Bool
  rdy : Bool
  bits : BitVec 32
  idle : BitVec 32
  state : State
deriving DecidableEq, Repr

/-- What a call of `drive` works on. -/
structure Call where
  driver : Driver
  top : Pins
  xaction : Transaction
deriving DecidableEq, Repr

def numIdle : BitVec 32 := 8

/-- The move at a falling edge. -/
def move (call : Call) : Call :=
  let driver := call.driver
  let top := call.top
  let xaction := call.xaction
  match driver.state with
  | .testLogicReset =>
    { call with
      driver := { driver with idle := 0, state := .runTestIdle }
      top := { top with tms := false } }
  | .runTestIdle =>
    let driver := { driver with bits := 0, idle := driver.idle + 1 }
    if driver.idle.slt numIdle then
      { call with
        driver := { driver with state := .runTestIdle }
        top := { top with tms := false } }
    else
      { call with
        driver := { driver with state := .selectDrScan }
        top := { top with tms := true } }
  | .selectDrScan =>
    if xaction.mode = .ir then
      { call with
        driver := { driver with state := .selectIrScan }
        top := { top with tms := true } }
    else
      { call with
        driver := { driver with state := .capture .dr }
        top := { top with tms := false } }
  | .selectIrScan =>
    { call with
      driver := { driver with state := .capture .ir }
      top := { top with tms := false } }
  | .capture scan =>
    { call with
      driver := { driver with state := .shift scan }
      top := { top with tms := false } }
  | .shift scan =>
    let tdi := xaction.req.getLsbD 0
    let xaction := { xaction with req := xaction.req >>> 1 }
    -- `bits` is converted to the unsigned type of `len`
    let more := (driver.bits.signExtend 64).ult (xaction.len - 1)
    let driver := { driver with bits := driver.bits + 1 }
    if more then
      { driver := { driver with state := .shift scan }
        top := { top with tdi := tdi, tms := false }
        xaction := xaction }
    else
      { driver := { driver with state := .exit1 scan }
        top := { top with tdi := tdi, tms := true }
        xaction := xaction }
  | .exit1 scan =>
    { call with
      driver := { driver with state := .pause scan }
      top := { top with tms := false, tdi := xaction.req.getLsbD 0 } }
  | .pause scan =>
    { call with
      driver := { driver with state := .exit2 scan }
      top := { top with tms := true } }
  | .exit2 scan =>
    { call with
      driver := { driver with state := .update scan }
      top := { top with tms := true } }
  | .update _ =>
    { call with
      driver := { driver with idle := 0, state := .runTestIdle, rdy := true }
      top := { top with tms := false } }

def drive (call : Call) : Call :=
  let call := { call with driver := { call.driver with rdy := false } }
  let call := if call.driver.pastTck && !call.top.tck then move call else call
  { call with driver := { call.driver with pastTck := call.top.tck } }

theorem move_tck (call : Call) : (move call).top.tck = call.top.tck := by
  obtain ⟨⟨pastTck, rdy, bits, idle, state⟩, top, xaction⟩ := call
  cases state with
  | runTestIdle =>
    simp only [move]
    split <;> rfl
  | selectDrScan =>
    simp only [move]
    split <;> rfl
  | shift scan =>
    simp only [move]
    split <;> rfl
  | _ => rfl

/-- The driver does not touch the clock. -/
theorem drive_tck (call : Call) : (drive call).top.tck = call.top.tck := by
  simp only [drive]
  split
  · exact move_tck _
  · rfl

theorem drive_fall {call : Call} (past : call.driver.pastTck = true) (low : call.top.tck = false)
    (busy : call.driver.rdy = false) : drive call =
      { move call with driver := { (move call).driver with pastTck := (move call).top.tck } } := by
  obtain ⟨⟨pastTck, rdy, bits, idle, state⟩, ⟨tck, tms, tdi⟩, xaction⟩ := call
  obtain rfl : pastTck = true := past
  obtain rfl : tck = false := low
  obtain rfl : rdy = false := busy
  rfl

/-- A call that sees no falling edge only takes `rdy` back. -/
theorem drive_still {call : Call} (still : call.driver.pastTck = true → call.top.tck = true) :
    drive call =
      { call with driver := { call.driver with rdy := false, pastTck := call.top.tck } } := by
  have quiet : ¬ (call.driver.pastTck && !call.top.tck) = true := by
    intro fell
    simp only [Bool.and_eq_true, Bool.not_eq_true'] at fell
    exact Bool.false_ne_true (fell.2.symm.trans (still fell.1))
  simp only [drive]
  rw [if_neg quiet]

end IbexWb.Jtag
