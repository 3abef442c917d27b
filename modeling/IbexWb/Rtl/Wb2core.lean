import IbexWb.Rtl.Interfaces
import IbexWb.Synchronous.Machine

/-! # `wb2core`: Wishbone to core memory interface converter

The converter holds one register, `resp`: whether a strobe was taken in the cycle before.  It
passes an answer of the core side on only while `resp` and `cyc` are high.  `core` are the signals
driven to the core side, `wb` those driven to the bus.
-/

namespace IbexWb.Wb2core

open IbexWb.Synchronous (Machine)

def core (wb : WbMaster) : CoreMaster where
  req := wb.cyc && wb.stb
  we := wb.we
  be := wb.sel
  addr := wb.adr
  wdata := wb.datM

def wb (resp : Bool) (wb : WbMaster) (core : CoreSlave) : WbSlave where
  ack := resp && wb.cyc && core.rvalid && !core.err
  err := resp && wb.cyc && core.rvalid && core.err
  stall := !core.gnt
  datS := core.rdata

def next (resp : Bool) (wb : WbMaster) (core : CoreSlave) : Bool :=
  wb.cyc && wb.stb && !(Wb2core.wb resp wb core).stall

def machine : Machine (WbMaster × CoreSlave) Bool (CoreMaster × WbSlave) where
  next resp port := next resp port.1 port.2
  out resp port := (core port.1, wb resp port.1 port.2)

/-- `resp` after a cycle says whether the core side granted a request in it. -/
theorem next_eq (resp : Bool) (wb : WbMaster) (core : CoreSlave) :
    next resp wb core = ((Wb2core.core wb).req && core.gnt) := by
  simp [next, Wb2core.core, Wb2core.wb]

theorem exclusive (resp : Bool) (wb : WbMaster) (core : CoreSlave) :
    ((Wb2core.wb resp wb core).ack && (Wb2core.wb resp wb core).err) = false := by
  cases erroneous : core.err <;> simp [Wb2core.wb, erroneous]

end IbexWb.Wb2core
