import IbexWb.Soc.System
import Mathlib.Data.Fin.VecNotation

/-! # `ibex_soc` with the shared bus

`WBInterconnet` chooses between the crossbar and the shared bus, which is modelled here.  The
default of the parameter is the crossbar.  The masters are, from the highest priority on, the debug module, the data port and the
instruction port of the core.  The slaves are the debug module, the RAM and the LED port.
-/

namespace IbexWb.IbexSoc

open SharedBus

def ramBaseAddr : Adr := 0x00000000
def ramSize : Adr := 0x10000

def ledBaseAddr : Adr := 0x10000000
def ledSize : Adr := 0x1000

def dmBaseAddr : Adr := 0x1A110000
def dmSize : Adr := 0x1000

def params : Params 3 where
  baseAddr := ![dmBaseAddr, ramBaseAddr, ledBaseAddr]
  size := ![dmSize, ramSize, ledSize]

/-- The slaves after reset, with any contents of the RAM and of its output register. -/
def slaves (ram : Spramx32.State ramSize.toNat) : Fin 3 → Slave :=
  ![.dm false, .spramx32 ramSize.toNat ⟨ram, false⟩, .led 4 ⟨0, false⟩]

theorem params_below : params.BelowTop := by decide

end IbexWb.IbexSoc
