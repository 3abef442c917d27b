import IbexWb.Soc.IbexSoc
import IbexWb.Verified.GrantLaw

/-! # Unmapped requests

A request for an address outside all regions is granted like any other, since the arbiter does
not look at the address, but no slave takes the strobe and nobody answers it.
-/

namespace IbexWb.System

open IbexWb.Synchronous SharedBus
open Core2wb (defaultPending)

section Run

variable {numm nums : Nat} (params : Params nums) (slaves : Fin nums → Slave)
  (input : Nat → Input numm nums) (pending : Nat)

/-- The requests granted in `cycle` are answered in the next one, with an error if unmapped, and
no converter holds the bus for anything else. -/
structure AnsweredNext (cycle : Nat) : Prop where
  rvalid : ∀ i, (seen params slaves input pending (cycle + 1) i).rvalid = true ↔
    (seen params slaves input pending cycle i).gnt = true
  err : ∀ i, (seen params slaves input pending cycle i).gnt = true →
    ((seen params slaves input pending (cycle + 1) i).err = true ↔
      ¬ params.Mapped ((input cycle).core i).addr)
  cyc : ∀ i,
    (wbm (reached params slaves input pending (cycle + 1)) (input (cycle + 1)) i).cyc = true ↔
      ((input (cycle + 1)).core i).req = true ∨ (seen params slaves input pending cycle i).gnt = true

theorem answeredNext_of_decoded (below : params.BelowTop) (capacity : 1 < 2 ^ Nat.clog 2 pending)
    (cycle : Nat)
    (decodes : ∀ earlier, earlier < cycle + 1 → ∀ i,
      (seen params slaves input pending earlier i).gnt = true →
        decoded params ((input earlier).core i).addr = true) :
    AnsweredNext params slaves input pending cycle := by
  have settled := reached_settled params slaves input pending capacity (cycle + 1) decodes
    (cycle + 1) le_rfl
  have held (i : Fin numm) := settled.cyc capacity (timingInput params (input (cycle + 1))) i
  constructor
  · intro i
    rw [seen_rvalid_succ params slaves input pending capacity cycle decodes]
  · intro i granted
    have covered := decodes cycle (Nat.lt_succ_self cycle) i granted
    simp only [decoded, decide_eq_true_eq, below.ss_iff] at covered
    rw [seen_err]
    constructor
    · intro impossible
      exact absurd impossible Bool.false_ne_true
    · intro unmapped
      exact absurd covered unmapped
  · exact held

/-- Every granted request before `last` is answered as it should be exactly when they all address
a region. -/
theorem answeredNext_iff (below : params.BelowTop) (capacity : 1 < 2 ^ Nat.clog 2 pending)
    (last : Nat) :
    (∀ cycle, cycle < last → AnsweredNext params slaves input pending cycle) ↔
      ∀ cycle, cycle < last → ∀ i,
        granted (reached params slaves input pending cycle) (input cycle) i = true →
          params.Mapped ((input cycle).core i).addr := by
  have mapped (adr : Adr) : decoded params adr = true ↔ params.Mapped adr := by
    simp only [decoded, decide_eq_true_eq, below.ss_iff, Params.Mapped]
  -- below the top of the address space the decoder finds exactly the mapped addresses
  simp only [← mapped, ← seen_gnt]
  constructor
  · intro answered cycle bound i granted
    exact decoded_of_rvalid params slaves input pending
      (((answered cycle bound).rvalid i).mpr granted)
  · intro decodes cycle bound
    refine answeredNext_of_decoded params slaves input pending below capacity cycle ?_
    exact fun earlier ordered => decodes earlier (by omega)

end Run

/-! ## `ibex_soc` with the shared bus -/

open IbexSoc (ramSize)

/-- The instruction port fetches once from an address that no slave of the SoC owns. -/
def lostFetch : Nat → Input 3 3
  | 0 => ⟨![.idle, .idle, { CoreMaster.idle with req := true, addr := 0x20000000 }], fun _ => 0⟩
  | _ => ⟨fun _ => .idle, fun _ => 0⟩

/-- In `ibex_soc` with the shared bus the granted requests before `last` are answered in the next
cycle, an unmapped one with an error, exactly when there is no unmapped one. -/
theorem soc_answered_iff (ram : Spramx32.State ramSize.toNat) (input : Nat → Input 3 3) (last : Nat) :
    (∀ cycle, cycle < last →
      AnsweredNext IbexSoc.params (IbexSoc.slaves ram) input defaultPending cycle) ↔
      ∀ cycle, cycle < last → ∀ i,
        granted (reached IbexSoc.params (IbexSoc.slaves ram) input defaultPending cycle)
            (input cycle) i = true →
          IbexSoc.params.Mapped ((input cycle).core i).addr :=
  answeredNext_iff IbexSoc.params (IbexSoc.slaves ram) input defaultPending IbexSoc.params_below
    (by decide) last

/-- The lost fetch is granted in cycle 0 and never answered. -/
theorem lostFetch_unanswered :
    (seen IbexSoc.params (IbexSoc.slaves .cleared) lostFetch defaultPending 0 2).gnt = true ∧
      ¬ AnsweredNext IbexSoc.params (IbexSoc.slaves .cleared) lostFetch defaultPending 0 := by
  have granted : (seen IbexSoc.params (IbexSoc.slaves .cleared) lostFetch defaultPending 0 2).gnt =
      true := by
    rw [seen_gnt]
    decide
  refine ⟨granted, fun answered => ?_⟩
  have decodes := decoded_of_rvalid IbexSoc.params (IbexSoc.slaves .cleared) lostFetch
    defaultPending ((answered.rvalid 2).mpr granted)
  exact absurd decodes (by decide)

end IbexWb.System
