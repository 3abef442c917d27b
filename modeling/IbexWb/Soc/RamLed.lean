import IbexWb.Soc.System
import Mathlib.Data.Fin.VecNotation

/-! # A RAM and a LED port behind the shared bus

`RamLed` is an address map for one `wb_spramx32` and one `wb_led` that carries the conditions
under which the two slaves decode their part of the address as the map means it: the RAM takes
the word index from the low bits of the address, the LED port compares bits 11 to 2 with zero.
-/

namespace IbexWb

open SharedBus

/-- The RAM sits on a multiple of the next power of two, the LED port on a multiple of 4 KiB. -/
structure RamLed where
  ramBase : Adr
  ramSize : Nat
  ledBase : Adr
  whole : 4 ∣ ramSize
  least : 8 ≤ ramSize
  ramAligned : 2 ^ Nat.clog 2 ramSize ∣ ramBase.toNat
  ramBelow : ramBase.toNat + ramSize < 2 ^ 32
  ledAligned : 4096 ∣ ledBase.toNat
  apart : ramBase.toNat + ramSize ≤ ledBase.toNat ∨ ledBase.toNat + 4096 ≤ ramBase.toNat

namespace RamLed

variable (map : RamLed)

def params : Params 2 where
  baseAddr := ![map.ramBase, map.ledBase]
  size := ![BitVec.ofNat 32 map.ramSize, 0x1000]

def slaves (N : Nat) (ram : Spramx32.State map.ramSize) : Fin 2 → Slave :=
  ![.spramx32 map.ramSize ⟨ram, false⟩, .led N ⟨0, false⟩]

/-- The address with its low two bits dropped. -/
def wordAddress (adr : Adr) : Nat := adr.toNat / 4 * 4

/-! ## The two regions -/

theorem limit_ram : map.params.limit 0 = map.ramBase.toNat + map.ramSize := by
  have below := map.ramBelow
  show map.ramBase.toNat + (BitVec.ofNat 32 map.ramSize).toNat = _
  rw [BitVec.toNat_ofNat, Nat.mod_eq_of_lt (by omega)]

theorem covers_ram {adr : Adr} :
    map.params.Covers 0 adr ↔
      map.ramBase.toNat ≤ adr.toNat ∧ adr.toNat < map.ramBase.toNat + map.ramSize := by
  rw [← limit_ram]
  rfl

theorem covers_led {adr : Adr} :
    map.params.Covers 1 adr ↔
      map.ledBase.toNat ≤ adr.toNat ∧ adr.toNat < map.ledBase.toNat + 4096 := Iff.rfl

theorem not_covers_both {adr : Adr} (ram : map.params.Covers 0 adr) : ¬ map.params.Covers 1 adr := by
  have apart := map.apart
  rw [covers_ram] at ram
  rw [covers_led]
  omega

theorem disjoint : map.params.Disjoint := by
  intro i j adr left right
  match i, j with
  | 0, 0 => rfl
  | 0, 1 => exact absurd right (map.not_covers_both left)
  | 1, 0 => exact absurd left (map.not_covers_both right)
  | 1, 1 => rfl

/-- The region of the RAM ends below the top of the address space, so it is always selected. -/
theorem ss_ram {adr : Adr} : ss map.params adr 0 = true ↔ map.params.Covers 0 adr := by
  rw [ss_eq_true, limit_ram]
  exact and_iff_left map.ramBelow

/-! ## The RAM's part of the address -/

theorem three_le_clog : 3 ≤ Nat.clog 2 map.ramSize :=
  Nat.clog_mono_right 2 map.least

theorem ramBase_mod_four : map.ramBase.toNat % 4 = 0 := by
  have four : 4 ∣ 2 ^ Nat.clog 2 map.ramSize :=
    Nat.pow_dvd_pow 2 (Nat.le_of_succ_le map.three_le_clog)
  exact Nat.mod_eq_zero_of_dvd (Nat.dvd_trans four map.ramAligned)

variable {map}

/-- The RAM finds the word by its distance from the start of the region. -/
theorem ramAddr_toNat {wb : WbMaster} (covers : map.params.Covers 0 wb.adr) :
    (WbSpramx32.ramAddr map.ramSize wb).toNat = (wb.adr.toNat - map.ramBase.toNat) / 4 := by
  obtain ⟨above, below⟩ := map.covers_ram.mp covers
  obtain ⟨count, base⟩ := map.ramAligned
  have three := map.three_le_clog
  have fits : map.ramSize ≤ 2 ^ Nat.clog 2 map.ramSize := Nat.le_pow_clog Nat.one_lt_two _
  have split : 2 ^ Nat.clog 2 map.ramSize = 2 ^ (Nat.clog 2 map.ramSize - 2) * 4 := by
    rw [← Nat.pow_add 2 _ 2]
    congr 1
    omega
  rw [WbSpramx32.ramAddr, BitVec.extractLsb'_toNat, Nat.shiftRight_eq_div_pow]
  -- the base is a multiple of all that the index can count, so the index counts from it
  rw [split] at base fits
  generalize 2 ^ (Nat.clog 2 map.ramSize - 2) = words at *
  have start : map.ramBase.toNat = 4 * (words * count) := by
    rw [base, Nat.mul_right_comm, Nat.mul_comm]
  have quotient : wb.adr.toNat / 2 ^ 2 =
      words * count + (wb.adr.toNat - map.ramBase.toNat) / 4 := by omega
  rw [quotient, Nat.mul_add_mod, Nat.mod_eq_of_lt]
  omega

theorem wordAddress_ram {adr : Adr} (covers : map.params.Covers 0 adr) :
    wordAddress adr = map.ramBase.toNat + 4 * ((adr.toNat - map.ramBase.toNat) / 4) := by
  obtain ⟨above, _⟩ := map.covers_ram.mp covers
  have aligned := map.ramBase_mod_four
  rw [wordAddress]
  omega

theorem index_lt {adr : Adr} (covers : map.params.Covers 0 adr) :
    (adr.toNat - map.ramBase.toNat) / 4 < map.ramSize >>> 2 := by
  obtain ⟨above, below⟩ := map.covers_ram.mp covers
  obtain ⟨count, size⟩ := map.whole
  rw [Nat.shiftRight_eq_div_pow, size]
  omega

/-! ## The LED port's part of the address -/

theorem select_iff {wb : WbMaster} (covers : map.params.Covers 1 wb.adr) :
    WbLed.select wb = true ↔ wordAddress wb.adr = map.ledBase.toNat := by
  obtain ⟨above, below⟩ := map.covers_led.mp covers
  obtain ⟨count, aligned⟩ := map.ledAligned
  rw [WbLed.select, decide_eq_true_eq, ← BitVec.toNat_inj, BitVec.extractLsb'_toNat,
    Nat.shiftRight_eq_div_pow, wordAddress]
  show wb.adr.toNat / 4 % 1024 = 0 ↔ _
  omega

end RamLed

end IbexWb
