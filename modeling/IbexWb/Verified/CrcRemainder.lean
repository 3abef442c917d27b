import IbexWb.Binary.Remainder
import IbexWb.Sw.Crc32

/-! # The checksum of `crc_32.c`

Each entry of the table is the feedback of eight shifts, so `UPDC32` absorbs the bits of an octet
from the lowest one on.  The checksum of any octets is then the remainder of their polynomial.
-/

namespace IbexWb.Crc32

open Binary Binary.Lfsr

/-- The polynomial with the highest-order term in the lowest-order bit. -/
def feedback : BitVec 32 := 0xedb88320

/-- The low eight bits, from the lowest one on. -/
def octetBits (octet : BitVec 32) : List Bool := (List.range 8).map octet.getLsbD

/-- The register behind some octets. -/
def crcOf (octets : List (BitVec 32)) (crc : BitVec 32) : BitVec 32 :=
  octets.foldl (fun crc octet => updc32 octet crc) crc

theorem crcOf_cons (octet : BitVec 32) (octets : List (BitVec 32)) (crc : BitVec 32) :
    crcOf (octet :: octets) crc = crcOf octets (updc32 octet crc) := by
  rw [crcOf, List.foldl_cons, crcOf]

/-! ## The table -/

theorem crc32Tab_eq (index : BitVec 8) :
    element crc32Tab index = (shift feedback)^[8] (index.setWidth 32) :=
  element_of_range (f := fun index => (shift feedback)^[8] (index.setWidth 32))
    (by decide +kernel) index

theorem low_eq_setWidth (word : BitVec 32) : low 8 word = (word.setWidth 8).setWidth 32 := by
  apply BitVec.eq_of_getLsbD_eq
  intro bit inside
  rw [getLsbD_low, BitVec.getLsbD_setWidth, BitVec.getLsbD_setWidth, decide_eq_true inside,
    Bool.true_and, Bool.and_comm]

theorem low_shift_eq_zero (word : BitVec 32) : low 8 word >>> 8 = 0 := by
  rw [low_eq_setWidth]
  apply BitVec.eq_of_getLsbD_eq
  intro bit _
  simp

/-- `UPDC32` absorbs the eight bits of an octet. -/
theorem updc32_eq (octet crc : BitVec 32) :
    updc32 octet crc = (octetBits octet).foldl (absorb feedback) crc := by
  have index : ((crc ^^^ (octet.setWidth 8).setWidth 32).setWidth 8).setWidth 32 =
      low 8 (crc ^^^ low 8 octet) := by
    rw [low_eq_setWidth, low_eq_setWidth]
  rw [octetBits, foldl_absorb feedback (by decide), shifts_eq, updc32, crc32Tab_eq, setWidth_and,
    index, BitVec.ushiftRight_xor_distrib, low_shift_eq_zero]
  simp

theorem crcOf_eq (octets : List (BitVec 32)) (crc : BitVec 32) :
    crcOf octets crc = (octets.flatMap octetBits).foldl (absorb feedback) crc := by
  induction octets generalizing crc with
  | nil => rfl
  | cons octet rest inductionHypothesis =>
    rw [crcOf_cons, List.flatMap_cons, List.foldl_append, ← updc32_eq, inductionHypothesis]

theorem pseudo_eq (count : Nat) (seed crc : BitVec 32) : pseudo count seed crc =
    ((Beebsc.draws count seed).2, crcOf (Beebsc.draws count seed).1 crc) := by
  induction count generalizing seed crc with
  | zero => rfl
  | succ count inductionHypothesis =>
    rw [pseudo, inductionHypothesis, Beebsc.draws, crcOf_cons]

theorem not_crc32pseudo (seed : BitVec 32) :
    ~~~(crc32pseudo seed).2 = crcOf (Beebsc.draws 1024 seed).1 0xFFFFFFFF := by
  simp only [crc32pseudo, pseudo_eq, BitVec.not_not]

/-! ## Remainders -/

section Polynomials

open Polynomial

/-- The polynomial of the standard. -/
noncomputable def standard : (ZMod 2)[X] :=
  X ^ 32 + X ^ 26 + X ^ 23 + X ^ 22 + X ^ 16 + X ^ 12 + X ^ 11 + X ^ 10 + X ^ 8 + X ^ 7 + X ^ 5 +
    X ^ 4 + X ^ 2 + X ^ 1 + X ^ 0

theorem generator_feedback : generator feedback = standard := by
  rw [generator, coefficients, standard]
  simp [Fin.sum_univ_succ, feedback]
  ring

theorem length_octetBits (octet : BitVec 32) : (octetBits octet).length = 8 := by
  rw [octetBits, List.length_map, List.length_range]

theorem length_flatMap_octetBits (octets : List (BitVec 32)) :
    (octets.flatMap octetBits).length = 8 * octets.length := by
  induction octets with
  | nil => rfl
  | cons octet rest inductionHypothesis =>
    rw [List.flatMap_cons, List.length_append, length_octetBits, inductionHypothesis,
      List.length_cons]
    omega

/-- The octets of `crc32pseudo` leave the remainder of their polynomial, and so do any others. -/
theorem leaves_remainder : (∀ octets crc, coefficients (crcOf octets crc) =
      (X ^ (8 * octets.length) * coefficients crc +
        X ^ 32 * message (octets.flatMap octetBits)) %ₘ standard) ∧
    ∀ seed, coefficients (~~~(crc32pseudo seed).2) =
      (X ^ (8 * 1024) * coefficients (0xFFFFFFFF : BitVec 32) +
        X ^ 32 * message ((Beebsc.draws 1024 seed).1.flatMap octetBits)) %ₘ standard := by
  have remainder (octets : List (BitVec 32)) (crc : BitVec 32) : coefficients (crcOf octets crc) =
      (X ^ (8 * octets.length) * coefficients crc +
        X ^ 32 * message (octets.flatMap octetBits)) %ₘ standard := by
    rw [crcOf_eq, coefficients_foldl_absorb (by decide), generator_feedback,
      length_flatMap_octetBits]
  refine ⟨remainder, fun seed => ?_⟩
  rw [not_crc32pseudo, remainder, Beebsc.length_draws]

end Polynomials

/-! ## Errors -/

/-- Octets that differ within 32 consecutive bits are told from each other. -/
theorem detects_burst {sent received : List (BitVec 32)} {front left right back : List Bool}
    (sentBits : sent.flatMap octetBits = front ++ left ++ back)
    (receivedBits : received.flatMap octetBits = front ++ right ++ back)
    (short : left.length ≤ 32) (same : left.length = right.length) (differ : left ≠ right)
    (crc : BitVec 32) : crcOf sent crc ≠ crcOf received crc := by
  rw [crcOf_eq, crcOf_eq, sentBits, receivedBits]
  exact foldl_burst_ne feedback (by decide) front back short same differ crc

theorem detects_burst_swapped : crcOf [0x41, 0x42] 0xFFFFFFFF ≠ crcOf [0x42, 0x41] 0xFFFFFFFF := by
  have alone (octets : List (BitVec 32)) :
      octets.flatMap octetBits = [] ++ octets.flatMap octetBits ++ [] := (List.append_nil _).symm
  exact detects_burst (alone [0x41, 0x42]) (alone [0x42, 0x41]) (by decide) (by decide) (by decide)
    0xFFFFFFFF

/-! ## Reception -/

/-- A word in the order low-byte to high-byte. -/
def trailer (word : BitVec 32) : List (BitVec 32) := [word, word >>> 8, word >>> 16, word >>> 24]

theorem flatMap_trailer (word : BitVec 32) :
    (trailer word).flatMap octetBits = (List.range 32).map word.getLsbD := by
  simp [trailer, octetBits, List.range_succ]

theorem crcOf_trailer (word crc : BitVec 32) :
    crcOf (trailer word) crc = (shift feedback)^[32] (crc ^^^ word) := by
  rw [crcOf_eq, flatMap_trailer, foldl_absorb feedback (by decide), low_width]

/-- Behind the octets and their checksum the register always holds the same word, and behind
anything else in place of the checksum it does not. -/
theorem received_iff (octets : List (BitVec 32)) (crc word : BitVec 32) :
    crcOf (octets ++ trailer word) crc = 0xdebb20e3 ↔ word = ~~~crcOf octets crc := by
  have residue : (shift feedback)^[32] (BitVec.allOnes 32) = 0xdebb20e3 := by decide
  have split : crcOf (octets ++ trailer word) crc =
      (shift feedback)^[32] (crcOf octets crc ^^^ word) := by
    rw [← crcOf_trailer, crcOf, List.foldl_append]
    rfl
  -- the residue is what a word of ones leaves, and no other word leaves it
  have injective := (shift_injective feedback (by decide)).iterate 32
  rw [split, ← residue, injective.eq_iff]
  constructor
  · intro ones
    rw [← BitVec.xor_allOnes, ← ones, ← BitVec.xor_assoc, BitVec.xor_self, BitVec.zero_xor]
  · rintro rfl
    rw [← BitVec.xor_allOnes, ← BitVec.xor_assoc, BitVec.xor_self, BitVec.zero_xor]

end IbexWb.Crc32
