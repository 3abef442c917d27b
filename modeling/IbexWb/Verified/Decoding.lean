import IbexWb.Soc.Xbar

/-! # Address decoding of the two interconnects

A region is an interval of integers (`Params.Covers`).  The shared bus compares the address with
a sum of 32 bits and so loses a region that ends at the top of the address space; the crossbar has
no sum, but its wrapper packs the map of three slaves only.
-/

namespace IbexWb

open SharedBus

variable {nums : Nat} {params : Params nums}

/-! ## The range comparison -/

namespace SharedBus

/-- Regions are disjoint, not empty and inside the 32-bit address space. -/
structure Params.Map (params : Params nums) : Prop where
  disjoint : params.Disjoint
  nonempty : ∀ i, 0 < (params.size i).toNat
  inside : ∀ i, params.limit i ≤ 2 ^ 32

/-- Decoding is exact at an address, and so are the strobes that carry it: the slave whose region
covers the address is strobed whenever the owner of the bus strobes, and no other slave is. -/
structure DecodesExactly (params : Params nums) (adr : Adr) : Prop where
  exact : ∀ i, ss params adr i = true ↔ params.Covers i adr
  mapped : params.Mapped adr → ∃! i, ss params adr i = true
  unmapped : ¬ params.Mapped adr → ∀ i, ss params adr i = false
  reachable : ∀ (numm : Nat) (wbm : Fin numm → WbMaster) owner, Owner wbm owner →
    (wbm owner).stb = true → (wbm owner).adr = adr →
      ∀ i, params.Covers i adr → (toSlave params wbm i).strobes = true
  single : ∀ (numm : Nat) (wbm : Fin numm → WbMaster) owner, Owner wbm owner →
    (wbm owner).adr = adr → ∀ i j, (toSlave params wbm i).strobes = true →
      (toSlave params wbm j).strobes = true → i = j

theorem selected_of_strobes {numm : Nat} {wbm : Fin numm → WbMaster} {owner : Fin numm}
    (owns : Owner wbm owner) {i : Fin nums} (strobed : (toSlave params wbm i).strobes = true) :
    ss params (wbm owner).adr i = true := by
  obtain ⟨other, otherOwns, _, selected⟩ := (toSlave_strobes_iff params).mp strobed
  rwa [owns.unique otherOwns]

theorem decodesExactly_of_exact (disjoint : params.Disjoint) {adr : Adr}
    (exact : ∀ i, ss params adr i = true ↔ params.Covers i adr) : DecodesExactly params adr where
  exact := exact
  mapped := by
    rintro ⟨i, covers⟩
    have selected := (exact i).mpr covers
    exact ⟨i, selected, fun j other => (disjoint.ss_oneHot selected j).mp other⟩
  unmapped := by
    intro unmapped i
    exact Bool.eq_false_iff.mpr fun selected => unmapped ⟨i, (exact i).mp selected⟩
  reachable := by
    rintro numm wbm owner owns strobe rfl i covers
    exact (toSlave_strobes_iff params).mpr ⟨owner, owns, strobe, (exact i).mpr covers⟩
  single := by
    rintro numm wbm owner owns rfl i j first second
    have selected := selected_of_strobes owns second
    exact (disjoint.ss_oneHot selected i).mp (selected_of_strobes owns first)

theorem decodesExactly_iff_limit (disjoint : params.Disjoint) (adr : Adr) :
    DecodesExactly params adr ↔ ∀ i, params.Covers i adr → params.limit i < 2 ^ 32 := by
  constructor
  · intro decodes i covers
    exact ((ss_eq_true params).mp ((decodes.exact i).mpr covers)).2
  · intro below
    refine decodesExactly_of_exact disjoint fun i => ?_
    rw [ss_eq_true]
    exact and_iff_left_of_imp (below i)

theorem Params.covers_base {i : Fin nums} (nonempty : 0 < (params.size i).toNat) :
    params.Covers i (params.baseAddr i) :=
  ⟨Nat.le_refl _, Nat.lt_add_of_pos_right nonempty⟩

/-- Decoding is exact at all addresses but those of a region that ends at the top, and over the
whole address space exactly for the maps without such a region. -/
theorem decodesExactly_iff (map : params.Map) :
    (∀ adr, DecodesExactly params adr ↔ ∀ i, params.Covers i adr → params.limit i ≠ 2 ^ 32) ∧
      ((∀ adr, DecodesExactly params adr) ↔ ∀ i, params.limit i ≠ 2 ^ 32) := by
  have pointwise : ∀ adr, DecodesExactly params adr ↔
      ∀ i, params.Covers i adr → params.limit i ≠ 2 ^ 32 := by
    intro adr
    rw [decodesExactly_iff_limit map.disjoint]
    exact forall₂_congr fun i _ => (map.inside i).lt_iff_ne
  refine ⟨pointwise, ?_⟩
  constructor
  · intro decodes i
    -- the region is not empty: its base is an address it covers
    exact (pointwise _).mp (decodes _) i (Params.covers_base (map.nonempty i))
  · exact fun ends adr => (pointwise adr).mpr fun i _ => ends i

theorem oneRegion_map : oneRegion.Map where
  disjoint := fun i j _ _ _ => Subsingleton.elim i j
  nonempty := by decide
  inside := by decide

theorem decodesExactly_oneRegion : oneRegion.Map ∧ ∀ adr, DecodesExactly oneRegion adr :=
  ⟨oneRegion_map, (decodesExactly_iff oneRegion_map).2.mpr (by decide)⟩

/-- The last 16 bytes of the address space. -/
def topRegion : Params 1 := ⟨fun _ => 0xfffffff0, fun _ => 16⟩

theorem topRegion_map : topRegion.Map where
  disjoint := fun i j _ _ _ => Subsingleton.elim i j
  nonempty := by decide
  inside := by decide

/-- No address selects a region that ends at the top. -/
theorem topRegion_lost : topRegion.Map ∧ topRegion.Covers 0 0xfffffff0 ∧
    ss topRegion 0xfffffff0 0 = false ∧ ¬ DecodesExactly topRegion 0xfffffff0 := by
  refine ⟨topRegion_map, by decide, by decide, fun decodes => ?_⟩
  exact absurd ((decodes.exact 0).mpr (by decide)) (by decide)

end SharedBus

/-! ## The comparison under a mask -/

namespace Xbar

theorem agree_iff_covers (aligned : Aligned params) (unknown : Params 3) (adr : Adr) :
    (∀ i, decode params unknown adr i = true ↔ ss params adr i = true) ↔
      ∀ i : Fin nums, 3 ≤ i.val → params.Covers i adr := by
  constructor
  · intro agree i further
    exact Params.covers_of_ss ((agree i).mp (decode_of_ge further))
  · intro covers i
    rw [aligned.below.ss_iff]
    by_cases three : i.val < 3
    · exact aligned.decode_iff_covers three
    · have further := Nat.not_lt.mp three
      exact iff_of_true (decode_of_ge further) (covers i further)

/-- A region never covers all addresses. -/
theorem Aligned.exists_not_covers (aligned : Aligned params) (i : Fin nums) :
    ∃ adr, ¬ params.Covers i adr := by
  refine ⟨BitVec.allOnes 32, fun covers => ?_⟩
  have below := aligned.below i
  have top := covers.2
  simp only [BitVec.toNat_allOnes] at top
  omega

/-- The crossbar selects what the shared bus does exactly if each slave after the third is the
right one, so over the whole address space exactly for maps of at most three slaves. -/
theorem decode_eq_ss_iff (aligned : Aligned params) (unknown : Params 3) :
    (∀ adr, (∀ i, decode params unknown adr i = true ↔ ss params adr i = true) ↔
        ∀ i : Fin nums, 3 ≤ i.val → params.Covers i adr) ∧
      ((∀ adr i, decode params unknown adr i = true ↔ ss params adr i = true) ↔ nums ≤ 3) := by
  refine ⟨agree_iff_covers aligned unknown, ?_⟩
  constructor
  · intro agree
    by_contra more
    obtain ⟨adr, outside⟩ := aligned.exists_not_covers ⟨3, Nat.not_le.mp more⟩
    exact outside ((agree_iff_covers aligned unknown adr).mp (agree adr) _ (Nat.le_refl 3))
  · intro few adr
    refine (agree_iff_covers aligned unknown adr).mpr fun i further => ?_
    have bound := i.isLt
    omega

/-- Slaves of 16 bytes, one after the other. -/
def rows (nums : Nat) : Params nums := ⟨fun i => BitVec.ofNat 32 (16 * i), fun _ => 16⟩

theorem rows_aligned {nums : Nat} (few : nums ≤ 4) : Aligned (rows nums) := by
  have base : ∀ i : Fin nums, ((rows nums).baseAddr i).toNat = 16 * i := by
    intro i
    have bound := i.isLt
    exact Nat.mod_eq_of_lt (by omega)
  constructor
  · exact fun _ => ⟨4, rfl⟩
  · intro i
    rw [base]
    exact Nat.dvd_mul_right 16 i
  · intro i
    have bound := i.isLt
    have size : ((rows nums).size i).toNat = 16 := rfl
    rw [Params.limit, base, size]
    omega

theorem agree_rows : Aligned (rows 3) ∧ ∀ adr i, decode (rows 3) (rows 3) adr i = true ↔
    ss (rows 3) adr i = true :=
  ⟨rows_aligned (by decide),
    (decode_eq_ss_iff (rows_aligned (by decide)) (rows 3)).2.mpr (Nat.le_refl 3)⟩

/-- The crossbar selects a fourth slave along with the first. -/
theorem rows_differ : Aligned (rows 4) ∧ decode (rows 4) (rows 3) 0 0 = true ∧
    decode (rows 4) (rows 3) 0 3 = true ∧ ss (rows 4) 0 3 = false :=
  ⟨rows_aligned (by decide), by decide, by decide, by decide⟩

end Xbar

end IbexWb
