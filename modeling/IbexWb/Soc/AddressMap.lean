import IbexWb.Soc.SharedBus

/-! # The address map of the shared bus

`Params.Covers` reads a region as an interval of integers, `SharedBus.ss` is the comparison the
interconnect makes.  They differ for a region whose end is not a 32-bit number: there the sum
`base_addr[i] + size[i]` wraps and the comparison never holds.
-/

namespace IbexWb.SharedBus

/-- The smallest map that the fixed runs use: one region of 16 bytes. -/
def oneRegion : Params 1 := ⟨fun _ => 0, fun _ => 16⟩

variable {nums : Nat} (params : Params nums)

def Params.limit (i : Fin nums) : Nat := (params.baseAddr i).toNat + (params.size i).toNat

/-- The address lies in region `i`, an interval of integers. -/
def Params.Covers (i : Fin nums) (adr : Adr) : Prop :=
  (params.baseAddr i).toNat ≤ adr.toNat ∧ adr.toNat < params.limit i

instance (i : Fin nums) (adr : Adr) : Decidable (params.Covers i adr) :=
  inferInstanceAs (Decidable (_ ∧ _))

def Params.Disjoint : Prop :=
  ∀ i j adr, params.Covers i adr → params.Covers j adr → i = j

/-- Every region ends below the top of the address space. -/
def Params.BelowTop : Prop := ∀ i, params.limit i < 2 ^ 32

instance : Decidable params.BelowTop :=
  inferInstanceAs (Decidable (∀ _, _))

def Params.Mapped (adr : Adr) : Prop := ∃ i, params.Covers i adr

instance (adr : Adr) : Decidable (params.Mapped adr) :=
  inferInstanceAs (Decidable (∃ _, _))

/-- The comparison selects the slaves whose region covers the address and ends below the top. -/
theorem ss_eq_true {adr : Adr} {i : Fin nums} :
    ss params adr i = true ↔ params.Covers i adr ∧ params.limit i < 2 ^ 32 := by
  have base := (params.baseAddr i).isLt
  have size := (params.size i).isLt
  simp only [ss, Bool.and_eq_true, decide_eq_true_eq, ge_iff_le, BitVec.le_def, BitVec.lt_def,
    BitVec.toNat_add, Params.Covers, Params.limit]
  omega

variable {params}

theorem Params.covers_of_ss {adr : Adr} {i : Fin nums} (selected : ss params adr i = true) :
    params.Covers i adr :=
  ((ss_eq_true params).mp selected).1

theorem Params.BelowTop.ss_iff (below : params.BelowTop) {adr : Adr} {i : Fin nums} :
    ss params adr i = true ↔ params.Covers i adr :=
  (ss_eq_true params).trans (and_iff_left (below i))

/-- With disjoint regions the comparison is one-hot on every address it selects at all. -/
theorem Params.Disjoint.ss_oneHot (disjoint : params.Disjoint) {adr : Adr} {i : Fin nums}
    (selected : ss params adr i = true) (j : Fin nums) : ss params adr j = true ↔ j = i := by
  constructor
  · exact fun other => disjoint j i adr (covers_of_ss other) (covers_of_ss selected)
  · rintro rfl
    exact selected

end IbexWb.SharedBus
