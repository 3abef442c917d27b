import Mathlib.Algebra.Group.Equiv.Basic

/-! # Key-alternating ciphers

A block is substituted and mixed in each round, and a round key is added after it; a key is also
added before the first round, and the last round does not mix.  As mixing is additive, the inverse
has the same shape: the inverse parts take the negated keys in the reverse order, those of the
inner rounds mixed back.
-/

namespace IbexWb.Cipher

variable {B : Type*} [AddCommGroup B]

structure Parts (B : Type*) [AddCommGroup B] where
  sub : Equiv.Perm B
  mix : B ≃+ B

structure Schedule (B : Type*) where
  first : B
  inner : List B
  last : B

def Schedule.invert (mix : B ≃+ B) (keys : Schedule B) : Schedule B where
  first := -keys.last
  inner := (keys.inner.map fun key => -mix.symm key).reverse
  last := -keys.first

theorem Schedule.invert_invert (mix : B ≃+ B) (keys : Schedule B) :
    (keys.invert mix).invert mix.symm = keys := by
  obtain ⟨first, inner, last⟩ := keys
  simp [invert, Function.comp_def]

namespace Parts

variable (parts : Parts B)

def round (block key : B) : B := parts.mix (parts.sub block) + key

def encrypt (keys : Schedule B) (block : B) : B :=
  parts.sub (keys.inner.foldl parts.round (block + keys.first)) + keys.last

def inverse : Parts B := ⟨parts.sub.symm, parts.mix.symm⟩

/-- Behind the substitution a round is undone by a round of the inverse parts. -/
theorem inverse_round (block key : B) :
    parts.inverse.round (parts.sub (parts.round block key)) (-parts.mix.symm key) =
      parts.sub block := by
  rw [round, inverse, Equiv.symm_apply_apply, round, map_add, AddEquiv.symm_apply_apply,
    add_neg_cancel_right]

theorem foldl_inverse (inner : List B) (block : B) :
    (inner.map fun key => -parts.mix.symm key).reverse.foldl parts.inverse.round
      (parts.sub (inner.foldl parts.round block)) = parts.sub block := by
  induction inner generalizing block with
  | nil => rfl
  | cons key rest inductionHypothesis =>
    rw [List.map_cons, List.reverse_cons, List.foldl_append, List.foldl_cons, List.foldl_cons,
      inductionHypothesis]
    exact parts.inverse_round block key

theorem inverse_encrypt (keys : Schedule B) (block : B) :
    parts.inverse.encrypt (keys.invert parts.mix) (parts.encrypt keys block) = block := by
  have start : parts.encrypt keys block + (keys.invert parts.mix).first =
      parts.sub (keys.inner.foldl parts.round (block + keys.first)) := by
    rw [encrypt, Schedule.invert, add_neg_cancel_right]
  rw [encrypt, start, Schedule.invert, foldl_inverse, inverse, Equiv.symm_apply_apply,
    add_neg_cancel_right]

/-- The permutation of the blocks that a schedule chooses. -/
def cipher (keys : Schedule B) : Equiv.Perm B where
  toFun := parts.encrypt keys
  invFun := parts.inverse.encrypt (keys.invert parts.mix)
  left_inv := parts.inverse_encrypt keys
  right_inv block := by
    have back := parts.inverse.inverse_encrypt (keys.invert parts.mix) block
    rwa [show parts.inverse.mix = parts.mix.symm from rfl, keys.invert_invert] at back

end Parts

end IbexWb.Cipher
