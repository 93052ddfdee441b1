import DocAtlas.Text.Lowercase

/-!
# Laws of the lower case

A text of ASCII characters is lowered character by character, for none of them depends on its
neighbours. No character gets a smaller code by it.
-/

namespace DocAtlas.Text

def IsAscii (text : Text) : Prop := ∀ c ∈ text, c.toNat < 0x80

variable {text first second : Text}

theorem lowerAfter_of_isAscii (ascii : IsAscii text) (before : Text) :
    lowerAfter before text = text.map Char.toLower := by
  induction text generalizing before with
  | nil => rfl
  | cons c rest induction =>
    have parts := List.forall_mem_cons.mp ascii
    have noSigma : c.toNat ≠ 0x3a3 := by
      have code := parts.1
      omega
    rw [lowerAfter, if_neg noSigma, lowerChar, if_pos parts.1, induction parts.2]
    rfl

theorem lower_of_isAscii (ascii : IsAscii text) : lower text = text.map Char.toLower :=
  lowerAfter_of_isAscii ascii []

theorem lower_append (ascii : IsAscii (first ++ second)) :
    lower (first ++ second) = lower first ++ lower second := by
  have parts := List.forall_mem_append.mp ascii
  rw [lower_of_isAscii ascii, lower_of_isAscii parts.1, lower_of_isAscii parts.2,
    List.map_append]

theorem le_toNat_toLower (c : Char) : c.toNat ≤ c.toLower.toNat := by
  unfold Char.toLower
  split
  · next upper =>
    have code : c.toNat ≤ 90 := UInt32.le_iff_toNat_le.mp upper.2
    change c.toNat ≤ (c.val + 32).toNat
    rw [UInt32.toNat_add]
    change c.toNat ≤ (c.toNat + 32) % 4294967296
    omega
  · exact Nat.le_refl _

theorem not_mem_lower (ascii : IsAscii text) {low : Char}
    (larger : ∀ c ∈ text, low.toNat < c.toNat) : low ∉ lower text := by
  intro member
  rw [lower_of_isAscii ascii] at member
  rcases List.mem_map.mp member with ⟨c, inside, equal⟩
  have raised := le_toNat_toLower c
  have smaller := larger c inside
  rw [equal] at raised
  omega

end DocAtlas.Text
