import MetricAgent.Text.Bytes
import Mathlib.Tactic.SplitIfs

/-!
# Texts in the order of their bytes

Names of files are put in order by their bytes, and texts by their characters. The
two orders are one: a smaller character has a smaller encoding, whatever follows
either of them, as the first byte grows with the length of an encoding and the other
bytes are the digits of the character, from the highest one on.
-/

namespace MetricAgent.Text

theorem ofNat_lt_ofNat_iff {a b : Nat} (ha : a < 256) (hb : b < 256) :
    UInt8.ofNat a < UInt8.ofNat b ↔ a < b := by
  rw [UInt8.lt_iff_toNat_lt, UInt8.toNat_ofNat', UInt8.toNat_ofNat', Nat.mod_eq_of_lt ha,
    Nat.mod_eq_of_lt hb]

theorem ofNat_eq_ofNat_iff {a b : Nat} (ha : a < 256) (hb : b < 256) :
    UInt8.ofNat a = UInt8.ofNat b ↔ a = b := by
  rw [← UInt8.toNat_inj, UInt8.toNat_ofNat', UInt8.toNat_ofNat', Nat.mod_eq_of_lt ha,
    Nat.mod_eq_of_lt hb]

/-- A smaller character has a smaller encoding, and none of the two begins the other. -/
theorem utf8EncodeChar_append_lt {c d : Char} (h : c < d) (us vs : List UInt8) :
    String.utf8EncodeChar c ++ us < String.utf8EncodeChar d ++ vs := by
  have hlt : c.val.toNat < d.val.toNat := h
  have hmax : d.val.toNat < 0x110000 := by
    rcases d.valid with hlow | hhigh
    · have hlow : d.val.toNat < 0xd800 := hlow
      omega
    · exact hhigh.2
  unfold String.utf8EncodeChar
  generalize c.val.toNat = m at *
  generalize d.val.toNat = n at *
  -- What is above a digit ends in the digit before it.
  have hdigits : ∀ k, k / 64 / 64 = k / 4096 ∧ k / 4096 / 64 = k / 262144 := fun k =>
    ⟨Nat.div_div_eq_div_mul k 64 64, Nat.div_div_eq_div_mul k 4096 64⟩
  have hm := hdigits m
  have hn := hdigits n
  have hmtop : m / 262144 % 8 = m / 262144 := Nat.mod_eq_of_lt (by omega)
  have hntop : n / 262144 % 8 = n / 262144 := Nat.mod_eq_of_lt (by omega)
  dsimp only
  rw [hmtop, hntop]
  split_ifs
  all_goals
    simp (disch := omega) only [List.cons_append, List.nil_append, List.cons_lt_cons_iff,
      ofNat_lt_ofNat_iff, ofNat_eq_ofNat_iff]
    omega

theorem bytes_lt_bytes {s t : String} (h : s < t) : bytes s < bytes t := by
  have hchars : ∀ cs ds : List Char, cs < ds →
      cs.flatMap String.utf8EncodeChar < ds.flatMap String.utf8EncodeChar := by
    intro cs ds hlt
    induction hlt with
    | @nil d ds =>
        obtain ⟨b, bs, hd⟩ := List.exists_cons_of_ne_nil (String.utf8EncodeChar_ne_nil (c := d))
        rw [List.flatMap_nil, List.flatMap_cons, hd]
        exact List.nil_lt_cons _ _
    | @cons c cs ds _ ih =>
        rw [List.flatMap_cons, List.flatMap_cons]
        exact List.append_left_lt ih
    | rel hcd =>
        rw [List.flatMap_cons, List.flatMap_cons]
        exact utf8EncodeChar_append_lt hcd _ _
  exact hchars _ _ (String.lt_iff.1 h)

/-- The order of the bytes is that of the characters. -/
theorem bytes_lt_bytes_iff {s t : String} : bytes s < bytes t ↔ s < t := by
  refine ⟨fun h => ?_, bytes_lt_bytes⟩
  rw [← Decidable.not_not (p := s < t), String.not_lt]
  intro hle
  by_cases heq : t = s
  · subst heq
    exact List.lt_irrefl _ h
  · exact List.lt_asymm h (bytes_lt_bytes (Std.lt_of_le_of_ne hle heq))

end MetricAgent.Text
