import Mathlib.Data.List.Basic
import Mathlib.Data.UInt

/-!
Text in UTF-8 that is cut, or that loses some of its bytes.

A byte string is valid when it is the encoding of some characters. Cutting it leaves it valid
exactly when the byte after the cut starts a character, and it stays valid when some of its one-byte
characters are left out.
-/

namespace Digitiz.Utf8

/-- The bytes are the encoding of some characters. -/
def Valid (s : List UInt8) : Prop := s.toByteArray.IsValidUTF8

lemma valid_iff {s : List UInt8} :
    Valid s ↔ ∃ cs : List Char, s = cs.flatMap String.utf8EncodeChar := by
  constructor
  · rintro ⟨cs, h⟩
    exact ⟨cs, List.toByteArray_inj.mp h⟩
  · rintro ⟨cs, rfl⟩
    exact ⟨cs, rfl⟩

lemma valid_nil : Valid [] := ByteArray.isValidUTF8_empty

lemma Valid.append {s t : List UInt8} (hs : Valid s) (ht : Valid t) : Valid (s ++ t) := by
  rw [Valid, List.toByteArray_append]
  exact ByteArray.IsValidUTF8.append hs ht

/-! ### Cuts -/

/-- The text goes on after `n` bytes, with one that starts no character. -/
def Splits (s : List UInt8) (n : ℕ) : Prop := ∃ c, s[n]? = some c ∧ ¬ c.IsUTF8FirstByte

instance (s : List UInt8) (n : ℕ) : Decidable (Splits s n) :=
  decidable_of_iff (∃ c ∈ s[n]?, ¬ c.IsUTF8FirstByte) Iff.rfl

lemma toByteArray_take {s : List UInt8} {n : ℕ} (h : n ≤ s.length) :
    (s.take n).toByteArray = s.toByteArray.extract 0 n := by
  have hlen : (s.take n).toByteArray.size = n := by
    rw [List.size_toByteArray, List.length_take, min_eq_left h]
  have hsplit : s.toByteArray = (s.take n).toByteArray ++ (s.drop n).toByteArray := by
    rw [← List.toByteArray_append, List.take_append_drop]
  rw [hsplit, ByteArray.extract_append_eq_left hlen.symm]

/-- **A cut leaves the text valid** exactly when it splits no character. -/
theorem valid_take_iff {s : List UInt8} (h : Valid s) (n : ℕ) :
    Valid (s.take n) ↔ ¬ Splits s n := by
  obtain hlen | hlen := Nat.lt_or_ge n s.length
  · let text : String := ⟨s.toByteArray, h⟩
    have hend : text.rawEndPos.byteIdx = s.length := List.size_toByteArray
    have hcut : (String.Pos.Raw.mk n).IsValid text ↔ Valid (s.take n) := by
      rw [String.Pos.Raw.isValid_iff_isValidUTF8_extract_zero, Valid, toByteArray_take hlen.le]
      refine and_iff_right ?_
      rw [String.Pos.Raw.le_iff, hend]
      exact hlen.le
    have hfirst : (String.Pos.Raw.mk n).IsValid text ↔ (s[n]).IsUTF8FirstByte := by
      have hlt : String.Pos.Raw.mk n < text.rawEndPos := by
        rw [String.Pos.Raw.lt_iff, hend]
        exact hlen
      have hne : String.Pos.Raw.mk n ≠ text.rawEndPos := fun he =>
        hlen.ne ((congrArg String.Pos.Raw.byteIdx he).trans hend)
      have hbyte : text.getUTF8Byte ⟨n⟩ hlt = s[n] := List.getElem_toByteArray
      rw [String.Pos.Raw.isValid_iff_isUTF8FirstByte, or_iff_right hne, ← hbyte]
      exact ⟨fun ⟨_, hb⟩ => hb, fun hb => ⟨hlt, hb⟩⟩
    rw [← hcut, hfirst, Splits, List.getElem?_eq_getElem hlen]
    simp
  · rw [List.take_of_length_le hlen]
    refine iff_of_true h ?_
    rintro ⟨c, hc, -⟩
    rw [List.getElem?_eq_none hlen] at hc
    exact absurd hc nofun

/-! ### Bytes left out -/

section filter

variable {keep : UInt8 → Bool}

/-- A character is one byte below 128, or has none. -/
lemma utf8EncodeChar_cases (c : Char) : (∃ b, String.utf8EncodeChar c = [b]) ∨
    ∀ b ∈ String.utf8EncodeChar c, 128 ≤ b := by
  fun_cases String.utf8EncodeChar c
  · exact Or.inl ⟨_, rfl⟩
  all_goals
    refine Or.inr fun b hb => UInt8.le_iff_toNat_le.mpr ?_
    simp only [List.mem_cons, List.not_mem_nil, or_false] at hb
    rcases hb with rfl | rfl | rfl | rfl <;> simp [UInt8.toNat_ofNat'] <;> omega

/-- **Leaving out one-byte characters** leaves the text valid. -/
theorem Valid.filter {s : List UInt8} (h : Valid s) (hkeep : ∀ b, 128 ≤ b → keep b = true) :
    Valid (s.filter keep) := by
  obtain ⟨cs, rfl⟩ := valid_iff.mp h
  clear h
  induction cs with
  | nil => exact valid_nil
  | cons c cs ih =>
    have hc : Valid (String.utf8EncodeChar c) := valid_iff.mpr ⟨[c], by simp⟩
    rw [List.flatMap_cons, List.filter_append]
    refine Valid.append ?_ ih
    obtain ⟨b, hb⟩ | hbig := utf8EncodeChar_cases c
    · rw [hb, List.filter_singleton]
      cases keep b with
      | true => exact hb ▸ hc
      | false => exact valid_nil
    · rw [List.filter_eq_self.mpr fun b hb => hkeep b (hbig b hb)]
      exact hc

end filter

end Digitiz.Utf8
