import Digitiz.ButtonStore
import Digitiz.Codec
import Digitiz.Messages
import Digitiz.Utf8

/-!
Texts that are too long.

A string field of a message is so many bytes, a label is at most 24, and what is too long is cut
there. The guest hands what is left to a Java VM that aborts when it is not valid text.
-/

namespace Digitiz.TextCuts

open Wire Utf8 ButtonStore

/-- **What is read of a text** that was written into a field, whatever comes after it. -/
theorem fixedStr_fixedStr {s : List UInt8} (h : 0 ∉ s) (n : ℕ) (l : List UInt8) :
    Reader.fixedStr n ⟨Writer.fixedStr s n ++ l, true⟩ = (s.take n, ⟨l, true⟩) := by
  have hfits : Codec.Fits n (s.take n) :=
    ⟨(List.length_take_le n s), fun hm => h (List.mem_of_mem_take hm)⟩
  have hread := (Codec.lawful_fixedStr n).read_write (s.take n) l hfits
  rwa [show (Codec.fixedStr n).write (s.take n) = Writer.fixedStr s n from
    Codec.writer_fixedStr_take s n] at hread

/-- A label without what would break its line. -/
def stripped (label : List UInt8) : List UInt8 := label.filter fun c => !(c = 9 ∨ c = 10 ∨ c = 13)

lemma sanitizeLabel_eq (label : List UInt8) : sanitizeLabel label = (stripped label).take 24 := rfl

lemma stripped_valid {label : List UInt8} (h : Valid label) : Valid (stripped label) := by
  refine h.filter fun b hb => ?_
  have hb := UInt8.le_iff_toNat_le.mp hb
  have h9 : b ≠ 9 := by rintro rfl; exact absurd hb (by decide)
  have h10 : b ≠ 10 := by rintro rfl; exact absurd hb (by decide)
  have h13 : b ≠ 13 := by rintro rfl; exact absurd hb (by decide)
  simp [h9, h10, h13]

/-- **Cuts respect the text** exactly when they split no character: the one a field of `n` bytes
makes, and the one that is made in a label after it was stripped. -/
theorem cuts_valid_iff (s : List UInt8) (hs : Valid s) (h0 : 0 ∉ s) :
    (∀ (n : ℕ) (l : List UInt8),
      Valid (Reader.fixedStr n ⟨Writer.fixedStr s n ++ l, true⟩).1 ∧
        (Reader.fixedStr n ⟨Writer.fixedStr s n ++ l, true⟩).1 <+: s ↔ ¬ Splits s n) ∧
      (Valid (sanitizeLabel s) ∧ sanitizeLabel s <+: stripped s ↔ ¬ Splits (stripped s) 24) := by
  refine ⟨fun n l => ?_, ?_⟩
  · rw [fixedStr_fixedStr h0, and_iff_left (List.take_prefix n s)]
    exact valid_take_iff hs n
  · rw [sanitizeLabel_eq, and_iff_left (List.take_prefix 24 _)]
    exact valid_take_iff (stripped_valid hs) 24

/-- The bytes of a text. -/
def bytes (text : List Char) : List UInt8 := text.flatMap String.utf8EncodeChar

lemma bytes_valid (text : List Char) : Valid (bytes text) := valid_iff.mpr ⟨text, rfl⟩

/-- A text of eight three-byte characters fits a label to the byte. -/
theorem cuts_valid_eight :
    Valid (sanitizeLabel (bytes (List.replicate 8 '펜'))) ∧
      sanitizeLabel (bytes (List.replicate 8 '펜')) <+: stripped (bytes (List.replicate 8 '펜')) :=
  (cuts_valid_iff (bytes (List.replicate 8 '펜')) (bytes_valid _) (by decide)).2.mpr (by decide)

/-- Eight of them after a digit, and twenty-one after two. -/
def longLabel : List UInt8 := bytes ('1' :: List.replicate 8 '펜')
def longProcess : List UInt8 := bytes ('1' :: '2' :: List.replicate 21 '펜')

/-- **One letter more.** Then the 24 bytes of a label end inside a character, and so do the 64 of a
process name that is one byte too long. -/
theorem cuts_split_character :
    Valid longLabel ∧ 0 ∉ longLabel ∧ ¬ Valid (sanitizeLabel longLabel) ∧
      Valid longProcess ∧ 0 ∉ longProcess ∧
      ¬ Valid (Reader.fixedStr kProcessNameBytes
        ⟨Writer.fixedStr longProcess kProcessNameBytes, true⟩).1 := by
  have hlabel : Splits (stripped longLabel) 24 := ⟨0x9C, rfl, by decide⟩
  have hprocess : Splits longProcess kProcessNameBytes := ⟨0x9C, rfl, by decide⟩
  have h0 : 0 ∉ longProcess := by decide
  have hread := fixedStr_fixedStr h0 kProcessNameBytes []
  rw [List.append_nil] at hread
  refine ⟨bytes_valid _, by decide, fun h => ?_, bytes_valid _, h0, fun h => ?_⟩
  · exact (valid_take_iff (stripped_valid (bytes_valid _)) 24).mp h hlabel
  · rw [hread] at h
    exact (valid_take_iff (bytes_valid _) kProcessNameBytes).mp h hprocess

end Digitiz.TextCuts
