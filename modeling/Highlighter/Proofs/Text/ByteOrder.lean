import Mathlib.Data.String.Basic

/-!
The order of texts by their bytes in UTF-8. It is the order by characters (`utf8Bytes_lt`).
-/

set_option autoImplicit false

namespace Highlighter

/-- The bytes that write a text. -/
def utf8Bytes (text : String) : List UInt8 := text.toUTF8.data.toList

theorem utf8Bytes_eq (text : String) : utf8Bytes text = text.toList.flatMap String.utf8EncodeChar := by
  rw [utf8Bytes, String.toUTF8_eq_toByteArray, ← String.utf8Encode_toList, List.utf8Encode,
    List.data_toByteArray]

/-- The first byte that differs is lower in the lower of two characters, and there is one. -/
theorem utf8EncodeChar_append_lt {c d : Char} {rest others : List UInt8} (lower : c < d) :
    String.utf8EncodeChar c ++ rest < String.utf8EncodeChar d ++ others := by
  have ordered : c.val.toNat < d.val.toNat := lower
  have bound : d.val.toNat < 0x110000 := by
    have valid := d.valid
    simp only [UInt32.isValidChar, Nat.isValidChar] at valid
    omega
  -- The digits to base 64, one below the other.
  have digits (code : Nat) : code / 4096 = code / 64 / 64 ∧ code / 262144 = code / 64 / 64 / 64 := by omega
  simp only [String.utf8EncodeChar, (digits _).1, (digits _).2]
  split_ifs <;>
    simp only [List.cons_append, List.nil_append, List.cons_lt_cons_iff, UInt8.lt_iff_toNat_lt,
      UInt8.toNat_ofNat', ← UInt8.toNat_inj] <;>
    omega

theorem flatMap_utf8EncodeChar_lt {first second : List Char} (lower : first < second) :
    first.flatMap String.utf8EncodeChar < second.flatMap String.utf8EncodeChar := by
  induction first generalizing second with
  | nil =>
    cases second with
    | nil => exact absurd lower (lt_irrefl [])
    | cons d second =>
      obtain ⟨byte, bytes, written⟩ := List.exists_cons_of_ne_nil String.utf8EncodeChar_ne_nil
      rw [List.flatMap_nil, List.flatMap_cons, written]
      exact List.nil_lt_cons _ _
  | cons c first ih =>
    cases second with
    | nil => exact absurd lower (List.not_lt_nil _)
    | cons d second =>
      rw [List.flatMap_cons, List.flatMap_cons]
      rcases List.cons_lt_cons_iff.1 lower with differs | ⟨rfl, behind⟩
      · exact utf8EncodeChar_append_lt differs
      · exact List.append_left_lt (ih behind)

theorem utf8Bytes_lt {first second : String} (lower : first < second) :
    utf8Bytes first < utf8Bytes second := by
  rw [utf8Bytes_eq, utf8Bytes_eq]
  exact flatMap_utf8EncodeChar_lt (String.lt_iff.1 lower)

end Highlighter
