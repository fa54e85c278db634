import Mathlib.Data.List.Lex
import Mathlib.Data.String.Basic

set_option autoImplicit false

/- The order of texts is the order of their bytes in UTF-8: longer codes start with
greater bytes, and codes of one length are compared digit by digit. -/

namespace ScalarLowering

/-- The bytes of a text in UTF-8. -/
def utf8 (s : String) : List UInt8 := s.toUTF8.data.toList

theorem utf8_eq_flatMap (s : String) : utf8 s = s.toList.flatMap String.utf8EncodeChar := by
  rw [utf8, String.toUTF8, ← String.utf8Encode_toList, List.utf8Encode]
  simp

/-- Bytes are compared from the first one on. -/
theorem byte_lt_iff {m n : Nat} {xs ys : List UInt8} (left : m < UInt8.size)
    (right : n < UInt8.size) :
    UInt8.ofNat m :: xs < UInt8.ofNat n :: ys ↔ m < n ∨ m = n ∧ xs < ys := by
  rw [List.cons_lt_cons_iff, UInt8.lt_iff_toNat_lt, ← UInt8.toNat_inj,
    UInt8.toNat_ofNat_of_lt' left, UInt8.toNat_ofNat_of_lt' right]

theorem toNat_le_of_char (c : Char) : c.val.toNat ≤ 1114111 := by
  rcases c.valid with low | ⟨_, high⟩
  · omega
  · omega

/-- Lesser characters have lesser codes, and no code is the start of another. -/
theorem utf8EncodeChar_lt {c d : Char} (less : c < d) (xs ys : List UInt8) :
    String.utf8EncodeChar c ++ xs < String.utf8EncodeChar d ++ ys := by
  have values : c.val.toNat < d.val.toNat := less
  have limit := toNat_le_of_char d
  simp only [String.utf8EncodeChar]
  generalize c.val.toNat = m at values
  generalize d.val.toNat = n at values limit
  have size : UInt8.size = 256 := rfl
  have digits : ∀ v : Nat, v ≤ 1114111 → v / 262144 % 8 = v / 262144 ∧
      v / 262144 = v / 4096 / 64 ∧ v / 4096 = v / 64 / 64 := by
    intro v _
    omega
  have digitsLeft := digits m (by omega)
  have digitsRight := digits n limit
  -- A longer code starts with a greater byte; codes of one length differ in some digit.
  split_ifs
  all_goals simp (disch := omega) only [List.cons_append, List.nil_append, byte_lt_iff]
  all_goals omega

theorem flatMap_utf8EncodeChar_lt {cs ds : List Char} (less : cs < ds) :
    cs.flatMap String.utf8EncodeChar < ds.flatMap String.utf8EncodeChar := by
  induction less with
  | @nil d ds =>
    have bytes : 0 < (String.utf8EncodeChar d).length := by
      rw [String.length_utf8EncodeChar]
      exact d.utf8Size_pos
    obtain ⟨first, rest, code⟩ := List.exists_cons_of_length_pos bytes
    rw [List.flatMap_cons, code]
    exact .nil
  | rel less => exact utf8EncodeChar_lt less _ _
  | cons _ ih => exact List.append_left_lt ih

/-- The order of texts is the order of their bytes. -/
theorem utf8_lt {s t : String} (less : s < t) : utf8 s < utf8 t := by
  rw [utf8_eq_flatMap, utf8_eq_flatMap]
  exact flatMap_utf8EncodeChar_lt (String.lt_iff_toList_lt.mp less)

end ScalarLowering
