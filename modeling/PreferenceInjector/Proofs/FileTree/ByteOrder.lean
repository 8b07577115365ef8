import Mathlib.Data.List.Lex
import Mathlib.Data.String.Basic

/-!
# Names in the order of their bytes

A file system knows a name by its bytes, and a program may compare names by them. Texts are compared
by their characters, which comes to the same: UTF-8 keeps the order of the characters, since a
character with a greater code has a greater byte at the first place where the bytes of the two
differ.
-/

namespace PreferenceInjector

/-- The bytes of a text. -/
def utf8Bytes (text : String) : List UInt8 := text.toUTF8.data.toList

/-- The bytes of a text are those of its characters. -/
theorem utf8Bytes_eq_flatMap (text : String) :
    utf8Bytes text = text.toList.flatMap String.utf8EncodeChar := by
  have hbytes : text.toUTF8 = (text.toList.flatMap String.utf8EncodeChar).toByteArray := by
    rw [← List.utf8Encode, String.utf8Encode_toList]
    rfl
  rw [utf8Bytes, hbytes, List.data_toByteArray]

/-- The last six bits of a number decide when the other ones are the same. -/
theorem lt_iff_bits {v w : Nat} :
    v < w ↔ v / 64 < w / 64 ∨ v / 64 = w / 64 ∧ v % 64 < w % 64 := by
  omega

/-- The bytes of a greater character are greater, whatever follows. -/
theorem utf8EncodeChar_append_lt {c d : Char} (h : c < d) (rest rest' : List UInt8) :
    String.utf8EncodeChar c ++ rest < String.utf8EncodeChar d ++ rest' := by
  have hval : c.val.toNat < d.val.toNat := UInt32.lt_iff_toNat_lt.mp h
  have hlimit : d.val.toNat < 1114112 := by
    rcases d.valid with hsmall | ⟨-, hlarge⟩
    · exact hsmall.trans (by decide)
    · exact hlarge
  rw [String.utf8EncodeChar, String.utf8EncodeChar]
  generalize c.val.toNat = v at *
  generalize d.val.toNat = w at *
  -- Of bytes of the same number, each but the first one holds six bits.
  have hlast := lt_iff_bits.mp hval
  have hthird := @lt_iff_bits (v / 64) (w / 64)
  have hsecond := @lt_iff_bits (v / 64 / 64) (w / 64 / 64)
  simp only [Nat.div_div_eq_div_mul, Nat.reduceMul] at hthird hsecond
  split_ifs <;>
    simp (disch := omega) only [List.cons_append, List.nil_append, List.cons_lt_cons_iff,
      UInt8.lt_iff_toNat_lt, ← UInt8.toNat_inj, UInt8.toNat_ofNat', Nat.reducePow,
      Nat.mod_eq_of_lt] <;>
    omega

/-- The bytes of greater characters are greater. -/
theorem flatMap_utf8EncodeChar_lt {text other : List Char} (h : text < other) :
    text.flatMap String.utf8EncodeChar < other.flatMap String.utf8EncodeChar := by
  induction h with
  | @nil c rest =>
    have hlength : (String.utf8EncodeChar c).length ≠ 0 := by
      rw [String.length_utf8EncodeChar]
      exact c.utf8Size_pos.ne'
    rw [List.flatMap_nil, List.flatMap_cons]
    cases hbytes : String.utf8EncodeChar c with
    | nil => exact (hlength (by rw [hbytes, List.length_nil])).elim
    | cons byte more => exact .nil
  | rel hlt => exact utf8EncodeChar_append_lt hlt _ _
  | cons _ ih => exact .append_left _ ih _

/-- Texts stand in the order of their bytes. -/
theorem utf8Bytes_lt_iff {text other : String} :
    utf8Bytes text < utf8Bytes other ↔ text < other := by
  have hmono : ∀ {a b : String}, a < b → utf8Bytes a < utf8Bytes b := by
    intro a b hlt
    rw [utf8Bytes_eq_flatMap, utf8Bytes_eq_flatMap]
    exact flatMap_utf8EncodeChar_lt (String.lt_iff_toList_lt.mp hlt)
  refine ⟨fun h => ?_, hmono⟩
  by_contra hnot
  rcases lt_or_eq_of_le (not_lt.mp hnot) with hgreater | rfl
  · exact List.lt_asymm h (hmono hgreater)
  · exact List.lt_irrefl _ h

end PreferenceInjector
