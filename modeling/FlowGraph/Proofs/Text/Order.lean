/-
Texts and their bytes.

Texts are ordered by their characters, and this is the order of their bytes in UTF-8: of two
characters the greater one has the greater code, and the codes part within the shorter one, so what
follows them makes no difference.  Tables whose keys are in ascending order therefore have them in
the order of their bytes.
-/
import Mathlib.Order.Defs.LinearOrder
import Mathlib.Tactic.SplitIfs

namespace FlowGraph.Text

/-- The bytes of a text in UTF-8. -/
def bytes (s : String) : List UInt8 := s.toUTF8.data.toList

theorem bytes_eq (s : String) : bytes s = s.toList.flatMap String.utf8EncodeChar := by
  rw [bytes, String.toUTF8_eq_toByteArray, ← String.utf8Encode_toList]
  exact List.toList_data_toByteArray

/-- Of two characters the greater one has the greater code, whatever follows. -/
theorem code_append_lt {c d : Char} (h : c < d) (rest rest' : List UInt8) :
    String.utf8EncodeChar c ++ rest < String.utf8EncodeChar d ++ rest' := by
  have hlt : c.val.toNat < d.val.toNat := h
  have hmax : d.val.toNat < 0x110000 := by
    have hvalid := d.valid
    simp only [UInt32.isValidChar, Nat.isValidChar] at hvalid
    omega
  unfold String.utf8EncodeChar
  dsimp only
  generalize c.val.toNat = m at hlt
  generalize d.val.toNat = n at hlt hmax
  by_cases hfour : m ≤ 0xffff
  · -- A longer code begins with a greater byte, and codes of one length are digits to the base 64.
    split_ifs
    all_goals
      simp only [List.cons_append, List.nil_append, List.cons_lt_cons_iff, UInt8.lt_iff_toNat_lt,
        ← UInt8.toNat_inj, UInt8.toNat_ofNat']
      omega
  · rw [if_neg (by omega), if_neg (by omega), if_neg (by omega), if_neg (by omega),
      if_neg (by omega), if_neg (by omega)]
    simp only [List.cons_append, List.nil_append, List.cons_lt_cons_iff, UInt8.lt_iff_toNat_lt,
      ← UInt8.toNat_inj, UInt8.toNat_ofNat']
    rcases Nat.lt_or_ge (m / 262144) (n / 262144) with hfirst | hfirst
    · exact .inl (by omega)
    · exact .inr ⟨by omega, by omega⟩

/-- The codes part where the characters part. -/
theorem codes_lt : ∀ {l l' : List Char}, l < l' →
    l.flatMap String.utf8EncodeChar < l'.flatMap String.utf8EncodeChar := by
  intro l
  induction l with
  | nil =>
      intro l' h
      cases l' with
      | nil => exact absurd h (List.lt_irrefl [])
      | cons d rest' =>
          obtain ⟨b, code, hcode⟩ :=
            List.exists_cons_of_ne_nil (String.utf8EncodeChar_ne_nil (c := d))
          rw [List.flatMap_nil, List.flatMap_cons, hcode, List.cons_append]
          exact List.nil_lt_cons _ _
  | cons c rest ih =>
      intro l' h
      cases l' with
      | nil => exact absurd h (List.not_lt_nil _)
      | cons d rest' =>
          rw [List.flatMap_cons, List.flatMap_cons]
          rcases List.cons_lt_cons_iff.mp h with hlt | ⟨rfl, hrest⟩
          · exact code_append_lt hlt _ _
          · exact List.append_left_lt (ih hrest)

theorem bytes_lt_of_lt {s t : String} (h : s < t) : bytes s < bytes t := by
  rw [bytes_eq, bytes_eq]
  exact codes_lt h

/-- Texts are ordered as their bytes are. -/
theorem bytes_lt_bytes {s t : String} : bytes s < bytes t ↔ s < t := by
  refine ⟨fun h => ?_, bytes_lt_of_lt⟩
  by_contra hnot
  by_cases hgt : t < s
  · exact List.lt_asymm h (bytes_lt_of_lt hgt)
  · rw [String.le_antisymm (String.not_lt.mp hgt) (String.not_lt.mp hnot)] at h
    exact List.lt_irrefl _ h

end FlowGraph.Text
