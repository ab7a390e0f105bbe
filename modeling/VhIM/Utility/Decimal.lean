import VhIM.Utility.StringsHelper

/-! # Printed numbers

What `%d` and `%u` print: digits, a sign before them, and no more than eleven
characters. -/
namespace VhIM.Utility

def IsNumeral (b : UInt8) : Prop := (48 ≤ b ∧ b ≤ 57) ∨ b = 45

instance decidableIsNumeral (b : UInt8) : Decidable (IsNumeral b) :=
  inferInstanceAs (Decidable (_ ∨ _))

theorem text_append (s t : String) : text (s ++ t) = text s ++ text t := by
  simp [text, String.toUTF8]

theorem text_injective {s t : String} (h : text s = text t) : s = t :=
  String.toByteArray_inj.mp (ByteArray.ext (Array.toList_inj.mp h))

theorem decimal_injective {i j : Int32} (h : decimal i = decimal j) : i = j :=
  Int32.toInt_inj.mp (Int.repr_injective (text_injective h))

theorem isDigit_bounds {c : Char} (h : c.isDigit = true) : 48 ≤ c.val.toNat ∧ c.val.toNat ≤ 57 := by
  simp only [Char.isDigit, ge_iff_le, Bool.and_eq_true, decide_eq_true_eq,
    UInt32.le_iff_toNat_le] at h
  exact h

/-- Digits take a byte each. -/
theorem encode_digits {l : List Char} (h : ∀ c ∈ l, c.isDigit = true) :
    l.flatMap String.utf8EncodeChar = l.map fun c => c.val.toUInt8 := by
  induction l with
  | nil => rfl
  | cons c l ih =>
    have hsize : c.utf8Size = 1 := by
      rw [Char.utf8Size_eq_one_iff, UInt32.le_iff_toNat_le]
      exact (isDigit_bounds (h c (.head _))).2.trans (by decide)
    rw [List.flatMap_cons, String.utf8EncodeChar_eq_singleton hsize,
      ih fun c hc => h c (.tail _ hc)]
    rfl

theorem text_nat (n : Nat) :
    text (toString n) = (Nat.toDigits 10 n).map fun c => c.val.toUInt8 := by
  have hdigits : ∀ c ∈ Nat.toDigits 10 n, c.isDigit = true := fun c hc =>
    Nat.isDigit_of_mem_toDigits (by decide) (by decide) hc
  rw [← encode_digits hdigits, text, Nat.toString_eq_repr, Nat.repr_eq_ofList_toDigits]
  simp [String.toUTF8, List.utf8Encode]

theorem text_nat_numeral (n : Nat) : ∀ b ∈ text (toString n), IsNumeral b := by
  intro b hb
  rw [text_nat] at hb
  obtain ⟨c, hc, rfl⟩ := List.mem_map.mp hb
  have hc := isDigit_bounds (Nat.isDigit_of_mem_toDigits (by decide) (by decide) hc)
  have hbyte : c.val.toUInt8.toNat = c.val.toNat := by
    rw [UInt32.toNat_toUInt8]
    exact Nat.mod_eq_of_lt (by omega)
  refine .inl ⟨?_, ?_⟩
  · rw [UInt8.le_iff_toNat_le, hbyte]
    exact hc.1
  · rw [UInt8.le_iff_toNat_le, hbyte]
    exact hc.2

theorem text_nat_length {n k : Nat} (hk : 0 < k) (h : n < 10 ^ k) :
    (text (toString n)).length ≤ k := by
  rw [text_nat, List.length_map]
  exact (Nat.length_toDigits_le_iff (by decide) hk).mpr h

/-- A negative number has the sign before its digits. -/
theorem decimal_cases (i : Int32) : ∃ n ≤ 2 ^ 31,
    decimal i = text (toString n) ∨ decimal i = 45 :: text (toString n) := by
  have hlow := i.le_toInt
  have hhigh := i.toInt_lt
  rw [decimal]
  cases hi : i.toInt with
  | ofNat n =>
    rw [hi, Int.ofNat_eq_natCast] at hhigh
    exact ⟨n, by omega, .inl rfl⟩
  | negSucc n =>
    rw [hi] at hlow
    refine ⟨n + 1, by omega, .inr ?_⟩
    show text ("-" ++ (n + 1).repr) = _
    rw [text_append]
    rfl

theorem decimal_numeral (i : Int32) : ∀ b ∈ decimal i, IsNumeral b := by
  obtain ⟨n, _, h | h⟩ := decimal_cases i
  · rw [h]
    exact text_nat_numeral n
  · rw [h]
    intro b hb
    rcases List.mem_cons.mp hb with rfl | hb
    · exact .inr rfl
    · exact text_nat_numeral n b hb

theorem decimal_length (i : Int32) : (decimal i).length ≤ 11 := by
  obtain ⟨n, hn, h | h⟩ := decimal_cases i
  · have := text_nat_length (n := n) (k := 10) (by decide) (by omega)
    rw [h]
    omega
  · have := text_nat_length (n := n) (k := 10) (by decide) (by omega)
    rw [h, List.length_cons]
    omega

/-- Hex digits are digits or capital letters. -/
theorem ubytesToString_bounds (bytes : List UInt8) :
    ∀ b ∈ ubytesToString bytes, 48 ≤ b ∧ b ≤ 70 := by
  have hdigit : ∀ n < 16, 48 ≤ hexDigit n ∧ hexDigit n ≤ 70 := by decide
  intro b hb
  obtain ⟨c, _, hb⟩ := List.mem_flatMap.mp hb
  have hc := c.toNat_lt
  rcases List.mem_pair.mp hb with rfl | rfl
  · exact hdigit _ (by omega)
  · exact hdigit _ (by omega)

theorem ubytesToString_length (bytes : List UInt8) :
    (ubytesToString bytes).length = 2 * bytes.length := by
  induction bytes with
  | nil => rfl
  | cons b bytes ih =>
    simp only [ubytesToString, List.flatMap_cons, List.length_append, List.length_cons,
      List.length_nil] at ih ⊢
    omega

end VhIM.Utility
