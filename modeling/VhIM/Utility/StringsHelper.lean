import Mathlib

/-! # Texts

What `strings_helper.c` and the format strings make of bytes and numbers. -/
namespace VhIM.Utility

/-- A fixed text of the source. -/
def text (s : String) : List UInt8 := s.toUTF8.data.toList

def hexDigit (n : Nat) : UInt8 := UInt8.ofNat (if n < 10 then 48 + n else 55 + n)

/-- `ubytes_to_string`: two uppercase digits for each byte. -/
def ubytesToString (bytes : List UInt8) : List UInt8 :=
  bytes.flatMap fun b => [hexDigit (b.toNat / 16), hexDigit (b.toNat % 16)]

theorem hexDigit_inj {m n : Nat} (hm : m < 16) (hn : n < 16) (h : hexDigit m = hexDigit n) :
    m = n :=
  (show ∀ m < 16, ∀ n < 16, hexDigit m = hexDigit n → m = n by decide) m hm n hn h

/-- Different bytes print differently. -/
theorem ubytesToString_injective : Function.Injective ubytesToString := by
  intro l
  induction l with
  | nil =>
    intro l' h
    cases l' with
    | nil => rfl
    | cons b' l' => simp [ubytesToString] at h
  | cons b l ih =>
    intro l' h
    cases l' with
    | nil => simp [ubytesToString] at h
    | cons b' l' =>
      simp only [ubytesToString, List.flatMap_cons, List.cons_append, List.nil_append,
        List.cons.injEq] at h
      obtain ⟨hhigh, hlow, hrest⟩ := h
      have hb := b.toNat_lt
      have hb' := b'.toNat_lt
      have hdiv := hexDigit_inj (by omega) (by omega) hhigh
      have hmod := hexDigit_inj (by omega) (by omega) hlow
      have hbyte : b = b' := UInt8.toNat_inj.mp (by omega)
      rw [hbyte, ih hrest]

/-- What `%d` prints. -/
def decimal (i : Int32) : List UInt8 := text (toString i.toInt)

end VhIM.Utility
