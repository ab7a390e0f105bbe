import VhIM.Utility.Decimal

/-! # The hex encoders as they write

`bytes_to_string` and `ubytes_to_string` call `sprintf` once for each byte, at
a position that moves by two each time, and end the string after the last one.
Every character they store counts, also those that a later turn overwrites. -/
namespace VhIM.Utility.HexStrings

/-- What `%0.2X` prints for an `int`: its bits as an unsigned number, with at
least two digits. -/
def upperHex (i : Int32) : List UInt8 :=
  let digits := (Nat.digits 16 i.toUInt32.toNat).reverse.map hexDigit
  List.replicate (2 - digits.length) (hexDigit 0) ++ digits

/-- The characters of a text, stored one after the other from `off` on. -/
def storeText (off : Nat) : List UInt8 → List (Nat × UInt8)
  | [] => []
  | c :: cs => (off, c) :: storeText (off + 1) cs

/-- The loop of both encoders from `out + off` on; `printed` is what `sprintf`
makes of a byte. -/
def encodeFrom (printed : UInt8 → List UInt8) (off : Nat) : List UInt8 → List (Nat × UInt8)
  | [] => [(off, 0)]
  | b :: bytes => storeText off (printed b ++ [0]) ++ encodeFrom printed (off + 2) bytes

/-- `bytes_to_string`: `in[i]` is a `signed char`. -/
def bytesToString (bytes : List UInt8) : List (Nat × UInt8) :=
  encodeFrom (fun b => upperHex b.toInt8.toInt32) 0 bytes

def ubytesToString (bytes : List UInt8) : List (Nat × UInt8) :=
  encodeFrom (fun b => upperHex b.toUInt32.toInt32) 0 bytes

def store (out : Nat → UInt8) (writes : List (Nat × UInt8)) : Nat → UInt8 :=
  writes.foldl (fun out w => Function.update out w.1 w.2) out

/-- The writes of an encoder leave the two digits of each byte and a NUL,
whatever the buffer held, and none is behind that NUL. -/
structure Encodes (bytes : List UInt8) (writes : List (Nat × UInt8)) : Prop where
  string : ∀ (out : Nat → UInt8), ∀ k ≤ 2 * bytes.length,
    store out writes k = (Utility.ubytesToString bytes ++ [0]).getD k 0
  inside : ∀ w ∈ writes, w.1 ≤ 2 * bytes.length

/-! ## What is printed -/

theorem forall_byte {P : UInt8 → Prop} (h : ∀ n < 256, P (UInt8.ofNat n)) (b : UInt8) : P b := by
  simpa using h b.toNat b.toNat_lt

theorem upperHex_unsigned : ∀ b : UInt8,
    upperHex b.toUInt32.toInt32 = [hexDigit (b.toNat / 16), hexDigit (b.toNat % 16)] :=
  forall_byte (by decide +kernel)

/-- A byte from 128 on is a negative `char`, and prints with the sign bits of
the `int` in front. -/
theorem upperHex_signed : ∀ b : UInt8, upperHex b.toInt8.toInt32 =
    (if b < 128 then [] else List.replicate 6 (hexDigit 15)) ++
      [hexDigit (b.toNat / 16), hexDigit (b.toNat % 16)] :=
  forall_byte (by decide +kernel)

/-! ## What is stored -/

theorem store_append (out : Nat → UInt8) (writes writes' : List (Nat × UInt8)) :
    store out (writes ++ writes') = store (store out writes) writes' :=
  List.foldl_append

theorem storeText_getD (out : Nat → UInt8) (off k : Nat) (cs : List UInt8) :
    store out (storeText off cs) k =
      if off ≤ k ∧ k < off + cs.length then cs.getD (k - off) 0 else out k := by
  induction cs generalizing out off with
  | nil =>
    rw [if_neg (by rw [List.length_nil]; omega)]
    rfl
  | cons c cs ih =>
    show store (Function.update out off c) (storeText (off + 1) cs) k = _
    rw [ih, List.length_cons]
    rcases lt_trichotomy k off with hlt | rfl | hgt
    · rw [if_neg (by omega), if_neg (by omega), Function.update_of_ne hlt.ne]
    · rw [if_neg (by omega), if_pos (by omega), Function.update_self, Nat.sub_self,
        List.getD_cons_zero]
    · rw [Function.update_of_ne hgt.ne', show k - off = k - (off + 1) + 1 by omega,
        List.getD_cons_succ]
      congr 1
      simp only [eq_iff_iff]
      omega

variable {printed : UInt8 → List UInt8}

/-- A turn and those after it store nothing before their position. -/
theorem encodeFrom_below (out : Nat → UInt8) (bytes : List UInt8) {off k : Nat} (hk : k < off) :
    store out (encodeFrom printed off bytes) k = out k := by
  induction bytes generalizing out off with
  | nil => exact Function.update_of_ne hk.ne _ _
  | cons b bytes ih =>
    rw [encodeFrom, store_append, ih _ (by omega), storeText_getD, if_neg (by omega)]

/-- What is left of each turn are the first two characters it prints. -/
theorem encodeFrom_getD (hprinted : ∀ b, 2 ≤ (printed b).length) (out : Nat → UInt8)
    (bytes : List UInt8) (off : Nat) : ∀ k ≤ 2 * bytes.length,
      store out (encodeFrom printed off bytes) (off + k) =
        ((bytes.flatMap fun b => (printed b).take 2) ++ [0]).getD k 0 := by
  induction bytes generalizing out off with
  | nil =>
    intro k hk
    have hzero : k = 0 := by simpa using hk
    subst hzero
    exact Function.update_self _ _ _
  | cons b bytes ih =>
    intro k hk
    have htwo : ((printed b).take 2).length = 2 := by
      rw [List.length_take]
      exact min_eq_left (hprinted b)
    rw [encodeFrom, store_append, List.flatMap_cons, List.append_assoc]
    by_cases hlow : k < 2
    · have hlen := hprinted b
      rw [encodeFrom_below _ _ (by omega), storeText_getD,
        if_pos (by rw [List.length_append]; omega), List.getD_append _ _ _ _ (by omega),
        Nat.add_sub_cancel_left, List.getD_append _ _ _ _ (by omega)]
      simp only [List.getD_eq_getElem?_getD, List.getElem?_take, if_pos hlow]
    · rw [List.length_cons] at hk
      have hright := List.getD_append_right ((printed b).take 2)
        ((bytes.flatMap fun b => (printed b).take 2) ++ [0]) 0 k (by omega)
      rw [show off + k = off + 2 + (k - 2) by omega, ih _ _ _ (by omega), hright, htwo]

theorem storeText_inside (off bound : Nat) (cs : List UInt8) :
    (∀ w ∈ storeText off (cs ++ [0]), w.1 ≤ bound) ↔ off + cs.length ≤ bound := by
  induction cs generalizing off with
  | nil => simp [storeText]
  | cons c cs ih =>
    simp only [List.cons_append, storeText, List.forall_mem_cons, ih, List.length_cons]
    omega

/-- The last character of a turn is the NUL behind what it prints. -/
theorem encodeFrom_inside (printed : UInt8 → List UInt8) (bytes : List UInt8) (off : Nat) :
    (∀ w ∈ encodeFrom printed off bytes, w.1 ≤ off + 2 * bytes.length) ↔
      ∀ i b, bytes[i]? = some b → 2 * i + (printed b).length ≤ 2 * bytes.length := by
  induction bytes generalizing off with
  | nil => simp [encodeFrom]
  | cons b bytes ih =>
    have hih := ih (off + 2)
    rw [show off + 2 + 2 * bytes.length = off + 2 * (b :: bytes).length by
      rw [List.length_cons]; omega] at hih
    rw [encodeFrom, List.forall_mem_append, storeText_inside, hih]
    constructor
    · rintro ⟨hfirst, hrest⟩ i b' hb'
      cases i with
      | zero =>
        cases hb'
        omega
      | succ i =>
        have := hrest i b' hb'
        rw [List.length_cons]
        omega
    · intro h
      refine ⟨?_, fun i b' hb' => ?_⟩
      · have := h 0 b rfl
        omega
      · have := h (i + 1) b' hb'
        rw [List.length_cons] at this
        omega

theorem encodeFrom_encodes (hprinted : ∀ b, 2 ≤ (printed b).length) (bytes : List UInt8) :
    Encodes bytes (encodeFrom printed 0 bytes) ↔
      (bytes.flatMap fun b => (printed b).take 2) = Utility.ubytesToString bytes ∧
        ∀ i b, bytes[i]? = some b → 2 * i + (printed b).length ≤ 2 * bytes.length := by
  have hinside := encodeFrom_inside printed bytes 0
  have hcells := fun out => encodeFrom_getD hprinted out bytes 0
  simp only [Nat.zero_add] at hinside hcells
  have hlen : (bytes.flatMap fun b => (printed b).take 2).length = 2 * bytes.length := by
    simp only [List.length_flatMap, List.length_take, min_eq_left (hprinted _)]
    simp [Nat.mul_comm]
  constructor
  · intro h
    have htext : (bytes.flatMap fun b => (printed b).take 2) ++ [0] =
        Utility.ubytesToString bytes ++ [0] := by
      apply List.ext_getElem
      · simp only [List.length_append, hlen, ubytesToString_length]
      · intro k hk hk'
        rw [List.length_append, hlen, List.length_singleton] at hk
        have hcell := (hcells (fun _ => 0) k (by omega)).symm.trans (h.string _ k (by omega))
        rwa [List.getD_eq_getElem _ _ (by rw [List.length_append, hlen]; exact hk),
          List.getD_eq_getElem _ _ hk'] at hcell
    exact ⟨List.append_cancel_right htext, hinside.mp h.inside⟩
  · rintro ⟨htext, hends⟩
    exact ⟨fun out k hk => by rw [hcells out k hk, htext], hinside.mpr hends⟩

/-! ## The two encoders -/

theorem ubytesToString_encodes (bytes : List UInt8) : Encodes bytes (ubytesToString bytes) := by
  refine (encodeFrom_encodes (fun b => ?_) bytes).mpr ⟨?_, fun i b hb => ?_⟩
  · rw [upperHex_unsigned]
    exact le_rfl
  · simp only [upperHex_unsigned]
    rfl
  · have hi := (List.getElem?_eq_some_iff.mp hb).1
    simp only [upperHex_unsigned, List.length_cons, List.length_nil]
    omega

/-- The two characters that are left of a byte are those of 255 if it is a
negative `char`. -/
theorem upperHex_signed_take (bytes : List UInt8) :
    (bytes.flatMap fun b => (upperHex b.toInt8.toInt32).take 2) =
      Utility.ubytesToString (bytes.map fun b => if b < 128 then b else 255) := by
  rw [Utility.ubytesToString, List.flatMap_map]
  congr 1
  funext b
  rw [upperHex_signed]
  split <;> rfl

/-- The encoders agree exactly if every byte from 128 on is 255 and has three
more behind it. -/
theorem hex_encoders_agree_iff (bytes : List UInt8) :
    (Encodes bytes (ubytesToString bytes) ∧ Encodes bytes (bytesToString bytes)) ↔
      ∀ i b, bytes[i]? = some b → 128 ≤ b → b = 255 ∧ i + 4 ≤ bytes.length := by
  have hlen : ∀ b : UInt8, (upperHex b.toInt8.toInt32).length = if b < 128 then 2 else 8 := by
    intro b
    rw [upperHex_signed]
    split <;> rfl
  rw [and_iff_right (ubytesToString_encodes bytes), bytesToString,
    encodeFrom_encodes (fun b => by rw [hlen]; split <;> omega), upperHex_signed_take,
    ubytesToString_injective.eq_iff]
  constructor
  · rintro ⟨hsame, hends⟩ i b hb hneg
    have hnot : ¬ b < 128 := UInt8.not_lt.mpr hneg
    have hend := hends i b hb
    rw [hlen, if_neg hnot] at hend
    have hbyte := congrArg (·[i]?) hsame
    simp only [List.getElem?_map, hb, Option.map_some, if_neg hnot, Option.some.injEq] at hbyte
    exact ⟨hbyte.symm, by omega⟩
  · intro h
    refine ⟨?_, fun i b hb => ?_⟩
    · refine (List.map_congr_left fun b hb => ?_).trans (List.map_id bytes)
      obtain ⟨i, hi⟩ := List.mem_iff_getElem?.mp hb
      split
      · rfl
      · next hnot => exact (h i b hi (UInt8.not_lt.mp hnot)).1.symm
    · have hi := (List.getElem?_eq_some_iff.mp hb).1
      rw [hlen]
      split
      · omega
      · next hnot =>
        have := (h i b hb (UInt8.not_lt.mp hnot)).2
        omega

/-- A single byte of 128 prints as eight digits, with the NUL behind them. -/
theorem bytesToString_overruns :
    ¬ ∀ bytes : List UInt8,
      Encodes bytes (ubytesToString bytes) ∧ Encodes bytes (bytesToString bytes) := by
  intro h
  have hinside := (h [128]).2.inside (8, 0) (by decide +kernel)
  exact absurd hinside (by decide)

end VhIM.Utility.HexStrings
