import VhIM.Network.ByteProcessor

/-! # The turns of `bp_process_data`

What a turn makes of the size it finds in the first four bytes of
`total_data`, where those bytes come from, and the loop with nothing but its
turns. -/
namespace VhIM.Network
open VhIM.Lib

variable {junk : Nat → UInt8} {restBuffer data : List UInt8}

/-! ## What a turn makes of the size it finds -/

/-- The size in the first four bytes of `total_data`. -/
def sizeField (junk : Nat → UInt8) (restBuffer data : List UInt8) : Int32 :=
  bcToInt ((totalData junk restBuffer data).take intSize)

theorem bpTurn_reject (h : sizeField junk restBuffer data < 0) :
    bpTurn junk restBuffer data = .reject := by
  unfold sizeField at h
  simp only [bpTurn, if_pos h]

/-- The rest keeps the length that the sizes leave, not the bytes. -/
theorem bpTurn_more (hneg : ¬ sizeField junk restBuffer data < 0)
    (hlt : (sizeField junk restBuffer data).toInt.toNat < restBuffer.length + data.length) :
    let size := (sizeField junk restBuffer data).toInt.toNat
    let total := totalData junk restBuffer data
    let rest := (total.drop (ptrSize * size)).take (restBuffer.length + data.length - size)
    bpTurn junk restBuffer data = .more (total.take size) rest ∧
      rest.length = restBuffer.length + data.length - size := by
  intro size total rest
  unfold sizeField at hneg hlt
  refine ⟨by simp only [bpTurn, if_neg hneg, if_pos hlt]; rfl, ?_⟩
  have hsize : size < restBuffer.length + data.length := hlt
  simp only [rest, total, List.length_take, List.length_drop, totalData_length, ptrSize]
  omega

theorem bpTurn_eq_whole (hneg : ¬ sizeField junk restBuffer data < 0)
    (heq : (sizeField junk restBuffer data).toInt.toNat = restBuffer.length + data.length) :
    bpTurn junk restBuffer data =
      .whole ((totalData junk restBuffer data).take (restBuffer.length + data.length)) := by
  unfold sizeField at hneg heq
  simp only [bpTurn, if_neg hneg, heq, lt_irrefl, if_false, if_true]

theorem bpTurn_store (hneg : ¬ sizeField junk restBuffer data < 0)
    (hgt : restBuffer.length + data.length < (sizeField junk restBuffer data).toInt.toNat) :
    let rest := (totalData junk restBuffer data).take (restBuffer.length + data.length)
    bpTurn junk restBuffer data = .store rest ∧
      rest.length = restBuffer.length + data.length := by
  intro rest
  unfold sizeField at hneg hgt
  refine ⟨by simp only [bpTurn, if_neg hneg, if_neg hgt.le.not_gt, if_neg hgt.ne']; rfl, ?_⟩
  simp only [rest, List.length_take, totalData_length, ptrSize]
  omega

/-! ## The bytes of `total_data` -/

theorem totalData_getD (junk : Nat → UInt8) (restBuffer data : List UInt8) (k : Nat) :
    (totalData junk restBuffer data).getD k 0 =
      if ptrSize * restBuffer.length ≤ k ∧ k < ptrSize * restBuffer.length + data.length then
        data.getD (k - ptrSize * restBuffer.length) 0
      else if k < restBuffer.length then restBuffer.getD k 0
      else if k < ptrSize * (restBuffer.length + data.length) then junk k
      else 0 := by
  have hblock : ((List.range (ptrSize * (restBuffer.length + data.length))).map junk).length =
      ptrSize * (restBuffer.length + data.length) := by simp
  have hrest : 0 + restBuffer.length ≤
      ((List.range (ptrSize * (restBuffer.length + data.length))).map junk).length := by
    rw [hblock, ptrSize]
    omega
  simp only [totalData]
  rw [memcpy_getD (by rw [memcpy_length hrest, hblock, ptrSize]; omega), memcpy_getD hrest]
  simp only [Nat.zero_le, true_and, Nat.zero_add, Nat.sub_zero]
  congr 2
  by_cases hk : k < ptrSize * (restBuffer.length + data.length)
  · simp [List.getD_eq_getElem?_getD, hk]
  · simp [List.getD_eq_getElem?_getD, hk]

theorem bcToInt_congr {l m : List UInt8} (h : ∀ k < 4, l.getD k 0 = m.getD k 0) :
    bcToInt l = bcToInt m := by
  simp only [bcToInt, h 0 (by decide), h 1 (by decide), h 2 (by decide), h 3 (by decide)]

/-- Of a size below zero the first byte has the sign. -/
theorem bcToInt_neg_iff (data : List UInt8) :
    bcToInt data < 0 ↔ (data.getD 0 0).toBitVec.msb = true := by
  have hmsb : (bcToInt data).toBitVec.msb = (data.getD 0 0).toBitVec.msb := by
    simp [bcToInt, promote, BitVec.msb_eq_getLsbD_last]
  rw [← hmsb, Int32.lt_iff_toInt_lt, BitVec.msb_eq_toInt, decide_eq_true_iff]
  rfl

theorem sizeField_neg_iff (h : restBuffer ≠ []) :
    sizeField junk restBuffer data < 0 ↔ (restBuffer.getD 0 0).toBitVec.msb = true := by
  have hpos := List.length_pos_of_ne_nil h
  rw [sizeField, intSize, bcToInt_take, bcToInt_neg_iff, totalData_getD,
    if_neg (by simp only [ptrSize]; omega), if_pos hpos]

/-- The size of what is left over, if that has a whole size field. -/
theorem sizeField_rest (junk : Nat → UInt8) (h : 4 ≤ restBuffer.length) (data : List UInt8) :
    sizeField junk restBuffer data = bcToInt restBuffer := by
  rw [sizeField, intSize, bcToInt_take]
  apply bcToInt_congr
  intro k hk
  rw [totalData_getD, if_neg (by simp only [ptrSize]; omega), if_pos (by omega)]

/-- That of the chunk, if nothing is left over. -/
theorem sizeField_nil (junk : Nat → UInt8) (h : 4 ≤ data.length) :
    sizeField junk [] data = bcToInt data := by
  rw [sizeField, totalData_nil_size junk h]

/-! ## Contents of any lengths -/

/-- The calls with `r` bytes left over and a chunk of `d` that find `size`. -/
structure OfKind (r d : Nat) (size : Int32) (junk : Nat → UInt8)
    (restBuffer data : List UInt8) : Prop where
  rest : restBuffer.length = r
  chunk : data.length = d
  size : sizeField junk restBuffer data = size

/-- What is left over and what comes in, where `total_data` is to hold `f`. -/
def restCells (f : Nat → UInt8) (r : Nat) : List UInt8 := (List.range r).map f

def dataCells (f : Nat → UInt8) (r d : Nat) : List UInt8 :=
  (List.range d).map fun k => f (ptrSize * r + k)

theorem totalData_cells (f : Nat → UInt8) {r d k : Nat} (hk : k < ptrSize * (r + d)) :
    (totalData f (restCells f r) (dataCells f r d)).getD k 0 = f k := by
  have hrest : (restCells f r).length = r := by simp [restCells]
  have hdata : (dataCells f r d).length = d := by simp [dataCells]
  rw [totalData_getD, hrest, hdata]
  by_cases hmid : ptrSize * r ≤ k ∧ k < ptrSize * r + d
  · have hlt : k - ptrSize * r < d := by omega
    rw [if_pos hmid, dataCells]
    simp only [List.getD_eq_getElem?_getD, List.getElem?_map, List.getElem?_range hlt,
      Option.map_some, Option.getD_some]
    congr 1
    omega
  · rw [if_neg hmid, if_pos hk]
    by_cases hr : k < r
    · simp [restCells, List.getD_eq_getElem?_getD, hr]
    · rw [if_neg hr]

theorem ofKind_cells {f : Nat → UInt8} {r d : Nat} {size : Int32} (hpos : 0 < r + d)
    (hf : ∀ k < 4, f k = (bcFromInt size).getD k 0) :
    OfKind r d size f (restCells f r) (dataCells f r d) := by
  refine ⟨by simp [restCells], by simp [dataCells], ?_⟩
  rw [sizeField, intSize, bcToInt_take, bcToInt_congr (m := bcFromInt size)]
  · simpa using bcToInt_fromInt size []
  · intro k hk
    rw [totalData_cells f (by simp only [ptrSize]; omega), hf k hk]

theorem OfKind.more {r d n : Nat} {size : Int32} (h : OfKind r d size junk restBuffer data)
    (hsize : size.toInt = n) (hlt : n < r + d) :
    bpTurn junk restBuffer data = .more ((totalData junk restBuffer data).take n)
      (((totalData junk restBuffer data).drop (ptrSize * n)).take
        (restBuffer.length + data.length - n)) := by
  have hnat : (sizeField junk restBuffer data).toInt.toNat = n := by
    rw [h.size, hsize, Int.toNat_natCast]
  have hneg : ¬ sizeField junk restBuffer data < 0 := by
    rw [h.size, Int32.lt_iff_toInt_lt, Int32.toInt_zero]
    omega
  have hmore := bpTurn_more hneg (by rwa [hnat, h.rest, h.chunk])
  rw [hnat] at hmore
  exact hmore.1

/-! ## The loop in itself -/

variable {σ : Type}

/-- `bp_process_data` knows no capacity of the rest buffer. Here it writes where
it is told to, and the callback always returns. -/
def bpLoop (cb : List UInt8 → σ → σ) (junk : Nat → Nat → UInt8) (data : List UInt8) :
    Nat → Nat → List UInt8 → σ → Option (Int32 × List UInt8 × σ)
  | 0, _, _, _ => none
  | fuel + 1, turn, restBuffer, s =>
    match bpTurn (junk turn) restBuffer data with
    | .reject => some (0, restBuffer, s)
    | .more packet rest => bpLoop cb junk data fuel (turn + 1) rest (cb packet s)
    | .whole packet => some (1, restBuffer, cb packet s)
    | .store rest => some (1, rest, s)

/-- A size that is not too small for the bytes there are ends the call: either
it is refused, with no effect, or the result is 1. -/
theorem bpLoop_last {junk : Nat → Nat → UInt8} {turn : Nat}
    (h : sizeField (junk turn) restBuffer data < 0 ∨
      restBuffer.length + data.length ≤ (sizeField (junk turn) restBuffer data).toInt)
    (cb : List UInt8 → σ → σ) (fuel : Nat) (s : σ) :
    bpLoop cb junk data (fuel + 1) turn restBuffer s = some (0, restBuffer, s) ∨
      ∃ rest t, bpLoop cb junk data (fuel + 1) turn restBuffer s = some (1, rest, t) := by
  rw [bpLoop]
  by_cases hneg : sizeField (junk turn) restBuffer data < 0
  · rw [bpTurn_reject hneg]
    exact .inl rfl
  · have hle := h.resolve_left hneg
    rcases eq_or_ne (sizeField (junk turn) restBuffer data).toInt.toNat
      (restBuffer.length + data.length) with heq | hne
    · rw [bpTurn_eq_whole hneg heq]
      exact .inr ⟨_, _, rfl⟩
    · rw [(bpTurn_store hneg (by omega)).1]
      exact .inr ⟨_, _, rfl⟩

/-- Where nothing is written past the end, the two loops agree. -/
theorem bpLoop_of_returned {cb : List UInt8 → σ → σ} {junk : Nat → Nat → UInt8} {fuel turn : Nat}
    {code : Int32} {rest : List UInt8} {s t : σ}
    (h : bpProcessData (fun packet s => .ok (cb packet s)) junk data fuel turn restBuffer s =
      some (.returned code rest t)) :
    bpLoop cb junk data fuel turn restBuffer s = some (code, rest, t) := by
  induction fuel generalizing turn restBuffer s with
  | zero => cases h
  | succ fuel ih =>
    rw [bpProcessData] at h
    rw [bpLoop]
    split at h
    · next hstep =>
      obtain ⟨packet, hturn, hcb, _⟩ := bpStep_eq_again.mp hstep
      cases hcb
      rw [hturn]
      exact ih h
    · obtain ⟨hturn, rfl, rfl, rfl⟩ | ⟨packet, hturn, hcb, rfl, rfl⟩ | ⟨hturn, _, rfl, rfl⟩ :=
        bpStep_eq_returned.mp (Option.some.inj h)
      · rw [hturn]
      · cases hcb
        rw [hturn]
      · rw [hturn]

end VhIM.Network
