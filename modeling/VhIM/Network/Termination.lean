import VhIM.Network.Turns

/-! # When `bp_process_data` returns

A turn that has read too much appends the same chunk again and takes the size
of the next packet from eight times its offset. What it finds there need not
bring the loop any further. -/
namespace VhIM.Network
open VhIM.Lib

variable {junk : Nat → UInt8} {restBuffer data : List UInt8}

/-! ## A rest that the loop does not get past -/

/-- The rest starts with four zeros, as far as it goes. -/
structure ZeroHead (restBuffer : List UInt8) : Prop where
  ne : restBuffer ≠ []
  zero : ∀ k < 4, restBuffer.getD k 0 = 0

/-- Where `total_data` has four zeros at the overflow, the next rest does. -/
theorem zeroHead_more {size : Nat} (hlt : size < restBuffer.length + data.length)
    (hzero : ∀ k < 4, (totalData junk restBuffer data).getD (ptrSize * size + k) 0 = 0) :
    ZeroHead (((totalData junk restBuffer data).drop (ptrSize * size)).take
      (restBuffer.length + data.length - size)) := by
  refine ⟨?_, ?_⟩
  · apply List.ne_nil_of_length_pos
    simp only [List.length_take, List.length_drop, totalData_length, ptrSize]
    omega
  · intro k hk
    have hcell := hzero k hk
    simp only [List.getD_eq_getElem?_getD, List.getElem?_take, List.getElem?_drop] at hcell ⊢
    split
    · exact hcell
    · rfl

theorem sizeField_zero (h : ZeroHead restBuffer) (data : List UInt8) :
    (∀ k < 4, (totalData (fun _ => 0) restBuffer data).getD k 0 = 0) ∧
      sizeField (fun _ => 0) restBuffer data = 0 := by
  have hpos := List.length_pos_of_ne_nil h.ne
  have hcells : ∀ k < 4, (totalData (fun _ => 0) restBuffer data).getD k 0 = 0 := by
    intro k hk
    rw [totalData_getD, if_neg (by simp only [ptrSize]; omega), h.zero k hk]
    split_ifs <;> rfl
  refine ⟨hcells, ?_⟩
  rw [sizeField, intSize, bcToInt_take, bcToInt_congr (m := [0, 0, 0, 0])]
  · decide
  · intro k hk
    rw [hcells k hk]
    interval_cases k <;> rfl

/-- The packet is empty, and the chunk is appended once more. -/
theorem bpTurn_zeroHead (h : ZeroHead restBuffer) (data : List UInt8) :
    ∃ packet rest, bpTurn (fun _ => 0) restBuffer data = .more packet rest ∧ ZeroHead rest ∧
      rest.length = restBuffer.length + data.length := by
  have hpos := List.length_pos_of_ne_nil h.ne
  obtain ⟨hcells, hsize⟩ := sizeField_zero h data
  have hnat : (sizeField (fun _ => 0) restBuffer data).toInt.toNat = 0 := by rw [hsize]; rfl
  have hneg : ¬ sizeField (fun _ => 0) restBuffer data < 0 := by rw [hsize]; decide
  have hmore := bpTurn_more hneg (by rw [hnat]; omega)
  rw [hnat] at hmore
  exact ⟨_, _, hmore.1, zeroHead_more (by omega) (by simpa using hcells), hmore.2⟩

variable {σ : Type}

theorem zeroHead_loops (cb : List UInt8 → σ → σ) {junk : Nat → Nat → UInt8} {turn : Nat}
    (hjunk : ∀ k, turn ≤ k → junk k = fun _ => 0) (h : ZeroHead restBuffer) (fuel : Nat) (s : σ) :
    bpLoop cb junk data fuel turn restBuffer s = none := by
  induction fuel generalizing turn restBuffer s with
  | zero => rfl
  | succ fuel ih =>
    obtain ⟨packet, rest, hturn, hrest, _⟩ := bpTurn_zeroHead h data
    rw [bpLoop, hjunk turn le_rfl, hturn]
    exact ih (fun k hk => hjunk k (by omega)) hrest _

/-! ## Returning -/

/-- The loop ends, whatever the callback does and `total_data` held. -/
def Returns (σ : Type) (restBuffer data : List UInt8) (junk : Nat → Nat → UInt8) : Prop :=
  ∀ (cb : List UInt8 → σ → σ) (s : σ), ∃ fuel, (bpLoop cb junk data fuel 0 restBuffer s).isSome

/-- The first turn is the last one if it has not read too much. -/
theorem returns_of_size {junk : Nat → Nat → UInt8}
    (h : sizeField (junk 0) restBuffer data < 0 ∨
      restBuffer.length + data.length ≤ (sizeField (junk 0) restBuffer data).toInt) :
    Returns σ restBuffer data junk := by
  intro cb s
  refine ⟨1, ?_⟩
  obtain hret | ⟨rest, t, hret⟩ := bpLoop_last h cb 0 s
  · rw [hret]
    rfl
  · rw [hret]
    rfl

/-- The bytes of a size, and zeros behind it. -/
def sizeBytes (size : Int32) (k : Nat) : UInt8 := (bcFromInt size).getD k 0

/-- Eight times a size that is not negative points behind it, or at zeros. -/
theorem sizeBytes_behind {size : Int32} (hneg : ¬ size < 0) {k : Nat} (hk : k < 4) :
    sizeBytes size (ptrSize * size.toInt.toNat + k) = 0 := by
  by_cases hz : size = 0
  · subst hz
    interval_cases k <;> rfl
  · have hpos : size.toInt.toNat ≠ 0 := by
      intro h0
      have hint : size.toInt = (0 : Int32).toInt := by
        rw [Int32.lt_iff_toInt_lt, Int32.toInt_zero] at hneg
        rw [Int32.toInt_zero]
        omega
      exact hz (Int32.toInt_inj.mp hint)
    rw [sizeBytes, List.getD_eq_default]
    rw [bcFromInt_length, ptrSize]
    omega

/-- What a turn over such bytes leaves over starts with four zeros. -/
theorem bpTurn_sizeBytes {r d : Nat} {size : Int32} (hneg : ¬ size < 0) (hlt : size.toInt < r + d) :
    ∃ packet rest, bpTurn (sizeBytes size) (restCells (sizeBytes size) r)
      (dataCells (sizeBytes size) r d) = .more packet rest ∧ ZeroHead rest := by
  obtain ⟨n, hn⟩ : ∃ n : Nat, size.toInt = n := by
    rw [Int32.lt_iff_toInt_lt, Int32.toInt_zero, not_lt] at hneg
    exact Int.eq_ofNat_of_zero_le hneg
  have hkind : OfKind r d size (sizeBytes size) (restCells (sizeBytes size) r)
      (dataCells (sizeBytes size) r d) := ofKind_cells (by omega) fun _ _ => rfl
  refine ⟨_, _, hkind.more hn (by omega), zeroHead_more ?_ fun k hk => ?_⟩
  · rw [hkind.rest, hkind.chunk]
    omega
  · have hbehind := sizeBytes_behind hneg hk
    rw [hn, Int.toNat_natCast] at hbehind
    rw [totalData_cells _ (by simp only [ptrSize]; omega), hbehind]

/-- Of the inputs with given lengths that find a given size, all are returned
from exactly if that size is below zero, or no less than there are bytes. -/
theorem bpProcessData_returns_iff [Inhabited σ] {r d : Nat} {size : Int32} (hd : 0 < d) :
    (∀ junk restBuffer data, OfKind r d size (junk 0) restBuffer data →
      Returns σ restBuffer data junk) ↔ size < 0 ∨ r + d ≤ size.toInt := by
  constructor
  · intro h
    by_contra hcond
    simp only [not_or, not_le] at hcond
    obtain ⟨hneg, hlt⟩ := hcond
    obtain ⟨packet, rest, hturn, hhead⟩ := bpTurn_sizeBytes hneg hlt
    obtain ⟨fuel, hret⟩ := h (fun turn => if turn = 0 then sizeBytes size else fun _ => 0) _ _
      (ofKind_cells (by omega) fun _ _ => rfl) (fun _ s => s) default
    cases fuel with
    | zero => cases hret
    | succ fuel =>
      rw [bpLoop, if_pos rfl, hturn] at hret
      dsimp only at hret
      rw [zeroHead_loops _ (fun k hk => if_neg (by omega)) hhead] at hret
      cases hret
  · intro h junk restBuffer data hkind
    apply returns_of_size
    rw [hkind.size, hkind.rest, hkind.chunk]
    exact h

/-- A packet of five bytes that comes whole. -/
theorem bpProcessData_returns_iff_five : Returns Unit [] [0, 0, 0, 5, 7] (fun _ _ => 0) := by
  have hsize : sizeField (fun _ => 0) [] [0, 0, 0, 5, 7] = 5 := by
    rw [sizeField_nil _ (by decide)]
    decide
  exact (bpProcessData_returns_iff (r := 0) (d := 5) (by decide)).mpr (.inr (by decide))
    (fun _ _ => 0) [] [0, 0, 0, 5, 7] ⟨rfl, rfl, hsize⟩

/-- A rest and a chunk that are both a header counting only itself: whatever
the array holds, the turn hands the rest over and keeps the chunk for it. -/
theorem bpTurn_header_twice (junk : Nat → UInt8) :
    bpTurn junk [0, 0, 0, 4] [0, 0, 0, 4] = .more [0, 0, 0, 4] [0, 0, 0, 4] := by
  have hsize : sizeField junk [0, 0, 0, 4] [0, 0, 0, 4] = 4 := by
    have htake : (totalData junk [0, 0, 0, 4] [0, 0, 0, 4]).take intSize = [0, 0, 0, 4] := rfl
    rw [sizeField, htake]
    decide
  have hnat : (4 : Int32).toInt.toNat = 4 := rfl
  have hneg : ¬ sizeField junk [0, 0, 0, 4] [0, 0, 0, 4] < 0 := by rw [hsize]; decide
  have hmore := bpTurn_more hneg (by rw [hsize, hnat]; decide)
  rw [hsize, hnat] at hmore
  exact hmore.1

theorem header_twice_loops (cb : List UInt8 → σ → σ) (junk : Nat → Nat → UInt8)
    (fuel turn : Nat) (s : σ) : bpLoop cb junk [0, 0, 0, 4] fuel turn [0, 0, 0, 4] s = none := by
  induction fuel generalizing turn s with
  | zero => rfl
  | succ fuel ih =>
    rw [bpLoop, bpTurn_header_twice]
    exact ih (turn + 1) _

/-- The rest buffer never holds more than four bytes, and still the call does
not return. -/
theorem bpProcessData_never_returns :
    ¬ ∀ (restBuffer data : List UInt8) (junk : Nat → Nat → UInt8),
      restBuffer.length ≤ restCapacity → data ≠ [] → data.length ≤ 1024 →
        Returns Unit restBuffer data junk := by
  intro h
  obtain ⟨fuel, hfuel⟩ :=
    h [0, 0, 0, 4] [0, 0, 0, 4] (fun _ _ => 0) (by decide) (by decide) (by decide)
      (fun _ s => s) ()
  rw [header_twice_loops] at hfuel
  cases hfuel

end VhIM.Network
