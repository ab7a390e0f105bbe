import VhIM.Network.Turns

/-! # When `bp_process_data` returns 0

The header says of the result: 0 if processing did not happen. The size is
tested in every turn, and a turn that read too much has already called back
and rewritten the rest buffer when the next one finds a size below zero. -/
namespace VhIM.Network
open VhIM.Lib

def record (packet : List UInt8) (out : List (List UInt8)) : List (List UInt8) := out ++ [packet]

/-- A call that returns 0 has handed nothing over, and left the rest buffer
and its length as they were. -/
def RejectsUnchanged (restBuffer data : List UInt8) (junk : Nat → Nat → UInt8) : Prop :=
  ∀ fuel rest out, bpLoop record junk data fuel 0 restBuffer [] = some (0, rest, out) →
    out = [] ∧ rest = restBuffer

variable {restBuffer data : List UInt8} {r d : Nat} {size : Int32}

/-! ## One turn that is the last -/

theorem rejects_unchanged_of_size {junk : Nat → Nat → UInt8}
    (h : sizeField (junk 0) restBuffer data < 0 ∨
      restBuffer.length + data.length ≤ (sizeField (junk 0) restBuffer data).toInt) :
    RejectsUnchanged restBuffer data junk := by
  intro fuel rest out hrun
  cases fuel with
  | zero => cases hrun
  | succ fuel =>
    obtain hret | ⟨rest', out', hret⟩ := bpLoop_last h record fuel []
    · rw [hret] at hrun
      cases hrun
      exact ⟨rfl, rfl⟩
    · rw [hret] at hrun
      cases hrun

/-! ## A size of zero -/

/-- With a whole size field of zeros there is no end. -/
theorem zero_size_loops {junk : Nat → Nat → UInt8} {fuel turn : Nat}
    (hsize : sizeField (junk turn) restBuffer data = 0) (h4 : 4 ≤ restBuffer.length + data.length)
    (out : List (List UInt8)) : bpLoop record junk data fuel turn restBuffer out = none := by
  induction fuel generalizing turn restBuffer out with
  | zero => rfl
  | succ fuel ih =>
    have hkind : OfKind restBuffer.length data.length 0 (junk turn) restBuffer data :=
      ⟨rfl, rfl, hsize⟩
    have hmore := hkind.more (n := 0) rfl (by omega)
    rw [Nat.mul_zero, List.drop_zero, Nat.sub_zero] at hmore
    have hlen : ((totalData (junk turn) restBuffer data).take
        (restBuffer.length + data.length)).length = restBuffer.length + data.length := by
      rw [List.length_take, totalData_length, ptrSize]
      omega
    rw [bpLoop, hmore]
    refine ih ?_ (by omega) _
    rw [sizeField_rest _ (by omega), ← hsize, sizeField, intSize, ← bcToInt_take, List.take_take,
      min_eq_left h4]

/-- One byte and no chunk: it is handed on from turn to turn, or a packet. -/
theorem one_byte_accepted {junk : Nat → Nat → UInt8} {b : UInt8} (hb : ¬ b.toBitVec.msb = true)
    (fuel turn : Nat) (rest : List UInt8) (out out' : List (List UInt8)) :
    bpLoop record junk [] fuel turn [b] out ≠ some (0, rest, out') := by
  induction fuel generalizing turn out with
  | zero => simp [bpLoop]
  | succ fuel ih =>
    have hneg : ¬ sizeField (junk turn) [b] [] < 0 := by rwa [sizeField_neg_iff (by simp)]
    rw [bpLoop]
    rcases lt_trichotomy (sizeField (junk turn) [b] []).toInt.toNat 1 with hlt | heq | hgt
    · have hmore := (bpTurn_more hneg hlt).1
      have hb' : (totalData (junk turn) [b] []).take 1 = [b] := rfl
      rw [Nat.lt_one_iff.mp hlt] at hmore
      rw [hmore]
      dsimp only
      rw [Nat.mul_zero, List.drop_zero, List.length_singleton, List.length_nil, hb']
      exact ih _ _
    · rw [bpTurn_eq_whole hneg heq]
      simp
    · rw [(bpTurn_store hneg hgt).1]
      simp

/-! ## Calls that go wrong -/

/-- A size, and behind it nothing but the starts of sizes below zero. -/
def badCells (size : Int32) (k : Nat) : UInt8 := if k < 4 then (bcFromInt size).getD k 0 else 255

theorem badCells_rejected {n : Nat} (hsize : size.toInt = n) (hpos : 0 < n) (hlt : n < r + d)
    (junk : Nat → UInt8) : ∃ packet rest,
      bpTurn (badCells size) (restCells (badCells size) r) (dataCells (badCells size) r d) =
        .more packet rest ∧ bpTurn junk rest (dataCells (badCells size) r d) = .reject := by
  have hkind : OfKind r d size (badCells size) (restCells (badCells size) r)
      (dataCells (badCells size) r d) := ofKind_cells (by omega) fun k hk => if_pos hk
  refine ⟨_, _, hkind.more hsize hlt, bpTurn_reject ?_⟩
  generalize hrest : ((totalData _ _ _).drop _).take _ = rest
  have hlen : rest.length = r + d - n := by
    rw [← hrest, hkind.rest, hkind.chunk, List.length_take, List.length_drop, totalData_length,
      hkind.rest, hkind.chunk, ptrSize]
    omega
  have hhead : rest.getD 0 0 = 255 := by
    have hcell := totalData_cells (badCells size) (r := r) (d := d) (k := ptrSize * n)
      (by simp only [ptrSize]; omega)
    rw [badCells, if_neg (by simp only [ptrSize]; omega)] at hcell
    rw [← hrest, hkind.rest, hkind.chunk, ← hcell]
    simp only [List.getD_eq_getElem?_getD, List.getElem?_take, List.getElem?_drop, Nat.add_zero,
      if_pos (show 0 < r + d - n by omega)]
  rw [sizeField_neg_iff (List.ne_nil_of_length_pos (by omega)), hhead]
  rfl

/-- Zeros that are taken for a size of one. -/
def oneCells (k : Nat) : UInt8 := if k < 3 then 0 else if k = 3 then 1 else 255

/-- Less than a size field, all zeros: what the array holds decides. -/
theorem short_zeros_rejected (hlt : r + d < 4) (hpos : 0 < r + d) (hne : ¬ (r = 1 ∧ d = 0)) :
    ∃ rest packet out, bpLoop record
      (fun turn => if turn = 0 ∨ turn = 1 ∧ r + d = 1 then fun _ => 0 else oneCells)
      (dataCells (fun _ => 0) r d) 4 0 (restCells (fun _ => 0) r) [] =
        some (0, rest, packet :: out) := by
  have hr : r < 4 := by omega
  have hd : d < 4 := by omega
  interval_cases r <;> interval_cases d <;> first | omega | exact ⟨_, _, _, rfl⟩

/-- Of the calls with given lengths that find a given size, none that returns 0
has had an effect exactly if that size is below zero, no less than there are
bytes, or zero in a whole size field, which no turn gets past. -/
theorem rejects_unchanged_iff (r d : Nat) (size : Int32) :
    (∀ junk restBuffer data, OfKind r d size (junk 0) restBuffer data →
      RejectsUnchanged restBuffer data junk) ↔
    size < 0 ∨ r + d ≤ size.toInt ∨ (size = 0 ∧ (4 ≤ r + d ∨ (r = 1 ∧ d = 0))) := by
  constructor
  · intro h
    by_contra hcond
    simp only [not_or, not_le, not_and] at hcond
    obtain ⟨hneg, hlt, hzero⟩ := hcond
    obtain ⟨n, hn⟩ : ∃ n : Nat, size.toInt = n := by
      rw [Int32.lt_iff_toInt_lt, Int32.toInt_zero, not_lt] at hneg
      exact Int.eq_ofNat_of_zero_le hneg
    rcases Nat.eq_zero_or_pos n with rfl | hpos
    · obtain rfl : size = 0 := Int32.toInt_inj.mp hn
      obtain ⟨hshort, hone⟩ := hzero rfl
      obtain ⟨rest, packet, out, hrun⟩ :=
        short_zeros_rejected (by omega) (by omega) fun ⟨hr, hd⟩ => hone hr hd
      have hkind : OfKind r d 0 (fun _ => 0) (restCells (fun _ => 0) r)
          (dataCells (fun _ => 0) r d) := by
        refine ofKind_cells (by omega) fun k hk => ?_
        interval_cases k <;> rfl
      exact absurd (h _ _ _ hkind _ _ _ hrun).1 (List.cons_ne_nil _ _)
    · obtain ⟨packet, rest, hmore, hreject⟩ :=
        badCells_rejected (r := r) (d := d) hn hpos (by omega) fun _ => 0
      have hrun : bpLoop record (fun turn => if turn = 0 then badCells size else fun _ => 0)
          (dataCells (badCells size) r d) 2 0 (restCells (badCells size) r) [] =
            some (0, rest, [packet]) := by
        simp only [bpLoop, if_true, hmore, Nat.zero_add, Nat.one_ne_zero, if_false, hreject, record,
          List.nil_append]
      have hkind : OfKind r d size (badCells size) (restCells (badCells size) r)
          (dataCells (badCells size) r d) := ofKind_cells (by omega) fun k hk => if_pos hk
      exact absurd (h _ _ _ hkind _ _ _ hrun).1 (List.cons_ne_nil _ _)
  · rintro h junk restBuffer data ⟨hr, hd, hsize⟩
    rcases or_assoc.mpr h with h | ⟨rfl, h4 | ⟨rfl, rfl⟩⟩
    · exact rejects_unchanged_of_size (by rwa [hsize, hr, hd])
    · intro fuel rest out hrun
      rw [zero_size_loops hsize (by omega)] at hrun
      cases hrun
    · intro fuel rest out hrun
      obtain ⟨b, rfl⟩ := List.length_eq_one_iff.mp hr
      obtain rfl := List.length_eq_zero_iff.mp hd
      have hb : ¬ b.toBitVec.msb = true := by
        have hneg : ¬ sizeField (junk 0) [b] [] < 0 := by rw [hsize]; decide
        rwa [sizeField_neg_iff (by simp)] at hneg
      exact absurd hrun (one_byte_accepted hb fuel 0 rest [] out)

/-- A packet that is only its size, and at eight times that the start of an
overflow with a size below zero. -/
def badChunk : List UInt8 := [0, 0, 0, 4] ++ List.replicate 28 0 ++ [255, 255, 255, 255]

/-- Nothing is written past the end of the rest buffer here. -/
theorem rejected_after_delivery :
    ¬ ∀ (restBuffer data : List UInt8) (junk : Nat → Nat → UInt8),
      restBuffer.length ≤ restCapacity → data.length ≤ 1024 →
        RejectsUnchanged restBuffer data junk := by
  intro h
  have hrun : ∃ rest, bpProcessData (fun packet out => .ok (record packet out)) (fun _ _ => 0)
      badChunk 2 0 [] [] = some (.returned 0 rest [[0, 0, 0, 4]]) :=
    ⟨[255, 255, 255, 255] ++ List.replicate 28 0, rfl⟩
  obtain ⟨rest, hrun⟩ := hrun
  have hclean := h [] badChunk (fun _ _ => 0) (by decide) (by decide) 2 rest _
    (bpLoop_of_returned hrun)
  exact absurd hclean.1 (by decide)

end VhIM.Network
