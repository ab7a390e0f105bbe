import VhIM.Lib.Runs
import VhIM.Network.Termination

/-! # What is stored in the rest buffer

Reads and the turns of `bp_process_data` for them, one call after the other,
as both listening loops make them. Nothing is checked here: a turn that
writes past the end of `rest_buffer` is one that stores more than it holds. -/
namespace VhIM.Network
open VhIM.Lib VhIM.Lib.Runs

/-- The value a turn gives to `rest_buffer`, and its length to
`rest_buffer_len`. -/
def Turn.stored : Turn → Option (List UInt8)
  | .more _ rest => some rest
  | .store rest => some rest
  | _ => none

def Turn.go : Turn → Bool
  | .more _ _ => true
  | _ => false

/-- What is left over, and the chunk that `bp_process_data` was called with,
if it has not returned. -/
structure Buffer where
  rest : List UInt8
  call : Option (List UInt8)

inductive BufferInput where
  | read (data : List UInt8)
  /-- What `total_data` holds in a turn. -/
  | turn (junk : Nat → UInt8)

/-- `rest_buffer_len = 0`, before the first read. -/
def Buffer.start : Buffer := ⟨[], none⟩

inductive BufferStep : BufferInput → Buffer → Buffer → Prop
  | read {rest data : List UInt8} : data ≠ [] → data.length ≤ 1024 →
      BufferStep (.read data) ⟨rest, none⟩ ⟨rest, some data⟩
  | turn {rest data : List UInt8} {junk : Nat → UInt8} :
      BufferStep (.turn junk) ⟨rest, some data⟩
        ⟨(bpTurn junk rest data).stored.getD rest,
          if (bpTurn junk rest data).go then some data else none⟩

theorem BufferStep.of_turn {junk : Nat → UInt8} {rest data : List UInt8} {turn : Turn}
    (h : bpTurn junk rest data = turn) : BufferStep (.turn junk) ⟨rest, some data⟩
      ⟨turn.stored.getD rest, if turn.go then some data else none⟩ := by
  rw [← h]
  exact .turn

/-- The turns of a call that returns. -/
theorem buffer_of_loop {σ : Type} {cb : List UInt8 → σ → σ} {junk : Nat → Nat → UInt8}
    {data restBuffer rest : List UInt8} {fuel turn : Nat} {code : Int32} {s t : σ}
    (h : bpLoop cb junk data fuel turn restBuffer s = some (code, rest, t)) :
    ∃ turns, Run BufferStep ⟨restBuffer, some data⟩ turns ⟨rest, none⟩ := by
  induction fuel generalizing turn restBuffer s with
  | zero => cases h
  | succ fuel ih =>
    rw [bpLoop] at h
    split at h
    · next hturn =>
      cases h
      exact ⟨_, .single (.of_turn hturn)⟩
    · next hturn =>
      obtain ⟨turns, hrun⟩ := ih h
      exact ⟨_, .cons (.of_turn hturn) hrun⟩
    · next hturn =>
      cases h
      exact ⟨_, .single (.of_turn hturn)⟩
    · next hturn =>
      cases h
      exact ⟨_, .single (.of_turn hturn)⟩

/-- A size that is refused, or that of all the `total` bytes there are, or
larger while these bytes have room in the rest buffer. -/
def Fits (size : Int32) (total : Nat) : Prop :=
  size < 0 ∨ size.toInt = total ∨ (total < size.toInt ∧ total ≤ restCapacity)

/-- The chunk, with the bytes left over before it, starts with such a size,
whatever `total_data` holds. -/
def FitsRead (rest data : List UInt8) : Prop :=
  ∀ junk, Fits (sizeField junk rest data) (rest.length + data.length)

variable {junk : Nat → UInt8} {restBuffer data : List UInt8}

/-! ## Reads that fit -/

/-- A call that finds such a size has one turn. -/
theorem bpTurn_fits (h : Fits (sizeField junk restBuffer data) (restBuffer.length + data.length)) :
    (bpTurn junk restBuffer data).go = false ∧
      ∀ rest, (bpTurn junk restBuffer data).stored = some rest → rest.length ≤ restCapacity := by
  by_cases hneg : sizeField junk restBuffer data < 0
  · rw [bpTurn_reject hneg]
    exact ⟨rfl, nofun⟩
  · rcases h.resolve_left hneg with heq | ⟨hgt, hle⟩
    · rw [bpTurn_eq_whole hneg (by omega)]
      exact ⟨rfl, nofun⟩
    · obtain ⟨hturn, hlen⟩ := bpTurn_store hneg (by omega)
      rw [hturn]
      refine ⟨rfl, fun rest hrest => ?_⟩
      cases hrest
      rwa [hlen]

/-- What is left over fits, and the chunk of a call that has begun does too. -/
structure Buffer.Within (b : Buffer) : Prop where
  rest : b.rest.length ≤ restCapacity
  call : ∀ data ∈ b.call, FitsRead b.rest data

theorem within_step (inp : BufferInput) (b b' : Buffer) (h : b.Within)
    (hstep : guarded BufferStep (fun inp b => ∀ data, inp = .read data → FitsRead b.rest data)
      inp b b') : b'.Within := by
  obtain ⟨hstep, hfits⟩ := hstep
  cases hstep with
  | read =>
    refine ⟨h.rest, fun data hdata => ?_⟩
    cases hdata
    exact hfits _ rfl
  | @turn rest data junk =>
    obtain ⟨hgo, hstored⟩ := bpTurn_fits (h.call data rfl junk)
    refine ⟨?_, fun data hdata => ?_⟩
    · dsimp only
      cases hs : (bpTurn junk rest data).stored with
      | none => exact h.rest
      | some stored => exact hstored stored hs
    · rw [hgo] at hdata
      cases hdata

/-- As long as every chunk fits when it is read, no turn of any call stores more
than the rest buffer holds. -/
theorem rest_buffer_fits {inputs : List BufferInput} {b : Buffer}
    (hrun : Run (guarded BufferStep fun inp b => ∀ data, inp = .read data → FitsRead b.rest data)
      .start inputs b) : b.rest.length ≤ restCapacity :=
  (hrun.invariant (I := Buffer.Within) within_step ⟨Nat.zero_le _, nofun⟩).rest

/-- A packet of seven bytes, of which five come first. -/
theorem rest_buffer_fits_two : ∃ b,
    Run (guarded BufferStep fun inp b => ∀ data, inp = .read data → FitsRead b.rest data) .start
      [.read [0, 0, 0, 7, 65], .turn fun _ => 9, .read [66, 67], .turn fun _ => 9] b ∧
    b.rest.length ≤ restCapacity := by
  have hsize : bcToInt [0, 0, 0, 7, 65] = 7 := by decide
  have hfirst : ∀ junk, sizeField junk [] [0, 0, 0, 7, 65] = 7 := fun junk =>
    (sizeField_nil junk (by decide)).trans hsize
  have hsecond : ∀ junk, sizeField junk [0, 0, 0, 7, 65] [66, 67] = 7 := fun junk =>
    (sizeField_rest junk (by decide) _).trans hsize
  have hstored : bpTurn (fun _ => 9) [] [0, 0, 0, 7, 65] = .store [0, 0, 0, 7, 65] := by
    rw [(bpTurn_store (by rw [hfirst]; decide) (by rw [hfirst]; decide)).1]
    exact congrArg Turn.store (totalData_nil_take (fun _ => 9) [0, 0, 0, 7, 65])
  have hwhole : bpTurn (fun _ => 9) [0, 0, 0, 7, 65] [66, 67] = .whole _ :=
    bpTurn_eq_whole (by rw [hsecond]; decide) (by rw [hsecond]; decide)
  have hfits : FitsRead [] [0, 0, 0, 7, 65] := fun junk => by
    rw [hfirst]
    exact .inr (.inr (by decide))
  have hfits' : FitsRead [0, 0, 0, 7, 65] [66, 67] := fun junk => by
    rw [hsecond]
    exact .inr (.inl (by decide))
  have hrun : Run (guarded BufferStep fun inp b => ∀ data, inp = .read data →
      FitsRead b.rest data) .start [.read [0, 0, 0, 7, 65], .turn fun _ => 9, .read [66, 67],
        .turn fun _ => 9] ⟨[0, 0, 0, 7, 65], none⟩ := by
    refine .cons ⟨.read (by decide) (by decide), ?_⟩ (.cons ⟨.of_turn hstored, nofun⟩
      (.cons ⟨.read (by decide) (by decide), ?_⟩ (.single ⟨.of_turn hwhole, nofun⟩)))
    · rintro _ ⟨⟩
      exact hfits
    · rintro _ ⟨⟩
      exact hfits'
  exact ⟨_, hrun, rest_buffer_fits hrun⟩

/-! ## Reads that do not -/

/-- Each turn over zeros keeps the chunk once more. -/
theorem zeroHead_grows (h : ZeroHead restBuffer) (data : List UInt8) (n : Nat) :
    ∃ rest, Run BufferStep ⟨restBuffer, some data⟩ (List.replicate n (.turn fun _ => 0))
      ⟨rest, some data⟩ ∧ rest.length = restBuffer.length + n * data.length := by
  induction n generalizing restBuffer with
  | zero => exact ⟨restBuffer, .nil _, by simp⟩
  | succ n ih =>
    obtain ⟨packet, rest, hturn, hhead, hlen⟩ := bpTurn_zeroHead h data
    obtain ⟨rest', hrun, hlen'⟩ := ih hhead
    refine ⟨rest', .cons (.of_turn hturn) hrun, ?_⟩
    rw [hlen', hlen, Nat.succ_mul]
    omega

/-- Of the chunks with given lengths and a size that does not fit, some make the
call store more than the rest buffer holds. -/
theorem misfit_overflows {r d : Nat} {size : Int32} (hd : 0 < d) (h : ¬ Fits size (r + d)) :
    ∃ junk restBuffer data turns b, OfKind r d size junk restBuffer data ∧
      Run BufferStep ⟨restBuffer, some data⟩ (.turn junk :: turns) b ∧
      restCapacity < b.rest.length := by
  simp only [Fits, not_or, not_and, not_le] at h
  obtain ⟨hneg, hne, hgt⟩ := h
  have hkind : OfKind r d size (sizeBytes size) (restCells (sizeBytes size) r)
      (dataCells (sizeBytes size) r d) := ofKind_cells (by omega) fun _ _ => rfl
  by_cases hlt : size.toInt < r + d
  · -- read too much: the chunk comes back until there is no room
    obtain ⟨packet, rest, hturn, hhead⟩ := bpTurn_sizeBytes hneg hlt
    obtain ⟨rest', hrun, hlen⟩ := zeroHead_grows hhead (dataCells (sizeBytes size) r d)
      (restCapacity + 1)
    refine ⟨_, _, _, _, _, hkind, .cons (.of_turn hturn) hrun, ?_⟩
    rw [hkind.chunk] at hlen
    have hmany := Nat.le_mul_of_pos_right (restCapacity + 1) hd
    dsimp only
    omega
  · -- an unfinished packet without room
    have hcap := hgt (by omega)
    obtain ⟨hturn, hlen⟩ := bpTurn_store (by rwa [hkind.size])
      (show (restCells (sizeBytes size) r).length + (dataCells (sizeBytes size) r d).length <
        (sizeField (sizeBytes size) (restCells (sizeBytes size) r)
          (dataCells (sizeBytes size) r d)).toInt.toNat by
        rw [hkind.size, hkind.rest, hkind.chunk]
        omega)
    have hmuch : restCapacity < ((totalData (sizeBytes size) (restCells (sizeBytes size) r)
        (dataCells (sizeBytes size) r d)).take ((restCells (sizeBytes size) r).length +
          (dataCells (sizeBytes size) r d).length)).length := by
      rw [hlen, hkind.rest, hkind.chunk]
      exact hcap
    exact ⟨_, _, _, [], _, hkind, .single (.of_turn hturn), hmuch⟩

/-- Two reads of more than half the capacity, of a packet that claims to be
longer than both. -/
theorem long_packet_overflows {chunk : List UInt8} (h4 : 4 ≤ chunk.length)
    (hle : chunk.length ≤ 1024) (hhalf : restCapacity < chunk.length + chunk.length)
    (hsize : chunk.length + chunk.length < (bcToInt chunk).toInt) (junk junk' : Nat → UInt8) :
    ∃ b, Run BufferStep .start [.read chunk, .turn junk, .read chunk, .turn junk'] b ∧
      restCapacity < b.rest.length := by
  have hneg : ¬ bcToInt chunk < 0 := by
    rw [Int32.lt_iff_toInt_lt, Int32.toInt_zero]
    omega
  have hread : ∀ rest, BufferStep (.read chunk) ⟨rest, none⟩ ⟨rest, some chunk⟩ := fun rest =>
    .read (List.ne_nil_of_length_pos (by omega)) hle
  -- the first piece is kept, and the second behind it
  have hfield := sizeField_nil junk h4
  have hgt : ([] : List UInt8).length + chunk.length < (sizeField junk [] chunk).toInt.toNat := by
    rw [hfield, List.length_nil]
    omega
  obtain ⟨hfirst, _⟩ := bpTurn_store (hfield ▸ hneg) hgt
  rw [List.length_nil, Nat.zero_add, totalData_nil_take] at hfirst
  have hfield' := sizeField_rest junk' h4 chunk
  have hgt' : chunk.length + chunk.length < (sizeField junk' chunk chunk).toInt.toNat := by
    rw [hfield']
    omega
  obtain ⟨hsecond, hlen⟩ := bpTurn_store (hfield' ▸ hneg) hgt'
  refine ⟨_, .cons (hread []) (.cons (.of_turn hfirst) (.cons (hread chunk)
    (.single (.of_turn hsecond)))), ?_⟩
  simp only [Turn.stored, Option.getD_some, hlen]
  exact hhalf

/-- A packet of 3000 bytes. -/
theorem rest_buffer_overflows :
    let chunk : List UInt8 := [0, 0, 11, 184] ++ List.replicate 1020 0
    ∃ b, Run BufferStep .start
        [.read chunk, .turn fun _ => 0, .read chunk, .turn fun _ => 0] b ∧
      restCapacity < b.rest.length := by
  intro chunk
  have hlen : chunk.length = 1024 := by
    rw [List.length_append, List.length_replicate]
    rfl
  have hint : bcToInt chunk = 3000 := by
    have hhead : (4 : Nat) ≤ ([0, 0, 11, 184] : List UInt8).length := le_rfl
    rw [bcToInt_append hhead]
    decide
  refine long_packet_overflows (by omega) (by omega) ?_ ?_ (fun _ => 0) (fun _ => 0)
  · rw [hlen]
    decide
  · rw [hlen, hint]
    decide

end VhIM.Network
