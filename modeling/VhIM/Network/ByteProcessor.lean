import VhIM.Network.DataPacket

/-! # The byte processor

`byteprocessor.c`: one turn of the `do` loop of `bp_process_data`, and the
loop. The local `total_data` is an array of `total_data_len` POINTERS, so its
element `k` lies at byte `8 * k`: the chunk is copied behind a gap, and the
overflow is fetched from eight times the offset it lies at. -/
namespace VhIM.Network
open VhIM.Lib

/-- `sizeof(byte *)`, the element size of `total_data`. -/
def ptrSize : Nat := 8

/-- The capacity both callers give to `rest_buffer`. -/
def restCapacity : Nat := 1024

/-- The bytes of `total_data` after the two copies of a turn; `junk` is what
the array held before. -/
def totalData (junk : Nat → UInt8) (restBuffer data : List UInt8) : List UInt8 :=
  let totalDataLen := restBuffer.length + data.length
  let block := (List.range (ptrSize * totalDataLen)).map junk
  memcpy (memcpy block 0 restBuffer) (ptrSize * restBuffer.length) data

inductive Turn where
  /-- A negative size: `bp_process_data` returns 0. -/
  | reject
  /-- Read too much: a packet for the callback, the new rest, another turn. -/
  | more (packet rest : List UInt8)
  /-- Exactly a packet; the rest buffer and its length are left as they are. -/
  | whole (packet : List UInt8)
  /-- An unfinished packet goes to the rest buffer. -/
  | store (rest : List UInt8)
  deriving DecidableEq

def Turn.packet : Turn → Option (List UInt8)
  | .more packet _ => some packet
  | .whole packet => some packet
  | _ => none

def bpTurn (junk : Nat → UInt8) (restBuffer data : List UInt8) : Turn :=
  let totalDataLen := restBuffer.length + data.length
  let total := totalData junk restBuffer data
  let packetSize := bcToInt (total.take intSize)
  if packetSize < 0 then .reject
  else
    let size := packetSize.toInt.toNat
    if size < totalDataLen then
      .more (total.take size) ((total.drop (ptrSize * size)).take (totalDataLen - size))
    else if size = totalDataLen then .whole (total.take size)
    else .store (total.take totalDataLen)

/-- A turn with the callback's effect on the receiver's state `σ`. -/
inductive BpStep (σ : Type) where
  | again (rest : List UInt8) (s : σ)
  | returned (code : Int32) (rest : List UInt8) (s : σ)
  | fault (f : Fault)

variable {σ : Type}

def bpStep (cb : List UInt8 → σ → Except Fault σ) (junk : Nat → UInt8) (data : List UInt8)
    (restBuffer : List UInt8) (s : σ) : BpStep σ :=
  match bpTurn junk restBuffer data with
  | .reject => .returned 0 restBuffer s
  | .more packet rest =>
    match cb packet s with
    | .error f => .fault f
    | .ok s => if rest.length ≤ restCapacity then .again rest s else .fault .restOverflow
  | .whole packet =>
    match cb packet s with
    | .error f => .fault f
    | .ok s => .returned 1 restBuffer s
  | .store rest => if rest.length ≤ restCapacity then .returned 1 rest s else .fault .restOverflow

/-- `bp_process_data`: at most `fuel` turns; `none` while the loop still goes
on. `junk k` is what the array of turn `k` holds. -/
def bpProcessData (cb : List UInt8 → σ → Except Fault σ) (junk : Nat → Nat → UInt8)
    (data : List UInt8) : Nat → Nat → List UInt8 → σ → Option (BpStep σ)
  | 0, _, _, _ => none
  | fuel + 1, turn, restBuffer, s =>
    match bpStep cb (junk turn) data restBuffer s with
    | .again rest s => bpProcessData cb junk data fuel (turn + 1) rest s
    | r => some r

/-- The callback that records the packets it is given. -/
def collect (packet : List UInt8) (out : List (List UInt8)) :
    Except Fault (List (List UInt8)) := .ok (out ++ [packet])

/-! ## One turn -/

theorem totalData_length (junk : Nat → UInt8) (restBuffer data : List UInt8) :
    (totalData junk restBuffer data).length = ptrSize * (restBuffer.length + data.length) := by
  have hblock : ((List.range (ptrSize * (restBuffer.length + data.length))).map junk).length =
      ptrSize * (restBuffer.length + data.length) := by simp
  have hrest : (memcpy ((List.range (ptrSize * (restBuffer.length + data.length))).map junk) 0
      restBuffer).length = ptrSize * (restBuffer.length + data.length) := by
    rw [memcpy_length (by rw [hblock, ptrSize]; omega), hblock]
  simp only [totalData]
  rw [memcpy_length (by rw [hrest, ptrSize]; omega), hrest]

/-- With nothing left over the array starts with the chunk. -/
theorem totalData_nil (junk : Nat → UInt8) (data : List UInt8) :
    totalData junk [] data =
      data ++ ((List.range (ptrSize * data.length)).map junk).drop data.length := by
  simp [totalData, memcpy]

theorem totalData_nil_take (junk : Nat → UInt8) (data : List UInt8) :
    (totalData junk [] data).take data.length = data := by
  rw [totalData_nil, List.take_left]

theorem totalData_nil_size (junk : Nat → UInt8) {data : List UInt8} (h : 4 ≤ data.length) :
    bcToInt ((totalData junk [] data).take intSize) = bcToInt data := by
  rw [totalData_nil, intSize, bcToInt_take, bcToInt_append h]

/-- A chunk that is exactly a packet, with nothing left over before it. -/
theorem bpTurn_packet {p : List UInt8} (junk : Nat → UInt8) (h4 : 4 ≤ p.length)
    (h31 : p.length < 2 ^ 31) (hp : p.take 4 = bcFromInt (Int32.ofNat p.length)) :
    bpTurn junk [] p = .whole p := by
  have hsize : bcToInt ((totalData junk [] p).take intSize) = Int32.ofNat p.length := by
    rw [totalData_nil_size junk h4, ← bcToInt_take, hp]
    simpa using bcToInt_fromInt (Int32.ofNat p.length) []
  have hint : (Int32.ofNat p.length).toInt = p.length := Int32.toInt_ofNat_of_lt h31
  have hneg : ¬ Int32.ofNat p.length < 0 := by rw [Int32.lt_iff_toInt_lt, hint]; simp
  simp only [bpTurn, hsize, hneg, hint, if_false, Int.toNat_natCast, List.length_nil, Nat.zero_add,
    lt_irrefl, if_true, totalData_nil_take]

/-- Bytes left over never go away: whatever a turn leaves in the rest buffer,
it is empty only if it was empty before and the turn stored nothing. -/
theorem bpTurn_rest {junk : Nat → UInt8} {restBuffer data rest : List UInt8}
    (h : (∃ packet, bpTurn junk restBuffer data = .more packet rest) ∨
      bpTurn junk restBuffer data = .store rest) (hdata : data ≠ []) : rest ≠ [] := by
  have hpos := List.length_pos_of_ne_nil hdata
  have hlen := totalData_length junk restBuffer data
  simp only [bpTurn] at h
  split at h
  · simp at h
  · split at h
    · next hlt =>
      simp only [Turn.more.injEq, reduceCtorEq, or_false] at h
      obtain ⟨_, _, rfl⟩ := h
      apply List.ne_nil_of_length_pos
      simp only [List.length_take, List.length_drop, hlen, ptrSize]
      omega
    · split at h
      · simp at h
      · simp only [reduceCtorEq, exists_false, Turn.store.injEq, false_or] at h
        subst h
        apply List.ne_nil_of_length_pos
        simp only [List.length_take, hlen, ptrSize]
        omega

theorem bpTurn_whole {junk : Nat → UInt8} {data packet : List UInt8}
    (h : bpTurn junk [] data = .whole packet) : packet = data := by
  simp only [bpTurn, List.length_nil, Nat.zero_add] at h
  split at h
  · cases h
  · split at h
    · cases h
    · split at h
      · next he =>
        cases h
        rw [he, totalData_nil_take]
      · cases h

/-- What a turn that does not fault did to the receiver: what the callback
does with the packet handed over, or nothing. -/
def TurnRan (cb : List UInt8 → σ → Except Fault σ) (packet : Option (List UInt8)) (s t : σ) :
    Prop :=
  match packet with
  | some packet => cb packet s = .ok t
  | none => t = s

/-- What it takes for the loop to go on. -/
theorem bpStep_eq_again {cb : List UInt8 → σ → Except Fault σ} {junk : Nat → UInt8}
    {data restBuffer rest : List UInt8} {s t : σ} :
    bpStep cb junk data restBuffer s = .again rest t ↔
      ∃ packet, bpTurn junk restBuffer data = .more packet rest ∧ cb packet s = .ok t ∧
        rest.length ≤ restCapacity := by
  constructor
  · intro h
    simp only [bpStep] at h
    split at h
    · cases h
    · next packet _ hturn =>
      split at h
      · cases h
      · next hcb =>
        split at h
        · next hle => cases h; exact ⟨packet, hturn, hcb, hle⟩
        · cases h
    · split at h <;> cases h
    · split at h <;> cases h
  · rintro ⟨packet, hturn, hcb, hle⟩
    simp only [bpStep, hturn, hcb, if_pos hle]

/-- The three ways in which it ends without a fault. -/
theorem bpStep_eq_returned {cb : List UInt8 → σ → Except Fault σ} {junk : Nat → UInt8}
    {data restBuffer rest : List UInt8} {code : Int32} {s t : σ} :
    bpStep cb junk data restBuffer s = .returned code rest t ↔
      (bpTurn junk restBuffer data = .reject ∧ code = 0 ∧ rest = restBuffer ∧ t = s) ∨
      (∃ packet, bpTurn junk restBuffer data = .whole packet ∧ cb packet s = .ok t ∧ code = 1 ∧
        rest = restBuffer) ∨
      (bpTurn junk restBuffer data = .store rest ∧ rest.length ≤ restCapacity ∧ code = 1 ∧
        t = s) := by
  constructor
  · intro h
    simp only [bpStep] at h
    split at h
    · next hturn => cases h; exact .inl ⟨hturn, rfl, rfl, rfl⟩
    · split at h
      · cases h
      · split at h <;> cases h
    · next packet hturn =>
      split at h
      · cases h
      · next hcb => cases h; exact .inr (.inl ⟨packet, hturn, hcb, rfl, rfl⟩)
    · next hturn =>
      split at h
      · next hle => cases h; exact .inr (.inr ⟨hturn, hle, rfl, rfl⟩)
      · cases h
  · intro h
    rcases h with ⟨hturn, rfl, rfl, rfl⟩ | ⟨packet, hturn, hcb, rfl, rfl⟩ | ⟨hturn, hle, rfl, rfl⟩
    · simp only [bpStep, hturn]
    · simp only [bpStep, hturn, hcb]
    · simp only [bpStep, hturn, if_pos hle]

/-- A fault of the callback is one of the turn. -/
theorem bpStep_eq_fault {cb : List UInt8 → σ → Except Fault σ} {junk : Nat → UInt8}
    {data restBuffer packet : List UInt8} {s : σ} {f : Fault}
    (hpacket : (bpTurn junk restBuffer data).packet = some packet) (hcb : cb packet s = .error f) :
    bpStep cb junk data restBuffer s = .fault f := by
  cases hturn : bpTurn junk restBuffer data with
  | more | whole =>
    rw [hturn] at hpacket
    cases hpacket
    simp only [bpStep, hturn, hcb]
  | reject | store =>
    rw [hturn] at hpacket
    cases hpacket

theorem turnRan_of_again {cb : List UInt8 → σ → Except Fault σ} {junk : Nat → UInt8}
    {data restBuffer rest : List UInt8} {s t : σ}
    (h : bpStep cb junk data restBuffer s = .again rest t) :
    TurnRan cb (bpTurn junk restBuffer data).packet s t := by
  obtain ⟨packet, hturn, hcb, _⟩ := bpStep_eq_again.mp h
  rw [hturn]
  exact hcb

theorem turnRan_of_returned {cb : List UInt8 → σ → Except Fault σ} {junk : Nat → UInt8}
    {data restBuffer rest : List UInt8} {code : Int32} {s t : σ}
    (h : bpStep cb junk data restBuffer s = .returned code rest t) :
    TurnRan cb (bpTurn junk restBuffer data).packet s t := by
  obtain ⟨hturn, _, _, hs⟩ | ⟨packet, hturn, hcb, _⟩ | ⟨hturn, _, _, hs⟩ := bpStep_eq_returned.mp h
  · rw [hturn]; exact hs
  · rw [hturn]; exact hcb
  · rw [hturn]; exact hs

/-- Only the arrays of the turns still to come matter. -/
theorem bpProcessData_congr {cb : List UInt8 → σ → Except Fault σ} {junk junk' : Nat → Nat → UInt8}
    {data : List UInt8} : ∀ {fuel turn : Nat} {restBuffer : List UInt8} {s : σ},
      (∀ k, turn ≤ k → junk k = junk' k) →
        bpProcessData cb junk data fuel turn restBuffer s =
          bpProcessData cb junk' data fuel turn restBuffer s
  | 0, _, _, _, _ => rfl
  | fuel + 1, turn, restBuffer, s, h => by
    simp only [bpProcessData]
    rw [h turn le_rfl]
    split
    · exact bpProcessData_congr fun k hk => h k (by omega)
    · rfl

/-- More fuel changes no outcome. -/
theorem bpProcessData_mono {cb : List UInt8 → σ → Except Fault σ} {junk : Nat → Nat → UInt8}
    {data : List UInt8} : ∀ {fuel fuel' turn : Nat} {restBuffer : List UInt8} {s : σ}
      {r : BpStep σ}, bpProcessData cb junk data fuel turn restBuffer s = some r → fuel ≤ fuel' →
        bpProcessData cb junk data fuel' turn restBuffer s = some r
  | 0, _, _, _, _, _, h, _ => by simp [bpProcessData] at h
  | fuel + 1, 0, _, _, _, _, _, hle => by omega
  | fuel + 1, fuel' + 1, turn, restBuffer, s, r, h, hle => by
    simp only [bpProcessData] at h ⊢
    split at h
    · next hs => exact bpProcessData_mono h (by omega)
    · next hs => exact h

/-- A call that leaves the rest buffer empty found it empty; if it returns 1,
all it did is hand over its chunk as one packet. -/
theorem bpProcessData_empties {cb : List UInt8 → σ → Except Fault σ} {junk : Nat → Nat → UInt8}
    {data : List UInt8} (hdata : data ≠ []) : ∀ {fuel turn : Nat} {restBuffer : List UInt8}
      {code : Int32} {s t : σ},
      bpProcessData cb junk data fuel turn restBuffer s = some (.returned code [] t) →
        restBuffer = [] ∧ (code = 1 → cb data s = .ok t)
  | 0, _, _, _, _, _, h => by simp [bpProcessData] at h
  | fuel + 1, turn, restBuffer, code, s, t, h => by
    simp only [bpProcessData] at h
    split at h
    · next rest m hstep =>
      -- another turn starts with bytes left over, so it cannot end without any
      obtain ⟨packet, hturn, _⟩ := bpStep_eq_again.mp hstep
      exact absurd (bpProcessData_empties hdata h).1 (bpTurn_rest (.inl ⟨packet, hturn⟩) hdata)
    · next hstep =>
      obtain ⟨_, rfl, rfl, _⟩ | ⟨packet, hturn, hcb, _, rfl⟩ | ⟨hturn, _⟩ :=
        bpStep_eq_returned.mp (Option.some.inj h)
      · exact ⟨rfl, fun hcode => absurd hcode (by decide)⟩
      · exact ⟨rfl, fun _ => bpTurn_whole hturn ▸ hcb⟩
      · exact absurd rfl (bpTurn_rest (.inr hturn) hdata)

end VhIM.Network
