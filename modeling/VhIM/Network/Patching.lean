import VhIM.Network.Growth

/-! # Ints that are filled in later

`datapacket_simulate_int` keeps four bytes free, `datapacket_update_int` fills
them. A script names the value of an int where it is reserved and fills the
ints by their numbers, in any order and with any writes in between.
`datapacket_update_int` moves the cursor as well. -/
namespace VhIM.Network
open VhIM.Lib

inductive PatchStep where
  | set (f : Field)
  /-- `datapacket_simulate_int`, for an int that is going to be `v`. -/
  | reserve (v : Int32)
  /-- `datapacket_update_int` of the `k`-th int reserved. -/
  | fill (k : Nat)

/-- A packet in the making, with the offset and the value of each int that was
reserved. -/
structure Patcher where
  dp : Datapacket
  reserved : List (Int32 × Int32)

namespace PatchStep

def run (p : Patcher) : PatchStep → Patcher
  | .set f => { p with dp := p.dp.set f }
  | .reserve v => ⟨p.dp.simulateInt.2, p.reserved ++ [(p.dp.simulateInt.1, v)]⟩
  | .fill k =>
    match p.reserved[k]? with
    | some (off, v) => { p with dp := p.dp.updateInt off v }
    | none => p

def inPlace : PatchStep → Option Field
  | .set f => some f
  | .reserve v => some (.int v)
  | .fill _ => none

def isReserve : PatchStep → Bool
  | .reserve _ => true
  | _ => false

def filled : PatchStep → Option Nat
  | .fill k => some k
  | _ => none

end PatchStep

open PatchStep

/-- Every int that is reserved is filled once, after it was reserved. -/
structure FillsOnce (script : List PatchStep) : Prop where
  after : ∀ pre k post, script = pre ++ .fill k :: post → k < pre.countP isReserve
  once : (script.filterMap filled).Perm (List.range (script.countP isReserve))

def patch (fresh : Nat → UInt8) (type : Int32) (script : List PatchStep) : Patcher :=
  script.foldl PatchStep.run ⟨Datapacket.create fresh type, []⟩

/-- The same values written with the setters only. -/
def writeInPlace (fresh : Nat → UInt8) (type : Int32) (script : List PatchStep) : Datapacket :=
  (script.filterMap inPlace).foldl Datapacket.set (Datapacket.create fresh type)

def SamePacket (fresh : Nat → UInt8) (type : Int32) (script : List PatchStep) : Prop :=
  (patch fresh type script).dp.finishedBytes = (writeInPlace fresh type script).finishedBytes

/-- Reserving and filling cannot be told from writing in place. -/
structure Transparent (fresh : Nat → UInt8) (type : Int32) (script : List PatchStep) : Prop where
  packet : SamePacket fresh type script
  /-- Filling changes the four bytes that were reserved, and nothing else. -/
  fill : ∀ pre k post, script = pre ++ .fill k :: post →
    let p := patch fresh type pre
    let p' := PatchStep.run p (.fill k)
    p'.dp.index = p.dp.index ∧ ∀ off v, p.reserved[k]? = some (off, v) → ∀ j : Nat,
      ¬ (off.toInt ≤ j ∧ j < off.toInt + intSize) → p'.dp.data.getD j 0 = p.dp.data.getD j 0
  index : ∀ pre post, script = pre ++ post →
    (patch fresh type pre).dp.index ≤ (patch fresh type pre).dp.bufSize

/-! ## The cursor -/

theorem set_index (dp : Datapacket) (f : Field) :
    (dp.set f).index = dp.index + f.encode.length := by
  cases f with
  | bool b =>
    show (dp.verifySize 1).index + 1 = _
    rw [Datapacket.verifySize_index]
    rfl
  | int i =>
    show (dp.verifySize intSize).index + intSize = _
    rw [Datapacket.verifySize_index]
    rfl
  | string s =>
    show ((dp.verifySize _).verifySize intSize).index + intSize + (s.length + 1) = _
    rw [Datapacket.verifySize_index, Datapacket.verifySize_index, Field.encode, stringBytes_length,
      intSize]
    omega

theorem simulateInt_index (dp : Datapacket) :
    dp.simulateInt.2.index = dp.index + intSize ∧ dp.simulateInt.1 = Int32.ofNat dp.index := by
  constructor
  · show (dp.verifySize intSize).index + intSize = _
    rw [Datapacket.verifySize_index]
  · show Int32.ofNat ((dp.verifySize intSize).index + intSize - intSize) = _
    rw [Datapacket.verifySize_index, Nat.add_sub_cancel]

/-- The offset is that of an int that was reserved, so the cursor moves. -/
theorem updateInt_index {dp : Datapacket} {n : Nat} (hlt : n < dp.index) (hsize : dp.index < 2 ^ 31)
    (i : Int32) : (dp.updateInt (Int32.ofNat n) i).index = dp.index + intSize := by
  have hint : (Int32.ofNat n).toInt = n := Int32.toInt_ofNat_of_lt (by omega)
  have hpos : 0 ≤ Int32.ofNat n := by
    rw [Int32.le_iff_toInt_le, hint]
    exact Int.natCast_nonneg n
  rw [Datapacket.updateInt, if_pos ⟨hpos, by rw [hint]; exact hlt⟩]

theorem updateInt_index_le (dp : Datapacket) (off i : Int32) :
    dp.index ≤ (dp.updateInt off i).index ∧ (dp.updateInt off i).index ≤ dp.index + intSize := by
  simp only [Datapacket.updateInt]
  split <;> simp

/-- Where the cursor is after a step, against that of the packet written in
place. -/
theorem run_index_le (p : Patcher) (step : PatchStep) :
    let size := (encodeFields step.inPlace.toList).length
    p.dp.index + size ≤ (step.run p).dp.index ∧
      (step.run p).dp.index ≤ p.dp.index + size + intSize * step.filled.toList.length := by
  cases step with
  | set f =>
    have h := set_index p.dp f
    simp only [PatchStep.run, inPlace, filled, Option.toList, encodeFields, List.flatMap_cons,
      List.flatMap_nil, List.append_nil, List.length_nil]
    omega
  | reserve v =>
    have h := (simulateInt_index p.dp).1
    simp only [PatchStep.run, inPlace, filled, Option.toList, encodeFields, List.flatMap_cons,
      List.flatMap_nil, List.append_nil, List.length_nil, Field.encode, bcFromInt_length]
    simp only [intSize] at h ⊢
    omega
  | fill k =>
    simp only [PatchStep.run, inPlace, filled, Option.toList, encodeFields, List.flatMap_nil,
      List.length_nil, List.length_singleton]
    split
    · next off v _ =>
      have h := updateInt_index_le p.dp off v
      dsimp only
      omega
    · omega

theorem encodeFields_append (fields fields' : List Field) :
    encodeFields (fields ++ fields') = encodeFields fields ++ encodeFields fields' :=
  List.flatMap_append

theorem script_index_le (p : Patcher) (script : List PatchStep) :
    let size := (encodeFields (script.filterMap inPlace)).length
    p.dp.index + size ≤ (script.foldl PatchStep.run p).dp.index ∧
      (script.foldl PatchStep.run p).dp.index ≤
        p.dp.index + size + intSize * (script.filterMap filled).length := by
  induction script generalizing p with
  | nil => simp [encodeFields]
  | cons step script ih =>
    obtain ⟨hlow, hhigh⟩ := run_index_le p step
    obtain ⟨ihlow, ihhigh⟩ := ih (step.run p)
    have hfields : (step :: script).filterMap inPlace =
        step.inPlace.toList ++ script.filterMap inPlace := by
      cases step <;> rfl
    have hfilled : (step :: script).filterMap filled =
        step.filled.toList ++ script.filterMap filled := by
      cases step <;> rfl
    simp only [List.foldl_cons, hfields, hfilled, encodeFields_append, List.length_append,
      Nat.mul_add]
    omega

theorem reserved_length_le (script : List PatchStep) :
    intSize * script.countP isReserve ≤ (encodeFields (script.filterMap inPlace)).length := by
  induction script with
  | nil => exact Nat.zero_le _
  | cons step script ih =>
    cases step with
    | set f =>
      have hfields : (PatchStep.set f :: script).filterMap inPlace =
          [f] ++ script.filterMap inPlace := rfl
      rw [hfields, encodeFields_append, List.length_append,
        List.countP_cons_of_neg (by simp [isReserve])]
      omega
    | reserve v =>
      have hfields : (PatchStep.reserve v :: script).filterMap inPlace =
          [.int v] ++ script.filterMap inPlace := rfl
      rw [hfields, encodeFields_append, List.length_append, List.countP_cons_of_pos (by rfl),
        Nat.mul_succ, Nat.add_comm]
      exact Nat.add_le_add_left ih 4
    | fill k =>
      rw [List.countP_cons_of_neg (by simp [isReserve])]
      exact ih

/-! ## The offsets -/

/-- The offset of every int that was reserved lies before the cursor. -/
def Behind (p : Patcher) : Prop :=
  ∀ e ∈ p.reserved, ∃ n, n < p.dp.index ∧ e.1 = Int32.ofNat n

theorem behind_run {p : Patcher} (h : Behind p) (step : PatchStep) :
    Behind (step.run p) ∧ (step.run p).reserved.length =
      p.reserved.length + [step].countP isReserve := by
  have hle := (run_index_le p step).1
  have hkeep : ∀ e ∈ p.reserved, ∃ n, n < (step.run p).dp.index ∧ e.1 = Int32.ofNat n := by
    intro e he
    obtain ⟨n, hn, hoff⟩ := h e he
    exact ⟨n, by omega, hoff⟩
  cases step with
  | set f => exact ⟨hkeep, rfl⟩
  | reserve v =>
    obtain ⟨hidx, hoff⟩ := simulateInt_index p.dp
    refine ⟨fun e he => ?_, by simp [PatchStep.run, isReserve]⟩
    rcases List.mem_append.mp he with he | he
    · exact hkeep e he
    · cases List.mem_singleton.mp he
      refine ⟨p.dp.index, ?_, hoff⟩
      show p.dp.index < p.dp.simulateInt.2.index
      rw [hidx, intSize]
      omega
  | fill k =>
    have hsame : (PatchStep.run p (.fill k)).reserved = p.reserved := by
      simp only [PatchStep.run]
      split <;> rfl
    exact ⟨fun e he => hkeep e (hsame ▸ he), by rw [hsame]; rfl⟩

theorem behind_script {p : Patcher} (h : Behind p) (script : List PatchStep) :
    Behind (script.foldl PatchStep.run p) ∧ (script.foldl PatchStep.run p).reserved.length =
      p.reserved.length + script.countP isReserve := by
  induction script generalizing p with
  | nil => exact ⟨h, rfl⟩
  | cons step script ih =>
    obtain ⟨hstep, hlen⟩ := behind_run h step
    obtain ⟨hrest, hlen'⟩ := ih hstep
    refine ⟨hrest, ?_⟩
    rw [List.foldl_cons, hlen', hlen, ← List.singleton_append (x := step) (l := script),
      List.countP_append, Nat.add_assoc]

/-- The first int to be filled moves the cursor. -/
theorem fill_moves {fresh : Nat → UInt8} {type : Int32} {pre : List PatchStep} {k : Nat}
    (hk : k < pre.countP isReserve) (hsize : (patch fresh type pre).dp.index < 2 ^ 31) :
    (PatchStep.run (patch fresh type pre) (.fill k)).dp.index =
      (patch fresh type pre).dp.index + intSize := by
  have hstart : Behind ⟨Datapacket.create fresh type, []⟩ := fun e he => by cases he
  obtain ⟨hbehind, hlen⟩ := behind_script hstart pre
  have hlt : k < (patch fresh type pre).reserved.length := by
    rw [patch, hlen, List.length_nil, Nat.zero_add]
    exact hk
  obtain ⟨n, hn, hoff⟩ := hbehind _ (List.getElem_mem hlt)
  simp only [PatchStep.run, List.getElem?_eq_getElem hlt]
  change (Datapacket.updateInt _ _ _).index = _
  rw [show ((patch fresh type pre).reserved[k]).1 = Int32.ofNat n from hoff]
  exact updateInt_index hn hsize _

/-! ## The packet -/

/-- The size in front of a finished packet. -/
theorem finishedBytes_header {dp : Datapacket} (h : intSize ≤ dp.finishedBytes.length) :
    dp.finishedBytes.take intSize = bcFromInt (Int32.ofNat dp.index) := by
  have hle : intSize ≤ (Int32.ofNat dp.index).toInt.toNat := by
    have htake : dp.finishedBytes.length ≤ (Int32.ofNat dp.index).toInt.toNat :=
      List.length_take_le _ _
    exact h.trans htake
  have hdata : dp.finish.2.data =
      bcFromInt (Int32.ofNat dp.index) ++ dp.data.drop (bcFromInt (Int32.ofNat dp.index)).length :=
    memcpy_zero_append _ _
  rw [Datapacket.finishedBytes, List.take_take, show min intSize dp.finish.1.toInt.toNat = intSize
    from min_eq_left hle, hdata]
  exact List.take_left' rfl

theorem ofNat_inj {a b : Nat} (ha : a < 2 ^ 32) (hb : b < 2 ^ 32)
    (h : Int32.ofNat a = Int32.ofNat b) : a = b := by
  have hbits : a % 2 ^ 32 = b % 2 ^ 32 := by
    simpa using congrArg (fun i : Int32 => i.toBitVec.toNat) h
  rwa [Nat.mod_eq_of_lt ha, Nat.mod_eq_of_lt hb] at hbits

/-- Two finished packets that are the same were finished at the same place. -/
theorem index_eq_of_finishedBytes {dp dp' : Datapacket} (h : dp.finishedBytes = dp'.finishedBytes)
    (hlen : intSize ≤ dp'.finishedBytes.length) (hsize : dp.index < 2 ^ 32)
    (hsize' : dp'.index < 2 ^ 32) : dp.index = dp'.index := by
  apply ofNat_inj hsize hsize'
  have hlen' : intSize ≤ dp.finishedBytes.length := by
    rw [h]
    exact hlen
  have hheader := finishedBytes_header hlen'
  rw [h, finishedBytes_header hlen] at hheader
  have hint := congrArg bcToInt hheader
  have hback : ∀ i, bcToInt (bcFromInt i) = i := fun i => by simpa using bcToInt_fromInt i []
  rw [hback, hback] at hint
  exact hint.symm

variable {fresh : Nat → UInt8} {type : Int32} {script : List PatchStep}

theorem writeInPlace_spec (fresh : Nat → UInt8) (type : Int32)
    (hsize : 8 + (encodeFields (script.filterMap inPlace)).length < 2 ^ 31) :
    (writeInPlace fresh type script).index =
        8 + (encodeFields (script.filterMap inPlace)).length ∧
      (writeInPlace fresh type script).finishedBytes.length =
        8 + (encodeFields (script.filterMap inPlace)).length := by
  have hw := Datapacket.setAll_spec (Datapacket.create_spec fresh type).1
    (script.filterMap inPlace)
  refine ⟨by rw [writeInPlace, hw.index, (Datapacket.create_spec fresh type).2.1], ?_⟩
  rw [writeInPlace, (Datapacket.finishedBytes_of_writes hw hsize).2, packetBytes_length]

/-- With ints that are filled in later, the cursor ends behind its place. -/
theorem patch_index_ne (hfills : FillsOnce script)
    (hsize : 8 + (encodeFields (script.filterMap inPlace)).length < 2 ^ 31)
    (hreserve : 0 < script.countP isReserve) :
    (writeInPlace fresh type script).index < (patch fresh type script).dp.index := by
  have hfill : ∃ k, .fill k ∈ script := by
    have hmem := hfills.once.symm.subset (List.mem_range.mpr hreserve)
    obtain ⟨step, hstep, hk⟩ := List.mem_filterMap.mp hmem
    cases step with
    | set f => cases hk
    | reserve v => cases hk
    | fill k => exact ⟨k, hstep⟩
  obtain ⟨k, hk⟩ := hfill
  obtain ⟨pre, post, hscript⟩ := List.append_of_mem hk
  have hcreate := (Datapacket.create_spec fresh type).2.1
  obtain ⟨hpre, _⟩ := script_index_le ⟨Datapacket.create fresh type, []⟩ pre
  obtain ⟨hmono, _⟩ := run_index_le (patch fresh type pre) (.fill k)
  obtain ⟨hpost, _⟩ := script_index_le (PatchStep.run (patch fresh type pre) (.fill k)) post
  have hsplit : patch fresh type script =
      post.foldl PatchStep.run (PatchStep.run (patch fresh type pre) (.fill k)) := by
    rw [patch, hscript, List.foldl_append]
    rfl
  have hfields : (encodeFields (script.filterMap inPlace)).length =
      (encodeFields (pre.filterMap inPlace)).length +
        (encodeFields (post.filterMap inPlace)).length := by
    rw [hscript, List.filterMap_append, encodeFields_append, List.length_append]
    rfl
  change (Datapacket.create fresh type).index + _ ≤ (patch fresh type pre).dp.index at hpre
  rw [(writeInPlace_spec fresh type hsize).1, hsplit, hfields]
  rw [hfields] at hsize
  -- a cursor that is past all ints already cannot come back
  by_cases hint : (patch fresh type pre).dp.index < 2 ^ 31
  · have hmove := fill_moves (hfills.after pre k post hscript) hint
    simp only [intSize] at hmove
    omega
  · omega

/-- And not so far behind it that the size in front could be the same. -/
theorem patch_index_lt (hfills : FillsOnce script)
    (hsize : 8 + (encodeFields (script.filterMap inPlace)).length < 2 ^ 31) :
    (patch fresh type script).dp.index < 2 ^ 32 := by
  have hcreate := (Datapacket.create_spec fresh type).2.1
  obtain ⟨_, hhigh⟩ := script_index_le ⟨Datapacket.create fresh type, []⟩ script
  change (patch fresh type script).dp.index ≤ (Datapacket.create fresh type).index + _ + _ at hhigh
  have hcount : (script.filterMap filled).length = script.countP isReserve := by
    rw [hfills.once.length_eq, List.length_range]
  have hints : intSize * script.countP isReserve ≤
      (encodeFields (script.filterMap inPlace)).length := reserved_length_le script
  rw [hcount] at hhigh
  omega

/-- A script that reserves nothing only sets fields. -/
theorem script_of_not_reserve (hfills : FillsOnce script) (h : ∀ v, .reserve v ∉ script) :
    ∃ fields : List Field, fields.map PatchStep.set = script := by
  have hcount : script.countP isReserve = 0 := by
    rw [List.countP_eq_zero]
    intro step hstep
    cases step with
    | reserve v => exact absurd hstep (h v)
    | set f => simp [isReserve]
    | fill k => simp [isReserve]
  have hfilled : script.filterMap filled = [] := by
    have hperm := hfills.once
    rw [hcount, List.range_zero] at hperm
    exact hperm.eq_nil
  have hall : ∀ step ∈ script, step ∈ Set.range PatchStep.set := by
    intro step hstep
    cases step with
    | set f => exact ⟨f, rfl⟩
    | reserve v => exact absurd hstep (h v)
    | fill k => exact absurd (List.filterMap_eq_nil_iff.mp hfilled _ hstep) (by simp [filled])
  have hrange : script ∈ Set.range (List.map PatchStep.set) := by
    rw [Set.range_list_map]
    exact hall
  exact hrange

theorem patch_map_set (fields : List Field) :
    patch fresh type (fields.map .set) =
      ⟨fields.foldl Datapacket.set (Datapacket.create fresh type), []⟩ := by
  simp only [patch, List.foldl_map]
  generalize Datapacket.create fresh type = dp
  induction fields generalizing dp with
  | nil => rfl
  | cons f fields ih => exact ih (dp.set f)

theorem transparent_of_set (fields : List Field) :
    Transparent fresh type (fields.map PatchStep.set) := by
  have hfields : (fields.map PatchStep.set).filterMap inPlace = fields := by
    rw [List.filterMap_map]
    exact List.filterMap_some
  refine ⟨?_, ?_, ?_⟩
  · rw [SamePacket, patch_map_set, writeInPlace, hfields]
  · intro pre k post hscript
    have hmem : PatchStep.fill k ∈ fields.map PatchStep.set := by simp [hscript]
    obtain ⟨f, _, hf⟩ := List.mem_map.mp hmem
    cases hf
  · intro pre post hscript
    obtain ⟨before, _, _, rfl, _⟩ := List.map_eq_append_iff.mp hscript
    rw [patch_map_set]
    exact (Datapacket.setAll_spec (Datapacket.create_spec fresh type).1 before).sound.room.le

/-- Filling in later makes the packet written in place exactly if nothing is
filled in later. -/
theorem patched_in_place_iff (fresh : Nat → UInt8) (type : Int32) (script : List PatchStep)
    (hfills : FillsOnce script)
    (hsize : 8 + (encodeFields (script.filterMap inPlace)).length < 2 ^ 31) :
    (SamePacket fresh type script ↔ ∀ v, .reserve v ∉ script) ∧
      (Transparent fresh type script ↔ ∀ v, .reserve v ∉ script) := by
  have honly : SamePacket fresh type script → ∀ v, .reserve v ∉ script := by
    intro h v hv
    have hreserve : 0 < script.countP isReserve := List.countP_pos_iff.mpr ⟨_, hv, rfl⟩
    obtain ⟨hidx, hlen⟩ := writeInPlace_spec fresh type hsize
    have heq := index_eq_of_finishedBytes h (by rw [hlen, intSize]; omega)
      (patch_index_lt hfills hsize) (by rw [hidx]; omega)
    exact absurd heq (patch_index_ne hfills hsize hreserve).ne'
  have hset : (∀ v, .reserve v ∉ script) → Transparent fresh type script := by
    intro h
    obtain ⟨fields, rfl⟩ := script_of_not_reserve hfills h
    exact transparent_of_set fields
  exact ⟨⟨honly, fun h => (hset h).packet⟩, fun h => honly h.packet, hset⟩

/-- One int, filled at once. -/
theorem fillsOnce_one (v : Int32) : FillsOnce [.reserve v, .fill 0] := by
  refine ⟨?_, List.Perm.refl _⟩
  intro pre k post hscript
  rcases pre with _ | ⟨step, _ | ⟨step', pre⟩⟩
  · cases hscript
  · cases hscript
    exact Nat.one_pos
  · simp at hscript

theorem patched_in_place_iff_reserved :
    ¬ SamePacket (fun _ => 0) 8 [.reserve 5, .fill 0] := by
  intro h
  have hnone := (patched_in_place_iff (fun _ => 0) 8 [.reserve 5, .fill 0] (fillsOnce_one 5)
    (by decide)).1.mp h
  exact hnone 5 (by simp)

/-- The size in front counts the four bytes twice. -/
theorem patched_packet_differs :
    ¬ ∀ (fresh : Nat → UInt8) (type : Int32) (script : List PatchStep), FillsOnce script →
      8 + (encodeFields (script.filterMap inPlace)).length < 2 ^ 31 →
        Transparent fresh type script := by
  intro h
  have hsame := (h (fun _ => 0) 8 [.reserve 5, .fill 0] (fillsOnce_one 5) (by decide)).packet
  have hlen := congrArg List.length hsame
  exact absurd hlen (by decide)

end VhIM.Network
