import VhIM.Network.Codec

/-! # How a packet grows

The block grows by steps of `PACKET_SIZE`, in `datapacket_verify_size` only,
and between two operations it is always the smallest multiple of that size
that is larger than the cursor. -/
namespace VhIM.Network
open VhIM.Lib

inductive Write where
  | set (f : Field)
  | simulate

namespace Write

def run (dp : Datapacket) : Write → Datapacket
  | .set f => dp.set f
  | .simulate => dp.simulateInt.2

def size : Write → Nat
  | .set f => f.encode.length
  | .simulate => intSize

/-- The calls of `datapacket_verify_size`: the packet, and the bytes asked for. -/
def checks (dp : Datapacket) : Write → List (Datapacket × Nat)
  | .set (.bool _) => [(dp, 1)]
  | .set (.int _) => [(dp, intSize)]
  | .set (.string s) =>
    let additional := intSize + (s.length + 1)
    [(dp, additional), (dp.verifySize additional, intSize)]
  | .simulate => [(dp, intSize)]

/-- The calls of `memcpy`: where they write, and what. -/
def copies (dp : Datapacket) : Write → List (Nat × List UInt8)
  | .set (.bool b) => [(dp.index, bcFromBool b)]
  | .set (.int i) => [(dp.index, bcFromInt i)]
  | .set (.string s) =>
    [(dp.index, bcFromInt (Int32.ofNat s.length)), (dp.index + intSize, s ++ [0])]
  | .simulate => []

end Write

namespace Datapacket

/-- The `while` of `datapacket_verify_size` ends after `turns` turns. -/
structure GrowsIn (dp : Datapacket) (additional turns : Nat) : Prop where
  more : ∀ k < turns, dp.bufSize + packetSize * k - dp.index ≤ additional
  enough : additional < dp.bufSize + packetSize * turns - dp.index
  bufSize : (dp.verifySize additional).bufSize = dp.bufSize + packetSize * turns

/-- The state between two operations. -/
structure Exact (dp : Datapacket) : Prop where
  sound : dp.Sound
  bufSize : dp.bufSize = packetSize * (dp.index / packetSize + 1)

/-! ## Making room -/

theorem growLoop_eq (curSize additional : Nat) : ∀ fuel bufSize turns, curSize ≤ bufSize →
    turns ≤ fuel → (∀ k < turns, bufSize + packetSize * k - curSize ≤ additional) →
    additional < bufSize + packetSize * turns - curSize →
    growLoop curSize additional fuel bufSize = bufSize + packetSize * turns
  | 0, bufSize, turns, _, hfuel, _, _ => by
    rw [Nat.le_zero.mp hfuel, growLoop, Nat.mul_zero, Nat.add_zero]
  | fuel + 1, bufSize, 0, _, _, _, henough => by
    rw [growLoop, if_neg (by omega), Nat.mul_zero, Nat.add_zero]
  | fuel + 1, bufSize, turns + 1, hcur, hfuel, hmore, henough => by
    have hfirst := hmore 0 (Nat.succ_pos turns)
    rw [growLoop, if_pos (by omega), growLoop_eq curSize additional fuel (bufSize + packetSize)
      turns (by omega) (by omega) _ _]
    · simp only [packetSize]; omega
    · intro k hk
      have := hmore (k + 1) (by omega)
      simp only [packetSize] at this ⊢
      omega
    · simp only [packetSize] at henough ⊢
      omega

/-- As many turns as there are multiples of `PACKET_SIZE` on the way. -/
theorem Exact.growsIn {dp : Datapacket} (h : dp.Exact) (additional : Nat) :
    dp.GrowsIn additional
      ((dp.index + additional) / packetSize - dp.index / packetSize) := by
  have hbuf := h.bufSize
  have hroom := h.sound.room
  simp only [packetSize] at hbuf
  have hmore : ∀ k < (dp.index + additional) / packetSize - dp.index / packetSize,
      dp.bufSize + packetSize * k - dp.index ≤ additional := by
    intro k hk
    simp only [packetSize] at hk ⊢
    omega
  have henough : additional < dp.bufSize +
      packetSize * ((dp.index + additional) / packetSize - dp.index / packetSize) - dp.index := by
    simp only [packetSize]
    omega
  refine ⟨hmore, henough, ?_⟩
  simp only [verifySize]
  split
  · next hroom =>
    -- there is room, so no multiple lies between
    have hnone : (dp.index + additional) / packetSize - dp.index / packetSize = 0 := by
      simp only [packetSize]
      omega
    rw [hnone, Nat.mul_zero, Nat.add_zero]
  · exact growLoop_eq _ _ _ _ _ hroom.le (by simp only [packetSize]; omega) hmore henough

theorem Exact.verifySize_bufSize {dp : Datapacket} (h : dp.Exact) (additional : Nat) :
    (dp.verifySize additional).bufSize =
      packetSize * ((dp.index + additional) / packetSize + 1) := by
  have hbuf := h.bufSize
  rw [(h.growsIn additional).bufSize, hbuf]
  simp only [packetSize]
  omega

@[simp] theorem verifySize_index (dp : Datapacket) (additional : Nat) :
    (dp.verifySize additional).index = dp.index := by
  simp only [verifySize]
  split <;> rfl

/-- A packet with room for what is asked for stays as it is, but for the
assertion. -/
theorem verifySize_of_room {dp : Datapacket} (h : dp.Sound) {additional : Nat}
    (hroom : dp.index + additional < dp.bufSize) : dp.verifySize additional = dp := by
  have hcur : dp.index ≤ dp.bufSize := h.room.le
  simp only [verifySize, hcur, decide_true, Bool.not_true, Bool.or_false]
  rw [if_pos (by omega)]

/-- The block with as many new cells as it takes for the length `bufSize`. -/
def block (dp : Datapacket) (bufSize : Nat) : List UInt8 :=
  dp.data ++ (List.range' dp.data.length (bufSize - dp.data.length)).map dp.fresh

theorem verifySize_data {dp : Datapacket} (h : dp.Sound) (additional : Nat) :
    (dp.verifySize additional).data = dp.block (dp.verifySize additional).bufSize := by
  simp only [verifySize]
  split
  · rw [block, h.size, Nat.sub_self]
    exact (List.append_nil _).symm
  · rfl

/-! ## The operations -/

structure GrewBy (dp : Datapacket) (w : Write) : Prop where
  /-- The assertion of each call of `datapacket_verify_size` holds, and its
  loop ends. -/
  checked : ∀ c ∈ w.checks dp, c.1.index ≤ c.1.bufSize ∧ ∃ turns, c.1.GrowsIn c.2 turns
  /-- No assertion failed and no copy ran out of the block so far. -/
  clean : (w.run dp).fault = false
  index : (w.run dp).index = dp.index + w.size
  bufSize : (w.run dp).bufSize = packetSize * ((w.run dp).index / packetSize + 1)
  /-- The cells that change are those of the copies. -/
  data : (w.run dp).data =
    (w.copies dp).foldl (fun data c => memcpy data c.1 c.2) (dp.block (w.run dp).bufSize)
  inside : ∀ c ∈ w.copies dp, dp.index ≤ c.1 ∧ c.1 + c.2.length ≤ (w.run dp).index ∧
    c.1 + c.2.length < (w.run dp).bufSize
  kept : ∀ k, intSize ≤ k → k < dp.index → (w.run dp).data.getD k 0 = dp.data.getD k 0

/-- Copies inside the block, none of which starts below `i`. -/
theorem copies_getD {i k : Nat} (hk : k < i) : ∀ {copies : List (Nat × List UInt8)}
    {data : List UInt8}, (∀ c ∈ copies, i ≤ c.1 ∧ c.1 + c.2.length ≤ data.length) →
      (copies.foldl (fun data c => memcpy data c.1 c.2) data).getD k 0 = data.getD k 0
  | [], _, _ => rfl
  | c :: copies, data, h => by
    obtain ⟨hlow, hfits⟩ := h c (by simp)
    rw [List.foldl_cons, copies_getD hk, memcpy_getD hfits, if_neg (by omega)]
    intro c' hc'
    rw [memcpy_length hfits]
    exact h c' (by simp [hc'])

theorem block_getD {dp : Datapacket} (h : dp.Sound) (bufSize : Nat) {k : Nat}
    (hk : k < dp.index) : (dp.block bufSize).getD k 0 = dp.data.getD k 0 := by
  have hlen : k < dp.data.length := by rw [h.size]; exact hk.trans h.room
  simp only [block, List.getD_eq_getElem?_getD, List.getElem?_append_left hlen]

theorem block_length {dp : Datapacket} (h : dp.Sound) {bufSize : Nat} (hle : dp.bufSize ≤ bufSize) :
    (dp.block bufSize).length = bufSize := by
  simp only [block, List.length_append, List.length_map, List.length_range', h.size]
  omega

/-- What was written stays, because every copy starts at the cursor or behind. -/
theorem kept_of_copies {dp : Datapacket} {w : Write} (h : dp.Sound)
    (hle : dp.bufSize ≤ (w.run dp).bufSize)
    (hdata : (w.run dp).data =
      (w.copies dp).foldl (fun data c => memcpy data c.1 c.2) (dp.block (w.run dp).bufSize))
    (hinside : ∀ c ∈ w.copies dp, dp.index ≤ c.1 ∧ c.1 + c.2.length ≤ (w.run dp).index ∧
      c.1 + c.2.length < (w.run dp).bufSize) {k : Nat} (hk : k < dp.index) :
    (w.run dp).data.getD k 0 = dp.data.getD k 0 := by
  rw [hdata, copies_getD hk, block_getD h _ hk]
  intro c hc
  obtain ⟨hlow, _, hbuf⟩ := hinside c hc
  rw [block_length h hle]
  exact ⟨hlow, hbuf.le⟩

/-- The room for a string is made at once: the write of its length finds it. -/
theorem setString_eq {dp : Datapacket} (h : dp.Sound) (s : List UInt8) :
    let dp' := dp.verifySize (intSize + (s.length + 1))
    dp'.Sound ∧ dp'.verifySize intSize = dp' ∧
      dp.setString s = { (dp'.copyTo dp.index (bcFromInt (Int32.ofNat s.length))).copyTo
        (dp.index + intSize) (s ++ [0]) with index := dp.index + intSize + (s.length + 1) } := by
  intro dp'
  obtain ⟨hw, hroom⟩ := verifySize_spec h (intSize + (s.length + 1))
  have hi : dp'.index = dp.index := verifySize_index dp _
  have hsame : dp'.verifySize intSize = dp' :=
    verifySize_of_room hw.sound (by rw [hi]; omega)
  refine ⟨hw.sound, hsame, ?_⟩
  have hset : dp'.setInt (Int32.ofNat s.length) =
      { dp'.copyTo dp.index (bcFromInt (Int32.ofNat s.length)) with
        index := dp.index + intSize } := by
    rw [setInt, hsame, hi]
  show { (dp'.setInt (Int32.ofNat s.length)).copyTo (dp'.setInt (Int32.ofNat s.length)).index
    (s ++ [0]) with index := (dp'.setInt (Int32.ofNat s.length)).index + (s.length + 1) } = _
  rw [hset]
  rfl

theorem simulateInt_spec {dp : Datapacket} (h : dp.Sound) :
    dp.simulateInt.2.Sound ∧ dp.simulateInt.2.index = dp.index + intSize ∧
      dp.simulateInt.2.data = (dp.verifySize intSize).data := by
  obtain ⟨hw, hroom⟩ := verifySize_spec h intSize
  have hs := hw.sound
  have hi := verifySize_index dp intSize
  refine ⟨⟨hs.size, ?_, hs.header.trans (Nat.le_add_right _ _), hs.clean⟩, ?_, rfl⟩
  · show (dp.verifySize intSize).index + intSize < (dp.verifySize intSize).bufSize
    rw [hi]
    exact hroom
  · show (dp.verifySize intSize).index + intSize = _
    rw [hi]

theorem run_sound {dp : Datapacket} (h : dp.Sound) (w : Write) :
    (w.run dp).Sound ∧ (w.run dp).index = dp.index + w.size := by
  cases w with
  | set f => exact ⟨(set_spec h f).sound, (set_spec h f).index⟩
  | simulate =>
    obtain ⟨hs, hi, _⟩ := simulateInt_spec h
    exact ⟨hs, hi⟩

/-- The bytes that a write asks room for are those it moves the cursor by. -/
theorem run_block {dp : Datapacket} (h : dp.Sound) (w : Write) :
    (w.run dp).bufSize = (dp.verifySize w.size).bufSize ∧
      (w.run dp).data = (w.copies dp).foldl (fun data c => memcpy data c.1 c.2)
        (dp.block (w.run dp).bufSize) := by
  cases w with
  | set f =>
    cases f with
    | bool b => exact ⟨rfl, by
        show memcpy (dp.verifySize 1).data (dp.verifySize 1).index (bcFromBool b) = _
        rw [verifySize_data h, verifySize_index]
        rfl⟩
    | int i => exact ⟨rfl, by
        show memcpy (dp.verifySize intSize).data (dp.verifySize intSize).index (bcFromInt i) = _
        rw [verifySize_data h, verifySize_index]
        rfl⟩
    | string s =>
      obtain ⟨_, _, heq⟩ := setString_eq h s
      have hsize : (Write.set (.string s)).size = intSize + (s.length + 1) := by
        show (stringBytes s).length = _
        rw [stringBytes_length, intSize]
        omega
      rw [hsize]
      show (dp.setString s).bufSize = _ ∧ (dp.setString s).data = _
      refine ⟨by rw [heq]; rfl, ?_⟩
      show _ = List.foldl _ (dp.block (dp.setString s).bufSize) _
      rw [heq]
      show memcpy (memcpy (dp.verifySize _).data _ _) _ _ = _
      rw [verifySize_data h]
      rfl
  | simulate =>
    obtain ⟨_, _, hdata⟩ := simulateInt_spec h
    refine ⟨rfl, ?_⟩
    show dp.simulateInt.2.data = dp.block dp.simulateInt.2.bufSize
    rw [hdata, verifySize_data h]
    rfl

theorem copies_inside (dp : Datapacket) (w : Write) :
    ∀ c ∈ w.copies dp, dp.index ≤ c.1 ∧ c.1 + c.2.length ≤ dp.index + w.size := by
  intro c hc
  cases w with
  | set f =>
    cases f with
    | bool b => cases List.mem_singleton.mp hc; exact ⟨le_rfl, le_rfl⟩
    | int i => cases List.mem_singleton.mp hc; exact ⟨le_rfl, le_rfl⟩
    | string s =>
      have hsize : (Write.set (.string s)).size = s.length + 5 := stringBytes_length s
      rw [hsize]
      rcases List.mem_cons.mp hc with rfl | hc
      · simp only [bcFromInt_length]
        omega
      · cases List.mem_singleton.mp hc
        simp only [List.length_append, List.length_singleton, intSize]
        omega
  | simulate => cases hc

theorem Exact.checked {dp : Datapacket} (h : dp.Exact) (w : Write) :
    ∀ c ∈ w.checks dp, c.1.index ≤ c.1.bufSize ∧ ∃ turns, c.1.GrowsIn c.2 turns := by
  have hown : ∀ additional, dp.index ≤ dp.bufSize ∧ ∃ turns, dp.GrowsIn additional turns :=
    fun additional => ⟨h.sound.room.le, _, h.growsIn additional⟩
  intro c hc
  cases w with
  | set f =>
    cases f with
    | bool b => cases List.mem_singleton.mp hc; exact hown 1
    | int i => cases List.mem_singleton.mp hc; exact hown intSize
    | string s =>
      obtain ⟨hs, hsame, _⟩ := setString_eq h.sound s
      have hroom := (verifySize_spec h.sound (intSize + (s.length + 1))).2
      have hi := verifySize_index dp (intSize + (s.length + 1))
      rcases List.mem_cons.mp hc with rfl | hc
      · exact hown _
      · -- the second check of a string finds the room made by the first
        cases List.mem_singleton.mp hc
        refine ⟨hs.room.le, 0, fun k hk => absurd hk (Nat.not_lt_zero k), ?_,
          congrArg Datapacket.bufSize hsame⟩
        dsimp only
        omega
  | simulate => cases List.mem_singleton.mp hc; exact hown intSize

/-- The step: one operation, from any state between two operations. -/
theorem Exact.grewBy {dp : Datapacket} (h : dp.Exact) (w : Write) :
    dp.GrewBy w ∧ (w.run dp).Exact := by
  obtain ⟨hsound, hindex⟩ := run_sound h.sound w
  obtain ⟨hbuf, hdata⟩ := run_block h.sound w
  have hexact : (w.run dp).bufSize = packetSize * ((w.run dp).index / packetSize + 1) := by
    rw [hbuf, h.verifySize_bufSize, hindex]
  have hle : dp.bufSize ≤ (w.run dp).bufSize := by
    rw [hbuf, (h.growsIn w.size).bufSize]
    omega
  have hinside : ∀ c ∈ w.copies dp, dp.index ≤ c.1 ∧ c.1 + c.2.length ≤ (w.run dp).index ∧
      c.1 + c.2.length < (w.run dp).bufSize := by
    intro c hc
    obtain ⟨hlow, hend⟩ := copies_inside dp w c hc
    have hroom := hsound.room
    omega
  exact ⟨⟨h.checked w, hsound.clean, hindex, hexact, hdata, hinside,
    fun k _ hk => kept_of_copies h.sound hle hdata hinside hk⟩, hsound, hexact⟩

theorem create_exact (fresh : Nat → UInt8) (type : Int32) : (create fresh type).Exact := by
  obtain ⟨hs, hi, _⟩ := create_spec fresh type
  have hstart : Exact ⟨(List.range packetSize).map fresh, intSize, packetSize, fresh, false⟩ :=
    ⟨⟨by simp, by simp [intSize, packetSize], le_rfl, rfl⟩, by simp [intSize, packetSize]⟩
  exact (hstart.grewBy (.set (.int type))).2

theorem writes_exact {dp : Datapacket} (h : dp.Exact) (writes : List Write) :
    (writes.foldl Write.run dp).Exact := by
  induction writes generalizing dp with
  | nil => exact h
  | cons w writes ih => exact ih (h.grewBy w).2

/-- Every operation of every writer, from `datapacket_create` on. -/
theorem growth_exact (fresh : Nat → UInt8) (type : Int32) (writes : List Write) (w : Write) :
    (writes.foldl Write.run (create fresh type)).GrewBy w :=
  ((writes_exact (create_exact fresh type) writes).grewBy w).1

end Datapacket
end VhIM.Network
