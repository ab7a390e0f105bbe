import VhIM.Network.Codec

/-! # Where the getters stay inside a packet

What bytes make up a field, and that each getter meets a reading fault exactly
where the bytes at the cursor do not make up its field. -/
namespace VhIM.Network
open VhIM.Lib
open Datapacket (cursor)

abbrev FieldKind.Val : FieldKind → Type
  | .bool => Bool
  | .int => Int32
  | .string => List UInt8

/-- The field of a kind that the bytes start with, and how long it is. A string
is a length that is not negative and one byte more than that, with a NUL among
them. -/
def fieldAt : (k : FieldKind) → List UInt8 → Option (k.Val × Nat)
  | .bool, bs => if 1 ≤ bs.length then some (bcToBool bs, 1) else none
  | .int, bs => if intSize ≤ bs.length then some (bcToInt bs, intSize) else none
  | .string, bs =>
    let len := bcToInt bs
    let sa := (bs.drop intSize).take (len.toInt.toNat + 1)
    if ¬ len < 0 ∧ intSize + (len.toInt.toNat + 1) ≤ bs.length ∧ 0 ∈ sa then
      some (sa.takeWhile (· ≠ 0), intSize + (len.toInt.toNat + 1))
    else none

abbrev PacketLayout := Layout FieldKind FieldKind.Val

def FitsLayout (L : PacketLayout) (data : List UInt8) : Prop := L.Fits fieldAt (data.drop intSize)

def StaysInside {α : Type} (r : Except Fault α) : Prop := Avoids (fun f => f.ofRead = true) r

/-- A program that meets a reading fault exactly outside a layout. -/
def FollowsLayout {α : Type} (m : Get α) (L : PacketLayout) : Prop :=
  Follows cursor fieldAt (fun f => f.ofRead = true) m L

/-! ## The getters -/

theorem getBytes_eq (n : Nat) (dp : Datapacket) : getBytes n dp =
    if dp.index + n ≤ dp.data.length then .ok (dp.rest.take n, dp.advance n)
    else .error .outOfBounds := rfl

theorem getInt_of_le {dp : Datapacket} (h : dp.index + intSize ≤ dp.data.length) :
    getInt dp = .ok (bcToInt dp.rest, dp.advance intSize) := by
  show (getBytes intSize dp >>= fun p => (pure (bcToInt p.1) : Get Int32) p.2) = _
  rw [getBytes_eq, if_pos h]
  exact congrArg (fun i => Except.ok (i, dp.advance intSize)) (bcToInt_take _)

theorem getInt_of_lt {dp : Datapacket} (h : dp.data.length < dp.index + intSize) :
    getInt dp = .error .outOfBounds := by
  show (getBytes intSize dp >>= fun p => (pure (bcToInt p.1) : Get Int32) p.2) = _
  rw [getBytes_eq, if_neg (not_le.mpr h)]
  rfl

theorem rest_length (dp : Datapacket) : dp.rest.length = dp.data.length - dp.index :=
  List.length_drop

theorem getInt_reads : ReadsField cursor fieldAt (fun f => f.ofRead = true) .int getInt := by
  intro dp
  have hlen : (cursor.rest dp).length = dp.data.length - dp.index := rest_length dp
  simp only [fieldAt, hlen]
  by_cases h : dp.index + intSize ≤ dp.data.length
  · rw [if_pos (by omega)]
    exact getInt_of_le h
  · have hno : ¬ intSize ≤ dp.data.length - dp.index := by simp only [intSize] at h ⊢; omega
    rw [if_neg hno]
    exact ⟨_, getInt_of_lt (not_le.mp h), rfl⟩

theorem cString_eq (sa : List UInt8) (dp : Datapacket) : cString sa dp =
    if 0 ∈ sa then .ok (sa.takeWhile (· ≠ 0), dp) else .error .unterminated := by
  rw [cString]
  split <;> rfl

/-- The characters are read, or one of the reading faults is met. -/
theorem getChars_eq (len : Int32) (dp : Datapacket) :
    let sa := dp.rest.take (len.toInt.toNat + 1)
    if ¬ len < 0 ∧ dp.index + (len.toInt.toNat + 1) ≤ dp.data.length ∧ 0 ∈ sa then
      getChars len dp = .ok (sa.takeWhile (· ≠ 0), dp.advance (len.toInt.toNat + 1))
    else ∃ e, getChars len dp = .error e ∧ e.ofRead = true := by
  intro sa
  by_cases hneg : len < 0
  · rw [if_neg (fun h => h.1 hneg), getChars, if_pos hneg]
    exact ⟨.negativeLength, rfl, rfl⟩
  · have hrun : getChars len dp =
        (getBytes (len.toInt.toNat + 1) dp >>= fun p => cString p.1 p.2) := by
      rw [getChars, if_neg hneg]; rfl
    rw [hrun, getBytes_eq]
    by_cases hlen : dp.index + (len.toInt.toNat + 1) ≤ dp.data.length
    · rw [if_pos hlen]
      show if _ then cString sa _ = _ else ∃ e, cString sa _ = _ ∧ _
      rw [cString_eq]
      by_cases hnul : 0 ∈ sa
      · rw [if_pos ⟨hneg, hlen, hnul⟩, if_pos hnul]
      · rw [if_neg (fun h => hnul h.2.2), if_neg hnul]
        exact ⟨.unterminated, rfl, rfl⟩
    · rw [if_neg (fun h => hlen h.2.1), if_neg hlen]
      exact ⟨.outOfBounds, rfl, rfl⟩

theorem getString_reads :
    ReadsField cursor fieldAt (fun f => f.ofRead = true) .string getString := by
  intro dp
  have hcursor : cursor.rest dp = dp.rest := rfl
  simp only [fieldAt, hcursor, rest_length]
  by_cases hint : dp.index + intSize ≤ dp.data.length
  · have hrun : getString dp = getChars (bcToInt dp.rest) (dp.advance intSize) := by
      show (getInt dp >>= fun p => getChars p.1 p.2) = _
      rw [getInt_of_le hint]
      rfl
    have hrest : (dp.advance intSize).rest = dp.rest.drop intSize := cursor.rest_advance dp intSize
    have hchars := getChars_eq (bcToInt dp.rest) (dp.advance intSize)
    have hcond : (dp.advance intSize).index + ((bcToInt dp.rest).toInt.toNat + 1) ≤
        (dp.advance intSize).data.length ↔
          intSize + ((bcToInt dp.rest).toInt.toNat + 1) ≤ dp.data.length - dp.index := by
      simp only [Datapacket.advance]
      omega
    simp only [hrest, ← hrun, hcond] at hchars
    split at hchars
    · next h =>
      rw [if_pos h, hchars]
      exact congrArg (fun dp' => Except.ok (_, dp')) (cursor.advance_add dp _ _)
    · next h =>
      rw [if_neg h]
      exact hchars
  · have hno : ¬ intSize + ((bcToInt dp.rest).toInt.toNat + 1) ≤ dp.data.length - dp.index := by
      omega
    have hrun : getString dp = .error .outOfBounds := by
      show (getInt dp >>= fun p => getChars p.1 p.2) = _
      rw [getInt_of_lt (not_le.mp hint)]
      rfl
    rw [if_neg (fun h => hno h.2.1)]
    exact ⟨_, hrun, rfl⟩

/-- A string is shorter than its field. -/
theorem fieldAt_string_length {bs s : List UInt8} {n : Nat}
    (h : fieldAt .string bs = some (s, n)) : s.length + 5 ≤ n ∧ n ≤ bs.length := by
  simp only [fieldAt] at h
  split at h
  · next hfits =>
    obtain ⟨_, hlen, hnul⟩ := hfits
    cases h
    refine ⟨?_, hlen⟩
    let sa := (bs.drop intSize).take ((bcToInt bs).toInt.toNat + 1)
    have hle : sa.length ≤ (bcToInt bs).toInt.toNat + 1 := List.length_take_le _ _
    -- the NUL is not among the characters before it
    have hlt : (sa.takeWhile (· ≠ 0)).length < sa.length := by
      by_contra hge
      have hall := (List.takeWhile_prefix (fun b : UInt8 => decide (b ≠ 0))).eq_of_length_le
        (not_lt.mp hge)
      have hmem : (0 : UInt8) ∈ sa.takeWhile (· ≠ 0) := by
        rw [hall]
        exact hnul
      exact absurd (List.mem_takeWhile_imp hmem) (by decide)
    show (sa.takeWhile (· ≠ 0)).length + 5 ≤ intSize + ((bcToInt bs).toInt.toNat + 1)
    simp only [intSize]
    omega
  · cases h

/-- It ends before the first NUL. -/
theorem fieldAt_string_nulFree {bs s : List UInt8} {n : Nat}
    (h : fieldAt .string bs = some (s, n)) : 0 ∉ s := by
  simp only [fieldAt] at h
  split at h
  · cases h
    intro hmem
    simpa using List.mem_takeWhile_imp hmem
  · cases h

/-- What was read is the field at the cursor. -/
theorem fieldAt_of_getString {dp dp' : Datapacket} {s : List UInt8}
    (h : getString dp = .ok (s, dp')) :
    ∃ n, fieldAt .string dp.rest = some (s, n) ∧ dp' = dp.advance n := by
  have hread := getString_reads dp
  have hcursor : cursor.rest dp = dp.rest := rfl
  rw [hcursor] at hread
  cases hfield : fieldAt .string dp.rest with
  | none =>
    rw [hfield] at hread
    obtain ⟨e, he, _⟩ := hread
    rw [he] at h
    cases h
  | some p =>
    obtain ⟨v, n⟩ := p
    rw [hfield] at hread
    dsimp only at hread
    rw [hread] at h
    cases h
    exact ⟨n, rfl, rfl⟩

theorem getString_ok {dp dp' : Datapacket} {s : List UInt8} (h : getString dp = .ok (s, dp')) :
    dp'.data = dp.data ∧ dp.index + (s.length + 5) ≤ dp'.index ∧ dp'.index ≤ dp.data.length := by
  obtain ⟨n, hfield, rfl⟩ := fieldAt_of_getString h
  obtain ⟨hlen, hle⟩ := fieldAt_string_length hfield
  rw [rest_length] at hle
  simp only [Datapacket.advance]
  exact ⟨trivial, by omega, by omega⟩

theorem getString_nulFree {dp dp' : Datapacket} {s : List UInt8}
    (h : getString dp = .ok (s, dp')) : 0 ∉ s := by
  obtain ⟨_, hfield, _⟩ := fieldAt_of_getString h
  exact fieldAt_string_nulFree hfield

/-! ## Programs -/

theorem FollowsLayout.int {α : Type} {f : Int32 → Get α} {next : Int32 → PacketLayout}
    (hf : ∀ i, FollowsLayout (f i) (next i)) :
    FollowsLayout (getInt >>= f) (.field .int next) :=
  Follows.field getInt_reads hf

theorem FollowsLayout.string {α : Type} {f : List UInt8 → Get α} {next : List UInt8 → PacketLayout}
    (hf : ∀ s, FollowsLayout (f s) (next s)) :
    FollowsLayout (getString >>= f) (.field .string next) :=
  Follows.field getString_reads hf

theorem FollowsLayout.pure {α : Type} (a : α) : FollowsLayout (pure a) .done :=
  Follows.pure a

/-- A program that reads no more can meet other faults only. -/
theorem FollowsLayout.lift {α : Type} {x : Except Fault α} (h : StaysInside x) :
    FollowsLayout (StateT.lift x) .done := by
  refine Follows.done fun dp => ?_
  cases x with
  | error e => exact avoids_error.mpr (h e rfl)
  | ok a => exact avoids_ok _ _

/-- Layouts speak of whole packets. -/
theorem FollowsLayout.packet {α : Type} {m : Get α} {L : PacketLayout} (h : FollowsLayout m L)
    (data : List UInt8) : StaysInside (m (Datapacket.createFromData data)) ↔ FitsLayout L data :=
  h _

end VhIM.Network
