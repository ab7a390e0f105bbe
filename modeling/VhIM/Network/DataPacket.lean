import VhIM.Lib.Bytes
import VhIM.Lib.Cursor
import VhIM.Network.ByteConverter

/-! # The datapacket

`datapacket.c`: a growing buffer with one cursor, used to write packets and to
read them. Strings are lists of bytes without NUL; the C string is the list
followed by a NUL. The first four bytes are kept for the packet's size. -/
namespace VhIM.Network
open VhIM.Lib

/-- What stops the program. The first three are the ways to read a packet
badly; the others belong to the server's loop. -/
inductive Fault where
  /-- A read at or past the end of the packet. -/
  | outOfBounds
  /-- A string length below zero. -/
  | negativeLength
  /-- A string without a NUL among its bytes. -/
  | unterminated
  /-- A NULL `server_client` is dereferenced. -/
  | nullClient
  /-- A packet is handed over with a `server_client` that was freed. -/
  | freedClient
  /-- More than 1024 bytes are copied into the rest buffer. -/
  | restOverflow
  deriving DecidableEq

def Fault.ofRead : Fault → Bool
  | .outOfBounds | .negativeLength | .unterminated => true
  | _ => false

def packetSize : Nat := 32

def intSize : Nat := 4

structure Datapacket where
  /-- The block `data` points to. -/
  data : List UInt8
  index : Nat
  bufSize : Nat
  /-- What the cells of newly allocated memory happen to hold. -/
  fresh : Nat → UInt8
  /-- An assertion failed or a copy ran out of the block. -/
  fault : Bool

namespace Datapacket

/-! ## Writing -/

/-- The `while` of `datapacket_verify_size`; `additional + 1` turns suffice. -/
def growLoop (curSize additional : Nat) : Nat → Nat → Nat
  | 0, bufSize => bufSize
  | fuel + 1, bufSize =>
    if bufSize - curSize ≤ additional then growLoop curSize additional fuel (bufSize + packetSize)
    else bufSize

def verifySize (dp : Datapacket) (additional : Nat) : Datapacket :=
  let curSize := dp.index
  let dp := { dp with fault := dp.fault || !decide (curSize ≤ dp.bufSize) }
  if dp.bufSize - curSize > additional then dp
  else
    let bufSize := growLoop curSize additional (additional + 1) dp.bufSize
    -- realloc keeps the old cells; the new ones hold anything
    { dp with
      bufSize := bufSize
      data := dp.data ++
        (List.range' dp.data.length (bufSize - dp.data.length)).map dp.fresh }

/-- `memcpy(dp->data + off, bytes, n)`. -/
def copyTo (dp : Datapacket) (off : Nat) (bytes : List UInt8) : Datapacket :=
  { dp with
    data := memcpy dp.data off bytes
    fault := dp.fault || !decide (off + bytes.length ≤ dp.data.length) }

def setBool (dp : Datapacket) (b : Bool) : Datapacket :=
  let dp := dp.verifySize 1
  { dp.copyTo dp.index (bcFromBool b) with index := dp.index + 1 }

def setInt (dp : Datapacket) (i : Int32) : Datapacket :=
  let dp := dp.verifySize intSize
  { dp.copyTo dp.index (bcFromInt i) with index := dp.index + intSize }

/-- `datapacket_simulate_int`: the offset of the four bytes it keeps free, and
the packet. -/
def simulateInt (dp : Datapacket) : Int32 × Datapacket :=
  let dp := dp.verifySize intSize
  let dp := { dp with index := dp.index + intSize }
  (Int32.ofNat (dp.index - intSize), dp)

def updateInt (dp : Datapacket) (index i : Int32) : Datapacket :=
  if 0 ≤ index ∧ index.toInt.toNat < dp.index then
    { dp.copyTo index.toInt.toNat (bcFromInt i) with index := dp.index + intSize }
  else dp

/-- `datapacket_set_string`, for strings shorter than `2 ^ 31 - 1`. -/
def setString (dp : Datapacket) (s : List UInt8) : Datapacket :=
  let len := s.length
  let dp := dp.verifySize (intSize + (len + 1))
  let dp := dp.setInt (Int32.ofNat len)
  { dp.copyTo dp.index (s ++ [0]) with index := dp.index + (len + 1) }

def create (fresh : Nat → UInt8) (type : Int32) : Datapacket :=
  setInt ⟨(List.range packetSize).map fresh, intSize, packetSize, fresh, false⟩ type

/-- `datapacket_finish`: the size it returns, and the packet with its size
written in front. -/
def finish (dp : Datapacket) : Int32 × Datapacket :=
  let size := Int32.ofNat dp.index
  (size, dp.copyTo 0 (bcFromInt size))

/-- What is handed to the socket after `datapacket_finish`: `size` bytes. -/
def finishedBytes (dp : Datapacket) : List UInt8 :=
  dp.finish.2.data.take dp.finish.1.toInt.toNat

/-! ## Reading -/

/-- `datapacket_create_from_data`; `sizeof(data)` is the size of a pointer. -/
def createFromData (data : List UInt8) : Datapacket := ⟨data, intSize, 8, fun _ => 0, false⟩

def rest (dp : Datapacket) : List UInt8 := dp.data.drop dp.index

def advance (dp : Datapacket) (n : Nat) : Datapacket := { dp with index := dp.index + n }

end Datapacket

abbrev Get := StateT Datapacket (Except Fault)

def getBytes (n : Nat) : Get (List UInt8) := fun dp =>
  if dp.index + n ≤ dp.data.length then .ok ((dp.data.drop dp.index).take n, dp.advance n)
  else .error .outOfBounds

def getBool : Get Bool := do
  let ba ← getBytes 1
  return bcToBool ba

def getInt : Get Int32 := do
  let ba ← getBytes intSize
  return bcToInt ba

/-- The C string in a copied block: the bytes before the first NUL. -/
def cString (sa : List UInt8) : Get (List UInt8) :=
  if 0 ∈ sa then return sa.takeWhile (· ≠ 0) else throw .unterminated

def getChars (len : Int32) : Get (List UInt8) :=
  if len < 0 then throw .negativeLength
  else do
    let sa ← getBytes (len.toInt.toNat + 1)
    cString sa

def getString : Get (List UInt8) := do
  let len ← getInt
  getChars len

/-! ## What the setters keep and append -/

namespace Datapacket

/-- The state of a packet between two operations of a writer. -/
structure Sound (dp : Datapacket) : Prop where
  size : dp.data.length = dp.bufSize
  room : dp.index < dp.bufSize
  header : intSize ≤ dp.index
  clean : dp.fault = false

/-- The bytes written so far, the size in front included. -/
def written (dp : Datapacket) : List UInt8 := dp.data.take dp.index

/-- `dp'` is `dp` with `bytes` appended. -/
structure Writes (dp dp' : Datapacket) (bytes : List UInt8) : Prop where
  sound : dp'.Sound
  index : dp'.index = dp.index + bytes.length
  written : dp'.written = dp.written ++ bytes

theorem Writes.trans {dp dp' dp'' : Datapacket} {a b : List UInt8} (h : Writes dp dp' a)
    (h' : Writes dp' dp'' b) : Writes dp dp'' (a ++ b) :=
  ⟨h'.sound, by rw [h'.index, h.index, List.length_append, Nat.add_assoc],
    by rw [h'.written, h.written, List.append_assoc]⟩

theorem growLoop_spec (curSize additional : Nat) : ∀ fuel bufSize, curSize ≤ bufSize →
    additional < bufSize - curSize + fuel →
    bufSize ≤ growLoop curSize additional fuel bufSize ∧
      curSize + additional < growLoop curSize additional fuel bufSize
  | 0, bufSize, hcur, hfuel => ⟨le_rfl, by simp only [growLoop]; omega⟩
  | fuel + 1, bufSize, hcur, hfuel => by
    simp only [growLoop]
    split
    · have ih := growLoop_spec curSize additional fuel (bufSize + packetSize) (by omega)
        (by simp only [packetSize]; omega)
      exact ⟨by omega, ih.2⟩
    · exact ⟨le_rfl, by omega⟩

/-- `datapacket_verify_size` only makes room: the assertion holds, and what
was written stays. -/
theorem verifySize_spec {dp : Datapacket} (h : dp.Sound) (additional : Nat) :
    Writes dp (dp.verifySize additional) [] ∧
      dp.index + additional < (dp.verifySize additional).bufSize := by
  have hclean : (dp.fault || !decide (dp.index ≤ dp.bufSize)) = false := by
    simp [h.clean, h.room.le]
  simp only [verifySize]
  split
  · next hroom =>
    exact ⟨⟨⟨h.size, h.room, h.header, hclean⟩, rfl, by simp [written]⟩, by simp; omega⟩
  · next hroom =>
    obtain ⟨hge, hgt⟩ := growLoop_spec dp.index additional (additional + 1) dp.bufSize h.room.le
      (by omega)
    refine ⟨⟨⟨?_, ?_, h.header, hclean⟩, rfl, ?_⟩, hgt⟩
    · simp only [List.length_append, List.length_map, List.length_range', h.size]
      omega
    · exact lt_of_lt_of_le h.room hge
    · simp only [written, List.append_nil]
      exact List.take_append_of_le_length (by rw [h.size]; exact h.room.le)

/-- A copy to the cursor, with the cursor moved behind it. -/
theorem copyTo_spec {dp : Datapacket} (h : dp.Sound) (bytes : List UInt8)
    (hroom : dp.index + bytes.length < dp.bufSize) :
    Writes dp { dp.copyTo dp.index bytes with index := dp.index + bytes.length } bytes := by
  have hfits : dp.index + bytes.length ≤ dp.data.length := by rw [h.size]; exact hroom.le
  refine ⟨⟨?_, hroom, h.header.trans (Nat.le_add_right _ _), ?_⟩, rfl, ?_⟩
  · exact (memcpy_length hfits).trans h.size
  · simp [copyTo, h.clean, hfits]
  · exact memcpy_take (by rw [h.size]; exact h.room.le)

theorem setBool_spec {dp : Datapacket} (h : dp.Sound) (b : Bool) :
    Writes dp (dp.setBool b) (bcFromBool b) := by
  obtain ⟨hw, hroom⟩ := verifySize_spec h 1
  have hi : (dp.verifySize 1).index = dp.index := hw.index
  exact hw.trans (copyTo_spec hw.sound _ (by rw [hi]; exact hroom))

theorem setInt_spec {dp : Datapacket} (h : dp.Sound) (i : Int32) :
    Writes dp (dp.setInt i) (bcFromInt i) := by
  obtain ⟨hw, hroom⟩ := verifySize_spec h intSize
  have hi : (dp.verifySize intSize).index = dp.index := hw.index
  exact hw.trans (copyTo_spec hw.sound _ (by rw [hi]; exact hroom))

/-- The room made for the whole string survives the write of its length. -/
theorem setInt_bufSize (dp : Datapacket) (i : Int32) (h : dp.index + intSize < dp.bufSize) :
    (dp.setInt i).bufSize = dp.bufSize := by
  simp only [setInt, copyTo, verifySize]
  rw [if_pos (by omega)]

theorem setString_spec {dp : Datapacket} (h : dp.Sound) (s : List UInt8) :
    Writes dp (dp.setString s) (bcFromInt (Int32.ofNat s.length) ++ (s ++ [0])) := by
  obtain ⟨hw, hroom⟩ := verifySize_spec h (intSize + (s.length + 1))
  have hi : (dp.verifySize (intSize + (s.length + 1))).index = dp.index := hw.index
  have hlen := setInt_spec hw.sound (Int32.ofNat s.length)
  have hbuf := setInt_bufSize (dp.verifySize (intSize + (s.length + 1)))
    (Int32.ofNat s.length) (by rw [hi]; omega)
  have hidx := hlen.index
  rw [hi, bcFromInt_length] at hidx
  have hcopy := copyTo_spec hlen.sound (s ++ [0]) (by
    rw [hidx, hbuf, List.length_append, List.length_singleton]
    simp only [intSize] at hroom ⊢
    omega)
  rw [List.length_append, List.length_singleton] at hcopy
  exact hw.trans (hlen.trans hcopy)

theorem create_spec (fresh : Nat → UInt8) (type : Int32) :
    (create fresh type).Sound ∧ (create fresh type).index = 8 ∧
      (create fresh type).written.drop intSize = bcFromInt type := by
  have h0 : Sound ⟨(List.range packetSize).map fresh, intSize, packetSize, fresh, false⟩ :=
    ⟨by simp, by simp [intSize, packetSize], le_rfl, rfl⟩
  have hw := setInt_spec h0 type
  refine ⟨hw.sound, hw.index, ?_⟩
  rw [create, hw.written, List.drop_left' (by rfl)]

/-- `datapacket_finish` replaces the first four bytes by the size and keeps
the rest. -/
theorem finishedBytes_eq {dp : Datapacket} (h : dp.Sound) (hsize : dp.index < 2 ^ 31) :
    dp.finish.1.toInt = dp.index ∧ dp.finish.2.fault = false ∧
      dp.finishedBytes = bcFromInt (Int32.ofNat dp.index) ++ dp.written.drop intSize := by
  have hint : (Int32.ofNat dp.index).toInt = dp.index := Int32.toInt_ofNat_of_lt hsize
  have hlen : intSize ≤ dp.data.length := by
    rw [h.size]; exact h.header.trans h.room.le
  refine ⟨hint, ?_, ?_⟩
  · simp only [finish, copyTo, h.clean, Bool.false_or, bcFromInt_length, Nat.zero_add]
    simpa [intSize] using hlen
  · have hnat : (dp.finish.1).toInt.toNat = dp.index := by
      show (Int32.ofNat dp.index).toInt.toNat = dp.index
      rw [hint]; rfl
    rw [finishedBytes, hnat]
    simp only [finish, copyTo, memcpy_zero_append, bcFromInt_length, written]
    rw [List.take_append, bcFromInt_length, List.take_of_length_le h.header, List.drop_take]
    rfl

end Datapacket
end VhIM.Network
