import Mathlib

/-! # The byte converter

`byteconverter.c`: a C `int` as four bytes, most significant first, and a
`bool` as one byte. `int` is `Int32` and `byte` is `UInt8`. -/
namespace VhIM.Network

def bcFromBool (data : Bool) : List UInt8 := [if data then 0x01 else 0x00]

/-- `bc_from_int`: arithmetic shifts, each masked to its low byte. -/
def bcFromInt (data : Int32) : List UInt8 :=
  [((data >>> 24) &&& 0xff).toUInt32.toUInt8,
   ((data >>> 16) &&& 0xff).toUInt32.toUInt8,
   ((data >>> 8) &&& 0xff).toUInt32.toUInt8,
   ((data >>> 0) &&& 0xff).toUInt32.toUInt8]

/-- `bc_to_bool` of a non-null pointer. -/
def bcToBool (data : List UInt8) : Bool := data.getD 0 0 != 0x00

def promote (b : UInt8) : Int32 := b.toUInt32.toInt32

def bcToInt (data : List UInt8) : Int32 :=
  (0xff &&& promote (data.getD 0 0)) <<< 24 ||| (0xff &&& promote (data.getD 1 0)) <<< 16 |||
    (0xff &&& promote (data.getD 2 0)) <<< 8 ||| (0xff &&& promote (data.getD 3 0)) <<< 0

@[simp] theorem bcFromInt_length (i : Int32) : (bcFromInt i).length = 4 := rfl

@[simp] theorem bcFromBool_length (b : Bool) : (bcFromBool b).length = 1 := rfl

@[simp] theorem bcToBool_fromBool (b : Bool) (tail : List UInt8) :
    bcToBool (bcFromBool b ++ tail) = b := by
  cases b <;> rfl

theorem bcToInt_take (data : List UInt8) : bcToInt (data.take 4) = bcToInt data := by
  simp [bcToInt, List.getD_eq_getElem?_getD]

theorem bcToInt_append {data : List UInt8} (h : 4 ≤ data.length) (tail : List UInt8) :
    bcToInt (data ++ tail) = bcToInt data := by
  rw [← bcToInt_take, List.take_append_of_le_length h, bcToInt_take]

/-- Masking, storing in a byte and promoting back keeps the low eight bits. -/
theorem promote_lowByte (x : Int32) :
    (0xff &&& promote (x &&& 0xff).toUInt32.toUInt8).toBitVec = x.toBitVec &&& 255#32 := by
  apply BitVec.eq_of_toNat_eq
  have hmod : ∀ n : Nat, n &&& 255 = n % 256 := fun n => Nat.and_two_pow_sub_one_eq_mod n 8
  simp [promote, Nat.and_comm 255, hmod]

theorem reassemble (x : BitVec 32) :
    (x.sshiftRight 24 &&& 255#32) <<< 24 ||| (x.sshiftRight 16 &&& 255#32) <<< 16 |||
      (x.sshiftRight 8 &&& 255#32) <<< 8 ||| (x &&& 255#32) = x := by
  ext k hk
  interval_cases k <;> simp [BitVec.getElem_sshiftRight]

/-- What `bc_from_int` writes, `bc_to_int` reads, for negative ints too. -/
theorem bcToInt_fromInt (i : Int32) (tail : List UInt8) : bcToInt (bcFromInt i ++ tail) = i := by
  apply Int32.toBitVec_inj.mp
  simp only [bcFromInt, bcToInt, List.cons_append, List.getD_cons_zero, List.getD_cons_succ,
    Int32.toBitVec_or, Int32.toBitVec_shiftLeft, promote_lowByte]
  simpa using reassemble i.toBitVec

end VhIM.Network
