import VhIM.Network.DataPacket

/-! # What is written is what is read

The datapacket as a cursor over its bytes, one lemma for each getter on the
bytes of the matching setter, and the round trip of whole packets: any
sequence of setters, read back by the getters in the same order. -/
namespace VhIM.Network
open VhIM.Lib

def Datapacket.cursor : Cursor Datapacket UInt8 where
  rest := Datapacket.rest
  advance := Datapacket.advance
  rest_advance := fun dp n => by simp [Datapacket.rest, Datapacket.advance, List.drop_drop]
  advance_zero := fun _ => rfl
  advance_add := fun dp m n => by simp [Datapacket.advance, Nat.add_assoc]

open Datapacket (cursor)

/-! ## The getters on written bytes -/

theorem getBytes_consumes (bs : List UInt8) (h : bs ≠ []) :
    Consumes cursor (getBytes bs.length) bs bs := by
  intro dp tail hs
  have hlen : dp.data.length - dp.index = bs.length + tail.length := by
    have := congrArg List.length hs
    simpa [cursor, Datapacket.rest] using this
  have hpos := List.length_pos_of_ne_nil h
  have hrest : dp.data.drop dp.index = bs ++ tail := hs
  simp only [getBytes]
  rw [if_pos (by omega), hrest, List.take_left]
  rfl

theorem getBool_consumes (b : Bool) : Consumes cursor getBool (bcFromBool b) b := by
  have h := (getBytes_consumes (bcFromBool b) (by simp [bcFromBool])).bind_pure
    (f := bcToBool)
  have hb : bcToBool (bcFromBool b) = b := by cases b <;> rfl
  rwa [hb] at h

theorem getInt_consumes (i : Int32) : Consumes cursor getInt (bcFromInt i) i := by
  have h := (getBytes_consumes (bcFromInt i) (by simp [bcFromInt])).bind_pure (f := bcToInt)
  have hi : bcToInt (bcFromInt i) = i := by simpa using bcToInt_fromInt i []
  rwa [hi] at h

/-- The bytes of a string: its length without the NUL, and the text with it. -/
def stringBytes (s : List UInt8) : List UInt8 :=
  bcFromInt (Int32.ofNat s.length) ++ (s ++ [0])

theorem stringBytes_length (s : List UInt8) : (stringBytes s).length = s.length + 5 := by
  simp [stringBytes]; omega

theorem getString_consumes {s : List UInt8} (hnul : 0 ∉ s) (hlen : s.length < 2 ^ 31) :
    Consumes cursor getString (stringBytes s) s := by
  have hint : (Int32.ofNat s.length).toInt = s.length := Int32.toInt_ofNat_of_lt hlen
  have hneg : ¬ Int32.ofNat s.length < 0 := by
    rw [Int32.lt_iff_toInt_lt, hint]; simp
  have hcount : (Int32.ofNat s.length).toInt.toNat + 1 = (s ++ [0]).length := by
    rw [hint]; simp
  have htake : (s ++ [0]).takeWhile (· ≠ 0) = s := by
    rw [List.takeWhile_append_of_pos (by simpa using fun a ha => ne_of_mem_of_not_mem ha hnul)]
    simp
  refine (getInt_consumes _).bind ?_
  rw [getChars, if_neg hneg, hcount]
  have hend : Consumes cursor (cString (s ++ [0])) [] s := by
    rw [cString, if_pos (by simp), htake]
    exact Consumes.pure s
  have h := (getBytes_consumes (s ++ [0]) (by simp)).bind (f := cString) hend
  rwa [List.append_nil] at h

/-! ## Whole packets -/

inductive Field where
  | bool (b : Bool)
  | int (i : Int32)
  | string (s : List UInt8)
  deriving DecidableEq

inductive FieldKind where
  | bool
  | int
  | string
  deriving DecidableEq

def Field.kind : Field → FieldKind
  | .bool _ => .bool
  | .int _ => .int
  | .string _ => .string

def Field.encode : Field → List UInt8
  | .bool b => bcFromBool b
  | .int i => bcFromInt i
  | .string s => stringBytes s

def Field.NulFree : Field → Prop
  | .string s => 0 ∉ s
  | _ => True

def Datapacket.set (dp : Datapacket) : Field → Datapacket
  | .bool b => dp.setBool b
  | .int i => dp.setInt i
  | .string s => dp.setString s

def getField : FieldKind → Get Field
  | .bool => do return .bool (← getBool)
  | .int => do return .int (← getInt)
  | .string => do return .string (← getString)

def getFields : List FieldKind → Get (List Field)
  | [] => pure []
  | k :: ks => do
    let v ← getField k
    let vs ← getFields ks
    return v :: vs

def getPacket (kinds : List FieldKind) : Get (Int32 × List Field) := do
  let type ← getInt
  let vs ← getFields kinds
  return (type, vs)

def encodeFields (fields : List Field) : List UInt8 := fields.flatMap Field.encode

/-- A finished packet: its size, its type and its fields. -/
def packetBytes (type : Int32) (body : List UInt8) : List UInt8 :=
  bcFromInt (Int32.ofNat (8 + body.length)) ++ (bcFromInt type ++ body)

theorem packetBytes_length (type : Int32) (body : List UInt8) :
    (packetBytes type body).length = 8 + body.length := by
  simp [packetBytes]; omega

/-- Its first four bytes say how long it is. -/
theorem packetBytes_size (type : Int32) (body : List UInt8) :
    (packetBytes type body).take 4 = bcFromInt (Int32.ofNat (packetBytes type body).length) := by
  rw [packetBytes_length]
  exact List.take_left' (bcFromInt_length _)

namespace Datapacket

theorem set_spec {dp : Datapacket} (h : dp.Sound) (f : Field) : Writes dp (dp.set f) f.encode := by
  cases f with
  | bool b => exact setBool_spec h b
  | int i => exact setInt_spec h i
  | string s => exact setString_spec h s

theorem Writes.refl {dp : Datapacket} (h : dp.Sound) : Writes dp dp [] :=
  ⟨h, rfl, by simp⟩

theorem setAll_spec {dp : Datapacket} (h : dp.Sound) (fields : List Field) :
    Writes dp (fields.foldl set dp) (encodeFields fields) := by
  induction fields generalizing dp with
  | nil => exact .refl h
  | cons f fields ih =>
    have hf := set_spec h f
    exact hf.trans (ih hf.sound)

/-- A packet written from `datapacket_create` on and finished. -/
theorem finishedBytes_of_writes {fresh : Nat → UInt8} {type : Int32} {dp : Datapacket}
    {body : List UInt8} (hw : Writes (create fresh type) dp body)
    (hsize : 8 + body.length < 2 ^ 31) :
    dp.finish.1.toInt = 8 + body.length ∧ dp.finishedBytes = packetBytes type body := by
  obtain ⟨hs, hidx, hdrop⟩ := create_spec fresh type
  have hindex : dp.index = 8 + body.length := by rw [hw.index, hidx]
  obtain ⟨hint, _, hbytes⟩ := finishedBytes_eq hw.sound (by rw [hindex]; exact hsize)
  refine ⟨by rw [hint, hindex]; simp, ?_⟩
  have hlen : intSize ≤ (create fresh type).written.length := by
    rw [written, List.length_take, hs.size, hidx]
    have := hs.room
    simp only [intSize]
    omega
  rw [hbytes, hw.written, List.drop_append_of_le_length hlen, hdrop, hindex]
  rfl

/-- What a reader of a finished packet finds after the size. -/
theorem rest_createFromData (type : Int32) (body : List UInt8) :
    (createFromData (packetBytes type body)).rest = bcFromInt type ++ body := by
  simp only [rest, createFromData, packetBytes]
  exact List.drop_left' rfl

/-- A reader that consumes all that follows the size ends at the packet's end. -/
theorem reads_packet {α : Type} {m : Get α} {type : Int32} {body : List UInt8} {a : α}
    (hm : Consumes cursor m (bcFromInt type ++ body) a) :
    m (createFromData (packetBytes type body)) = .ok (a,
      { createFromData (packetBytes type body) with index := (packetBytes type body).length }) := by
  rw [hm _ [] (by rw [List.append_nil]; exact rest_createFromData type body)]
  congr 2
  simp only [cursor, advance, createFromData, packetBytes_length, List.length_append,
    bcFromInt_length]
  congr 1
  simp only [intSize]
  omega

end Datapacket

theorem getField_consumes {f : Field} (hnul : f.NulFree) (hlen : f.encode.length < 2 ^ 31) :
    Consumes cursor (getField f.kind) f.encode f := by
  cases f with
  | bool b => exact (getBool_consumes b).bind_pure
  | int i => exact (getInt_consumes i).bind_pure
  | string s =>
    refine (getString_consumes hnul ?_).bind_pure
    simp only [Field.encode, stringBytes_length] at hlen
    omega

theorem getFields_consumes {fields : List Field} (hnul : ∀ f ∈ fields, f.NulFree)
    (hlen : (encodeFields fields).length < 2 ^ 31) :
    Consumes cursor (getFields (fields.map Field.kind)) (encodeFields fields) fields := by
  induction fields with
  | nil => exact Consumes.pure []
  | cons f fields ih =>
    have hsplit : (encodeFields (f :: fields)).length =
        f.encode.length + (encodeFields fields).length := by simp [encodeFields]
    have hf := getField_consumes (hnul f (by simp)) (by omega)
    have hfs := ih (fun g hg => hnul g (by simp [hg])) (by omega)
    exact hf.bind hfs.bind_pure

/-- A packet of any type and any fields: after `datapacket_finish` its first
four bytes are its total length, which `finish` returns, and reading it back
returns the type and the fields and ends at its end. -/
theorem datapacket_roundtrip (fresh : Nat → UInt8) (type : Int32) (fields : List Field)
    (hnul : ∀ f ∈ fields, f.NulFree) (hsize : 8 + (encodeFields fields).length < 2 ^ 31) :
    let dp := fields.foldl Datapacket.set (Datapacket.create fresh type)
    let bytes := dp.finishedBytes
    bytes.length = 8 + (encodeFields fields).length ∧
      bcToInt (bytes.take 4) = dp.finish.1 ∧ dp.finish.1.toInt = bytes.length ∧
      getPacket (fields.map Field.kind) (Datapacket.createFromData bytes) = .ok ((type, fields),
        { Datapacket.createFromData bytes with index := bytes.length }) := by
  intro dp bytes
  have hw := Datapacket.setAll_spec (Datapacket.create_spec fresh type).1 fields
  obtain ⟨hfin, hbytes⟩ := Datapacket.finishedBytes_of_writes hw hsize
  have hlen : bytes.length = 8 + (encodeFields fields).length := by
    show dp.finishedBytes.length = _
    rw [hbytes, packetBytes_length]
  refine ⟨hlen, ?_, by rw [hfin, hlen]; simp, ?_⟩
  · show bcToInt (dp.finishedBytes.take 4) = dp.finish.1
    rw [hbytes, bcToInt_take, packetBytes, bcToInt_fromInt]
    show Int32.ofNat _ = Int32.ofNat dp.index
    rw [hw.index, (Datapacket.create_spec fresh type).2.1]
  · rw [show bytes = packetBytes type (encodeFields fields) from hbytes]
    exact Datapacket.reads_packet
      ((getInt_consumes type).bind (getFields_consumes hnul (by omega)).bind_pure)

theorem datapacket_roundtrip_mixed :
    let fields := [.bool true, .string [104, 105], .int (-1)]
    let bytes := (fields.foldl Datapacket.set (Datapacket.create (fun _ => 7) 19)).finishedBytes
    getPacket [.bool, .string, .int] (Datapacket.createFromData bytes) = .ok ((19, fields),
      { Datapacket.createFromData bytes with index := bytes.length }) :=
  (datapacket_roundtrip (fun _ => 7) 19 [.bool true, .string [104, 105], .int (-1)]
    (by simp [Field.NulFree]) (by decide)).2.2.2

end VhIM.Network
