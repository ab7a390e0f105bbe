import VhIM.Client.Commands

/-! # Numbers in commands

`is_decimal_number` looks at the characters of a word only, and `atoi` cuts
down what they denote. Five commands put the result into a packet. -/
namespace VhIM.Client
open VhIM.Network VhIM.Utility

/-- The natural number that a word of digits denotes. -/
def denotes (word : List UInt8) : Nat := Nat.ofDigits 10 (word.map (·.toNat - 48)).reverse

theorem foldl_eq_denotes (word : List UInt8) :
    word.foldl (fun value c => 10 * value + (c.toNat - 48)) 0 = denotes word := by
  induction word using List.reverseRecOn with
  | nil => rfl
  | append_singleton word c ih =>
    rw [List.foldl_append, ih, List.foldl_cons, List.foldl_nil, denotes, denotes, List.map_append,
      List.reverse_append, List.map_singleton, List.reverse_singleton, List.singleton_append,
      Nat.ofDigits_cons, Nat.add_comm]

/-- An `int` holds what is below its bound, and nothing else. -/
theorem atoi_toInt (word : List UInt8) :
    (atoi word).toInt = denotes word ↔ denotes word < 2 ^ 31 := by
  rw [atoi, foldl_eq_denotes]
  constructor
  · intro h
    have hlt := (Int32.ofNat (min (denotes word) (2 ^ 63 - 1))).toInt_lt
    omega
  · intro h
    rw [min_eq_left (by omega)]
    exact Int32.toInt_ofNat_of_lt h

/-! ## The commands -/

/-- A call of `execute_command` with words that are to be numbers. -/
inductive NumericCall where
  | kick (uid : List UInt8)
  | whisper (uid msg : List UInt8)
  | grant (uid lvl : List UInt8)
  | addFriend (uid : List UInt8)
  | removeFriend (uid : List UInt8)

namespace NumericCall

def call : NumericCall → ExecCall
  | kick uid => ⟨MsgType.cmdKickId.code, some [some uid]⟩
  | whisper uid msg => ⟨MsgType.whisper.code, some [some uid, some msg]⟩
  | grant uid lvl => ⟨MsgType.grantPrivileges.code, some [some uid, some lvl]⟩
  | addFriend uid => ⟨MsgType.addFriend.code, some [some uid]⟩
  | removeFriend uid => ⟨MsgType.removeFriend.code, some [some uid]⟩

def numbers : NumericCall → List (List UInt8)
  | kick uid | whisper uid _ | addFriend uid | removeFriend uid => [uid]
  | grant uid lvl => [uid, lvl]

def request : NumericCall → Request
  | kick uid => .kick (atoi uid)
  | whisper uid msg => .whisper (atoi uid) msg
  | grant uid lvl => .grantPrivileges (atoi uid) (atoi lvl)
  | addFriend uid => .addFriend (atoi uid)
  | removeFriend uid => .removeFriend (atoi uid)

end NumericCall

def Request.ints (r : Request) : List Int :=
  r.fields.filterMap fun
    | .int i => some i.toInt
    | _ => none

/-- Whatever is sent names the numbers that were typed. -/
def KeepsValue (portDefault : Int32) (c : NumericCall) : Prop :=
  ∀ r code, executeCommand portDefault c.call = some (.request r, code) →
    r.ints = c.numbers.map fun word => (denotes word : Int)

variable {portDefault : Int32}

/-- Words of digits are all it takes. -/
theorem executeCommand_numeric (portDefault : Int32) (c : NumericCall) :
    (∀ word ∈ c.numbers, isDecimalNumber word) ∧
        executeCommand portDefault c.call = some (.request c.request, 0) ∨
      (¬ ∀ word ∈ c.numbers, isDecimalNumber word) ∧
        ∃ code, executeCommand portDefault c.call = some (.nothing, code) := by
  cases c with
  | kick uid =>
    cases h : isDecimalNumber uid <;>
      simp [executeCommand, argument, NumericCall.call, NumericCall.numbers, NumericCall.request, h]
  | whisper uid msg =>
    cases h : isDecimalNumber uid <;>
      simp [executeCommand, argument, NumericCall.call, NumericCall.numbers, NumericCall.request, h]
  | grant uid lvl =>
    cases h : isDecimalNumber uid <;> cases h' : isDecimalNumber lvl <;>
      simp [executeCommand, argument, NumericCall.call, NumericCall.numbers, NumericCall.request, h,
        h']
  | addFriend uid =>
    cases h : isDecimalNumber uid <;>
      simp [executeCommand, argument, NumericCall.call, NumericCall.numbers, NumericCall.request, h]
  | removeFriend uid =>
    cases h : isDecimalNumber uid <;>
      simp [executeCommand, argument, NumericCall.call, NumericCall.numbers, NumericCall.request, h]

theorem request_ints (c : NumericCall) :
    c.request.ints = c.numbers.map fun word => (atoi word).toInt := by
  cases c <;> rfl

/-- A command keeps the numbers typed exactly if none of those it accepts is
too large for an `int`. -/
theorem keeps_value_iff (portDefault : Int32) (c : NumericCall) :
    KeepsValue portDefault c ↔
      ((∀ word ∈ c.numbers, isDecimalNumber word) → ∀ word ∈ c.numbers, denotes word < 2 ^ 31) := by
  have hsame : (c.request.ints = c.numbers.map fun word => (denotes word : Int)) ↔
      ∀ word ∈ c.numbers, denotes word < 2 ^ 31 := by
    rw [request_ints, List.map_inj_left]
    exact forall₂_congr fun word _ => atoi_toInt word
  rcases executeCommand_numeric portDefault c with ⟨haccepted, hexec⟩ | ⟨hrejected, code, hexec⟩
  · rw [← hsame]
    constructor
    · exact fun h _ => h _ _ hexec
    · intro h r code hr
      rw [hexec] at hr
      cases hr
      exact h haccepted
  · refine iff_of_true (fun r code' hr => ?_) fun h => absurd h hrejected
    rw [hexec] at hr
    cases hr

/-- A number just above the unsigned range kicks the user with the id 1. -/
theorem large_number_names_another :
    ¬ ∀ (portDefault : Int32) (c : NumericCall), KeepsValue portDefault c := by
  intro h
  have hkick : executeCommand 0 (NumericCall.kick (text "4294967297")).call =
      some (.request (.kick 1), 0) := by decide +kernel
  have hvalue := h 0 (.kick (text "4294967297")) _ _ hkick
  exact absurd hvalue (by decide +kernel)

end VhIM.Client
