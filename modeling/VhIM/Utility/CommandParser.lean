import VhIM.Network.MessageTypes
import VhIM.Utility.StringsHelper
import VhIM.Lib.Words

/-! # The command parser

`next_word` and `process_command`. A line is its characters up to the NUL, and
a cursor into it is what is left of the line; the calls of `exec_cmd` are
recorded in order. -/
namespace VhIM.Utility
open VhIM.Network VhIM.Lib.Words

/-- The only character that `next_word` takes as white space. -/
def space : UInt8 := 32

/-- `next_word`: the length returned, the word left in `*out`, the new `*in`. -/
def nextWord (line : List UInt8) : Int32 × Option (List UInt8) × List UInt8 :=
  let s := line.dropWhile (· == space)
  let word := s.takeWhile (· != space)
  let len := Int32.ofNat word.length
  if len > 0 then (len, some word, s.dropWhile (· != space)) else (len, none, line)

/-! ## One word -/

theorem int32_pos {n : Nat} (hpos : 0 < n) (hlt : n < 2 ^ 31) : Int32.ofNat n > 0 := by
  rw [gt_iff_lt, Int32.lt_iff_toInt_lt, Int32.toInt_ofNat_of_lt hlt, Int32.toInt_zero]
  omega

/-- On a line without words nothing is read. -/
theorem nextWord_nil {line : List UInt8} (h : words space line = []) :
    nextWord line = (0, none, line) := by
  rw [words_eq] at h
  split at h
  · next hw =>
    simp only [nextWord]
    rw [hw]
    rfl
  · cases h

/-- Else the first word is returned and the cursor stands right after it. -/
theorem nextWord_cons {line w : List UInt8} {ws : List (List UInt8)}
    (hsize : line.length < 2 ^ 31) (h : words space line = w :: ws) :
    ∃ gap rest, line = gap ++ w ++ rest ∧ (∀ c ∈ gap, c = space) ∧ words space rest = ws ∧
      Int32.ofNat w.length ≠ 0 ∧ nextWord line = (Int32.ofNat w.length, some w, rest) := by
  rw [words_eq] at h
  split at h
  · cases h
  · next hne =>
    obtain ⟨hw, hws⟩ := List.cons.inj h
    have hline : line.takeWhile (· == space) ++ w ++
        (line.dropWhile (· == space)).dropWhile (· != space) = line := by
      rw [← hw, List.append_assoc, List.takeWhile_append_dropWhile,
        List.takeWhile_append_dropWhile]
    have hle : w.length ≤ line.length := by
      rw [← hline, List.length_append, List.length_append]
      omega
    have hpos : Int32.ofNat w.length > 0 :=
      int32_pos (List.length_pos_iff.mpr fun hnil => hne (hw.trans hnil)) (by omega)
    refine ⟨_, _, hline.symm, ?_, hws, ?_, ?_⟩
    · intro c hc
      simpa using List.mem_takeWhile_imp hc
    · intro hzero
      rw [hzero] at hpos
      exact absurd hpos (by decide)
    · simp only [nextWord]
      rw [hw]
      exact if_pos hpos

/-! ## Commands -/

/-- A call `exec_cmd(type, argv)`; `none` is the NULL vector or a NULL in it. -/
structure ExecCall where
  type : Int32
  argv : Option (List (Option (List UInt8)))
  deriving DecidableEq

/-- What a branch of `process_command` leaves: the calls made and `ret`. -/
structure Processed where
  calls : List ExecCall
  ret : Int32
  deriving DecidableEq

def noWord (type : Int32) : Processed := ⟨[⟨type, none⟩], -1⟩

def oneWord (type : Int32) (cmd : List UInt8) : Processed :=
  match nextWord cmd with
  | (len, user, _) => if len ≠ 0 then ⟨[⟨type, some [user]⟩], -1⟩ else ⟨[], 2⟩

def twoWords (type : Int32) (cmd : List UInt8) : Processed :=
  match nextWord cmd with
  | (len, user, cmd) =>
    if len ≠ 0 then
      match nextWord cmd with
      | (len, txt, _) => if len ≠ 0 then ⟨[⟨type, some [user, txt]⟩], -1⟩ else ⟨[], 2⟩
    else ⟨[], 2⟩

/-- The branch of `connect`, which does without either word. -/
def hostAndPort (type : Int32) (cmd : List UInt8) : Processed :=
  match nextWord cmd with
  | (len, host, cmd) =>
    let port := if len ≠ 0 then (nextWord cmd).2.1 else none
    ⟨[⟨type, some [host, port]⟩], -1⟩

/-- The branch of the first word; `cmd` is what follows it. -/
def branchOf (type cmd : List UInt8) : Processed :=
  if type = text "kick" then oneWord MsgType.cmdKickId.code cmd
  else if type = text "w" then twoWords MsgType.whisper.code cmd
  else if type = text "register" then twoWords MsgType.reqRegister.code cmd
  else if type = text "login" then twoWords MsgType.reqLogin.code cmd
  else if type = text "logout" then noWord MsgType.logout.code
  else if type = text "who" then noWord MsgType.who.code
  else if type = text "friends" then noWord MsgType.friends.code
  else if type = text "help" then noWord cmdHelp
  else if type = text "connect" then hostAndPort cmdConnect cmd
  else if type = text "disconnect" ∨ type = text "dc" then noWord cmdDisconnect
  else if type = text "grant" then twoWords MsgType.grantPrivileges.code cmd
  else if type = text "fadd" then oneWord MsgType.addFriend.code cmd
  else if type = text "fremove" then oneWord MsgType.removeFriend.code cmd
  else if type = text "gcreate" then oneWord MsgType.groupCreate.code cmd
  else if type = text "gdelete" then oneWord MsgType.groupDelete.code cmd
  else ⟨[], 2⟩

/-- `process_command`; `none` when `strcmp` is given a NULL. -/
def processCommand (inputBuffer : List UInt8) : Option Processed :=
  match nextWord (inputBuffer.drop 1) with
  | (len, type, cmd) =>
    if len = 0 then some ⟨[], 4⟩
    else
      type.map fun type =>
        let p := branchOf type cmd
        if p.ret = 2 then { p with calls := p.calls ++ [⟨cmdInvalid, none⟩] } else p

end VhIM.Utility
