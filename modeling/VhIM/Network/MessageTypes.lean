import Mathlib

/-! # Message types

`messagetypes.h`: the types of packets, by the codes the two programs share. -/
namespace VhIM.Network

inductive MsgType where
  | reqRegister
  | reqLogin
  | welcome
  | authFailed
  | broadcast
  | whisper
  | registrSuccessful
  | registrFailed
  | logout
  | who
  | disconnect
  | grantPrivileges
  | addFriend
  | systemMsg
  | friends
  | removeFriend
  | friendOnline
  | friendOffline
  | cmdKickId
  | groupCreate
  | groupDelete
  deriving DecidableEq

namespace MsgType

def code : MsgType → Int32
  | reqRegister => 0x02
  | reqLogin => 0x03
  | welcome => 0x04
  | authFailed => 0x05
  | broadcast => 0x06
  | whisper => 0x07
  | registrSuccessful => 0x08
  | registrFailed => 0x09
  | logout => 0xa
  | who => 0xb
  | disconnect => 0xc
  | grantPrivileges => 0xd
  | addFriend => 0xe
  | systemMsg => 0xf
  | friends => 0x10
  | removeFriend => 0x11
  | friendOnline => 0x12
  | friendOffline => 0x13
  | cmdKickId => 0x14
  | groupCreate => 0x15
  | groupDelete => 0x16

def all : List MsgType :=
  [reqRegister, reqLogin, welcome, authFailed, broadcast, whisper, registrSuccessful,
   registrFailed, logout, who, disconnect, grantPrivileges, addFriend, systemMsg, friends,
   removeFriend, friendOnline, friendOffline, cmdKickId, groupCreate, groupDelete]

def ofCode (c : Int32) : Option MsgType := all.find? (fun t => t.code = c)

@[simp] theorem ofCode_code (t : MsgType) : ofCode t.code = some t := by
  cases t <;> decide +kernel

theorem code_of_ofCode {c : Int32} {t : MsgType} (h : ofCode c = some t) : t.code = c := by
  simpa using List.find?_some h

end MsgType

/-! The codes of the client's own commands. -/

/-- `CMD_CONNECT`. -/
def cmdConnect : Int32 := 2001

def cmdDisconnect : Int32 := 2002

def cmdHelp : Int32 := 2003

def cmdInvalid : Int32 := 2004

end VhIM.Network
