import VhIM.Network.Codec
import VhIM.Network.MessageTypes

/-! # The packets the client sends

The functions `cl_exec_*` of `client.c`, and the farewell of
`client_disconnect`: each creates a packet, sets its arguments and hands it to
`send_to_server`. -/
namespace VhIM.Client
open VhIM.Lib VhIM.Network VhIM.Network.Datapacket

/-- `send_to_server`: the bytes handed to `client_ch_send`. -/
def sendToServer (dp : Datapacket) : List UInt8 := dp.finishedBytes

section
variable (fresh : Nat → UInt8)

def clExecBroadcast (msg : List UInt8) : List UInt8 :=
  sendToServer ((create fresh MsgType.broadcast.code).setString msg)

def clExecKick (uid : Int32) : List UInt8 :=
  sendToServer ((create fresh MsgType.cmdKickId.code).setInt uid)

def clExecWhisper (uid : Int32) (msg : List UInt8) : List UInt8 :=
  sendToServer (((create fresh MsgType.whisper.code).setInt uid).setString msg)

def clExecReqRegister (name pw : List UInt8) : List UInt8 :=
  sendToServer (((create fresh MsgType.reqRegister.code).setString name).setString pw)

def clExecReqLogin (name pw : List UInt8) : List UInt8 :=
  sendToServer (((create fresh MsgType.reqLogin.code).setString name).setString pw)

def clExecLogout : List UInt8 := sendToServer (create fresh MsgType.logout.code)

def clExecWho : List UInt8 := sendToServer (create fresh MsgType.who.code)

def clExecFriends : List UInt8 := sendToServer (create fresh MsgType.friends.code)

def clExecGrantPrivileges (uid lvl : Int32) : List UInt8 :=
  sendToServer (((create fresh MsgType.grantPrivileges.code).setInt uid).setInt lvl)

def clExecAddFriend (uid : Int32) : List UInt8 :=
  sendToServer ((create fresh MsgType.addFriend.code).setInt uid)

def clExecRemoveFriend (uid : Int32) : List UInt8 :=
  sendToServer ((create fresh MsgType.removeFriend.code).setInt uid)

def clExecGroupCreate (name : List UInt8) : List UInt8 :=
  sendToServer ((create fresh MsgType.groupCreate.code).setString name)

def clientDisconnect : List UInt8 := sendToServer (create fresh MsgType.disconnect.code)

end

inductive Request where
  | reqRegister (name pw : List UInt8)
  | reqLogin (name pw : List UInt8)
  | broadcast (msg : List UInt8)
  | kick (uid : Int32)
  | whisper (uid : Int32) (msg : List UInt8)
  | logout
  | who
  | friends
  | grantPrivileges (uid lvl : Int32)
  | addFriend (uid : Int32)
  | removeFriend (uid : Int32)
  | groupCreate (name : List UInt8)
  | disconnect
  deriving DecidableEq

namespace Request

def send (fresh : Nat → UInt8) : Request → List UInt8
  | reqRegister name pw => clExecReqRegister fresh name pw
  | reqLogin name pw => clExecReqLogin fresh name pw
  | broadcast msg => clExecBroadcast fresh msg
  | kick uid => clExecKick fresh uid
  | whisper uid msg => clExecWhisper fresh uid msg
  | logout => clExecLogout fresh
  | who => clExecWho fresh
  | friends => clExecFriends fresh
  | grantPrivileges uid lvl => clExecGrantPrivileges fresh uid lvl
  | addFriend uid => clExecAddFriend fresh uid
  | removeFriend uid => clExecRemoveFriend fresh uid
  | groupCreate name => clExecGroupCreate fresh name
  | disconnect => clientDisconnect fresh

def type : Request → MsgType
  | reqRegister _ _ => .reqRegister
  | reqLogin _ _ => .reqLogin
  | broadcast _ => .broadcast
  | kick _ => .cmdKickId
  | whisper _ _ => .whisper
  | logout => .logout
  | who => .who
  | friends => .friends
  | grantPrivileges _ _ => .grantPrivileges
  | addFriend _ => .addFriend
  | removeFriend _ => .removeFriend
  | groupCreate _ => .groupCreate
  | disconnect => .disconnect

/-- The arguments, in the order in which they are set. -/
def fields : Request → List Field
  | reqRegister name pw => [.string name, .string pw]
  | reqLogin name pw => [.string name, .string pw]
  | broadcast msg => [.string msg]
  | kick uid => [.int uid]
  | whisper uid msg => [.int uid, .string msg]
  | grantPrivileges uid lvl => [.int uid, .int lvl]
  | addFriend uid => [.int uid]
  | removeFriend uid => [.int uid]
  | groupCreate name => [.string name]
  | logout | who | friends | disconnect => []

def body (r : Request) : List UInt8 := encodeFields r.fields

/-- The bytes sent do not depend on what memory held. -/
theorem send_eq (fresh : Nat → UInt8) {r : Request} (hsize : 8 + r.body.length < 2 ^ 31) :
    r.send fresh = packetBytes r.type.code r.body := by
  have hbuilt : r.send fresh =
      (r.fields.foldl Datapacket.set (create fresh r.type.code)).finishedBytes := by
    cases r <;> rfl
  have hwrites := setAll_spec (create_spec fresh r.type.code).1 r.fields
  rw [hbuilt, (finishedBytes_of_writes hwrites hsize).2]
  rfl

end Request
end VhIM.Client
