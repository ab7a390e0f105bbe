import VhIM.Server.Messages
import VhIM.Utility.Vstack

/-! # The client's dispatch

`process_packet` of `client.c`: the reads of each case of its `switch`, and
the callbacks it invokes with what it read. -/
namespace VhIM.Client
open VhIM.Network VhIM.Utility
open VhIM.Server (ServerUserInfo)

inductive Callback where
  | welcome (msg : List UInt8)
  | authFailed (msg : List UInt8) (res : Int32)
  | broadcast (name msg : List UInt8)
  | systemMsg (msg : List UInt8)
  | registrSuccessful (msg : List UInt8)
  | registrFailed (msg : List UInt8)
  | who (users : Vstack ServerUserInfo)
  | friends (on off req : Vstack ServerUserInfo)
  | removeFriend (uid : Int32)
  | friendOnline (uid : Int32) (name : List UInt8)
  | friendOffline (uid : Int32)

/-- `for (i = 0; i < count; ++i)`: read an id and a name, push them. -/
def readInfos : Nat → Vstack ServerUserInfo → Get (Vstack ServerUserInfo)
  | 0, stack => pure stack
  | n + 1, stack => do
    let uid ← getInt
    let uname ← getString
    readInfos n (stack.push ⟨uid, uname⟩)

def readCounted : Get (Vstack ServerUserInfo) := do
  let count ← getInt
  readInfos count.toInt.toNat Vstack.create

/-- The cases of the `switch`: the callbacks invoked, in order. -/
def dispatchCase : Option MsgType → Get (List Callback)
  | some .welcome => do
    let msg ← getString
    return [.welcome msg]
  | some .authFailed => do
    let msg ← getString
    let res ← getInt
    return [.authFailed msg res]
  | some .broadcast => do
    let name ← getString
    let msg ← getString
    return [.broadcast name msg]
  | some .systemMsg => do
    let msg ← getString
    return [.systemMsg msg]
  | some .registrSuccessful => do
    let msg ← getString
    -- no break: control runs on into the next case, which reads again
    let failed ← getString
    return [.registrSuccessful msg, .registrFailed failed]
  | some .registrFailed => do
    let msg ← getString
    return [.registrFailed msg]
  | some .who => do
    let users ← readCounted
    return [.who users]
  | some .friends => do
    let on ← readCounted
    let off ← readCounted
    let req ← readCounted
    return [.friends on off req]
  | some .removeFriend => do
    let uid ← getInt
    return [.removeFriend uid]
  | some .friendOnline => do
    let uid ← getInt
    let uname ← getString
    return [.friendOnline uid uname]
  | some .friendOffline => do
    let uid ← getInt
    return [.friendOffline uid]
  | _ => return []

def dispatch : Get (List Callback) := do
  let packetType ← getInt
  dispatchCase (MsgType.ofCode packetType)

def processPacket (data : List UInt8) : Except Fault (List Callback × Datapacket) :=
  dispatch (Datapacket.createFromData data)

end VhIM.Client
