import VhIM.Network.Codec
import VhIM.Network.MessageTypes
import VhIM.Server.ServerUser

/-! # The packets the server sends

Every kind of packet that `server.c` builds, as the sequence of setters with
which its handler writes it. -/
namespace VhIM.Server
open VhIM.Network VhIM.Network.Datapacket

inductive ServerMsg where
  | welcome (uname : List UInt8)
  | authFailed (msg : List UInt8) (res : Int32)
  | broadcast (name msg : List UInt8)
  | systemMsg (msg : List UInt8)
  | registrSuccessful (msg : List UInt8)
  | registrFailed (msg : List UInt8)
  | who (users : List ServerUserInfo)
  | friends (on off requests : List ServerUserInfo)
  | removeFriend (uid : Int32)
  | friendOnline (uid : Int32) (name : List UInt8)
  | friendOffline (uid : Int32)
  deriving DecidableEq

namespace ServerMsg

def type : ServerMsg → MsgType
  | welcome _ => .welcome
  | authFailed _ _ => .authFailed
  | broadcast _ _ => .broadcast
  | systemMsg _ => .systemMsg
  | registrSuccessful _ => .registrSuccessful
  | registrFailed _ => .registrFailed
  | who _ => .who
  | friends _ _ _ => .friends
  | removeFriend _ => .removeFriend
  | friendOnline _ _ => .friendOnline
  | friendOffline _ => .friendOffline

/-- The fields of a counted list: the count, then an id and a name for each. -/
def infoFields (infos : List ServerUserInfo) : List Field :=
  .int (Int32.ofNat infos.length) :: infos.flatMap (fun i => [.int i.id, .string i.username])

/-- What the handler writes after `datapacket_create`, in order. -/
def fields : ServerMsg → List Field
  | welcome uname => [.string uname]
  | authFailed msg res => [.string msg, .int res]
  | broadcast name msg => [.string name, .string msg]
  | systemMsg msg => [.string msg]
  | registrSuccessful msg => [.string msg]
  | registrFailed msg => [.string msg]
  | who users => infoFields users
  | friends on off requests => infoFields on ++ infoFields off ++ infoFields requests
  | removeFriend uid => [.int uid]
  | friendOnline uid name => [.int uid, .string name]
  | friendOffline uid => [.int uid]

def build (fresh : Nat → UInt8) (m : ServerMsg) : Datapacket :=
  m.fields.foldl Datapacket.set (create fresh m.type.code)

def body (m : ServerMsg) : List UInt8 := encodeFields m.fields

theorem build_writes (fresh : Nat → UInt8) (m : ServerMsg) :
    Writes (create fresh m.type.code) (m.build fresh) m.body :=
  setAll_spec (create_spec fresh m.type.code).1 m.fields

/-- The bytes that go to the socket do not depend on what memory held. -/
theorem finishedBytes_build (fresh : Nat → UInt8) {m : ServerMsg}
    (hsize : 8 + m.body.length < 2 ^ 31) :
    (m.build fresh).finishedBytes = packetBytes m.type.code m.body :=
  (finishedBytes_of_writes (build_writes fresh m) hsize).2

end ServerMsg
end VhIM.Server
