import VhIM.Lib.OrderedSet
import VhIM.Server.Messages
import VhIM.Sql.SqlCh

/-! # The server's state

The statics of `server.c` and `server_ch.c`, the database, and the operations
on them that the handlers are made of. What is handed to `SSL_write` and to
`SSL_free` is recorded in order. -/
namespace VhIM.Server
open VhIM.Lib VhIM.Network VhIM.Sql VhIM.Utility

/-- `struct server_client`; the id is -1 until somebody logs in. -/
structure ServerClient where
  id : Int32
  ssl : Ssl
  deriving DecidableEq

/-- The tree `clients`, ordered by `sc_fd`. -/
abbrev Clients := OrderedSet ServerClient (fun sc => sc.ssl.fd)

/-- The tree `users`, ordered by id. -/
abbrev UserTree := OrderedSet ServerUser (fun su => su.id.toInt)

/-- Data handed to `server_ch_send`, with the connection it is for. -/
abbrev Sends := List (Ssl × List UInt8)

structure ServerState where
  clients : Clients
  users : UserTree
  db : Database
  /-- The listening socket. -/
  listener : Nat
  /-- The descriptors `select` watches. -/
  master : Finset Nat
  fdmax : Nat
  /-- The sockets that are open: the listener and what `accept` returned. -/
  opened : Finset Nat
  sent : Sends
  freed : List Ssl

/-- The functions of `sql_ch.c` that a packet can lead to; none is called twice
for one packet. -/
inductive SqlCall where
  | checkUserAuth
  | addUser
  | loadPrivileges
  | updatePrivileges
  | userExists
  | areFriends
  | createFriendRequest
  | createFriends
  | deleteFriends
  | getFriends
  | getFriendRequests
  | createGroup
  deriving DecidableEq

/-- What the handling of one packet meets outside the program. -/
structure Env where
  /-- What newly allocated memory holds. -/
  fresh : Nat → UInt8
  /-- Which steps of the calls into `sql_ch.c` succeed. -/
  sqlOk : SqlCall → SqlStep → Bool
  /-- What `RAND_bytes` gives. -/
  saltBytes : List UInt8

def isAllowed (priv : UInt8) (cmd : MsgType) : Bool :=
  match cmd with
  | .cmdKickId => 8 ≤ priv
  | .grantPrivileges => 8 ≤ priv
  | _ => false

/-- The name and id with which a user's messages are labelled; the buffer of
64 is taken as large enough. -/
def label (user : ServerUser) : List UInt8 :=
  user.username ++ text "(" ++ decimal user.id ++ text ")"

namespace ServerState

/-- After `server_init` and `server_ch_start`, over the database as it stands. -/
def start (db : Database) (listener : Nat) : ServerState :=
  ⟨.empty, .empty, db, listener, {listener}, listener, {listener}, [], []⟩

/-! ## Users -/

def getUserById (s : ServerState) (id : Int32) : Option ServerUser := s.users.search id.toInt

/-- The first user for which `map_username` stops the traversal. -/
def mapUsername (s : ServerState) (uname : List UInt8) : Option ServerUser :=
  s.users.elems.find? (fun user => user.username = uname)

def addServerUser (s : ServerState) (su : ServerUser) : ServerState :=
  { s with users := s.users.insert su }

def removeServerUserByStruct (s : ServerState) (su : ServerUser) : ServerState :=
  { s with users := s.users.erase su.id.toInt }

/-- `server_user_add_connection` on the user in the tree. -/
def addConnection (s : ServerState) (su : ServerUser) (ssl : Ssl) : ServerState :=
  { s with
    users := s.users.modify su.id.toInt (·.addConnection ssl)
      fun _ => by rw [ServerUser.addConnection_id] }

/-- `server_user_remove_connection` on the user in the tree. -/
def removeConnection (s : ServerState) (su : ServerUser) (ssl : Ssl) : ServerState :=
  { s with
    users := s.users.modify su.id.toInt (·.removeConnection ssl)
      fun _ => by rw [ServerUser.removeConnection_id] }

/-- `write_usernames_to_dp` and the count before it. -/
def userInfos (s : ServerState) : List ServerUserInfo :=
  s.users.elems.map fun user => ⟨user.id, user.username⟩

/-! ## Sending -/

/-- Calls of `server_ch_send`, one after the other. -/
def send (s : ServerState) (out : Sends) : ServerState := { s with sent := s.sent ++ out }

variable (env : Env)

def packet (m : ServerMsg) : List UInt8 := (m.build env.fresh).finishedBytes

def sendToClient (ssl : Ssl) (m : ServerMsg) : Sends := [(ssl, packet env m)]

/-- `send_data_to_user`; a NULL user gets nothing. -/
def sendDataToUser (uTo : Option ServerUser) (data : List UInt8) : Sends :=
  match uTo with
  | none => []
  | some u => u.connections.map fun c => (c, data)

def sendToUser (uTo : Option ServerUser) (m : ServerMsg) : Sends :=
  sendDataToUser uTo (packet env m)

def sendToFriends (s : ServerState) (uFrom : ServerUser) (m : ServerMsg) : Sends :=
  let friends := (sqlChGetFriends (env.sqlOk .getFriends) s.db uFrom.id Vstack.create).2
  friends.drain.flatMap fun info => sendDataToUser (s.getUserById info.id) (packet env m)

/-- `send_to_all`: to every connection of every user but the one it is from. -/
def sendToAll (s : ServerState) (sslFrom : Ssl) (m : ServerMsg) : Sends :=
  s.users.elems.flatMap fun user =>
    (user.connections.filter (fun c => c.fd ≠ sslFrom.fd)).map fun c => (c, packet env m)

/-- `set_friends_online`: the report on the user's friends and requests. -/
def setFriendsOnline (s : ServerState) (uidFrom : Int32) : ServerMsg :=
  let friends := (sqlChGetFriends (env.sqlOk .getFriends) s.db uidFrom Vstack.create).2
  let infos := friends.drain
  let on := Vstack.create.pushAll (infos.filter fun info => (s.getUserById info.id).isSome)
  let off := Vstack.create.pushAll (infos.filter fun info => (s.getUserById info.id).isNone)
  let requests :=
    (sqlChGetFriendRequests (env.sqlOk .getFriendRequests) s.db uidFrom Vstack.create).2
  .friends on.drain off.drain requests.drain

/-! ## Connections -/

def serverChClientConnected (s : ServerState) (ssl : Ssl) : ServerState :=
  { s with clients := s.clients.insert ⟨-1, ssl⟩ }

/-- What `server_ch_listen` does with a descriptor that `accept` returned. -/
def accept (s : ServerState) (ssl : Ssl) (handshake : Bool) : ServerState :=
  let newfd := ssl.fd
  let s := { s with
    master := insert newfd s.master
    fdmax := if newfd > s.fdmax then newfd else s.fdmax
    opened := insert newfd s.opened }
  if handshake then s.serverChClientConnected ssl
  else { s with
    master := s.master.erase newfd
    freed := s.freed ++ [ssl]
    -- `close(i)`: the scan is at the listener
    opened := s.opened.erase s.listener }

def serverChClientAuthed (s : ServerState) (id : Int32) (ssl : Ssl) : ServerState :=
  { s with clients := s.clients.modify ssl.fd (fun sc => { sc with id := id }) fun _ => rfl }

/-- Take a connection from a user; with its last one the user goes, and its
friends are told. MSG_LOGOUT and `cb_cl_dc` do this in the same words. -/
def dropConnection (s : ServerState) (user : ServerUser) (ssl : Ssl) : ServerState :=
  let s := s.removeConnection user ssl
  if (user.removeConnection ssl).connections = [] then
    let s := s.send (s.sendToFriends env user (.friendOffline user.id))
    s.removeServerUserByStruct user
  else s

def cbClDc (s : ServerState) (sc : ServerClient) : ServerState :=
  if 0 < sc.id then
    match s.getUserById sc.id with
    | some user => s.dropConnection env user sc.ssl
    | none => s
  else s

/-- `server_ch_client_disconnected`. The callback comes before the test of
`sc` and dereferences it. -/
def serverChClientDisconnected (s : ServerState) (fd : Nat) : Except Fault ServerState :=
  match s.clients.search fd with
  | none => .error .nullClient
  | some sc =>
    let s := s.cbClDc env sc
    .ok { s with clients := s.clients.erase fd }

/-- `server_ch_disconnect_client`; the end of a connection that hung up is the
same. -/
def serverChDisconnectClient (s : ServerState) (ssl : Ssl) : Except Fault ServerState := do
  let i := ssl.fd
  let s ← s.serverChClientDisconnected env i
  return { s with
    master := s.master.erase i
    freed := s.freed ++ [ssl]
    opened := s.opened.erase i }

end ServerState
end VhIM.Server
