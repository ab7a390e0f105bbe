import VhIM.Server.State

/-! # The packets a client can send

`handle_packet_auth`, `handle_packet_unauth` and `process_packet` of
`server.c`. Each case reads its fields where the source reads them, so a packet
can fail to be read only where the source reads on; what the case then does is
a function of its own, under the name of the message. -/
namespace VhIM.Server
open VhIM.Network VhIM.Sql VhIM.Utility

namespace ServerState
variable (lib : Externals) (env : Env)

/-! ## Authenticated users -/

def broadcast (s : ServerState) (ssl : Ssl) (user : ServerUser) (msg : List UInt8) : ServerState :=
  s.send (s.sendToAll env ssl (.broadcast (label user) msg))

/-- The loop of MSG_CMD_KICK_ID over the connections the target has when it
begins. (The source reads the link of a node that the callback has freed; it
is taken as still naming the next connection.) -/
def kickLoop (s : ServerState) : List Ssl → Except Fault ServerState
  | [] => .ok s
  | c :: next => do
    let s ← s.serverChDisconnectClient env c
    s.kickLoop next

def cmdKickId (s : ServerState) (tid : Int32) : Except Fault ServerState :=
  match s.getUserById tid with
  | some tuser =>
    let answer := .broadcast (text "admin") (text "you got kicked, fggt!")
    (s.send (sendToUser env tuser answer)).kickLoop env tuser.connections
  | none => .ok s

def whisper (s : ServerState) (user tuser : ServerUser) (msg : List UInt8) : ServerState :=
  s.send (sendToUser env tuser (.broadcast (label user) msg))

def who (s : ServerState) (user : ServerUser) : ServerState :=
  s.send (sendToUser env user (.who s.userInfos))

def friends (s : ServerState) (user : ServerUser) : ServerState :=
  s.send (sendToUser env user (s.setFriendsOnline env user.id))

def logout (s : ServerState) (ssl : Ssl) (user : ServerUser) : ServerState :=
  (s.serverChClientAuthed (-1) ssl).dropConnection env user ssl

/-- MSG_GRANT_PRIVILEGES; the level is an `int` until the call. -/
def grantPrivileges (s : ServerState) (uid priv : Int32) : ServerState :=
  { s with
    db := (sqlChUpdatePrivileges (env.sqlOk .updatePrivileges) s.db uid priv.toUInt32.toUInt8).2 }

def sendFriendRequest (s : ServerState) (uidFrom uidTo : Int32) : ServerState :=
  if sqlChUserExists (env.sqlOk .userExists) s.db uidTo then
    let tuser := s.getUserById uidTo
    let s := s.send (sendToUser env tuser (.systemMsg (text "Friend request received.")))
    let (res, db) :=
      sqlChCreateFriendRequest (env.sqlOk .createFriendRequest) s.db uidFrom uidTo
    -- the other user already requested a friendship: accept it
    if res = .otherExists then
      { s with db := (sqlChCreateFriends (env.sqlOk .createFriends) db uidFrom uidTo).2 }
    else { s with db := db }
  else s.send (sendToUser env (s.getUserById uidFrom) (.systemMsg (text "User not found.")))

def addFriend (s : ServerState) (user : ServerUser) (uidTarget : Int32) : ServerState :=
  if !sqlChAreFriends (env.sqlOk .areFriends) s.db user.id uidTarget then
    s.sendFriendRequest env user.id uidTarget
  else s

def removeFriend (s : ServerState) (user : ServerUser) (uidTarget : Int32) : ServerState :=
  let (res, db) := sqlChDeleteFriends (env.sqlOk .deleteFriends) s.db user.id uidTarget
  let s := { s with db := db }
  if res = .userExists then
    let s := s.send (sendToUser env (s.getUserById user.id) (.removeFriend uidTarget))
    s.send (sendToUser env (s.getUserById uidTarget) (.removeFriend user.id))
  else s

def groupCreate (s : ServerState) (user : ServerUser) (name : List UInt8) : ServerState :=
  { s with db := (sqlChCreateGroup (env.sqlOk .createGroup) s.db name user.id).2 }

/-- The cases of the `switch` of `handle_packet_auth`. -/
def authCase (s : ServerState) (ssl : Ssl) (user : ServerUser) : Option MsgType → Get ServerState
  | some .broadcast => do
    let msg ← getString
    return s.broadcast env ssl user msg
  | some .cmdKickId =>
    if isAllowed user.pLevel .cmdKickId then do
      let tid ← getInt
      StateT.lift (s.cmdKickId env tid)
    else return s
  | some .whisper => do
    let tid ← getInt
    match s.getUserById tid with
    | some tuser => do
      let msg ← getString
      return s.whisper env user tuser msg
    | none => return s
  | some .who => return s.who env user
  | some .friends => return s.friends env user
  | some .logout => return s.logout env ssl user
  | some .disconnect => StateT.lift (s.serverChDisconnectClient env ssl)
  | some .grantPrivileges => do
    let uid ← getInt
    let priv ← getInt
    return s.grantPrivileges env uid priv
  | some .addFriend => do
    let uidTarget ← getInt
    return s.addFriend env user uidTarget
  | some .removeFriend => do
    let uidTarget ← getInt
    return s.removeFriend env user uidTarget
  | some .groupCreate => do
    let name ← getString
    return s.groupCreate env user name
  | _ => return s

def handlePacketAuth (s : ServerState) (ssl : Ssl) (user : ServerUser) : Get ServerState := do
  let packetType ← getInt
  s.authCase env ssl user (MsgType.ofCode packetType)

/-! ## Logging in -/

/-- `authorize_client`: the user the client now belongs to, the result, and
the state with the client told. A new user is not in the tree yet. -/
def authorizeClient (s : ServerState) (ssl : Ssl) (username pwd : List UInt8) :
    Option ServerUser × Sqlv × ServerState :=
  let (uid, res) := sqlChCheckUserAuth (env.sqlOk .checkUserAuth) lib s.db username pwd
  if res = .success ∧ uid ≠ userIdInvalid then
    match s.mapUsername username with
    | some user =>
      let s := s.addConnection user ssl
      (some (user.addConnection ssl), .userAlreadyLoggedIn, s.serverChClientAuthed user.id ssl)
    | none =>
      let user := ServerUser.create uid ssl username
        (sqlChLoadPrivileges (env.sqlOk .loadPrivileges) s.db uid)
      (some user, res, s.serverChClientAuthed user.id ssl)
  else (none, res, s)

def reqLogin (s : ServerState) (ssl : Ssl) (uname upw : List UInt8) : ServerState :=
  match s.authorizeClient lib env ssl uname upw with
  | (some user, res, s) =>
    let s := if res ≠ .userAlreadyLoggedIn then s.addServerUser user else s
    let s := s.send (sendToClient env ssl (.welcome uname))
    if user.conLen = 1 then
      s.send (s.sendToFriends env user (.friendOnline user.id user.username))
    else s
  | (none, res, s) =>
    s.send (sendToClient env ssl (.authFailed (text "Authentification failed.") res.code))

def reqRegister (s : ServerState) (ssl : Ssl) (uname upw : List UInt8) : ServerState :=
  let (res, db) := sqlChAddUser (env.sqlOk .addUser) lib env.saltBytes s.db uname upw
  let s := { s with db := db }
  if res = .success then
    s.send (sendToClient env ssl (.registrSuccessful (text "Registration complete. Login now.")))
  else
    s.send (sendToClient env ssl (.registrFailed
      (if res = .userExists then text "Registration failed: user name already exists."
        else text "Registration failed.")))

def unauthCase (s : ServerState) (ssl : Ssl) : Option MsgType → Get ServerState
  | some .reqLogin => do
    let uname ← getString
    let upw ← getString
    return s.reqLogin lib env ssl uname upw
  | some .reqRegister => do
    let uname ← getString
    let upw ← getString
    return s.reqRegister lib env ssl uname upw
  | some .disconnect => StateT.lift (s.serverChDisconnectClient env ssl)
  | _ => return s

def handlePacketUnauth (s : ServerState) (ssl : Ssl) : Get ServerState := do
  let packetType ← getInt
  s.unauthCase lib env ssl (MsgType.ofCode packetType)

/-! ## Every packet -/

/-- `process_packet` for a client that is still there. -/
def processPacket (s : ServerState) (sc : ServerClient) (data : List UInt8) :
    Except Fault ServerState :=
  let dp := Datapacket.createFromData data
  if 0 < sc.id then
    match s.getUserById sc.id with
    | some user => (s.handlePacketAuth env sc.ssl user dp).map Prod.fst
    | none => .ok s
  else (s.handlePacketUnauth lib env sc.ssl dp).map Prod.fst

/-- `cb_msg_rcv` with the client that was found for descriptor `fd` when the
data was read. A packet before this one may have removed it. -/
def cbMsgRcv (s : ServerState) (fd : Nat) (data : List UInt8) : Except Fault ServerState :=
  match s.clients.search fd with
  | some sc => s.processPacket lib env sc data
  | none => .error .freedClient

end ServerState
end VhIM.Server
