import VhIM.Client.Requests
import VhIM.Server.Sessions

/-! # Client to server agreement

The server reads a packet and does what it has read: the handlers are taken
apart into the two. What is read of a packet that the client sends is what the
client put into it. -/
namespace VhIM.Server
open VhIM.Lib VhIM.Network VhIM.Sql
open VhIM.Client (Request)
open VhIM.Network.Datapacket (cursor)
open ServerState

inductive Command where
  | reqRegister (uname upw : List UInt8)
  | reqLogin (uname upw : List UInt8)
  | broadcast (msg : List UInt8)
  /-- Nothing is read of a kick that is not allowed. -/
  | cmdKickId (tid : Option Int32)
  /-- No text is read for a target that is not online. -/
  | whisper (tid : Int32) (msg : Option (List UInt8))
  | logout
  | who
  | friends
  | grantPrivileges (uid priv : Int32)
  | addFriend (uidTarget : Int32)
  | removeFriend (uidTarget : Int32)
  | groupCreate (name : List UInt8)
  | disconnect
  /-- No case is taken. -/
  | ignored
  deriving DecidableEq

/-! ## Reading -/

def readAuth (s : ServerState) (user : ServerUser) : Option MsgType → Get Command
  | some .broadcast => do
    let msg ← getString
    return .broadcast msg
  | some .cmdKickId =>
    if isAllowed user.pLevel .cmdKickId then do
      let tid ← getInt
      return .cmdKickId (some tid)
    else return .cmdKickId none
  | some .whisper => do
    let tid ← getInt
    match s.getUserById tid with
    | some _ => do
      let msg ← getString
      return .whisper tid (some msg)
    | none => return .whisper tid none
  | some .who => return .who
  | some .friends => return .friends
  | some .logout => return .logout
  | some .disconnect => return .disconnect
  | some .grantPrivileges => do
    let uid ← getInt
    let priv ← getInt
    return .grantPrivileges uid priv
  | some .addFriend => do
    let uidTarget ← getInt
    return .addFriend uidTarget
  | some .removeFriend => do
    let uidTarget ← getInt
    return .removeFriend uidTarget
  | some .groupCreate => do
    let name ← getString
    return .groupCreate name
  | _ => return .ignored

def readUnauth : Option MsgType → Get Command
  | some .reqLogin => do
    let uname ← getString
    let upw ← getString
    return .reqLogin uname upw
  | some .reqRegister => do
    let uname ← getString
    let upw ← getString
    return .reqRegister uname upw
  | some .disconnect => return .disconnect
  | _ => return .ignored

def readPacket (s : ServerState) (sc : ServerClient) : Get Command :=
  if 0 < sc.id then
    match s.getUserById sc.id with
    | some user => do
      let packetType ← getInt
      readAuth s user (MsgType.ofCode packetType)
    | none => return .ignored
  else do
    let packetType ← getInt
    readUnauth (MsgType.ofCode packetType)

/-! ## Doing what was read -/

variable (lib : Externals) (env : Env) (s : ServerState) (ssl : Ssl)

def serveAuth (user : ServerUser) : Command → Except Fault ServerState
  | .broadcast msg => .ok (s.broadcast env ssl user msg)
  | .cmdKickId (some tid) => s.cmdKickId env tid
  | .whisper tid (some msg) =>
    match s.getUserById tid with
    | some tuser => .ok (s.whisper env user tuser msg)
    | none => .ok s
  | .who => .ok (s.who env user)
  | .friends => .ok (s.friends env user)
  | .logout => .ok (s.logout env ssl user)
  | .disconnect => s.serverChDisconnectClient env ssl
  | .grantPrivileges uid priv => .ok (s.grantPrivileges env uid priv)
  | .addFriend uidTarget => .ok (s.addFriend env user uidTarget)
  | .removeFriend uidTarget => .ok (s.removeFriend env user uidTarget)
  | .groupCreate name => .ok (s.groupCreate env user name)
  | _ => .ok s

def serveUnauth : Command → Except Fault ServerState
  | .reqLogin uname upw => .ok (s.reqLogin lib env ssl uname upw)
  | .reqRegister uname upw => .ok (s.reqRegister lib env ssl uname upw)
  | .disconnect => s.serverChDisconnectClient env ssl
  | _ => .ok s

def serve (sc : ServerClient) (cmd : Command) : Except Fault ServerState :=
  if 0 < sc.id then
    match s.getUserById sc.id with
    | some user => serveAuth env s sc.ssl user cmd
    | none => .ok s
  else serveUnauth lib env s sc.ssl cmd

/-! ## The handlers are these two -/

variable {lib env s ssl}

theorem authCase_eq (user : ServerUser) (type : Option MsgType) : s.authCase env ssl user type =
    readAuth s user type >>= fun cmd => StateT.lift (serveAuth env s ssl user cmd) := by
  cases type with
  | none => rfl
  | some t =>
    cases t with
    | cmdKickId =>
      unfold authCase readAuth
      dsimp only
      split
      · rw [bind_assoc]
        rfl
      · rfl
    | whisper =>
      simp only [readAuth, bind_assoc]
      refine congrArg (getInt >>= ·) (funext fun tid => ?_)
      cases htid : s.getUserById tid with
      | some tuser =>
        simp only [bind_assoc, pure_bind]
        refine congrArg (getString >>= ·) (funext fun msg => ?_)
        unfold serveAuth
        simp only [htid]
        rfl
      | none => rfl
    | broadcast | grantPrivileges | addFriend | removeFriend | groupCreate =>
      simp only [readAuth, bind_assoc]
      rfl
    | _ => rfl

theorem unauthCase_eq (type : Option MsgType) : s.unauthCase lib env ssl type =
    readUnauth type >>= fun cmd => StateT.lift (serveUnauth lib env s ssl cmd) := by
  cases type with
  | none => rfl
  | some t =>
    cases t with
    | reqLogin | reqRegister =>
      simp only [readUnauth, bind_assoc]
      rfl
    | _ => rfl

theorem Get.bind_lift {α β : Type} (m : Get α) (f : α → Except Fault β) (dp : Datapacket) :
    ((m >>= fun a => StateT.lift (f a)) dp).map Prod.fst = (m dp >>= fun p => f p.1) := by
  show ((m dp >>= fun p => (StateT.lift (f p.1) : Get β) p.2)).map Prod.fst = _
  cases m dp with
  | error e => rfl
  | ok p =>
    show ((StateT.lift (f p.1) : Get β) p.2).map Prod.fst = f p.1
    cases f p.1 <;> rfl

/-- What becomes of any packet: it is read, and what was read is done. -/
theorem processPacket_eq (lib : Externals) (env : Env) (s : ServerState) (sc : ServerClient)
    (data : List UInt8) : s.processPacket lib env sc data =
      (readPacket s sc (Datapacket.createFromData data) >>= fun p => serve lib env s sc p.1) := by
  simp only [processPacket, readPacket, serve]
  by_cases hpos : 0 < sc.id
  · simp only [if_pos hpos]
    cases s.getUserById sc.id with
    | some user =>
      simp only [handlePacketAuth, authCase_eq]
      rw [← Get.bind_lift, bind_assoc]
    | none => rfl
  · simp only [if_neg hpos, handlePacketUnauth, unauthCase_eq]
    rw [← Get.bind_lift, bind_assoc]

/-! ## The client's packets -/

/-- The states the request is meant for: nobody or somebody is logged in at the
sender; to disconnect makes sense in both. -/
def MeantFor (s : ServerState) (sc : ServerClient) : Request → Prop
  | .reqRegister _ _ | .reqLogin _ _ => ¬ 0 < sc.id
  | .disconnect => ¬ 0 < sc.id ∨ (s.userOf sc).isSome
  | _ => (s.userOf sc).isSome

/-- The request with exactly its arguments, but for those that are not read. -/
def received (s : ServerState) (sc : ServerClient) : Request → Command
  | .reqRegister name pw => .reqRegister name pw
  | .reqLogin name pw => .reqLogin name pw
  | .broadcast msg => .broadcast msg
  | .kick uid =>
    .cmdKickId (if (s.userOf sc).any (isAllowed ·.pLevel .cmdKickId) then some uid else none)
  | .whisper uid msg => .whisper uid (if (s.getUserById uid).isSome then some msg else none)
  | .logout => .logout
  | .who => .who
  | .friends => .friends
  | .grantPrivileges uid lvl => .grantPrivileges uid lvl
  | .addFriend uid => .addFriend uid
  | .removeFriend uid => .removeFriend uid
  | .groupCreate name => .groupCreate name
  | .disconnect => .disconnect

/-- The request with exactly its arguments, all of them. -/
def asked : Request → Command
  | .reqRegister name pw => .reqRegister name pw
  | .reqLogin name pw => .reqLogin name pw
  | .broadcast msg => .broadcast msg
  | .kick uid => .cmdKickId (some uid)
  | .whisper uid msg => .whisper uid (some msg)
  | .logout => .logout
  | .who => .who
  | .friends => .friends
  | .grantPrivileges uid lvl => .grantPrivileges uid lvl
  | .addFriend uid => .addFriend uid
  | .removeFriend uid => .removeFriend uid
  | .groupCreate name => .groupCreate name
  | .disconnect => .disconnect

/-- The server reads the request's arguments from the bytes sent, no further
than to their end, and does with them what the request asks for. -/
structure Understood (fresh : Nat → UInt8) (lib : Externals) (env : Env) (s : ServerState)
    (sc : ServerClient) (r : Request) : Prop where
  reads : ∃ k ≤ (r.send fresh).length,
    readPacket s sc (Datapacket.createFromData (r.send fresh)) = .ok (received s sc r,
      { Datapacket.createFromData (r.send fresh) with index := k })
  served : s.processPacket lib env sc (r.send fresh) = serve lib env s sc (received s sc r)

variable {sc : ServerClient} {user : ServerUser} {r : Request}

theorem string_consumes {msg : List UInt8} (hnul : ∀ f ∈ r.fields, f.NulFree)
    (hsize : 8 + r.body.length < 2 ^ 31) (h : .string msg ∈ r.fields) :
    Consumes cursor getString (stringBytes msg) msg := by
  refine getString_consumes (hnul _ h) ?_
  obtain ⟨pre, post, he⟩ := List.append_of_mem h
  simp only [Request.body, he, encodeFields, List.flatMap_append, List.flatMap_cons, Field.encode,
    List.length_append, stringBytes_length] at hsize
  omega

/-- The cases for a user read the arguments, or start to. -/
theorem readAuth_consumes (hu : s.userOf sc = some user) (hnul : ∀ f ∈ r.fields, f.NulFree)
    (hsize : 8 + r.body.length < 2 ^ 31) (hlogin : r.type ≠ .reqLogin)
    (hregister : r.type ≠ .reqRegister) :
    ∃ pre tail, r.body = pre ++ tail ∧
      Consumes cursor (readAuth s user (some r.type)) pre (received s sc r) := by
  -- all of the body is read, unless the server stops before
  have hall : ∀ bytes, r.body = bytes →
      Consumes cursor (readAuth s user (some r.type)) bytes (received s sc r) →
      ∃ pre tail, r.body = pre ++ tail ∧
        Consumes cursor (readAuth s user (some r.type)) pre (received s sc r) :=
    fun _ hbody h => ⟨_, [], by rw [hbody, List.append_nil], h⟩
  cases r with
  | reqLogin => exact absurd rfl hlogin
  | reqRegister => exact absurd rfl hregister
  | broadcast msg | groupCreate msg =>
    refine hall (stringBytes msg) ?_ ?_
    · simp [Request.body, Request.fields, encodeFields, Field.encode]
    · exact (string_consumes hnul hsize (by simp [Request.fields])).bind_pure
  | addFriend uid | removeFriend uid =>
    refine hall (bcFromInt uid) ?_ (getInt_consumes uid).bind_pure
    simp [Request.body, Request.fields, encodeFields, Field.encode]
  | grantPrivileges uid lvl =>
    refine hall (bcFromInt uid ++ bcFromInt lvl) ?_
      ((getInt_consumes uid).bind (getInt_consumes lvl).bind_pure)
    simp [Request.body, Request.fields, encodeFields, Field.encode]
  | logout | who | friends | disconnect => exact hall _ rfl (Consumes.pure _)
  | kick uid =>
    have hbody : (Request.kick uid).body = bcFromInt uid := by
      simp [Request.body, Request.fields, encodeFields, Field.encode]
    cases hallowed : isAllowed user.pLevel .cmdKickId with
    | true =>
      refine hall _ hbody ?_
      simp only [Request.type, readAuth, hallowed, if_true, received, hu, Option.any_some]
      exact (getInt_consumes uid).bind_pure
    | false =>
      refine ⟨[], bcFromInt uid, hbody, ?_⟩
      simp only [Request.type, readAuth, hallowed, Bool.false_eq_true, if_false, received, hu,
        Option.any_some]
      exact Consumes.pure _
  | whisper uid msg =>
    have hbody : (Request.whisper uid msg).body = bcFromInt uid ++ stringBytes msg := by
      simp [Request.body, Request.fields, encodeFields, Field.encode]
    cases htid : s.getUserById uid with
    | some tuser =>
      refine hall _ hbody ?_
      simp only [Request.type, readAuth, received, htid, Option.isSome_some, if_true]
      refine (getInt_consumes uid).bind ?_
      rw [htid]
      exact (string_consumes hnul hsize (by simp [Request.fields])).bind_pure
    | none =>
      refine ⟨bcFromInt uid ++ [], stringBytes msg, by rw [hbody, List.append_nil], ?_⟩
      simp only [Request.type, readAuth, received, htid, Option.isSome_none, Bool.false_eq_true,
        if_false]
      refine (getInt_consumes uid).bind ?_
      rw [htid]
      exact Consumes.pure _

/-- Those for a client that is not logged in read all of them. -/
theorem readUnauth_consumes (hnul : ∀ f ∈ r.fields, f.NulFree)
    (hsize : 8 + r.body.length < 2 ^ 31)
    (htype : r.type = .reqLogin ∨ r.type = .reqRegister ∨ r.type = .disconnect) :
    Consumes cursor (readUnauth (some r.type)) r.body (received s sc r) := by
  cases r with
  | reqLogin name pw | reqRegister name pw =>
    have hname : Consumes cursor getString (stringBytes name) name :=
      string_consumes hnul hsize (by simp [Request.fields])
    have hpw : Consumes cursor getString (stringBytes pw) pw :=
      string_consumes hnul hsize (by simp [Request.fields])
    have hbody : encodeFields [.string name, .string pw] = stringBytes name ++ stringBytes pw := by
      simp [encodeFields, Field.encode]
    simp only [Request.body, Request.fields]
    rw [hbody]
    exact hname.bind hpw.bind_pure
  | disconnect => exact Consumes.pure _
  | _ => simp [Request.type] at htype

/-- A program that consumes the front of what follows the size ends no further
than the packet. -/
theorem reads_front {m : Get Command} {type : Int32} {pre tail : List UInt8} {cmd : Command}
    (hm : Consumes cursor m (bcFromInt type ++ pre) cmd) :
    ∃ k ≤ (packetBytes type (pre ++ tail)).length,
      m (Datapacket.createFromData (packetBytes type (pre ++ tail))) = .ok (cmd,
        { Datapacket.createFromData (packetBytes type (pre ++ tail)) with index := k }) := by
  refine ⟨_, ?_, hm _ tail ?_⟩
  · simp only [packetBytes_length, List.length_append, bcFromInt_length,
      Datapacket.createFromData, intSize]
    omega
  · rw [List.append_assoc]
    exact Datapacket.rest_createFromData _ _

/-- A request of a client at which somebody is logged in. -/
theorem readPacket_auth (hu : s.userOf sc = some user) (hnul : ∀ f ∈ r.fields, f.NulFree)
    (hsize : 8 + r.body.length < 2 ^ 31) (hlogin : r.type ≠ .reqLogin)
    (hregister : r.type ≠ .reqRegister) :
    ∃ k ≤ (packetBytes r.type.code r.body).length,
      readPacket s sc (Datapacket.createFromData (packetBytes r.type.code r.body)) =
        .ok (received s sc r,
          { Datapacket.createFromData (packetBytes r.type.code r.body) with index := k }) := by
  obtain ⟨pre, tail, hbody, hcase⟩ := readAuth_consumes hu hnul hsize hlogin hregister
  obtain ⟨hpos, huser, hid⟩ := userOf_eq_some.mp hu
  simp only [readPacket, if_pos hpos, getUserById_eq_some.mpr ⟨huser, hid⟩, hbody]
  refine reads_front ((getInt_consumes r.type.code).bind ?_)
  rw [MsgType.ofCode_code]
  exact hcase

/-- One of a client at which nobody is. -/
theorem readPacket_unauth (hun : ¬ 0 < sc.id) (hnul : ∀ f ∈ r.fields, f.NulFree)
    (hsize : 8 + r.body.length < 2 ^ 31)
    (htype : r.type = .reqLogin ∨ r.type = .reqRegister ∨ r.type = .disconnect) :
    ∃ k ≤ (packetBytes r.type.code r.body).length,
      readPacket s sc (Datapacket.createFromData (packetBytes r.type.code r.body)) =
        .ok (received s sc r,
          { Datapacket.createFromData (packetBytes r.type.code r.body) with index := k }) := by
  have hcase : Consumes cursor (readUnauth (some r.type)) r.body (received s sc r) :=
    readUnauth_consumes hnul hsize htype
  simp only [readPacket, if_neg hun]
  rw [← List.append_nil r.body]
  refine reads_front ((getInt_consumes r.type.code).bind ?_)
  rw [MsgType.ofCode_code]
  exact hcase

/-- What was read is done. -/
theorem processPacket_of_read {data : List UInt8} {cmd : Command} {dp : Datapacket}
    (h : readPacket s sc (Datapacket.createFromData data) = .ok (cmd, dp)) :
    s.processPacket lib env sc data = serve lib env s sc cmd := by
  rw [processPacket_eq, h]
  rfl

theorem serve_of_user (hu : s.userOf sc = some user) (cmd : Command) :
    serve lib env s sc cmd = serveAuth env s sc.ssl user cmd := by
  obtain ⟨hpos, huser, hid⟩ := userOf_eq_some.mp hu
  simp only [serve, if_pos hpos, getUserById_eq_some.mpr ⟨huser, hid⟩]

/-- The server does for a user what the request says. -/
theorem cbMsgRcv_of_request (fresh : Nat → UInt8) (hsc : sc ∈ s.clients)
    (hu : s.userOf sc = some user) (hnul : ∀ f ∈ r.fields, f.NulFree)
    (hsize : 8 + r.body.length < 2 ^ 31) (hlogin : r.type ≠ .reqLogin)
    (hregister : r.type ≠ .reqRegister) :
    s.cbMsgRcv lib env sc.ssl.fd (r.send fresh) =
      serveAuth env s sc.ssl user (received s sc r) := by
  have hfound : s.clients.search sc.ssl.fd = some sc := OrderedSet.search_eq_some.mpr ⟨hsc, rfl⟩
  obtain ⟨k, _, hread⟩ := readPacket_auth hu hnul hsize hlogin hregister
  rw [Request.send_eq fresh hsize]
  simp only [cbMsgRcv, hfound]
  rw [processPacket_of_read hread, serve_of_user hu]

theorem authenticated_of_meant (h : MeantFor s sc r) (hpos : 0 < sc.id) :
    (s.userOf sc).isSome ∧ r.type ≠ .reqLogin ∧ r.type ≠ .reqRegister := by
  cases r with
  | reqLogin | reqRegister => exact absurd hpos h
  | disconnect => exact ⟨h.resolve_left (not_not.mpr hpos), nofun, nofun⟩
  | _ => exact ⟨h, nofun, nofun⟩

theorem unauthenticated_of_meant (h : MeantFor s sc r) (hun : ¬ 0 < sc.id) :
    r.type = .reqLogin ∨ r.type = .reqRegister ∨ r.type = .disconnect := by
  have hnone : s.userOf sc = none := if_neg hun
  cases r with
  | reqLogin => exact .inl rfl
  | reqRegister => exact .inr (.inl rfl)
  | disconnect => exact .inr (.inr rfl)
  | _ => simp [MeantFor, hnone] at h

/-- Every request, with any arguments: the server takes its case, reads exactly
its arguments within the packet, and does what was asked for. -/
theorem client_request_understood (fresh : Nat → UInt8) (lib : Externals) (env : Env)
    (s : ServerState) (sc : ServerClient) (r : Request) (hmeant : MeantFor s sc r)
    (hnul : ∀ f ∈ r.fields, f.NulFree) (hsize : 8 + r.body.length < 2 ^ 31) :
    Understood fresh lib env s sc r := by
  have hread : ∃ k ≤ (r.send fresh).length,
      readPacket s sc (Datapacket.createFromData (r.send fresh)) = .ok (received s sc r,
        { Datapacket.createFromData (r.send fresh) with index := k }) := by
    rw [Request.send_eq fresh hsize]
    by_cases hpos : 0 < sc.id
    · obtain ⟨hsome, hlogin, hregister⟩ := authenticated_of_meant hmeant hpos
      obtain ⟨user, hu⟩ := Option.isSome_iff_exists.mp hsome
      exact readPacket_auth hu hnul hsize hlogin hregister
    · exact readPacket_unauth hpos hnul hsize (unauthenticated_of_meant hmeant hpos)
  refine ⟨hread, ?_⟩
  obtain ⟨k, _, hread⟩ := hread
  exact processPacket_of_read hread

theorem client_request_understood_whisper :
    Understood (fun _ => 7) sampleExt sampleEnv twoUsers ⟨1, ⟨1, 4⟩⟩ (.whisper 2 [104, 105]) :=
  client_request_understood (fun _ => 7) sampleExt sampleEnv twoUsers ⟨1, ⟨1, 4⟩⟩
    (.whisper 2 [104, 105]) rfl (by simp [Request.fields, Field.NulFree]) (by decide)

/-- Of a kick by a user without the privilege the id is not read. -/
theorem kick_id_unread :
    ¬ ∀ (fresh : Nat → UInt8) (s : ServerState) (sc : ServerClient) (r : Request),
      MeantFor s sc r → (∀ f ∈ r.fields, f.NulFree) → 8 + r.body.length < 2 ^ 31 →
        ∃ k ≤ (r.send fresh).length, readPacket s sc (Datapacket.createFromData (r.send fresh)) =
          .ok (asked r, { Datapacket.createFromData (r.send fresh) with index := k }) := by
  intro h
  have hnul : ∀ f ∈ (Request.kick 7).fields, f.NulFree := by simp [Request.fields, Field.NulFree]
  obtain ⟨k, _, hclaimed⟩ := h (fun _ => 0) twoUsers ⟨2, ⟨2, 5⟩⟩ (.kick 7) rfl hnul (by decide)
  have huser : twoUsers.userOf ⟨2, ⟨2, 5⟩⟩ = some ⟨2, 1, [⟨2, 5⟩], [98], 0⟩ := rfl
  obtain ⟨k', _, hread⟩ := readPacket_auth huser hnul (by decide) (by decide) (by decide)
  rw [Request.send_eq (fun _ => 0) (by decide), hread] at hclaimed
  have hcmd := congrArg (fun x : Except Fault (Command × Datapacket) => x.map Prod.fst) hclaimed
  cases hcmd

end VhIM.Server
