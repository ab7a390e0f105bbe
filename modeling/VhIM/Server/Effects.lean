import VhIM.Server.Steps

/-! # Effects of the handlers

What the operations behind the packets change, each said once: the handlers
that only touch the tables, the end of a connection, and the login. -/
namespace VhIM.Server
open VhIM.Lib VhIM.Network VhIM.Sql

namespace ServerState
variable {lib : Externals} {env : Env} {ssl : Ssl} {s t : ServerState} {user : ServerUser}

/-! ## Handlers that leave the sessions alone -/

/-- The two trees and the sockets are as before. -/
structure SameSessions (s t : ServerState) : Prop where
  clients : t.clients = s.clients
  users : t.users = s.users
  listener : t.listener = s.listener
  master : t.master = s.master
  fdmax : t.fdmax = s.fdmax
  opened : t.opened = s.opened

theorem SameSessions.trans {u : ServerState} (h : SameSessions s t) (h' : SameSessions t u) :
    SameSessions s u :=
  ⟨h'.clients.trans h.clients, h'.users.trans h.users, h'.listener.trans h.listener,
    h'.master.trans h.master, h'.fdmax.trans h.fdmax, h'.opened.trans h.opened⟩

theorem sameSessions_send (s : ServerState) (out : Sends) : SameSessions s (s.send out) :=
  ⟨rfl, rfl, rfl, rfl, rfl, rfl⟩

theorem sameSessions_db (s : ServerState) (db : Database) : SameSessions s { s with db := db } :=
  ⟨rfl, rfl, rfl, rfl, rfl, rfl⟩

@[simp] theorem send_send (s : ServerState) (out out' : Sends) :
    (s.send out).send out' = s.send (out ++ out') := by
  simp only [send, List.append_assoc]

theorem sameSessions_addFriend (uid : Int32) : SameSessions s (s.addFriend env user uid) := by
  simp only [addFriend, sendFriendRequest]
  split
  · split
    · split
      · exact (sameSessions_send s _).trans (sameSessions_db _ _)
      · exact (sameSessions_send s _).trans (sameSessions_db _ _)
    · exact sameSessions_send s _
  · exact ⟨rfl, rfl, rfl, rfl, rfl, rfl⟩

theorem sameSessions_removeFriend (uid : Int32) : SameSessions s (s.removeFriend env user uid) := by
  simp only [removeFriend]
  split
  · rw [send_send]
    exact (sameSessions_db s _).trans (sameSessions_send _ _)
  · exact sameSessions_db s _

theorem sameSessions_reqRegister (uname upw : List UInt8) :
    SameSessions s (s.reqRegister lib env ssl uname upw) := by
  simp only [reqRegister]
  split
  · exact (sameSessions_db s _).trans (sameSessions_send _ _)
  · exact (sameSessions_db s _).trans (sameSessions_send _ _)

theorem addFriend_accounts (uid : Int32) :
    (s.addFriend env user uid).db.users = s.db.users := by
  simp only [addFriend, sendFriendRequest]
  split
  · split
    · split
      · exact (sqlChCreateFriends_users _ _ _ _).trans (sqlChCreateFriendRequest_users _ _ _ _)
      · exact sqlChCreateFriendRequest_users _ _ _ _
    · rfl
  · rfl

theorem removeFriend_accounts (uid : Int32) :
    (s.removeFriend env user uid).db.users = s.db.users := by
  simp only [removeFriend]
  split
  · exact sqlChDeleteFriends_users _ _ _ _
  · exact sqlChDeleteFriends_users _ _ _ _

theorem groupCreate_accounts (name : List UInt8) :
    (s.groupCreate env user name).db.users = s.db.users :=
  sqlChCreateGroup_users _ _ _ _

theorem reqRegister_db (uname upw : List UInt8) :
    (s.reqRegister lib env ssl uname upw).db =
      (sqlChAddUser (env.sqlOk .addUser) lib env.saltBytes s.db uname upw).2 := by
  simp only [reqRegister]
  split <;> rfl

/-! ## The end of a connection -/

/-- The connection of `sc` is no longer its user's, if it has one; with its
last connection the user is gone. -/
def Detached (sc : ServerClient) (s t : ServerState) : Prop :=
  ∀ u, u ∈ t.users ↔ (u ∈ s.users ∧ ¬ (0 < sc.id ∧ u.id = sc.id)) ∨
    ∃ v ∈ s.users, (0 < sc.id ∧ v.id = sc.id) ∧ u = v.removeConnection sc.ssl ∧
      u.connections ≠ []

theorem mem_removeConnection (huser : user ∈ s.users) (u : ServerUser) :
    u ∈ (s.removeConnection user ssl).users ↔
      (u ∈ s.users ∧ u.id ≠ user.id) ∨ u = user.removeConnection ssl := by
  rw [removeConnection, OrderedSet.mem_modify_self huser, ne_eq, Int32.toInt_inj]

/-- `dropConnection` on a user of the tree. -/
theorem mem_dropConnection (huser : user ∈ s.users) (u : ServerUser) :
    u ∈ (s.dropConnection env user ssl).users ↔ (u ∈ s.users ∧ u.id ≠ user.id) ∨
      (u = user.removeConnection ssl ∧ u.connections ≠ []) := by
  have hmem : u ∈ (s.removeConnection user ssl).users ↔ _ := mem_removeConnection huser u
  simp only [dropConnection]
  split
  · next hempty =>
    simp only [removeServerUserByStruct, send, OrderedSet.mem_erase, hmem, ne_eq, Int32.toInt_inj]
    constructor
    · rintro ⟨⟨hu, _⟩ | rfl, hne⟩
      · exact .inl ⟨hu, hne⟩
      · exact absurd (ServerUser.removeConnection_id _ _) hne
    · intro hu
      rcases hu with ⟨hu, hne⟩ | ⟨rfl, hne⟩
      · exact ⟨.inl ⟨hu, hne⟩, hne⟩
      · exact absurd hempty hne
  · next hne =>
    rw [hmem]
    constructor
    · intro h
      rcases h with h | rfl
      · exact .inl h
      · exact .inr ⟨rfl, hne⟩
    · intro h
      rcases h with h | ⟨rfl, _⟩
      · exact .inl h
      · exact .inr rfl

theorem mem_addConnection (huser : user ∈ s.users) (u : ServerUser) :
    u ∈ (s.addConnection user ssl).users ↔
      (u ∈ s.users ∧ u.id ≠ user.id) ∨ u = user.addConnection ssl := by
  rw [addConnection, OrderedSet.mem_modify_self huser, ne_eq, Int32.toInt_inj]

/-- A user whose id is new goes into the tree. -/
theorem mem_addServerUser (hnew : ∀ v ∈ s.users, v.id ≠ user.id) (u : ServerUser) :
    u ∈ (s.addServerUser user).users ↔ (u ∈ s.users ∧ u.id ≠ user.id) ∨ u = user := by
  rw [addServerUser, OrderedSet.mem_insert]
  constructor
  · intro hu
    rcases hu with hu | ⟨rfl, _⟩
    · exact .inl ⟨hu, hnew u hu⟩
    · exact .inr rfl
  · intro hu
    rcases hu with ⟨hu, _⟩ | rfl
    · exact .inl hu
    · exact .inr ⟨rfl, fun v hv he => hnew v hv (Int32.toInt_inj.mp he)⟩

/-- The first user of that name in the tree. -/
theorem mapUsername_eq_some {uname : List UInt8} (h : s.mapUsername uname = some user) :
    user ∈ s.users ∧ user.username = uname := by
  unfold mapUsername at h
  have hname := List.find?_some h
  exact ⟨List.mem_of_find?_eq_some h, by simpa using hname⟩

theorem mapUsername_eq_none {uname : List UInt8} (h : s.mapUsername uname = none) :
    ∀ u ∈ s.users, u.username ≠ uname := by
  intro u hu
  simpa using List.find?_eq_none.mp h u hu

/-- All but the users is as before. -/
structure SameSockets (s t : ServerState) : Prop where
  clients : t.clients = s.clients
  db : t.db = s.db
  listener : t.listener = s.listener
  master : t.master = s.master
  fdmax : t.fdmax = s.fdmax
  opened : t.opened = s.opened

theorem sameSockets_dropConnection (env : Env) (s : ServerState) (user : ServerUser) (ssl : Ssl) :
    SameSockets s (s.dropConnection env user ssl) := by
  simp only [dropConnection]
  split <;> exact ⟨rfl, rfl, rfl, rfl, rfl, rfl⟩

/-- Besides the id in `clients`, logging out changes the users only. -/
theorem sameSockets_logout (env : Env) (s : ServerState) (user : ServerUser) (ssl : Ssl) :
    SameSockets (s.serverChClientAuthed (-1) ssl) (s.logout env ssl user) :=
  sameSockets_dropConnection env (s.serverChClientAuthed (-1) ssl) user ssl

theorem getUserById_eq_some {id : Int32} :
    s.getUserById id = some user ↔ user ∈ s.users ∧ user.id = id := by
  rw [getUserById, OrderedSet.search_eq_some, Int32.toInt_inj]

theorem getUserById_eq_none {id : Int32} :
    s.getUserById id = none ↔ ∀ u ∈ s.users, u.id ≠ id := by
  simp only [getUserById, OrderedSet.search_eq_none, ne_eq, Int32.toInt_inj]

theorem userOf_eq_some {sc : ServerClient} :
    s.userOf sc = some user ↔ 0 < sc.id ∧ user ∈ s.users ∧ user.id = sc.id := by
  unfold userOf
  split
  · next hpos => rw [getUserById_eq_some, and_iff_right hpos]
  · next hpos => simp [hpos]

/-- The connection of a client is dropped from the user it is logged in as. -/
theorem detached_dropConnection {sc : ServerClient} (hpos : 0 < sc.id) (huser : user ∈ s.users)
    (hid : user.id = sc.id) : Detached sc s (s.dropConnection env user sc.ssl) := by
  intro u
  rw [mem_dropConnection huser]
  constructor
  · intro hu
    rcases hu with ⟨hu, hne⟩ | ⟨rfl, hne⟩
    · exact .inl ⟨hu, fun hown => hne (hown.2.trans hid.symm)⟩
    · exact .inr ⟨user, huser, ⟨hpos, hid⟩, rfl, hne⟩
  · intro hu
    rcases hu with ⟨hu, hne⟩ | ⟨v, hv, ⟨_, hvid⟩, rfl, hne⟩
    · exact .inl ⟨hu, fun hown => hne ⟨hpos, hown.trans hid⟩⟩
    · have hvu : v = user := OrderedSet.eq_of_key_eq hv huser (by rw [hvid, hid])
      exact .inr ⟨by rw [hvu], hne⟩

theorem detached_logout {sc : ServerClient} (hu : s.userOf sc = some user) :
    Detached sc s (s.logout env sc.ssl user) := by
  obtain ⟨hpos, huser, hid⟩ := userOf_eq_some.mp hu
  -- logging out leaves the tree of users to `dropConnection`
  have husers : (s.serverChClientAuthed (-1) sc.ssl).users = s.users := rfl
  exact detached_dropConnection (s := s.serverChClientAuthed (-1) sc.ssl) hpos
    (husers ▸ huser) hid

/-- A client without a user leaves the users alone. -/
theorem detached_of_none {sc : ServerClient} (hu : s.userOf sc = none) : Detached sc s s := by
  have hno : ∀ u ∈ s.users, ¬ (0 < sc.id ∧ u.id = sc.id) := by
    intro u hmem hown
    rw [userOf_eq_some.mpr ⟨hown.1, hmem, hown.2⟩] at hu
    cases hu
  intro u
  constructor
  · exact fun hmem => .inl ⟨hmem, hno u hmem⟩
  · intro hmem
    rcases hmem with ⟨hmem, _⟩ | ⟨v, hv, hown, _⟩
    · exact hmem
    · exact absurd hown (hno v hv)

/-- `cb_cl_dc` asks for the user of the client in the same way. -/
theorem cbClDc_eq (env : Env) (s : ServerState) (sc : ServerClient) :
    s.cbClDc env sc =
      match s.userOf sc with
      | some user => s.dropConnection env user sc.ssl
      | none => s := by
  rw [cbClDc, userOf]
  split <;> rfl

theorem detached_cbClDc (s : ServerState) (sc : ServerClient) :
    Detached sc s (s.cbClDc env sc) := by
  rw [cbClDc_eq]
  cases hu : s.userOf sc with
  | some user =>
    obtain ⟨hpos, huser, hid⟩ := userOf_eq_some.mp hu
    exact detached_dropConnection hpos huser hid
  | none => exact detached_of_none hu

theorem sameSockets_cbClDc (env : Env) (s : ServerState) (sc : ServerClient) :
    SameSockets s (s.cbClDc env sc) := by
  rw [cbClDc_eq]
  split
  · exact sameSockets_dropConnection _ _ _ _
  · exact ⟨rfl, rfl, rfl, rfl, rfl, rfl⟩

/-- What `server_ch_disconnect_client` does when it does not fault. -/
structure Disconnected (ssl : Ssl) (sc : ServerClient) (s t : ServerState) : Prop where
  mem : sc ∈ s.clients
  fd : sc.ssl.fd = ssl.fd
  users : Detached sc s t
  clients : t.clients = s.clients.erase ssl.fd
  db : t.db = s.db
  listener : t.listener = s.listener
  master : t.master = s.master.erase ssl.fd
  fdmax : t.fdmax = s.fdmax
  opened : t.opened = s.opened.erase ssl.fd

theorem disconnected_of_ok (h : s.serverChDisconnectClient env ssl = .ok t) :
    ∃ sc, Disconnected ssl sc s t := by
  simp only [serverChDisconnectClient, serverChClientDisconnected] at h
  cases hsc : s.clients.search ssl.fd with
  | none => rw [hsc] at h; cases h
  | some sc =>
    rw [hsc] at h
    cases h
    obtain ⟨hmem, hfd⟩ := OrderedSet.search_eq_some.mp hsc
    have hsame := sameSockets_cbClDc env s sc
    exact ⟨sc, hmem, hfd, detached_cbClDc s sc, by rw [← hsame.clients], hsame.db, hsame.listener,
      by rw [← hsame.master], hsame.fdmax, by rw [← hsame.opened]⟩

/-- The kick loop ends the first connection, then the others. -/
theorem kickLoop_cons_ok {c : Ssl} {conns : List Ssl} (h : s.kickLoop env (c :: conns) = .ok t) :
    ∃ sc m, Disconnected c sc s m ∧ m.kickLoop env conns = .ok t := by
  simp only [kickLoop] at h
  cases hd : s.serverChDisconnectClient env c with
  | error f => rw [hd] at h; cases h
  | ok m =>
    rw [hd] at h
    obtain ⟨sc, hdc⟩ := disconnected_of_ok hd
    exact ⟨sc, m, hdc, h⟩

/-- What every end of a connection keeps, the kick loop keeps. -/
theorem kickLoop_keeps {I : ServerState → Prop} {conns : List Ssl}
    (hI : ∀ c ∈ conns, ∀ sc s t, I s → Disconnected c sc s t → I t)
    (h : s.kickLoop env conns = .ok t) (hs : I s) : I t := by
  induction conns generalizing s with
  | nil => cases h; exact hs
  | cons c conns ih =>
    obtain ⟨sc, m, hd, h⟩ := kickLoop_cons_ok h
    exact ih (fun c' hc' => hI c' (by simp [hc'])) h (hI c (by simp) sc s m hs hd)

/-! ## The login -/

/-- Authorization fails, or finds the user online under the name, or makes a
user of the row found. -/
theorem authorizeClient_cases (lib : Externals) (env : Env) (s : ServerState) (ssl : Ssl)
    (uname upw : List UInt8) :
    (∃ res, s.authorizeClient lib env ssl uname upw = (none, res, s)) ∨
    (∃ user, s.mapUsername uname = some user ∧
      s.authorizeClient lib env ssl uname upw = (some (user.addConnection ssl),
        .userAlreadyLoggedIn, (s.addConnection user ssl).serverChClientAuthed user.id ssl)) ∨
    (∃ row ∈ s.db.users.rows, lib.nameEq row.user uname = true ∧ s.mapUsername uname = none ∧
      s.authorizeClient lib env ssl uname upw = (some (ServerUser.create row.id ssl uname
        (sqlChLoadPrivileges (env.sqlOk .loadPrivileges) s.db row.id)), .success,
          s.serverChClientAuthed row.id ssl)) := by
  simp only [authorizeClient]
  rcases hauth : sqlChCheckUserAuth (env.sqlOk .checkUserAuth) lib s.db uname upw with ⟨uid, res⟩
  dsimp only
  split
  · next hres =>
    cases hfound : s.mapUsername uname with
    | some user => exact .inr (.inl ⟨user, rfl, rfl⟩)
    | none =>
      rw [hres.1] at hauth ⊢
      obtain ⟨row, hrow, heq, rfl⟩ := sqlChCheckUserAuth_success hauth
      exact .inr (.inr ⟨row, hrow, heq, rfl, rfl⟩)
  · exact .inl ⟨res, rfl⟩

/-- The same of the whole login, up to what it sends. -/
theorem reqLogin_cases (lib : Externals) (env : Env) (s : ServerState) (ssl : Ssl)
    (uname upw : List UInt8) :
    (∃ out, s.reqLogin lib env ssl uname upw = s.send out) ∨
    (∃ out user, s.mapUsername uname = some user ∧ s.reqLogin lib env ssl uname upw =
      ((s.addConnection user ssl).serverChClientAuthed user.id ssl).send out) ∨
    (∃ out, ∃ row ∈ s.db.users.rows, lib.nameEq row.user uname = true ∧
      s.mapUsername uname = none ∧ s.reqLogin lib env ssl uname upw =
        ((s.serverChClientAuthed row.id ssl).addServerUser (ServerUser.create row.id ssl uname
          (sqlChLoadPrivileges (env.sqlOk .loadPrivileges) s.db row.id))).send out) := by
  unfold reqLogin
  obtain ⟨res, h⟩ | ⟨user, hfound, h⟩ | ⟨row, hrow, heq, hnone, h⟩ :=
    authorizeClient_cases lib env s ssl uname upw
  · rw [h]
    exact .inl ⟨_, rfl⟩
  · rw [h]
    simp only [ne_eq, not_true_eq_false, if_false, send_send]
    refine .inr (.inl ?_)
    split
    · exact ⟨_, user, hfound, rfl⟩
    · exact ⟨_, user, hfound, rfl⟩
  · rw [h]
    simp only [ne_eq, reduceCtorEq, not_false_eq_true, if_true, send_send]
    refine .inr (.inr ?_)
    split
    · exact ⟨_, row, hrow, heq, hnone, rfl⟩
    · exact ⟨_, row, hrow, heq, hnone, rfl⟩

end ServerState
end VhIM.Server
