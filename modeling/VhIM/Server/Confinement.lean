import VhIM.Server.Privileges
import VhIM.Sql.Others

/-! # Confinement

What the packet of an unprivileged user cannot touch, and of somebody who is
not logged in. -/
namespace VhIM.Server
open VhIM.Lib VhIM.Network VhIM.Sql
open ServerState

/-- The entries of `clients` under other descriptors stay. -/
def OthersConnected (sc : ServerClient) (s t : ServerState) : Prop :=
  ∀ sc', sc'.ssl.fd ≠ sc.ssl.fd → (sc' ∈ t.clients ↔ sc' ∈ s.clients)

/-- The user without the connection, if there is another. -/
def ServerUser.without (user : ServerUser) (ssl : Ssl) : Option ServerUser :=
  if (user.removeConnection ssl).connections = [] then none else some (user.removeConnection ssl)

/-- What `sc`, at which the user is logged in, changes is the user's own. -/
structure Confined (sc : ServerClient) (user : ServerUser) (s t : ServerState) : Prop where
  clients : OthersConnected sc s t
  users : ∀ v, v.id ≠ user.id → (v ∈ t.users ↔ v ∈ s.users)
  own : t.getUserById user.id = some user ∨ t.getUserById user.id = user.without sc.ssl
  tables : LeavesOthers user.id s.db t.db

/-- What `sc`, at which nobody is logged in, leaves as it was. -/
structure Outside (sc : ServerClient) (s t : ServerState) : Prop where
  clients : OthersConnected sc s t
  friends : t.db.friends = s.db.friends
  friendRequests : t.db.friendRequests = s.db.friendRequests
  groups : t.db.groups = s.db.groups

variable {lib : Externals} {env : Env} {s t : ServerState} {sc : ServerClient} {user : ServerUser}

/-! ## The trees -/

theorem othersConnected_same (h : SameSessions s t) : OthersConnected sc s t := by
  intro sc' _
  rw [h.clients]

theorem othersConnected_authed (hsc : sc ∈ s.clients) (id : Int32) :
    OthersConnected sc s (s.serverChClientAuthed id sc.ssl) := by
  intro sc' hne
  rw [mem_serverChClientAuthed hsc]
  constructor
  · intro hin
    rcases hin with ⟨hin, _⟩ | rfl
    · exact hin
    · exact absurd rfl hne
  · exact fun hin => .inl ⟨hin, hne⟩

theorem othersConnected_disconnected {sc' : ServerClient} (h : Disconnected sc.ssl sc' s t) :
    OthersConnected sc s t := by
  intro v hne
  rw [h.clients, OrderedSet.mem_erase, and_iff_left hne]

/-- Detaching the connection of a user leaves the other users. -/
theorem detached_others (hu : s.userOf sc = some user) (h : Detached sc s t) {v : ServerUser}
    (hne : v.id ≠ user.id) : v ∈ t.users ↔ v ∈ s.users := by
  obtain ⟨hpos, huser, hid⟩ := userOf_eq_some.mp hu
  rw [h v]
  constructor
  · intro hv
    rcases hv with ⟨hv, _⟩ | ⟨w, _, hown, rfl, _⟩
    · exact hv
    · rw [ServerUser.removeConnection_id] at hne
      exact absurd (hown.2.trans hid.symm) hne
  · exact fun hv => .inl ⟨hv, fun hown => hne (hown.2.trans hid.symm)⟩

theorem detached_own (hu : s.userOf sc = some user) (h : Detached sc s t) :
    t.getUserById user.id = user.without sc.ssl := by
  obtain ⟨hpos, huser, hid⟩ := userOf_eq_some.mp hu
  unfold ServerUser.without
  split
  · next hempty =>
    refine getUserById_eq_none.mpr ?_
    intro v hv he
    rcases (h v).mp hv with ⟨_, hother⟩ | ⟨w, hw, hown, rfl, hne⟩
    · exact hother ⟨hpos, he.trans hid⟩
    · obtain rfl : w = user :=
        OrderedSet.eq_of_key_eq hw huser (by rw [hown.2, hid])
      exact hne hempty
  · next hne =>
    exact getUserById_eq_some.mpr
      ⟨(h _).mpr (.inr ⟨user, huser, ⟨hpos, hid⟩, rfl, hne⟩), user.removeConnection_id _⟩

/-! ## The tables -/

theorem addFriend_others (uid : Int32) :
    LeavesOthers user.id s.db (s.addFriend env user uid).db := by
  have hrequest : LeavesOthers user.id s.db
      (sqlChCreateFriendRequest (env.sqlOk .createFriendRequest) s.db user.id uid).2 :=
    sqlChCreateFriendRequest_others _ _ (.inl rfl)
  simp only [addFriend, sendFriendRequest]
  split
  · split
    · split
      · exact hrequest.trans (sqlChCreateFriends_others _ _ (.inl rfl))
      · exact hrequest
    · exact .refl _ _
  · exact .refl _ _

theorem removeFriend_others (uid : Int32) :
    LeavesOthers user.id s.db (s.removeFriend env user uid).db := by
  simp only [removeFriend]
  split
  · exact sqlChDeleteFriends_others _ _ (.inl rfl)
  · exact sqlChDeleteFriends_others _ _ (.inl rfl)

/-! ## Every packet -/

theorem Confined.same (hu : s.userOf sc = some user) (h : SameSessions s t)
    (hdb : LeavesOthers user.id s.db t.db) : Confined sc user s t := by
  refine ⟨othersConnected_same h, fun v _ => by rw [h.users], .inl ?_, hdb⟩
  obtain ⟨_, huser, _⟩ := userOf_eq_some.mp hu
  exact getUserById_eq_some.mpr ⟨h.users ▸ huser, rfl⟩

theorem Confined.detach (hu : s.userOf sc = some user) (h : Detached sc s t)
    (hclients : OthersConnected sc s t) (hdb : t.db = s.db) : Confined sc user s t :=
  ⟨hclients, fun _ hne => detached_others hu h hne, .inr (detached_own hu h), hdb ▸ .refl _ _⟩

theorem Confined.disconnected (hsc : sc ∈ s.clients) (hu : s.userOf sc = some user)
    (h : s.serverChDisconnectClient env sc.ssl = .ok t) : Confined sc user s t := by
  obtain ⟨sc', hd⟩ := disconnected_of_ok h
  obtain rfl : sc' = sc := OrderedSet.eq_of_key_eq hd.mem hsc hd.fd
  exact .detach hu hd.users (othersConnected_disconnected hd) hd.db

theorem Outside.same (h : SameSessions s t) (hfriends : t.db.friends = s.db.friends)
    (hrequests : t.db.friendRequests = s.db.friendRequests) (hgroups : t.db.groups = s.db.groups) :
    Outside sc s t :=
  ⟨othersConnected_same h, hfriends, hrequests, hgroups⟩

theorem Outside.login (hsc : sc ∈ s.clients) (uname upw : List UInt8) :
    Outside sc s (s.reqLogin lib env sc.ssl uname upw) := by
  obtain ⟨out, ht⟩ | ⟨out, user, _, ht⟩ | ⟨out, row, _, _, _, ht⟩ :=
    reqLogin_cases lib env s sc.ssl uname upw
  · rw [ht]
    exact .same (sameSessions_send s out) rfl rfl rfl
  · rw [ht]
    exact ⟨othersConnected_authed hsc user.id, rfl, rfl, rfl⟩
  · rw [ht]
    exact ⟨othersConnected_authed hsc row.id, rfl, rfl, rfl⟩

theorem Outside.register (uname upw : List UInt8) :
    Outside sc s (s.reqRegister lib env sc.ssl uname upw) := by
  have hsame : SameSessions s (s.reqRegister lib env sc.ssl uname upw) :=
    sameSessions_reqRegister uname upw
  rcases sqlChAddUser_cases (env.sqlOk .addUser) lib env.saltBytes s.db uname upw with h | h
  · exact .same hsame (by rw [reqRegister_db, h]) (by rw [reqRegister_db, h])
      (by rw [reqRegister_db, h])
  · obtain ⟨users, _, _, h⟩ := h
    exact .same hsame (by rw [reqRegister_db, h]) (by rw [reqRegister_db, h])
      (by rw [reqRegister_db, h])

theorem Confined.handled {data : List UInt8} (hsc : sc ∈ s.clients)
    (hu : s.userOf sc = some user) (hlow : user.pLevel < 8)
    (h : Handled lib env sc.ssl data (some user) s t) : Confined sc user s t := by
  cases h with
  | kept u s out => exact .same hu (sameSessions_send s out) (.refl _ _)
  | kicked _ _ hallowed _ _ =>
    rw [not_isAllowed hlow] at hallowed
    cases hallowed
  | loggedOut s user _ =>
    have hsame := sameSockets_logout env s user sc.ssl
    refine .detach hu (detached_logout hu) ?_ hsame.db
    intro sc' hne
    rw [hsame.clients]
    exact othersConnected_authed hsc (-1) sc' hne
  | disconnected _ _ hd => exact .disconnected hsc hu hd
  | granted s user _ =>
    exact .same hu (sameSessions_db s _) (sqlChUpdatePrivileges_others _ _ _ _)
  | addedFriend s user _ => exact .same hu (sameSessions_addFriend _) (addFriend_others _)
  | removedFriend s user _ => exact .same hu (sameSessions_removeFriend _) (removeFriend_others _)
  | createdGroup s user name _ =>
    exact .same hu (sameSessions_db s _) (sqlChCreateGroup_others _ _ name)

theorem Outside.handled {data : List UInt8} (hsc : sc ∈ s.clients)
    (h : Handled lib env sc.ssl data none s t) : Outside sc s t := by
  cases h with
  | kept u s out => exact .same (sameSessions_send s out) rfl rfl rfl
  | disconnected _ _ hd =>
    obtain ⟨sc', hd⟩ := disconnected_of_ok hd
    exact ⟨othersConnected_disconnected hd, by rw [hd.db], by rw [hd.db], by rw [hd.db]⟩
  | loggedIn s uname upw _ => exact .login hsc uname upw
  | registered s uname upw _ => exact .register uname upw

/-- In whatever state, a packet of any type. -/
theorem senders_confined {data : List UInt8} (hsc : sc ∈ s.clients)
    (h : s.cbMsgRcv lib env sc.ssl.fd data = .ok t) :
    (∀ user, s.userOf sc = some user → user.pLevel < 8 → Confined sc user s t) ∧
      (s.userOf sc = none → Outside sc s t) := by
  obtain ⟨sc', hsc', hfd, _, hhandled⟩ := handled_packet h
  obtain rfl : sc' = sc := OrderedSet.eq_of_key_eq hsc' hsc hfd
  constructor
  · intro user hu hlow
    rw [hu] at hhandled
    exact .handled hsc hu hlow hhandled
  · intro hu
    rw [hu] at hhandled
    exact .handled hsc hhandled

/-- A user without a privilege asks for a friendship, and is kept from kicking;
a client that is not logged in logs in. -/
theorem senders_confined_two :
    Confined ⟨2, ⟨2, 5⟩⟩ ⟨2, 1, [⟨2, 5⟩], [98], 0⟩ twoUsers
      (twoUsers.addFriend sampleEnv ⟨2, 1, [⟨2, 5⟩], [98], 0⟩ 1) ∧
    Confined ⟨2, ⟨2, 5⟩⟩ ⟨2, 1, [⟨2, 5⟩], [98], 0⟩ twoUsers twoUsers ∧
    Outside ⟨-1, ⟨1, 4⟩⟩ (twoClients (sampleDb 8))
      ((twoClients (sampleDb 8)).reqLogin sampleExt sampleEnv ⟨1, 4⟩ [97] []) := by
  have hsc : (⟨2, ⟨2, 5⟩⟩ : ServerClient) ∈ twoUsers.clients := .tail _ (.head _)
  have hadd : twoUsers.cbMsgRcv sampleExt sampleEnv 5 (packetOf .addFriend [.int 1]) =
    .ok (twoUsers.addFriend sampleEnv ⟨2, 1, [⟨2, 5⟩], [98], 0⟩ 1) := rfl
  have hkick : twoUsers.cbMsgRcv sampleExt sampleEnv 5 (packetOf .cmdKickId [.int 1]) =
    .ok twoUsers := rfl
  have hlogin : (twoClients (sampleDb 8)).cbMsgRcv sampleExt sampleEnv 4 (loginOf [97]) =
    .ok ((twoClients (sampleDb 8)).reqLogin sampleExt sampleEnv ⟨1, 4⟩ [97] []) := rfl
  exact ⟨(senders_confined hsc hadd).1 _ rfl (by decide),
    (senders_confined hsc hkick).1 _ rfl (by decide),
    (senders_confined (.head _) hlogin).2 rfl⟩

end VhIM.Server
