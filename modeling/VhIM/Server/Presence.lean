import VhIM.Lib.Edges
import VhIM.Server.Notices

/-! # Presence

A user comes online with its first connection and goes offline with its last.
The handlers infer the one from a count of 1 behind a login and the other from
an empty list, in two places; along every run both are exactly the moments at
which the user enters and leaves the tree. -/
namespace VhIM.Server
open VhIM.Lib VhIM.Lib.Runs VhIM.Network VhIM.Sql VhIM.Utility
open ServerState

/-- The event from `s` to `t`, with the packets it passes to
`send_to_friends`: they report the changes of presence, and a connection gets
a report exactly if it is one of a friend. -/
structure PresenceExact (msgs : List ServerMsg) (s t : ServerState) : Prop where
  emitted : ∀ uid, msgs.filterMap (ServerMsg.notice uid) = edge (s.present uid) (t.present uid)
  received : ∃ out, t.sent = s.sent ++ out ∧ ∀ uid c,
    (inbox c out).filterMap (noticeAt uid) =
      if FriendConnected t uid c then edge (s.present uid) (t.present uid) else []

variable {lib : Externals} {env : Env} {s m t : ServerState} {sc : ServerClient} {ssl : Ssl}
  {user : ServerUser} {msgs : List ServerMsg}

theorem present_iff {uid : Int32} : s.present uid = true ↔ ∃ u ∈ s.users, u.id = uid := by
  simp only [present, Option.isSome_iff_exists, getUserById_eq_some]

/-- Nothing is reported at all. -/
theorem PresenceExact.quiet {out : Sends} (husers : ∀ uid, t.present uid = s.present uid)
    (hsent : t.sent = s.sent ++ out) (hout : Quiet env out) : PresenceExact [] s t := by
  refine ⟨fun uid => by rw [husers, edge_self]; rfl, out, hsent, ?_⟩
  intro uid c
  rw [hout.inbox, husers, edge_self, ite_self]

theorem PresenceExact.refl (s : ServerState) : PresenceExact [] s s :=
  ⟨fun _ => (edge_self _).symm, [], (List.append_nil _).symm,
    fun _ _ => by rw [edge_self, ite_self]; rfl⟩

/-- Nothing is reported before. -/
theorem PresenceExact.after (h : PresenceExact msgs m t) (hbefore : PresenceExact [] s m) :
    PresenceExact msgs s t := by
  have hsame : ∀ uid, s.present uid = m.present uid := by
    intro uid
    have hedge := hbefore.emitted uid
    by_contra hne
    rw [edge, if_neg hne] at hedge
    cases hedge
  obtain ⟨out, hsent, hrec⟩ := hbefore.received
  obtain ⟨out', hsent', hrec'⟩ := h.received
  refine ⟨fun uid => by rw [h.emitted, hsame], out ++ out', ?_, ?_⟩
  · rw [hsent', hsent, List.append_assoc]
  · intro uid c
    rw [inbox_append, List.filterMap_append, hrec, hrec', hsame, edge_self, ite_self,
      List.nil_append]

/-- The rest of a state has no part in it. -/
theorem PresenceExact.congr {t' : ServerState} (h : PresenceExact msgs s t)
    (husers : t'.users = t.users) (hdb : t'.db = t.db) (hsent : t'.sent = t.sent) :
    PresenceExact msgs s t' := by
  have hpresent : ∀ uid, t'.present uid = t.present uid := by
    intro uid
    rw [present, present, getUserById, getUserById, husers]
  obtain ⟨out, hout, hrec⟩ := h.received
  refine ⟨fun uid => by rw [h.emitted, hpresent], out, hsent.trans hout, ?_⟩
  intro uid c
  have hfriend : FriendConnected t' uid c ↔ FriendConnected t uid c := by
    rw [FriendConnected, FriendConnected, husers, hdb]
  rw [hrec, hpresent]
  exact if_congr hfriend.symm rfl rfl

/-! ## A connection is dropped -/

theorem Routable.removeConnection (h : Routable s) (huser : user ∈ s.users) :
    Routable (s.removeConnection user ssl) := by
  have hback : ∀ u ∈ (s.removeConnection user ssl).users,
      ∃ v ∈ s.users, u.id = v.id ∧ u.connections.Sublist v.connections := by
    intro u hu
    rcases (mem_removeConnection huser u).mp hu with ⟨hu, _⟩ | rfl
    · exact ⟨u, hu, rfl, .refl _⟩
    · exact ⟨user, huser, user.removeConnection_id ssl,
        by rw [ServerUser.removeConnection_connections]; exact List.erase_sublist⟩
  refine ⟨?_, ?_, ?_⟩
  · intro u hu
    obtain ⟨v, hv, _, hsub⟩ := hback u hu
    exact (h.nodup v hv).sublist hsub
  · intro u hu u' hu' c hc hc'
    obtain ⟨v, hv, hid, hsub⟩ := hback u hu
    obtain ⟨v', hv', hid', hsub'⟩ := hback u' hu'
    have he := h.apart v hv v' hv' c (hsub.subset hc) (hsub'.subset hc')
    exact OrderedSet.eq_of_key_eq hu hu' (by rw [hid, hid', he])
  · intro u hu
    obtain ⟨v, hv, hid, _⟩ := hback u hu
    rw [hid]
    exact h.known v hv

theorem present_dropConnection (huser : user ∈ s.users) (uid : Int32) :
    (s.dropConnection env user ssl).present uid =
      if user.id = uid then decide ((user.removeConnection ssl).connections ≠ [])
      else s.present uid := by
  rw [Bool.eq_iff_iff, present_iff]
  simp only [mem_dropConnection huser]
  split
  · next hid =>
    subst hid
    rw [decide_eq_true_eq]
    constructor
    · rintro ⟨u, ⟨_, hne⟩ | ⟨rfl, hne⟩, hid⟩
      · exact absurd hid hne
      · exact hne
    · exact fun hne => ⟨_, .inr ⟨rfl, hne⟩, user.removeConnection_id ssl⟩
  · next hid =>
    rw [present_iff]
    constructor
    · rintro ⟨u, ⟨hu, _⟩ | ⟨rfl, _⟩, rfl⟩
      · exact ⟨u, hu, rfl⟩
      · exact absurd (user.removeConnection_id ssl).symm hid
    · rintro ⟨u, hu, rfl⟩
      exact ⟨u, .inl ⟨hu, Ne.symm hid⟩, rfl⟩

/-- One user's presence changes, and its friends in `m` are told. -/
theorem PresenceExact.announce {msg : ServerMsg} {b : Bool} {out : Sends}
    (hnotice : ∀ uid, msg.notice uid = if user.id = uid then some b else none)
    (hwire : ∀ uid, noticeAt uid (packet env msg) = msg.notice uid)
    (hedge : ∀ uid, edge (s.present uid) (t.present uid) = if user.id = uid then [b] else [])
    (hroute : Routable m) (hok : ∀ step, env.sqlOk .getFriends step = true)
    (hfriends : m.db.friends.Nodup)
    (hfriend : ∀ c, FriendConnected m user.id c ↔ FriendConnected t user.id c)
    (hsent : t.sent = s.sent ++ (out ++ m.sendToFriends env user msg)) (hout : Quiet env out) :
    PresenceExact [msg] s t := by
  have hsaid : ∀ uid, [msg].filterMap (ServerMsg.notice uid) =
      if user.id = uid then [b] else [] := by
    intro uid
    rw [List.filterMap_cons, hnotice]
    by_cases hid : user.id = uid
    · simp only [if_pos hid, List.filterMap_nil]
    · simp only [if_neg hid, List.filterMap_nil]
  refine ⟨fun uid => by rw [hsaid, hedge], _, hsent, ?_⟩
  intro uid c
  have hread : [packet env msg].filterMap (noticeAt uid) =
      [msg].filterMap (ServerMsg.notice uid) := by
    simp only [List.filterMap_cons, hwire, List.filterMap_nil]
  rw [inbox_append, List.filterMap_append, hout.inbox, List.nil_append,
    inbox_sendToFriends hroute hok hfriends, hedge]
  by_cases hc : FriendConnected m user.id c
  · rw [if_pos hc, hread, hsaid]
    by_cases hid : user.id = uid
    · subst hid
      rw [if_pos ((hfriend c).mp hc)]
    · rw [if_neg hid, ite_self]
  · rw [if_neg hc, List.filterMap_nil]
    by_cases hid : user.id = uid
    · subst hid
      rw [if_neg fun hc' => hc ((hfriend c).mpr hc')]
    · rw [if_neg hid, ite_self]

/-- The user itself has no connection left to be told at. -/
theorem friendConnected_dropConnection (huser : user ∈ s.users)
    (hempty : (user.removeConnection ssl).connections = []) (uid : Int32) (c : Ssl) :
    FriendConnected (s.removeConnection user ssl) uid c ↔
      FriendConnected (s.dropConnection env user ssl) uid c := by
  simp only [FriendConnected, (sameSockets_dropConnection env s user ssl).db,
    mem_dropConnection huser, mem_removeConnection huser]
  constructor
  · rintro ⟨f, hf | rfl, hrow, hc⟩
    · exact ⟨f, .inl hf, hrow, hc⟩
    · rw [hempty] at hc
      cases hc
  · rintro ⟨f, hf | ⟨rfl, _⟩, hrow, hc⟩
    · exact ⟨f, .inl hf, hrow, hc⟩
    · exact ⟨_, .inr rfl, hrow, hc⟩

/-- With the last connection of a user the friends are told, before it leaves
the tree; with any other nobody is. -/
theorem presence_dropConnection (h : Routable s) (huser : user ∈ s.users)
    (hok : ∀ step, env.sqlOk .getFriends step = true) (hfriends : s.db.friends.Nodup) :
    PresenceExact (dropNotices user ssl) s (s.dropConnection env user ssl) := by
  have hpresent : ∀ uid, (s.dropConnection env user ssl).present uid = _ :=
    present_dropConnection huser
  have hhere : s.present user.id = true := present_iff.mpr ⟨user, huser, rfl⟩
  by_cases hempty : (user.removeConnection ssl).connections = []
  · have hedge : ∀ uid, edge (s.present uid) ((s.dropConnection env user ssl).present uid) =
        if user.id = uid then [false] else [] := by
      intro uid
      rw [hpresent]
      split
      · next hid =>
        rw [← hid, hhere, hempty]
        rfl
      · exact edge_self _
    rw [dropNotices, if_pos hempty]
    refine .announce (fun _ => rfl) (fun uid => noticeAt_offline uid user.id) hedge
      (h.removeConnection huser) hok hfriends (friendConnected_dropConnection huser hempty user.id)
      ?_ (Quiet.nil env)
    simp only [dropConnection, if_pos hempty]
    rfl
  · rw [dropNotices, if_neg hempty]
    refine PresenceExact.quiet ?_ ?_ (Quiet.nil env)
    · intro uid
      rw [hpresent]
      split
      · next hid => rw [← hid, hhere, decide_eq_true hempty]
      · rfl
    · simp only [dropConnection, if_neg hempty]
      exact (List.append_nil _).symm

theorem presence_disconnect (h : Routable s) (hok : ∀ step, env.sqlOk .getFriends step = true)
    (hfriends : s.db.friends.Nodup) (hd : s.serverChDisconnectClient env ssl = .ok t) :
    PresenceExact (s.disconnectNotices ssl) s t := by
  simp only [serverChDisconnectClient, serverChClientDisconnected] at hd
  unfold disconnectNotices
  cases hsc : s.clients.search ssl.fd with
  | none => rw [hsc] at hd; cases hd
  | some sc =>
    rw [hsc] at hd
    cases hd
    have hcb : PresenceExact (s.cbClDcNotices sc) s (s.cbClDc env sc) := by
      simp only [cbClDcNotices, cbClDc]
      split
      · cases hu : s.getUserById sc.id with
        | some user => exact presence_dropConnection h (getUserById_eq_some.mp hu).1 hok hfriends
        | none => exact .refl s
      · exact .refl s
    exact hcb.congr rfl rfl rfl

/-- A kick drops the connections one by one, and reports with the last. -/
theorem presence_kickLoop {conns : List Ssl} (h : Sessions s) (huser : user ∈ s.users)
    (hconns : user.connections = conns) (hok : ∀ step, env.sqlOk .getFriends step = true)
    (hfriends : s.db.friends.Nodup) (hloop : s.kickLoop env conns = .ok t) :
    PresenceExact (s.kickNotices env conns) s t := by
  induction conns generalizing s user with
  | nil => exact absurd hconns (h.listed user huser).2.2
  | cons c conns ih =>
    obtain ⟨sc, hsc, hssl, hid⟩ := h.owned user huser c (by rw [hconns]; exact List.mem_cons_self)
    have hrest : (user.removeConnection c).connections = conns := by
      rw [ServerUser.removeConnection_connections, hconns, List.erase_cons_head]
    simp only [kickLoop] at hloop
    unfold kickNotices
    cases hd : s.serverChDisconnectClient env c with
    | error f => rw [hd] at hloop; cases hloop
    | ok m =>
      rw [hd] at hloop
      have hfirst := presence_disconnect h.routable hok hfriends hd
      by_cases hlast : conns = []
      · subst hlast
        cases hloop
        simpa [kickNotices] using hfirst
      · obtain ⟨sc', hdc⟩ := disconnected_of_ok hd
        obtain rfl : sc' = sc := OrderedSet.eq_of_key_eq hdc.mem hsc (by rw [hdc.fd, hssl])
        have hfound : s.clients.search c.fd = some sc' :=
          OrderedSet.search_eq_some.mpr ⟨hsc, by rw [hssl]⟩
        have hpos : 0 < sc'.id := by rw [hid]; exact h.positive huser
        have hown : s.getUserById sc'.id = some user := getUserById_eq_some.mpr ⟨huser, hid.symm⟩
        have hnone : s.disconnectNotices c = [] := by
          simp only [disconnectNotices, hfound, cbClDcNotices, if_pos hpos, hown, dropNotices, hssl,
            hrest, if_neg hlast]
        rw [hnone] at hfirst ⊢
        have hnext : user.removeConnection c ∈ m.users :=
          (hdc.users _).mpr (.inr ⟨user, huser, ⟨hpos, hid.symm⟩, by rw [hssl],
            by rw [hrest]; exact hlast⟩)
        have hleft : m.db.friends.Nodup := by rw [hdc.db]; exact hfriends
        exact (ih (h.disconnected hdc) hnext hrest hleft hloop).after hfirst

/-! ## A login -/

theorem quiet_sendToClient {m : ServerMsg} (h : m.isNotice = false) :
    Quiet env (sendToClient env ssl m) := by
  intro x hx
  rw [List.mem_singleton.mp hx]
  exact ⟨m, rfl, h⟩

/-- A user whose id is new comes online, with one connection. -/
theorem presence_comesOnline {out : Sends} (hnew : ∀ v ∈ s.users, v.id ≠ user.id)
    (hlen : 17 + user.username.length < 2 ^ 31)
    (husers : ∀ u, u ∈ m.users ↔ (u ∈ s.users ∧ u.id ≠ user.id) ∨ u = user)
    (hroute : Routable m) (hsent : m.sent = s.sent ++ out) (hout : Quiet env out)
    (hok : ∀ step, env.sqlOk .getFriends step = true) (hfriends : m.db.friends.Nodup) :
    PresenceExact [.friendOnline user.id user.username] s
      (m.send (m.sendToFriends env user (.friendOnline user.id user.username))) := by
  have hedge : ∀ uid, edge (s.present uid) (m.present uid) =
      if user.id = uid then [true] else [] := by
    intro uid
    split
    · next hid =>
      have hbefore : s.present uid = false := by
        rw [← Bool.not_eq_true, present_iff]
        rintro ⟨v, hv, hvid⟩
        exact hnew v hv (hvid.trans hid.symm)
      have hafter : m.present uid = true := by
        rw [present_iff]
        exact ⟨user, (husers user).mpr (.inr rfl), hid⟩
      rw [hbefore, hafter]
      rfl
    · next hid =>
      have hsame : s.present uid = m.present uid := by
        rw [Bool.eq_iff_iff, present_iff, present_iff]
        constructor
        · rintro ⟨v, hv, rfl⟩
          exact ⟨v, (husers v).mpr (.inl ⟨hv, Ne.symm hid⟩), rfl⟩
        · rintro ⟨v, hv, rfl⟩
          rcases (husers v).mp hv with ⟨hv, _⟩ | rfl
          · exact ⟨v, hv, rfl⟩
          · exact absurd rfl hid
      rw [hsame, edge_self]
  exact .announce (fun _ => rfl) (fun _ => noticeAt_online hlen) hedge hroute hok hfriends
    (fun _ => Iff.rfl) (by rw [send, hsent, List.append_assoc]) hout

theorem presence_login (h : Sessions s) (hname : ∀ a b, lib.nameEq a b = decide (a = b))
    (hsc : sc ∈ s.clients) (hun : ¬ 0 < sc.id) {uname : List UInt8} (upw : List UInt8)
    (hlen : 17 + uname.length < 2 ^ 31) (hok : ∀ step, env.sqlOk .getFriends step = true)
    (hfriends : s.db.friends.Nodup) :
    PresenceExact (s.loginNotices lib env sc.ssl uname upw) s
      (s.reqLogin lib env sc.ssl uname upw) := by
  have hafter : Sessions (s.reqLogin lib env sc.ssl uname upw) := h.loggedIn hname hsc hun uname upw
  obtain ⟨res, hauth⟩ | ⟨user, hfound, hauth⟩ | ⟨row, hrow, heq, hnone, hauth⟩ :=
    authorizeClient_cases lib env s sc.ssl uname upw
  · rw [loginNotices, reqLogin, hauth]
    exact .quiet (fun _ => rfl) rfl (quiet_sendToClient rfl)
  · -- one connection more for somebody who has some
    obtain ⟨huser, _⟩ := mapUsername_eq_some hfound
    obtain ⟨hcount, _, hne⟩ := h.listed user huser
    have hcon : ¬ (user.addConnection sc.ssl).conLen = 1 := by
      have hpos := List.length_pos_of_ne_nil hne
      show ¬ user.conLen + 1 = 1
      rw [hcount]
      omega
    have hpresent : ∀ uid, (s.addConnection user sc.ssl).present uid = s.present uid := by
      intro uid
      rw [Bool.eq_iff_iff, present_iff, present_iff]
      simp only [mem_addConnection huser]
      constructor
      · rintro ⟨u, ⟨hu, _⟩ | rfl, rfl⟩
        · exact ⟨u, hu, rfl⟩
        · exact ⟨user, huser, rfl⟩
      · rintro ⟨u, hu, rfl⟩
        by_cases hid : u.id = user.id
        · exact ⟨_, .inr rfl, hid.symm⟩
        · exact ⟨u, .inl ⟨hu, hid⟩, rfl⟩
    rw [loginNotices, reqLogin, hauth]
    simp only [if_neg hcon, ne_eq, not_true_eq_false, if_false]
    exact .quiet hpresent rfl (quiet_sendToClient rfl)
  · have hrowname : row.user = uname := by simpa [hname] using heq
    have hnew := h.notOnline hrow hrowname hnone
    rw [reqLogin, hauth] at hafter
    rw [loginNotices, reqLogin, hauth]
    have hroute := hafter.routable
    exact presence_comesOnline hnew hlen
      (mem_addServerUser (s := s.serverChClientAuthed row.id sc.ssl) hnew)
      ⟨hroute.nodup, hroute.apart, hroute.known⟩ rfl (quiet_sendToClient rfl) hok hfriends

/-! ## Every packet -/

theorem quiet_sendToAll {m : ServerMsg} (h : m.isNotice = false) :
    Quiet env (s.sendToAll env ssl m) := by
  intro x hx
  obtain ⟨u, _, hx⟩ := List.mem_flatMap.mp hx
  obtain ⟨c, _, rfl⟩ := List.mem_map.mp hx
  exact ⟨m, rfl, h⟩

/-- Only the tables change. -/
theorem PresenceExact.db (s : ServerState) (db : Database) :
    PresenceExact [] s { s with db := db } :=
  .quiet (fun _ => rfl) (List.append_nil _).symm (Quiet.nil ⟨fun _ => 0, fun _ _ => true, []⟩)

theorem presence_addFriend (env : Env) (s : ServerState) (user : ServerUser) (uid : Int32) :
    PresenceExact [] s (s.addFriend env user uid) := by
  simp only [addFriend, sendFriendRequest]
  split
  · split
    · split
      · exact .quiet (fun _ => rfl) rfl (quiet_sendToUser rfl)
      · exact .quiet (fun _ => rfl) rfl (quiet_sendToUser rfl)
    · exact .quiet (fun _ => rfl) rfl (quiet_sendToUser rfl)
  · exact .refl s

theorem presence_removeFriend (env : Env) (s : ServerState) (user : ServerUser) (uid : Int32) :
    PresenceExact [] s (s.removeFriend env user uid) := by
  simp only [removeFriend]
  split
  · rw [send_send]
    exact .quiet (fun _ => rfl) rfl (Quiet.append (quiet_sendToUser rfl) (quiet_sendToUser rfl))
  · exact .db s _

theorem presence_reqRegister (lib : Externals) (env : Env) (s : ServerState) (ssl : Ssl)
    (uname upw : List UInt8) : PresenceExact [] s (s.reqRegister lib env ssl uname upw) := by
  simp only [reqRegister]
  split
  · exact .quiet (fun _ => rfl) rfl (quiet_sendToClient rfl)
  · exact .quiet (fun _ => rfl) rfl (quiet_sendToClient rfl)

theorem presence_cmdKickId {tid : Int32} (h : Sessions s)
    (hok : ∀ step, env.sqlOk .getFriends step = true) (hfriends : s.db.friends.Nodup)
    (hk : s.cmdKickId env tid = .ok t) : PresenceExact (s.cmdKickIdNotices env tid) s t := by
  unfold cmdKickId at hk
  unfold cmdKickIdNotices
  cases htid : s.getUserById tid with
  | none =>
    rw [htid] at hk
    cases hk
    exact .refl s
  | some tuser =>
    rw [htid] at hk
    have hsend := sameSessions_send s
      (sendToUser env tuser (.broadcast (text "admin") (text "you got kicked, fggt!")))
    have hloop := presence_kickLoop (h.same hsend (accountsKept_of_eq rfl))
      (getUserById_eq_some.mp htid).1 rfl hok hfriends hk
    exact hloop.after (.quiet (fun _ => rfl) rfl (quiet_sendToUser rfl))

variable {dp dp' : Datapacket} {type : Option MsgType}

theorem presence_authCase (h : Sessions s) (hu : s.userOf sc = some user)
    (hok : ∀ step, env.sqlOk .getFriends step = true) (hfriends : s.db.friends.Nodup)
    (hrun : s.authCase env sc.ssl user type dp = .ok (t, dp')) :
    ∃ msgs dp'', s.authNotices env sc.ssl user type dp = .ok (msgs, dp'') ∧
      PresenceExact msgs s t := by
  obtain ⟨_, huser, _⟩ := userOf_eq_some.mp hu
  unfold authCase at hrun
  split at hrun
  · obtain ⟨msg, dp₁, _, hrun⟩ := Get.bind_ok hrun
    cases Get.pure_ok hrun
    exact ⟨_, _, rfl, .quiet (fun _ => rfl) rfl (quiet_sendToAll rfl)⟩
  · unfold authNotices
    split at hrun
    · next hallowed =>
      obtain ⟨tid, dp₁, htid, hrun⟩ := Get.bind_ok hrun
      have hk := Get.lift_ok hrun
      refine ⟨_, dp₁, ?_, presence_cmdKickId h hok hfriends hk⟩
      simp only [if_pos hallowed, Get.bind_eq htid]
      rfl
    · next hdenied =>
      cases Get.pure_ok hrun
      refine ⟨[], dp, ?_, .refl _⟩
      simp only [if_neg hdenied]
      rfl
  · obtain ⟨tid, dp₁, _, hrun⟩ := Get.bind_ok hrun
    refine ⟨_, _, rfl, ?_⟩
    cases htid : s.getUserById tid with
    | some tuser =>
      rw [htid] at hrun
      obtain ⟨msg, dp₂, _, hrun⟩ := Get.bind_ok hrun
      cases Get.pure_ok hrun
      exact .quiet (fun _ => rfl) rfl (quiet_sendToUser rfl)
    | none =>
      rw [htid] at hrun
      cases Get.pure_ok hrun
      exact .refl _
  · cases Get.pure_ok hrun
    exact ⟨_, _, rfl, .quiet (fun _ => rfl) rfl (quiet_sendToUser rfl)⟩
  · cases Get.pure_ok hrun
    exact ⟨_, _, rfl, .quiet (fun _ => rfl) rfl (quiet_sendToUser rfl)⟩
  · cases Get.pure_ok hrun
    -- the id in `clients` has no part in it
    have hroute := h.routable
    have hdrop : PresenceExact (dropNotices user sc.ssl) (s.serverChClientAuthed (-1) sc.ssl)
        (s.logout env sc.ssl user) :=
      presence_dropConnection ⟨hroute.nodup, hroute.apart, hroute.known⟩ huser hok hfriends
    exact ⟨_, _, rfl, hdrop.emitted, hdrop.received⟩
  · exact ⟨_, _, rfl, presence_disconnect h.routable hok hfriends (Get.lift_ok hrun)⟩
  · obtain ⟨uid, dp₁, _, hrun⟩ := Get.bind_ok hrun
    obtain ⟨priv, dp₂, _, hrun⟩ := Get.bind_ok hrun
    cases Get.pure_ok hrun
    exact ⟨_, _, rfl, .db s _⟩
  · obtain ⟨uid, dp₁, _, hrun⟩ := Get.bind_ok hrun
    cases Get.pure_ok hrun
    exact ⟨_, _, rfl, presence_addFriend env s user uid⟩
  · obtain ⟨uid, dp₁, _, hrun⟩ := Get.bind_ok hrun
    cases Get.pure_ok hrun
    exact ⟨_, _, rfl, presence_removeFriend env s user uid⟩
  · obtain ⟨name, dp₁, _, hrun⟩ := Get.bind_ok hrun
    cases Get.pure_ok hrun
    exact ⟨_, _, rfl, .db s _⟩
  · cases Get.pure_ok hrun
    refine ⟨[], dp, ?_, .refl _⟩
    unfold authNotices
    split <;> first | rfl | simp_all

theorem presence_unauthCase (h : Sessions s) (hname : ∀ a b, lib.nameEq a b = decide (a = b))
    (hsc : sc ∈ s.clients) (hun : ¬ 0 < sc.id) (hok : ∀ step, env.sqlOk .getFriends step = true)
    (hfriends : s.db.friends.Nodup) (hindex : 8 ≤ dp.index) (hsize : dp.data.length < 2 ^ 31)
    (hrun : s.unauthCase lib env sc.ssl type dp = .ok (t, dp')) :
    ∃ msgs dp'', s.unauthNotices lib env sc.ssl type dp = .ok (msgs, dp'') ∧
      PresenceExact msgs s t := by
  unfold unauthCase at hrun
  split at hrun
  · obtain ⟨uname, dp₁, huname, hrun⟩ := Get.bind_ok hrun
    obtain ⟨upw, dp₂, hupw, hrun⟩ := Get.bind_ok hrun
    cases Get.pure_ok hrun
    -- what is left of the packet's size holds the notice
    obtain ⟨hdata, hle, _⟩ := getString_ok huname
    obtain ⟨_, hle', hend⟩ := getString_ok hupw
    rw [hdata] at hend
    refine ⟨_, dp₂, ?_, presence_login h hname hsc hun upw (by omega) hok hfriends⟩
    simp only [unauthNotices, Get.bind_eq huname, Get.bind_eq hupw]
    rfl
  · obtain ⟨uname, dp₁, _, hrun⟩ := Get.bind_ok hrun
    obtain ⟨upw, dp₂, _, hrun⟩ := Get.bind_ok hrun
    cases Get.pure_ok hrun
    exact ⟨_, _, rfl, presence_reqRegister lib env s sc.ssl uname upw⟩
  · exact ⟨_, _, rfl, presence_disconnect h.routable hok hfriends (Get.lift_ok hrun)⟩
  · cases Get.pure_ok hrun
    refine ⟨[], dp, ?_, .refl _⟩
    unfold unauthNotices
    split <;> first | rfl | simp_all

theorem presence_packet {data : List UInt8} (h : Sessions s)
    (hname : ∀ a b, lib.nameEq a b = decide (a = b)) (hsc : sc ∈ s.clients)
    (hok : ∀ step, env.sqlOk .getFriends step = true) (hfriends : s.db.friends.Nodup)
    (hsize : data.length < 2 ^ 31) (hp : s.processPacket lib env sc data = .ok t) :
    PresenceExact (s.packetNotices lib env sc data) s t := by
  simp only [processPacket] at hp
  split at hp
  · next hpos =>
    cases hu : s.getUserById sc.id with
    | some user =>
      rw [hu] at hp
      obtain ⟨dp', hrun⟩ := Get.map_ok hp
      obtain ⟨packetType, dp₁, htype, hrun⟩ := Get.bind_ok hrun
      obtain ⟨msgs, dp₂, hmsgs, hexact⟩ := presence_authCase h
        (userOf_eq_some.mpr ⟨hpos, getUserById_eq_some.mp hu⟩) hok hfriends hrun
      have hcalls : s.packetNotices lib env sc data = msgs := by
        simp only [packetNotices, Get.bind_eq htype, if_pos hpos, hu, hmsgs]
      rwa [hcalls]
    | none =>
      obtain ⟨v, hv, hid, _⟩ := h.authed sc hsc hpos
      exact absurd hid (getUserById_eq_none.mp hu v hv)
  · next hun =>
    obtain ⟨dp', hrun⟩ := Get.map_ok hp
    obtain ⟨packetType, dp₁, htype, hrun⟩ := Get.bind_ok hrun
    obtain ⟨_, rfl⟩ := getInt_ok (k := 0) htype
    have hindex : 8 ≤ (atInt data 1).index := by
      simp [atInt, Datapacket.advance, Datapacket.createFromData, intSize]
    obtain ⟨msgs, dp₂, hmsgs, hexact⟩ :=
      presence_unauthCase h hname hsc hun hok hfriends hindex hsize hrun
    have hcalls : s.packetNotices lib env sc data = msgs := by
      simp only [packetNotices, Get.bind_eq htype, if_neg hun, hmsgs]
    rwa [hcalls]

/-! ## Every run -/

/-- The friend query does not fail and reports each friend once; the size of a
packet is an `int`. -/
def FriendsQueried (e : Event) (s : ServerState) : Prop :=
  s.db.friends.Nodup ∧
    match e with
    | .accept _ _ => True
    | .packet _ env data => (∀ step, env.sqlOk .getFriends step = true) ∧ data.length < 2 ^ 31
    | .hangup _ env => ∀ step, env.sqlOk .getFriends step = true

/-- Such events, with the log of the packets passed to `send_to_friends`. -/
abbrev PresenceStep (lib : Externals) :
    Event → ServerState × List ServerMsg → ServerState × List ServerMsg → Prop :=
  logged (guarded (ServerStep lib) FriendsQueried) fun e s => s.eventNotices lib e

theorem presence_event {e : Event} (h : Sessions s)
    (hname : ∀ a b, lib.nameEq a b = decide (a = b))
    (hstep : guarded (ServerStep lib) FriendsQueried e s t) :
    PresenceExact (s.eventNotices lib e) s t := by
  obtain ⟨hstep, hfriends, hcond⟩ := hstep
  cases hstep with
  | accept handshake _ _ _ =>
    cases handshake
    · exact .quiet (fun _ => rfl) (List.append_nil _).symm (Quiet.nil sampleEnv)
    · exact .quiet (fun _ => rfl) (List.append_nil _).symm (Quiet.nil sampleEnv)
  | packet hp =>
    obtain ⟨sc, hsc, rfl, hproc, _⟩ := handled_packet hp
    have hfound := OrderedSet.search_eq_some.mpr ⟨hsc, rfl⟩
    simp only [eventNotices, hfound]
    exact presence_packet h hname hsc hcond.1 hfriends hcond.2 hproc
  | hangup hsc hd =>
    have hfound := OrderedSet.search_eq_some.mpr ⟨hsc, rfl⟩
    simp only [eventNotices, hfound]
    exact presence_disconnect h.routable hcond hfriends hd

/-- Along every run the notices about a user are by turns of its coming and of
its going, the first of its coming, and the last says whether it is present;
and what each next event reports, it reports exactly. -/
theorem presence_notices_exact {db : Database} {listener : Nat} {events : List Event}
    {log : List ServerMsg} (hname : ∀ a b, lib.nameEq a b = decide (a = b))
    (hrun : Run (PresenceStep lib) (ServerState.start db listener, []) events (s, log)) :
    (∀ uid, ∃ n, log.filterMap (ServerMsg.notice uid) = alternating n ∧
      s.present uid = decide (n % 2 = 1)) ∧
    ∀ e t, guarded (ServerStep lib) FriendsQueried e s t →
      PresenceExact (s.eventNotices lib e) s t := by
  have hinv : ∀ e s t, Sessions s → guarded (ServerStep lib) FriendsQueried e s t → Sessions t :=
    fun e s t h hstep => sessions_step hname e s t h hstep.1
  constructor
  · intro uid
    exact hrun.edges_alternate hinv
      (fun e s t h hstep => (presence_event h hname hstep).emitted uid)
      (sessions_start db listener) ⟨0, rfl, rfl⟩
  · intro e t hstep
    have hs : Sessions s := hrun.unlogged.invariant hinv (sessions_start db listener)
    exact presence_event hs hname hstep

theorem presence_notices_exact_login : ∃ s,
    Run (PresenceStep sampleExt) (ServerState.start (sampleDb 0) 3, [])
      [.accept ⟨1, 4⟩ true, .packet 4 sampleEnv (loginOf [97])] (s, [.friendOnline 1 [97]]) ∧
    ∃ n, [ServerMsg.friendOnline 1 [97]].filterMap (ServerMsg.notice 1) = alternating n ∧
      s.present 1 = decide (n % 2 = 1) := by
  let start := ServerState.start (sampleDb 0) 3
  let online := (start.accept ⟨1, 4⟩ true).reqLogin sampleExt sampleEnv ⟨1, 4⟩ [97] []
  have haccept : PresenceStep sampleExt (.accept ⟨1, 4⟩ true) (start, [])
      (start.accept ⟨1, 4⟩ true, []) :=
    ⟨⟨.accept true (Finset.mem_singleton_self 3) (show (4 : Nat) ∉ ({3} : Finset Nat) by decide)
      fun sc hsc => absurd hsc (OrderedSet.not_mem_empty sc), List.nodup_nil, trivial⟩, rfl⟩
  have hlogin : PresenceStep sampleExt (.packet 4 sampleEnv (loginOf [97]))
      (start.accept ⟨1, 4⟩ true, []) (online, [.friendOnline 1 [97]]) :=
    ⟨⟨.packet rfl, List.nodup_nil, fun _ => rfl, by decide⟩, rfl⟩
  have hrun := Run.cons haccept (.single hlogin)
  exact ⟨online, hrun, (presence_notices_exact (fun _ _ => rfl) hrun).1 1⟩

end VhIM.Server
