import VhIM.Client.FriendsReport
import VhIM.Server.Integrity
import VhIM.Server.Life
import VhIM.Server.Presence
import VhIM.Server.Unfriending

/-! # Keeping track of who is online

A client that once asks for its friends and then listens to the notices knows
at every moment who of them is online, as long as its friendships stay: the
report is right when it is made, and the notices are all there, in order, and
no others. -/
namespace VhIM.Client
open VhIM.Lib VhIM.Lib.Runs VhIM.Network VhIM.Sql VhIM.Server
open VhIM.Server.ServerState

/-- What a listener who keeps a list of the friends online makes of a message. -/
def hear (on : Finset Int32) : ServerMsg → Finset Int32
  | .friends on' _ _ => (on'.map ServerUserInfo.id).toFinset
  | .friendOnline uid _ => insert uid on
  | .friendOffline uid => on.erase uid
  | _ => on

def friendsPresent (s : ServerState) (uid : Int32) : Finset Int32 :=
  ((friendIds s.db uid).filter (s.present ·)).toFinset

def Listening (uid : Int32) (c : Ssl) (s : ServerState) : Prop :=
  ∃ u ∈ s.users, u.id = uid ∧ c ∈ u.connections

/-- From the one state to the other `c` was sent messages that take the list of
the friends online along. -/
def Tells (uid : Int32) (c : Ssl) (s t : ServerState) : Prop :=
  ∃ told : List (Env × ServerMsg),
    inbox c t.sent = inbox c s.sent ++ told.map (fun p => packet p.1 p.2) ∧
    (told.map Prod.snd).foldl hear (friendsPresent s uid) = friendsPresent t uid

variable {lib : Externals} {env : Env} {s t m : ServerState} {c ssl : Ssl} {sc : ServerClient}
  {user : ServerUser} {uid : Int32} {msg : ServerMsg} {out : Sends}

theorem mem_friendsPresent {x : Int32} :
    x ∈ friendsPresent s uid ↔ (uid, x) ∈ s.db.friends ∧ s.present x = true := by
  rw [friendsPresent, List.mem_toFinset, List.mem_filter, mem_friendIds]

theorem Tells.refl (uid : Int32) (c : Ssl) (s : ServerState) : Tells uid c s s :=
  ⟨[], (List.append_nil _).symm, rfl⟩

theorem Tells.trans (h : Tells uid c s m) (h' : Tells uid c m t) : Tells uid c s t := by
  obtain ⟨told, hsent, hlist⟩ := h
  obtain ⟨told', hsent', hlist'⟩ := h'
  refine ⟨told ++ told', ?_, ?_⟩
  · rw [hsent', hsent, List.map_append, List.append_assoc]
  · rw [List.map_append, List.foldl_append, hlist, hlist']

theorem Tells.congr {t' : ServerState} (h : Tells uid c s t) (husers : t'.users = t.users)
    (hdb : t'.db = t.db) (hsent : t'.sent = t.sent) : Tells uid c s t' := by
  have hsame : friendsPresent t' uid = friendsPresent t uid := by
    ext x
    rw [mem_friendsPresent, mem_friendsPresent, present, present, getUserById, getUserById, husers,
      hdb]
  obtain ⟨told, htold, hlist⟩ := h
  exact ⟨told, hsent ▸ htold, hlist.trans hsame.symm⟩

/-! ## Messages about something else -/

/-- Nothing in a message is about who is online. -/
def Neutral (msg : ServerMsg) : Prop := ∀ on, hear on msg = on

/-- What is written to `c` is not about who is online. -/
def Apart (c : Ssl) (out : Sends) : Prop :=
  ∀ data ∈ inbox c out, ∃ env msg, Neutral msg ∧ data = packet env msg

theorem Apart.nil (c : Ssl) : Apart c [] := fun _ hdata => absurd hdata List.not_mem_nil

theorem apart_sendToUser (hmsg : Neutral msg) (uTo : Option ServerUser) :
    Apart c (sendToUser env uTo msg) := by
  intro data hdata
  cases uTo with
  | none => exact absurd hdata List.not_mem_nil
  | some u => exact ⟨env, msg, hmsg, (mem_sendToUser.mp (mem_inbox.mp hdata)).2⟩

theorem apart_sendToAll (hmsg : Neutral msg) : Apart c (s.sendToAll env ssl msg) :=
  fun _ hdata => ⟨env, msg, hmsg, (mem_sendToAll.mp (mem_inbox.mp hdata)).2⟩

theorem apart_sendToClient (msg : ServerMsg) (hmsg : Neutral msg) :
    Apart c (sendToClient env ssl msg) := by
  intro data hdata
  rw [inbox_sendToClient] at hdata
  split at hdata
  · exact ⟨env, msg, hmsg, List.mem_singleton.mp hdata⟩
  · exact absurd hdata List.not_mem_nil

theorem tells_apart (hout : Apart c out) (hsent : t.sent = s.sent ++ out)
    (hlist : friendsPresent t uid = friendsPresent s uid) : Tells uid c s t := by
  rw [Tells, hlist, hsent, inbox_append]
  have hneutral : ∀ data ∈ inbox c out, ∃ p : Env × ServerMsg,
      Neutral p.2 ∧ data = packet p.1 p.2 := by
    intro data hdata
    obtain ⟨env, msg, hmsg, rfl⟩ := hout data hdata
    exact ⟨(env, msg), hmsg, rfl⟩
  obtain ⟨told, htold, hkeep⟩ := exists_map_eq hneutral
  refine ⟨told, by rw [htold], ?_⟩
  clear htold
  induction told with
  | nil => rfl
  | cons p told ih =>
    rw [List.map_cons, List.foldl_cons, hkeep p List.mem_cons_self]
    exact ih fun q hq => hkeep q (List.mem_cons_of_mem _ hq)

theorem tells_send (hout : Apart c out) : Tells uid c s (s.send out) :=
  tells_apart hout rfl rfl

/-- One message. -/
theorem tells_one (hsent : inbox c t.sent = inbox c s.sent ++ [packet env msg])
    (hlist : hear (friendsPresent s uid) msg = friendsPresent t uid) : Tells uid c s t :=
  ⟨[(env, msg)], hsent, hlist⟩

/-! ## Notices -/

/-- Who hears of `x` is who has him for a friend. -/
theorem friendConnected_iff (h : Routable s) (hon : Listening uid c s) {x : Int32} :
    FriendConnected s x c ↔ (x, uid) ∈ s.db.friends := by
  obtain ⟨u, hu, rfl, hc⟩ := hon
  constructor
  · rintro ⟨f, hf, hrow, hcf⟩
    rwa [h.apart u hu f hf c hc hcf]
  · exact fun hrow => ⟨u, hu, hrow, hc⟩

/-- The friends that `user` has in `m` are told something about him that takes
the list along: there is one message for `c`, or none and nothing to tell. -/
theorem tells_friends (user : ServerUser) (msg : ServerMsg) (h : Routable m)
    (hon : Listening uid c m)
    (hok : ∀ step, env.sqlOk .getFriends step = true) (hpaired : m.db.Paired)
    (hsent : t.sent = s.sent ++ m.sendToFriends env user msg)
    (hheard : (uid, user.id) ∈ m.db.friends →
      hear (friendsPresent s uid) msg = friendsPresent t uid)
    (hunheard : (uid, user.id) ∉ m.db.friends → friendsPresent t uid = friendsPresent s uid) :
    Tells uid c s t := by
  have hinbox : inbox c t.sent = inbox c s.sent ++
      if (uid, user.id) ∈ m.db.friends then [packet env msg] else [] := by
    rw [hsent, inbox_append, inbox_sendToFriends h hok hpaired.nodup.1]
    exact congrArg _ (if_congr ((friendConnected_iff h hon).trans hpaired.symm) rfl rfl)
  split at hinbox
  · next hfriend => exact tells_one hinbox (hheard hfriend)
  · next hno => exact ⟨[], by simpa using hinbox, (hunheard hno).symm⟩

/-! ## The end of a connection -/

theorem friendsPresent_congr (hdb : t.db.friends = s.db.friends)
    (hpresent : ∀ x, t.present x = s.present x) :
    friendsPresent t uid = friendsPresent s uid := by
  ext x
  rw [mem_friendsPresent, mem_friendsPresent, hdb, hpresent]

theorem friendsPresent_left (hdb : t.db = s.db)
    (hpresent : ∀ x, t.present x = if user.id = x then false else s.present x) :
    friendsPresent t uid = (friendsPresent s uid).erase user.id := by
  ext x
  rw [Finset.mem_erase, mem_friendsPresent, mem_friendsPresent, hdb, hpresent]
  by_cases hx : user.id = x
  · simp [hx]
  · rw [if_neg hx, and_iff_right (Ne.symm hx)]

theorem tells_dropConnection (h : Routable s) (huser : user ∈ s.users)
    (hok : ∀ step, env.sqlOk .getFriends step = true) (hpaired : s.db.Paired)
    (hon : Listening uid c (s.dropConnection env user ssl)) :
    Tells uid c s (s.dropConnection env user ssl) := by
  have hpresent : ∀ x, (s.dropConnection env user ssl).present x =
      if user.id = x then decide ((user.removeConnection ssl).connections ≠ [])
      else s.present x := present_dropConnection huser
  have hdb := (sameSockets_dropConnection env s user ssl).db
  by_cases hlast : (user.removeConnection ssl).connections = []
  · have hgone : ∀ x, (s.dropConnection env user ssl).present x =
        if user.id = x then false else s.present x := by
      intro x
      rw [hpresent, hlast, decide_eq_false fun hne => hne rfl]
    have hleft : friendsPresent (s.dropConnection env user ssl) uid = _ :=
      friendsPresent_left hdb hgone
    have hstill : Listening uid c (s.removeConnection user ssl) := by
      obtain ⟨u, hu, hid, hc⟩ := hon
      rcases (mem_dropConnection huser u).mp hu with hu | ⟨rfl, hne⟩
      · exact ⟨u, (mem_removeConnection huser u).mpr (.inl hu), hid, hc⟩
      · exact absurd hlast hne
    refine tells_friends user (.friendOffline user.id)
      (h.removeConnection huser) hstill hok hpaired ?_ ?_ ?_
    · simp only [dropConnection, if_pos hlast]
      rfl
    · exact fun _ => hleft.symm
    · intro hno
      rw [hleft]
      exact Finset.erase_eq_of_notMem fun hin => hno (mem_friendsPresent.mp hin).1
  · have hsent : (s.dropConnection env user ssl).sent = s.sent := by
      simp only [dropConnection, if_neg hlast]
      rfl
    refine ⟨[], by rw [hsent]; simp, (friendsPresent_congr (by rw [hdb]) fun x => ?_).symm⟩
    rw [hpresent]
    split
    · next hid =>
      rw [decide_eq_true hlast]
      exact (present_iff.mpr ⟨user, huser, hid⟩).symm
    · rfl

/-- Who listens after the end of a connection has listened before. -/
theorem Listening.of_detached (hd : Detached sc s t) (hon : Listening uid c t) :
    Listening uid c s := by
  obtain ⟨u, hu, rfl, hc⟩ := hon
  rcases (hd u).mp hu with ⟨hu, _⟩ | ⟨v, hv, _, rfl, _⟩
  · exact ⟨u, hu, rfl, hc⟩
  · rw [ServerUser.removeConnection_connections] at hc
    exact ⟨v, hv, (v.removeConnection_id _).symm, List.mem_of_mem_erase hc⟩

theorem tells_disconnect (h : Routable s) (hok : ∀ step, env.sqlOk .getFriends step = true)
    (hpaired : s.db.Paired) (hd : s.serverChDisconnectClient env ssl = .ok t)
    (hon : Listening uid c t) : Tells uid c s t := by
  simp only [serverChDisconnectClient, serverChClientDisconnected] at hd
  cases hsc : s.clients.search ssl.fd with
  | none => rw [hsc] at hd; cases hd
  | some sc =>
    rw [hsc] at hd
    cases hd
    have hcb : Tells uid c s (s.cbClDc env sc) := by
      have hon' : Listening uid c (s.cbClDc env sc) := hon
      rw [cbClDc_eq] at hon' ⊢
      cases hu : s.userOf sc with
      | none => exact .refl uid c s
      | some user =>
        rw [hu] at hon'
        exact tells_dropConnection h (userOf_eq_some.mp hu).2.1 hok hpaired hon'
    exact hcb.congr rfl rfl rfl

theorem tells_kickLoop {conns : List Ssl} (h : Sessions s)
    (hok : ∀ step, env.sqlOk .getFriends step = true) (hpaired : s.db.Paired)
    (hk : s.kickLoop env conns = .ok t) (hon : Listening uid c t) : Tells uid c s t := by
  induction conns generalizing s with
  | nil => cases hk; exact .refl uid c _
  | cons c' conns ih =>
    simp only [kickLoop] at hk
    cases hd : s.serverChDisconnectClient env c' with
    | error f => rw [hd] at hk; cases hk
    | ok m =>
      rw [hd] at hk
      obtain ⟨sc, hdm⟩ := disconnected_of_ok hd
      have hstill : Listening uid c m :=
        kickLoop_keeps (I := fun t => Listening uid c t → Listening uid c m)
          (fun _ _ _ _ _ hback hd hon => hback (hon.of_detached hd.users)) hk id hon
      exact (tells_disconnect h.routable hok hpaired hd hstill).trans
        (ih (h.disconnected hdm) (hdm.db ▸ hpaired) hk)

/-! ## A login -/

theorem present_addConnection (huser : user ∈ s.users) (x : Int32) :
    (s.addConnection user ssl).present x = s.present x := by
  rw [Bool.eq_iff_iff, present_iff, present_iff]
  simp only [mem_addConnection huser]
  constructor
  · rintro ⟨u, ⟨hu, _⟩ | rfl, rfl⟩
    · exact ⟨u, hu, rfl⟩
    · exact ⟨user, huser, rfl⟩
  · rintro ⟨u, hu, rfl⟩
    by_cases hid : u.id = user.id
    · exact ⟨_, .inr rfl, hid.symm⟩
    · exact ⟨u, .inl ⟨hu, hid⟩, rfl⟩

/-- A user comes online who was not. -/
theorem present_added (husers : ∀ u, u ∈ t.users ↔ (u ∈ s.users ∧ u.id ≠ user.id) ∨ u = user)
    (x : Int32) : t.present x = if user.id = x then true else s.present x := by
  rw [Bool.eq_iff_iff, present_iff]
  simp only [husers]
  split
  · next hid => exact iff_of_true ⟨user, .inr rfl, hid⟩ rfl
  · next hid =>
    rw [present_iff]
    constructor
    · rintro ⟨u, ⟨hu, _⟩ | rfl, rfl⟩
      · exact ⟨u, hu, rfl⟩
      · exact absurd rfl hid
    · rintro ⟨u, hu, rfl⟩
      exact ⟨u, .inl ⟨hu, Ne.symm hid⟩, rfl⟩

theorem tells_comesOnline (husers : ∀ u, u ∈ m.users ↔ (u ∈ s.users ∧ u.id ≠ user.id) ∨ u = user)
    (hnew : ∀ v ∈ s.users, v.id ≠ user.id) (hdb : m.db = s.db) (h : Routable m)
    (hok : ∀ step, env.sqlOk .getFriends step = true) (hpaired : m.db.Paired)
    (hon : Listening uid c s) (hsent : m.sent = s.sent ++ out) (hout : Apart c out) :
    Tells uid c s
      (m.send (m.sendToFriends env user (.friendOnline user.id user.username))) := by
  have hstill : Listening uid c m := by
    obtain ⟨u, hu, hid, hc⟩ := hon
    exact ⟨u, (husers u).mpr (.inl ⟨hu, hnew u hu⟩), hid, hc⟩
  have hpresent : ∀ x, m.present x = if user.id = x then true else s.present x :=
    present_added husers
  refine (tells_send hout).trans (tells_friends (s := s.send out) user
    (.friendOnline user.id user.username) h hstill hok hpaired ?_ ?_ ?_)
  · rw [send, hsent]
    rfl
  · intro hfriend
    ext x
    show x ∈ insert user.id (friendsPresent s uid) ↔ x ∈ friendsPresent m uid
    rw [Finset.mem_insert, mem_friendsPresent, mem_friendsPresent, hpresent, hdb]
    by_cases hx : user.id = x
    · subst hx
      rw [if_pos rfl]
      exact iff_of_true (.inl rfl) ⟨hdb ▸ hfriend, rfl⟩
    · rw [if_neg hx]
      exact or_iff_right (Ne.symm hx)
  · intro hno
    ext x
    show x ∈ friendsPresent m uid ↔ x ∈ friendsPresent s uid
    rw [mem_friendsPresent, mem_friendsPresent, hpresent, hdb]
    refine and_congr_right fun hrow => ?_
    rw [if_neg]
    rintro rfl
    exact hno (hdb ▸ hrow)

theorem tells_reqLogin (h : Sessions s) (hname : ∀ a b, lib.nameEq a b = decide (a = b))
    (hsc : sc ∈ s.clients) (hun : ¬ 0 < sc.id) (hok : ∀ step, env.sqlOk .getFriends step = true)
    (hpaired : s.db.Paired) (hon : Listening uid c s) (uname upw : List UInt8) :
    Tells uid c s (s.reqLogin lib env sc.ssl uname upw) := by
  have hafter : Sessions (s.reqLogin lib env sc.ssl uname upw) := h.loggedIn hname hsc hun uname upw
  obtain ⟨res, hauth⟩ | ⟨user, hfound, hauth⟩ | ⟨row, hrow, heq, hnone, hauth⟩ :=
    authorizeClient_cases lib env s sc.ssl uname upw
  · rw [reqLogin, hauth]
    exact tells_send (apart_sendToClient _ fun _ => rfl)
  · -- one connection more for somebody who has some
    obtain ⟨huser, _⟩ := mapUsername_eq_some hfound
    obtain ⟨hcount, _, hne⟩ := h.listed user huser
    have hcon : ¬ (user.addConnection sc.ssl).conLen = 1 := by
      have hpos := List.length_pos_of_ne_nil hne
      show ¬ user.conLen + 1 = 1
      rw [hcount]
      omega
    rw [reqLogin, hauth]
    simp only [if_neg hcon, ne_eq, not_true_eq_false, if_false]
    refine tells_apart (apart_sendToClient (.welcome uname) fun _ => rfl) rfl ?_
    exact friendsPresent_congr rfl fun x => present_addConnection huser x
  · have hrowname : row.user = uname := by simpa [hname] using heq
    have hnew := h.notOnline hrow hrowname hnone
    rw [reqLogin, hauth] at hafter ⊢
    simp only [ne_eq, reduceCtorEq, not_false_eq_true, if_true, ServerUser.create] at hafter ⊢
    have hroute := hafter.routable
    refine tells_comesOnline (mem_addServerUser (s := s.serverChClientAuthed row.id sc.ssl) hnew)
      hnew rfl ⟨hroute.nodup, hroute.apart, hroute.known⟩ hok hpaired hon rfl ?_
    exact apart_sendToClient (.welcome uname) fun _ => rfl

/-! ## The report -/

theorem report_ids (hsound : s.db.Sound) :
    (((joinUsers s.db (friendIds s.db uid)).filter fun i => (s.getUserById i.id).isSome).map
      ServerUserInfo.id).toFinset = friendsPresent s uid := by
  ext x
  rw [List.mem_toFinset, List.mem_map, mem_friendsPresent]
  constructor
  · rintro ⟨info, hinfo, rfl⟩
    obtain ⟨hin, hpresent⟩ := List.mem_filter.mp hinfo
    exact ⟨mem_friendIds.mp (mem_joinUsers.mp hin).1, hpresent⟩
  · rintro ⟨hrow, hpresent⟩
    obtain ⟨r, hr, hid⟩ := (hsound.friends _ hrow).2.1
    refine ⟨⟨x, r.user⟩, List.mem_filter.mpr ⟨?_, hpresent⟩, rfl⟩
    exact mem_joinUsers.mpr ⟨mem_friendIds.mpr hrow, r, hr, hid, rfl⟩

/-- The report says who is online, whatever the list was. -/
theorem hear_report (hok : ∀ call step, env.sqlOk call step = true) (hsound : s.db.Sound)
    (on : Finset Int32) : hear on (s.setFriendsOnline env uid) = friendsPresent s uid := by
  rw [setFriendsOnline_eq (hok .getFriends) (hok .getFriendRequests)]
  exact report_ids hsound

theorem tells_report (h : Routable s) (huser : user ∈ s.users)
    (hok : ∀ call step, env.sqlOk call step = true) (hsound : s.db.Sound)
    (hon : Listening uid c s) : Tells uid c s (s.friends env user) := by
  have hinbox : inbox c (s.friends env user).sent = inbox c s.sent ++
      if c ∈ user.connections then [packet env (s.setFriendsOnline env user.id)] else [] := by
    rw [ServerState.friends, send, inbox_append, inbox_sendToUser h huser]
  split at hinbox
  · next hc =>
    obtain ⟨u, hu, rfl, hcu⟩ := hon
    obtain rfl := h.apart u hu user huser c hcu hc
    exact tells_one hinbox (hear_report hok hsound _)
  · exact ⟨[], by simpa using hinbox, rfl⟩

/-! ## Every event -/

/-- The users stay, and so do the friendships of `uid`. -/
theorem tells_tables (husers : t.users = s.users)
    (hkeep : ∀ x, (uid, x) ∈ t.db.friends ↔ (uid, x) ∈ s.db.friends)
    (hsent : t.sent = s.sent ++ out) (hout : Apart c out) : Tells uid c s t := by
  refine tells_apart hout hsent ?_
  ext x
  rw [mem_friendsPresent, mem_friendsPresent, hkeep, present, present, getUserById, getUserById,
    husers]

theorem apart_addFriend (env : Env) (s : ServerState) (user : ServerUser) (x : Int32) (c : Ssl) :
    ∃ out, (s.addFriend env user x).sent = s.sent ++ out ∧ Apart c out := by
  have hto : ∀ (id : Int32) (text : List UInt8),
      Apart c (sendToUser env (s.getUserById id) (.systemMsg text)) :=
    fun id text => apart_sendToUser (fun _ => rfl) _
  simp only [addFriend, sendFriendRequest]
  split
  · split
    · split
      · exact ⟨_, rfl, hto _ _⟩
      · exact ⟨_, rfl, hto _ _⟩
    · exact ⟨_, rfl, hto _ _⟩
  · exact ⟨[], (List.append_nil _).symm, .nil c⟩

/-- What holds while `c` listens to the notices for `uid`. -/
structure Follows (uid : Int32) (c : Ssl) (s : ServerState) : Prop where
  sessions : Sessions s
  sound : s.db.Sound
  paired : s.db.Paired
  listening : Listening uid c s

/-- An event that leaves `c` with `uid`, and the friendships of `uid` as they
are. -/
def RosterStep (lib : Externals) (uid : Int32) (c : Ssl) (e : Event) (s t : ServerState) : Prop :=
  ServerStep lib e s t ∧ QueriesSucceed e ∧ Listening uid c t ∧
    ∀ x, (uid, x) ∈ t.db.friends ↔ (uid, x) ∈ s.db.friends

theorem tells_serveAuth (h : Follows uid c s) (hu : s.userOf sc = some user)
    (hok : ∀ call step, env.sqlOk call step = true) (hon : Listening uid c t)
    (hkeep : ∀ x, (uid, x) ∈ t.db.friends ↔ (uid, x) ∈ s.db.friends) (cmd : Command)
    (hserve : serveAuth env s sc.ssl user cmd = .ok t) : Tells uid c s t := by
  have hroute := h.sessions.routable
  obtain ⟨_, huser, _⟩ := userOf_eq_some.mp hu
  cases cmd with
  | broadcast msg =>
    obtain rfl := Except.ok.inj hserve
    exact tells_send (apart_sendToAll fun _ => rfl)
  | cmdKickId tid =>
    cases tid with
    | none => obtain rfl := Except.ok.inj hserve; exact .refl uid c _
    | some tid =>
      have hk : s.cmdKickId env tid = .ok t := hserve
      unfold cmdKickId at hk
      split at hk
      · next tuser _ =>
        have hsent : Sessions (s.send (sendToUser env (some tuser) (.broadcast
            (Utility.text "admin") (Utility.text "you got kicked, fggt!")))) :=
          h.sessions.same (sameSessions_send s _) (accountsKept_of_eq rfl)
        exact (tells_send (apart_sendToUser (fun _ => rfl) _)).trans
          (tells_kickLoop hsent (hok .getFriends) h.paired hk hon)
      · cases hk; exact .refl uid c _
  | whisper tid msg =>
    cases msg with
    | none => obtain rfl := Except.ok.inj hserve; exact .refl uid c _
    | some msg =>
      obtain rfl := Except.ok.inj ((serveAuth_whisper tid msg).symm.trans hserve)
      split
      · exact tells_send (apart_sendToUser (fun _ => rfl) _)
      · exact .refl uid c _
  | who =>
    obtain rfl := Except.ok.inj hserve
    exact tells_send (apart_sendToUser (fun _ => rfl) _)
  | friends =>
    obtain rfl := Except.ok.inj hserve
    exact tells_report hroute huser hok h.sound h.listening
  | logout =>
    obtain rfl := Except.ok.inj hserve
    exact tells_dropConnection (s := s.serverChClientAuthed (-1) sc.ssl)
      ⟨hroute.nodup, hroute.apart, hroute.known⟩ huser (hok .getFriends) h.paired hon
  | disconnect => exact tells_disconnect hroute (hok .getFriends) h.paired hserve hon
  | grantPrivileges v priv =>
    obtain rfl := Except.ok.inj hserve
    exact tells_tables rfl hkeep (List.append_nil _).symm (.nil c)
  | addFriend x =>
    obtain rfl := Except.ok.inj hserve
    obtain ⟨out, hsent, hout⟩ := apart_addFriend env s user x c
    exact tells_tables (sameSessions_addFriend x).users hkeep hsent hout
  | removeFriend x =>
    obtain rfl := Except.ok.inj hserve
    refine tells_tables (sameSessions_removeFriend x).users hkeep ?_ (.nil c)
    exact (removeFriend_sent env s user x).trans (List.append_nil _).symm
  | groupCreate name =>
    obtain rfl := Except.ok.inj hserve
    exact tells_tables rfl hkeep (List.append_nil _).symm (.nil c)
  | _ => obtain rfl := Except.ok.inj hserve; exact .refl uid c _

theorem apart_reqRegister (uname upw : List UInt8) :
    ∃ out, (s.reqRegister lib env ssl uname upw).sent = s.sent ++ out ∧ Apart c out := by
  simp only [reqRegister]
  split
  · exact ⟨_, rfl, apart_sendToClient _ fun _ => rfl⟩
  · exact ⟨_, rfl, apart_sendToClient _ fun _ => rfl⟩

theorem tells_step (hname : ∀ a b, lib.nameEq a b = decide (a = b)) {e : Event}
    (h : Follows uid c s) (hstep : RosterStep lib uid c e s t) : Tells uid c s t := by
  obtain ⟨hstep, hok, hon, hkeep⟩ := hstep
  cases hstep with
  | accept handshake _ _ _ =>
    refine tells_tables ?_ hkeep ?_ (.nil c)
    · cases handshake <;> rfl
    · cases handshake <;> exact (List.append_nil _).symm
  | hangup _ hd => exact tells_disconnect h.sessions.routable (hok .getFriends) h.paired hd hon
  | @packet _ _ fd env data hp =>
    obtain ⟨sc, hsc, _, hproc, _⟩ := handled_packet hp
    rw [processPacket_eq] at hproc
    cases hread : readPacket s sc (Datapacket.createFromData data) with
    | error f => rw [hread] at hproc; cases hproc
    | ok r =>
      rw [hread] at hproc
      have hserve : serve lib env s sc r.1 = .ok t := hproc
      cases hu : s.userOf sc with
      | some user =>
        rw [serve_of_user hu] at hserve
        exact tells_serveAuth h hu hok hon hkeep r.1 hserve
      | none =>
        have hun : ¬ 0 < sc.id := by
          intro hpos
          obtain ⟨u, hmem, hid, _⟩ := h.sessions.authed sc hsc hpos
          rw [userOf_eq_some.mpr ⟨hpos, hmem, hid⟩] at hu
          cases hu
        simp only [serve, if_neg hun] at hserve
        generalize r.1 = cmd at hserve
        cases cmd with
        | reqLogin uname upw =>
          obtain rfl := Except.ok.inj hserve
          exact tells_reqLogin h.sessions hname hsc hun (hok .getFriends) h.paired h.listening
            uname upw
        | reqRegister uname upw =>
          obtain rfl := Except.ok.inj hserve
          obtain ⟨out, hsent, hout⟩ := apart_reqRegister (c := c) uname upw
          exact tells_tables (sameSessions_reqRegister uname upw).users hkeep hsent hout
        | disconnect =>
          exact tells_disconnect h.sessions.routable (hok .getFriends) h.paired hserve hon
        | _ => obtain rfl := Except.ok.inj hserve; exact .refl uid c _

theorem has_account (h : Sessions s) (huser : user ∈ s.users) : s.db.users.Has user.id := by
  obtain ⟨row, hrow, hid, _⟩ := h.known user huser
  exact ⟨row, hrow, hid⟩

theorem follows_step (hname : ∀ a b, lib.nameEq a b = decide (a = b)) (e : Event)
    (s t : ServerState) (h : Follows uid c s) (hstep : RosterStep lib uid c e s t) :
    Follows uid c t where
  sessions := sessions_step hname e s t h.sessions hstep.1
  sound := (accounted_step e s t ⟨h.sound, fun _ hu => has_account h.sessions hu⟩ hstep.1).db
  paired := paired_step e s t h.paired ⟨hstep.1, hstep.2.1⟩
  listening := hstep.2.2.1

/-- Who gets the report of his friends and keeps his list by the notices has it
right from then on: what his connection is sent is the report and then messages
of which the list comes out, as long as he stays logged in on it and his
friendships stay. -/
theorem roster_exact {db : Database} {listener : Nat} {before after : List Event}
    (hname : ∀ a b, lib.nameEq a b = decide (a = b)) (hsound : db.Sound) (hpaired : db.Paired)
    (hbefore : Run (guarded (ServerStep lib) fun e _ => QueriesSucceed e)
      (ServerState.start db listener) before s)
    (huser : user ∈ s.users) (hc : c ∈ user.connections)
    (hok : ∀ call step, env.sqlOk call step = true)
    (hafter : Run (RosterStep lib user.id c) (s.friends env user) after t) :
    ∃ told : List (Env × ServerMsg),
      inbox c t.sent = inbox c s.sent ++ packet env (s.setFriendsOnline env user.id) ::
        told.map (fun p => packet p.1 p.2) ∧
      ∀ on, (s.setFriendsOnline env user.id :: told.map Prod.snd).foldl hear on =
        friendsPresent t user.id := by
  have hsessions : Sessions s :=
    hbefore.of_guarded.invariant (sessions_step hname) (sessions_start db listener)
  have hsd : s.db.Sound := (hbefore.of_guarded.invariant accounted_step
    ⟨hsound, fun u hu => absurd hu (OrderedSet.not_mem_empty u)⟩).db
  have hpd : s.db.Paired :=
    hbefore.invariant (I := fun s => s.db.Paired) paired_step hpaired
  have hasked : Follows user.id c (s.friends env user) :=
    ⟨hsessions.same (sameSessions_send s _) (accountsKept_of_eq rfl), hsd, hpd,
      user, huser, rfl, hc⟩
  obtain ⟨told, hsent, hlist⟩ : Tells user.id c (s.friends env user) t :=
    hafter.relates (Tells.refl user.id c) (fun _ _ _ => Tells.trans) (follows_step hname)
      (fun _ _ _ => tells_step hname) hasked
  refine ⟨told, ?_, fun on => ?_⟩
  · rw [hsent, ServerState.friends, send, inbox_append, inbox_sendToUser hsessions.routable huser,
      if_pos hc, List.append_assoc, List.singleton_append]
  · rw [List.foldl_cons, hear_report hok hsd]
    exact hlist

/-- The two accounts, friends. -/
def befriendedDb : Database := ((sampleDb 0).addFriend 1 2).addFriend 2 1

def firstOnline : ServerState :=
  ((ServerState.start befriendedDb 3).accept ⟨1, 4⟩ true).reqLogin sampleExt sampleEnv ⟨1, 4⟩
    [97] []

theorem run_firstOnline : Run (guarded (ServerStep sampleExt) fun e _ => QueriesSucceed e)
    (ServerState.start befriendedDb 3) [.accept ⟨1, 4⟩ true, .packet 4 sampleEnv (loginOf [97])]
    firstOnline :=
  .cons ⟨(twoClients_steps sampleExt befriendedDb).1, trivial⟩
    (.single ⟨.packet rfl, fun _ _ => rfl⟩)

/-- He has asked for his friends, and the second has logged in. -/
def bothOnline : ServerState :=
  ((firstOnline.friends sampleEnv ⟨1, 1, [⟨1, 4⟩], [97], 0⟩).accept ⟨2, 5⟩ true).reqLogin
    sampleExt sampleEnv ⟨2, 5⟩ [98] []

theorem roster_exact_login : ∃ told : List (Env × ServerMsg),
    inbox ⟨1, 4⟩ bothOnline.sent = inbox ⟨1, 4⟩ firstOnline.sent ++
      packet sampleEnv (firstOnline.setFriendsOnline sampleEnv 1) ::
        told.map (fun p => packet p.1 p.2) ∧
    (firstOnline.setFriendsOnline sampleEnv 1 :: told.map Prod.snd).foldl hear ∅ =
      friendsPresent bothOnline 1 ∧
    friendsPresent bothOnline 1 = {2} := by
  have hlistening : ∀ t : ServerState, (⟨1, 1, [⟨1, 4⟩], [97], 0⟩ : ServerUser) ∈ t.users →
      Listening 1 ⟨1, 4⟩ t := fun t hu => ⟨_, hu, rfl, List.mem_singleton_self _⟩
  have hafter : Run (RosterStep sampleExt 1 ⟨1, 4⟩)
      (firstOnline.friends sampleEnv ⟨1, 1, [⟨1, 4⟩], [97], 0⟩)
      [.accept ⟨2, 5⟩ true, .packet 5 sampleEnv (loginOf [98])] bothOnline := by
    refine .cons ⟨.accept true ?_ ?_ ?_, trivial, ?_, fun _ => .rfl⟩
      (.single ⟨.packet rfl, fun _ _ => rfl, ?_, fun _ => .rfl⟩)
    · decide
    · decide
    · decide
    · exact hlistening _ List.mem_cons_self
    · exact hlistening _ List.mem_cons_self
  have hfirst : befriendedDb.users.Has 1 := ⟨_, List.mem_cons_self, rfl⟩
  have hsecond : befriendedDb.users.Has 2 := ⟨_, List.mem_cons_of_mem _ List.mem_cons_self, rfl⟩
  have hsound : befriendedDb.Sound := by
    refine ⟨?_, fun _ hrow => absurd hrow List.not_mem_nil,
      fun _ hrow => absurd hrow List.not_mem_nil⟩
    rw [show befriendedDb.friends = [(2, 1), (1, 2)] from rfl, List.forall_mem_cons,
      List.forall_mem_singleton]
    exact ⟨⟨hsecond, hfirst, by decide⟩, hfirst, hsecond, by decide⟩
  have hstrangers : (sampleDb 0).Paired := .empty rfl rfl
  have hpaired : befriendedDb.Paired := (hstrangers.addFriend 1 2).addFriend 2 1
  obtain ⟨told, hsent, hlist⟩ := roster_exact (fun _ _ => rfl) hsound hpaired run_firstOnline
    List.mem_cons_self (List.mem_singleton_self _) (fun _ _ => rfl) hafter
  exact ⟨told, hsent, hlist ∅, by decide +kernel⟩

end VhIM.Client
