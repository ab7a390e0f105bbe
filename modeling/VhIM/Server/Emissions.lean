import VhIM.Server.Accounts
import VhIM.Server.Connections
import VhIM.Server.Integrity
import VhIM.Server.Life
import VhIM.Server.Unfriending
import VhIM.Utility.Decimal

/-! # Where what is written comes from

Everything that an event makes the server write, by what causes it: which
packet it is, over a connection of whom, what is read of it, and what the
state makes of that. -/
namespace VhIM.Server
open VhIM.Lib VhIM.Lib.Runs VhIM.Network VhIM.Sql VhIM.Utility
open ServerState

/-! ## Causes -/

/-- The event is a packet of the client, which is read as `cmd`. -/
structure Commands (s : ServerState) (e : Event) (env : Env) (sc : ServerClient) (cmd : Command) :
    Prop where
  client : sc ∈ s.clients
  read : ∃ data dp, e = .packet sc.ssl.fd env data ∧
    readPacket s sc (Datapacket.createFromData data) = .ok (cmd, dp)

def CommandedBy (s : ServerState) (e : Event) (env : Env) (user : ServerUser) (cmd : Command) :
    Prop :=
  ∃ sc, Commands s e env sc cmd ∧ s.userOf sc = some user

/-- The event ends a connection that is the user's last one, or it is the kick
of the user, who is online, by somebody who may. -/
inductive EndsFor (s : ServerState) (e : Event) : Int32 → Prop
  | hungUp {sc : ServerClient} {user : ServerUser} {env : Env} : sc ∈ s.clients →
      e = .hangup sc.ssl.fd env → s.userOf sc = some user →
      (user.removeConnection sc.ssl).connections = [] → EndsFor s e user.id
  | left {env : Env} {sc : ServerClient} {user : ServerUser} {cmd : Command} :
      Commands s e env sc cmd → cmd = .logout ∨ cmd = .disconnect → s.userOf sc = some user →
      (user.removeConnection sc.ssl).connections = [] → EndsFor s e user.id
  | kicked {env : Env} {user : ServerUser} {tid : Int32} :
      CommandedBy s e env user (.cmdKickId (some tid)) → 8 ≤ user.pLevel →
      (s.getUserById tid).isSome → EndsFor s e tid

/-- What an event can make the server write, and when. -/
inductive Cause (lib : Externals) (s : ServerState) (e : Event) : ServerMsg → Prop
  | authFailed {env : Env} {sc : ServerClient} {uname upw : List UInt8} {res : Sqlv}
      {t : ServerState} : Commands s e env sc (.reqLogin uname upw) → ¬ 0 < sc.id →
      s.authorizeClient lib env sc.ssl uname upw = (none, res, t) →
      Cause lib s e (.authFailed (text "Authentification failed.") res.code)
  | welcome {env : Env} {sc : ServerClient} {uname upw : List UInt8} {user : ServerUser}
      {res : Sqlv} {t : ServerState} : Commands s e env sc (.reqLogin uname upw) → ¬ 0 < sc.id →
      s.authorizeClient lib env sc.ssl uname upw = (some user, res, t) →
      Cause lib s e (.welcome uname)
  | friendOnline {env : Env} {sc : ServerClient} {uname upw : List UInt8} {user : ServerUser}
      {res : Sqlv} {t : ServerState} : Commands s e env sc (.reqLogin uname upw) → ¬ 0 < sc.id →
      s.authorizeClient lib env sc.ssl uname upw = (some user, res, t) → user.conLen = 1 →
      Cause lib s e (.friendOnline user.id uname)
  | registrSuccessful {env : Env} {sc : ServerClient} {uname upw : List UInt8} {db : Database} :
      Commands s e env sc (.reqRegister uname upw) → ¬ 0 < sc.id →
      sqlChAddUser (env.sqlOk .addUser) lib env.saltBytes s.db uname upw = (.success, db) →
      Cause lib s e (.registrSuccessful (text "Registration complete. Login now."))
  | registrFailed {env : Env} {sc : ServerClient} {uname upw : List UInt8} {res : Sqlv}
      {db : Database} : Commands s e env sc (.reqRegister uname upw) → ¬ 0 < sc.id →
      sqlChAddUser (env.sqlOk .addUser) lib env.saltBytes s.db uname upw = (res, db) →
      res ≠ .success → Cause lib s e (.registrFailed
        (if res = .userExists then text "Registration failed: user name already exists."
          else text "Registration failed."))
  | broadcast {env : Env} {user : ServerUser} {msg : List UInt8} :
      CommandedBy s e env user (.broadcast msg) → Cause lib s e (.broadcast (label user) msg)
  | whisper {env : Env} {user : ServerUser} {tid : Int32} {msg : List UInt8} :
      CommandedBy s e env user (.whisper tid (some msg)) → (s.getUserById tid).isSome →
      Cause lib s e (.broadcast (label user) msg)
  | kick {env : Env} {user : ServerUser} {tid : Int32} :
      CommandedBy s e env user (.cmdKickId (some tid)) → 8 ≤ user.pLevel →
      (s.getUserById tid).isSome →
      Cause lib s e (.broadcast (text "admin") (text "you got kicked, fggt!"))
  | requested {env : Env} {user : ServerUser} {uid : Int32} :
      CommandedBy s e env user (.addFriend uid) →
      sqlChAreFriends (env.sqlOk .areFriends) s.db user.id uid = false →
      sqlChUserExists (env.sqlOk .userExists) s.db uid = true →
      Cause lib s e (.systemMsg (text "Friend request received."))
  | unknownUser {env : Env} {user : ServerUser} {uid : Int32} :
      CommandedBy s e env user (.addFriend uid) →
      sqlChAreFriends (env.sqlOk .areFriends) s.db user.id uid = false →
      sqlChUserExists (env.sqlOk .userExists) s.db uid = false →
      Cause lib s e (.systemMsg (text "User not found."))
  | who {env : Env} {user : ServerUser} : CommandedBy s e env user .who →
      Cause lib s e (.who s.userInfos)
  | friends {env : Env} {user : ServerUser} : CommandedBy s e env user .friends →
      Cause lib s e (s.setFriendsOnline env user.id)
  | friendOffline {uid : Int32} : EndsFor s e uid → Cause lib s e (.friendOffline uid)

/-- What is written between two states, if anything, are messages that meet `P`. -/
def Emits (P : ServerMsg → Prop) (s t : ServerState) : Prop :=
  ∃ out, t.sent = s.sent ++ out ∧ ∀ x ∈ out, ∃ env msg, P msg ∧ x.2 = packet env msg

variable {lib : Externals} {env : Env} {s t u : ServerState} {e : Event} {ssl : Ssl}
  {sc : ServerClient} {user : ServerUser} {msg : ServerMsg} {P Q : ServerMsg → Prop} {out : Sends}

theorem Emits.of_sent (h : t.sent = s.sent) : Emits P s t :=
  ⟨[], h.trans (List.append_nil _).symm, fun _ hx => absurd hx List.not_mem_nil⟩

theorem Emits.refl (s : ServerState) : Emits P s s := .of_sent rfl

theorem Emits.trans (h : Emits P s t) (h' : Emits P t u) : Emits P s u := by
  obtain ⟨out, hsent, hout⟩ := h
  obtain ⟨out', hsent', hout'⟩ := h'
  refine ⟨out ++ out', by rw [hsent', hsent, List.append_assoc], fun x hx => ?_⟩
  exact (List.mem_append.mp hx).elim (hout x) (hout' x)

theorem Emits.congr (h : Emits P s t) (hs : u.sent = t.sent) : Emits P s u := by
  obtain ⟨out, hsent, hout⟩ := h
  exact ⟨out, hs.trans hsent, hout⟩

/-! ## The ways to send -/

theorem emits_user (hP : P msg) (uTo : Option ServerUser) :
    Emits P s (s.send (sendToUser env uTo msg)) := by
  refine ⟨_, rfl, fun x hx => ⟨env, msg, hP, ?_⟩⟩
  cases uTo with
  | none => exact absurd hx List.not_mem_nil
  | some v => exact (mem_sendToUser (c := x.1).mp hx).2

theorem emits_client (hP : P msg) (ssl : Ssl) : Emits P s (s.send (sendToClient env ssl msg)) := by
  refine ⟨_, rfl, fun x hx => ⟨env, msg, hP, ?_⟩⟩
  rw [List.mem_singleton.mp hx]

theorem emits_all (hP : P msg) (ssl : Ssl) : Emits P s (s.send (s.sendToAll env ssl msg)) :=
  ⟨_, rfl, fun x hx => ⟨env, msg, hP, (mem_sendToAll (c := x.1).mp hx).2⟩⟩

theorem emits_friends (hP : P msg) (m : ServerState) (user : ServerUser) :
    Emits P s (s.send (m.sendToFriends env user msg)) := by
  refine ⟨_, rfl, fun x hx => ⟨env, msg, hP, ?_⟩⟩
  obtain ⟨info, _, hx⟩ := List.mem_flatMap.mp hx
  cases hu : m.getUserById info.id with
  | none => rw [hu] at hx; exact absurd hx List.not_mem_nil
  | some v =>
    rw [hu] at hx
    obtain ⟨c, _, rfl⟩ := List.mem_map.mp hx
    rfl

/-! ## The handlers -/

theorem emits_dropConnection
    (hP : (user.removeConnection ssl).connections = [] → P (.friendOffline user.id)) :
    Emits P s (s.dropConnection env user ssl) := by
  simp only [dropConnection]
  split
  · next hlast =>
    exact (Emits.of_sent rfl).trans
      ((emits_friends (hP hlast) (s.removeConnection user ssl) user).congr rfl)
  · exact .of_sent rfl

theorem emits_disconnect
    (hP : ∀ sc user, s.clients.search ssl.fd = some sc → s.userOf sc = some user →
      (user.removeConnection sc.ssl).connections = [] → P (.friendOffline user.id))
    (hd : s.serverChDisconnectClient env ssl = .ok t) : Emits P s t := by
  simp only [serverChDisconnectClient, serverChClientDisconnected] at hd
  cases hsc : s.clients.search ssl.fd with
  | none => rw [hsc] at hd; cases hd
  | some sc =>
    rw [hsc] at hd
    cases hd
    have hcb : Emits P s (s.cbClDc env sc) := by
      rw [cbClDc_eq]
      split
      · next user hu => exact emits_dropConnection (hP sc user hsc hu)
      · exact .refl s
    exact hcb.congr rfl

/-- The connections of one user go; nobody else is reported to be gone. -/
theorem emits_kickLoop {conns : List Ssl} {tid : Int32} (hP : P (.friendOffline tid))
    (hids : ∀ c ∈ conns, ∀ sc, s.clients.search c.fd = some sc → sc.id = tid)
    (hk : s.kickLoop env conns = .ok t) : Emits P s t := by
  induction conns generalizing s with
  | nil => cases hk; exact .refl _
  | cons c conns ih =>
    simp only [kickLoop] at hk
    cases hd : s.serverChDisconnectClient env c with
    | error f => rw [hd] at hk; cases hk
    | ok m =>
      rw [hd] at hk
      have hfirst : Emits P s m := by
        refine emits_disconnect (fun sc user hsc hu _ => ?_) hd
        rw [(userOf_eq_some.mp hu).2.2, hids c List.mem_cons_self sc hsc]
        exact hP
      obtain ⟨_, hgone⟩ := disconnected_of_ok hd
      refine hfirst.trans (ih (fun d hd sc hsc => ?_) hk)
      obtain ⟨hmem, hfd⟩ := OrderedSet.search_eq_some.mp hsc
      rw [hgone.clients, OrderedSet.mem_erase] at hmem
      exact hids d (List.mem_cons_of_mem _ hd) sc (OrderedSet.search_eq_some.mpr ⟨hmem.1, hfd⟩)

theorem emits_cmdKickId {tid : Int32} (ho : Owned s)
    (hoffline : (s.getUserById tid).isSome → P (.friendOffline tid))
    (hkick : (s.getUserById tid).isSome →
      P (.broadcast (text "admin") (text "you got kicked, fggt!")))
    (hk : s.cmdKickId env tid = .ok t) : Emits P s t := by
  unfold cmdKickId at hk
  split at hk
  · next tuser htuser =>
    obtain ⟨hmem, hid⟩ := getUserById_eq_some.mp htuser
    have hon : (s.getUserById tid).isSome := by rw [htuser]; rfl
    refine (emits_user (hkick hon) _).trans (emits_kickLoop (hoffline hon) ?_ hk)
    intro c hc sc hsc
    obtain ⟨sc', hsc', rfl, hsid⟩ := ho.owned tuser hmem c hc
    obtain ⟨hin, hfd⟩ := OrderedSet.search_eq_some.mp hsc
    rw [OrderedSet.eq_of_key_eq hin hsc' hfd, hsid, hid]
  · cases hk; exact .refl _

theorem emits_addFriend {uid : Int32}
    (hreq : sqlChAreFriends (env.sqlOk .areFriends) s.db user.id uid = false →
      sqlChUserExists (env.sqlOk .userExists) s.db uid = true →
      P (.systemMsg (text "Friend request received.")))
    (hunknown : sqlChAreFriends (env.sqlOk .areFriends) s.db user.id uid = false →
      sqlChUserExists (env.sqlOk .userExists) s.db uid = false →
      P (.systemMsg (text "User not found."))) :
    Emits P s (s.addFriend env user uid) := by
  simp only [addFriend, sendFriendRequest]
  split
  · next hno =>
    have hno' := Bool.not_eq_true' _ ▸ hno
    split
    · next hyes =>
      split
      · exact (emits_user (hreq hno' hyes) _).congr rfl
      · exact (emits_user (hreq hno' hyes) _).congr rfl
    · next hyes => exact emits_user (hunknown hno' (Bool.eq_false_of_not_eq_true hyes)) _
  · exact .refl s

theorem emits_reqRegister {uname upw : List UInt8}
    (hyes : ∀ db, sqlChAddUser (env.sqlOk .addUser) lib env.saltBytes s.db uname upw =
      (.success, db) → P (.registrSuccessful (text "Registration complete. Login now.")))
    (hno : ∀ res db, sqlChAddUser (env.sqlOk .addUser) lib env.saltBytes s.db uname upw =
      (res, db) → res ≠ .success → P (.registrFailed
        (if res = .userExists then text "Registration failed: user name already exists."
          else text "Registration failed."))) :
    Emits P s (s.reqRegister lib env ssl uname upw) := by
  unfold reqRegister
  generalize sqlChAddUser (env.sqlOk .addUser) lib env.saltBytes s.db uname upw = r at hyes hno
  obtain ⟨res, db⟩ := r
  dsimp only
  split
  · next hres => exact (Emits.of_sent rfl).trans (emits_client (hyes db (by rw [hres])) ssl)
  · next hres => exact (Emits.of_sent rfl).trans (emits_client (hno res db rfl hres) ssl)

theorem emits_reqLogin {uname upw : List UInt8}
    (hfailed : ∀ res t, s.authorizeClient lib env ssl uname upw = (none, res, t) →
      P (.authFailed (text "Authentification failed.") res.code))
    (hin : ∀ user res t, s.authorizeClient lib env ssl uname upw = (some user, res, t) →
      P (.welcome uname) ∧ (user.conLen = 1 → P (.friendOnline user.id uname))) :
    Emits P s (s.reqLogin lib env ssl uname upw) := by
  have hlast : ∀ (m : ServerState) (user : ServerUser), user.username = uname → m.sent = s.sent →
      P (.welcome uname) ∧ (user.conLen = 1 → P (.friendOnline user.id uname)) →
      Emits P s (if user.conLen = 1 then (m.send (sendToClient env ssl (.welcome uname))).send
          ((m.send (sendToClient env ssl (.welcome uname))).sendToFriends env user
            (.friendOnline user.id user.username))
        else m.send (sendToClient env ssl (.welcome uname))) := by
    intro m user hname hsent ⟨hwelcome, honline⟩
    have hw : Emits P s (m.send (sendToClient env ssl (.welcome uname))) :=
      (Emits.of_sent hsent).trans (emits_client hwelcome ssl)
    split
    · next hone => exact hw.trans (emits_friends (hname ▸ honline hone) _ user)
    · exact hw
  unfold reqLogin
  obtain ⟨res, hauth⟩ | ⟨user, hfound, hauth⟩ | ⟨row, _, _, _, hauth⟩ :=
    authorizeClient_cases lib env s ssl uname upw
  · rw [hauth]
    exact emits_client (hfailed _ _ hauth) ssl
  · rw [hauth]
    simp only [ne_eq, not_true_eq_false, if_false]
    exact hlast _ _ (mapUsername_eq_some hfound).2 rfl (hin _ _ _ hauth)
  · rw [hauth]
    simp only [ne_eq, reduceCtorEq, not_false_eq_true, if_true]
    exact hlast _ _ rfl rfl (hin _ _ _ hauth)

/-! ## What is read -/

/-- The texts in a command. -/
def Command.texts : Command → List (List UInt8)
  | .reqRegister uname upw | .reqLogin uname upw => [uname, upw]
  | .broadcast msg => [msg]
  | .whisper _ (some msg) => [msg]
  | .groupCreate name => [name]
  | _ => []

structure ReadFor (user : ServerUser) (cmd : Command) : Prop where
  nulFree : ∀ txt ∈ cmd.texts, 0 ∉ txt
  allowed : ∀ tid, cmd = .cmdKickId (some tid) → 8 ≤ user.pLevel

theorem ReadFor.of_texts {cmd : Command} (htexts : ∀ txt ∈ cmd.texts, 0 ∉ txt)
    (hno : ∀ tid, cmd ≠ .cmdKickId (some tid)) : ReadFor user cmd :=
  ⟨htexts, fun tid he => absurd he (hno tid)⟩

theorem readAuth_readFor {type : Option MsgType} {cmd : Command} {dp dp' : Datapacket}
    (h : readAuth s user type dp = .ok (cmd, dp')) : ReadFor user cmd := by
  have hsilent : ∀ {c : Command}, c.texts = [] → (∀ tid, c ≠ .cmdKickId (some tid)) →
      ReadFor user c := fun htexts hno => .of_texts (by simp [htexts]) hno
  cases type with
  | none => obtain rfl : cmd = _ := Get.pure_ok h; exact hsilent rfl (by simp)
  | some ty =>
    cases ty with
    | broadcast =>
      obtain ⟨msg, dp₁, hmsg, h⟩ := Get.bind_ok h
      obtain rfl : cmd = _ := Get.pure_ok h
      exact .of_texts (by simpa [Command.texts] using getString_nulFree hmsg) (by simp)
    | cmdKickId =>
      simp only [readAuth] at h
      split at h
      · next hallowed =>
        obtain ⟨tid, dp₁, _, h⟩ := Get.bind_ok h
        obtain rfl : cmd = _ := Get.pure_ok h
        exact ⟨by simp [Command.texts], fun _ _ => by simpa [isAllowed] using hallowed⟩
      · obtain rfl : cmd = _ := Get.pure_ok h
        exact hsilent rfl (by simp)
    | whisper =>
      obtain ⟨tid, dp₁, _, h⟩ := Get.bind_ok h
      cases hto : s.getUserById tid with
      | some tuser =>
        rw [hto] at h
        obtain ⟨msg, dp₂, hmsg, h⟩ := Get.bind_ok h
        obtain rfl : cmd = _ := Get.pure_ok h
        exact .of_texts (by simpa [Command.texts] using getString_nulFree hmsg) (by simp)
      | none =>
        rw [hto] at h
        obtain rfl : cmd = _ := Get.pure_ok h
        exact hsilent rfl (by simp)
    | groupCreate =>
      obtain ⟨name, dp₁, hname, h⟩ := Get.bind_ok h
      obtain rfl : cmd = _ := Get.pure_ok h
      exact .of_texts (by simpa [Command.texts] using getString_nulFree hname) (by simp)
    | grantPrivileges =>
      obtain ⟨uid, dp₁, _, h⟩ := Get.bind_ok h
      obtain ⟨priv, dp₂, _, h⟩ := Get.bind_ok h
      obtain rfl : cmd = _ := Get.pure_ok h
      exact hsilent rfl (by simp)
    | addFriend | removeFriend =>
      obtain ⟨uid, dp₁, _, h⟩ := Get.bind_ok h
      obtain rfl : cmd = _ := Get.pure_ok h
      exact hsilent rfl (by simp)
    | _ => obtain rfl : cmd = _ := Get.pure_ok h; exact hsilent rfl (by simp)

theorem readUnauth_nulFree {type : Option MsgType} {cmd : Command} {dp dp' : Datapacket}
    (h : readUnauth type dp = .ok (cmd, dp')) : ∀ txt ∈ cmd.texts, 0 ∉ txt := by
  have hpair : ∀ {a b : List UInt8} {dp₁ dp₂ dp₃ : Datapacket}, getString dp = .ok (a, dp₁) →
      getString dp₂ = .ok (b, dp₃) → ∀ txt ∈ [a, b], 0 ∉ txt := by
    intro a b dp₁ dp₂ dp₃ ha hb
    rw [List.forall_mem_cons, List.forall_mem_singleton]
    exact ⟨getString_nulFree ha, getString_nulFree hb⟩
  have hnone : cmd.texts = [] → ∀ txt ∈ cmd.texts, 0 ∉ txt := fun he => by simp [he]
  cases type with
  | none => exact hnone (by rw [show cmd = _ from Get.pure_ok h]; rfl)
  | some ty =>
    cases ty with
    | reqLogin | reqRegister =>
      obtain ⟨uname, dp₁, huname, h⟩ := Get.bind_ok h
      obtain ⟨upw, dp₂, hupw, h⟩ := Get.bind_ok h
      obtain rfl : cmd = _ := Get.pure_ok h
      exact hpair huname hupw
    | _ => exact hnone (by rw [show cmd = _ from Get.pure_ok h]; rfl)

theorem readPacket_readFor {cmd : Command} {dp dp' : Datapacket} (hu : s.userOf sc = some user)
    (h : readPacket s sc dp = .ok (cmd, dp')) : ReadFor user cmd := by
  obtain ⟨hpos, huser, hid⟩ := userOf_eq_some.mp hu
  simp only [readPacket, if_pos hpos, getUserById_eq_some.mpr ⟨huser, hid⟩] at h
  obtain ⟨_, _, _, h⟩ := Get.bind_ok h
  exact readAuth_readFor h

theorem CommandedBy.readFor {cmd : Command} (h : CommandedBy s e env user cmd) :
    ReadFor user cmd := by
  obtain ⟨sc, ⟨_, data, dp, _, hread⟩, hu⟩ := h
  exact readPacket_readFor hu hread

theorem Commands.nulFree {cmd : Command} (h : Commands s e env sc cmd) (hun : ¬ 0 < sc.id) :
    ∀ txt ∈ cmd.texts, 0 ∉ txt := by
  obtain ⟨_, data, dp, _, hread⟩ := h
  simp only [readPacket, if_neg hun] at hread
  obtain ⟨_, _, _, hread⟩ := Get.bind_ok hread
  exact readUnauth_nulFree hread

/-! ## Every event -/

/-- A user's packet causes what it says. -/
theorem emits_serveAuth {cmd : Command} (ho : Owned s) (hcmd : Commands s e env sc cmd)
    (hu : s.userOf sc = some user) (hserve : serveAuth env s sc.ssl user cmd = .ok t) :
    Emits (Cause lib s e) s t := by
  have hby : CommandedBy s e env user cmd := ⟨sc, hcmd, hu⟩
  have hfound : s.clients.search sc.ssl.fd = some sc :=
    OrderedSet.search_eq_some.mpr ⟨hcmd.client, rfl⟩
  cases cmd with
  | broadcast msg =>
    obtain rfl := Except.ok.inj hserve
    exact emits_all (.broadcast hby) _
  | cmdKickId tid =>
    cases tid with
    | none => obtain rfl := Except.ok.inj hserve; exact .refl s
    | some tid =>
      have hlevel := hby.readFor.allowed tid rfl
      exact emits_cmdKickId ho (fun hon => .friendOffline (.kicked hby hlevel hon))
        (.kick hby hlevel) hserve
  | whisper tid msg =>
    cases msg with
    | none => obtain rfl := Except.ok.inj hserve; exact .refl s
    | some msg =>
      obtain rfl := Except.ok.inj ((serveAuth_whisper tid msg).symm.trans hserve)
      split
      · next tuser htuser => exact emits_user (.whisper hby (by rw [htuser]; rfl)) _
      · exact .refl s
  | who => obtain rfl := Except.ok.inj hserve; exact emits_user (.who hby) _
  | friends => obtain rfl := Except.ok.inj hserve; exact emits_user (.friends hby) _
  | logout =>
    obtain rfl := Except.ok.inj hserve
    exact (Emits.of_sent rfl).trans (emits_dropConnection fun hlast =>
      .friendOffline (.left hcmd (.inl rfl) hu hlast))
  | disconnect =>
    refine emits_disconnect (fun sc' user' hsc' hu' hlast => ?_) hserve
    cases hfound.symm.trans hsc'
    exact .friendOffline (.left hcmd (.inr rfl) hu' hlast)
  | grantPrivileges uid priv => obtain rfl := Except.ok.inj hserve; exact .of_sent rfl
  | addFriend uid =>
    obtain rfl := Except.ok.inj hserve
    exact emits_addFriend (.requested hby) (.unknownUser hby)
  | removeFriend uid =>
    obtain rfl := Except.ok.inj hserve
    exact .of_sent (removeFriend_sent env s user uid)
  | groupCreate name => obtain rfl := Except.ok.inj hserve; exact .of_sent rfl
  | _ => obtain rfl := Except.ok.inj hserve; exact .refl s

theorem emits_serveUnauth {cmd : Command} (hcmd : Commands s e env sc cmd) (hun : ¬ 0 < sc.id)
    (hserve : serveUnauth lib env s sc.ssl cmd = .ok t) : Emits (Cause lib s e) s t := by
  cases cmd with
  | reqLogin uname upw =>
    obtain rfl := Except.ok.inj hserve
    exact emits_reqLogin (fun _ _ => .authFailed hcmd hun) fun _ _ _ hin =>
      ⟨.welcome hcmd hun hin, .friendOnline hcmd hun hin⟩
  | reqRegister uname upw =>
    obtain rfl := Except.ok.inj hserve
    exact emits_reqRegister (fun _ => .registrSuccessful hcmd hun)
      fun _ _ => .registrFailed hcmd hun
  | disconnect =>
    refine emits_disconnect (fun sc' user hsc' hu _ => ?_) hserve
    cases (OrderedSet.search_eq_some.mpr ⟨hcmd.client, rfl⟩).symm.trans hsc'
    exact absurd (userOf_eq_some.mp hu).1 hun
  | _ => obtain rfl := Except.ok.inj hserve; exact .refl s

theorem emits_step (ho : Owned s) (hstep : ServerStep lib e s t) : Emits (Cause lib s e) s t := by
  cases hstep with
  | accept handshake _ _ _ => cases handshake <;> exact .of_sent rfl
  | hangup hsc hd =>
    refine emits_disconnect (fun sc' user hsc' hu hlast => ?_) hd
    cases (OrderedSet.search_eq_some.mpr ⟨hsc, rfl⟩).symm.trans hsc'
    exact .friendOffline (.hungUp hsc rfl hu hlast)
  | @packet _ _ fd env data hp =>
    obtain ⟨sc, hsc, rfl, hproc, _⟩ := handled_packet hp
    rw [processPacket_eq] at hproc
    cases hread : readPacket s sc (Datapacket.createFromData data) with
    | error f => rw [hread] at hproc; cases hproc
    | ok r =>
      rw [hread] at hproc
      have hcmd : Commands s (.packet sc.ssl.fd env data) env sc r.1 := ⟨hsc, data, r.2, rfl, hread⟩
      have hserve : serve lib env s sc r.1 = .ok t := hproc
      by_cases hpos : 0 < sc.id
      · cases hu : s.getUserById sc.id with
        | none =>
          simp only [serve, if_pos hpos, hu] at hserve
          cases hserve
          exact .refl s
        | some user =>
          simp only [serve, if_pos hpos, hu] at hserve
          exact emits_serveAuth ho hcmd (by rw [userOf, if_pos hpos, hu]) hserve
      · simp only [serve, if_neg hpos] at hserve
        exact emits_serveUnauth hcmd hpos hserve

/-- Whatever was written in a run, an event of the run has caused. -/
theorem sent_caused {db : Database} {listener : Nat} {events : List Event}
    (hrun : Run (ServerStep lib) (ServerState.start db listener) events s) {x : Ssl × List UInt8}
    (hx : x ∈ s.sent) : ∃ pre e post m, events = pre ++ e :: post ∧
      Run (ServerStep lib) (ServerState.start db listener) pre m ∧
      ∃ env msg, Cause lib m e msg ∧ x.2 = packet env msg := by
  have howned : Run (guarded (ServerStep lib) fun _ s => Owned s) (ServerState.start db listener)
      events s := hrun.to_guarded fun _ _ _ _ _ hpre =>
    hpre.invariant owned_step (owned_start db listener)
  have hstep : ∀ e m t, guarded (ServerStep lib) (fun _ s => Owned s) e m t →
      ∃ out, t.sent = m.sent ++ out ∧ ∀ x ∈ out, ∃ env msg, Cause lib m e msg ∧
        x.2 = packet env msg := fun _ _ _ ⟨hstep, ho⟩ => emits_step ho hstep
  obtain ⟨pre, e, post, m, hevents, hpre, hcause⟩ :=
    (Run.caused hstep howned hx).resolve_left List.not_mem_nil
  exact ⟨pre, e, post, m, hevents, hpre.of_guarded, hcause⟩

/-! ## Who is named -/

/-- The text before the last of a character, and the text behind it. -/
theorem split_last {α : Type} [DecidableEq α] {a b d d' : List α} {c : α} (hd : c ∉ d)
    (hd' : c ∉ d') (h : a ++ c :: d = b ++ c :: d') : a = b ∧ d = d' := by
  have hback : ∀ {a d : List α}, c ∉ d →
      (a ++ c :: d).reverse.takeWhile (· ≠ c) = d.reverse := by
    intro a d hd
    rw [List.reverse_append, List.reverse_cons, List.append_assoc,
      List.takeWhile_append_of_pos fun x hx => ?_]
    · simp
    · refine decide_eq_true ?_
      rintro rfl
      exact hd (List.mem_reverse.mp hx)
  have hrest : d = d' := by
    rw [← List.reverse_inj, ← hback hd, ← hback hd', h]
  subst hrest
  exact ⟨List.append_cancel_right h, rfl⟩

theorem label_injective {u v : ServerUser} (h : label u = label v) :
    v.id = u.id ∧ v.username = u.username := by
  have hparen : text "(" = [40] ∧ text ")" = [41] := by decide
  have hno : ∀ id, (40 : UInt8) ∉ decimal id := fun id hin =>
    absurd (decimal_numeral id 40 hin) (by decide)
  rw [label, label, hparen.1, hparen.2] at h
  have hcut := List.append_cancel_right h
  rw [List.append_assoc, List.append_assoc] at hcut
  obtain ⟨hname, hid⟩ := split_last (hno u.id) (hno v.id) hcut
  exact ⟨(decimal_injective hid).symm, hname.symm⟩

/-- Nobody's messages look like the server's. -/
theorem label_ne_admin (u : ServerUser) : label u ≠ text "admin" := by
  intro h
  have hlast := congrArg List.getLast? h
  rw [label, show text ")" = [41] by decide, List.getLast?_concat] at hlast
  exact absurd hlast (by decide)

end VhIM.Server
