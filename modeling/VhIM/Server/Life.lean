import VhIM.Server.Delivery
import VhIM.Server.Grants
import VhIM.Server.Requests

/-! # The life of a connection

What can happen to an SSL object between its `SSL_new` and its `SSL_free`, as
a machine of three states, and that the server keeps to it: who is not logged
in hears nothing but the answers to login and registration, a welcome begins
the session and only then comes anything else, and after `SSL_free` comes
nothing. -/
namespace VhIM.Server
open VhIM.Lib VhIM.Lib.Runs VhIM.Network VhIM.Sql VhIM.Utility
open ServerState

inductive Stage where
  | absent
  | unauthed
  | authed (uid : Int32)
  deriving DecidableEq

namespace ServerMsg

/-- What a login or a registration is answered with, short of a welcome. -/
def isAnswer : ServerMsg → Bool
  | authFailed _ _ | registrSuccessful _ | registrFailed _ => true
  | _ => false

def inSession : ServerMsg → Bool
  | welcome _ | authFailed _ _ | registrSuccessful _ | registrFailed _ => false
  | _ => true

end ServerMsg

inductive LifeEvent where
  | connected
  /-- The handshake failed, and the object is freed at once. -/
  | refused
  | got (env : Env) (m : ServerMsg)
  | loggedOut
  | closed

namespace LifeEvent

def data : LifeEvent → Option (List UInt8)
  | got env m => some (packet env m)
  | _ => none

def frees : LifeEvent → Bool
  | refused => true
  | closed => true
  | _ => false

end LifeEvent

inductive LifeStep : LifeEvent → Stage → Stage → Prop
  | connected : LifeStep .connected .absent .unauthed
  | refused : LifeStep .refused .absent .absent
  | answered {env : Env} {m : ServerMsg} : m.isAnswer = true →
      LifeStep (.got env m) .unauthed .unauthed
  | welcomed {env : Env} (uname : List UInt8) (uid : Int32) :
      LifeStep (.got env (.welcome uname)) .unauthed (.authed uid)
  | heard {env : Env} {m : ServerMsg} {uid : Int32} : m.inSession = true →
      LifeStep (.got env m) (.authed uid) (.authed uid)
  | loggedOut {uid : Int32} : LifeStep .loggedOut (.authed uid) .unauthed
  | closed {p : Stage} : p ≠ .absent → LifeStep .closed p .absent

/-- What the entry of `clients` says about its connection. -/
def ServerClient.stage (sc : ServerClient) : Stage :=
  if 0 < sc.id then .authed sc.id else .unauthed

/-- How far a connection has come. -/
def ServerState.stage (s : ServerState) (c : Ssl) : Stage :=
  match s.clients.search c.fd with
  | some sc => if sc.ssl = c then sc.stage else .absent
  | none => .absent

/-- From the one state to the other the connection lived through events that
the machine allows: what was written to it and how often it was freed is what
these say. -/
def Lives (c : Ssl) (s t : ServerState) : Prop :=
  ∃ life, Run LifeStep (s.stage c) life (t.stage c) ∧
    inbox c t.sent = inbox c s.sent ++ life.filterMap LifeEvent.data ∧
    t.freed.count c = s.freed.count c + life.countP LifeEvent.frees

variable {lib : Externals} {env : Env} {s t u : ServerState} {c ssl : Ssl} {sc : ServerClient}
  {user : ServerUser} {m : ServerMsg} {out : Sends}

theorem Lives.refl (c : Ssl) (s : ServerState) : Lives c s s := ⟨[], .nil _, by simp, by simp⟩

theorem Lives.trans (h : Lives c s t) (h' : Lives c t u) : Lives c s u := by
  obtain ⟨life, hrun, hsent, hfreed⟩ := h
  obtain ⟨life', hrun', hsent', hfreed'⟩ := h'
  refine ⟨life ++ life', hrun.append hrun', ?_, ?_⟩
  · rw [hsent', hsent, List.filterMap_append, List.append_assoc]
  · rw [hfreed', hfreed, List.countP_append, Nat.add_assoc]

/-- One event at most, and the rest as it was. -/
theorem Lives.one {e : LifeEvent} (hstep : LifeStep e (s.stage c) (t.stage c))
    (hsent : inbox c t.sent = inbox c s.sent ++ e.data.toList)
    (hfreed : t.freed.count c = s.freed.count c + if e.frees then 1 else 0) : Lives c s t := by
  refine ⟨[e], .single hstep, ?_, ?_⟩
  · rw [hsent, List.filterMap_cons]
    cases e.data <;> rfl
  · rw [hfreed, List.countP_cons, List.countP_nil, Nat.zero_add]

theorem Lives.still (hstage : t.stage c = s.stage c) (hsent : inbox c t.sent = inbox c s.sent)
    (hfreed : t.freed.count c = s.freed.count c) : Lives c s t :=
  ⟨[], hstage ▸ .nil _, by rw [hsent, List.filterMap_nil, List.append_nil],
    by rw [hfreed, List.countP_nil, Nat.add_zero]⟩

/-! ## Phases -/

theorem stage_of_mem (hsc : sc ∈ s.clients) : s.stage sc.ssl = sc.stage := by
  rw [ServerState.stage, OrderedSet.search_eq_some.mpr ⟨hsc, rfl⟩]
  exact if_pos rfl

theorem stage_of_not (hno : ∀ sc ∈ s.clients, sc.ssl ≠ c) : s.stage c = .absent := by
  rw [ServerState.stage]
  split
  · next sc hsc => exact if_neg (hno sc (OrderedSet.search_eq_some.mp hsc).1)
  · rfl

theorem stage_congr (h : ∀ sc, sc.ssl = c → (sc ∈ t.clients ↔ sc ∈ s.clients)) :
    t.stage c = s.stage c := by
  by_cases hin : ∃ sc ∈ s.clients, sc.ssl = c
  · obtain ⟨sc, hsc, rfl⟩ := hin
    rw [stage_of_mem hsc, stage_of_mem ((h sc rfl).mpr hsc)]
  · have hno : ∀ sc ∈ s.clients, sc.ssl ≠ c := fun sc hsc he => hin ⟨sc, hsc, he⟩
    rw [stage_of_not hno, stage_of_not fun sc hsc he => hno sc ((h sc he).mp hsc) he]

theorem stage_congr_clients (h : t.clients = s.clients) (c : Ssl) : t.stage c = s.stage c :=
  stage_congr fun _ _ => by rw [h]

/-- The entry of a client is gone. -/
theorem stage_erased (hsc : sc ∈ s.clients) (h : t.clients = s.clients.erase sc.ssl.fd) :
    t.stage = Function.update s.stage sc.ssl .absent := by
  funext c
  by_cases hc : c = sc.ssl
  · subst hc
    rw [Function.update_self]
    refine stage_of_not fun sc' hsc' he => ?_
    rw [h, OrderedSet.mem_erase] at hsc'
    exact hsc'.2 (by rw [he])
  · rw [Function.update_of_ne hc]
    refine stage_congr ?_
    rintro sc' rfl
    rw [h, OrderedSet.mem_erase]
    refine ⟨And.left, fun hin => ⟨hin, fun hfd => hc ?_⟩⟩
    rw [OrderedSet.eq_of_key_eq hin hsc hfd]

/-- A client is told who it is. -/
theorem stage_told {id : Int32} (hsc : sc ∈ s.clients)
    (h : t.clients = (s.serverChClientAuthed id sc.ssl).clients) :
    t.stage = Function.update s.stage sc.ssl (ServerClient.stage ⟨id, sc.ssl⟩) := by
  have hmem : ∀ sc', sc' ∈ t.clients ↔
      (sc' ∈ s.clients ∧ sc'.ssl.fd ≠ sc.ssl.fd) ∨ sc' = { sc with id := id } := fun sc' => by
    rw [h]
    exact mem_serverChClientAuthed hsc _ _
  funext c
  by_cases hc : c = sc.ssl
  · subst hc
    rw [Function.update_self]
    exact stage_of_mem ((hmem { sc with id := id }).mpr (.inr rfl))
  · rw [Function.update_of_ne hc]
    refine stage_congr ?_
    rintro sc' rfl
    rw [hmem]
    constructor
    · rintro (⟨hin, _⟩ | rfl)
      · exact hin
      · exact absurd rfl hc
    · intro hin
      refine .inl ⟨hin, fun hfd => hc ?_⟩
      rw [OrderedSet.eq_of_key_eq hin hsc hfd]

/-- A client is new, and no other has its descriptor. -/
theorem stage_connected (h : t.clients = s.clients.insert ⟨-1, ssl⟩)
    (hfree : ∀ sc ∈ s.clients, sc.ssl.fd ≠ ssl.fd) :
    t.stage = Function.update s.stage ssl .unauthed := by
  have hmem : ∀ sc, sc ∈ t.clients ↔ sc ∈ s.clients ∨ sc = ⟨-1, ssl⟩ := fun sc => by
    rw [h, OrderedSet.mem_insert]
    exact or_congr_right (and_iff_left hfree)
  funext c
  by_cases hc : c = ssl
  · subst hc
    rw [Function.update_self]
    exact stage_of_mem ((hmem ⟨-1, c⟩).mpr (.inr rfl))
  · rw [Function.update_of_ne hc]
    refine stage_congr ?_
    rintro sc rfl
    rw [hmem]
    refine ⟨fun hin => hin.resolve_right ?_, .inl⟩
    rintro rfl
    exact hc rfl

/-! ## What is sent -/

/-- Only users who are logged in get these. -/
def InSession (s : ServerState) (out : Sends) : Prop :=
  ∀ x ∈ out, Connected s x.1 ∧ ∃ env m, ServerMsg.inSession m = true ∧ x.2 = packet env m

theorem InSession.nil (s : ServerState) : InSession s [] := fun _ hx => absurd hx List.not_mem_nil

theorem InSession.append {out' : Sends} (h : InSession s out) (h' : InSession s out') :
    InSession s (out ++ out') := by
  intro x hx
  exact (List.mem_append.mp hx).elim (h x) (h' x)

theorem InSession.mono (h : InSession s out) (hconn : ∀ c, Connected s c → Connected t c) :
    InSession t out :=
  fun x hx => ⟨hconn _ (h x hx).1, (h x hx).2⟩

theorem inSession_sendToUser (hm : m.inSession = true) {uTo : Option ServerUser}
    (hu : ∀ u ∈ uTo, u ∈ s.users) : InSession s (sendToUser env uTo m) := by
  cases uTo with
  | none => exact .nil s
  | some u =>
    rintro ⟨c, data⟩ hx
    obtain ⟨hc, rfl⟩ := mem_sendToUser.mp hx
    exact ⟨⟨u, hu u rfl, hc⟩, env, m, hm, rfl⟩

theorem mem_of_getUserById {id : Int32} : ∀ u ∈ s.getUserById id, u ∈ s.users :=
  fun _ hu => (getUserById_eq_some.mp hu).1

theorem inSession_sendToFriends (hm : m.inSession = true) :
    InSession s (s.sendToFriends env user m) := by
  intro x hx
  obtain ⟨info, _, hx⟩ := List.mem_flatMap.mp hx
  have hto : InSession s (sendToUser env (s.getUserById info.id) m) :=
    inSession_sendToUser hm mem_of_getUserById
  exact hto x hx

theorem inSession_sendToAll (hm : m.inSession = true) : InSession s (s.sendToAll env ssl m) := by
  rintro ⟨c, data⟩ hx
  obtain ⟨⟨hconn, _⟩, rfl⟩ := mem_sendToAll.mp hx
  exact ⟨hconn, env, m, hm, rfl⟩

/-- A session goes on through any number of packets. -/
theorem heard_all (uid : Int32) (datas : List (List UInt8))
    (h : ∀ d ∈ datas, ∃ env m, ServerMsg.inSession m = true ∧ d = packet env m) :
    ∃ life, Run LifeStep (.authed uid) life (.authed uid) ∧
      life.filterMap LifeEvent.data = datas ∧ life.countP LifeEvent.frees = 0 := by
  induction datas with
  | nil => exact ⟨[], .nil _, rfl, rfl⟩
  | cons d datas ih =>
    obtain ⟨life, hrun, hdata, hfrees⟩ := ih fun d hd => h d (List.mem_cons_of_mem _ hd)
    obtain ⟨env, m, hm, rfl⟩ := h d List.mem_cons_self
    refine ⟨.got env m :: life, .cons (.heard hm) hrun, ?_, ?_⟩
    · rw [List.filterMap_cons, hdata]; rfl
    · rw [List.countP_cons, hfrees]; rfl

theorem inbox_of_not {out : Sends} (h : ∀ data, (c, data) ∉ out) : inbox c out = [] := by
  refine List.eq_nil_iff_forall_not_mem.mpr fun data hdata => h data (mem_inbox.mp hdata)

/-- Who has a user's connection is logged in. -/
theorem Owned.stage_of_connected (h : Owned s) (hconn : Connected s c) :
    ∃ uid, s.stage c = .authed uid := by
  obtain ⟨u, hu, hc⟩ := hconn
  obtain ⟨sc, hsc, rfl, hid⟩ := h.owned u hu c hc
  exact ⟨sc.id, by rw [stage_of_mem hsc]; exact if_pos (hid ▸ h.positive u hu)⟩

theorem lives_sends (h : Owned s) (hout : InSession s out) (hstage : t.stage c = s.stage c)
    (hsent : t.sent = s.sent ++ out) (hfreed : t.freed.count c = s.freed.count c) :
    Lives c s t := by
  rw [Lives, hstage, hsent, hfreed, inbox_append]
  by_cases hconn : Connected s c
  · obtain ⟨uid, hs⟩ := h.stage_of_connected hconn
    obtain ⟨life, hrun, hdata, hfrees⟩ := heard_all uid (inbox c out)
      fun d hd => (hout _ (mem_inbox.mp hd)).2
    exact ⟨life, hs ▸ hrun, by rw [hdata], by rw [hfrees, Nat.add_zero]⟩
  · rw [inbox_of_not fun data hx => hconn (hout _ hx).1]
    exact ⟨[], .nil _, rfl, rfl⟩

theorem lives_send (h : Owned s) (hout : InSession s out) (c : Ssl) : Lives c s (s.send out) :=
  lives_sends h hout rfl rfl rfl

/-! ## The end of a connection -/

theorem connected_of_removed (huser : user ∈ s.users)
    (h : Connected (s.removeConnection user ssl) c) : Connected s c := by
  obtain ⟨u, hu, hc⟩ := h
  rcases (mem_removeConnection huser u).mp hu with ⟨hu, _⟩ | rfl
  · exact ⟨u, hu, hc⟩
  · rw [ServerUser.removeConnection_connections] at hc
    exact ⟨user, huser, List.mem_of_mem_erase hc⟩

/-- What taking a connection from a user sends, it sends to the others. -/
theorem sent_dropConnection (env : Env) (s : ServerState) (user : ServerUser) (ssl : Ssl) :
    ∃ out, (s.dropConnection env user ssl).sent = s.sent ++ out ∧
      InSession (s.removeConnection user ssl) out ∧
      (s.dropConnection env user ssl).freed = s.freed := by
  simp only [dropConnection]
  split
  · exact ⟨_, rfl, inSession_sendToFriends rfl, rfl⟩
  · exact ⟨[], (List.append_nil _).symm, .nil _, rfl⟩

theorem lives_cbClDc (h : Owned s) (sc : ServerClient) (c : Ssl) :
    Lives c s (s.cbClDc env sc) := by
  rw [cbClDc_eq]
  cases hu : s.userOf sc with
  | none => exact .refl c s
  | some user =>
    obtain ⟨_, huser, _⟩ := userOf_eq_some.mp hu
    obtain ⟨out, hsent, hout, hfreed⟩ := sent_dropConnection env s user sc.ssl
    refine lives_sends h (hout.mono fun _ => connected_of_removed huser) ?_ hsent ?_
    · exact stage_congr_clients (sameSockets_dropConnection env s user sc.ssl).clients c
    · rw [hfreed]

theorem lives_disconnect (h : Owned s) (hsc : sc ∈ s.clients)
    (hd : s.serverChDisconnectClient env sc.ssl = .ok t) (c : Ssl) : Lives c s t := by
  have hcb : Lives c s (s.cbClDc env sc) := lives_cbClDc h sc c
  refine hcb.trans ?_
  have hfound : s.clients.search sc.ssl.fd = some sc := OrderedSet.search_eq_some.mpr ⟨hsc, rfl⟩
  have hclients : (s.cbClDc env sc).clients = s.clients := (sameSockets_cbClDc env s sc).clients
  simp only [serverChDisconnectClient, serverChClientDisconnected, hfound] at hd
  cases hd
  have hstage := stage_erased (hclients ▸ hsc) (t := { s.cbClDc env sc with
    clients := (s.cbClDc env sc).clients.erase sc.ssl.fd
    master := (s.cbClDc env sc).master.erase sc.ssl.fd
    freed := (s.cbClDc env sc).freed ++ [sc.ssl]
    opened := (s.cbClDc env sc).opened.erase sc.ssl.fd }) rfl
  by_cases hc : c = sc.ssl
  · subst hc
    refine .one (e := .closed) ?_ (List.append_nil _).symm ?_
    · rw [hstage, Function.update_self, stage_of_mem (hclients ▸ hsc)]
      refine .closed ?_
      rw [ServerClient.stage]
      split <;> simp
    · rw [List.count_append, List.count_singleton_self]
      rfl
  · refine .still (by rw [hstage, Function.update_of_ne hc]) rfl ?_
    rw [List.count_append, List.count_singleton, if_neg (by simpa using Ne.symm hc), Nat.add_zero]

theorem lives_kickLoop {tid : Int32} {conns : List Ssl} (h : Owned s)
    (htarget : KickTarget tid conns s) (hk : s.kickLoop env conns = .ok t) (c : Ssl) :
    Lives c s t := by
  induction conns generalizing s with
  | nil => cases hk; exact .refl c _
  | cons c' conns ih =>
    obtain ⟨sc, m, hm, hd, rfl, rfl, hnext⟩ := htarget.next env
    simp only [kickLoop, hm] at hk
    exact (lives_disconnect h hd.mem hm c).trans (ih (h.disconnected hd) hnext hk)

theorem lives_logout (h : Owned s) (hsc : sc ∈ s.clients) (hu : s.userOf sc = some user)
    (c : Ssl) : Lives c s (s.logout env sc.ssl user) := by
  obtain ⟨hpos, huser, hid⟩ := userOf_eq_some.mp hu
  have huser' : user ∈ (s.serverChClientAuthed (-1) sc.ssl).users := huser
  obtain ⟨out, hsent, hout, hfreed⟩ :=
    sent_dropConnection env (s.serverChClientAuthed (-1) sc.ssl) user sc.ssl
  have hstage := stage_told hsc (sameSockets_logout env s user sc.ssl).clients
  by_cases hc : c = sc.ssl
  · subst hc
    -- it is nobody's any more when the friends are told
    have hno : ¬ Connected ((s.serverChClientAuthed (-1) sc.ssl).removeConnection user sc.ssl)
        sc.ssl := by
      rintro ⟨u, hin, hcu⟩
      rcases (mem_removeConnection huser' u).mp hin with ⟨hin, hne⟩ | rfl
      · obtain ⟨sc', hsc', hssl, hid'⟩ := h.owned u hin _ hcu
        rw [OrderedSet.eq_of_key_eq hsc' hsc (by rw [hssl])] at hid'
        exact hne (hid'.symm.trans hid.symm)
      · rw [ServerUser.removeConnection_connections] at hcu
        exact (h.listed user huser).2.1.not_mem_erase hcu
    refine .one (e := .loggedOut) ?_ ?_ (by rw [logout, hfreed]; rfl)
    · rw [hstage, Function.update_self, stage_of_mem hsc, ServerClient.stage, if_pos hpos]
      exact .loggedOut
    · rw [logout, hsent, inbox_append, inbox_of_not fun data hx => hno (hout _ hx).1]
      rfl
  · refine lives_sends h (hout.mono fun _ => connected_of_removed huser') ?_ hsent
      (by rw [logout, hfreed]; rfl)
    rw [hstage, Function.update_of_ne hc]

/-! ## The answers -/

theorem inbox_sendToClient (ssl : Ssl) (m : ServerMsg) :
    inbox c (sendToClient env ssl m) = if ssl = c then [packet env m] else [] := by
  by_cases hc : ssl = c <;> simp [inbox, sendToClient, hc]

/-- The answer to a client that is not logged in. -/
theorem lives_answered (hsc : sc ∈ s.clients) (hun : ¬ 0 < sc.id) (hm : m.isAnswer = true)
    (db : Database) (c : Ssl) :
    Lives c s (send { s with db := db } (sendToClient env sc.ssl m)) := by
  by_cases hc : sc.ssl = c
  · subst hc
    refine .one (e := .got env m) ?_ ?_ rfl
    · have hnow : (send { s with db := db } (sendToClient env sc.ssl m)).stage sc.ssl = sc.stage :=
        stage_of_mem (s := send { s with db := db } _) hsc
      rw [hnow, stage_of_mem hsc, ServerClient.stage, if_neg hun]
      exact .answered hm
    · rw [send, inbox_append, inbox_sendToClient, if_pos rfl]
      rfl
  · refine .still (stage_congr_clients rfl c) ?_ rfl
    rw [send, inbox_append, inbox_sendToClient, if_neg hc, List.append_nil]

/-- A login that fails is answered. One that succeeds makes the connection its
user's, and sends a welcome first. -/
theorem reqLogin_eq (h : Owned s) (lib : Externals) (env : Env) (ssl : Ssl)
    (uname upw : List UInt8) :
    (∃ msg, ServerMsg.isAnswer msg = true ∧
      s.reqLogin lib env ssl uname upw = s.send (sendToClient env ssl msg)) ∨
    ∃ (m : ServerState) (user : ServerUser), 0 < user.id ∧ m.sent = s.sent ∧ m.freed = s.freed ∧
      m.clients = (s.serverChClientAuthed user.id ssl).clients ∧
      ∃ out, (out = [] ∨ out = (m.send (sendToClient env ssl (.welcome uname))).sendToFriends env
          user (.friendOnline user.id user.username)) ∧
        s.reqLogin lib env ssl uname upw =
          (m.send (sendToClient env ssl (.welcome uname))).send out := by
  unfold reqLogin
  obtain ⟨res, hauth⟩ | ⟨user, hfound, hauth⟩ | ⟨row, hrow, _, _, hauth⟩ :=
    authorizeClient_cases lib env s ssl uname upw
  · rw [hauth]
    exact .inl ⟨.authFailed _ _, rfl, rfl⟩
  · rw [hauth]
    refine .inr ⟨(s.addConnection user ssl).serverChClientAuthed user.id ssl,
      user.addConnection ssl, h.positive user (mapUsername_eq_some hfound).1, rfl, rfl, rfl, ?_⟩
    simp only [ne_eq, not_true_eq_false, if_false]
    split
    · exact ⟨_, .inr rfl, rfl⟩
    · exact ⟨[], .inl rfl, by simp only [send, List.append_nil]⟩
  · rw [hauth]
    have hpos : 0 < row.id := Int32.lt_iff_toInt_lt.mpr (s.db.users.ids row hrow).1
    refine .inr ⟨(s.serverChClientAuthed row.id ssl).addServerUser (ServerUser.create row.id ssl
      uname (sqlChLoadPrivileges (env.sqlOk .loadPrivileges) s.db row.id)), ServerUser.create row.id
      ssl uname (sqlChLoadPrivileges (env.sqlOk .loadPrivileges) s.db row.id), hpos, rfl, rfl, rfl,
      ?_⟩
    simp only [ne_eq, reduceCtorEq, not_false_eq_true, if_true]
    split
    · exact ⟨_, .inr rfl, rfl⟩
    · exact ⟨[], .inl rfl, by simp only [send, List.append_nil]⟩

theorem lives_reqLogin (h : Owned s) (hsc : sc ∈ s.clients) (hun : ¬ 0 < sc.id)
    (uname upw : List UInt8) (c : Ssl) : Lives c s (s.reqLogin lib env sc.ssl uname upw) := by
  have howned : Owned (s.reqLogin lib env sc.ssl uname upw) := h.loggedIn hsc hun uname upw
  obtain ⟨msg, hmsg, ht⟩ | ⟨m, user, hpos, hsent, hfreed, hclients, out, hout, ht⟩ :=
    reqLogin_eq h lib env sc.ssl uname upw
  · rw [ht]
    exact lives_answered hsc hun hmsg s.db c
  rw [ht] at howned ⊢
  have hstage := stage_told hsc (t := m.send (sendToClient env sc.ssl (.welcome uname))) hclients
  have hwelcome : Lives c s (m.send (sendToClient env sc.ssl (.welcome uname))) := by
    by_cases hc : c = sc.ssl
    · subst hc
      refine .one (e := .got env (.welcome uname)) ?_ ?_ (by rw [send, hfreed]; rfl)
      · rw [hstage, Function.update_self, stage_of_mem hsc, ServerClient.stage, if_neg hun,
          ServerClient.stage, if_pos hpos]
        exact .welcomed uname user.id
      · rw [send, hsent, inbox_append, inbox_sendToClient, if_pos rfl]
        rfl
    · refine .still (by rw [hstage, Function.update_of_ne hc]) ?_ (by rw [send, hfreed])
      rw [send, hsent, inbox_append, inbox_sendToClient, if_neg (Ne.symm hc), List.append_nil]
  have hon : InSession (m.send (sendToClient env sc.ssl (.welcome uname))) out := by
    rcases hout with rfl | rfl
    · exact .nil _
    · exact inSession_sendToFriends rfl
  have hbefore : Owned (m.send (sendToClient env sc.ssl (.welcome uname))) :=
    howned.same rfl fun _ hin => hin
  exact hwelcome.trans (lives_send hbefore hon c)

theorem lives_reqRegister (hsc : sc ∈ s.clients) (hun : ¬ 0 < sc.id) (uname upw : List UInt8)
    (c : Ssl) : Lives c s (s.reqRegister lib env sc.ssl uname upw) := by
  simp only [reqRegister]
  split
  · exact lives_answered hsc hun rfl _ c
  · exact lives_answered hsc hun rfl _ c

/-! ## Every event -/

theorem lives_addFriend (h : Owned s) (uid : Int32) (c : Ssl) :
    Lives c s (s.addFriend env user uid) := by
  have hto : ∀ (id : Int32) (m : ServerMsg), m.inSession = true →
      InSession s (sendToUser env (s.getUserById id) m) :=
    fun id m hm => inSession_sendToUser hm mem_of_getUserById
  simp only [addFriend, sendFriendRequest]
  split
  · split
    · split
      · exact lives_sends h (hto _ _ rfl) rfl rfl rfl
      · exact lives_sends h (hto _ _ rfl) rfl rfl rfl
    · exact lives_send h (hto _ _ rfl) c
  · exact .refl c s

theorem lives_removeFriend (h : Owned s) (uid : Int32) (c : Ssl) :
    Lives c s (s.removeFriend env user uid) := by
  simp only [removeFriend]
  split
  · rw [send_send]
    refine lives_sends h (.append ?_ ?_) rfl rfl rfl
    · exact inSession_sendToUser rfl mem_of_getUserById
    · exact inSession_sendToUser rfl mem_of_getUserById
  · exact .still rfl rfl rfl

theorem lives_cmdKickId {tid : Int32} (h : Owned s) (hk : s.cmdKickId env tid = .ok t) (c : Ssl) :
    Lives c s t := by
  simp only [cmdKickId] at hk
  split at hk
  · next tuser htid =>
    obtain ⟨huser, _⟩ := getUserById_eq_some.mp htid
    generalize hout : sendToUser env (some tuser) _ = out at hk
    have hsent : Owned (s.send out) := h.same rfl fun _ hsc => hsc
    refine (lives_send h ?_ c).trans (lives_kickLoop hsent (hsent.kickTarget huser) hk c)
    rw [← hout]
    exact inSession_sendToUser rfl fun u hu => by cases hu; exact huser
  · cases hk
    exact .refl c _

theorem serveAuth_whisper (tid : Int32) (msg : List UInt8) :
    serveAuth env s ssl user (.whisper tid (some msg)) =
      .ok (match s.getUserById tid with
        | some tuser => s.whisper env user tuser msg
        | none => s) := by
  unfold serveAuth
  cases htid : s.getUserById tid with
  | some tuser => simp only [htid]
  | none => simp only [htid]

/-- Whatever a user asks for. -/
theorem lives_serveAuth (h : Owned s) (hsc : sc ∈ s.clients) (hu : s.userOf sc = some user)
    (cmd : Command) (hserve : serveAuth env s sc.ssl user cmd = .ok t) (c : Ssl) :
    Lives c s t := by
  have hself : ∀ u ∈ some user, u ∈ s.users := fun u hmem => by
    cases hmem; exact (userOf_eq_some.mp hu).2.1
  cases cmd with
  | broadcast msg =>
    obtain rfl := Except.ok.inj hserve
    exact lives_send h (inSession_sendToAll rfl) c
  | cmdKickId tid =>
    cases tid with
    | some tid => exact lives_cmdKickId h hserve c
    | none => obtain rfl := Except.ok.inj hserve; exact .refl c s
  | whisper tid msg =>
    cases msg with
    | some msg =>
      obtain rfl := Except.ok.inj ((serveAuth_whisper tid msg).symm.trans hserve)
      split
      · next tuser htid =>
        refine lives_send h (inSession_sendToUser rfl fun u hmem => ?_) c
        exact mem_of_getUserById u (htid ▸ hmem)
      · exact .refl c s
    | none => obtain rfl := Except.ok.inj hserve; exact .refl c s
  | who =>
    obtain rfl := Except.ok.inj hserve
    exact lives_send h (inSession_sendToUser rfl hself) c
  | friends =>
    obtain rfl := Except.ok.inj hserve
    exact lives_send h (inSession_sendToUser rfl hself) c
  | logout => obtain rfl := Except.ok.inj hserve; exact lives_logout h hsc hu c
  | disconnect => exact lives_disconnect h hsc hserve c
  | grantPrivileges uid priv =>
    obtain rfl := Except.ok.inj hserve
    exact .still (stage_congr_clients rfl c) rfl rfl
  | addFriend uid => obtain rfl := Except.ok.inj hserve; exact lives_addFriend h uid c
  | removeFriend uid => obtain rfl := Except.ok.inj hserve; exact lives_removeFriend h uid c
  | groupCreate name =>
    obtain rfl := Except.ok.inj hserve
    exact .still (stage_congr_clients rfl c) rfl rfl
  | _ => obtain rfl := Except.ok.inj hserve; exact .refl c s

/-- Whatever a client asks for. -/
theorem lives_serve (h : Owned s) (hsc : sc ∈ s.clients) (cmd : Command)
    (hserve : serve lib env s sc cmd = .ok t) (c : Ssl) : Lives c s t := by
  by_cases hpos : 0 < sc.id
  · cases hu : s.userOf sc with
    | some user =>
      rw [serve_of_user hu] at hserve
      exact lives_serveAuth h hsc hu cmd hserve c
    | none =>
      rw [userOf, if_pos hpos] at hu
      simp only [serve, if_pos hpos, hu] at hserve
      cases hserve
      exact .refl c s
  · simp only [serve, if_neg hpos] at hserve
    cases cmd with
    | reqLogin uname upw =>
      obtain rfl := Except.ok.inj hserve
      exact lives_reqLogin h hsc hpos uname upw c
    | reqRegister uname upw =>
      obtain rfl := Except.ok.inj hserve
      exact lives_reqRegister hsc hpos uname upw c
    | disconnect => exact lives_disconnect h hsc hserve c
    | _ => obtain rfl := Except.ok.inj hserve; exact .refl c s

theorem lives_accept (hptr : ∀ sc ∈ s.clients, sc.ssl.ptr ≠ ssl.ptr) (handshake : Bool) (c : Ssl) :
    Lives c s (s.accept ssl handshake) := by
  have hnew : s.stage ssl = .absent := stage_of_not fun sc hsc he => hptr sc hsc (by rw [he])
  cases handshake with
  | false =>
    have hclients : (s.accept ssl false).clients = s.clients := rfl
    have hfreed : (s.accept ssl false).freed = s.freed ++ [ssl] := rfl
    by_cases hc : ssl = c
    · subst hc
      refine .one (e := .refused) ?_ (List.append_nil _).symm ?_
      · rw [stage_congr_clients hclients, hnew]
        exact .refused
      · rw [hfreed, List.count_append, List.count_singleton_self]
        rfl
    · refine .still (stage_congr_clients hclients c) rfl ?_
      rw [hfreed, List.count_append, List.count_singleton, if_neg (by simpa using hc),
        Nat.add_zero]
  | true =>
    by_cases hfree : ∀ b ∈ s.clients, b.ssl.fd ≠ ssl.fd
    · have hstage := stage_connected (s := s) (t := s.accept ssl true) rfl hfree
      by_cases hc : c = ssl
      · subst hc
        refine .one (e := .connected) ?_ (List.append_nil _).symm rfl
        rw [hstage, Function.update_self, hnew]
        exact .connected
      · exact .still (by rw [hstage, Function.update_of_ne hc]) rfl rfl
    · refine .still (stage_congr fun sc _ => ?_) rfl rfl
      show sc ∈ s.clients.insert ⟨-1, ssl⟩ ↔ _
      rw [OrderedSet.mem_insert]
      exact or_iff_left fun hin => hfree hin.2

theorem lives_step (c : Ssl) (e : Event) (s t : ServerState) (h : Owned s)
    (hstep : ServerStep lib e s t) : Lives c s t := by
  cases hstep with
  | accept handshake _ _ hptr => exact lives_accept hptr handshake c
  | packet hp =>
    obtain ⟨sc, hsc, _, hproc, _⟩ := handled_packet hp
    rw [processPacket_eq] at hproc
    cases hread : readPacket s sc (Datapacket.createFromData _) with
    | error f => rw [hread] at hproc; cases hproc
    | ok r =>
      rw [hread] at hproc
      exact lives_serve h hsc r.1 hproc c
  | hangup hsc hd => exact lives_disconnect h hsc hd c

/-- In every run every connection lives a life that the machine allows: what
was ever written to it and how often it was freed is what the life says, and
the next event, whichever it is, goes on with it. -/
theorem connection_life {db : Database} {listener : Nat} {events : List Event}
    (hrun : Run (ServerStep lib) (ServerState.start db listener) events s) (c : Ssl) :
    (∃ life, Run LifeStep .absent life (s.stage c) ∧
      inbox c s.sent = life.filterMap LifeEvent.data ∧
      s.freed.count c = life.countP LifeEvent.frees) ∧
    ∀ e t, ServerStep lib e s t → Lives c s t := by
  have howned := hrun.invariant owned_step (owned_start db listener)
  have hlives : Lives c (ServerState.start db listener) s :=
    hrun.relates (Lives.refl c) (fun _ _ _ => Lives.trans) owned_step (lives_step c)
      (owned_start db listener)
  refine ⟨?_, fun e t => lives_step c e s t howned⟩
  obtain ⟨life, hlife, hsent, hfreed⟩ := hlives
  exact ⟨life, hlife, hsent, by rw [hfreed]; exact Nat.zero_add _⟩

theorem connection_life_two : ∃ life, Run LifeStep .absent life (.authed 1) ∧
    inbox ⟨1, 4⟩ twoUsers.sent = life.filterMap LifeEvent.data ∧
    twoUsers.freed.count ⟨1, 4⟩ = life.countP LifeEvent.frees :=
  (connection_life run_twoUsers ⟨1, 4⟩).1

end VhIM.Server
