import VhIM.Server.Connections

/-! # Session consistency

Who is logged in where is stored three times: in the ids of `clients`, in the
tree `users`, and in each user's list of connections. The invariant ties the
three together. Only two things happen to it: a connection is detached from
its user (logout, disconnect, kick, hang-up) or attached to one (login). -/
namespace VhIM.Server
open VhIM.Lib VhIM.Lib.Runs VhIM.Network VhIM.Sql VhIM.Utility
open ServerState

/-- What holds between any two events. -/
structure Sessions (s : ServerState) : Prop where
  authed : ∀ sc ∈ s.clients, 0 < sc.id → ∃ u ∈ s.users, u.id = sc.id ∧ sc.ssl ∈ u.connections
  owned : ∀ u ∈ s.users, ∀ c ∈ u.connections, ∃ sc ∈ s.clients, sc.ssl = c ∧ sc.id = u.id
  listed : ∀ u ∈ s.users, u.Counted ∧ u.connections.Nodup ∧ u.connections ≠ []
  known : ∀ u ∈ s.users, ∃ row ∈ s.db.users.rows, row.id = u.id ∧ row.user = u.username
  named : ∀ u ∈ s.users, ∀ v ∈ s.users, u.username = v.username → u = v
  opened : ∀ sc ∈ s.clients, sc.ssl.fd ∈ s.opened ∧ sc.ssl.fd ≠ s.listener

variable {lib : Externals} {env : Env} {s t : ServerState} {sc : ServerClient}

theorem Sessions.positive (h : Sessions s) {u : ServerUser} (hu : u ∈ s.users) : 0 < u.id := by
  obtain ⟨row, hrow, hid, _⟩ := h.known u hu
  rw [← hid, Int32.lt_iff_toInt_lt]
  exact (s.db.users.ids row hrow).1

theorem Sessions.toOwned (h : Sessions s) : Owned s :=
  ⟨h.owned, h.listed, fun _ hu => h.positive hu⟩

theorem sessions_start (db : Database) (listener : Nat) :
    Sessions (ServerState.start db listener) := by
  have hno : ∀ u, u ∉ (ServerState.start db listener).users := OrderedSet.not_mem_empty
  have hnoc : ∀ sc, sc ∉ (ServerState.start db listener).clients := OrderedSet.not_mem_empty
  exact ⟨fun sc h => absurd h (hnoc sc), fun u h => absurd h (hno u), fun u h => absurd h (hno u),
    fun u h => absurd h (hno u), fun u h => absurd h (hno u), fun sc h => absurd h (hnoc sc)⟩

/-! ## Events that leave the sessions alone -/

/-- Every account is still there under its id and its name. -/
def AccountsKept (db db' : Database) : Prop :=
  ∀ row ∈ db.users.rows, ∃ row' ∈ db'.users.rows, row'.id = row.id ∧ row'.user = row.user

theorem accountsKept_of_eq {db db' : Database} (h : db'.users = db.users) : AccountsKept db db' :=
  fun row hrow => ⟨row, by rwa [h], rfl, rfl⟩

theorem accountsKept_setPrivilege (db : Database) (uid : Int32) (p : Nat) :
    AccountsKept db { db with users := db.users.setPrivilege uid p } := by
  intro row hrow
  refine ⟨_, List.mem_map_of_mem hrow, ?_, ?_⟩ <;> split <;> rfl

theorem accountsKept_grant (uid priv : Int32) :
    AccountsKept s.db (s.grantPrivileges env uid priv).db := by
  simp only [grantPrivileges, sqlChUpdatePrivileges]
  split_ifs
  · exact accountsKept_of_eq rfl
  · exact accountsKept_of_eq rfl
  · exact accountsKept_setPrivilege _ _ _

theorem accountsKept_register (ssl : Ssl) (uname upw : List UInt8) :
    AccountsKept s.db (s.reqRegister lib env ssl uname upw).db := by
  rw [reqRegister_db]
  rcases sqlChAddUser_cases (env.sqlOk .addUser) lib env.saltBytes s.db uname upw with h | h
  · exact accountsKept_of_eq (by rw [h])
  · obtain ⟨users, _, hins, h⟩ := h
    intro row hrow
    refine ⟨row, ?_, rfl, rfl⟩
    rw [h]
    show row ∈ users.rows
    rw [Users.insert_rows hins]
    exact List.mem_append_left _ hrow

theorem Sessions.same (h : Sessions s) (hs : SameSessions s t) (hdb : AccountsKept s.db t.db) :
    Sessions t := by
  refine ⟨?_, ?_, ?_, ?_, ?_, ?_⟩
  · rw [hs.clients, hs.users]; exact h.authed
  · rw [hs.clients, hs.users]; exact h.owned
  · rw [hs.users]; exact h.listed
  · rw [hs.users]
    intro u hu
    obtain ⟨row, hrow, hid, hname⟩ := h.known u hu
    obtain ⟨row', hrow', hid', hname'⟩ := hdb row hrow
    exact ⟨row', hrow', hid'.trans hid, hname'.trans hname⟩
  · rw [hs.users]; exact h.named
  · rw [hs.clients, hs.opened, hs.listener]; exact h.opened

/-! ## A connection is detached -/

/-- The connection of `sc` goes from its user; among the clients somebody is
logged in at, all stay but `sc`. -/
theorem Sessions.detach (h : Sessions s) (hsc : sc ∈ s.clients) (husers : Detached sc s t)
    (hclients : ∀ sc', 0 < sc'.id →
      (sc' ∈ t.clients ↔ sc' ∈ s.clients ∧ sc'.ssl.fd ≠ sc.ssl.fd))
    (hdb : t.db = s.db)
    (hopened : ∀ sc' ∈ t.clients, sc'.ssl.fd ∈ t.opened ∧ sc'.ssl.fd ≠ t.listener) :
    Sessions t := by
  have hback : ∀ u ∈ t.users, ∃ v ∈ s.users, u.id = v.id ∧ u.username = v.username := by
    intro u hu
    rcases (husers u).mp hu with ⟨hu, _⟩ | ⟨v, hv, _, rfl, _⟩
    · exact ⟨u, hu, rfl, rfl⟩
    · exact ⟨v, hv, v.removeConnection_id _, v.removeConnection_username _⟩
  have ho := h.toOwned.detach hsc husers hclients
  refine ⟨?_, ho.owned, ho.listed, ?_, ?_, hopened⟩
  · intro sc' hsc' hpos
    obtain ⟨hmem, hfd⟩ := (hclients sc' hpos).mp hsc'
    obtain ⟨u, hu, hid, hconn⟩ := h.authed sc' hmem hpos
    by_cases hown : 0 < sc.id ∧ u.id = sc.id
    · have hne : sc'.ssl ≠ sc.ssl := fun he => hfd (by rw [he])
      have hin : sc'.ssl ∈ (u.removeConnection sc.ssl).connections := by
        rw [ServerUser.removeConnection_connections]
        exact (List.mem_erase_of_ne hne).mpr hconn
      exact ⟨_, (husers _).mpr (.inr ⟨u, hu, hown, rfl, List.ne_nil_of_mem hin⟩),
        (u.removeConnection_id _).trans hid, hin⟩
    · exact ⟨u, (husers u).mpr (.inl ⟨hu, hown⟩), hid, hconn⟩
  · intro u hu
    obtain ⟨v, hv, hid, hname⟩ := hback u hu
    obtain ⟨row, hrow, hrid, hrname⟩ := h.known v hv
    exact ⟨row, by rwa [hdb], hrid.trans hid.symm, hrname.trans hname.symm⟩
  · intro u hu v hv hname
    obtain ⟨u', hu', hid, hn⟩ := hback u hu
    obtain ⟨v', hv', hid', hn'⟩ := hback v hv
    have he := h.named u' hu' v' hv' (by rw [← hn, ← hn', hname])
    exact OrderedSet.eq_of_key_eq hu hv (by rw [hid, hid', he])

theorem Sessions.disconnected {ssl : Ssl} (h : Sessions s) (hd : Disconnected ssl sc s t) :
    Sessions t := by
  refine h.detach hd.mem hd.users (fun sc' _ => ?_) hd.db ?_
  · rw [hd.clients, OrderedSet.mem_erase, hd.fd]
  · intro sc' hsc'
    rw [hd.clients, OrderedSet.mem_erase] at hsc'
    obtain ⟨hopen, hne⟩ := h.opened sc' hsc'.1
    rw [hd.opened, hd.listener, Finset.mem_erase]
    exact ⟨⟨hsc'.2, hopen⟩, hne⟩


theorem Sessions.loggedOut {user : ServerUser} (h : Sessions s) (hsc : sc ∈ s.clients)
    (huser : s.userOf sc = some user) : Sessions (s.logout env sc.ssl user) := by
  have hsame := sameSockets_logout env s user sc.ssl
  refine h.detach hsc (detached_logout huser) (fun sc' hpos => logout_clients hsc sc' hpos)
    hsame.db ?_
  intro sc' hsc'
  rw [hsame.clients, mem_serverChClientAuthed hsc] at hsc'
  rw [hsame.opened, hsame.listener]
  rcases hsc' with ⟨hmem', _⟩ | rfl
  · exact h.opened sc' hmem'
  · exact h.opened sc hsc

/-! ## A connection is attached -/

/-- `sc`, at which nobody was logged in, is now a connection of `user`: of a
user online before, or of one who was not. -/
structure Attached (user : ServerUser) (sc : ServerClient) (s t : ServerState) : Prop where
  mem : sc ∈ s.clients
  unauthenticated : ¬ 0 < sc.id
  origin : (∃ u ∈ s.users, user = u.addConnection sc.ssl) ∨
    ((∀ u ∈ s.users, u.id ≠ user.id ∧ u.username ≠ user.username) ∧
      user.connections = [sc.ssl] ∧ user.Counted ∧
      ∃ row ∈ s.db.users.rows, row.id = user.id ∧ row.user = user.username)
  users : ∀ u, u ∈ t.users ↔ (u ∈ s.users ∧ u.id ≠ user.id) ∨ u = user
  clients : t.clients = (s.serverChClientAuthed user.id sc.ssl).clients
  db : t.db = s.db
  opened : t.opened = s.opened
  listener : t.listener = s.listener

namespace Attached
variable {user : ServerUser}

theorem mem_clients (ha : Attached user sc s t) (sc' : ServerClient) : sc' ∈ t.clients ↔
    (sc' ∈ s.clients ∧ sc'.ssl.fd ≠ sc.ssl.fd) ∨ sc' = { sc with id := user.id } := by
  rw [ha.clients]
  exact mem_serverChClientAuthed ha.mem _ _

theorem mem_user (ha : Attached user sc s t) : user ∈ t.users := (ha.users user).mpr (.inr rfl)

theorem mem_connections (ha : Attached user sc s t) : sc.ssl ∈ user.connections := by
  rcases ha.origin with ⟨u, _, rfl⟩ | ⟨_, hconn, _⟩
  · exact List.mem_cons_self
  · rw [hconn]
    exact List.mem_singleton_self _

/-- No other user bears the name. -/
theorem username_ne (ha : Attached user sc s t) (h : Sessions s) {u : ServerUser}
    (hu : u ∈ s.users) (hne : u.id ≠ user.id) : u.username ≠ user.username := by
  rcases ha.origin with ⟨v, hv, rfl⟩ | ⟨hno, _⟩
  · intro he
    exact hne (by rw [h.named u hu v hv he]; rfl)
  · exact (hno u hu).2

theorem toOwned (ha : Attached user sc s t) (h : Sessions s) : Owned t := by
  refine h.toOwned.attach user.id ha.mem ha.unauthenticated ?_ ha.clients
  intro u hu
  rcases (ha.users u).mp hu with ⟨hu, _⟩ | rfl
  · exact .inl hu
  · refine .inr ⟨rfl, ha.origin.imp_right ?_⟩
    rintro ⟨_, hconn, hcount, row, hrow, hid, _⟩
    exact ⟨hconn, hcount, Int32.lt_iff_toInt_lt.mpr (hid ▸ (s.db.users.ids row hrow).1)⟩

theorem authed (ha : Attached user sc s t) (h : Sessions s) : ∀ sc' ∈ t.clients, 0 < sc'.id →
    ∃ u ∈ t.users, u.id = sc'.id ∧ sc'.ssl ∈ u.connections := by
  intro sc' hsc' hpos
  rcases (ha.mem_clients sc').mp hsc' with ⟨hmem, _⟩ | rfl
  · obtain ⟨u, hu, hid, hconn⟩ := h.authed sc' hmem hpos
    by_cases he : u.id = user.id
    · rcases ha.origin with ⟨v, hv, rfl⟩ | ⟨hno, _⟩
      · have huv : u = v := OrderedSet.eq_of_key_eq hu hv (by rw [he]; rfl)
        rw [huv] at hconn
        exact ⟨_, ha.mem_user, by rw [← he, hid], List.mem_cons_of_mem _ hconn⟩
      · exact absurd he (hno u hu).1
    · exact ⟨u, (ha.users u).mpr (.inl ⟨hu, he⟩), hid, hconn⟩
  · exact ⟨user, ha.mem_user, rfl, ha.mem_connections⟩

theorem known (ha : Attached user sc s t) (h : Sessions s) : ∀ u ∈ t.users,
    ∃ row ∈ t.db.users.rows, row.id = u.id ∧ row.user = u.username := by
  rw [ha.db]
  intro u hu
  rcases (ha.users u).mp hu with ⟨hu, _⟩ | rfl
  · exact h.known u hu
  · rcases ha.origin with ⟨v, hv, rfl⟩ | ⟨_, _, _, hrow⟩
    · exact h.known v hv
    · exact hrow

theorem named (ha : Attached user sc s t) (h : Sessions s) : ∀ u ∈ t.users, ∀ v ∈ t.users,
    u.username = v.username → u = v := by
  intro u hu v hv hname
  rcases (ha.users u).mp hu with ⟨hu, hune⟩ | rfl
  · rcases (ha.users v).mp hv with ⟨hv, _⟩ | rfl
    · exact h.named u hu v hv hname
    · exact absurd hname (ha.username_ne h hu hune)
  · rcases (ha.users v).mp hv with ⟨hv, hvne⟩ | rfl
    · exact absurd hname.symm (ha.username_ne h hv hvne)
    · rfl

end Attached

theorem Sessions.attach {user : ServerUser} (h : Sessions s) (ha : Attached user sc s t) :
    Sessions t := by
  have ho := ha.toOwned h
  refine ⟨ha.authed h, ho.owned, ho.listed, ha.known h, ha.named h, ?_⟩
  rw [ha.opened, ha.listener]
  intro sc' hsc'
  rcases (ha.mem_clients sc').mp hsc' with ⟨hmem, _⟩ | rfl
  · exact h.opened sc' hmem
  · exact h.opened sc ha.mem

/-- A user of the id of a row is the user of the same row, hence of the same
name. -/
theorem Sessions.notOnline (h : Sessions s) {row : UserRow} (hrow : row ∈ s.db.users.rows)
    {uname : List UInt8} (hrowname : row.user = uname) (hnone : s.mapUsername uname = none) :
    ∀ v ∈ s.users, v.id ≠ row.id := by
  intro v hv hid
  obtain ⟨vrow, hvrow, hvid, hvname⟩ := h.known v hv
  have he := Users.eq_of_id_eq hvrow hrow (hvid.trans hid)
  exact mapUsername_eq_none hnone v hv (by rw [← hvname, he, hrowname])

theorem Sessions.loggedIn (h : Sessions s) (hname : ∀ a b, lib.nameEq a b = decide (a = b))
    (hsc : sc ∈ s.clients) (hun : ¬ 0 < sc.id) (uname upw : List UInt8) :
    Sessions (s.reqLogin lib env sc.ssl uname upw) := by
  obtain ⟨out, ht⟩ | ⟨out, user, hfound, ht⟩ | ⟨out, row, hrow, heq, hnone, ht⟩ :=
    reqLogin_cases lib env s sc.ssl uname upw
  · rw [ht]
    exact h.same (sameSessions_send s out) (accountsKept_of_eq rfl)
  · rw [ht]
    obtain ⟨huser, _⟩ := mapUsername_eq_some hfound
    exact h.attach ⟨hsc, hun, .inl ⟨user, huser, rfl⟩, mem_addConnection huser, rfl, rfl, rfl, rfl⟩
  · rw [ht]
    have hrowname : row.user = uname := by simpa [hname] using heq
    have hfree := mapUsername_eq_none hnone
    have hnew := h.notOnline hrow hrowname hnone
    exact h.attach ⟨hsc, hun,
      .inr ⟨fun v hv => ⟨hnew v hv, hfree v hv⟩, rfl, ServerUser.create_counted _ _ _ _,
        row, hrow, rfl, hrowname⟩,
      mem_addServerUser (s := s.serverChClientAuthed row.id sc.ssl) hnew, rfl, rfl, rfl, rfl⟩

/-! ## Every event -/

theorem Sessions.accept {ssl : Ssl} (h : Sessions s) (hopen : s.listener ∈ s.opened)
    (hfresh : ssl.fd ∉ s.opened) (handshake : Bool) : Sessions (s.accept ssl handshake) := by
  have hfd : ∀ sc ∈ s.clients, sc.ssl.fd ≠ ssl.fd := fun sc hsc he =>
    hfresh (he ▸ (h.opened sc hsc).1)
  have hne : ssl.fd ≠ s.listener := fun he => hfresh (he ▸ hopen)
  cases handshake with
  | false =>
    refine ⟨h.authed, h.owned, h.listed, h.known, h.named, ?_⟩
    intro sc hsc
    obtain ⟨hin, hnl⟩ := h.opened sc hsc
    exact ⟨Finset.mem_erase.mpr ⟨hnl, Finset.mem_insert_of_mem hin⟩, hnl⟩
  | true =>
    have hmem : ∀ sc, sc ∈ (s.accept ssl true).clients ↔ sc ∈ s.clients ∨ sc = ⟨-1, ssl⟩ := by
      intro sc
      simp only [ServerState.accept, if_true, serverChClientConnected, OrderedSet.mem_insert]
      exact or_congr_right ⟨fun h => h.1, fun h => ⟨h, hfd⟩⟩
    refine ⟨?_, ?_, h.listed, h.known, h.named, ?_⟩
    · intro sc hsc hpos
      rcases (hmem sc).mp hsc with hsc | rfl
      · exact h.authed sc hsc hpos
      · exact absurd hpos (show ¬ (0 : Int32) < -1 by decide)
    · intro u hu c hc
      obtain ⟨sc, hsc, hssl⟩ := h.owned u hu c hc
      exact ⟨sc, (hmem sc).mpr (.inl hsc), hssl⟩
    · intro sc hsc
      rcases (hmem sc).mp hsc with hsc | rfl
      · obtain ⟨hin, hnl⟩ := h.opened sc hsc
        exact ⟨Finset.mem_insert_of_mem hin, hnl⟩
      · exact ⟨Finset.mem_insert_self _ _, hne⟩

theorem Sessions.handled (h : Sessions s) (hname : ∀ a b, lib.nameEq a b = decide (a = b))
    (hsc : sc ∈ s.clients) {data : List UInt8}
    (ht : Handled lib env sc.ssl data (s.userOf sc) s t) : Sessions t := by
  generalize hu : s.userOf sc = u at ht
  cases ht with
  | kept u s out => exact h.same (sameSessions_send s out) (accountsKept_of_eq rfl)
  | kicked out _ _ _ hloop =>
    exact kickLoop_keeps (fun c _ sc s t hs hd => hs.disconnected hd) hloop
      (h.same (sameSessions_send s out) (accountsKept_of_eq rfl))
  | loggedOut s user _ => exact h.loggedOut hsc hu
  | disconnected u _ hd =>
    obtain ⟨sc', hd⟩ := disconnected_of_ok hd
    exact h.disconnected hd
  | granted s user _ => exact h.same (sameSessions_db s _) (accountsKept_grant _ _)
  | addedFriend s user _ =>
    exact h.same (sameSessions_addFriend _) (accountsKept_of_eq (addFriend_accounts _))
  | removedFriend s user _ =>
    exact h.same (sameSessions_removeFriend _) (accountsKept_of_eq (removeFriend_accounts _))
  | createdGroup s user name _ =>
    exact h.same (sameSessions_db s _) (accountsKept_of_eq (groupCreate_accounts name))
  | loggedIn s uname upw _ =>
    refine h.loggedIn hname hsc (fun hpos => ?_) uname upw
    obtain ⟨v, hv, hid, _⟩ := h.authed sc hsc hpos
    rw [userOf, if_pos hpos] at hu
    exact getUserById_eq_none.mp hu v hv hid
  | registered s uname upw _ =>
    exact h.same (sameSessions_reqRegister uname upw) (accountsKept_register sc.ssl uname upw)

theorem sessions_step (hname : ∀ a b, lib.nameEq a b = decide (a = b)) (e : Event)
    (s t : ServerState) (h : Sessions s) (hstep : ServerStep lib e s t) : Sessions t := by
  cases hstep with
  | accept handshake hopen hfresh _ => exact h.accept hopen hfresh handshake
  | packet hp =>
    obtain ⟨sc, hsc, _, _, hhandled⟩ := handled_packet hp
    exact h.handled hname hsc hhandled
  | hangup hsc hd =>
    obtain ⟨sc', hd⟩ := disconnected_of_ok hd
    exact h.disconnected hd

/-! ## Consistency -/

/-- The three records of who is logged in where agree. -/
structure SessionConsistent (s : ServerState) : Prop where
  /-- A client with an id belongs to the one user with that id, once. -/
  client : ∀ sc ∈ s.clients, 0 < sc.id → ∃ u ∈ s.users, u.id = sc.id ∧
    u.connections.count sc.ssl = 1 ∧ ∀ v ∈ s.users, v.id = sc.id → v = u
  /-- A connection of a user is the one of exactly one client, with the user's
  id. -/
  connection : ∀ u ∈ s.users, ∀ c ∈ u.connections, ∃ sc ∈ s.clients, sc.ssl = c ∧ sc.id = u.id ∧
    ∀ sc' ∈ s.clients, sc'.ssl = c → sc' = sc
  counted : ∀ u ∈ s.users, u.connections ≠ [] ∧ u.conLen = u.connections.length
  distinct : ∀ u ∈ s.users, ∀ v ∈ s.users, u.id = v.id ∨ u.username = v.username → u = v

theorem Sessions.consistent (h : Sessions s) : SessionConsistent s := by
  have hid : ∀ u ∈ s.users, ∀ v ∈ s.users, u.id = v.id → u = v := fun u hu v hv he =>
    OrderedSet.eq_of_key_eq hu hv (by rw [he])
  refine ⟨?_, ?_, fun u hu => ⟨(h.listed u hu).2.2, (h.listed u hu).1⟩, ?_⟩
  · intro sc hsc hpos
    obtain ⟨u, hu, huid, hconn⟩ := h.authed sc hsc hpos
    exact ⟨u, hu, huid, List.count_eq_one_of_mem (h.listed u hu).2.1 hconn,
      fun v hv hvid => hid v hv u hu (hvid.trans huid.symm)⟩
  · intro u hu c hc
    obtain ⟨sc, hsc, hssl, hscid⟩ := h.owned u hu c hc
    exact ⟨sc, hsc, hssl, hscid,
      fun sc' hsc' hssl' => OrderedSet.eq_of_key_eq hsc' hsc (by rw [hssl', hssl])⟩
  · rintro u hu v hv (he | he)
    · exact hid u hu v hv he
    · exact h.named u hu v hv he

/-- The records agree in every state that events lead to, from a server that
has just been started. -/
theorem sessions_consistent {db : Database} {listener : Nat} {events : List Event}
    (hname : ∀ a b, lib.nameEq a b = decide (a = b))
    (hrun : Run (ServerStep lib) (ServerState.start db listener) events s) :
    SessionConsistent s :=
  (hrun.invariant (sessions_step hname) (sessions_start db listener)).consistent

/-! ## A server to run -/

/-- The SHA-256 digest of the empty text. -/
def emptyDigest : List UInt8 :=
  [0xe3, 0xb0, 0xc4, 0x42, 0x98, 0xfc, 0x1c, 0x14, 0x9a, 0xfb, 0xf4, 0xc8, 0x99, 0x6f, 0xb9, 0x24,
   0x27, 0xae, 0x41, 0xe4, 0x64, 0x9b, 0x93, 0x4c, 0xa4, 0x95, 0x99, 0x1b, 0x78, 0x52, 0xb8, 0x55]

/-- Enough for accounts with an empty salt and an empty password. -/
def sampleExt : Externals := ⟨fun _ => emptyDigest, fun a b => decide (a = b)⟩

def sampleUsers : Users where
  rows := [⟨1, [97], ubytesToString emptyDigest, [], 0⟩,
    ⟨2, [98], ubytesToString emptyDigest, [], 0⟩]
  nextId := 3
  pos := by decide
  ids := by decide
  nodup := by decide

def sampleDb (privilege : Nat) : Database :=
  { Database.empty with users := sampleUsers.setPrivilege 1 privilege }

def sampleEnv : Env := ⟨fun _ => 0, fun _ _ => true, []⟩

def packetOf (type : MsgType) (fields : List Field) : List UInt8 :=
  packetBytes type.code (encodeFields fields)

def loginOf (name : List UInt8) : List UInt8 := packetOf .reqLogin [.string name, .string []]

theorem sessions_consistent_login : ∃ s,
    Run (ServerStep sampleExt) (ServerState.start (sampleDb 0) 3)
      [.accept ⟨1, 4⟩ true, .packet 4 sampleEnv (loginOf [97])] s ∧
    (s.getUserById 1).isSome ∧ SessionConsistent s := by
  have hlogin : Run (ServerStep sampleExt) (ServerState.start (sampleDb 0) 3)
      [.accept ⟨1, 4⟩ true, .packet 4 sampleEnv (loginOf [97])] _ :=
    .cons (.accept true (by decide) (by decide)
        fun sc hsc => absurd hsc (OrderedSet.not_mem_empty sc))
      (.cons (.packet rfl) (.nil _))
  exact ⟨_, hlogin, rfl, sessions_consistent (fun _ _ => rfl) hlogin⟩

/-! ### Two clients to run with -/

/-- The first two connections of a server that listens at 3. -/
def twoClients (db : Database) : ServerState :=
  ((ServerState.start db 3).accept ⟨1, 4⟩ true).accept ⟨2, 5⟩ true

/-- Both are logged in, the first as a user who may kick. -/
def twoUsers : ServerState :=
  ((twoClients (sampleDb 8)).reqLogin sampleExt sampleEnv ⟨1, 4⟩ [97] []).reqLogin
    sampleExt sampleEnv ⟨2, 5⟩ [98] []

theorem twoClients_steps (lib : Externals) (db : Database) :
    ServerStep lib (.accept ⟨1, 4⟩ true) (ServerState.start db 3)
      ((ServerState.start db 3).accept ⟨1, 4⟩ true) ∧
    ServerStep lib (.accept ⟨2, 5⟩ true) ((ServerState.start db 3).accept ⟨1, 4⟩ true)
      (twoClients db) := by
  refine ⟨.accept true (Finset.mem_singleton_self 3) (show (4 : Nat) ∉ ({3} : Finset Nat) by decide)
    fun sc hsc => absurd hsc (OrderedSet.not_mem_empty sc), ?_⟩
  refine .accept true (show (3 : Nat) ∈ ({4, 3} : Finset Nat) by decide)
    (show (5 : Nat) ∉ ({4, 3} : Finset Nat) by decide) ?_
  intro sc hsc
  obtain rfl : sc = ⟨-1, ⟨1, 4⟩⟩ := List.mem_singleton.mp hsc
  decide

theorem run_twoUsers : Run (ServerStep sampleExt) (ServerState.start (sampleDb 8) 3)
    [.accept ⟨1, 4⟩ true, .accept ⟨2, 5⟩ true, .packet 4 sampleEnv (loginOf [97]),
      .packet 5 sampleEnv (loginOf [98])] twoUsers := by
  obtain ⟨hfirst, hsecond⟩ := twoClients_steps sampleExt (sampleDb 8)
  have hlogin : ServerStep sampleExt (.packet 4 sampleEnv (loginOf [97])) (twoClients (sampleDb 8))
      ((twoClients (sampleDb 8)).reqLogin sampleExt sampleEnv ⟨1, 4⟩ [97] []) := .packet rfl
  exact .cons hfirst (.cons hsecond (.cons hlogin (.single (.packet rfl))))

end VhIM.Server
