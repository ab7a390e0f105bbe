import VhIM.Lib.Edges
import VhIM.Server.Integrity
import VhIM.Server.Life

/-! # The session table

What the server is for, as far as sessions go: a table that says of every
connection whether it is there and who is logged in on it, and six operations
on it. The three stores of the server refine it: every event is one operation
on the table, and who is online with which connections can be read off it. -/
namespace VhIM.Server
open VhIM.Lib VhIM.Lib.Runs VhIM.Network VhIM.Sql VhIM.Utility
open ServerState

abbrev SessionTable := Ssl → Stage

inductive SessionOp where
  | stay
  | connect (c : Ssl)
  | login (c : Ssl) (uid : Int32)
  | logout (c : Ssl)
  | close (c : Ssl)
  /-- Close every connection on which the user is logged in. -/
  | kick (uid : Int32)

def SessionTable.step (T : SessionTable) : SessionOp → SessionTable
  | .stay => T
  | .connect c => Function.update T c .unauthed
  | .login c uid => Function.update T c (.authed uid)
  | .logout c => Function.update T c .unauthed
  | .close c => Function.update T c .absent
  | .kick uid => fun c => if T c = .authed uid then .absent else T c

def SessionTable.empty : SessionTable := fun _ => .absent

namespace ServerState
variable (lib : Externals) (env : Env)

/-- What a command means for the table. A kick is read only where it is
allowed; a login depends on the accounts. -/
def commandOp (s : ServerState) (sc : ServerClient) (cmd : Command) : SessionOp :=
  match s.userOf sc, cmd with
  | some _, .cmdKickId (some tid) => .kick tid
  | some _, .logout => .logout sc.ssl
  | none, .reqLogin uname upw =>
    match sqlChCheckUserAuth (env.sqlOk .checkUserAuth) lib s.db uname upw with
    | (uid, .success) => .login sc.ssl uid
    | _ => .stay
  | _, .disconnect => .close sc.ssl
  | _, _ => .stay

/-- What an event means for the table. -/
def eventOp (s : ServerState) : Event → SessionOp
  | .accept ssl handshake => if handshake then .connect ssl else .stay
  | .packet fd env data =>
    match s.clients.search fd with
    | some sc =>
      match readPacket s sc (Datapacket.createFromData data) with
      | .ok (cmd, _) => s.commandOp lib env sc cmd
      | .error _ => .stay
    | none => .stay
  | .hangup fd _ =>
    match s.clients.search fd with
    | some sc => .close sc.ssl
    | none => .stay

end ServerState

variable {lib : Externals} {env : Env} {s t : ServerState} {c : Ssl} {sc : ServerClient}
  {user : ServerUser} {uid : Int32}

/-! ## Names -/

def DistinctNames (us : Users) : Prop := (us.rows.map UserRow.user).Nodup

instance decidableDistinctNames (us : Users) : Decidable (DistinctNames us) :=
  inferInstanceAs (Decidable (List.Nodup _))

theorem DistinctNames.eq {us : Users} (h : DistinctNames us) {r r' : UserRow} (hr : r ∈ us.rows)
    (hr' : r' ∈ us.rows) (hname : r.user = r'.user) : r = r' :=
  List.inj_on_of_nodup_map h hr hr' hname

theorem DistinctNames.setPrivilege {us : Users} (h : DistinctNames us) (v : Int32) (p : Nat) :
    DistinctNames (us.setPrivilege v p) := by
  rw [DistinctNames, Users.setPrivilege, List.map_map]
  have hkept : (UserRow.user ∘ fun r => if r.id = v then { r with privilege := p } else r) =
      UserRow.user := by
    funext r
    simp only [Function.comp]
    split <;> rfl
  rw [hkept]
  exact h

theorem DistinctNames.register (hname : ∀ a b, lib.nameEq a b = decide (a = b)) {db : Database}
    (h : DistinctNames db.users) (ok : SqlStep → Bool) (salt user pw : List UInt8) :
    DistinctNames (sqlChAddUser ok lib salt db user pw).2.users := by
  obtain hsame | ⟨users, hnone, hins, hadd⟩ := sqlChAddUser_cases ok lib salt db user pw
  · rw [hsame]
    exact h
  · rw [hadd, DistinctNames, Users.insert_rows hins, List.map_append, List.nodup_append]
    refine ⟨h, List.nodup_singleton _, ?_⟩
    rintro a ha b hb rfl
    obtain ⟨r, hr, rfl⟩ := List.mem_map.mp ha
    have hno := List.find?_eq_none.mp hnone r hr
    rw [List.map_singleton, List.mem_singleton] at hb
    exact hno (by rw [hname, hb]; exact decide_eq_true rfl)

theorem distinctNames_step (hname : ∀ a b, lib.nameEq a b = decide (a = b)) {e : Event}
    (h : DistinctNames s.db.users) (hstep : ServerStep lib e s t) : DistinctNames t.db.users := by
  have hdb := stored_of_step hstep
  generalize t.db = db at hdb ⊢
  cases hdb with
  | kept => exact h
  | granted v p =>
    simp only [sqlChUpdatePrivileges]
    split_ifs
    · exact h
    · exact h
    · exact h.setPrivilege _ _
  | addedFriend uid _ => rw [addFriend_accounts]; exact h
  | removedFriend user uid => rw [removeFriend_accounts]; exact h
  | createdGroup name _ => rw [sqlChCreateGroup_users]; exact h
  | registered upw _ => exact h.register hname _ _ _ _

/-! ## Reading the users off the table -/

theorem Sessions.stage_eq_authed (h : Sessions s) :
    s.stage c = .authed uid ↔ ∃ u ∈ s.users, u.id = uid ∧ c ∈ u.connections := by
  constructor
  · intro hc
    by_cases hin : ∃ sc ∈ s.clients, sc.ssl = c
    · obtain ⟨sc, hsc, rfl⟩ := hin
      rw [stage_of_mem hsc, ServerClient.stage] at hc
      split at hc
      · next hpos =>
        cases hc
        exact h.authed sc hsc hpos
      · cases hc
    · rw [stage_of_not fun sc hsc he => hin ⟨sc, hsc, he⟩] at hc
      cases hc
  · rintro ⟨u, hu, rfl, hc⟩
    obtain ⟨sc, hsc, rfl, hid⟩ := h.owned u hu c hc
    rw [stage_of_mem hsc, ServerClient.stage, if_pos (hid ▸ h.positive hu), hid]

/-! ## One operation each -/

theorem table_disconnected {ssl : Ssl} (hd : s.serverChDisconnectClient env ssl = .ok t)
    (hsc : sc ∈ s.clients) (hssl : sc.ssl = ssl) :
    t.stage = SessionTable.step s.stage (.close ssl) := by
  subst hssl
  obtain ⟨sc', hd⟩ := disconnected_of_ok hd
  exact stage_erased hsc hd.clients

theorem table_kick {tid : Int32} (h : Sessions s) (hk : s.cmdKickId env tid = .ok t) :
    t.stage = SessionTable.step s.stage (.kick tid) := by
  funext c
  show t.stage c = if s.stage c = .authed tid then .absent else s.stage c
  cases htid : s.getUserById tid with
  | none =>
    have hno : ¬ s.stage c = .authed tid := by
      rw [h.stage_eq_authed]
      rintro ⟨u, hu, hid, _⟩
      exact getUserById_eq_none.mp htid u hu hid
    simp only [cmdKickId, htid] at hk
    cases hk
    rw [if_neg hno]
  | some tuser =>
    obtain ⟨huser, hid⟩ := getUserById_eq_some.mp htid
    obtain ⟨t', ht', hkicked⟩ := cmdKickId_ends h.toOwned htid env
    rw [hk] at ht'
    cases ht'
    have hconn : s.stage c = .authed tid ↔ c ∈ tuser.connections := by
      rw [h.stage_eq_authed]
      constructor
      · rintro ⟨u, hu, hu', hc⟩
        rwa [OrderedSet.eq_of_key_eq hu huser (by rw [hu', hid])] at hc
      · exact fun hc => ⟨tuser, huser, hid, hc⟩
    split
    · next hc =>
      refine stage_of_not fun sc hsc he => ?_
      exact ((hkicked.clients sc).mp hsc).2 (he ▸ hconn.mp hc)
    · next hc =>
      refine stage_congr ?_
      rintro sc rfl
      rw [hkicked.clients]
      exact and_iff_left (mt hconn.mpr hc)

/-- Whom the name finds online is whom the database has found. -/
theorem table_login (h : Sessions s) (hname : ∀ a b, lib.nameEq a b = decide (a = b))
    (hnames : DistinctNames s.db.users) (hsc : sc ∈ s.clients) (uname upw : List UInt8) :
    (s.reqLogin lib env sc.ssl uname upw).stage = SessionTable.step s.stage
      (match sqlChCheckUserAuth (env.sqlOk .checkUserAuth) lib s.db uname upw with
        | (uid, .success) => .login sc.ssl uid
        | _ => .stay) := by
  rcases hauth : sqlChCheckUserAuth (env.sqlOk .checkUserAuth) lib s.db uname upw with ⟨uid, res⟩
  by_cases hres : res = .success
  · subst hres
    obtain ⟨row, hrow, heq, rfl⟩ := sqlChCheckUserAuth_success hauth
    have hpos : 0 < row.id := Int32.lt_iff_toInt_lt.mpr (s.db.users.ids row hrow).1
    have hvalid : row.id ≠ userIdInvalid := by
      intro he
      rw [he] at hpos
      exact absurd hpos (by decide)
    have hclients : (s.reqLogin lib env sc.ssl uname upw).clients =
        (s.serverChClientAuthed row.id sc.ssl).clients := by
      unfold reqLogin
      simp only [authorizeClient, hauth, true_and, ne_eq, hvalid, not_false_eq_true, if_true]
      cases hfound : s.mapUsername uname with
      | none =>
        simp only [reduceCtorEq, not_false_eq_true, if_true]
        split <;> rfl
      | some user =>
        obtain ⟨huser, huname⟩ := mapUsername_eq_some hfound
        obtain ⟨row', hrow', hid, hrowname⟩ := h.known user huser
        have hrowuser : row.user = uname := by simpa [hname] using heq
        have hsame : row' = row :=
          hnames.eq hrow' hrow (by rw [hrowname, huname, hrowuser])
        rw [← hsame, hid]
        simp only [not_true_eq_false, if_false]
        split <;> rfl
    rw [stage_told hsc hclients, ServerClient.stage, if_pos hpos]
    rfl
  · have hclients : (s.reqLogin lib env sc.ssl uname upw).clients = s.clients := by
      unfold reqLogin
      simp only [authorizeClient, hauth, hres, false_and, if_false]
      rfl
    have hstay : (match (uid, res) with
        | (uid, Sqlv.success) => SessionOp.login sc.ssl uid
        | _ => .stay) = .stay := by
      cases res <;> first | rfl | exact absurd rfl hres
    rw [hstay]
    exact funext fun c => stage_congr_clients hclients c

theorem table_serve (h : Sessions s) (hname : ∀ a b, lib.nameEq a b = decide (a = b))
    (hnames : DistinctNames s.db.users) (hsc : sc ∈ s.clients) (cmd : Command)
    (hserve : serve lib env s sc cmd = .ok t) :
    t.stage = SessionTable.step s.stage (s.commandOp lib env sc cmd) := by
  have hstay : ∀ {t : ServerState}, t.clients = s.clients →
      t.stage = SessionTable.step s.stage .stay :=
    fun hclients => funext fun c => stage_congr_clients hclients c
  cases hu : s.userOf sc with
  | some user =>
    rw [serve_of_user hu] at hserve
    unfold commandOp
    rw [hu]
    cases cmd with
    | cmdKickId tid =>
      cases tid with
      | some tid => exact table_kick h hserve
      | none => obtain rfl := Except.ok.inj hserve; exact hstay rfl
    | whisper tid msg =>
      cases msg with
      | some msg =>
        obtain rfl := Except.ok.inj ((serveAuth_whisper tid msg).symm.trans hserve)
        refine hstay ?_
        split <;> rfl
      | none => obtain rfl := Except.ok.inj hserve; exact hstay rfl
    | logout =>
      obtain rfl := Except.ok.inj hserve
      exact stage_told hsc (sameSockets_logout env s user sc.ssl).clients
    | disconnect => exact table_disconnected hserve hsc rfl
    | addFriend uid =>
      obtain rfl := Except.ok.inj hserve
      exact hstay (sameSessions_addFriend uid).clients
    | removeFriend uid =>
      obtain rfl := Except.ok.inj hserve
      exact hstay (sameSessions_removeFriend uid).clients
    | _ => obtain rfl := Except.ok.inj hserve; exact hstay rfl
  | none =>
    have hun : ¬ 0 < sc.id := by
      intro hpos
      obtain ⟨u, hmem, hid, _⟩ := h.authed sc hsc hpos
      rw [userOf_eq_some.mpr ⟨hpos, hmem, hid⟩] at hu
      cases hu
    simp only [serve, if_neg hun] at hserve
    unfold commandOp
    rw [hu]
    cases cmd with
    | reqLogin uname upw =>
      obtain rfl := Except.ok.inj hserve
      exact table_login h hname hnames hsc uname upw
    | reqRegister uname upw =>
      obtain rfl := Except.ok.inj hserve
      exact hstay (sameSessions_reqRegister uname upw).clients
    | disconnect => exact table_disconnected hserve hsc rfl
    | _ => obtain rfl := Except.ok.inj hserve; exact hstay rfl

theorem table_step (hname : ∀ a b, lib.nameEq a b = decide (a = b)) {e : Event}
    (h : Sessions s) (hnames : DistinctNames s.db.users) (hstep : ServerStep lib e s t) :
    t.stage = SessionTable.step s.stage (s.eventOp lib e) := by
  cases hstep with
  | @accept _ ssl handshake hlisten hfresh _ =>
    cases handshake with
    | false => exact funext fun c => stage_congr_clients (s := s) rfl c
    | true =>
      refine stage_connected (s := s) rfl fun sc hsc he => ?_
      exact hfresh (he ▸ (h.opened sc hsc).1)
  | @packet _ _ fd env data hp =>
    obtain ⟨sc, hsc, rfl, hproc, _⟩ := handled_packet hp
    have hfound : s.clients.search sc.ssl.fd = some sc := OrderedSet.search_eq_some.mpr ⟨hsc, rfl⟩
    rw [processPacket_eq] at hproc
    simp only [eventOp, hfound]
    cases hread : readPacket s sc (Datapacket.createFromData data) with
    | error f => rw [hread] at hproc; cases hproc
    | ok r =>
      rw [hread] at hproc
      exact table_serve h hname hnames hsc r.1 hproc
  | @hangup _ _ sc env hsc hd =>
    have hfound : s.clients.search sc.ssl.fd = some sc := OrderedSet.search_eq_some.mpr ⟨hsc, rfl⟩
    simp only [eventOp, hfound]
    exact table_disconnected hd hsc rfl

/-- In every run the stages of the connections are the table that the
operations of the events make of the empty one, and who is online with which
connections is what the table says. -/
theorem sessions_refine_table {db : Database} {listener : Nat} {events : List Event}
    {ops : List SessionOp} (hname : ∀ a b, lib.nameEq a b = decide (a = b))
    (hnames : DistinctNames db.users)
    (hrun : Run (logged (ServerStep lib) fun e s => [s.eventOp lib e])
      (ServerState.start db listener, []) events (s, ops)) :
    s.stage = ops.foldl SessionTable.step .empty ∧
    (∀ uid, (∃ u ∈ s.users, u.id = uid) ↔ ∃ c, s.stage c = .authed uid) ∧
    ∀ u ∈ s.users, ∀ c, c ∈ u.connections ↔ s.stage c = .authed u.id := by
  have hstart : Sessions (ServerState.start db listener) ∧
      DistinctNames (ServerState.start db listener).db.users :=
    ⟨sessions_start db listener, hnames⟩
  have hkeep : ∀ e s t, Sessions s ∧ DistinctNames s.db.users → ServerStep lib e s t →
      Sessions t ∧ DistinctNames t.db.users := fun e s t h hstep =>
    ⟨sessions_step hname e s t h.1 hstep, distinctNames_step hname h.2 hstep⟩
  have hempty : (ServerState.start db listener).stage = SessionTable.empty :=
    funext fun c => stage_of_not fun sc hsc => absurd hsc (OrderedSet.not_mem_empty sc)
  obtain ⟨h, _⟩ := hrun.unlogged.invariant hkeep hstart
  refine ⟨?_, ?_, ?_⟩
  · exact hrun.replays (I := fun s => Sessions s ∧ DistinctNames s.db.users) hkeep
      (fun e s t h hstep => table_step hname h.1 h.2 hstep) hstart hempty
  · intro uid
    simp only [h.stage_eq_authed]
    constructor
    · rintro ⟨u, hu, hid⟩
      obtain ⟨c, hc⟩ := List.exists_mem_of_ne_nil _ (h.listed u hu).2.2
      exact ⟨c, u, hu, hid, hc⟩
    · rintro ⟨c, u, hu, hid, _⟩
      exact ⟨u, hu, hid⟩
  · intro u hu c
    rw [h.stage_eq_authed]
    refine ⟨fun hc => ⟨u, hu, rfl, hc⟩, ?_⟩
    rintro ⟨v, hv, hid, hc⟩
    rwa [OrderedSet.eq_of_key_eq hv hu (by rw [hid])] at hc

theorem sessions_refine_table_login : ∃ s,
    Run (logged (ServerStep sampleExt) fun e s => [s.eventOp sampleExt e])
      (ServerState.start (sampleDb 0) 3, [])
      [.accept ⟨1, 4⟩ true, .packet 4 sampleEnv (loginOf [97])]
      (s, [.connect ⟨1, 4⟩, .login ⟨1, 4⟩ 1]) ∧
    s.stage = SessionTable.step (SessionTable.step .empty (.connect ⟨1, 4⟩)) (.login ⟨1, 4⟩ 1) := by
  let step := logged (ServerStep sampleExt) fun e s => [s.eventOp sampleExt e]
  let connected := (ServerState.start (sampleDb 0) 3).accept ⟨1, 4⟩ true
  have hfirst : step (.accept ⟨1, 4⟩ true) (ServerState.start (sampleDb 0) 3, [])
      (connected, [.connect ⟨1, 4⟩]) :=
    ⟨.accept true (by decide) (by decide) (by decide), rfl⟩
  have hsecond : step (.packet 4 sampleEnv (loginOf [97])) (connected, [.connect ⟨1, 4⟩])
      (connected.reqLogin sampleExt sampleEnv ⟨1, 4⟩ [97] [],
        [.connect ⟨1, 4⟩, .login ⟨1, 4⟩ 1]) := ⟨.packet rfl, rfl⟩
  have hrun := Run.cons hfirst (.single hsecond)
  exact ⟨_, hrun, (sessions_refine_table (fun _ _ => rfl) (by decide) hrun).1⟩

end VhIM.Server
