import VhIM.Server.Accounts

/-! # The two lookups of a login

The database finds an account by its own comparison of names, `map_username`
the user online by `strcmp` with the name typed, and everything after the
login by the id. -/
namespace VhIM.Server
open VhIM.Lib VhIM.Lib.Runs VhIM.Network VhIM.Sql
open ServerState

def Named (s : ServerState) : Prop :=
  ∀ u ∈ s.users, ∀ v ∈ s.users, u.username = v.username → u = v

/-- A name and a password, read from `data` as those of a MSG_REQ_LOGIN. -/
def ReadsLogin (data uname upw : List UInt8) : Prop :=
  8 ≤ data.length ∧ wireInt data 0 = MsgType.reqLogin.code ∧ ∃ dp dp',
    getString (atInt data 1) = .ok (uname, dp) ∧ getString dp = .ok (upw, dp')

/-- In the course of `events` the client `sc`, at which nobody is logged in,
logs in, and the database says that the account has the id `uid`. -/
structure LogsIn (lib : Externals) (start : ServerState) (events : List Event) (s : ServerState)
    (env : Env) (sc : ServerClient) (uname upw : List UInt8) (uid : Int32) : Prop where
  reached : ∃ pre data post, events = pre ++ .packet sc.ssl.fd env data :: post ∧
    Run (ServerStep lib) start pre s ∧ ReadsLogin data uname upw
  client : sc ∈ s.clients
  unauth : ¬ 0 < sc.id
  auth : sqlChCheckUserAuth (env.sqlOk .checkUserAuth) lib s.db uname upw = (uid, .success)

/-- After the login `get_user_by_id` finds the user the connection went to. -/
def FindsAttached (lib : Externals) (s : ServerState) (env : Env) (sc : ServerClient)
    (uname upw : List UInt8) (uid : Int32) : Prop :=
  ∃ user, (s.authorizeClient lib env sc.ssl uname upw).1 = some user ∧
    (s.reqLogin lib env sc.ssl uname upw).getUserById uid = some user

variable {lib : Externals} {env : Env} {s t : ServerState} {sc : ServerClient}
  {uname upw : List UInt8} {uid : Int32}

theorem named_start (db : Database) (listener : Nat) : Named (ServerState.start db listener) :=
  fun u hu => absurd hu (OrderedSet.not_mem_empty u)

/-- Whoever is new bears a new name. -/
theorem named_step (e : Event) (s t : ServerState) (h : Named s) (hstep : ServerStep lib e s t) :
    Named t := by
  have hboth : ∀ u ∈ t.users, ∀ v ∈ t.users, u.username = v.username → Knew s u → Knew s v →
      u = v := by
    rintro u hu v hv hname ⟨u', hu', hid, hn, _⟩ ⟨v', hv', hid', hn', _⟩
    have he := h u' hu' v' hv' (by rw [hn, hn', hname])
    exact OrderedSet.eq_of_key_eq hu hv (by rw [← hid, ← hid', he])
  rcases knew_of_step hstep with hknew | ⟨_, _, _, new, _, hnew, hknew⟩
  · exact fun u hu v hv hname => hboth u hu v hv hname (hknew u hu) (hknew v hv)
  · cases hnew with
    | @login row uname ssl _ _ hfree _ =>
      have hother : ∀ u, Knew s u → u.username ≠ uname := by
        rintro u ⟨u', hu', _, hn, _⟩
        exact hn ▸ hfree u' hu'
      intro u hu v hv hname
      rcases hknew u hu with hu' | rfl
      · rcases hknew v hv with hv' | rfl
        · exact hboth u hu v hv hname hu' hv'
        · exact absurd hname (hother u hu')
      · rcases hknew v hv with hv' | rfl
        · exact absurd hname.symm (hother v hv')
        · rfl

/-- Somebody online bears the name typed: the connection goes there. -/
theorem findsAttached_of_some {user : ServerUser}
    (hauth : sqlChCheckUserAuth (env.sqlOk .checkUserAuth) lib s.db uname upw = (uid, .success))
    (hpos : uid ≠ userIdInvalid) (hfound : s.mapUsername uname = some user) :
    FindsAttached lib s env sc uname upw uid ↔ user.id = uid := by
  have hcase : s.authorizeClient lib env sc.ssl uname upw = (some (user.addConnection sc.ssl),
      .userAlreadyLoggedIn, (s.addConnection user sc.ssl).serverChClientAuthed user.id sc.ssl) := by
    simp only [authorizeClient, hauth, hpos, ne_eq, not_false_eq_true, and_self, if_true, hfound]
  have husers : (s.reqLogin lib env sc.ssl uname upw).users =
      (s.addConnection user sc.ssl).users := by
    simp only [reqLogin, hcase, ne_eq, not_true_eq_false, if_false]
    split <;> rfl
  obtain ⟨huser, _⟩ := mapUsername_eq_some hfound
  have hin : user.addConnection sc.ssl ∈ (s.addConnection user sc.ssl).users :=
    (mem_addConnection huser _).mpr (.inr rfl)
  constructor
  · rintro ⟨u, hu, hid⟩
    rw [hcase] at hu
    cases hu
    exact (getUserById_eq_some.mp hid).2
  · rintro rfl
    refine ⟨user.addConnection sc.ssl, by rw [hcase], getUserById_eq_some.mpr ⟨?_, rfl⟩⟩
    rw [husers]
    exact hin

/-- Nobody does: there is a new user, which is found if its id is new. -/
theorem findsAttached_of_none
    (hauth : sqlChCheckUserAuth (env.sqlOk .checkUserAuth) lib s.db uname upw = (uid, .success))
    (hpos : uid ≠ userIdInvalid) (hnone : s.mapUsername uname = none) :
    FindsAttached lib s env sc uname upw uid ↔ ∀ u ∈ s.users, u.id ≠ uid := by
  generalize hnew : ServerUser.create uid sc.ssl uname
    (sqlChLoadPrivileges (env.sqlOk .loadPrivileges) s.db uid) = new
  have hcase : s.authorizeClient lib env sc.ssl uname upw =
      (some new, .success, s.serverChClientAuthed new.id sc.ssl) := by
    simp only [authorizeClient, hauth, hpos, ne_eq, not_false_eq_true, and_self, if_true, hnone,
      hnew]
  have husers : (s.reqLogin lib env sc.ssl uname upw).users = s.users.insert new := by
    simp only [reqLogin, hcase, ne_eq, reduceCtorEq, not_false_eq_true, if_true]
    split <;> rfl
  have hid : new.id = uid := by rw [← hnew]; rfl
  have hname : new.username = uname := by rw [← hnew]; rfl
  constructor
  · rintro ⟨u, hu, hfind⟩ v hv hvid
    rw [hcase] at hu
    cases hu
    -- the user of that id in the tree is the one who was there before
    have hin : v ∈ (s.reqLogin lib env sc.ssl uname upw).users := by
      rw [husers]
      exact OrderedSet.mem_insert.mpr (.inl hv)
    have he : new = v := Option.some.inj (hfind.symm.trans (getUserById_eq_some.mpr ⟨hin, hvid⟩))
    exact mapUsername_eq_none hnone v hv (by rw [← he, hname])
  · intro hfree
    refine ⟨new, by rw [hcase], getUserById_eq_some.mpr ⟨?_, hid⟩⟩
    rw [husers]
    refine OrderedSet.mem_insert.mpr (.inr ⟨rfl, ?_⟩)
    intro v hv he
    exact hfree v hv ((Int32.toInt_inj.mp he).trans hid)

/-- One login. -/
theorem findsAttached_iff (h : Named s)
    (hauth : sqlChCheckUserAuth (env.sqlOk .checkUserAuth) lib s.db uname upw = (uid, .success)) :
    FindsAttached lib s env sc uname upw uid ↔
      ∀ u ∈ s.users, u.id = uid ↔ u.username = uname := by
  have hpos : uid ≠ userIdInvalid := by
    obtain ⟨row, hrow, _, rfl⟩ := sqlChCheckUserAuth_success hauth
    intro he
    have hrange := (s.db.users.ids row hrow).1
    rw [he] at hrange
    exact absurd hrange (by decide)
  cases hfound : s.mapUsername uname with
  | some user =>
    rw [findsAttached_of_some hauth hpos hfound]
    obtain ⟨huser, hname⟩ := mapUsername_eq_some hfound
    constructor
    · rintro rfl u hu
      constructor
      · intro hid
        have he : u = user := OrderedSet.eq_of_key_eq hu huser (by rw [hid])
        rw [he, hname]
      · exact fun hu' => congrArg ServerUser.id (h u hu user huser (hu'.trans hname.symm))
    · exact fun hall => (hall user huser).mpr hname
  | none =>
    rw [findsAttached_of_none hauth hpos hfound]
    have hfree := mapUsername_eq_none hfound
    exact forall₂_congr fun u hu => (iff_false_right (hfree u hu)).symm

/-- In every run, each login that the database accepts attaches the connection
to the user found by the id exactly if whoever is online with the id typed the
name the same way. -/
theorem login_lookups_agree_iff {db : Database} {listener : Nat} {events : List Event}
    (h : LogsIn lib (ServerState.start db listener) events s env sc uname upw uid) :
    FindsAttached lib s env sc uname upw uid ↔
      ∀ u ∈ s.users, u.id = uid ↔ u.username = uname := by
  obtain ⟨_, _, _, _, hrun, _⟩ := h.reached
  exact findsAttached_iff (hrun.invariant named_step (named_start db listener)) h.auth

theorem login_lookups_agree_second : ∃ s,
    LogsIn sampleExt (ServerState.start (sampleDb 8) 3)
      [.accept ⟨1, 4⟩ true, .accept ⟨2, 5⟩ true, .packet 4 sampleEnv (loginOf [97]),
        .packet 5 sampleEnv (loginOf [97])] s sampleEnv ⟨-1, ⟨2, 5⟩⟩ [97] [] 1 ∧
      FindsAttached sampleExt s sampleEnv ⟨-1, ⟨2, 5⟩⟩ [97] [] 1 := by
  obtain ⟨hfirst, hsecond⟩ := twoClients_steps sampleExt (sampleDb 8)
  have hlogin : ServerStep sampleExt (.packet 4 sampleEnv (loginOf [97])) (twoClients (sampleDb 8))
      ((twoClients (sampleDb 8)).reqLogin sampleExt sampleEnv ⟨1, 4⟩ [97] []) := .packet rfl
  have hlogs : LogsIn sampleExt (ServerState.start (sampleDb 8) 3)
      [.accept ⟨1, 4⟩ true, .accept ⟨2, 5⟩ true, .packet 4 sampleEnv (loginOf [97]),
        .packet 5 sampleEnv (loginOf [97])]
      ((twoClients (sampleDb 8)).reqLogin sampleExt sampleEnv ⟨1, 4⟩ [97] []) sampleEnv
      ⟨-1, ⟨2, 5⟩⟩ [97] [] 1 :=
    ⟨⟨_, loginOf [97], [], rfl, .cons hfirst (.cons hsecond (.single hlogin)), by decide, rfl,
      _, _, rfl, rfl⟩, .tail _ (.head _), by decide, rfl⟩
  refine ⟨_, hlogs, (login_lookups_agree_iff hlogs).mpr ?_⟩
  decide

/-- A column that does not tell an upper from a lower case letter. -/
def caselessExt : Externals :=
  let lower (c : UInt8) : UInt8 := if 65 ≤ c ∧ c ≤ 90 then c + 32 else c
  ⟨fun _ => emptyDigest, fun a b => a.map lower = b.map lower⟩

/-- The second login of an account, with a capital letter, gets a user that no
lookup finds. -/
theorem login_lookups_disagree : ∃ s,
    LogsIn caselessExt (ServerState.start (sampleDb 8) 3)
      [.accept ⟨1, 4⟩ true, .accept ⟨2, 5⟩ true, .packet 4 sampleEnv (loginOf [97]),
        .packet 5 sampleEnv (loginOf [65])] s sampleEnv ⟨-1, ⟨2, 5⟩⟩ [65] [] 1 ∧
      ¬ FindsAttached caselessExt s sampleEnv ⟨-1, ⟨2, 5⟩⟩ [65] [] 1 := by
  obtain ⟨hfirst, hsecond⟩ := twoClients_steps caselessExt (sampleDb 8)
  have hlogin : ServerStep caselessExt (.packet 4 sampleEnv (loginOf [97]))
      (twoClients (sampleDb 8))
      ((twoClients (sampleDb 8)).reqLogin caselessExt sampleEnv ⟨1, 4⟩ [97] []) := .packet rfl
  refine ⟨_, ⟨⟨_, loginOf [65], [], rfl, .cons hfirst (.cons hsecond (.single hlogin)), by decide,
    rfl, _, _, rfl, rfl⟩, .tail _ (.head _), by decide, rfl⟩, ?_⟩
  rintro ⟨user, hattached, hfound⟩
  cases hattached
  cases hfound

end VhIM.Server
