import VhIM.Server.Sessions

/-! # Accounts and who is online

What an event can do to the tree `users` and to the table of the same name,
whatever the comparison of names: one lemma for each, from the cases of the
packets. -/
namespace VhIM.Server
open VhIM.Lib VhIM.Lib.Runs VhIM.Network VhIM.Sql
open ServerState

variable {lib : Externals} {env : Env} {s t : ServerState} {sc : ServerClient} {e : Event}

/-! ## The tree -/

/-- Somebody of this id, name and level was online. -/
def Knew (s : ServerState) (u : ServerUser) : Prop :=
  ∃ v ∈ s.users, v.id = u.id ∧ v.username = u.username ∧ v.pLevel = u.pLevel

/-- A login makes this user of an account of which nobody is online, under a
name that nobody bears. -/
inductive NewUser (lib : Externals) (env : Env) (s : ServerState) : ServerUser → Prop
  | login {row : UserRow} {uname : List UInt8} (ssl : Ssl) : row ∈ s.db.users.rows →
      lib.nameEq row.user uname = true → (∀ v ∈ s.users, v.username ≠ uname) →
      (∀ v ∈ s.users, v.id ≠ row.id) →
      NewUser lib env s (ServerUser.create row.id ssl uname
        (sqlChLoadPrivileges (env.sqlOk .loadPrivileges) s.db row.id))

/-- Users made of those online: with more connections or with fewer, but with
some. -/
inductive Descends (s : ServerState) : ServerUser → Prop
  | kept {u : ServerUser} : u ∈ s.users → Descends s u
  | added {u : ServerUser} (ssl : Ssl) : Descends s u → Descends s (u.addConnection ssl)
  | removed {u : ServerUser} (ssl : Ssl) : Descends s u →
      (u.removeConnection ssl).connections ≠ [] → Descends s (u.removeConnection ssl)

theorem Descends.knew {u : ServerUser} (h : Descends s u) : Knew s u := by
  induction h with
  | kept hu => exact ⟨_, hu, rfl, rfl, rfl⟩
  | added ssl _ ih => exact ih
  | @removed u ssl _ _ ih =>
    obtain ⟨v, hv, hid, hname, hlevel⟩ := ih
    exact ⟨v, hv, hid.trans (u.removeConnection_id _).symm,
      hname.trans (u.removeConnection_username _).symm,
      hlevel.trans (u.removeConnection_pLevel _).symm⟩

/-- The end of a connection makes no other users. -/
theorem descends_of_detached {m : ServerState} (h : Detached sc m t)
    (hm : ∀ u ∈ m.users, Descends s u) : ∀ u ∈ t.users, Descends s u := by
  intro u hu
  rcases (h u).mp hu with ⟨hu, _⟩ | ⟨v, hv, _, rfl, hne⟩
  · exact hm u hu
  · exact .removed _ (hm v hv) hne

theorem descends_of_login (ssl : Ssl) (uname upw : List UInt8) :
    (∀ u ∈ (s.reqLogin lib env ssl uname upw).users, Descends s u) ∨
    ∃ new, NewUser lib env s new ∧ new.username = uname ∧ new.connections = [ssl] ∧
      ∀ u ∈ (s.reqLogin lib env ssl uname upw).users, Descends s u ∨ u = new := by
  obtain ⟨out, ht⟩ | ⟨out, user, hfound, ht⟩ | ⟨out, row, hrow, heq, hnone, ht⟩ :=
    reqLogin_cases lib env s ssl uname upw
  · rw [ht]
    exact .inl fun u hu => .kept hu
  · rw [ht]
    obtain ⟨huser, _⟩ := mapUsername_eq_some hfound
    refine .inl ?_
    intro u hu
    rcases (mem_addConnection huser u).mp hu with ⟨hu, _⟩ | rfl
    · exact .kept hu
    · exact .added ssl (.kept huser)
  · rw [ht]
    by_cases hnew : ∀ v ∈ s.users, v.id ≠ row.id
    · refine .inr ⟨_, .login ssl hrow heq (mapUsername_eq_none hnone) hnew, rfl, rfl, ?_⟩
      intro u hu
      rcases OrderedSet.mem_insert.mp hu with hu | ⟨rfl, _⟩
      · exact .inl (.kept hu)
      · exact .inr rfl
    · -- the insertion of a user whose id is taken changes nothing
      refine .inl ?_
      intro u hu
      rcases OrderedSet.mem_insert.mp hu with hu | ⟨rfl, hfree⟩
      · exact .kept hu
      · exact absurd (fun v hv he => hfree v hv (Int32.toInt_inj.mpr he)) hnew

/-- A login that is handled is one with texts of the packet. -/
theorem login_of_packet {data : List UInt8} (hu : s.userOf sc = none)
    (htype : wireInt data 0 = MsgType.reqLogin.code) (h : s.processPacket lib env sc data = .ok t) :
    t = s ∨ ∃ uname upw, 0 ∉ uname ∧ t = s.reqLogin lib env sc.ssl uname upw := by
  by_cases hpos : 0 < sc.id
  · exact .inl (eq_of_lost ⟨hpos, hu⟩ h)
  · obtain ⟨dp', hcase⟩ := unauthCase_of_packet hpos h
    rw [htype, MsgType.ofCode_code] at hcase
    obtain ⟨uname, dp₁, huname, hcase⟩ := Get.bind_ok hcase
    obtain ⟨upw, dp₂, _, hcase⟩ := Get.bind_ok hcase
    exact .inr ⟨uname, upw, getString_nulFree huname, Get.pure_ok hcase⟩

/-- After an event those are online who were, or one more. -/
theorem descends_of_step (hstep : ServerStep lib e s t) :
    (∀ u ∈ t.users, Descends s u) ∨
    ∃ fd env data new, e = .packet fd env data ∧ NewUser lib env s new ∧ 0 ∉ new.username ∧
      new.connections ≠ [] ∧ ∀ u ∈ t.users, Descends s u ∨ u = new := by
  have hkept : ∀ u ∈ s.users, Descends s u := fun u hu => .kept hu
  have hsame : t.users = s.users → ∀ u ∈ t.users, Descends s u := fun h u hu => .kept (h ▸ hu)
  cases hstep with
  | accept handshake _ _ _ => exact .inl (hsame (by cases handshake <;> rfl))
  | hangup _ hd =>
    obtain ⟨sc', hd⟩ := disconnected_of_ok hd
    exact .inl (descends_of_detached hd.users hkept)
  | packet hp =>
    obtain ⟨sc, hsc, hfd, hproc, hhandled⟩ := handled_packet hp
    generalize hu : s.userOf sc = u at hhandled
    cases hhandled with
    | kept | granted | createdGroup => exact .inl (hsame rfl)
    | kicked out _ _ _ hloop =>
      exact .inl (kickLoop_keeps (I := fun t => ∀ u ∈ t.users, Descends s u)
        (fun c _ sc' m t hm hd => descends_of_detached hd.users hm) hloop hkept)
    | loggedOut => exact .inl (descends_of_detached (detached_logout hu) hkept)
    | disconnected u _ hd =>
      obtain ⟨sc', hd⟩ := disconnected_of_ok hd
      exact .inl (descends_of_detached hd.users hkept)
    | addedFriend => exact .inl (hsame (sameSessions_addFriend _).users)
    | removedFriend => exact .inl (hsame (sameSessions_removeFriend _).users)
    | registered s uname upw _ => exact .inl (hsame (sameSessions_reqRegister uname upw).users)
    | loggedIn s _ _ htype =>
      rcases login_of_packet hu htype hproc with ht | ⟨uname, upw, hnul, ht⟩
      · exact .inl (hsame (congrArg ServerState.users ht))
      · rw [ht]
        obtain h | ⟨new, hnew, hname, hconn, h⟩ := descends_of_login sc.ssl uname upw
        · exact .inl h
        · exact .inr ⟨_, _, _, new, rfl, hnew, hname ▸ hnul, by simp [hconn], h⟩

/-- The same of what is known of them. -/
theorem knew_of_step (hstep : ServerStep lib e s t) :
    (∀ u ∈ t.users, Knew s u) ∨
    ∃ fd env data new, e = .packet fd env data ∧ NewUser lib env s new ∧
      ∀ u ∈ t.users, Knew s u ∨ u = new := by
  rcases descends_of_step hstep with h | ⟨fd, env, data, new, he, hnew, _, _, h⟩
  · exact .inl fun u hu => (h u hu).knew
  · exact .inr ⟨fd, env, data, new, he, hnew, fun u hu => (h u hu).imp_left Descends.knew⟩

/-- Everybody online has a name that is a text, and a connection. -/
def Audible (s : ServerState) : Prop := ∀ u ∈ s.users, 0 ∉ u.username ∧ u.connections ≠ []

theorem audible_start (db : Database) (listener : Nat) :
    Audible (ServerState.start db listener) :=
  fun u hu => absurd hu (OrderedSet.not_mem_empty u)

theorem Audible.descends (h : Audible s) {u : ServerUser} (hu : Descends s u) :
    0 ∉ u.username ∧ u.connections ≠ [] := by
  induction hu with
  | kept hu => exact h _ hu
  | added ssl _ ih => exact ⟨ih.1, List.cons_ne_nil _ _⟩
  | @removed u ssl _ hne ih => exact ⟨(u.removeConnection_username ssl) ▸ ih.1, hne⟩

theorem audible_step (e : Event) (s t : ServerState) (h : Audible s)
    (hstep : ServerStep lib e s t) : Audible t := by
  rcases descends_of_step hstep with hall | ⟨_, _, _, new, _, _, hnul, hconn, hall⟩
  · exact fun u hu => h.descends (hall u hu)
  · intro u hu
    rcases hall u hu with hu | rfl
    · exact h.descends hu
    · exact ⟨hnul, hconn⟩

/-! ## The table -/

def Grants (e : Event) (s : ServerState) (v n : Int32) : Prop :=
  match e with
  | .packet fd _ data => (∃ sc ∈ s.clients, sc.ssl.fd = fd ∧ (s.userOf sc).isSome) ∧
      wireInt data 0 = MsgType.grantPrivileges.code ∧ wireInt data 1 = v ∧ wireInt data 2 = n
  | _ => False

def Stores (e : Event) : Prop :=
  match e with
  | .packet _ env _ => env.sqlOk .updatePrivileges .connect = true ∧
      env.sqlOk .updatePrivileges (.query 0) = true
  | _ => False

/-- What a grant that is handled does, if it is stored. -/
theorem grants_step {v n : Int32} (hstep : ServerStep lib e s t) (hgrant : Grants e s v n)
    (hok : Stores e) :
    t = { s with
      db := { s.db with users := s.db.users.setPrivilege v n.toUInt32.toUInt8.toNat } } := by
  cases hstep with
  | accept => exact hgrant.elim
  | hangup => exact hgrant.elim
  | @packet _ _ fd env data hp =>
    obtain ⟨⟨sc, hsc, hfd, huser⟩, htype, rfl, rfl⟩ := hgrant
    obtain ⟨sc', hsc', hfd', hp, _⟩ := handled_packet hp
    obtain rfl : sc' = sc := OrderedSet.eq_of_key_eq hsc' hsc (hfd'.trans hfd.symm)
    obtain ⟨user, hu⟩ := Option.isSome_iff_exists.mp huser
    obtain ⟨dp', hcase⟩ := authCase_of_packet hu hp
    rw [htype, MsgType.ofCode_code] at hcase
    have hcase := Get.bind_int hcase
    have hcase := Get.bind_int hcase
    have ht : t = s.grantPrivileges env (wireInt data 1) (wireInt data 2) := Get.pure_ok hcase
    rw [ht]
    simp [grantPrivileges, sqlChUpdatePrivileges, hok.1, hok.2]

/-- The table changes by a grant or by a registration. -/
theorem accounts_of_step (hstep : ServerStep lib e s t) :
    t.db.users = s.db.users ∨
    (∃ v n, Grants e s v n ∧ Stores e ∧
      t.db.users = s.db.users.setPrivilege v n.toUInt32.toUInt8.toNat) ∨
    ∃ user pw salt, s.db.users.insert user pw salt = some t.db.users := by
  cases hstep with
  | accept handshake _ _ _ => exact .inl (by cases handshake <;> rfl)
  | hangup _ hd =>
    obtain ⟨sc', hd⟩ := disconnected_of_ok hd
    exact .inl (by rw [hd.db])
  | @packet _ _ fd env data hp =>
    obtain ⟨sc, hsc, hfd, _, hhandled⟩ := handled_packet hp
    generalize hu : s.userOf sc = u at hhandled
    cases hhandled with
    | kept => exact .inl rfl
    | createdGroup s user name _ => exact .inl (groupCreate_accounts name)
    | kicked out _ _ _ hloop =>
      refine .inl (kickLoop_keeps (I := fun t => t.db.users = s.db.users) ?_ hloop rfl)
      intro c _ sc' m t hm hd
      rw [hd.db, hm]
    | loggedOut s user _ => exact .inl (by rw [(sameSockets_logout env s user sc.ssl).db]; rfl)
    | disconnected u _ hd =>
      obtain ⟨sc', hd⟩ := disconnected_of_ok hd
      exact .inl (by rw [hd.db])
    | addedFriend => exact .inl (addFriend_accounts _)
    | removedFriend => exact .inl (removeFriend_accounts _)
    | loggedIn s uname upw _ =>
      obtain ⟨out, ht⟩ | ⟨out, user, _, ht⟩ | ⟨out, row, _, _, _, ht⟩ :=
        reqLogin_cases lib env s sc.ssl uname upw
      all_goals
        rw [ht]
        exact .inl rfl
    | granted s user htype =>
      simp only [grantPrivileges, sqlChUpdatePrivileges]
      split_ifs with hcon hquery
      · exact .inl rfl
      · exact .inl rfl
      · refine .inr (.inl ⟨_, _, ⟨⟨sc, hsc, hfd, by rw [hu]; rfl⟩, htype, rfl, rfl⟩, ?_, rfl⟩)
        exact ⟨by simpa using hcon, by simpa using hquery⟩
    | registered s uname upw _ =>
      rw [reqRegister_db]
      rcases sqlChAddUser_cases (env.sqlOk .addUser) lib env.saltBytes s.db uname upw with h | h
      · exact .inl (by rw [h])
      · obtain ⟨users, _, hins, h⟩ := h
        rw [h]
        exact .inr (.inr ⟨_, _, _, hins⟩)

end VhIM.Server
