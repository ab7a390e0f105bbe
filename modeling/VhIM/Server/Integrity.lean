import VhIM.Server.Friends
import VhIM.Server.Grants
import VhIM.Sql.Integrity

/-! # Integrity of the tables, over runs

`sql_ch_create_friends` inserts what it is given, and whom a request is about
is only looked up before: that the rows stay sound is a matter of who can call
what with which ids. -/
namespace VhIM.Server
open VhIM.Lib VhIM.Lib.Runs VhIM.Network VhIM.Sql
open ServerState

variable {lib : Externals} {env : Env} {s t : ServerState} {sc : ServerClient} {e : Event}
  {user : ServerUser}

/-! ## What an event does to the tables -/

/-- The database an event leaves: the one there was, or what one of the calls
that write makes of it, on behalf of a user who is online. -/
inductive Stored (lib : Externals) (s : ServerState) : Event → Database → Prop
  | kept (e : Event) : Stored lib s e s.db
  | granted {fd : Nat} {env : Env} {data : List UInt8} (v : Int32) (p : UInt8) :
      Stored lib s (.packet fd env data)
        (sqlChUpdatePrivileges (env.sqlOk .updatePrivileges) s.db v p).2
  | addedFriend {sc : ServerClient} {env : Env} {data : List UInt8} {user : ServerUser} :
      sc ∈ s.clients → s.userOf sc = some user → wireInt data 0 = MsgType.addFriend.code →
      Stored lib s (.packet sc.ssl.fd env data) (s.addFriend env user (wireInt data 1)).db
  | removedFriend {fd : Nat} {env : Env} {data : List UInt8} (user : ServerUser) (uid : Int32) :
      Stored lib s (.packet fd env data) (s.removeFriend env user uid).db
  | createdGroup {fd : Nat} {env : Env} {data : List UInt8} {user : ServerUser}
      (name : List UInt8) : user ∈ s.users → Stored lib s (.packet fd env data)
        (sqlChCreateGroup (env.sqlOk .createGroup) s.db name user.id).2
  | registered {fd : Nat} {env : Env} {data : List UInt8} {uname : List UInt8}
      (upw : List UInt8) : 0 ∉ uname → Stored lib s (.packet fd env data)
        (sqlChAddUser (env.sqlOk .addUser) lib env.saltBytes s.db uname upw).2

/-- A registration that is handled is one with texts of the packet. -/
theorem register_of_packet {data : List UInt8} (hu : s.userOf sc = none)
    (htype : wireInt data 0 = MsgType.reqRegister.code)
    (h : s.processPacket lib env sc data = .ok t) :
    t = s ∨ ∃ uname upw, 0 ∉ uname ∧ t = s.reqRegister lib env sc.ssl uname upw := by
  by_cases hpos : 0 < sc.id
  · exact .inl (eq_of_lost ⟨hpos, hu⟩ h)
  · obtain ⟨dp', hcase⟩ := unauthCase_of_packet hpos h
    rw [htype, MsgType.ofCode_code] at hcase
    obtain ⟨uname, dp₁, huname, hcase⟩ := Get.bind_ok hcase
    obtain ⟨upw, dp₂, _, hcase⟩ := Get.bind_ok hcase
    exact .inr ⟨uname, upw, getString_nulFree huname, Get.pure_ok hcase⟩

theorem stored_of_step (hstep : ServerStep lib e s t) : Stored lib s e t.db := by
  have hkept : ∀ {t : ServerState}, t.db = s.db → Stored lib s e t.db := fun h => h ▸ .kept e
  cases hstep with
  | accept handshake _ _ _ => exact hkept (by cases handshake <;> rfl)
  | hangup _ hd =>
    obtain ⟨sc', hd⟩ := disconnected_of_ok hd
    exact hkept hd.db
  | packet hp =>
    obtain ⟨sc, hsc, rfl, hproc, hhandled⟩ := handled_packet hp
    have huser : ∀ user, s.userOf sc = some user → user ∈ s.users :=
      fun user hu => (userOf_eq_some.mp hu).2.1
    generalize hu : s.userOf sc = u at hhandled
    cases hhandled with
    | kept => exact hkept rfl
    | kicked out _ _ _ hloop =>
      refine hkept (kickLoop_keeps (I := fun t => t.db = s.db) ?_ hloop rfl)
      intro c _ sc' m t hm hd
      rw [hd.db, hm]
    | loggedOut s user _ => exact hkept (sameSockets_logout _ s user sc.ssl).db
    | disconnected u _ hd =>
      obtain ⟨sc', hd⟩ := disconnected_of_ok hd
      exact hkept hd.db
    | granted => exact .granted _ _
    | addedFriend s user htype => exact .addedFriend hsc hu htype
    | removedFriend s user _ => exact .removedFriend user _
    | createdGroup s user name _ => exact .createdGroup name (huser user hu)
    | loggedIn s uname upw _ =>
      obtain ⟨out, ht⟩ | ⟨out, user, _, ht⟩ | ⟨out, row, _, _, _, ht⟩ :=
        reqLogin_cases lib _ s sc.ssl uname upw
      all_goals exact hkept (by rw [ht]; rfl)
    | registered s _ _ htype =>
      rcases register_of_packet hu htype hproc with ht | ⟨uname, upw, hnul, ht⟩
      · exact hkept (congrArg ServerState.db ht)
      · rw [ht, reqRegister_db]
        exact .registered upw hnul

/-! ## Whatever fails -/

/-- The tables are sound, and whoever is online has an account. -/
structure Accounted (s : ServerState) : Prop where
  db : s.db.Sound
  users : ∀ u ∈ s.users, s.db.users.Has u.id

theorem grown_of_step (hstep : ServerStep lib e s t) : s.db.users.Grown t.db.users := by
  obtain h | ⟨v, n, _, _, h⟩ | ⟨name, pw, salt, h⟩ := accounts_of_step hstep
  · exact .of_eq h
  · rw [h]
    exact Users.grown_setPrivilege _ _ _
  · exact Users.grown_insert h

theorem Accounted.users_step (h : Accounted s) (hstep : ServerStep lib e s t) :
    ∀ u ∈ t.users, t.db.users.Has u.id := by
  intro u hu
  apply grown_of_step hstep
  have hknew : ∀ u, Knew s u → s.db.users.Has u.id := by
    rintro u ⟨v, hv, hid, _⟩
    exact hid ▸ h.users v hv
  obtain hkept | ⟨fd, env, data, new, _, hnew, hkept⟩ := knew_of_step hstep
  · exact hknew u (hkept u hu)
  · rcases hkept u hu with hu | rfl
    · exact hknew u hu
    · cases hnew with
      | login ssl hrow _ _ _ => exact ⟨_, hrow, rfl⟩

/-- Who is asked has been looked up, and who has asked himself is told that he
has. -/
theorem addFriend_sound (hdb : s.db.Sound) (huser : s.db.users.Has user.id) (uid : Int32) :
    (s.addFriend env user uid).db.Sound := by
  simp only [addFriend, sendFriendRequest]
  split
  · split
    · next hexists =>
      have huid : s.db.users.Has uid := by
        simp only [sqlChUserExists, Bool.and_eq_true] at hexists
        exact Users.has_of_byId hexists.2
      split
      · next hother =>
        obtain ⟨hsame, hne⟩ := sqlChCreateFriendRequest_other _ hother
        refine sqlChCreateFriends_sound _ (hsame.symm ▸ hdb) ?_ ?_ hne
        · exact hsame.symm ▸ huser
        · exact hsame.symm ▸ huid
      · exact sqlChCreateFriendRequest_sound _ hdb huser huid
    · exact hdb
  · exact hdb

theorem removeFriend_sound (hdb : s.db.Sound) (uid : Int32) :
    (s.removeFriend env user uid).db.Sound := by
  simp only [removeFriend]
  split
  · exact sqlChDeleteFriends_sound _ hdb
  · exact sqlChDeleteFriends_sound _ hdb

theorem accounted_step (e : Event) (s t : ServerState) (h : Accounted s)
    (hstep : ServerStep lib e s t) : Accounted t := by
  refine ⟨?_, h.users_step hstep⟩
  have hdb := stored_of_step hstep
  generalize t.db = db at hdb ⊢
  cases hdb with
  | kept => exact h.db
  | granted v p => exact (sqlChUpdatePrivileges_sound _ v p h.db).1
  | addedFriend _ hu _ => exact addFriend_sound h.db (h.users _ (userOf_eq_some.mp hu).2.1) _
  | removedFriend user uid => exact removeFriend_sound h.db uid
  | createdGroup name hu => exact sqlChCreateGroup_sound _ h.db (h.users _ hu) name
  | registered upw _ => exact (sqlChAddUser_sound _ lib _ _ upw h.db).1

/-- Whatever packets come and whichever queries fail: no row comes to name
somebody without an account, nobody becomes a friend of himself, and whoever
is online has an account. -/
theorem tables_sound {db : Database} {listener : Nat} {events : List Event} (hdb : db.Sound)
    (hrun : Run (ServerStep lib) (ServerState.start db listener) events s) :
    s.db.Sound ∧ ∀ u ∈ s.users, s.db.users.Has u.id := by
  have hstart : Accounted (ServerState.start db listener) :=
    ⟨hdb, fun u hu => absurd hu (OrderedSet.not_mem_empty u)⟩
  have h := hrun.invariant accounted_step hstart
  exact ⟨h.db, h.users⟩

theorem sampleDb_sound (privilege : Nat) : (sampleDb privilege).Sound :=
  ⟨fun _ hrow => absurd hrow List.not_mem_nil, fun _ hrow => absurd hrow List.not_mem_nil,
    fun _ hrow => absurd hrow List.not_mem_nil⟩

theorem tables_sound_two : twoUsers.db.Sound ∧ ∀ u ∈ twoUsers.users, twoUsers.db.users.Has u.id :=
  tables_sound (sampleDb_sound 8) run_twoUsers

/-! ## When no query fails -/

/-- What a step does to the two tables, one of the operations does. -/
theorem friendTables_of_step (hok : QueriesSucceed e) (hstep : ServerStep lib e s t) :
    (t.db.friends = s.db.friends ∧ t.db.friendRequests = s.db.friendRequests) ∨
      ∃ op, t.db = s.db.friendOp op := by
  have hdb := stored_of_step hstep
  generalize t.db = db at hdb ⊢
  cases hdb with
  | kept => exact .inl ⟨rfl, rfl⟩
  | granted v p =>
    simp only [sqlChUpdatePrivileges]
    split_ifs <;> exact .inl ⟨rfl, rfl⟩
  | addedFriend _ _ _ => exact .inr ⟨.add _ _, addFriend_db hok _⟩
  | removedFriend user uid => exact .inr ⟨.remove user.id uid, removeFriend_db hok uid⟩
  | createdGroup name _ =>
    simp only [sqlChCreateGroup]
    split_ifs <;> exact .inl ⟨rfl, rfl⟩
  | registered upw _ =>
    obtain hsame | ⟨users, _, _, hadd⟩ := sqlChAddUser_cases _ lib _ s.db _ upw
    · exact .inl (by rw [hsame]; exact ⟨rfl, rfl⟩)
    · exact .inl (by rw [hadd]; exact ⟨rfl, rfl⟩)

theorem paired_step (e : Event) (s t : ServerState) (h : s.db.Paired)
    (hstep : guarded (ServerStep lib) (fun e _ => QueriesSucceed e) e s t) : t.db.Paired := by
  obtain ⟨hfriends, hrequests⟩ | ⟨op, hop⟩ := friendTables_of_step hstep.2 hstep.1
  · refine ⟨fun a b hab => ?_, fun a => by rw [hfriends, hrequests]; exact h.self a⟩
    obtain ⟨st, hst⟩ := h.pairs a b hab
    exact ⟨st, by rw [← hst, pairRows, pairRows, hfriends, hrequests]⟩
  · rw [hop]
    exact h.friendOp op

end VhIM.Server
