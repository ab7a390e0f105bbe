import VhIM.Server.Sessions
import VhIM.Sql.Friendship

/-! # The friend tables

Runs of MSG_ADD_FRIEND and MSG_REMOVE_FRIEND. Each packet does to the tables
what one operation does, and each operation moves every pair of accounts as
its machine moves. -/
namespace VhIM.Server
open VhIM.Lib VhIM.Lib.Runs VhIM.Network VhIM.Sql
open ServerState

/-- A packet with which somebody logged in adds or removes a friend, handled
while every query succeeds. -/
inductive FriendStep (lib : Externals) : FriendOp → ServerState → ServerState → Prop
  | add {s t : ServerState} {sc : ServerClient} {user : ServerUser} {env : Env}
      {data : List UInt8} :
      (∀ call step, env.sqlOk call step = true) → sc ∈ s.clients → s.userOf sc = some user →
      wireInt data 0 = MsgType.addFriend.code → s.cbMsgRcv lib env sc.ssl.fd data = .ok t →
      FriendStep lib (.add user.id (wireInt data 1)) s t
  | remove {s t : ServerState} {sc : ServerClient} {user : ServerUser} {env : Env}
      {data : List UInt8} :
      (∀ call step, env.sqlOk call step = true) → sc ∈ s.clients → s.userOf sc = some user →
      wireInt data 0 = MsgType.removeFriend.code → s.cbMsgRcv lib env sc.ssl.fd data = .ok t →
      FriendStep lib (.remove user.id (wireInt data 1)) s t

variable {lib : Externals} {env : Env} {s t : ServerState} {sc : ServerClient} {user : ServerUser}
  {data : List UInt8}

/-! ## The handlers when no query fails -/

theorem addFriend_db (hok : ∀ call step, env.sqlOk call step = true) (uid : Int32) :
    (s.addFriend env user uid).db = s.db.addFriend user.id uid := by
  simp only [addFriend, sendFriendRequest, sqlChAreFriends, sqlChUserExists,
    sqlChCreateFriendRequest, sqlChCreateFriends, hok, Database.addFriend, Bool.not_true,
    Bool.false_eq_true, if_false, Bool.true_and]
  by_cases hf : (user.id, uid) ∈ s.db.friends
  · simp [hf]
  · cases hrow : s.db.users.byId uid with
    | none => simp [hf, send]
    | some row =>
      by_cases hab : (user.id, uid) ∈ s.db.friendRequests
      · simp [hf, hab, send]
      · by_cases hba : (uid, user.id) ∈ s.db.friendRequests
        · simp [hf, hab, hba, send]
        · simp [hf, hab, hba, send]

theorem removeFriend_db (hok : ∀ call step, env.sqlOk call step = true) (uid : Int32) :
    (s.removeFriend env user uid).db = s.db.removeFriend user.id uid := by
  simp only [removeFriend, sqlChDeleteFriends, hok, Database.removeFriend, Bool.not_true,
    Bool.false_eq_true, if_false]
  by_cases hf : (user.id, uid) ∈ s.db.friends
  · simp [hf]
  · simp [hf]

/-- The one client of a descriptor is the sender. -/
theorem processPacket_of_cbMsgRcv (hsc : sc ∈ s.clients)
    (h : s.cbMsgRcv lib env sc.ssl.fd data = .ok t) : s.processPacket lib env sc data = .ok t := by
  obtain ⟨sc', hsc', hfd, h, _⟩ := handled_packet h
  rwa [OrderedSet.eq_of_key_eq hsc' hsc hfd] at h

/-- A friend packet is one operation on the tables. -/
theorem friendStep_db {op : FriendOp} (h : FriendStep lib op s t) : t.db = s.db.friendOp op := by
  cases h with
  | add hok hsc hu htype h =>
    obtain ⟨dp', hcase⟩ := authCase_of_packet hu (processPacket_of_cbMsgRcv hsc h)
    rw [htype, MsgType.ofCode_code] at hcase
    have hcase := Get.bind_int hcase
    cases Get.pure_ok hcase
    exact addFriend_db hok _
  | remove hok hsc hu htype h =>
    obtain ⟨dp', hcase⟩ := authCase_of_packet hu (processPacket_of_cbMsgRcv hsc h)
    rw [htype, MsgType.ofCode_code] at hcase
    have hcase := Get.bind_int hcase
    cases Get.pure_ok hcase
    exact removeFriend_db hok _

/-! ## Runs -/

theorem friendRun_users {ops : List FriendOp} (h : Run (FriendStep lib) s ops t) :
    t.db.users = s.db.users := by
  induction h with
  | nil _ => rfl
  | cons hstep _ ih => rw [ih, friendStep_db hstep, friendOp_users]

theorem friendRun_pairRows {a b : Int32} {st : PairState} {ops : List FriendOp} (hab : a ≠ b)
    (ha : (s.db.users.byId a).isSome) (hb : (s.db.users.byId b).isSome)
    (h : Run (FriendStep lib) s ops t) (hst : pairRows s.db a b = st.rows) :
    pairRows t.db a b = (ops.foldl (PairState.step a b) st).rows := by
  induction h generalizing st with
  | nil _ => exact hst
  | @cons op _ _ _ _ hstep _ ih =>
    have hdb := friendStep_db hstep
    have hrows := pairRows_step hab ha hb hst op
    rw [← hdb] at hrows
    have husers := congrArg Database.users hdb
    rw [friendOp_users] at husers
    exact ih (by rw [husers]; exact ha) (by rw [husers]; exact hb) hrows

/-- From empty tables, after any run: the rows of every two accounts are those
of the state their machine is in; an operation would leave the rows of every
other pair alone, and a request to somebody who has no account all rows. -/
theorem friend_tables_refine {ops : List FriendOp} (hfriends : s.db.friends = [])
    (hrequests : s.db.friendRequests = []) (hrun : Run (FriendStep lib) s ops t) :
    (∀ a b, a ≠ b → (s.db.users.byId a).isSome → (s.db.users.byId b).isSome →
      pairRows t.db a b = (ops.foldl (PairState.step a b) .none).rows) ∧
    (∀ op u, FriendStep lib op t u → ∀ a b, ¬ op.IsBetween a b →
      pairRows u.db a b = pairRows t.db a b) ∧
    ∀ f x u, s.db.users.byId x = none → FriendStep lib (.add f x) t u → u.db = t.db := by
  have hempty : ∀ a b, pairRows s.db a b = PairState.none.rows := by
    intro a b
    simp [pairRows, PairState.rows, hfriends, hrequests]
  refine ⟨fun a b hab ha hb => friendRun_pairRows hab ha hb hrun (hempty a b), ?_, ?_⟩
  · intro op u hstep a b hop
    rw [friendStep_db hstep]
    exact pairRows_other hop
  · intro f x u hx hstep
    rw [friendStep_db hstep]
    exact addFriend_unknown (by rw [friendRun_users hrun]; exact hx)

/-- The server once account `a` is logged in. -/
def sampleOnline : ServerState :=
  ((ServerState.start (sampleDb 0) 3).accept ⟨1, 4⟩ true).reqLogin
    sampleExt sampleEnv ⟨1, 4⟩ [97] []

/-- Each of two users asks, so that they are friends, and the first takes it
back. -/
theorem friend_tables_refine_two : ∃ t u,
    Run (FriendStep sampleExt) twoUsers [.add 1 2, .add 2 1] t ∧
      FriendStep sampleExt (.remove 1 2) t u ∧
      pairRows t.db 1 2 = PairState.friends.rows ∧ pairRows u.db 1 2 = PairState.none.rows := by
  have hask : FriendStep sampleExt (.add 1 2) twoUsers _ :=
    @FriendStep.add _ _ _ ⟨1, ⟨1, 4⟩⟩ ⟨1, 1, [⟨1, 4⟩], [97], 8⟩ sampleEnv
      (packetOf .addFriend [.int 2]) (fun _ _ => rfl) (.head _) rfl rfl rfl
  have haccept : FriendStep sampleExt (.add 2 1) _ _ :=
    @FriendStep.add _ (twoUsers.addFriend sampleEnv ⟨1, 1, [⟨1, 4⟩], [97], 8⟩ 2) _ ⟨2, ⟨2, 5⟩⟩
      ⟨2, 1, [⟨2, 5⟩], [98], 0⟩ sampleEnv (packetOf .addFriend [.int 1]) (fun _ _ => rfl)
      (.tail _ (.head _)) rfl rfl rfl
  have hremove : FriendStep sampleExt (.remove 1 2) _ _ :=
    @FriendStep.remove _ ((twoUsers.addFriend sampleEnv ⟨1, 1, [⟨1, 4⟩], [97], 8⟩ 2).addFriend
        sampleEnv ⟨2, 1, [⟨2, 5⟩], [98], 0⟩ 1) _ ⟨1, ⟨1, 4⟩⟩ ⟨1, 1, [⟨1, 4⟩], [97], 8⟩ sampleEnv
      (packetOf .removeFriend [.int 2]) (fun _ _ => rfl) (.head _) rfl rfl rfl
  have hfriends : Run (FriendStep sampleExt) twoUsers [.add 1 2, .add 2 1] _ :=
    .cons hask (.single haccept)
  have hend : Run (FriendStep sampleExt) twoUsers [.add 1 2, .add 2 1, .remove 1 2] _ :=
    hfriends.append (.single hremove)
  exact ⟨_, _, hfriends, hremove,
    (friend_tables_refine rfl rfl hfriends).1 1 2 (by decide) (by decide) (by decide),
    (friend_tables_refine rfl rfl hend).1 1 2 (by decide) (by decide) (by decide)⟩

end VhIM.Server
