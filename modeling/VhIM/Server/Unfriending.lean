import VhIM.Server.Confinement
import VhIM.Server.Delivery
import VhIM.Server.Friends
import VhIM.Server.Grants
import VhIM.Sql.StoreCalls

/-! # Unfriending

MSG_REMOVE_FRIEND is to be announced when there was a friendship to end. What
the server waits for before it does is an answer that the store never gives. -/
namespace VhIM.Server
open VhIM.Lib VhIM.Lib.Runs VhIM.Network VhIM.Sql
open ServerState

def AreFriends (db : Database) (a b : Int32) : Prop := (a, b) ∈ db.friends ∨ (b, a) ∈ db.friends

/-- The unfriending of `uid` by `user` took `s` to `t` and was announced as
it should be. -/
structure UnfriendingAnnounced (env : Env) (user : ServerUser) (uid : Int32)
    (s t : ServerState) : Prop where
  /-- Friends are told, each of the other and on every connection once. -/
  told : AreFriends s.db user.id uid → ∃ out, t.sent = s.sent ++ out ∧ ∀ c, inbox c out =
    (if c ∈ user.connections then [packet env (.removeFriend uid)] else []) ++
      if ∃ v ∈ s.users, v.id = uid ∧ c ∈ v.connections then
        [packet env (.removeFriend user.id)] else []
  /-- Nobody else is told anything of the kind. -/
  untold : ¬ AreFriends s.db user.id uid → ∃ out, t.sent = s.sent ++ out ∧
    ∀ x ∈ out, wireInt x.2 0 ≠ MsgType.removeFriend.code
  parted : ¬ AreFriends t.db user.id uid
  settled : (user.id, uid) ∉ t.db.friendRequests ∧ (uid, user.id) ∉ t.db.friendRequests

variable {lib : Externals} {env : Env} {s t : ServerState} {sc : ServerClient} {user : ServerUser}
  {data : List UInt8}

/-! ## The packet -/

/-- The answer of the store to an unfriending is compared with a code that it
never gives. -/
theorem sqlChDeleteFriends_ne_userExists (ok : SqlStep → Bool) (db : Database) (a b : Int32) :
    (sqlChDeleteFriends ok db a b).1 ≠ .userExists := by
  simp only [sqlChDeleteFriends]
  split_ifs <;> simp

theorem removeFriend_sent (env : Env) (s : ServerState) (user : ServerUser) (uid : Int32) :
    (s.removeFriend env user uid).sent = s.sent := by
  simp only [removeFriend]
  rw [if_neg (sqlChDeleteFriends_ne_userExists _ _ _ _)]

theorem removeFriend_of_packet (hsc : sc ∈ s.clients) (hu : s.userOf sc = some user)
    (htype : wireInt data 0 = MsgType.removeFriend.code)
    (h : s.cbMsgRcv lib env sc.ssl.fd data = .ok t) :
    t = s.removeFriend env user (wireInt data 1) := by
  obtain ⟨dp', hcase⟩ := authCase_of_packet hu (processPacket_of_cbMsgRcv hsc h)
  rw [htype, MsgType.ofCode_code] at hcase
  have hcase := Get.bind_int hcase
  exact Get.pure_ok hcase

/-- Two users who are not friends. -/
theorem removeFriend_parts {db : Database} {a b : Int32} (hno : ¬ AreFriends db a b) :
    ¬ AreFriends (db.removeFriend a b) a b ∧ (a, b) ∉ (db.removeFriend a b).friendRequests ∧
      (b, a) ∉ (db.removeFriend a b).friendRequests := by
  rw [Database.removeFriend, if_neg fun h => hno (.inl h)]
  refine ⟨hno, ?_, ?_⟩
  · intro hmem
    simpa using (List.mem_filter.mp hmem).2
  · intro hmem
    simpa using (List.mem_filter.mp hmem).2

/-- The announcement is right exactly for users who were not friends, to whom
there is nothing to announce. -/
theorem unfriending_announced_iff {db : Database} {listener : Nat}
    (hrun : Run (ServerStep lib) (ServerState.start db listener) events s)
    (hok : ∀ call step, env.sqlOk call step = true) (hsc : sc ∈ s.clients)
    (hu : s.userOf sc = some user) (htype : wireInt data 0 = MsgType.removeFriend.code)
    (h : s.cbMsgRcv lib env sc.ssl.fd data = .ok t) :
    UnfriendingAnnounced env user (wireInt data 1) s t ↔
      ¬ AreFriends s.db user.id (wireInt data 1) := by
  have howned : Owned s := hrun.invariant owned_step (owned_start db listener)
  obtain rfl := removeFriend_of_packet hsc hu htype h
  have hsent := removeFriend_sent env s user (wireInt data 1)
  constructor
  · intro hann hfriends
    obtain ⟨out, hout, hinbox⟩ := hann.told hfriends
    -- nothing was sent, and the sender has a connection to be told on
    have hnil : out = [] := by simpa [hsent] using hout
    have huser := (userOf_eq_some.mp hu).2.1
    obtain ⟨c, hc⟩ := List.exists_mem_of_ne_nil _ (howned.listed user huser).2.2
    have hempty := hinbox c
    rw [hnil, inbox_nil, if_pos hc] at hempty
    exact absurd hempty (by simp)
  · intro hno
    have hdb' : (s.removeFriend env user (wireInt data 1)).db =
        s.db.removeFriend user.id (wireInt data 1) := removeFriend_db hok _
    obtain ⟨hparted, hsettled⟩ := removeFriend_parts hno
    refine ⟨fun hyes => absurd hyes hno, fun _ => ⟨[], by simp [hsent], by simp⟩, ?_, ?_⟩
    · rw [hdb']
      exact hparted
    · rw [hdb']
      exact hsettled

/-- Two accounts that are friends. -/
def friendsDb : Database := { sampleDb 0 with friends := [(1, 2), (2, 1)] }

/-- A server over them, with the first account logged in. -/
def friendOnline : ServerState :=
  ((ServerState.start friendsDb 3).accept ⟨1, 4⟩ true).reqLogin sampleExt sampleEnv ⟨1, 4⟩ [97] []

theorem run_friendOnline : Run (ServerStep sampleExt) (ServerState.start friendsDb 3)
    [.accept ⟨1, 4⟩ true, .packet 4 sampleEnv (loginOf [97])] friendOnline :=
  .cons (twoClients_steps sampleExt friendsDb).1 (.single (.packet rfl))

/-- The friendship ends and nobody is told. -/
theorem unfriending_unannounced : ∃ t,
    Run (ServerStep sampleExt) (ServerState.start friendsDb 3)
      [.accept ⟨1, 4⟩ true, .packet 4 sampleEnv (loginOf [97])] friendOnline ∧
    friendOnline.cbMsgRcv sampleExt sampleEnv 4 (packetOf .removeFriend [.int 2]) = .ok t ∧
    t.db.friends = [] ∧
    ¬ UnfriendingAnnounced sampleEnv ⟨1, 1, [⟨1, 4⟩], [97], 0⟩ 2 friendOnline t := by
  refine ⟨_, run_friendOnline, rfl, by decide, ?_⟩
  intro h
  obtain ⟨out, hout, hinbox⟩ := h.told (.inl (by decide))
  have hnil : out = [] := by
    have hsent := removeFriend_sent sampleEnv friendOnline ⟨1, 1, [⟨1, 4⟩], [97], 0⟩ 2
    exact List.append_right_eq_self.mp (hout.symm.trans hsent)
  have hempty := hinbox ⟨1, 4⟩
  rw [hnil] at hempty
  exact absurd hempty (by decide)

/-- An account unfriends one it has no friendship with. -/
theorem unfriending_announced_stranger : ∃ t,
    sampleOnline.cbMsgRcv sampleExt sampleEnv 4 (packetOf .removeFriend [.int 2]) = .ok t ∧
    UnfriendingAnnounced sampleEnv ⟨1, 1, [⟨1, 4⟩], [97], 0⟩ 2 sampleOnline t := by
  have hrun : Run (ServerStep sampleExt) (ServerState.start (sampleDb 0) 3)
      [.accept ⟨1, 4⟩ true, .packet 4 sampleEnv (loginOf [97])] sampleOnline :=
    .cons (twoClients_steps sampleExt (sampleDb 0)).1 (.single (.packet rfl))
  have hsc : (⟨1, ⟨1, 4⟩⟩ : ServerClient) ∈ sampleOnline.clients := .head _
  have hu : sampleOnline.userOf ⟨1, ⟨1, 4⟩⟩ = some ⟨1, 1, [⟨1, 4⟩], [97], 0⟩ := rfl
  have htype : wireInt (packetOf .removeFriend [.int 2]) 0 = MsgType.removeFriend.code := rfl
  have hno : ¬ AreFriends sampleOnline.db 1 2 := by unfold AreFriends; decide
  exact ⟨_, rfl, (unfriending_announced_iff hrun (fun _ _ => rfl) hsc hu htype rfl).mpr hno⟩

end VhIM.Server
