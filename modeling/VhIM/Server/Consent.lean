import VhIM.Lib.Traces
import VhIM.Server.Integrity

/-! # Friends have both asked

Whatever packets come in whatever order and whichever queries fail, a row of
`friend_requests` goes back to a packet of the one who asks, and a row of
`friends` to a packet of one of the two while the other's own request was
pending. -/
namespace VhIM.Sql

variable {ok : SqlStep → Bool} {db : Database} {f t : Int32} {row : Int32 × Int32}

theorem mem_sqlChCreateFriendRequest
    (h : row ∈ (sqlChCreateFriendRequest ok db f t).2.friendRequests) :
    row ∈ db.friendRequests ∨ row = (f, t) := by
  revert h
  unfold sqlChCreateFriendRequest
  split_ifs
  all_goals intro h
  all_goals first
    | exact .inl h
    | exact (List.mem_append.mp h).imp_right List.mem_singleton.mp

theorem sqlChCreateFriendRequest_friends :
    (sqlChCreateFriendRequest ok db f t).2.friends = db.friends := by
  unfold sqlChCreateFriendRequest
  split_ifs <;> rfl

/-- The other one has asked if that is what is reported. -/
theorem pending_of_otherExists (h : (sqlChCreateFriendRequest ok db f t).1 = .otherExists) :
    (t, f) ∈ db.friendRequests := by
  revert h
  unfold sqlChCreateFriendRequest
  split_ifs with _ _ _ _ _ _ hpending
  all_goals intro h
  all_goals first
    | exact hpending
    | cases h

theorem mem_sqlChCreateFriends (h : row ∈ (sqlChCreateFriends ok db f t).2.friends) :
    row ∈ db.friends ∨ row = (f, t) ∨ row = (t, f) := by
  revert h
  unfold sqlChCreateFriends
  split_ifs
  all_goals intro h
  all_goals simp only [List.mem_append, List.mem_singleton] at h
  all_goals tauto

theorem mem_requests_sqlChCreateFriends
    (h : row ∈ (sqlChCreateFriends ok db f t).2.friendRequests) : row ∈ db.friendRequests := by
  revert h
  unfold sqlChCreateFriends
  split_ifs
  all_goals intro h
  all_goals first
    | exact h
    | exact List.mem_of_mem_filter h

theorem mem_sqlChDeleteFriends (h : row ∈ (sqlChDeleteFriends ok db f t).2.friends) :
    row ∈ db.friends := by
  revert h
  unfold sqlChDeleteFriends
  split_ifs
  all_goals intro h
  all_goals first
    | exact h
    | exact List.mem_of_mem_filter h

theorem mem_requests_sqlChDeleteFriends
    (h : row ∈ (sqlChDeleteFriends ok db f t).2.friendRequests) : row ∈ db.friendRequests := by
  revert h
  unfold sqlChDeleteFriends
  split_ifs
  all_goals intro h
  all_goals first
    | exact h
    | exact List.mem_of_mem_filter h

end VhIM.Sql

namespace VhIM.Server
open VhIM.Lib VhIM.Lib.Runs VhIM.Network VhIM.Sql
open ServerState

variable {lib : Externals} {env : Env} {s t : ServerState} {e : Event} {user : ServerUser}
  {events : List Event} {a b uid : Int32} {row : Int32 × Int32}

/-! ## What a request does to the rows -/

theorem mem_requests_addFriend (h : row ∈ (s.addFriend env user uid).db.friendRequests) :
    row ∈ s.db.friendRequests ∨ row = (user.id, uid) := by
  simp only [addFriend, sendFriendRequest] at h
  split_ifs at h
  · exact mem_sqlChCreateFriendRequest (mem_requests_sqlChCreateFriends h)
  · exact mem_sqlChCreateFriendRequest h
  · exact .inl h
  · exact .inl h

theorem mem_friends_addFriend (h : row ∈ (s.addFriend env user uid).db.friends) :
    row ∈ s.db.friends ∨
      (uid, user.id) ∈ s.db.friendRequests ∧ (row = (user.id, uid) ∨ row = (uid, user.id)) := by
  simp only [addFriend, sendFriendRequest] at h
  split_ifs at h with _ _ hother
  · have hpending := pending_of_otherExists hother
    rcases mem_sqlChCreateFriends h with hrow | hrow
    · rw [sqlChCreateFriendRequest_friends] at hrow
      exact .inl hrow
    · exact .inr ⟨hpending, hrow⟩
  · rw [sqlChCreateFriendRequest_friends] at h
    exact .inl h
  · exact .inl h
  · exact .inl h

/-! ## What an event does to them -/

/-- The event is a packet by which `a`, who is logged in, asks for a
friendship with `b`. -/
inductive Asks (s : ServerState) : Event → Int32 → Int32 → Prop
  | packet {sc : ServerClient} {env : Env} {data : List UInt8} {user : ServerUser} :
      sc ∈ s.clients → s.userOf sc = some user → wireInt data 0 = MsgType.addFriend.code →
      Asks s (.packet sc.ssl.fd env data) user.id (wireInt data 1)

/-- Rows only go, unless somebody asks. -/
theorem rows_of_step (hstep : ServerStep lib e s t) :
    (∀ row, (row ∈ t.db.friends → row ∈ s.db.friends) ∧
      (row ∈ t.db.friendRequests → row ∈ s.db.friendRequests)) ∨
    ∃ user uid env, Asks s e user.id uid ∧ t.db = (s.addFriend env user uid).db := by
  have hdb := stored_of_step hstep
  generalize t.db = db at hdb ⊢
  cases hdb with
  | kept => exact .inl fun row => ⟨id, id⟩
  | granted v p =>
    simp only [sqlChUpdatePrivileges]
    split_ifs <;> exact .inl fun row => ⟨id, id⟩
  | addedFriend hsc hu htype => exact .inr ⟨_, _, _, .packet hsc hu htype, rfl⟩
  | removedFriend user uid =>
    simp only [removeFriend]
    split_ifs <;>
      exact .inl fun row => ⟨mem_sqlChDeleteFriends, mem_requests_sqlChDeleteFriends⟩
  | createdGroup name _ =>
    simp only [sqlChCreateGroup]
    split_ifs <;> exact .inl fun row => ⟨id, id⟩
  | registered upw _ =>
    obtain hsame | ⟨users, _, _, hadd⟩ := sqlChAddUser_cases _ lib _ s.db _ upw
    · rw [hsame]
      exact .inl fun row => ⟨id, id⟩
    · rw [hadd]
      exact .inl fun row => ⟨id, id⟩

theorem requests_of_step (hstep : ServerStep lib e s t) (h : (a, b) ∈ t.db.friendRequests) :
    (a, b) ∈ s.db.friendRequests ∨ Asks s e a b := by
  obtain hrows | ⟨user, uid, env, hasks, hdb⟩ := rows_of_step hstep
  · exact .inl ((hrows _).2 h)
  · rw [hdb] at h
    rcases mem_requests_addFriend h with h | h
    · exact .inl h
    · cases h
      exact .inr hasks

/-- One of the two asks while the other's request is pending. -/
def Accepts (s : ServerState) (e : Event) (a b : Int32) : Prop :=
  Asks s e a b ∧ (b, a) ∈ s.db.friendRequests

theorem friends_of_event (hstep : ServerStep lib e s t) (h : (a, b) ∈ t.db.friends) :
    (a, b) ∈ s.db.friends ∨ Accepts s e a b ∨ Accepts s e b a := by
  obtain hrows | ⟨user, uid, env, hasks, hdb⟩ := rows_of_step hstep
  · exact .inl ((hrows _).1 h)
  · rw [hdb] at h
    rcases mem_friends_addFriend h with h | ⟨hpending, h | h⟩
    · exact .inl h
    · cases h
      exact .inr (.inl ⟨hasks, hpending⟩)
    · cases h
      exact .inr (.inr ⟨hasks, hpending⟩)

/-! ## Where a friendship comes from -/

/-- `a` has asked for a friendship with `b`: in the run, or before it. -/
def HasAsked (lib : Externals) (db : Database) (listener : Nat) (events : List Event)
    (a b : Int32) : Prop :=
  (a, b) ∈ db.friendRequests ∨ ∃ pre e post m, events = pre ++ e :: post ∧
    Run (ServerStep lib) (ServerState.start db listener) pre m ∧ Asks m e a b

/-- At some point of the run `a` accepts what `b` has asked for before, and
what is still pending then. -/
def Agreed (lib : Externals) (db : Database) (listener : Nat) (events : List Event)
    (a b : Int32) : Prop :=
  ∃ pre e post m, events = pre ++ e :: post ∧
    Run (ServerStep lib) (ServerState.start db listener) pre m ∧ Accepts m e a b ∧
    HasAsked lib db listener pre b a

theorem request_asked {db : Database} {listener : Nat}
    (hrun : Run (ServerStep lib) (ServerState.start db listener) events s)
    (h : (a, b) ∈ s.db.friendRequests) : HasAsked lib db listener events a b :=
  hrun.origin (F := fun s : ServerState => (a, b) ∈ s.db.friendRequests)
    (P := fun e s => Asks s e a b)
    (fun _ _ _ => requests_of_step) h

/-- Whatever packets come, in whatever order and whichever queries fail: who
has a request pending has asked for it, and two users become friends only by
one of them accepting what the other has asked for. -/
theorem friends_by_consent {db : Database} {listener : Nat}
    (hrun : Run (ServerStep lib) (ServerState.start db listener) events s) :
    (∀ a b, (a, b) ∈ s.db.friendRequests → HasAsked lib db listener events a b) ∧
      ∀ a b, (a, b) ∈ s.db.friends → (a, b) ∈ db.friends ∨
        Agreed lib db listener events a b ∨ Agreed lib db listener events b a := by
  refine ⟨fun a b => request_asked hrun, fun a b h => ?_⟩
  have horigin := hrun.origin (F := fun s : ServerState => (a, b) ∈ s.db.friends)
    (P := fun e s => Accepts s e a b ∨ Accepts s e b a) (fun _ _ _ => friends_of_event) h
  refine horigin.imp_right ?_
  rintro ⟨pre, e, post, m, rfl, hpre, haccepts | haccepts⟩
  · exact .inl ⟨pre, e, post, m, rfl, hpre, haccepts, request_asked hpre haccepts.2⟩
  · exact .inr ⟨pre, e, post, m, rfl, hpre, haccepts, request_asked hpre haccepts.2⟩

/-- Each of two users asks. -/
def befriended : ServerState :=
  (twoUsers.addFriend sampleEnv ⟨1, 1, [⟨1, 4⟩], [97], 8⟩ 2).addFriend sampleEnv
    ⟨2, 1, [⟨2, 5⟩], [98], 0⟩ 1

theorem run_befriended : Run (ServerStep sampleExt) twoUsers
    [.packet 4 sampleEnv (packetOf .addFriend [.int 2]),
      .packet 5 sampleEnv (packetOf .addFriend [.int 1])] befriended :=
  .cons (.packet rfl) (.single (.packet rfl))

theorem friends_by_consent_two : ∃ events,
    Run (ServerStep sampleExt) (ServerState.start (sampleDb 8) 3) events befriended ∧
      (Agreed sampleExt (sampleDb 8) 3 events 1 2 ∨
        Agreed sampleExt (sampleDb 8) 3 events 2 1) := by
  have hrun := run_twoUsers.append run_befriended
  have hfriends : (1, 2) ∈ befriended.db.friends := by decide +kernel
  exact ⟨_, hrun, ((friends_by_consent hrun).2 1 2 hfriends).resolve_left List.not_mem_nil⟩

end VhIM.Server
