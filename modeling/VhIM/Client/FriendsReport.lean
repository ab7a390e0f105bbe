import VhIM.Client.Agreement
import VhIM.Server.Delivery

/-! # The friends report

From the tables to the client's callback: the rows of a query go onto a stack,
are parted by who is online, written as counted lists, read back and pushed
again. Every hop turns the order around and none loses a person. -/
namespace VhIM.Client
open VhIM.Lib VhIM.Network VhIM.Utility VhIM.Server VhIM.Sql
open VhIM.Server.ServerState

def friendIds (db : Database) (uid : Int32) : List Int32 :=
  (db.friends.filter fun row => row.1 = uid).map Prod.snd

def requesterIds (db : Database) (uid : Int32) : List Int32 :=
  (db.friendRequests.filter fun row => row.2 = uid).map Prod.fst

def IsAccount (db : Database) (info : ServerUserInfo) : Prop :=
  ∃ row ∈ db.users.rows, row.id = info.id ∧ row.user = info.username

/-- The stack holds those that `p` is true of, each once. -/
def HoldsExactly (stack : Vstack ServerUserInfo) (p : ServerUserInfo → Prop) : Prop :=
  ∃ l, stack.Holds l ∧ l.Nodup ∧ ∀ info, info ∈ l ↔ p info

/-- What the three stacks should hold. -/
structure ReportExact (s : ServerState) (uid : Int32) (on off req : Vstack ServerUserInfo) :
    Prop where
  online : HoldsExactly on fun info => (uid, info.id) ∈ s.db.friends ∧ IsAccount s.db info ∧
    ∃ u ∈ s.users, u.id = info.id
  offline : HoldsExactly off fun info => (uid, info.id) ∈ s.db.friends ∧ IsAccount s.db info ∧
    ¬ ∃ u ∈ s.users, u.id = info.id
  requests : HoldsExactly req fun info =>
    (info.id, uid) ∈ s.db.friendRequests ∧ IsAccount s.db info

variable {db : Database} {uid : Int32}

theorem mem_friendIds {id : Int32} : id ∈ friendIds db uid ↔ (uid, id) ∈ db.friends := by
  simp [friendIds]

theorem mem_requesterIds {id : Int32} :
    id ∈ requesterIds db uid ↔ (id, uid) ∈ db.friendRequests := by
  simp [requesterIds]

/-! ## The join -/

theorem mem_joinUsers {ids : List Int32} {info : ServerUserInfo} :
    info ∈ joinUsers db ids ↔ info.id ∈ ids ∧ IsAccount db info := by
  simp only [joinUsers, List.mem_flatMap, List.mem_map, List.mem_filter, decide_eq_true_eq,
    IsAccount]
  constructor
  · rintro ⟨id, hid, row, ⟨hrow, hrowid⟩, rfl⟩
    exact ⟨hid, row, hrow, hrowid, rfl⟩
  · rintro ⟨hid, row, hrow, hrowid, hname⟩
    exact ⟨info.id, hid, row, ⟨hrow, hrowid⟩, by rw [hname]⟩

/-- An id names at most one row, so nobody is joined twice. -/
theorem joinUsers_nodup {ids : List Int32} (hids : ids.Nodup) : (joinUsers db ids).Nodup := by
  have hone : ∀ id, ((db.users.rows.filter fun r => r.id = id).map
      fun r => (⟨id, r.user⟩ : ServerUserInfo)).Nodup := by
    intro id
    rw [filter_id_eq]
    cases db.users.byId id <;> simp
  refine List.nodup_flatMap.mpr ⟨fun id _ => hone id, hids.imp ?_⟩
  intro a b hab
  rw [Function.onFun, List.disjoint_left]
  intro info ha hb
  obtain ⟨_, _, rfl⟩ := List.mem_map.mp ha
  obtain ⟨_, _, he⟩ := List.mem_map.mp hb
  exact hab (congrArg ServerUserInfo.id he).symm

/-! ## The stacks of the server -/

variable {ok : SqlStep → Bool}

theorem getFriends_drain (hok : ∀ step, ok step = true) :
    (sqlChGetFriends ok db uid Vstack.create).2.drain =
      (joinUsers db (friendIds db uid)).reverse := by
  have hheld := Vstack.pushAll_holds Vstack.create_holds (joinUsers db (friendIds db uid))
  simp only [sqlChGetFriends, hok, Bool.not_true, Bool.false_eq_true, if_false, fetchRows_ok hok]
  exact Vstack.drain_holds hheld

theorem getFriendRequests_drain (hok : ∀ step, ok step = true) :
    (sqlChGetFriendRequests ok db uid Vstack.create).2.drain =
      (joinUsers db (requesterIds db uid)).reverse := by
  have hheld := Vstack.pushAll_holds Vstack.create_holds (joinUsers db (requesterIds db uid))
  simp only [sqlChGetFriendRequests, hok, Bool.not_true, Bool.false_eq_true, if_false,
    fetchRows_ok hok]
  exact Vstack.drain_holds hheld

theorem pushAll_drain (l : List ServerUserInfo) : (Vstack.create.pushAll l).drain = l.reverse :=
  Vstack.drain_holds (Vstack.pushAll_holds Vstack.create_holds l)

/-- The lists of the packet: each has been turned around twice, or once. -/
theorem setFriendsOnline_eq {env : Env} {s : ServerState}
    (hfriends : ∀ step, env.sqlOk .getFriends step = true)
    (hrequests : ∀ step, env.sqlOk .getFriendRequests step = true) :
    s.setFriendsOnline env uid = .friends
      ((joinUsers s.db (friendIds s.db uid)).filter fun i => (s.getUserById i.id).isSome)
      ((joinUsers s.db (friendIds s.db uid)).filter fun i => (s.getUserById i.id).isNone)
      (joinUsers s.db (requesterIds s.db uid)).reverse := by
  simp only [setFriendsOnline, getFriends_drain hfriends, getFriendRequests_drain hrequests,
    pushAll_drain, List.filter_reverse, List.reverse_reverse]

/-! ## The stacks of the client -/

/-- What the client pushes for a list without repetition. -/
theorem stackOf_holdsExactly {l : List ServerUserInfo} {p : ServerUserInfo → Prop} (hl : l.Nodup)
    (hp : ∀ info, info ∈ l ↔ p info) : HoldsExactly (stackOf l) p :=
  ⟨l, stackOf_holds l, hl, hp⟩

theorem isSome_getUserById {s : ServerState} {id : Int32} :
    (s.getUserById id).isSome ↔ ∃ u ∈ s.users, u.id = id := by
  simp only [Option.isSome_iff_exists, getUserById_eq_some]

theorem nulFree_infoFields {l : List ServerUserInfo} (h : ∀ i ∈ l, 0 ∉ i.username) :
    ∀ f ∈ ServerMsg.infoFields l, f.NulFree := by
  intro f hf
  rcases List.mem_cons.mp hf with rfl | hf
  · trivial
  · obtain ⟨i, hi, hf⟩ := List.mem_flatMap.mp hf
    rcases List.mem_pair.mp hf with rfl | rfl
    · trivial
    · exact h i hi

/-- The client makes of three lists the three stacks. -/
theorem processPacket_friends (env : Env) {on off req : List ServerUserInfo}
    (hnul : ∀ i ∈ on ++ off ++ req, 0 ∉ i.username)
    (hsize : 8 + (ServerMsg.friends on off req).body.length < 2 ^ 31) :
    ∃ dp, processPacket (packet env (.friends on off req)) =
      .ok ([.friends (stackOf on) (stackOf off) (stackOf req)], dp) := by
  have hfields : ∀ f ∈ (ServerMsg.friends on off req).fields, f.NulFree := by
    intro f hf
    simp only [ServerMsg.fields, List.mem_append] at hf
    rcases hf with (hf | hf) | hf
    · exact nulFree_infoFields (fun i hi => hnul i (by simp [hi])) f hf
    · exact nulFree_infoFields (fun i hi => hnul i (by simp [hi])) f hf
    · exact nulFree_infoFields (fun i hi => hnul i (by simp [hi])) f hf
  rw [packet, ServerMsg.finishedBytes_build env.fresh hsize]
  have htype : (ServerMsg.friends on off req).type ≠ .registrSuccessful :=
    show MsgType.friends ≠ .registrSuccessful by decide
  exact ⟨_, Datapacket.reads_packet (dispatch_consumes htype hfields (by omega))⟩

/-- Parted by who is online. -/
theorem reportExact_of_lists {s : ServerState} (hfriends : (friendIds s.db uid).Nodup)
    (hrequests : (requesterIds s.db uid).Nodup) :
    ReportExact s uid
      (stackOf ((joinUsers s.db (friendIds s.db uid)).filter fun i => (s.getUserById i.id).isSome))
      (stackOf ((joinUsers s.db (friendIds s.db uid)).filter fun i => (s.getUserById i.id).isNone))
      (stackOf (joinUsers s.db (requesterIds s.db uid)).reverse) := by
  have hnodup : (joinUsers s.db (friendIds s.db uid)).Nodup := joinUsers_nodup hfriends
  refine ⟨stackOf_holdsExactly (hnodup.filter _) ?_, stackOf_holdsExactly (hnodup.filter _) ?_,
    stackOf_holdsExactly (List.nodup_reverse.mpr (joinUsers_nodup hrequests)) ?_⟩
  · intro info
    rw [List.mem_filter, mem_joinUsers, mem_friendIds, isSome_getUserById, and_assoc]
  · intro info
    rw [List.mem_filter, mem_joinUsers, mem_friendIds, Option.isNone_iff_eq_none,
      ← Option.not_isSome_iff_eq_none, isSome_getUserById, and_assoc]
  · intro info
    rw [List.mem_reverse, mem_joinUsers, mem_requesterIds]

/-- The callback gets the friends online, the friends who are not and the
requests, everybody once and under their name. -/
theorem friends_report_exact {env : Env} {s : ServerState}
    (hok : ∀ call step, env.sqlOk call step = true) (hfriends : (friendIds s.db uid).Nodup)
    (hrequests : (requesterIds s.db uid).Nodup) (hnul : ∀ row ∈ s.db.users.rows, 0 ∉ row.user)
    (hsize : 8 + (s.setFriendsOnline env uid).body.length < 2 ^ 31) :
    ∃ on off req dp, processPacket (packet env (s.setFriendsOnline env uid)) =
      .ok ([.friends on off req], dp) ∧ ReportExact s uid on off req := by
  have hnames : ∀ ids, ∀ i ∈ joinUsers s.db ids, 0 ∉ i.username := by
    intro ids i hi
    obtain ⟨_, row, hrow, _, hname⟩ := mem_joinUsers.mp hi
    rw [← hname]
    exact hnul row hrow
  rw [setFriendsOnline_eq (hok _) (hok _)] at hsize ⊢
  obtain ⟨dp, hread⟩ := processPacket_friends env (by
    intro i hi
    simp only [List.mem_append, List.mem_filter, List.mem_reverse] at hi
    rcases hi with (⟨hi, _⟩ | ⟨hi, _⟩) | hi
    · exact hnames _ i hi
    · exact hnames _ i hi
    · exact hnames _ i hi) hsize
  exact ⟨_, _, _, dp, hread, reportExact_of_lists hfriends hrequests⟩

/-- Two friends, both online. -/
def friendsOnline : ServerState :=
  { twoUsers with db := { sampleDb 8 with friends := [(1, 2), (2, 1)] } }

theorem friends_report_exact_two : ∃ on off req dp,
    processPacket (packet sampleEnv (friendsOnline.setFriendsOnline sampleEnv 1)) =
      .ok ([.friends on off req], dp) ∧ ReportExact friendsOnline 1 on off req :=
  friends_report_exact (fun _ _ => rfl) (by decide) (by decide) (by decide) (by decide)

end VhIM.Client
