import VhIM.Server.Notices
import VhIM.Server.Requests
import VhIM.Sql.Queries

/-! # Formatted texts

Every text that the handling of a packet formats into a buffer of fixed size:
the queries, case by case where the handlers call `sql_ch.c`, and the labels.
`sprintf` asks nothing about the buffer, so what fits is a matter of the names. -/
namespace VhIM.Server
open VhIM.Network VhIM.Sql VhIM.Utility
open ServerState

structure Formatted where
  size : Nat
  chars : List UInt8
  deriving DecidableEq

namespace Formatted

def Fits (f : Formatted) : Prop := f.chars.length < f.size

instance decidableFits (f : Formatted) : Decidable f.Fits := Nat.decLt _ _

/-- `query`, the buffer of `sql_ch.c`. -/
def inQuery (q : Query) : Formatted := ⟨256, q.formatted⟩

/-- `name`, the buffer of MSG_BROADCAST and MSG_WHISPER. -/
def inName (user : ServerUser) : Formatted := ⟨64, label user⟩

theorem inQuery_fits (q : Query) : (inQuery q).Fits ↔ q.NamesFit := by
  rw [← q.formatted_fits_iff]
  exact Nat.lt_succ_iff

theorem inName_fits (user : ServerUser) :
    (inName user).Fits ↔ user.username.length + (decimal user.id).length ≤ 61 := by
  have hparens : (text "(").length = 1 ∧ (text ")").length = 1 := by decide +kernel
  simp only [Fits, inName, label, List.length_append, hparens]
  omega

end Formatted

/-! ## What each case formats -/

section
variable (lib : Externals) (env : Env) (s : ServerState)

/-- `send_to_friends`, once for each notice. -/
def noticeQueries (notices : List ServerMsg) : List Query :=
  notices.flatMap fun
    | .friendOnline uid _ | .friendOffline uid => getFriendsQueries (env.sqlOk .getFriends) uid
    | _ => []

def authorizeClientQueries (username pwd : List UInt8) : List Query :=
  checkUserAuthQueries (env.sqlOk .checkUserAuth) username ++
    let (uid, res) := sqlChCheckUserAuth (env.sqlOk .checkUserAuth) lib s.db username pwd
    if res = .success ∧ uid ≠ userIdInvalid ∧ s.mapUsername username = none then
      loadPrivilegesQueries (env.sqlOk .loadPrivileges) uid
    else []

def sendFriendRequestQueries (uidFrom uidTo : Int32) : List Query :=
  userExistsQueries (env.sqlOk .userExists) uidTo ++
    if sqlChUserExists (env.sqlOk .userExists) s.db uidTo then
      createFriendRequestQueries (env.sqlOk .createFriendRequest) s.db uidFrom uidTo ++
        if (sqlChCreateFriendRequest (env.sqlOk .createFriendRequest) s.db uidFrom uidTo).1 =
            .otherExists then
          createFriendsQueries (env.sqlOk .createFriends) uidFrom uidTo
        else []
    else []

def authTexts (ssl : Ssl) (user : ServerUser) : Command → List Formatted
  | .broadcast _ => [.inName user]
  | .cmdKickId (some tid) =>
    (noticeQueries env (s.cmdKickIdNotices env tid)).map .inQuery
  | .whisper _ (some _) => [.inName user]
  | .friends =>
    (getFriendsQueries (env.sqlOk .getFriends) user.id ++
      getFriendRequestsQueries (env.sqlOk .getFriendRequests) user.id).map .inQuery
  | .logout => (noticeQueries env (dropNotices user ssl)).map .inQuery
  | .disconnect => (noticeQueries env (s.disconnectNotices ssl)).map .inQuery
  | .grantPrivileges uid priv =>
    (updatePrivilegesQueries (env.sqlOk .updatePrivileges) uid priv.toUInt32.toUInt8).map .inQuery
  | .addFriend uidTarget =>
    (areFriendsQueries (env.sqlOk .areFriends) user.id uidTarget ++
      if !sqlChAreFriends (env.sqlOk .areFriends) s.db user.id uidTarget then
        sendFriendRequestQueries env s user.id uidTarget
      else []).map .inQuery
  | .removeFriend uidTarget =>
    (deleteFriendsQueries (env.sqlOk .deleteFriends) s.db user.id uidTarget).map .inQuery
  | .groupCreate name =>
    (createGroupQueries (env.sqlOk .createGroup) name user.id).map .inQuery
  | _ => []

def unauthTexts (ssl : Ssl) : Command → List Formatted
  | .reqLogin uname upw =>
    (authorizeClientQueries lib env s uname upw ++
      noticeQueries env (s.loginNotices lib env ssl uname upw)).map .inQuery
  | .reqRegister uname upw =>
    (addUserQueries (env.sqlOk .addUser) lib env.saltBytes s.db uname upw).map .inQuery
  | .disconnect => (noticeQueries env (s.disconnectNotices ssl)).map .inQuery
  | _ => []

def commandTexts (sc : ServerClient) (cmd : Command) : List Formatted :=
  if 0 < sc.id then
    match s.getUserById sc.id with
    | some user => authTexts env s sc.ssl user cmd
    | none => []
  else unauthTexts lib env s sc.ssl cmd

def packetTexts (sc : ServerClient) (data : List UInt8) : List Formatted :=
  match readPacket s sc (Datapacket.createFromData data) with
  | .ok (cmd, _) => commandTexts lib env s sc cmd
  | .error _ => []

/-! ## Which names fit -/

def AuthNamesFit (user : ServerUser) : Command → Prop
  | .broadcast _ | .whisper _ (some _) => user.username.length + (decimal user.id).length ≤ 61
  | .groupCreate name =>
    env.sqlOk .createGroup .connect → name.length + (decimal user.id).length ≤ 211
  | _ => True

/-- For a client at which nobody is logged in. Of a new name there is less room
once it comes to be inserted. -/
def UnauthNamesFit : Command → Prop
  | .reqLogin uname _ => env.sqlOk .checkUserAuth .connect → uname.length ≤ 185
  | .reqRegister uname _ => env.sqlOk .addUser .connect → uname.length ≤ 201 ∧
      (env.sqlOk .addUser (.query 0) → env.sqlOk .addUser (.fetch 0) →
        s.db.users.byName lib uname = none → uname.length ≤ 75)
  | _ => True

def CommandNamesFit (sc : ServerClient) (cmd : Command) : Prop :=
  if 0 < sc.id then ∀ user, s.getUserById sc.id = some user → AuthNamesFit env user cmd
  else UnauthNamesFit lib env s cmd

def PacketNamesFit (sc : ServerClient) (data : List UInt8) : Prop :=
  ∀ cmd dp, readPacket s sc (Datapacket.createFromData data) = .ok (cmd, dp) →
    CommandNamesFit lib env s sc cmd

end

/-! ## The texts fit with the names -/

section
variable {lib : Externals} {env : Env} {s : ServerState} {user : ServerUser} {ssl : Ssl}

theorem forall_inQuery {qs : List Query} :
    (∀ t ∈ qs.map Formatted.inQuery, t.Fits) ↔ ∀ q ∈ qs, q.NamesFit := by
  simp only [List.forall_mem_map, Formatted.inQuery_fits]

theorem forall_onceConnected {ok : SqlStep → Bool} {q : Query} :
    (∀ q' ∈ onceConnected ok q, q'.NamesFit) ↔ (ok .connect → q.NamesFit) := by
  cases h : ok .connect <;> simp [onceConnected, h]

/-- A text with numbers only. -/
theorem onceConnected_fits {ok : SqlStep → Bool} {q : Query} (h : q.NamesFit) :
    ∀ q' ∈ onceConnected ok q, q'.NamesFit := forall_onceConnected.mpr fun _ => h

theorem noticeQueries_fit (notices : List ServerMsg) :
    ∀ q ∈ noticeQueries env notices, q.NamesFit := by
  intro q hq
  obtain ⟨m, _, hm⟩ := List.mem_flatMap.mp hq
  cases m with
  | friendOnline uid name => exact onceConnected_fits (q := .friendsOf uid) trivial q hm
  | friendOffline uid => exact onceConnected_fits (q := .friendsOf uid) trivial q hm
  | _ => cases hm

theorem createFriendRequestQueries_fit (ok : SqlStep → Bool) (db : Database)
    (uidFrom uidTo : Int32) :
    ∀ q ∈ createFriendRequestQueries ok db uidFrom uidTo, q.NamesFit := by
  unfold createFriendRequestQueries
  split_ifs <;> simp [Query.NamesFit]

theorem createFriendsQueries_fit (ok : SqlStep → Bool) (uid1 uid2 : Int32) :
    ∀ q ∈ createFriendsQueries ok uid1 uid2, q.NamesFit := by
  unfold createFriendsQueries
  split_ifs <;> simp [Query.NamesFit]

theorem deleteFriendsQueries_fit (ok : SqlStep → Bool) (db : Database) (uid1 uid2 : Int32) :
    ∀ q ∈ deleteFriendsQueries ok db uid1 uid2, q.NamesFit := by
  unfold deleteFriendsQueries
  split_ifs <;> simp [Query.NamesFit]

theorem sendFriendRequestQueries_fit (uidFrom uidTo : Int32) :
    ∀ q ∈ sendFriendRequestQueries env s uidFrom uidTo, q.NamesFit := by
  unfold sendFriendRequestQueries
  refine List.forall_mem_append.mpr ⟨onceConnected_fits trivial, ?_⟩
  split
  · refine List.forall_mem_append.mpr ⟨createFriendRequestQueries_fit _ _ _ _, ?_⟩
    split
    · exact createFriendsQueries_fit _ _ _
    · exact List.forall_mem_nil _
  · exact List.forall_mem_nil _

theorem authorizeClientQueries_fit {uname upw : List UInt8} :
    (∀ q ∈ authorizeClientQueries lib env s uname upw, q.NamesFit) ↔
      (env.sqlOk .checkUserAuth .connect → uname.length ≤ 185) := by
  have hload : ∀ uid, ∀ q ∈ loadPrivilegesQueries (env.sqlOk .loadPrivileges) uid, q.NamesFit :=
    fun uid => onceConnected_fits trivial
  rw [authorizeClientQueries, List.forall_mem_append, checkUserAuthQueries, forall_onceConnected]
  refine and_iff_left ?_
  dsimp only
  split
  · exact hload _
  · exact List.forall_mem_nil _

/-- Digest and salt take 64 digits each. -/
theorem addUserQueries_fit (hdigest : ∀ data, (lib.sha256 data).length = 32)
    {ok : SqlStep → Bool} {saltBytes : List UInt8} (hsalt : saltBytes.length = 32) {db : Database}
    {uname upw : List UInt8} :
    (∀ q ∈ addUserQueries ok lib saltBytes db uname upw, q.NamesFit) ↔
      (ok .connect → uname.length ≤ 201 ∧ (ok (.query 0) → ok (.fetch 0) →
        db.users.byName lib uname = none → uname.length ≤ 75)) := by
  have hinsert : ∀ data, (Query.insertUser uname (lib.sha256 data) saltBytes).NamesFit ↔
      uname.length ≤ 75 := by
    intro data
    simp only [Query.NamesFit, hdigest, hsalt]
    omega
  unfold addUserQueries
  cases ok .connect with
  | false => simp
  | true =>
    cases ok (.query 0) with
    | false => simp [Query.NamesFit]
    | true =>
      cases ok (.fetch 0) with
      | false => simp [Query.NamesFit]
      | true =>
        cases db.users.byName lib uname with
        | some row => simp [Query.NamesFit]
        | none =>
          have hexists : (Query.nameExists uname).NamesFit ↔ uname.length ≤ 201 := Iff.rfl
          simp [hinsert, hexists]

theorem authTexts_fit (cmd : Command) :
    (∀ t ∈ authTexts env s ssl user cmd, t.Fits) ↔ AuthNamesFit env user cmd := by
  have hfits : ∀ {qs : List Query}, (∀ q ∈ qs, q.NamesFit) →
      ((∀ t ∈ qs.map Formatted.inQuery, t.Fits) ↔ True) := fun h =>
    iff_true_intro (forall_inQuery.mpr h)
  cases cmd with
  | broadcast msg => exact List.forall_mem_singleton.trans (Formatted.inName_fits user)
  | cmdKickId tid =>
    cases tid with
    | some tid => exact hfits (noticeQueries_fit _)
    | none => exact iff_true_intro (List.forall_mem_nil _)
  | whisper tid msg =>
    cases msg with
    | some msg => exact List.forall_mem_singleton.trans (Formatted.inName_fits user)
    | none => exact iff_true_intro (List.forall_mem_nil _)
  | friends =>
    exact hfits (List.forall_mem_append.mpr
      ⟨onceConnected_fits trivial, onceConnected_fits trivial⟩)
  | logout | disconnect => exact hfits (noticeQueries_fit _)
  | grantPrivileges uid priv => exact hfits (onceConnected_fits trivial)
  | addFriend uidTarget =>
    refine hfits (List.forall_mem_append.mpr ⟨onceConnected_fits trivial, ?_⟩)
    split
    · exact sendFriendRequestQueries_fit _ _
    · exact List.forall_mem_nil _
  | removeFriend uidTarget => exact hfits (deleteFriendsQueries_fit _ _ _ _)
  | groupCreate name => exact forall_inQuery.trans forall_onceConnected
  | _ => exact iff_true_intro (List.forall_mem_nil _)

theorem unauthTexts_fit (hdigest : ∀ data, (lib.sha256 data).length = 32)
    (hsalt : env.saltBytes.length = 32) (cmd : Command) :
    (∀ t ∈ unauthTexts lib env s ssl cmd, t.Fits) ↔ UnauthNamesFit lib env s cmd := by
  cases cmd with
  | reqLogin uname upw =>
    rw [unauthTexts, forall_inQuery, List.forall_mem_append, authorizeClientQueries_fit,
      and_iff_left (noticeQueries_fit _), UnauthNamesFit]
  | reqRegister uname upw =>
    rw [unauthTexts, forall_inQuery, addUserQueries_fit hdigest hsalt, UnauthNamesFit]
  | disconnect => exact iff_true_intro (forall_inQuery.mpr (noticeQueries_fit _))
  | _ => exact iff_true_intro (List.forall_mem_nil _)

theorem packetTexts_fit (hdigest : ∀ data, (lib.sha256 data).length = 32)
    (hsalt : env.saltBytes.length = 32) (sc : ServerClient) (data : List UInt8) :
    (∀ t ∈ packetTexts lib env s sc data, t.Fits) ↔ PacketNamesFit lib env s sc data := by
  have hcommand : ∀ cmd, (∀ t ∈ commandTexts lib env s sc cmd, t.Fits) ↔
      CommandNamesFit lib env s sc cmd := by
    intro cmd
    unfold commandTexts CommandNamesFit
    split
    · cases s.getUserById sc.id with
      | some user => simp [authTexts_fit]
      | none => simp
    · exact unauthTexts_fit hdigest hsalt cmd
  unfold packetTexts PacketNamesFit
  cases readPacket s sc (Datapacket.createFromData data) with
  | ok p =>
    refine (hcommand p.1).trans ⟨?_, fun h => h p.1 p.2 rfl⟩
    rintro h cmd dp ⟨⟩
    exact h
  | error e => simp

end

/-- A name that leaves room for the hash and the salt leaves room for every id
only where it is shorter still. -/
theorem stored_name_fits {lib : Externals} (hdigest : ∀ data, (lib.sha256 data).length = 32)
    {saltBytes : List UInt8} (hsalt : saltBytes.length = 32) (name data : List UInt8) :
    ((Formatted.inQuery (.insertUser name (lib.sha256 data) saltBytes)).Fits →
      ∀ user : ServerUser, user.username = name → (Formatted.inName user).Fits) ↔
      name.length ≤ 50 ∨ 75 < name.length := by
  have hinsert : (Formatted.inQuery (.insertUser name (lib.sha256 data) saltBytes)).Fits ↔
      name.length ≤ 75 := by
    rw [Formatted.inQuery_fits]
    simp only [Query.NamesFit, hdigest, hsalt]
    omega
  simp only [hinsert, Formatted.inName_fits]
  constructor
  · intro h
    by_cases hle : name.length ≤ 75
    · have hlong : (decimal (-2147483648)).length = 11 := by decide +kernel
      have hname := h hle ⟨-2147483648, 1, [], name, 0⟩ rfl
      simp only [hlong] at hname
      omega
    · omega
  · rintro h hle user rfl
    have hid := decimal_length user.id
    omega

/-- Every text that a packet makes the server format fits exactly when the
names it brings, or is labelled with, leave the room. -/
theorem formatted_texts_fit_iff (lib : Externals)
    (hdigest : ∀ data, (lib.sha256 data).length = 32) (env : Env)
    (hsalt : env.saltBytes.length = 32) :
    (∀ s sc data, (∀ t ∈ packetTexts lib env s sc data, t.Fits) ↔
      PacketNamesFit lib env s sc data) ∧
    (∀ user, (Formatted.inName user).Fits ↔
      user.username.length + (decimal user.id).length ≤ 61) ∧
    ∀ name data, ((Formatted.inQuery (.insertUser name (lib.sha256 data) env.saltBytes)).Fits →
      ∀ user : ServerUser, user.username = name → (Formatted.inName user).Fits) ↔
        name.length ≤ 50 ∨ 75 < name.length :=
  ⟨fun s sc data => packetTexts_fit (s := s) hdigest hsalt sc data, Formatted.inName_fits,
    fun name data => stored_name_fits hdigest hsalt name data⟩

/-- What memory holds, that every step succeeds, and a salt. -/
def saltedEnv : Env := ⟨fun _ => 0, fun _ _ => true, emptyDigest⟩

theorem formatted_texts_fit_iff_salted :
    (∀ s sc data, (∀ t ∈ packetTexts sampleExt saltedEnv s sc data, t.Fits) ↔
      PacketNamesFit sampleExt saltedEnv s sc data) ∧
    (∀ user, (Formatted.inName user).Fits ↔
      user.username.length + (decimal user.id).length ≤ 61) ∧
    ∀ name data,
      ((Formatted.inQuery (.insertUser name (sampleExt.sha256 data) saltedEnv.saltBytes)).Fits →
        ∀ user : ServerUser, user.username = name → (Formatted.inName user).Fits) ↔
          name.length ≤ 50 ∨ 75 < name.length :=
  formatted_texts_fit_iff sampleExt (fun _ => rfl) saltedEnv rfl

/-- A registration under a name of 76 characters writes past the end of the
query; one of 70 stores a name whose label is too long. -/
theorem formatted_texts_overflow :
    (¬ ∀ t ∈ packetTexts sampleExt saltedEnv (start (sampleDb 0) 3) ⟨-1, ⟨1, 4⟩⟩
      (packetOf .reqRegister [.string (List.replicate 76 97), .string []]), t.Fits) ∧
    (Formatted.inQuery (.insertUser (List.replicate 70 97) emptyDigest emptyDigest)).Fits ∧
    ¬ (Formatted.inName ⟨1, 1, [], List.replicate 70 97, 0⟩).Fits := by
  decide +kernel

end VhIM.Server
