import VhIM.Sql.Database
import VhIM.Utility.Vstack
import VhIM.Server.ServerUser

/-! # The store

`sql_ch.c`. Each function connects, issues its queries in order and fetches
rows; `ok` says which of these steps succeed. A query that fails has no effect,
and each one that succeeds is committed at once. A fetch fails when the row
does not arrive. -/
namespace VhIM.Sql
open VhIM.Utility
open VhIM.Server (ServerUserInfo)

/-- A step of a function of `sql_ch.c` that can fail: the connection attempt,
its `k`-th query, its `k`-th fetch. -/
inductive SqlStep where
  | connect
  | query (k : Nat)
  | fetch (k : Nat)
  deriving DecidableEq

variable (ok : SqlStep → Bool)

/-! ## Accounts -/

/-- The stored form of a password: the digest of the salt and the password. -/
def hexedHash (lib : Externals) (salt pw : List UInt8) : List UInt8 :=
  ubytesToString (lib.sha256 (salt ++ pw))

/-- `sql_ch_check_user_auth`: the id, and the result left in `*result`. -/
def sqlChCheckUserAuth (lib : Externals) (db : Database) (user pw : List UInt8) : Int32 × Sqlv :=
  if !ok .connect then (userIdInvalid, .connectionError)
  else if !ok (.query 0) then (userIdInvalid, .connectionError)
  else
    match if ok (.fetch 0) then db.users.byName lib user else none with
    | some row =>
      if row.password ≠ hexedHash lib row.salt pw then (userIdInvalid, .wrongPassword)
      else (row.id, .success)
    | none => (userIdInvalid, .userNotFound)

/-- `sql_ch_add_user`; `saltBytes` is what `RAND_bytes` gives. -/
def sqlChAddUser (lib : Externals) (saltBytes : List UInt8) (db : Database)
    (user pw : List UInt8) : Sqlv × Database :=
  if !ok .connect then (.connectionError, db)
  else if !ok (.query 0) then (.connectionError, db)
  else if !ok (.fetch 0) then (.connectionError, db)
  else if (db.users.byName lib user).isSome then (.userExists, db)
  else
    let hexedSalt := ubytesToString saltBytes
    if !ok (.query 1) then (.connectionError, db)
    else
      match db.users.insert user (hexedHash lib hexedSalt pw) hexedSalt with
      | some users => (.success, { db with users := users })
      | none => (.connectionError, db)

def sqlChLoadPrivileges (db : Database) (uid : Int32) : UInt8 :=
  if !ok .connect then 0
  else if !ok (.query 0) then 0
  else
    match if ok (.fetch 0) then db.users.byId uid else none with
    | some row => UInt8.ofNat row.privilege
    | none => 0

def sqlChUpdatePrivileges (db : Database) (uid : Int32) (p : UInt8) : Int32 × Database :=
  if !ok .connect then (2, db)
  else if !ok (.query 0) then (3, db)
  else (0, { db with users := db.users.setPrivilege uid p.toNat })

def sqlChUserExists (db : Database) (uid : Int32) : Bool :=
  ok .connect && ok (.query 0) && ok (.fetch 0) && (db.users.byId uid).isSome

/-! ## Friends -/

def sqlChCreateFriendRequest (db : Database) (uidFrom uidTo : Int32) : Sqlv × Database :=
  if !ok .connect then (.connectionError, db)
  else if !ok (.query 0) then (.success, db)  -- the result is not set on this exit
  else if !ok (.fetch 0) then (.nope, db)
  else if (uidFrom, uidTo) ∈ db.friendRequests then (.entryExists, db)
  else if !ok (.query 1) then (.success, db)
  else if !ok (.fetch 1) then (.connectionError, db)
  else if (uidTo, uidFrom) ∈ db.friendRequests then (.otherExists, db)
  else if !ok (.query 2) then (.connectionError, db)
  else (.success, { db with friendRequests := db.friendRequests ++ [(uidFrom, uidTo)] })

def sqlChCreateFriends (db : Database) (uid1 uid2 : Int32) : Sqlv × Database :=
  if !ok .connect then (.connectionError, db)
  else if !ok (.query 0) then (.connectionError, db)
  else
    let db := { db with friends := db.friends ++ [(uid1, uid2)] }
    if !ok (.query 1) then (.connectionError, db)
    else
      let db := { db with friends := db.friends ++ [(uid2, uid1)] }
      if !ok (.query 2) then (.connectionError, db)
      else
        (.success, { db with friendRequests := db.friendRequests.filter (!between uid1 uid2 ·) })

def sqlChAreFriends (db : Database) (uidFrom uidTo : Int32) : Bool :=
  ok .connect && ok (.query 0) && ok (.fetch 0) && decide ((uidFrom, uidTo) ∈ db.friends)

def sqlChDeleteFriends (db : Database) (uid1 uid2 : Int32) : Sqlv × Database :=
  if !ok .connect then (.connectionError, db)
  else if !ok (.query 0) then (.success, db)  -- the result is not set on this exit
  else if !ok (.fetch 0) then (.connectionError, db)
  else if (uid1, uid2) ∈ db.friends then
    if !ok (.query 1) then (.connectionError, db)
    else (.entryExists, { db with friends := db.friends.filter (!between uid1 uid2 ·) })
  else
    if !ok (.query 1) then (.connectionError, db)
    else
      (.success, { db with friendRequests := db.friendRequests.filter (!between uid1 uid2 ·) })

/-- The rows that `while ((row = mysql_fetch_row(res)) != NULL)` sees. -/
def fetchRows {α : Type} : Nat → List α → List α
  | _, [] => []
  | k, row :: rows => if ok (.fetch k) then row :: fetchRows (k + 1) rows else []

/-- The rows of a join with `users` on an id, with the name. -/
def joinUsers (db : Database) (ids : List Int32) : List ServerUserInfo :=
  ids.flatMap fun id => (db.users.rows.filter (fun r => r.id = id)).map fun r => ⟨id, r.user⟩

/-- `sql_ch_get_friend_requests`: pushes who has a request pending towards
`uidFrom`. -/
def sqlChGetFriendRequests (db : Database) (uidFrom : Int32)
    (requestsOut : Vstack ServerUserInfo) : Sqlv × Vstack ServerUserInfo :=
  if !ok .connect then (.connectionError, requestsOut)
  else if !ok (.query 0) then (.connectionError, requestsOut)
  else
    let ids := (db.friendRequests.filter (fun row => row.2 = uidFrom)).map Prod.fst
    (.success, requestsOut.pushAll (fetchRows ok 0 (joinUsers db ids)))

def sqlChGetFriends (db : Database) (uidFrom : Int32)
    (friendsOut : Vstack ServerUserInfo) : Sqlv × Vstack ServerUserInfo :=
  if !ok .connect then (.connectionError, friendsOut)
  else if !ok (.query 0) then (.connectionError, friendsOut)
  else
    let ids := (db.friends.filter (fun row => row.1 = uidFrom)).map Prod.snd
    (.success, friendsOut.pushAll (fetchRows ok 0 (joinUsers db ids)))

/-! ## Groups -/

def sqlChCreateGroup (db : Database) (name : List UInt8) (uidOwner : Int32) : Sqlv × Database :=
  if !ok .connect then (.connectionError, db)
  else if !ok (.query 0) then (.connectionError, db)
  else (.success, { db with groups := db.groups ++ [(name, uidOwner)] })

/-! ## What each call does to the tables -/

variable {ok}

/-- A login gives the id of the row it found, which is positive. -/
theorem sqlChCheckUserAuth_success {lib : Externals} {db : Database} {user pw : List UInt8}
    {uid : Int32} (h : sqlChCheckUserAuth ok lib db user pw = (uid, .success)) :
    ∃ row ∈ db.users.rows, lib.nameEq row.user user = true ∧ row.id = uid := by
  simp only [sqlChCheckUserAuth] at h
  split at h
  · cases h
  · split at h
    · cases h
    · split at h
      · next row hrow =>
        have hfound : db.users.byName lib user = some row := by
          split at hrow
          · exact hrow
          · cases hrow
        split at h
        · cases h
        · cases h
          exact ⟨row, (Users.byName_some hfound).1, (Users.byName_some hfound).2, rfl⟩
      · cases h

/-- A registration adds nothing or one row under a name not yet there. -/
theorem sqlChAddUser_cases (ok : SqlStep → Bool) (lib : Externals) (salt : List UInt8)
    (db : Database) (user pw : List UInt8) :
    (sqlChAddUser ok lib salt db user pw).2 = db ∨ ∃ users, db.users.byName lib user = none ∧
      db.users.insert user (hexedHash lib (ubytesToString salt) pw) (ubytesToString salt) =
        some users ∧
      sqlChAddUser ok lib salt db user pw = (.success, { db with users := users }) := by
  simp only [sqlChAddUser]
  split
  · exact .inl rfl
  · split
    · exact .inl rfl
    · split
      · exact .inl rfl
      · split
        · exact .inl rfl
        · next hnone =>
          split
          · exact .inl rfl
          · split
            · next users hins =>
              exact .inr ⟨users, by simpa using hnone, hins, rfl⟩
            · exact .inl rfl

/-! The accounts are written by two of these functions only. -/

theorem sqlChCreateFriendRequest_users (ok : SqlStep → Bool) (db : Database) (a b : Int32) :
    (sqlChCreateFriendRequest ok db a b).2.users = db.users := by
  simp only [sqlChCreateFriendRequest]
  split_ifs <;> rfl

theorem sqlChCreateFriends_users (ok : SqlStep → Bool) (db : Database) (a b : Int32) :
    (sqlChCreateFriends ok db a b).2.users = db.users := by
  simp only [sqlChCreateFriends]
  split_ifs <;> rfl

theorem sqlChDeleteFriends_users (ok : SqlStep → Bool) (db : Database) (a b : Int32) :
    (sqlChDeleteFriends ok db a b).2.users = db.users := by
  simp only [sqlChDeleteFriends]
  split_ifs <;> rfl

theorem sqlChCreateGroup_users (ok : SqlStep → Bool) (db : Database) (name : List UInt8)
    (uid : Int32) : (sqlChCreateGroup ok db name uid).2.users = db.users := by
  simp only [sqlChCreateGroup]
  split_ifs <;> rfl

end VhIM.Sql
