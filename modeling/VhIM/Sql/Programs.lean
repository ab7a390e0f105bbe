import VhIM.Sql.Mysql
import VhIM.Client.Numbers

/-! # The functions of the store as programs

Each function of `sql_ch.c` with the calls it makes to MySQL, in order and on
every exit. Against the tables it comes to the function of `SqlCh`, and the
queries it sends are those of `Queries`. -/
namespace VhIM.Sql.Mysql
open VhIM.Lib VhIM.Lib.Program VhIM.Utility
open VhIM.Server (ServerUserInfo)
open VhIM.Client (atoi)

variable {α : Type}

abbrev mysql (c : Call) : Program Reply (Reply c) := perform c

/-! ## What the functions share -/

/-- A function that ends at `END: mysql_close(con);` on every exit. -/
def connected (failed : α) (body : Program Reply α) : Program Reply α := do
  mysql .init
  let r ← if ← mysql .realConnect then body else do
    mysql .error
    pure failed
  mysql .close
  pure r

/-- `if (mysql_query(con, query)) { errv(…); … }` with the exit taken there. -/
def tryQuery (q : Query) (failed : α) (next : Program Reply α) : Program Reply α := do
  if ← mysql (.query q) then next
  else
    mysql .error
    pure failed

/-- A result set is taken, and freed on every way on. -/
def withResult (body : Program Reply α) : Program Reply α := do
  mysql .useResult
  let r ← body
  mysql .freeResult
  pure r

/-- The row of `SELECT EXISTS(…)`: whether `row[0][0] == '1'`, or there is no
row. -/
def fetchExists (yes no missing : α) : Program Reply α := do
  match ← mysql .fetchRow with
  | some row =>
    match column row 0 with
    | some digits => pure (if digits.head? = some 49 then yes else no)
    | none => .stuck
  | none => pure missing

/-- `while ((row = mysql_fetch_row(res)) != NULL)`, for `n` turns at most: an
id and a name are pushed. -/
def fetchInfos : Nat → Vstack ServerUserInfo → Program Reply (Vstack ServerUserInfo)
  | 0, _ => .stuck
  | n + 1, out => do
    match ← mysql .fetchRow with
    | some row =>
      match column row 0, column row 1 with
      | some uid, some uname => fetchInfos n (out.push ⟨atoi uid, uname⟩)
      | _, _ => .stuck
    | none => pure out

/-! ## Accounts -/

def fetchAuth (lib : Externals) (pw : List UInt8) : Program Reply (Int32 × Sqlv) := do
  match ← mysql .fetchRow with
  | some row =>
    match column row 0, column row 1, column row 2 with
    | some uid, some fetchedPw, some salt =>
      if fetchedPw ≠ hexedHash lib salt pw then pure (userIdInvalid, .wrongPassword)
      else pure (atoi uid, .success)
    | _, _, _ => pure (userIdInvalid, .connectionError)
  | none => pure (userIdInvalid, .userNotFound)

/-- `sql_ch_check_user_auth`: two exits leave without `mysql_close`. -/
def sqlChCheckUserAuth (lib : Externals) (user pw : List UInt8) :
    Program Reply (Int32 × Sqlv) := do
  mysql .init
  if ← mysql .realConnect then
    tryQuery (.userByName user) (userIdInvalid, .connectionError) do
      let r ← withResult (fetchAuth lib pw)
      mysql .close
      pure r
  else
    mysql .error
    pure (userIdInvalid, .connectionError)

/-- `sql_ch_add_user`; `saltBytes` is what `RAND_bytes` gives. -/
def sqlChAddUser (lib : Externals) (saltBytes user pw : List UInt8) : Program Reply Sqlv :=
  connected .connectionError <| tryQuery (.nameExists user) .connectionError do
    let result ← withResult (fetchExists .userExists .success .connectionError)
    if result = .success then
      let md := lib.sha256 (ubytesToString saltBytes ++ pw)
      tryQuery (.insertUser user md saltBytes) .connectionError (pure result)
    else pure result

def fetchPrivilege : Program Reply UInt8 := do
  match ← mysql .fetchRow with
  | some row =>
    match column row 0 with
    | some digits => pure (UInt8.ofNat (atoi digits).toUInt32.toNat)
    | none => .stuck
  | none => pure 0

def sqlChLoadPrivileges (uid : Int32) : Program Reply UInt8 :=
  connected 0 <| tryQuery (.loadPrivilege uid) 0 <| withResult fetchPrivilege

def sqlChUpdatePrivileges (uid : Int32) (p : UInt8) : Program Reply Int32 :=
  connected 2 <| tryQuery (.updatePrivilege p uid) 3 <| pure 0

def sqlChUserExists (uid : Int32) : Program Reply Bool := do
  let result ← connected Sqlv.connectionError <| tryQuery (.userExists uid) .success <|
    withResult (fetchExists .entryExists .nope .nope)
  pure (result = .entryExists)

/-! ## Friends -/

def sqlChCreateFriendRequest (uidFrom uidTo : Int32) : Program Reply Sqlv :=
  connected .connectionError <| tryQuery (.requestExists uidFrom uidTo) .success do
    let result ← withResult (fetchExists .entryExists .success .nope)
    if result = .success then
      tryQuery (.requestExists uidTo uidFrom) result do
        let result ← withResult (fetchExists .otherExists .success .connectionError)
        if result = .success then
          tryQuery (.insertRequest uidFrom uidTo) .connectionError (pure result)
        else pure result
    else pure result

def sqlChGetFriendRequests (n : Nat) (uidFrom : Int32) (requestsOut : Vstack ServerUserInfo) :
    Program Reply (Sqlv × Vstack ServerUserInfo) :=
  connected (.connectionError, requestsOut) <|
    tryQuery (.requestsTo uidFrom) (.connectionError, requestsOut) do
      let out ← withResult (fetchInfos n requestsOut)
      pure (.success, out)

def sqlChCreateFriends (uid1 uid2 : Int32) : Program Reply Sqlv :=
  connected .connectionError <|
    tryQuery (.insertFriends uid1 uid2) .connectionError <|
      tryQuery (.insertFriends uid2 uid1) .connectionError <|
        tryQuery (.deleteRequests uid1 uid2) .connectionError <| pure .success

def sqlChAreFriends (uidFrom uidTo : Int32) : Program Reply Bool := do
  let result ← connected Sqlv.connectionError <| tryQuery (.friendsExist uidFrom uidTo) .success <|
    withResult (fetchExists .entryExists .success .nope)
  pure (result = .entryExists)

def sqlChGetFriends (n : Nat) (uidFrom : Int32) (friendsOut : Vstack ServerUserInfo) :
    Program Reply (Sqlv × Vstack ServerUserInfo) :=
  connected (.connectionError, friendsOut) <|
    tryQuery (.friendsOf uidFrom) (.connectionError, friendsOut) do
      let out ← withResult (fetchInfos n friendsOut)
      pure (.success, out)

def sqlChDeleteFriends (uid1 uid2 : Int32) : Program Reply Sqlv :=
  connected .connectionError <| tryQuery (.friendsExist uid1 uid2) .success do
    let result ← withResult (fetchExists .entryExists .success .connectionError)
    if result = .entryExists then
      tryQuery (.deleteFriends uid1 uid2) .connectionError (pure result)
    else if result = .success then
      tryQuery (.deleteRequests uid1 uid2) .connectionError (pure result)
    else pure result

/-! ## Groups -/

def sqlChCreateGroup (name : List UInt8) (uidOwner : Int32) : Program Reply Sqlv :=
  connected .connectionError <|
    tryQuery (.insertGroup name uidOwner) .connectionError <| pure .success

end VhIM.Sql.Mysql
