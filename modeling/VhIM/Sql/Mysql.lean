import VhIM.Lib.Programs
import VhIM.Sql.Queries

/-! # The calls to MySQL

`sql_ch.c` talks to the database through the C API only: a handle that is
made, connected and closed, queries on it, and a result set that is fetched
row by row and freed. The other side is the tables, with `ok` saying which
steps succeed. -/
namespace VhIM.Sql.Mysql
open VhIM.Lib VhIM.Utility

/-- `MYSQL_ROW`; a column that is NULL is `none`. -/
abbrev Row := List (Option (List UInt8))

/-- `row[i]`. -/
def column (row : Row) (i : Nat) : Option (List UInt8) := row.getD i none

inductive Call where
  | init
  | realConnect
  | error
  | query (q : Query)
  | useResult
  | fetchRow
  | freeResult
  | close

/-- What a call tells: whether it succeeded, or the next row. -/
@[reducible] def Reply : Call → Type
  | .realConnect | .query _ => Bool
  | .fetchRow => Option Row
  | .init | .error | .useResult | .freeResult | .close => Unit

/-! ## The other side -/

/-- The reply to `SELECT EXISTS(…)`. -/
def existsRow (b : Bool) : List Row := [[some (text (if b then "1" else "0"))]]

/-- The tables after the query, if it can be carried out. -/
def effect (db : Database) : Query → Option Database
  | .insertUser user md saltBytes =>
    (db.users.insert user (ubytesToString md) (ubytesToString saltBytes)).map
      fun users => { db with users := users }
  | .updatePrivilege p uid => some { db with users := db.users.setPrivilege uid p.toNat }
  | .insertRequest uidFrom uidTo =>
    some { db with friendRequests := db.friendRequests ++ [(uidFrom, uidTo)] }
  | .insertFriends uid1 uid2 => some { db with friends := db.friends ++ [(uid1, uid2)] }
  | .deleteRequests uid1 uid2 =>
    some { db with friendRequests := db.friendRequests.filter (!between uid1 uid2 ·) }
  | .deleteFriends uid1 uid2 =>
    some { db with friends := db.friends.filter (!between uid1 uid2 ·) }
  | .insertGroup name uidOwner => some { db with groups := db.groups ++ [(name, uidOwner)] }
  | .userByName _ | .nameExists _ | .loadPrivilege _ | .requestExists _ _ | .requestsTo _
  | .friendsExist _ _ | .friendsOf _ | .userExists _ => some db

def infoRows (infos : List Server.ServerUserInfo) : List Row :=
  infos.map fun info => [some (decimal info.id), some info.username]

def selected (lib : Externals) (db : Database) : Query → List Row
  | .userByName user =>
    (db.users.byName lib user).toList.map fun row =>
      [some (decimal row.id), some row.password, some row.salt]
  | .nameExists user => existsRow (db.users.byName lib user).isSome
  | .loadPrivilege uid =>
    (db.users.byId uid).toList.map fun row => [some (text (toString row.privilege))]
  | .requestExists uid1 uid2 => existsRow (decide ((uid1, uid2) ∈ db.friendRequests))
  | .requestsTo uid =>
    infoRows (joinUsers db ((db.friendRequests.filter (fun row => row.2 = uid)).map Prod.fst))
  | .friendsExist uid1 uid2 => existsRow (decide ((uid1, uid2) ∈ db.friends))
  | .friendsOf uid =>
    infoRows (joinUsers db ((db.friends.filter (fun row => row.1 = uid)).map Prod.snd))
  | .userExists uid => existsRow (db.users.byId uid).isSome
  | .insertUser _ _ _ | .updatePrivilege _ _ | .insertRequest _ _ | .insertFriends _ _
  | .deleteRequests _ _ | .deleteFriends _ _ | .insertGroup _ _ => []

/-- The tables, how many queries and fetches there were on this connection,
and the rows still to be fetched. -/
structure Side where
  db : Database
  queries : Nat
  fetches : Nat
  rows : List Row

def Side.start (db : Database) : Side := ⟨db, 0, 0, []⟩

/-- A query fails as a step, or because it cannot be carried out. -/
def Side.query (ok : SqlStep → Bool) (lib : Externals) (q : Query) (s : Side) : Bool × Side :=
  match if ok (.query s.queries) then effect s.db q else none with
  | some db => (true, { s with db := db, queries := s.queries + 1, rows := selected lib s.db q })
  | none => (false, { s with queries := s.queries + 1 })

/-- A fetch gives the next row, or NULL when there is none or it fails. -/
def Side.fetchRow (ok : SqlStep → Bool) (s : Side) : Option Row × Side :=
  (if ok (.fetch s.fetches) then s.rows.head? else none,
    { s with fetches := s.fetches + 1, rows := s.rows.tail })

def answer (ok : SqlStep → Bool) (lib : Externals) : (c : Call) → Side → Reply c × Side
  | .realConnect, s => (ok .connect, s)
  | .query q, s => s.query ok lib q
  | .fetchRow, s => s.fetchRow ok
  | .freeResult, s => ((), { s with rows := [] })
  | .init, s | .error, s | .useResult, s | .close, s => ((), s)

/-! ## The order of the calls -/

inductive Stage where
  | absent
  | fresh
  | refused
  | ready
  | failed
  /-- A query has succeeded whose result set is still to be taken. -/
  | pending
  | inUse
  /-- NULL was fetched. -/
  | drained
  | closed
  deriving DecidableEq

def selects : Query → Bool
  | .insertUser _ _ _ | .updatePrivilege _ _ | .insertRequest _ _ | .insertFriends _ _
  | .deleteRequests _ _ | .deleteFriends _ _ | .insertGroup _ _ => false
  | .userByName _ | .nameExists _ | .loadPrivilege _ | .requestExists _ _ | .requestsTo _
  | .friendsExist _ _ | .friendsOf _ | .userExists _ => true

/-- Which calls the API allows where: a query only on a connection with no
result set open, a fetch only until NULL, and nothing after the handle is
closed. -/
def stage : Program.Protocol Reply Stage
  | .init, _, .absent => some .fresh
  | .realConnect, r, .fresh => some (if r then .ready else .refused)
  | .error, _, .refused => some .refused
  | .error, _, .failed => some .failed
  | .query q, r, .ready =>
    some (if r then (if selects q then .pending else .ready) else .failed)
  | .useResult, _, .pending => some .inUse
  | .fetchRow, r, .inUse => some (if r.isSome then .inUse else .drained)
  | .freeResult, _, .inUse | .freeResult, _, .drained => some .ready
  | .close, _, .refused | .close, _, .ready | .close, _, .failed => some .closed
  | _, _, _ => none

end VhIM.Sql.Mysql
