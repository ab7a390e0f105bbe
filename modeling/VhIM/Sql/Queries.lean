import VhIM.Sql.SqlCh
import VhIM.Utility.Decimal
import VhIM.Utility.Format

/-! # The texts of the queries

Every `sprintf` into `query`, with its format and its arguments, and which of
them each function of `sql_ch.c` comes to: a query is formatted right before
it is issued. -/
namespace VhIM.Sql
open VhIM.Utility VhIM.Lib.Literals

inductive Template where
  | userByName
  | nameExists
  | insertUser
  | loadPrivilege
  | updatePrivilege
  | requestExists
  | insertRequest
  | requestsTo
  | insertFriends
  | deleteRequests
  | friendsExist
  | friendsOf
  | deleteFriends
  | userExists
  | insertGroup
  deriving DecidableEq

namespace Template

def format : Template → List UInt8
  | userByName =>
    text "SELECT `id`, `password`, `salt` FROM `users` WHERE `user` = '%s' LIMIT 1"
  | nameExists => text "SELECT EXISTS(SELECT 1 FROM `users` WHERE `user` = '%s')"
  | insertUser => text "INSERT INTO `users` VALUES(DEFAULT, '%s', '%s', '%s', '0')"
  | loadPrivilege => text "SELECT `privilege` FROM `users` WHERE `id`='%d'"
  | updatePrivilege => text "UPDATE `users` SET `privilege`='%u' WHERE `id`='%d'"
  | requestExists =>
    text "SELECT EXISTS(SELECT 1 FROM `friend_requests` WHERE `friend_id1` = '%d' AND " ++
      text "`friend_id2` = '%d')"
  | insertRequest => text "INSERT INTO `friend_requests` VALUES(DEFAULT, '%d', '%d')"
  | requestsTo =>
    text "SELECT friend_requests.friend_id1, users.user FROM `friend_requests` INNER JOIN " ++
      text "`users` on users.id = friend_requests.friend_id1 " ++
      text "WHERE friend_requests.friend_id2 = '%d'"
  | insertFriends => text "INSERT INTO `friends` VALUES(DEFAULT, '%d', '%d')"
  | deleteRequests =>
    text "DELETE FROM `friend_requests` WHERE (`friend_id1` = '%d' AND `friend_id2` = '%d') OR " ++
      text "(`friend_id1` = '%d' AND `friend_id2` = '%d')"
  | friendsExist =>
    text "SELECT EXISTS(SELECT 1 FROM `friends` WHERE `friend_id1` = '%d' AND " ++
      text "`friend_id2` = '%d')"
  | friendsOf =>
    text "select friends.friend_id2, users.user from `friends` INNER JOIN `users` on " ++
      text "users.id = friends.friend_id2 WHERE friends.friend_id1 = '%d'"
  | deleteFriends =>
    text "DELETE FROM `friends` WHERE (`friend_id1` = '%d' AND `friend_id2` = '%d') OR " ++
      text "(`friend_id1` = '%d' AND `friend_id2` = '%d')"
  | userExists => text "SELECT EXISTS(SELECT 1 FROM `users` WHERE `id` = '%d')"
  | insertGroup => text "INSERT INTO `groups` VALUES(DEFAULT, '%s', '%d')"

end Template

/-- A text formatted in `sql_ch.c`, by what its format is given. -/
inductive Query where
  | userByName (user : List UInt8)
  | nameExists (user : List UInt8)
  /-- The digest and the salt are printed as hex digits. -/
  | insertUser (user md saltBytes : List UInt8)
  | loadPrivilege (uid : Int32)
  | updatePrivilege (p : UInt8) (uid : Int32)
  | requestExists (uid1 uid2 : Int32)
  | insertRequest (uidFrom uidTo : Int32)
  | requestsTo (uid : Int32)
  | insertFriends (uid1 uid2 : Int32)
  | deleteRequests (uid1 uid2 : Int32)
  | friendsExist (uid1 uid2 : Int32)
  | friendsOf (uid : Int32)
  | deleteFriends (uid1 uid2 : Int32)
  | userExists (uid : Int32)
  | insertGroup (name : List UInt8) (uidOwner : Int32)

namespace Query

def template : Query → Template
  | userByName _ => .userByName
  | nameExists _ => .nameExists
  | insertUser _ _ _ => .insertUser
  | loadPrivilege _ => .loadPrivilege
  | updatePrivilege _ _ => .updatePrivilege
  | requestExists _ _ => .requestExists
  | insertRequest _ _ => .insertRequest
  | requestsTo _ => .requestsTo
  | insertFriends _ _ => .insertFriends
  | deleteRequests _ _ => .deleteRequests
  | friendsExist _ _ => .friendsExist
  | friendsOf _ => .friendsOf
  | deleteFriends _ _ => .deleteFriends
  | userExists _ => .userExists
  | insertGroup _ _ => .insertGroup

def args : Query → List Arg
  | userByName user | nameExists user => [.string user]
  | insertUser user md saltBytes =>
    [.string user, .string (ubytesToString md), .string (ubytesToString saltBytes)]
  | updatePrivilege p uid => [.unsigned p.toUInt32, .int uid]
  | loadPrivilege uid | requestsTo uid | friendsOf uid | userExists uid => [.int uid]
  | requestExists a b | insertRequest a b | insertFriends a b | friendsExist a b =>
    [.int a, .int b]
  | deleteRequests a b | deleteFriends a b => [.int a, .int b, .int b, .int a]
  | insertGroup name uid => [.string name, .int uid]

def formatted (q : Query) : List UInt8 := sprintf q.template.format q.args

/-- The names in the query that came with a packet. -/
def names : Query → List (List UInt8)
  | userByName user | nameExists user | insertUser user _ _ => [user]
  | insertGroup name _ => [name]
  | _ => []

end Query

def backslash : UInt8 := 92

/-! ## The formats -/

namespace Template

def tokens (f : Template) : List (Token UInt8) :=
  (lex singleQuote backslash id none f.format).getD []

def arity : Template → Nat
  | insertUser => 3
  | updatePrivilege | requestExists | insertRequest | insertFriends | friendsExist |
    insertGroup => 2
  | deleteRequests | deleteFriends => 4
  | _ => 1

theorem lex_format (f : Template) :
    lex singleQuote backslash id none f.format = some f.tokens := by
  cases f <;> decide +kernel

theorem render_tokens (f : Template) : render singleQuote f.tokens = f.format := by
  cases f <;> decide +kernel

theorem tokens_plain (f : Template) : ∀ t ∈ f.tokens, PlainToken t := by
  cases f <;> decide +kernel

theorem tokens_spaced (f : Template) : Spaced singleQuote f.tokens := by
  cases f <;> decide +kernel

theorem tokens_directives (f : Template) : directives f.tokens = f.arity := by
  cases f <;> decide +kernel

theorem tokens_clean (f : Template) : AllClean singleQuote backslash f.tokens := by
  have h := f.lex_format
  rw [← f.render_tokens] at h
  exact (lex_render_iff (by decide) f.tokens_spaced).mp h

end Template

/-! ## The texts, token by token -/

namespace Query

def tokens (q : Query) : List (Token UInt8) := fill q.template.tokens q.args

theorem directives_eq (q : Query) : directives q.template.tokens = q.args.length := by
  rw [q.template.tokens_directives]
  cases q <;> rfl

theorem formatted_eq (q : Query) : q.formatted = render singleQuote q.tokens := by
  rw [formatted, ← q.template.render_tokens,
    sprintf_render q.template.tokens_plain q.directives_eq, tokens]

theorem formatted_length (q : Query) : q.formatted.length + 2 * q.args.length =
    q.template.format.length + (q.args.map fun a => a.print.length).sum := by
  rw [q.formatted_eq, length_render, tokens, size_fill q.directives_eq,
    ← q.template.render_tokens, length_render]

/-- Lexed, the text is the format's tokens with the arguments in their places,
by any reading of the escapes. -/
def Decodes (unescape : UInt8 → UInt8) (q : Query) : Prop :=
  lex singleQuote backslash unescape none q.formatted = some q.tokens

theorem clean_of_numeral {s : List UInt8} (h : ∀ b ∈ s, IsNumeral b) :
    Clean singleQuote backslash s :=
  ⟨fun hb => absurd (h _ hb) (by decide), fun hb => absurd (h _ hb) (by decide)⟩

theorem clean_hex (bytes : List UInt8) : Clean singleQuote backslash (ubytesToString bytes) :=
  ⟨fun hb => absurd (ubytesToString_bounds bytes _ hb) (by decide),
    fun hb => absurd (ubytesToString_bounds bytes _ hb) (by decide)⟩

/-- Numbers and hex digits are clean, so only the names matter. -/
theorem clean_args (q : Query) : (∀ a ∈ q.args, Clean singleQuote backslash a.print) ↔
    ∀ name ∈ q.names, Clean singleQuote backslash name := by
  have hint : ∀ i : Int32, Clean singleQuote backslash (Arg.int i).print := fun i =>
    clean_of_numeral (decimal_numeral i)
  have hunsigned : ∀ n : UInt32, Clean singleQuote backslash (Arg.unsigned n).print := fun n =>
    clean_of_numeral (text_nat_numeral n.toNat)
  have hname : ∀ name, (Arg.string name).print = name := fun _ => rfl
  cases q <;> simp only [args, names, List.forall_mem_cons, List.not_mem_nil, false_imp_iff,
    implies_true, and_true, hint, hunsigned, hname, clean_hex]

/-- A text decodes to what was to be said exactly when no name in it holds a
quote or a backslash. -/
theorem decodes_iff (unescape : UInt8 → UInt8) (q : Query) :
    q.Decodes unescape ↔ ∀ name ∈ q.names, Clean singleQuote backslash name := by
  have hspaced : Spaced singleQuote q.tokens := spaced_fill.mpr q.template.tokens_spaced
  rw [Decodes, q.formatted_eq, lex_render_iff (by decide) hspaced, tokens,
    allClean_fill q.template.tokens_clean q.directives_eq, q.clean_args]

/-- A login under the name `' OR '1'='1`. -/
theorem not_decodes_injection :
    ¬ (userByName (text "' OR '1'='1")).Decodes id := by
  unfold Decodes
  decide +kernel

/-! ## Lengths -/

theorem format_length (f : Template) : f.format.length =
    match f with
    | .userByName => 72
    | .nameExists => 56
    | .insertUser => 58
    | .loadPrivilege => 47
    | .updatePrivilege => 51
    | .requestExists => 96
    | .insertRequest => 57
    | .requestsTo => 168
    | .insertFriends => 49
    | .deleteRequests => 130
    | .friendsExist => 88
    | .friendsOf => 136
    | .deleteFriends => 122
    | .userExists => 54
    | .insertGroup => 48 := by
  cases f <;> decide +kernel

/-- The names leave room for the rest of the text. -/
def NamesFit : Query → Prop
  | userByName user => user.length ≤ 185
  | nameExists user => user.length ≤ 201
  | insertUser user md saltBytes => user.length + 2 * md.length + 2 * saltBytes.length ≤ 203
  | insertGroup name uid => name.length + (decimal uid).length ≤ 211
  | _ => True

theorem byte_length (p : UInt8) : (Arg.unsigned p.toUInt32).print.length ≤ 3 :=
  text_nat_length (by decide) (by
    have hp := p.toNat_lt
    rw [UInt8.toNat_toUInt32]
    omega)

/-- The buffer has 256 bytes, one of them for the NUL. -/
theorem formatted_fits_iff (q : Query) : q.formatted.length ≤ 255 ↔ q.NamesFit := by
  have hlen := q.formatted_length
  rw [format_length] at hlen
  have hint : ∀ i : Int32, (Arg.int i).print.length ≤ 11 := decimal_length
  cases q with
  | userByName user | nameExists user =>
    simp only [args, template, List.map_cons, List.map_nil, List.sum_cons, List.sum_nil,
      List.length_cons, List.length_nil, Arg.print] at hlen
    simp only [NamesFit]
    omega
  | insertUser user md saltBytes =>
    simp only [args, template, List.map_cons, List.map_nil, List.sum_cons, List.sum_nil,
      List.length_cons, List.length_nil, Arg.print, ubytesToString_length] at hlen
    simp only [NamesFit]
    omega
  | insertGroup name uid =>
    simp only [args, template, List.map_cons, List.map_nil, List.sum_cons, List.sum_nil,
      List.length_cons, List.length_nil, Arg.print] at hlen
    simp only [NamesFit]
    omega
  | updatePrivilege p uid =>
    have hp := byte_length p
    have huid := hint uid
    simp only [args, template, List.map_cons, List.map_nil, List.sum_cons, List.sum_nil,
      List.length_cons, List.length_nil] at hlen
    simp only [NamesFit, iff_true]
    omega
  | loadPrivilege uid | requestsTo uid | friendsOf uid | userExists uid =>
    have huid := hint uid
    simp only [args, template, List.map_cons, List.map_nil, List.sum_cons, List.sum_nil,
      List.length_cons, List.length_nil] at hlen
    simp only [NamesFit, iff_true]
    omega
  | requestExists a b | insertRequest a b | insertFriends a b | friendsExist a b
  | deleteRequests a b | deleteFriends a b =>
    have ha := hint a
    have hb := hint b
    simp only [args, template, List.map_cons, List.map_nil, List.sum_cons, List.sum_nil,
      List.length_cons, List.length_nil] at hlen
    simp only [NamesFit, iff_true]
    omega

end Query

/-! ## What each function formats -/

section
variable (ok : SqlStep → Bool)

/-- A function that formats one query once it is connected. -/
def onceConnected (q : Query) : List Query := if !ok .connect then [] else [q]

def checkUserAuthQueries (user : List UInt8) : List Query := onceConnected ok (.userByName user)

def addUserQueries (lib : Externals) (saltBytes : List UInt8) (db : Database)
    (user pw : List UInt8) : List Query :=
  if !ok .connect then []
  else
    .nameExists user ::
      if !ok (.query 0) then []
      else if !ok (.fetch 0) then []
      else if (db.users.byName lib user).isSome then []
      else [.insertUser user (lib.sha256 (ubytesToString saltBytes ++ pw)) saltBytes]

def loadPrivilegesQueries (uid : Int32) : List Query := onceConnected ok (.loadPrivilege uid)

def updatePrivilegesQueries (uid : Int32) (p : UInt8) : List Query :=
  onceConnected ok (.updatePrivilege p uid)

def userExistsQueries (uid : Int32) : List Query := onceConnected ok (.userExists uid)

def createFriendRequestQueries (db : Database) (uidFrom uidTo : Int32) : List Query :=
  if !ok .connect then []
  else
    .requestExists uidFrom uidTo ::
      if !ok (.query 0) then []
      else if !ok (.fetch 0) then []
      else if (uidFrom, uidTo) ∈ db.friendRequests then []
      else
        .requestExists uidTo uidFrom ::
          if !ok (.query 1) then []
          else if !ok (.fetch 1) then []
          else if (uidTo, uidFrom) ∈ db.friendRequests then []
          else [.insertRequest uidFrom uidTo]

def createFriendsQueries (uid1 uid2 : Int32) : List Query :=
  if !ok .connect then []
  else
    .insertFriends uid1 uid2 ::
      if !ok (.query 0) then []
      else
        .insertFriends uid2 uid1 :: if !ok (.query 1) then [] else [.deleteRequests uid1 uid2]

def areFriendsQueries (uidFrom uidTo : Int32) : List Query :=
  onceConnected ok (.friendsExist uidFrom uidTo)

def deleteFriendsQueries (db : Database) (uid1 uid2 : Int32) : List Query :=
  if !ok .connect then []
  else
    .friendsExist uid1 uid2 ::
      if !ok (.query 0) then []
      else if !ok (.fetch 0) then []
      else if (uid1, uid2) ∈ db.friends then [.deleteFriends uid1 uid2]
      else [.deleteRequests uid1 uid2]

def getFriendRequestsQueries (uidFrom : Int32) : List Query :=
  onceConnected ok (.requestsTo uidFrom)

def getFriendsQueries (uidFrom : Int32) : List Query := onceConnected ok (.friendsOf uidFrom)

def createGroupQueries (name : List UInt8) (uidOwner : Int32) : List Query :=
  onceConnected ok (.insertGroup name uidOwner)

end

end VhIM.Sql
