import VhIM.Server.Kick
import VhIM.Server.Requests

/-! # The handlers over the nodes

What handling an event does with the connection lists as they lie in memory:
every send walks a list node by node, logins allocate nodes, the end of a
session unlinks and frees one, and a user is destroyed with what is left. -/
namespace VhIM.Server
open VhIM.Lib VhIM.Lib.Runs VhIM.Lib.LinkedList VhIM.Network VhIM.Sql VhIM.Utility
open ServerState

namespace Memory

/-! ## Walks -/

/-- The loop of `send_data_to_user` and of `map_send_to_all`: the connections
it comes by. -/
def walk (m : Memory) : Nat → Option Nat → Except MemFault (List Ssl)
  | 0, _ => .error .unfinished
  | _ + 1, none => .ok []
  | fuel + 1, some p => do
    let n ← m.node p
    let rest ← m.walk fuel n.next
    return n.val :: rest

def destroyConnections (m : Memory) : Nat → Option Nat → Except MemFault Memory
  | 0, _ => .error .unfinished
  | _ + 1, none => .ok m
  | fuel + 1, some p => do
    let n ← m.node p
    destroyConnections { m with nodes := write m.nodes p none } fuel n.next

/-- `server_user_destroy`, of the user with an id. -/
def destroy (m : Memory) (fuel : Nat) (uid : Int32) : Except MemFault Memory :=
  m.destroyConnections fuel (m.connections uid)

def sendEach {α : Type} (f : α → Except MemFault Sends) : List α → Except MemFault Sends
  | [] => .ok []
  | a :: l => do
    let out ← f a
    let rest ← sendEach f l
    return out ++ rest

section
variable (m : Memory) (fuel : Nat) (env : Env) (s : ServerState)

def sendDataToUser (uTo : Option ServerUser) (data : List UInt8) : Except MemFault Sends :=
  match uTo with
  | none => .ok []
  | some u => do
    let conns ← m.walk fuel (m.connections u.id)
    return conns.map fun c => (c, data)

def sendToUser (uTo : Option ServerUser) (msg : ServerMsg) : Except MemFault Sends :=
  m.sendDataToUser fuel uTo (packet env msg)

def sendToFriends (uFrom : ServerUser) (msg : ServerMsg) : Except MemFault Sends :=
  let friends := (sqlChGetFriends (env.sqlOk .getFriends) s.db uFrom.id Vstack.create).2
  sendEach (fun info => m.sendDataToUser fuel (s.getUserById info.id) (packet env msg))
    friends.drain

def sendToAll (sslFrom : Ssl) (msg : ServerMsg) : Except MemFault Sends :=
  sendEach (fun user => do
    let conns ← m.walk fuel (m.connections user.id)
    return (conns.filter fun c => c.fd ≠ sslFrom.fd).map fun c => (c, packet env msg))
    s.users.elems

/-! ## Handlers -/

/-- What MSG_LOGOUT and `cb_cl_dc` do: remove the connection, and the user with
the last one. -/
def dropConnection (user : ServerUser) (ssl : Ssl) : Except MemFault (Memory × Sends) := do
  let m ← m.removeConnection fuel user.id ssl
  match m.connections user.id with
  | none =>
    let out ← m.sendToFriends fuel env (s.removeConnection user ssl) user (.friendOffline user.id)
    let m ← m.destroy fuel user.id
    return (m, out)
  | some _ => return (m, [])

/-- `server_ch_disconnect_client`, with the client it finds. -/
def hangUp (sc : ServerClient) : Except MemFault (Memory × Sends) :=
  match s.userOf sc with
  | some user => m.dropConnection fuel env s user sc.ssl
  | none => .ok (m, [])

def kick (tid : Int32) : Except MemFault (Memory × Sends) :=
  match s.getUserById tid with
  | some tuser => do
    let out ← m.sendToUser fuel env tuser
      (.broadcast (text "admin") (text "you got kicked, fggt!"))
    let (t, m) ← kickLoop env fuel (s.send out) m (m.connections tuser.id)
    return (m, t.sent.drop s.sent.length)
  | none => .ok (m, [])

def sendFriendRequest (uidFrom uidTo : Int32) : Except MemFault Sends :=
  if sqlChUserExists (env.sqlOk .userExists) s.db uidTo then
    m.sendToUser fuel env (s.getUserById uidTo) (.systemMsg (text "Friend request received."))
  else m.sendToUser fuel env (s.getUserById uidFrom) (.systemMsg (text "User not found."))

def addFriend (user : ServerUser) (uidTarget : Int32) : Except MemFault Sends :=
  if !sqlChAreFriends (env.sqlOk .areFriends) s.db user.id uidTarget then
    m.sendFriendRequest fuel env s user.id uidTarget
  else .ok []

def removeFriend (user : ServerUser) (uidTarget : Int32) : Except MemFault Sends :=
  if (sqlChDeleteFriends (env.sqlOk .deleteFriends) s.db user.id uidTarget).1 = .userExists then do
    let out ← m.sendToUser fuel env (s.getUserById user.id) (.removeFriend uidTarget)
    let rest ← m.sendToUser fuel env (s.getUserById uidTarget) (.removeFriend user.id)
    return out ++ rest
  else .ok []

/-- The end of a login that succeeds. -/
def welcome (user : ServerUser) (ssl : Ssl) (uname : List UInt8) :
    Except MemFault (Memory × Sends) := do
  let answer := sendToClient env ssl (.welcome uname)
  if user.conLen = 1 then
    let out ← m.sendToFriends fuel env s user (.friendOnline user.id user.username)
    return (m, answer ++ out)
  else return (m, answer)

/-- MSG_REQ_LOGIN, with a node at `p` if one is allocated. -/
def reqLogin (lib : Externals) (p : Nat) (ssl : Ssl) (uname upw : List UInt8) :
    Except MemFault (Memory × Sends) :=
  match s.authorizeClient lib env ssl uname upw with
  | (some user, res, s) =>
    if res ≠ .userAlreadyLoggedIn then
      (m.create p user.id ssl).welcome fuel env (s.addServerUser user) user ssl uname
    else (m.addConnection p user.id ssl).welcome fuel env s user ssl uname
  | (none, res, _) =>
    .ok (m, sendToClient env ssl (.authFailed (text "Authentification failed.") res.code))

def reqRegister (lib : Externals) (ssl : Ssl) (uname upw : List UInt8) : Sends :=
  let (res, _) := sqlChAddUser (env.sqlOk .addUser) lib env.saltBytes s.db uname upw
  if res = .success then
    sendToClient env ssl (.registrSuccessful (text "Registration complete. Login now."))
  else
    sendToClient env ssl (.registrFailed
      (if res = .userExists then text "Registration failed: user name already exists."
        else text "Registration failed."))

/-! ## Events -/

def still (out : Except MemFault Sends) : Except MemFault (Memory × Sends) :=
  out.map fun out => (m, out)

def serveAuth (sc : ServerClient) (user : ServerUser) : Command → Except MemFault (Memory × Sends)
  | .broadcast msg => m.still (m.sendToAll fuel env s sc.ssl (.broadcast (label user) msg))
  | .cmdKickId (some tid) => m.kick fuel env s tid
  | .whisper tid (some msg) =>
    match s.getUserById tid with
    | some tuser => m.still (m.sendToUser fuel env tuser (.broadcast (label user) msg))
    | none => .ok (m, [])
  | .who => m.still (m.sendToUser fuel env user (.who s.userInfos))
  | .friends => m.still (m.sendToUser fuel env user (s.setFriendsOnline env user.id))
  | .logout => m.dropConnection fuel env (s.serverChClientAuthed (-1) sc.ssl) user sc.ssl
  | .disconnect => m.hangUp fuel env s sc
  | .addFriend uidTarget => m.still (m.addFriend fuel env s user uidTarget)
  | .removeFriend uidTarget => m.still (m.removeFriend fuel env s user uidTarget)
  | _ => .ok (m, [])

def serveUnauth (lib : Externals) (p : Nat) (sc : ServerClient) :
    Command → Except MemFault (Memory × Sends)
  | .reqLogin uname upw => m.reqLogin fuel env s lib p sc.ssl uname upw
  | .reqRegister uname upw => .ok (m, reqRegister env s lib sc.ssl uname upw)
  | .disconnect => m.hangUp fuel env s sc
  | _ => .ok (m, [])

def serve (lib : Externals) (p : Nat) (sc : ServerClient) (cmd : Command) :
    Except MemFault (Memory × Sends) :=
  if 0 < sc.id then
    match s.getUserById sc.id with
    | some user => m.serveAuth fuel env s sc user cmd
    | none => .ok (m, [])
  else m.serveUnauth fuel env s lib p sc cmd

/-- What an event does to the nodes, and what is sent for it. A node that is
allocated lies at `p`. -/
def handle (lib : Externals) (p : Nat) : Event → Except MemFault (Memory × Sends)
  | .accept _ _ => .ok (m, [])
  | .packet fd env data =>
    match s.clients.search fd with
    | some sc =>
      match readPacket s sc (Datapacket.createFromData data) with
      | .ok (cmd, _) => m.serve fuel env s lib p sc cmd
      | .error f => .error (.server f)
    | none => .error (.server .freedClient)
  | .hangup fd env =>
    match s.clients.search fd with
    | some sc => m.hangUp fuel env s sc
    | none => .error (.server .nullClient)

end
end Memory

/-! ## Exactly the lists -/

/-- The lists of the state are in memory, and there is no other node. -/
structure ExactBy (layout : Int32 → List (Nat × Ssl)) (s : ServerState) (m : Memory) : Prop where
  laid : LaidBy layout s m
  owned : ∀ q, (m.nodes q).isSome → ∃ u ∈ s.users, q ∈ (layout u.id).map Prod.fst

def Exact (s : ServerState) (m : Memory) : Prop := ∃ layout, ExactBy layout s m

/-- The walks over the lists of a state come to their ends. -/
def Enough (s : ServerState) (fuel : Nat) : Prop := ∀ u ∈ s.users, u.connections.length < fuel

/-- A program over the nodes does without a fault what takes `s` to `t`, and
sends the same. -/
def Follows (s t : ServerState) (r : Except MemFault (Memory × Sends)) : Prop :=
  ∃ m out, r = .ok (m, out) ∧ t.sent = s.sent ++ out ∧ Exact t m

variable {lib : Externals} {env : Env} {s t : ServerState} {m m' : Memory} {fuel : Nat}
  {layout : Int32 → List (Nat × Ssl)} {user : ServerUser} {ssl : Ssl} {p : Nat}
  {sc : ServerClient} {msg : ServerMsg}

theorem Exact.same (h : Exact s m) (husers : t.users = s.users) : Exact t m := by
  obtain ⟨layout, hlaid, howned⟩ := h
  refine ⟨layout, hlaid.sub fun u hu => by rwa [husers] at hu, fun q hq => ?_⟩
  rw [husers]
  exact howned q hq

/-- One user's list changes. -/
theorem ExactBy.update (h : ExactBy layout s m) {l : List (Nat × Ssl)}
    (hlaid : LaidBy (Function.update layout user.id l) t m')
    (hkept : ∀ v ∈ s.users, v.id ≠ user.id → v ∈ t.users) (hself : ∃ u ∈ t.users, u.id = user.id)
    (hnodes : ∀ q, (m'.nodes q).isSome → q ∈ l.map Prod.fst ∨
      (m.nodes q).isSome ∧ ∀ v ∈ s.users, v.id = user.id → q ∉ (layout v.id).map Prod.fst) :
    ExactBy (Function.update layout user.id l) t m' := by
  refine ⟨hlaid, fun q hq => ?_⟩
  rcases hnodes q hq with hmem | ⟨hwas, hnot⟩
  · obtain ⟨u, hu, hid⟩ := hself
    exact ⟨u, hu, by rwa [hid, Function.update_self]⟩
  · obtain ⟨v, hv, hmem⟩ := h.owned q hwas
    have hne : v.id ≠ user.id := fun he => hnot v hv he hmem
    exact ⟨v, hkept v hv hne, by rwa [Function.update_of_ne hne]⟩

/-! ## Walks come to their ends -/

theorem Memory.walk_ok {q : Option Nat} {l : List (Nat × Ssl)} (h : Chain m.nodes q l)
    (hfuel : l.length < fuel) : m.walk fuel q = .ok (l.map Prod.snd) := by
  induction h generalizing fuel with
  | nil =>
    obtain ⟨fuel, rfl⟩ := Nat.exists_eq_succ_of_ne_zero (Nat.ne_zero_of_lt hfuel)
    rfl
  | cons hcell _ ih =>
    obtain ⟨fuel, rfl⟩ := Nat.exists_eq_succ_of_ne_zero (Nat.ne_zero_of_lt hfuel)
    rw [Memory.walk, Memory.node_ok hcell]
    show (do let rest ← m.walk fuel _; _) = _
    rw [ih (Nat.lt_of_succ_lt_succ hfuel)]
    rfl

theorem LaidBy.walk (h : LaidBy layout s m) (hu : user ∈ s.users) (hfuel : Enough s fuel) :
    m.walk fuel (m.connections user.id) = .ok user.connections := by
  have hlist := h.lists user hu
  have hlen := hfuel user hu
  rw [← hlist, List.length_map] at hlen
  rw [Memory.walk_ok (h.chain user hu) hlen, hlist]

theorem LaidBy.sendDataToUser (h : LaidBy layout s m) (hfuel : Enough s fuel)
    {uTo : Option ServerUser} (hu : ∀ u ∈ uTo, u ∈ s.users) (data : List UInt8) :
    m.sendDataToUser fuel uTo data = .ok (ServerState.sendDataToUser uTo data) := by
  cases uTo with
  | none => rfl
  | some u =>
    rw [Memory.sendDataToUser, h.walk (hu u rfl) hfuel]
    rfl

theorem LaidBy.sendToUser (h : LaidBy layout s m) (hfuel : Enough s fuel) (env : Env)
    {uTo : Option ServerUser} (hu : ∀ u ∈ uTo, u ∈ s.users) (msg : ServerMsg) :
    m.sendToUser fuel env uTo msg = .ok (ServerState.sendToUser env uTo msg) :=
  h.sendDataToUser hfuel hu _

theorem Memory.sendEach_ok {α : Type} {f : α → Except MemFault Sends} {g : α → Sends} {l : List α}
    (h : ∀ a ∈ l, f a = .ok (g a)) : Memory.sendEach f l = .ok (l.flatMap g) := by
  induction l with
  | nil => rfl
  | cons a l ih =>
    rw [Memory.sendEach, h a List.mem_cons_self, ih fun b hb => h b (List.mem_cons_of_mem _ hb)]
    rfl

theorem LaidBy.sendToFriends (h : LaidBy layout s m) (hfuel : Enough s fuel) (env : Env)
    (user : ServerUser) (msg : ServerMsg) :
    m.sendToFriends fuel env s user msg = .ok (s.sendToFriends env user msg) :=
  Memory.sendEach_ok fun _ _ =>
    h.sendDataToUser hfuel (fun _ hu => (getUserById_eq_some.mp hu).1) _

theorem LaidBy.sendToAll (h : LaidBy layout s m) (hfuel : Enough s fuel) (env : Env) (ssl : Ssl)
    (msg : ServerMsg) : m.sendToAll fuel env s ssl msg = .ok (s.sendToAll env ssl msg) := by
  refine Memory.sendEach_ok fun u hu => ?_
  rw [h.walk hu hfuel]
  rfl

/-! ## The end of a session -/

theorem Enough.removeConnection (h : Enough s fuel) (huser : user ∈ s.users) (ssl : Ssl) :
    Enough (s.removeConnection user ssl) fuel := by
  intro u hu
  rcases (mem_removeConnection huser u).mp hu with ⟨hu, _⟩ | rfl
  · exact h u hu
  · rw [ServerUser.removeConnection_connections]
    exact (List.length_erase_le ..).trans_lt (h user huser)

/-- Without a connection left nobody has a node. -/
theorem LaidBy.connections_none (h : LaidBy layout s m) (hu : user ∈ s.users) :
    m.connections user.id = none ↔ user.connections = [] := by
  have hchain := h.chain user hu
  rw [← h.lists user hu, List.map_eq_nil_iff]
  generalize layout user.id = l at hchain
  generalize m.connections user.id = q at hchain
  cases hchain with
  | nil => exact iff_of_true rfl rfl
  | cons _ _ => exact iff_of_false nofun nofun

/-- A user without connections leaves. -/
theorem ExactBy.leave (h : ExactBy layout s m) (hu : user ∈ s.users) (hnone : user.connections = [])
    (out : Sends) : Exact ((s.send out).removeServerUserByStruct user) m := by
  have hleft : ∀ u, u ∈ ((s.send out).removeServerUserByStruct user).users ↔
      u ∈ s.users ∧ u.id.toInt ≠ user.id.toInt := fun u => OrderedSet.mem_erase
  refine ⟨layout, h.laid.sub fun u hu => ((hleft u).mp hu).1, fun q hq => ?_⟩
  obtain ⟨u, hu', hmem⟩ := h.owned q hq
  refine ⟨u, (hleft u).mpr ⟨hu', fun hid => ?_⟩, hmem⟩
  have hlist := h.laid.lists user hu
  rw [hnone, List.map_eq_nil_iff] at hlist
  rw [Int32.toInt_inj.mp hid, hlist] at hmem
  cases hmem

theorem Memory.dropConnection_some {q : Nat} (hm : m.removeConnection fuel user.id ssl = .ok m')
    (hc : m'.connections user.id = some q) :
    m.dropConnection fuel env s user ssl = .ok (m', []) := by
  simp only [Memory.dropConnection, hm, Bind.bind, Except.bind, hc]
  rfl

theorem Memory.dropConnection_none {out : Sends} (hm : m.removeConnection fuel user.id ssl = .ok m')
    (hc : m'.connections user.id = none) (hout : m'.sendToFriends fuel env
      (s.removeConnection user ssl) user (.friendOffline user.id) = .ok out) (hfuel : 0 < fuel) :
    m.dropConnection fuel env s user ssl = .ok (m', out) := by
  obtain ⟨fuel, rfl⟩ := Nat.exists_eq_succ_of_ne_zero hfuel.ne'
  simp only [Memory.dropConnection, hm, Bind.bind, Except.bind, hc, hout, Memory.destroy,
    Memory.destroyConnections]
  rfl

/-- The connection goes, and the user with the last one. -/
theorem Exact.dropConnection (h : Exact s m) (huser : user ∈ s.users) (hfuel : Enough s fuel)
    (env : Env) (ssl : Ssl) :
    Follows s (s.dropConnection env user ssl) (m.dropConnection fuel env s user ssl) := by
  obtain ⟨layout, hexact⟩ := h
  obtain ⟨m', l, hm', hlaid, hnodes⟩ :=
    hexact.laid.removeConnection_at huser (hfuel user huser) ssl
  have hself : user.removeConnection ssl ∈ (s.removeConnection user ssl).users :=
    (mem_removeConnection huser _).mpr (.inr rfl)
  have hid : (user.removeConnection ssl).id = user.id := ServerUser.removeConnection_id _ _
  have hrest : ExactBy (Function.update layout user.id l) (s.removeConnection user ssl) m' := by
    refine hexact.update hlaid (fun v hv hne => (mem_removeConnection huser v).mpr (.inl ⟨hv, hne⟩))
      ⟨_, hself, hid⟩ fun q hq => ?_
    obtain ⟨hwas, hstays⟩ := hnodes q hq
    by_cases hmem : q ∈ (layout user.id).map Prod.fst
    · exact .inl (hstays hmem)
    · exact .inr ⟨hwas, fun v _ he => he ▸ hmem⟩
  have hnone := hlaid.connections_none hself
  rw [hid] at hnone
  unfold ServerState.dropConnection
  cases hc : m'.connections user.id with
  | none =>
    have hout := hlaid.sendToFriends (hfuel.removeConnection huser ssl) env user
      (.friendOffline user.id)
    refine ⟨m', _, Memory.dropConnection_none hm' hc hout (Nat.zero_lt_of_lt (hfuel user huser)),
      ?_, ?_⟩
    · simp only [if_pos (hnone.mp hc)]
      rfl
    · simp only [if_pos (hnone.mp hc)]
      have hleave := hrest.leave hself (hnone.mp hc)
        ((s.removeConnection user ssl).sendToFriends env user (.friendOffline user.id))
      rwa [removeServerUserByStruct, hid] at hleave
  | some q =>
    have hsome : (user.removeConnection ssl).connections ≠ [] := by
      intro hnil
      rw [hnone.mpr hnil] at hc
      cases hc
    refine ⟨m', [], Memory.dropConnection_some hm' hc, ?_, ?_⟩
    · simp only [if_neg hsome, List.append_nil]
      rfl
    · simp only [if_neg hsome]
      exact ⟨_, hrest⟩

end VhIM.Server
