import VhIM.Server.ConnectionList
import VhIM.Server.Grants

/-! # The loop of a kick

MSG_CMD_KICK_ID with the nodes it walks. Each turn ends a connection, by which
the callback unlinks and frees the node with it, and then reads the link of
that node. -/
namespace VhIM.Server
open VhIM.Lib VhIM.Lib.Runs VhIM.Lib.LinkedList VhIM.Network VhIM.Sql VhIM.Utility
open ServerState

namespace Memory

/-- `cb_cl_dc`, as far as the nodes go. A user without connections is destroyed
with none. -/
def cbClDc (m : Memory) (fuel : Nat) (s : ServerState) (sc : ServerClient) :
    Except MemFault Memory :=
  if 0 < sc.id then
    match s.getUserById sc.id with
    | some user => m.removeConnection fuel user.id sc.ssl
    | none => .ok m
  else .ok m

variable (env : Env)

def serverChDisconnectClient (m : Memory) (fuel : Nat) (s : ServerState) (ssl : Ssl) :
    Except MemFault (ServerState × Memory) :=
  match s.clients.search ssl.fd with
  | none => .error (.server .nullClient)
  | some sc => do
    let m ← m.cbClDc fuel s sc
    match s.serverChDisconnectClient env ssl with
    | .ok s => return (s, m)
    | .error f => .error (.server f)

/-- The loop, from the node `c` on. -/
def kickLoop : Nat → ServerState → Memory → Option Nat → Except MemFault (ServerState × Memory)
  | 0, _, _, _ => .error .unfinished
  | _ + 1, s, m, none => .ok (s, m)
  | fuel + 1, s, m, some c => do
    let n ← m.node c
    let (s, m) ← m.serverChDisconnectClient env (fuel + 1) s n.val
    -- `c = c->next`
    let n ← m.node c
    kickLoop fuel s m n.next

def cmdKickId (fuel : Nat) (s : ServerState) (m : Memory) (user : ServerUser) (tid : Int32) :
    Except MemFault (ServerState × Memory) :=
  if isAllowed user.pLevel .cmdKickId then
    match s.getUserById tid with
    | some tuser =>
      let answer := .broadcast (text "admin") (text "you got kicked, fggt!")
      kickLoop env fuel (s.send (sendToUser env tuser answer)) m (m.connections tuser.id)
    | none => .ok (s, m)
  else .ok (s, m)

end Memory

/-- The kick of `tuser` by `user` comes to its end, with no read of a node that
is freed, and has ended the connections of `tuser` and nothing else. -/
def KickEnds (env : Env) (s : ServerState) (m : Memory) (user tuser : ServerUser) : Prop :=
  ∃ fuel t m', Memory.cmdKickId env fuel s m user tuser.id = .ok (t, m') ∧
    KickedExactly tuser.id tuser.connections s t

variable {lib : Externals} {env : Env} {s t : ServerState} {sc : ServerClient}
  {events : List Event} {m : Memory} {layout : Int32 → List (Nat × Ssl)} {fuel : Nat}
  {user tuser : ServerUser} {tid : Int32} {ssl : Ssl}

/-! ## One turn -/

theorem Memory.disconnect_ok {m' : Memory} (hsc : sc ∈ s.clients)
    (hm : m.cbClDc fuel s sc = .ok m') (env : Env) :
    ∃ t, m.serverChDisconnectClient env fuel s sc.ssl = .ok (t, m') ∧
      Disconnected sc.ssl sc s t := by
  obtain ⟨t, ht, hd⟩ := Server.disconnect_ok hsc env
  refine ⟨t, ?_, hd⟩
  rw [Memory.serverChDisconnectClient, OrderedSet.search_eq_some.mpr ⟨hsc, rfl⟩]
  show (do let m ← m.cbClDc fuel s sc; _) = _
  rw [hm]
  show (match s.serverChDisconnectClient env sc.ssl with | .ok s => _ | .error f => _) = _
  rw [ht]
  rfl

/-! ## The whole kick -/

/-- The node that the loop stands on is freed before its link is read. -/
theorem kickLoop_reads_freed (h : LaidBy layout s m) (ho : Owned s) (htuser : tuser ∈ s.users)
    (env : Env) (fuel : Nat) :
    Memory.kickLoop env (fuel + 1) s m (m.connections tuser.id) = .error .freedNode := by
  obtain ⟨c, conns, hconns⟩ := List.exists_cons_of_ne_nil (ho.listed tuser htuser).2.2
  obtain ⟨sc, hsc, rfl, hid⟩ := ho.owned tuser htuser c (by rw [hconns]; exact .head _)
  have hchain := h.chain tuser htuser
  obtain ⟨⟨p, c⟩, l, hl, rfl, _⟩ := List.map_eq_cons_iff.mp ((h.lists tuser htuser).trans hconns)
  rw [hl] at hchain
  have hfirst : Chain m.nodes (m.connections tuser.id) ([] ++ (p, sc.ssl) :: l) := hchain
  obtain ⟨m', hm', hremoved⟩ :=
    Memory.removeConnection_found hfirst List.not_mem_nil fuel.succ_pos
  have hpos : 0 < sc.id := hid ▸ ho.positive tuser htuser
  have hm : m.cbClDc (fuel + 1) s sc = .ok m' := by
    rw [Memory.cbClDc, if_pos hpos, hid, getUserById_eq_some.mpr ⟨htuser, rfl⟩]
    exact hm'
  obtain ⟨t, ht, _⟩ := Memory.disconnect_ok hsc hm env
  cases hhead : m.connections tuser.id with
  | none => rw [hhead] at hchain; cases hchain
  | some q =>
    rw [hhead] at hchain
    cases hchain with
    | cons hcell _ =>
      rw [Memory.kickLoop, Memory.node_ok hcell]
      show (do let (s, m) ← m.serverChDisconnectClient env (fuel + 1) s sc.ssl; _) = _
      rw [ht]
      show (do let n ← m'.node p; _) = _
      rw [Memory.node, hremoved.freed]
      rfl

theorem cmdKickId_reads_freed (h : LaidBy layout s m) (ho : Owned s) (htuser : tuser ∈ s.users)
    (hallowed : isAllowed user.pLevel .cmdKickId = true) (env : Env) (fuel : Nat) :
    Memory.cmdKickId env (fuel + 1) s m user tuser.id = .error .freedNode := by
  have hsent (out : Sends) : LaidBy layout (s.send out) m ∧ Owned (s.send out) :=
    ⟨h.sub fun u hu => hu, ho.same rfl fun _ hsc => hsc⟩
  rw [Memory.cmdKickId, if_pos hallowed, getUserById_eq_some.mpr ⟨htuser, rfl⟩]
  exact kickLoop_reads_freed (hsent _).1 (hsent _).2 htuser env fuel

/-- However the lists of a state reached are in memory, no kick of a user who
is online ends: each reads the link of a node that is freed. -/
theorem kick_never_ends {db : Database} {listener : Nat}
    (hrun : Run (ServerStep lib) (ServerState.start db listener) events s)
    (hallowed : isAllowed user.pLevel .cmdKickId = true) (htuser : s.getUserById tid = some tuser)
    (env : Env) : (∃ m, Laid s m) ∧ ∀ m, Laid s m → ¬ KickEnds env s m user tuser ∧
      ∀ fuel, Memory.cmdKickId env (fuel + 1) s m user tid = .error .freedNode := by
  have howned : Owned s := hrun.invariant owned_step (owned_start db listener)
  obtain ⟨hmem, rfl⟩ := getUserById_eq_some.mp htuser
  refine ⟨⟨_, laid_ofState s⟩, ?_⟩
  rintro m ⟨layout, hlaid⟩
  have hfreed := cmdKickId_reads_freed hlaid howned hmem hallowed env
  refine ⟨?_, hfreed⟩
  rintro ⟨_ | fuel, t, m', hend, _⟩
  · rw [Memory.cmdKickId, if_pos hallowed, htuser] at hend
    cases hend
  · rw [hfreed fuel] at hend
    cases hend

/-- The memory after the two logins. -/
def twoUsersMemory : Memory :=
  ((⟨fun _ => none, fun _ => none⟩ : Memory).create 0 1 ⟨1, 4⟩).create 1 2 ⟨2, 5⟩

theorem laid_twoUsers : Laid twoUsers twoUsersMemory := by
  obtain ⟨_, hstart⟩ := laid_start (sampleDb 8) 3 ⟨fun _ => none, fun _ => none⟩
  have hnew : ∀ v ∈ (ServerState.start (sampleDb 8) 3).users, v.id ≠ (⟨1, 1, [⟨1, 4⟩], [97], 8⟩ :
      ServerUser).id := fun v hv => absurd hv (OrderedSet.not_mem_empty v)
  obtain ⟨_, hfirst⟩ := hstart.create hnew rfl (p := 0) rfl
  have hnew' : ∀ v ∈ ((ServerState.start (sampleDb 8) 3).addServerUser
      ⟨1, 1, [⟨1, 4⟩], [97], 8⟩).users, v.id ≠ (⟨2, 1, [⟨2, 5⟩], [98], 0⟩ : ServerUser).id := by
    decide
  obtain ⟨layout, hsecond⟩ := hfirst.create hnew' rfl (p := 1) rfl
  exact ⟨layout, hsecond.sub fun u hu => hu⟩

theorem kick_never_ends_two : ¬ KickEnds sampleEnv twoUsers twoUsersMemory
    ⟨1, 1, [⟨1, 4⟩], [97], 8⟩ ⟨2, 1, [⟨2, 5⟩], [98], 0⟩ := by
  have htuser : twoUsers.getUserById 2 = some ⟨2, 1, [⟨2, 5⟩], [98], 0⟩ := rfl
  exact ((kick_never_ends run_twoUsers (by decide) htuser sampleEnv).2 _ laid_twoUsers).1

/-- The first user kicks the second. -/
theorem kick_reads_freed_node :
    (∃ events, Run (ServerStep sampleExt) (ServerState.start (sampleDb 8) 3) events twoUsers) ∧
    Laid twoUsers twoUsersMemory ∧
    twoUsers.userOf ⟨1, ⟨1, 4⟩⟩ = some ⟨1, 1, [⟨1, 4⟩], [97], 8⟩ ∧
    twoUsers.getUserById 2 = some ⟨2, 1, [⟨2, 5⟩], [98], 0⟩ ∧
    ¬ KickEnds sampleEnv twoUsers twoUsersMemory
      ⟨1, 1, [⟨1, 4⟩], [97], 8⟩ ⟨2, 1, [⟨2, 5⟩], [98], 0⟩ := by
  refine ⟨⟨_, run_twoUsers⟩, laid_twoUsers, rfl, rfl, ?_⟩
  rintro ⟨_ | fuel, t, m', hend, _⟩
  · cases hend
  · have hfreed : Memory.cmdKickId sampleEnv (fuel + 1) twoUsers twoUsersMemory
      ⟨1, 1, [⟨1, 4⟩], [97], 8⟩ 2 = .error .freedNode := rfl
    cases hfreed.symm.trans hend

end VhIM.Server
