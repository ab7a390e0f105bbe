import VhIM.Server.HeapTurns

/-! # The nodes over whole runs

The server together with its nodes, from the first event on. Kicks apart, no
handler reads a node that is freed, every message goes where the lists of the
state say, and at any time the nodes in memory are exactly those of the lists of
the users who are online. -/
namespace VhIM.Server
open VhIM.Lib VhIM.Lib.Runs VhIM.Lib.LinkedList VhIM.Network VhIM.Sql VhIM.Utility
open ServerState

variable {lib : Externals} {env : Env} {s t : ServerState} {m : Memory} {fuel : Nat}
  {user : ServerUser} {ssl : Ssl} {p : Nat} {sc : ServerClient} {out : Sends}

/-! ## Handlers -/

theorem Follows.quiet (h : Exact t m) (hsent : t.sent = s.sent) : Follows s t (.ok (m, [])) :=
  ⟨m, [], rfl, by rw [hsent, List.append_nil], h⟩

/-- What only sends. -/
theorem Follows.still (h : Exact s m) {r : Except MemFault Sends} (hr : r = .ok out)
    (husers : t.users = s.users) (hsent : t.sent = s.sent ++ out) : Follows s t (m.still r) := by
  subst hr
  exact ⟨m, out, rfl, hsent, h.same husers⟩

/-- The state before counts by its log alone, that after by its users too. -/
theorem Follows.congr {s' t' : ServerState} {r : Except MemFault (Memory × Sends)}
    (h : Follows s t r) (hs : s'.sent = s.sent) (ht : t'.sent = t.sent)
    (husers : t'.users = t.users) : Follows s' t' r := by
  obtain ⟨m, out, hr, hsent, hexact⟩ := h
  exact ⟨m, out, hr, by rw [ht, hsent, hs], hexact.same husers⟩

theorem Exact.hangUp (h : Exact s m) (hfuel : Enough s fuel) (hsc : sc ∈ s.clients)
    (hd : s.serverChDisconnectClient env sc.ssl = .ok t) :
    Follows s t (m.hangUp fuel env s sc) := by
  have hfound : s.clients.search sc.ssl.fd = some sc := OrderedSet.search_eq_some.mpr ⟨hsc, rfl⟩
  have hboth : t.users = (s.cbClDc env sc).users ∧ t.sent = (s.cbClDc env sc).sent := by
    simp only [ServerState.serverChDisconnectClient, serverChClientDisconnected, hfound] at hd
    cases hd
    exact ⟨rfl, rfl⟩
  obtain ⟨husers, hsent⟩ := hboth
  have hcb := cbClDc_eq env s sc
  unfold Memory.hangUp
  cases hu : s.userOf sc with
  | none =>
    simp only [hu] at hcb
    rw [hcb] at husers hsent
    exact .quiet (h.same husers) hsent
  | some user =>
    simp only [hu] at hcb
    rw [hcb] at husers hsent
    exact (h.dropConnection (userOf_eq_some.mp hu).2.1 hfuel env sc.ssl).congr rfl hsent husers

/-- To be told who it is changes no list. -/
theorem Exact.logout (h : Exact s m) (hfuel : Enough s fuel) (huser : user ∈ s.users) :
    Follows s (s.logout env ssl user)
      (m.dropConnection fuel env (s.serverChClientAuthed (-1) ssl) user ssl) := by
  have htold : Exact (s.serverChClientAuthed (-1) ssl) m := h.same rfl
  exact (htold.dropConnection huser hfuel env ssl).congr rfl rfl rfl

/-! ## Logging in -/

/-- There is one more turn than the walks take. -/
def Ample (s : ServerState) (fuel : Nat) : Prop :=
  1 < fuel ∧ ∀ u ∈ s.users, u.connections.length + 1 < fuel

theorem Ample.enough (h : Ample s fuel) : Enough s fuel :=
  fun u hu => Nat.lt_of_succ_lt (h.2 u hu)

theorem exists_ample (s : ServerState) : ∃ n, ∀ fuel, n ≤ fuel → Ample s fuel := by
  refine ⟨(s.users.elems.map fun u => u.connections.length).sum + 2, fun fuel hle => ⟨by omega, ?_⟩⟩
  intro u hu
  have hone := List.single_le_sum (l := s.users.elems.map fun u => u.connections.length)
    (fun _ _ => Nat.zero_le _) u.connections.length (List.mem_map.mpr ⟨u, hu, rfl⟩)
  omega

/-- The first login of a user. -/
theorem Exact.create (h : Exact s m) (hnew : ∀ v ∈ s.users, v.id ≠ user.id)
    (hconn : user.connections = [ssl]) (hp : m.nodes p = none) :
    Exact (s.addServerUser user) (m.create p user.id ssl) := by
  obtain ⟨layout, hexact⟩ := h
  have hmem : ∀ u, u ∈ (s.addServerUser user).users ↔ _ := mem_addServerUser hnew
  refine ⟨_, hexact.update (hexact.laid.create_at hnew hconn hp)
    (fun v hv hne => (hmem v).mpr (.inl ⟨hv, hne⟩)) ⟨user, (hmem user).mpr (.inr rfl), rfl⟩ ?_⟩
  intro q hq
  by_cases hqp : q = p
  · exact .inl (by simp [hqp])
  · refine .inr ⟨?_, fun v hv hid => absurd hid (hnew v hv)⟩
    simpa only [Memory.create, write_of_ne hqp] using hq

/-- Another one. -/
theorem Exact.addConnection (h : Exact s m) (huser : user ∈ s.users) (hp : m.nodes p = none) :
    Exact (s.addConnection user ssl) (m.addConnection p user.id ssl) := by
  obtain ⟨layout, hexact⟩ := h
  have hmem : ∀ u, u ∈ (s.addConnection user ssl).users ↔ _ := mem_addConnection huser
  refine ⟨_, hexact.update (hexact.laid.addConnection_at huser hp)
    (fun v hv hne => (hmem v).mpr (.inl ⟨hv, hne⟩))
    ⟨user.addConnection ssl, (hmem _).mpr (.inr rfl), ServerUser.addConnection_id _ _⟩ ?_⟩
  intro q hq
  by_cases hqp : q = p
  · exact .inl (by simp [hqp])
  · by_cases hin : q ∈ (layout user.id).map Prod.fst
    · exact .inl (List.mem_cons_of_mem _ hin)
    · refine .inr ⟨?_, fun v _ hid => hid ▸ hin⟩
      simpa only [Memory.addConnection, write_of_ne hqp] using hq

theorem Ample.create (h : Ample s fuel) (hnew : ∀ v ∈ s.users, v.id ≠ user.id)
    (hconn : user.connections = [ssl]) : Enough (s.addServerUser user) fuel := by
  intro u hu
  rcases (mem_addServerUser hnew u).mp hu with ⟨hu, _⟩ | rfl
  · exact h.enough u hu
  · rw [hconn]
    exact h.1

theorem Ample.addConnection (h : Ample s fuel) (huser : user ∈ s.users) (ssl : Ssl) :
    Enough (s.addConnection user ssl) fuel := by
  intro u hu
  rcases (mem_addConnection huser u).mp hu with ⟨hu, _⟩ | rfl
  · exact h.enough u hu
  · exact h.2 user huser

/-- The end of a login, once the node is there. -/
theorem Follows.welcome (h : Exact t m) (hfuel : Enough t fuel) (hsent : t.sent = s.sent)
    (env : Env) (user : ServerUser) (ssl : Ssl) (uname : List UInt8) :
    Follows s
      (let t := t.send (sendToClient env ssl (.welcome uname))
       if user.conLen = 1 then
         t.send (t.sendToFriends env user (.friendOnline user.id user.username))
       else t) (m.welcome fuel env t user ssl uname) := by
  unfold Memory.welcome
  by_cases hone : user.conLen = 1
  · obtain ⟨layout, hexact⟩ := id h
    have hout := hexact.laid.sendToFriends hfuel env user (.friendOnline user.id user.username)
    simp only [if_pos hone, hout]
    refine ⟨m, _, rfl, ?_, h.same rfl⟩
    rw [send_send]
    simp only [ServerState.send, hsent]
    rfl
  · simp only [if_neg hone]
    exact ⟨m, _, rfl, congrArg (· ++ _) hsent, h.same rfl⟩

/-- A login finds its user, or one who is not online. -/
def FreeIds (lib : Externals) (s : ServerState) : Prop :=
  ∀ row ∈ s.db.users.rows, ∀ uname, lib.nameEq row.user uname = true →
    s.mapUsername uname = none → ∀ v ∈ s.users, v.id ≠ row.id

theorem Exact.reqLogin (h : Exact s m) (hfuel : Ample s fuel) (hp : m.nodes p = none)
    (hnew : FreeIds lib s) (env : Env) (ssl : Ssl)
    (uname upw : List UInt8) : Follows s (s.reqLogin lib env ssl uname upw)
      (m.reqLogin fuel env s lib p ssl uname upw) := by
  unfold Memory.reqLogin ServerState.reqLogin
  obtain ⟨res, hauth⟩ | ⟨user, hfound, hauth⟩ | ⟨row, hrow, heq, hnone, hauth⟩ :=
    authorizeClient_cases lib env s ssl uname upw
  · rw [hauth]
    exact ⟨m, _, rfl, rfl, h.same rfl⟩
  · rw [hauth]
    obtain ⟨huser, _⟩ := mapUsername_eq_some hfound
    have hadd : Exact ((s.addConnection user ssl).serverChClientAuthed user.id ssl)
        (m.addConnection p (user.addConnection ssl).id ssl) := by
      rw [ServerUser.addConnection_id]
      exact (h.addConnection huser hp).same rfl
    simp only [ne_eq, not_true_eq_false, if_false]
    exact .welcome hadd (hfuel.addConnection huser ssl) rfl env _ ssl uname
  · rw [hauth]
    have hfree := hnew row hrow uname heq hnone
    simp only [ne_eq, reduceCtorEq, not_false_eq_true, if_true]
    generalize huser : ServerUser.create row.id ssl uname _ = user
    have hid : user.id = row.id := by rw [← huser]; rfl
    have hconn : user.connections = [ssl] := by rw [← huser]; rfl
    rw [← hid] at hfree ⊢
    have htold : Exact (s.serverChClientAuthed user.id ssl) m := h.same rfl
    have hroom : Ample (s.serverChClientAuthed user.id ssl) fuel := hfuel
    exact .welcome (htold.create hfree hconn hp) (hroom.create hfree hconn) rfl env user ssl uname

/-! ## What is read is done -/

theorem Exact.sendToUser (h : Exact s m) (hfuel : Enough s fuel) (env : Env)
    {uTo : Option ServerUser} (hu : ∀ u ∈ uTo, u ∈ s.users) (msg : ServerMsg) :
    m.sendToUser fuel env uTo msg = .ok (ServerState.sendToUser env uTo msg) := by
  obtain ⟨layout, hexact⟩ := h
  exact hexact.laid.sendToUser hfuel env hu msg

theorem mem_of_lookup {id : Int32} : ∀ u ∈ s.getUserById id, u ∈ s.users :=
  fun _ hu => (getUserById_eq_some.mp hu).1

theorem Exact.addFriend (h : Exact s m) (hfuel : Enough s fuel) (env : Env) (user : ServerUser)
    (uidTarget : Int32) : Follows s (s.addFriend env user uidTarget)
      (m.still (m.addFriend fuel env s user uidTarget)) := by
  unfold ServerState.addFriend Memory.addFriend
  split
  · unfold ServerState.sendFriendRequest Memory.sendFriendRequest
    split
    · have hout := h.sendToUser hfuel env (@mem_of_lookup s uidTarget)
        (.systemMsg (text "Friend request received."))
      dsimp only
      split
      · exact .still h hout rfl rfl
      · exact .still h hout rfl rfl
    · exact .still h (h.sendToUser hfuel env mem_of_lookup _) rfl rfl
  · exact .still h rfl rfl (List.append_nil _).symm

theorem Exact.removeFriend (h : Exact s m) (hfuel : Enough s fuel) (env : Env) (user : ServerUser)
    (uidTarget : Int32) : Follows s (s.removeFriend env user uidTarget)
      (m.still (m.removeFriend fuel env s user uidTarget)) := by
  unfold ServerState.removeFriend Memory.removeFriend
  rcases sqlChDeleteFriends (env.sqlOk .deleteFriends) s.db user.id uidTarget with ⟨res, db⟩
  dsimp only
  split
  · have hfrom := h.sendToUser hfuel env (@mem_of_lookup s user.id)
      (.removeFriend uidTarget)
    have hto := h.sendToUser hfuel env (@mem_of_lookup s uidTarget)
      (.removeFriend user.id)
    simp only [hfrom, hto]
    exact .still h rfl rfl (List.append_assoc ..)
  · exact .still h rfl rfl (List.append_nil _).symm

def Spares (s : ServerState) (cmd : Command) : Prop :=
  ∀ tid, cmd = .cmdKickId (some tid) → s.getUserById tid = none

/-- Nobody is there to be kicked. -/
theorem spared {tid : Int32} (hnone : s.getUserById tid = none)
    (hserved : Server.serveAuth env s ssl user (.cmdKickId (some tid)) = .ok t) :
    m.serveAuth fuel env s sc user (.cmdKickId (some tid)) = .ok (m, []) ∧ t = s := by
  constructor
  · unfold Memory.serveAuth Memory.kick
    simp only [hnone]
  · unfold Server.serveAuth ServerState.cmdKickId at hserved
    simp only [hnone] at hserved
    exact (Except.ok.inj hserved).symm

theorem Exact.serveAuth (h : Exact s m) (hfuel : Enough s fuel) (hsc : sc ∈ s.clients)
    (hu : s.userOf sc = some user) {cmd : Command} (hspares : Spares s cmd)
    (hserved : serveAuth env s sc.ssl user cmd = .ok t) :
    Follows s t (m.serveAuth fuel env s sc user cmd) := by
  have huser := (userOf_eq_some.mp hu).2.1
  have hself : ∀ u ∈ some user, u ∈ s.users := fun u hu => Option.some.inj hu ▸ huser
  obtain ⟨layout, hexact⟩ := id h
  cases cmd with
  | broadcast msg =>
    cases hserved
    exact .still h (hexact.laid.sendToAll hfuel env _ _) rfl rfl
  | who | friends =>
    cases hserved
    exact .still h (h.sendToUser hfuel env hself _) rfl rfl
  | logout =>
    cases hserved
    exact h.logout hfuel huser
  | disconnect => exact h.hangUp hfuel hsc hserved
  | addFriend uid =>
    cases hserved
    exact h.addFriend hfuel env user uid
  | removeFriend uid =>
    cases hserved
    exact h.removeFriend hfuel env user uid
  | whisper tid msg =>
    cases msg with
    | none =>
      cases hserved
      exact .quiet h rfl
    | some msg =>
      unfold Server.serveAuth at hserved
      unfold Memory.serveAuth
      dsimp only at hserved ⊢
      cases ht : s.getUserById tid with
      | none =>
        simp only [ht] at hserved ⊢
        cases hserved
        exact .quiet h rfl
      | some tuser =>
        simp only [ht] at hserved ⊢
        cases hserved
        have htarget : ∀ u ∈ some tuser, u ∈ s.users := ht ▸ mem_of_lookup
        exact .still h (h.sendToUser hfuel env htarget _) rfl rfl
  | cmdKickId tid =>
    cases tid with
    | none =>
      cases hserved
      exact .quiet h rfl
    | some tid =>
      obtain ⟨hr, ht⟩ := spared (hspares tid rfl) hserved
      rw [hr, ht]
      exact .quiet h rfl
  | _ =>
    cases hserved
    exact .quiet (h.same rfl) rfl

theorem Exact.serveUnauth (h : Exact s m) (hfuel : Ample s fuel) (hfree : FreeIds lib s)
    (hp : m.nodes p = none) (hsc : sc ∈ s.clients) {cmd : Command}
    (hserved : serveUnauth lib env s sc.ssl cmd = .ok t) :
    Follows s t (m.serveUnauth fuel env s lib p sc cmd) := by
  cases cmd with
  | reqLogin uname upw =>
    cases hserved
    exact h.reqLogin hfuel hp hfree env sc.ssl uname upw
  | reqRegister uname upw =>
    cases hserved
    refine ⟨m, _, rfl, ?_, h.same ?_⟩
    · unfold ServerState.reqRegister Memory.reqRegister
      dsimp only
      split <;> rfl
    · unfold ServerState.reqRegister
      dsimp only
      split <;> rfl
  | disconnect => exact h.hangUp hfuel.enough hsc hserved
  | _ =>
    cases hserved
    exact .quiet h rfl

theorem Exact.serve (h : Exact s m) (hfuel : Ample s fuel) (hfree : FreeIds lib s)
    (hp : m.nodes p = none) (hsc : sc ∈ s.clients) {cmd : Command}
    (hspares : (s.userOf sc).isSome → Spares s cmd) (hserved : serve lib env s sc cmd = .ok t) :
    Follows s t (m.serve fuel env s lib p sc cmd) := by
  unfold Server.serve at hserved
  unfold Memory.serve
  by_cases hpos : 0 < sc.id
  · simp only [if_pos hpos] at hserved ⊢
    cases hu : s.getUserById sc.id with
    | some user =>
      simp only [hu] at hserved ⊢
      have hof : s.userOf sc = some user := by rw [userOf, if_pos hpos, hu]
      exact h.serveAuth hfuel.enough hsc hof (hspares (by rw [hof]; rfl)) hserved
    | none =>
      simp only [hu] at hserved ⊢
      cases hserved
      exact .quiet h rfl
  · simp only [if_neg hpos] at hserved ⊢
    exact h.serveUnauth hfuel hfree hp hsc hserved

/-! ## Events -/

/-- The packet of an operator that kicks somebody who is online. -/
def Kicks (s : ServerState) : Event → Prop
  | .packet fd _ data => ∃ sc ∈ s.clients, sc.ssl.fd = fd ∧ (s.userOf sc).isSome ∧
      ∃ tid dp, readPacket s sc (Datapacket.createFromData data) = .ok (.cmdKickId (some tid), dp) ∧
        (s.getUserById tid).isSome
  | _ => False

theorem Exact.handle (h : Exact s m) (hfuel : Ample s fuel) (hfree : FreeIds lib s)
    (hp : m.nodes p = none) {e : Event} (hstep : ServerStep lib e s t) (hspares : ¬ Kicks s e) :
    Follows s t (m.handle fuel s lib p e) := by
  cases hstep with
  | accept handshake _ _ _ =>
    unfold Memory.handle ServerState.accept
    split
    · exact .quiet (h.same rfl) rfl
    · exact .quiet (h.same rfl) rfl
  | @packet _ _ fd env data hpacket =>
    unfold cbMsgRcv at hpacket
    unfold Memory.handle
    cases hfound : s.clients.search fd with
    | none =>
      simp only [hfound] at hpacket
      cases hpacket
    | some sc =>
      obtain ⟨hsc, hfd⟩ := OrderedSet.search_eq_some.mp hfound
      simp only [hfound, processPacket_eq] at hpacket ⊢
      cases hread : readPacket s sc (Datapacket.createFromData data) with
      | error f =>
        rw [hread] at hpacket
        cases hpacket
      | ok read =>
        obtain ⟨cmd, dp⟩ := read
        rw [hread] at hpacket
        refine h.serve hfuel hfree hp hsc (fun hsome tid hcmd => ?_) hpacket
        subst hcmd
        by_contra hsomebody
        exact hspares ⟨sc, hsc, hfd, hsome, tid, dp, hread, Option.isSome_iff_ne_none.mpr hsomebody⟩
  | @hangup _ _ sc env hsc hd =>
    unfold Memory.handle
    simp only [OrderedSet.search_eq_some.mpr ⟨hsc, rfl⟩]
    exact h.hangUp hfuel.enough hsc hd

/-! ## Kicks -/

/-- The message of the kick arrives, and then the first turn of the loop reads
the node that it has freed. -/
theorem Exact.kick_faults (h : Exact s m) (ho : Owned s) (hfuel : Ample s fuel) {tid : Int32}
    (htid : (s.getUserById tid).isSome) (env : Env) :
    m.kick fuel env s tid = .error .freedNode := by
  obtain ⟨tuser, htuser⟩ := Option.isSome_iff_exists.mp htid
  obtain ⟨hmem, _⟩ := getUserById_eq_some.mp htuser
  obtain ⟨layout, hexact⟩ := id h
  obtain ⟨n, rfl⟩ := Nat.exists_eq_succ_of_ne_zero (Nat.ne_zero_of_lt hfuel.1)
  have hself : ∀ u ∈ some tuser, u ∈ s.users := fun u hu => Option.some.inj hu ▸ hmem
  have hout := h.sendToUser hfuel.enough env hself
    (.broadcast (text "admin") (text "you got kicked, fggt!"))
  generalize ServerState.sendToUser env (some tuser)
    (.broadcast (text "admin") (text "you got kicked, fggt!")) = out at hout
  have hlaid : LaidBy layout (s.send out) m := hexact.laid.sub fun _ hu => hu
  have howned : Owned (s.send out) := ⟨ho.owned, ho.listed, ho.positive⟩
  have hloop := kickLoop_reads_freed hlaid howned hmem env n
  unfold Memory.kick
  simp only [htuser, hout, Bind.bind, Except.bind, hloop]

theorem Exact.kicks_fault (h : Exact s m) (ho : Owned s) (hfuel : Ample s fuel) {e : Event}
    (hkicks : Kicks s e) : m.handle fuel s lib p e = .error .freedNode := by
  cases e with
  | packet fd env data =>
    obtain ⟨sc, hsc, hfd, hsome, tid, dp, hread, htid⟩ := hkicks
    obtain ⟨user, hu⟩ := Option.isSome_iff_exists.mp hsome
    obtain ⟨hpos, huser, hid⟩ := userOf_eq_some.mp hu
    have hkick := h.kick_faults ho hfuel htid env
    unfold Memory.handle
    simp only [OrderedSet.search_eq_some.mpr ⟨hsc, hfd⟩, hread, Memory.serve, if_pos hpos,
      getUserById_eq_some.mpr ⟨huser, hid⟩]
    exact hkick
  | accept | hangup => exact hkicks.elim

/-! ## Runs -/

/-- No node is allocated. -/
def Memory.empty : Memory := ⟨fun _ => none, fun _ => none⟩

/-- An event that is handled to the end, over the state and over the nodes. -/
inductive HeapStep (lib : Externals) : Event → ServerState × Memory → ServerState × Memory → Prop
  | handled {e : Event} {s t : ServerState} {m m' : Memory} {p fuel : Nat} {out : Sends} :
      ServerStep lib e s t → m.nodes p = none → m.handle fuel s lib p e = .ok (m', out) →
      HeapStep lib e (s, m) (t, m')

/-- What every state with its nodes is after a run. -/
structure HeapInv (x : ServerState × Memory) : Prop where
  sessions : Sessions x.1
  exact : Exact x.1 x.2

theorem Sessions.freeIds (h : Sessions s) (hname : ∀ a b, lib.nameEq a b = decide (a = b)) :
    FreeIds lib s := by
  intro row hrow uname heq hnone
  rw [hname, decide_eq_true_eq] at heq
  exact h.notOnline hrow heq hnone

theorem exact_start (db : Database) (listener : Nat) :
    Exact (ServerState.start db listener) .empty :=
  ⟨fun _ => [], ⟨fun u hu => absurd hu (OrderedSet.not_mem_empty u),
    fun u hu => absurd hu (OrderedSet.not_mem_empty u),
    fun u hu => absurd hu (OrderedSet.not_mem_empty u)⟩, nofun⟩

/-- There is room for one more node. -/
theorem Exact.room (h : Exact s m) : ∃ p, m.nodes p = none := by
  obtain ⟨layout, hexact⟩ := h
  obtain ⟨p, hp⟩ := Infinite.exists_notMem_finset
    (s.users.elems.flatMap fun u => (layout u.id).map Prod.fst).toFinset
  refine ⟨p, Option.not_isSome_iff_eq_none.mp fun hsome => hp ?_⟩
  obtain ⟨u, hu, hmem⟩ := hexact.owned p hsome
  exact List.mem_toFinset.mpr (List.mem_flatMap.mpr ⟨u, hu, hmem⟩)

theorem HeapInv.follows (h : HeapInv (s, m)) (hname : ∀ a b, lib.nameEq a b = decide (a = b))
    {e : Event} (hstep : ServerStep lib e s t) (hspares : ¬ Kicks s e) (hp : m.nodes p = none) :
    ∃ fuel, Follows s t (m.handle fuel s lib p e) := by
  obtain ⟨n, hn⟩ := exists_ample s
  exact ⟨n, h.exact.handle (hn n le_rfl) (h.sessions.freeIds hname) hp hstep hspares⟩

theorem HeapInv.step (hname : ∀ a b, lib.nameEq a b = decide (a = b)) (e : Event)
    (x y : ServerState × Memory) (h : HeapInv x) (hstep : HeapStep lib e x y) : HeapInv y := by
  cases hstep with
  | @handled s t m m' p fuel out hstep hp hhandle =>
    obtain ⟨n, hn⟩ := exists_ample s
    have hspares : ¬ Kicks s e := by
      intro hkicks
      have hmore : m.handle (max fuel n) s lib p e = .ok (m', out) :=
        Memory.steady_handle lib p e (le_max_left fuel n) _ hhandle
      have hfault : m.handle (max fuel n) s lib p e = .error .freedNode :=
        h.exact.kicks_fault h.sessions.toOwned (hn _ (le_max_right fuel n)) hkicks
      rw [hfault] at hmore
      cases hmore
    obtain ⟨k, m'', out', hk, _, hexact⟩ := h.follows hname hstep hspares hp
    have hsame := (Memory.steady_handle lib p e).unique hhandle hk
    exact ⟨sessions_step hname e s t h.sessions hstep, (Prod.mk.inj hsame).1 ▸ hexact⟩

/-- A run without kicks is one over the nodes too. -/
theorem heap_run (hname : ∀ a b, lib.nameEq a b = decide (a = b)) {events : List Event}
    (hrun : Run (guarded (ServerStep lib) fun e s => ¬ Kicks s e) s events t)
    (h : HeapInv (s, m)) : ∃ m', Run (HeapStep lib) (s, m) events (t, m') := by
  induction hrun generalizing m with
  | nil s => exact ⟨m, .nil _⟩
  | cons hstep _ ih =>
    obtain ⟨hstep, hspares⟩ := hstep
    obtain ⟨p, hp⟩ := h.exact.room
    obtain ⟨fuel, m₁, out, hhandle, _, _⟩ := h.follows hname hstep hspares hp
    have hfirst := HeapStep.handled hstep hp hhandle
    obtain ⟨m', hrest⟩ := ih (HeapInv.step hname _ _ _ h hfirst)
    exact ⟨m', .cons hfirst hrest⟩

/-- After every run the nodes in memory are exactly those of the lists of the
users online. Whatever happens next is handled without a read of a node that is
freed, with the sends that the state asks for, and the nodes are exactly those
of the lists again; but no kick of somebody who is online is. -/
theorem lists_safe (hname : ∀ a b, lib.nameEq a b = decide (a = b)) {db : Database}
    {listener : Nat} {events : List Event}
    (hrun : Run (HeapStep lib) (ServerState.start db listener, .empty) events (s, m)) :
    Exact s m ∧ (∃ p, m.nodes p = none) ∧ ∀ e p, m.nodes p = none →
      (∀ t, ServerStep lib e s t → ¬ Kicks s e → ∃ fuel, Follows s t (m.handle fuel s lib p e)) ∧
      (Kicks s e → ∃ n, ∀ fuel, n ≤ fuel → m.handle fuel s lib p e = .error .freedNode) := by
  have hinv : HeapInv (s, m) :=
    hrun.invariant (HeapInv.step hname) ⟨sessions_start db listener, exact_start db listener⟩
  refine ⟨hinv.exact, hinv.exact.room, fun e p hp => ⟨fun t hstep hspares => ?_, fun hkicks => ?_⟩⟩
  · exact hinv.follows hname hstep hspares hp
  · obtain ⟨n, hn⟩ := exists_ample s
    exact ⟨n, fun fuel hle => hinv.exact.kicks_fault hinv.sessions.toOwned (hn fuel hle) hkicks⟩

/-- Nobody kicks before he has logged in. -/
theorem not_kicks {fd : Nat} {data : List UInt8}
    (h : ∀ sc ∈ s.clients, sc.ssl.fd = fd → ¬ 0 < sc.id) : ¬ Kicks s (.packet fd env data) := by
  rintro ⟨sc, hsc, hfd, hsome, _⟩
  obtain ⟨user, hu⟩ := Option.isSome_iff_exists.mp hsome
  exact h sc hsc hfd (userOf_eq_some.mp hu).1

/-- Two users log in. -/
theorem lists_safe_two : ∃ m events, Run (HeapStep sampleExt)
    (ServerState.start (sampleDb 8) 3, .empty) events (twoUsers, m) ∧ Exact twoUsers m ∧
      (∃ p, m.nodes p = none) ∧ ∀ e p, m.nodes p = none →
        (∀ t, ServerStep sampleExt e twoUsers t → ¬ Kicks twoUsers e →
          ∃ fuel, Follows twoUsers t (m.handle fuel twoUsers sampleExt p e)) ∧
        (Kicks twoUsers e → ∃ n, ∀ fuel, n ≤ fuel →
          m.handle fuel twoUsers sampleExt p e = .error .freedNode) := by
  obtain ⟨hfirst, hsecond⟩ := twoClients_steps sampleExt (sampleDb 8)
  have hstart : ∀ sc ∈ (twoClients (sampleDb 8)).clients, sc.ssl.fd = 4 → ¬ 0 < sc.id :=
    show ∀ sc ∈ (twoClients (sampleDb 8)).clients.elems, sc.ssl.fd = 4 → ¬ 0 < sc.id by decide
  have hone : ∀ sc ∈ ((twoClients (sampleDb 8)).reqLogin sampleExt sampleEnv ⟨1, 4⟩ [97]
      []).clients, sc.ssl.fd = 5 → ¬ 0 < sc.id :=
    show ∀ sc ∈ ((twoClients (sampleDb 8)).reqLogin sampleExt sampleEnv ⟨1, 4⟩ [97]
      []).clients.elems, sc.ssl.fd = 5 → ¬ 0 < sc.id by decide
  have hrun : Run (guarded (ServerStep sampleExt) fun e s => ¬ Kicks s e)
      (ServerState.start (sampleDb 8) 3) [.accept ⟨1, 4⟩ true, .accept ⟨2, 5⟩ true,
        .packet 4 sampleEnv (loginOf [97]), .packet 5 sampleEnv (loginOf [98])] twoUsers :=
    .cons ⟨hfirst, id⟩ (.cons ⟨hsecond, id⟩ (.cons ⟨.packet rfl, not_kicks hstart⟩
      (.single ⟨.packet rfl, not_kicks hone⟩)))
  obtain ⟨m, hheap⟩ := heap_run (fun _ _ => rfl) hrun
    ⟨sessions_start (sampleDb 8) 3, exact_start (sampleDb 8) 3⟩
  exact ⟨m, _, hheap, lists_safe (fun _ _ => rfl) hheap⟩

end VhIM.Server
