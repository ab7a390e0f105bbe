import VhIM.Lib.Runs
import VhIM.Network.WireFormat
import VhIM.Server.Handlers

/-! # Steps of the server

The events that change the server's state, and what each of them can do: one
inversion lemma for the packets, whose cases every invariant goes through. -/
namespace VhIM.Server
open VhIM.Lib VhIM.Lib.Runs VhIM.Network VhIM.Sql

inductive Event where
  /-- A descriptor from `accept`, and whether `SSL_accept` succeeded. -/
  | accept (ssl : Ssl) (handshake : Bool)
  /-- A packet assembled from the data of a client. -/
  | packet (fd : Nat) (env : Env) (data : List UInt8)
  /-- A client that hung up. -/
  | hangup (fd : Nat) (env : Env)

variable (lib : Externals)

/-- One event. `accept` needs an open listener and returns a descriptor that
is not open, `SSL_new` an object that no client has. -/
inductive ServerStep : Event → ServerState → ServerState → Prop
  | accept {s : ServerState} {ssl : Ssl} (handshake : Bool) :
      s.listener ∈ s.opened → ssl.fd ∉ s.opened → (∀ sc ∈ s.clients, sc.ssl.ptr ≠ ssl.ptr) →
      ServerStep (.accept ssl handshake) s (s.accept ssl handshake)
  | packet {s t : ServerState} {fd : Nat} {env : Env} {data : List UInt8} :
      s.cbMsgRcv lib env fd data = .ok t → ServerStep (.packet fd env data) s t
  | hangup {s t : ServerState} {sc : ServerClient} {env : Env} :
      sc ∈ s.clients → s.serverChDisconnectClient env sc.ssl = .ok t →
      ServerStep (.hangup sc.ssl.fd env) s t

/-! ## What a packet can do -/

/-- The `k`-th `int` behind the size of a packet; the first is its type. -/
def wireInt (data : List UInt8) (k : Nat) : Int32 := bcToInt (data.drop (4 + 4 * k))

/-- What the packet of a client did, up to what was sent: the client's
connection, the user it is logged in as, the states before and after. -/
inductive Handled (env : Env) (ssl : Ssl) (data : List UInt8) :
    Option ServerUser → ServerState → ServerState → Prop
  | kept (u : Option ServerUser) (s : ServerState) (out : Sends) :
      Handled env ssl data u s (s.send out)
  | kicked {s t : ServerState} {user tuser : ServerUser} (out : Sends) :
      wireInt data 0 = MsgType.cmdKickId.code → isAllowed user.pLevel .cmdKickId = true →
      s.getUserById (wireInt data 1) = some tuser →
      (s.send out).kickLoop env tuser.connections = .ok t → Handled env ssl data (some user) s t
  | loggedOut (s : ServerState) (user : ServerUser) :
      wireInt data 0 = MsgType.logout.code →
      Handled env ssl data (some user) s (s.logout env ssl user)
  | disconnected {s t : ServerState} (u : Option ServerUser) :
      wireInt data 0 = MsgType.disconnect.code →
      s.serverChDisconnectClient env ssl = .ok t → Handled env ssl data u s t
  | granted (s : ServerState) (user : ServerUser) :
      wireInt data 0 = MsgType.grantPrivileges.code → Handled env ssl data (some user) s
        (s.grantPrivileges env (wireInt data 1) (wireInt data 2))
  | addedFriend (s : ServerState) (user : ServerUser) :
      wireInt data 0 = MsgType.addFriend.code →
      Handled env ssl data (some user) s (s.addFriend env user (wireInt data 1))
  | removedFriend (s : ServerState) (user : ServerUser) :
      wireInt data 0 = MsgType.removeFriend.code →
      Handled env ssl data (some user) s (s.removeFriend env user (wireInt data 1))
  | createdGroup (s : ServerState) (user : ServerUser) (name : List UInt8) :
      wireInt data 0 = MsgType.groupCreate.code →
      Handled env ssl data (some user) s (s.groupCreate env user name)
  | loggedIn (s : ServerState) (uname upw : List UInt8) :
      wireInt data 0 = MsgType.reqLogin.code →
      Handled env ssl data none s (s.reqLogin lib env ssl uname upw)
  | registered (s : ServerState) (uname upw : List UInt8) :
      wireInt data 0 = MsgType.reqRegister.code →
      Handled env ssl data none s (s.reqRegister lib env ssl uname upw)

variable {lib} {env : Env} {ssl : Ssl} {data : List UInt8} {s t : ServerState} {user : ServerUser}
  {sc : ServerClient} {dp dp' : Datapacket}

theorem Handled.same (u : Option ServerUser) (s : ServerState) :
    Handled lib env ssl data u s s := by
  have h : Handled lib env ssl data u s (s.send []) := .kept u s []
  rwa [ServerState.send, List.append_nil] at h

/-! ### Programs that read, run to their end -/

/-- A reader that succeeds has read a value and gone on with it. -/
theorem Get.bind_ok {α β : Type} {m : Get α} {f : α → Get β} {r : β × Datapacket}
    (h : (m >>= f) dp = .ok r) : ∃ a dp₁, m dp = .ok (a, dp₁) ∧ f a dp₁ = .ok r := by
  have h' : (m dp >>= fun p => f p.1 p.2) = .ok r := h
  cases hm : m dp with
  | error e => rw [hm] at h'; cases h'
  | ok p => exact ⟨p.1, p.2, rfl, by rw [hm] at h'; exact h'⟩

theorem Get.lift_ok {α : Type} {x : Except Fault α} {r : α × Datapacket}
    (h : (StateT.lift x : Get α) dp = .ok r) : x = .ok r.1 := by
  cases x with
  | error e => cases h
  | ok a => cases h; rfl

theorem Get.map_ok {α : Type} {m : Get α} {a : α} (h : (m dp).map Prod.fst = .ok a) :
    ∃ dp', m dp = .ok (a, dp') := by
  cases hm : m dp with
  | error e => rw [hm] at h; cases h
  | ok p => rw [hm] at h; cases h; exact ⟨p.2, rfl⟩

theorem Get.pure_ok {α : Type} {a : α} {r : α × Datapacket} (h : (pure a : Get α) dp = .ok r) :
    r.1 = a := by
  cases h; rfl

/-- A program goes on with what its first part has read. -/
theorem Get.bind_eq {α β : Type} {m : Get α} {a : α} (h : m dp = .ok (a, dp')) (f : α → Get β) :
    (m >>= f) dp = f a dp' := by
  show (m dp >>= fun p => f p.1 p.2) = _
  rw [h]
  rfl

/-- The reader behind the `k`-th `int` of a packet. -/
def atInt (data : List UInt8) (k : Nat) : Datapacket :=
  (Datapacket.createFromData data).advance (4 * k)

theorem getInt_ok {k : Nat} {i : Int32} (h : getInt (atInt data k) = .ok (i, dp')) :
    i = wireInt data k ∧ dp' = atInt data (k + 1) := by
  obtain ⟨ba, dp₁, hba, hi⟩ := Get.bind_ok h
  simp only [getBytes] at hba
  split at hba
  · cases hba
    cases hi
    exact ⟨bcToInt_take _, by simp [atInt, Datapacket.advance, intSize, Nat.mul_add, Nat.add_assoc]⟩
  · cases hba

theorem Get.bind_int {α : Type} {k : Nat} {f : Int32 → Get α} {r : α × Datapacket}
    (h : (getInt >>= f) (atInt data k) = .ok r) :
    f (wireInt data k) (atInt data (k + 1)) = .ok r := by
  obtain ⟨i, dp₁, hi, h⟩ := Get.bind_ok h
  obtain ⟨rfl, rfl⟩ := getInt_ok hi
  exact h

/-- The `k`-th `int`, if it is there. -/
theorem getInt_atInt {k : Nat} (h : 8 + 4 * k ≤ data.length) :
    getInt (atInt data k) = .ok (wireInt data k, atInt data (k + 1)) := by
  have hlen : (atInt data k).index + intSize ≤ (atInt data k).data.length := by
    simp only [atInt, Datapacket.advance, Datapacket.createFromData, intSize]
    omega
  rw [getInt_of_le hlen]
  simp [wireInt, atInt, Datapacket.advance, Datapacket.rest, Datapacket.createFromData, intSize,
    Nat.mul_add, Nat.add_assoc]

/-- The string behind the first `k` of them, if there is one. -/
theorem getString_atInt {k n : Nat} {msg : List UInt8}
    (h : fieldAt .string (data.drop (4 + 4 * k)) = some (msg, n)) :
    getString (atInt data k) = .ok (msg, (atInt data k).advance n) := by
  have hread := getString_reads (atInt data k)
  rw [show Datapacket.cursor.rest (atInt data k) = data.drop (4 + 4 * k) from rfl, h] at hread
  exact hread

/-! ### Every packet -/

theorem handled_authCase
    (h : s.authCase env ssl user (MsgType.ofCode (wireInt data 0)) (atInt data 1) = .ok (t, dp')) :
    Handled lib env ssl data (some user) s t := by
  generalize htype : MsgType.ofCode (wireInt data 0) = type at h
  unfold ServerState.authCase at h
  split at h
  · obtain ⟨msg, dp₂, _, h⟩ := Get.bind_ok h
    cases Get.pure_ok h
    exact .kept _ _ _
  · split at h
    · next hallowed =>
      have hk := Get.lift_ok (Get.bind_int h)
      simp only [ServerState.cmdKickId] at hk
      split at hk
      · next tuser htid => exact .kicked _ (MsgType.code_of_ofCode htype).symm hallowed htid hk
      · cases hk; exact .same _ _
    · cases Get.pure_ok h; exact .same _ _
  · have h := Get.bind_int h
    cases htid : s.getUserById (wireInt data 1) with
    | some tuser =>
      rw [htid] at h
      obtain ⟨msg, dp₃, _, h⟩ := Get.bind_ok h
      cases Get.pure_ok h
      exact .kept _ _ _
    | none =>
      rw [htid] at h
      cases Get.pure_ok h; exact .same _ _
  · cases Get.pure_ok h; exact .kept _ _ _
  · cases Get.pure_ok h; exact .kept _ _ _
  · cases Get.pure_ok h
    exact .loggedOut _ _ (MsgType.code_of_ofCode htype).symm
  · exact .disconnected _ (MsgType.code_of_ofCode htype).symm (Get.lift_ok h)
  · have h := Get.bind_int h
    have h := Get.bind_int h
    cases Get.pure_ok h
    exact .granted _ _ (MsgType.code_of_ofCode htype).symm
  · have h := Get.bind_int h
    cases Get.pure_ok h
    exact .addedFriend _ _ (MsgType.code_of_ofCode htype).symm
  · have h := Get.bind_int h
    cases Get.pure_ok h
    exact .removedFriend _ _ (MsgType.code_of_ofCode htype).symm
  · obtain ⟨name, dp₂, _, h⟩ := Get.bind_ok h
    cases Get.pure_ok h
    exact .createdGroup _ _ _ (MsgType.code_of_ofCode htype).symm
  · cases Get.pure_ok h; exact .same _ _

theorem handled_unauthCase
    (h : s.unauthCase lib env ssl (MsgType.ofCode (wireInt data 0)) dp = .ok (t, dp')) :
    Handled lib env ssl data none s t := by
  generalize htype : MsgType.ofCode (wireInt data 0) = type at h
  unfold ServerState.unauthCase at h
  split at h
  · obtain ⟨uname, dp₂, _, h⟩ := Get.bind_ok h
    obtain ⟨upw, dp₃, _, h⟩ := Get.bind_ok h
    cases Get.pure_ok h
    exact .loggedIn _ _ _ (MsgType.code_of_ofCode htype).symm
  · obtain ⟨uname, dp₂, _, h⟩ := Get.bind_ok h
    obtain ⟨upw, dp₃, _, h⟩ := Get.bind_ok h
    cases Get.pure_ok h
    exact .registered _ _ _ (MsgType.code_of_ofCode htype).symm
  · exact .disconnected _ (MsgType.code_of_ofCode htype).symm (Get.lift_ok h)
  · cases Get.pure_ok h; exact .same _ _

/-- The user a client is logged in as. -/
def ServerState.userOf (s : ServerState) (sc : ServerClient) : Option ServerUser :=
  if 0 < sc.id then s.getUserById sc.id else none

/-- The case a packet of a user selects is run on the bytes behind the type. -/
theorem authCase_of_packet (hu : s.userOf sc = some user)
    (h : s.processPacket lib env sc data = .ok t) :
    ∃ dp', s.authCase env sc.ssl user (MsgType.ofCode (wireInt data 0)) (atInt data 1) =
      .ok (t, dp') := by
  unfold ServerState.userOf at hu
  simp only [ServerState.processPacket] at h
  split at hu
  · next hpos =>
    rw [if_pos hpos, hu] at h
    obtain ⟨dp', hrun⟩ := Get.map_ok h
    have hcase := Get.bind_int (k := 0) (f := fun type => s.authCase env sc.ssl user
      (MsgType.ofCode type)) hrun
    exact ⟨dp', hcase⟩
  · cases hu

theorem unauthCase_of_packet (hun : ¬ 0 < sc.id) (h : s.processPacket lib env sc data = .ok t) :
    ∃ dp', s.unauthCase lib env sc.ssl (MsgType.ofCode (wireInt data 0)) (atInt data 1) =
      .ok (t, dp') := by
  simp only [ServerState.processPacket, if_neg hun] at h
  obtain ⟨dp', hrun⟩ := Get.map_ok h
  have hcase := Get.bind_int (k := 0) (f := fun type => s.unauthCase lib env sc.ssl
    (MsgType.ofCode type)) hrun
  exact ⟨dp', hcase⟩

/-- Nothing comes of the packet of a client whose id is nobody's. -/
theorem eq_of_lost (hlost : 0 < sc.id ∧ s.userOf sc = none)
    (h : s.processPacket lib env sc data = .ok t) : t = s := by
  obtain ⟨hpos, hu⟩ := hlost
  rw [ServerState.userOf, if_pos hpos] at hu
  simp only [ServerState.processPacket, if_pos hpos, hu] at h
  cases h
  rfl

/-- Every packet that is handled is of a client that is there, and has one of
the effects above. -/
theorem handled_packet {fd : Nat} (h : s.cbMsgRcv lib env fd data = .ok t) :
    ∃ sc ∈ s.clients, sc.ssl.fd = fd ∧ s.processPacket lib env sc data = .ok t ∧
      Handled lib env sc.ssl data (s.userOf sc) s t := by
  simp only [ServerState.cbMsgRcv] at h
  split at h
  · next sc hsc =>
    obtain ⟨hmem, hfd⟩ := OrderedSet.search_eq_some.mp hsc
    refine ⟨sc, hmem, hfd, h, ?_⟩
    cases hu : s.userOf sc with
    | some user =>
      obtain ⟨dp', hcase⟩ := authCase_of_packet hu h
      exact handled_authCase hcase
    | none =>
      by_cases hpos : 0 < sc.id
      · rw [eq_of_lost ⟨hpos, hu⟩ h]
        exact .same _ _
      · obtain ⟨dp', hcase⟩ := unauthCase_of_packet hpos h
        exact handled_unauthCase hcase
  · cases h

/-- The other way round: what the case makes of the packet is what the server
makes of it. -/
theorem cbMsgRcv_of_authCase (hsc : sc ∈ s.clients) (hu : s.userOf sc = some user)
    (hlen : 8 ≤ data.length) : s.cbMsgRcv lib env sc.ssl.fd data =
      (s.authCase env sc.ssl user (MsgType.ofCode (wireInt data 0)) (atInt data 1)).map
        Prod.fst := by
  have hfound : s.clients.search sc.ssl.fd = some sc := OrderedSet.search_eq_some.mpr ⟨hsc, rfl⟩
  have htype : getInt (Datapacket.createFromData data) = .ok (wireInt data 0, atInt data 1) :=
    getInt_atInt (k := 0) (by omega)
  unfold ServerState.userOf at hu
  split at hu
  · next hpos =>
    simp only [ServerState.cbMsgRcv, hfound, ServerState.processPacket, if_pos hpos, hu,
      ServerState.handlePacketAuth, Get.bind_eq htype]
  · cases hu

end VhIM.Server
