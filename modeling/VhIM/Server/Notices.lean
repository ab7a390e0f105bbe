import VhIM.Server.Delivery

/-! # Presence notices

Who is present, the calls of `send_to_friends` that the handlers make about it,
and how the packets handed over read. -/
namespace VhIM.Server
open VhIM.Lib VhIM.Network VhIM.Sql VhIM.Utility

/-! ## What a notice says -/

/-- Of the presence of `uid`: that it rose, or fell. -/
def ServerMsg.notice (uid : Int32) : ServerMsg → Option Bool
  | .friendOnline id _ => if id = uid then some true else none
  | .friendOffline id => if id = uid then some false else none
  | _ => none

/-- The same, read from the bytes of a packet. -/
def noticeAt (uid : Int32) (data : List UInt8) : Option Bool :=
  if wireInt data 1 ≠ uid then none
  else if wireInt data 0 = MsgType.friendOnline.code then some true
  else if wireInt data 0 = MsgType.friendOffline.code then some false
  else none

namespace ServerState
variable (lib : Externals) (env : Env)

def present (s : ServerState) (uid : Int32) : Bool := (s.getUserById uid).isSome

/-! ## The calls of `send_to_friends`

The packets that an event passes to it, in order, case by case where the source
makes the call. -/

/-- MSG_LOGOUT and `cb_cl_dc`, where they take a connection from a user. -/
def dropNotices (user : ServerUser) (ssl : Ssl) : List ServerMsg :=
  if (user.removeConnection ssl).connections = [] then [.friendOffline user.id] else []

def cbClDcNotices (s : ServerState) (sc : ServerClient) : List ServerMsg :=
  if 0 < sc.id then
    match s.getUserById sc.id with
    | some user => dropNotices user sc.ssl
    | none => []
  else []

/-- `server_ch_disconnect_client`, by its callback. -/
def disconnectNotices (s : ServerState) (ssl : Ssl) : List ServerMsg :=
  match s.clients.search ssl.fd with
  | some sc => s.cbClDcNotices sc
  | none => []

def kickNotices (s : ServerState) : List Ssl → List ServerMsg
  | [] => []
  | c :: next => s.disconnectNotices c ++
      match s.serverChDisconnectClient env c with
      | .ok s => s.kickNotices next
      | .error _ => []

def cmdKickIdNotices (s : ServerState) (tid : Int32) : List ServerMsg :=
  match s.getUserById tid with
  | some tuser =>
    let answer := .broadcast (text "admin") (text "you got kicked, fggt!")
    (s.send (sendToUser env tuser answer)).kickNotices env tuser.connections
  | none => []

def loginNotices (s : ServerState) (ssl : Ssl) (uname upw : List UInt8) : List ServerMsg :=
  match s.authorizeClient lib env ssl uname upw with
  | (some user, _, _) =>
    if user.conLen = 1 then [.friendOnline user.id user.username] else []
  | (none, _, _) => []

def authNotices (s : ServerState) (ssl : Ssl) (user : ServerUser) :
    Option MsgType → Get (List ServerMsg)
  | some .cmdKickId =>
    if isAllowed user.pLevel .cmdKickId then do
      let tid ← getInt
      return s.cmdKickIdNotices env tid
    else return []
  | some .logout => return dropNotices user ssl
  | some .disconnect => return s.disconnectNotices ssl
  | _ => return []

def unauthNotices (s : ServerState) (ssl : Ssl) : Option MsgType → Get (List ServerMsg)
  | some .reqLogin => do
    let uname ← getString
    let upw ← getString
    return s.loginNotices lib env ssl uname upw
  | some .disconnect => return s.disconnectNotices ssl
  | _ => return []

/-- `process_packet`. -/
def packetNotices (s : ServerState) (sc : ServerClient) (data : List UInt8) : List ServerMsg :=
  let calls : Get (List ServerMsg) := do
    let packetType ← getInt
    if 0 < sc.id then
      match s.getUserById sc.id with
      | some user => s.authNotices env sc.ssl user (MsgType.ofCode packetType)
      | none => return []
    else s.unauthNotices lib env sc.ssl (MsgType.ofCode packetType)
  match calls (Datapacket.createFromData data) with
  | .ok (msgs, _) => msgs
  | .error _ => []

def eventNotices (s : ServerState) : Event → List ServerMsg
  | .accept _ _ => []
  | .packet fd env data =>
    match s.clients.search fd with
    | some sc => s.packetNotices lib env sc data
    | none => []
  | .hangup fd _ =>
    match s.clients.search fd with
    | some sc => s.disconnectNotices sc.ssl
    | none => []

end ServerState

/-! ## Notices as bytes -/

open ServerState
variable {env : Env}

/-- The type at the start of some bytes, cut anywhere. -/
theorem bcToInt_take_code (type : MsgType) (tail : List UInt8) (n : Nat) :
    bcToInt ((bcFromInt type.code ++ tail).take n) = type.code ∨
      bcToInt ((bcFromInt type.code ++ tail).take n) = 0 := by
  by_cases hn : 4 ≤ n
  · left
    rw [List.take_append, List.take_of_length_le (by simpa using hn)]
    exact bcToInt_fromInt _ _
  · right
    have hhead : bcFromInt type.code = [0, 0, 0, (bcFromInt type.code).getD 3 0] := by
      cases type <;> decide
    have hlt : n < 4 := not_le.mp hn
    rw [hhead]
    interval_cases n <;> simp [bcToInt, promote]

/-- A packet is finished with its type behind its size, whatever the size says
of its length. -/
theorem wireInt_packet_type (m : ServerMsg) :
    wireInt (packet env m) 0 = m.type.code ∨ wireInt (packet env m) 0 = 0 := by
  have hw := ServerMsg.build_writes env.fresh m
  obtain ⟨hs, hidx, hdrop⟩ := Datapacket.create_spec env.fresh m.type.code
  let dp := m.build env.fresh
  have hlen : intSize ≤ (Datapacket.create env.fresh m.type.code).written.length := by
    rw [Datapacket.written, List.length_take, hs.size, hidx]
    have hroom := hs.room
    simp only [intSize]
    omega
  have hdata : dp.data.drop intSize = bcFromInt m.type.code ++ (m.body ++ dp.data.drop dp.index) :=
    calc dp.data.drop intSize = (dp.written ++ dp.data.drop dp.index).drop intSize := by
          rw [Datapacket.written, List.take_append_drop]
      _ = bcFromInt m.type.code ++ (m.body ++ dp.data.drop dp.index) := by
          rw [hw.written, List.append_assoc, List.drop_append_of_le_length hlen, hdrop]
  have hfin : packet env m =
      (bcFromInt dp.finish.1 ++ dp.data.drop intSize).take dp.finish.1.toInt.toNat := by
    rw [packet, Datapacket.finishedBytes]
    simp only [Datapacket.finish, Datapacket.copyTo, memcpy_zero_append, bcFromInt_length]
    rfl
  have hwire : wireInt (packet env m) 0 = bcToInt ((dp.data.drop intSize).take
      (dp.finish.1.toInt.toNat - 4)) := by
    rw [wireInt, hfin, List.drop_take]
    rfl
  rw [hwire, hdata]
  exact bcToInt_take_code _ _ _

/-- The message says that somebody came or went. -/
def ServerMsg.isNotice (m : ServerMsg) : Bool := m.type = .friendOnline ∨ m.type = .friendOffline

/-- The packets that say nothing of anybody's presence. -/
def Quiet (env : Env) (out : Sends) : Prop :=
  ∀ x ∈ out, ∃ m : ServerMsg, x.2 = packet env m ∧ m.isNotice = false

theorem Quiet.nil (env : Env) : Quiet env [] := fun _ hx => absurd hx List.not_mem_nil

theorem noticeAt_quiet {m : ServerMsg} (h : m.isNotice = false) (uid : Int32) :
    noticeAt uid (packet env m) = none := by
  obtain ⟨hon, hoff⟩ : m.type ≠ .friendOnline ∧ m.type ≠ .friendOffline := by
    simpa [ServerMsg.isNotice] using h
  have hcode : ∀ type : MsgType, type ≠ m.type → type.code ≠ 0 →
      wireInt (packet env m) 0 ≠ type.code := by
    intro type hne hzero he
    have htypes : wireInt (packet env m) 0 = m.type.code ∨ _ := wireInt_packet_type m
    rcases htypes with h | h
    · have htype := MsgType.ofCode_code type
      rw [← he, h, MsgType.ofCode_code] at htype
      exact hne (Option.some.inj htype).symm
    · exact hzero (he.symm.trans h)
  unfold noticeAt
  rw [if_neg (hcode .friendOnline hon.symm (by decide)),
    if_neg (hcode .friendOffline hoff.symm (by decide)), ite_self]

theorem Quiet.inbox {out : Sends} (h : Quiet env out) (uid : Int32) (c : Ssl) :
    (inbox c out).filterMap (noticeAt uid) = [] := by
  rw [List.filterMap_eq_nil_iff]
  intro data hdata
  obtain ⟨m, hm, hquiet⟩ := h _ (mem_inbox.mp hdata)
  rw [show data = packet env m from hm]
  exact noticeAt_quiet hquiet uid

theorem quiet_sendToUser {u : Option ServerUser} {m : ServerMsg} (h : m.isNotice = false) :
    Quiet env (sendToUser env u m) := by
  intro x hx
  cases u with
  | none => cases hx
  | some u =>
    obtain ⟨c, _, rfl⟩ := List.mem_map.mp hx
    exact ⟨m, rfl, h⟩

theorem Quiet.append {out out' : Sends} (h : Quiet env out) (h' : Quiet env out') :
    Quiet env (out ++ out') := by
  intro x hx
  rcases List.mem_append.mp hx with hx | hx
  · exact h x hx
  · exact h' x hx

theorem wireInt_packetBytes (type : Int32) (body : List UInt8) :
    wireInt (packetBytes type body) 0 = type := bcToInt_fromInt type body

theorem wireInt_packetBytes_int (type i : Int32) (tail : List UInt8) :
    wireInt (packetBytes type (bcFromInt i ++ tail)) 1 = i := bcToInt_fromInt i tail

theorem noticeAt_online {uid id : Int32} {name : List UInt8} (hsize : 17 + name.length < 2 ^ 31) :
    noticeAt uid (packet env (.friendOnline id name)) =
      (ServerMsg.friendOnline id name).notice uid := by
  have hbody : (ServerMsg.friendOnline id name).body = bcFromInt id ++ stringBytes name := by
    simp [ServerMsg.body, ServerMsg.fields, encodeFields, Field.encode]
  have hlen : 8 + (ServerMsg.friendOnline id name).body.length < 2 ^ 31 := by
    rw [hbody, List.length_append, bcFromInt_length, stringBytes_length]
    omega
  rw [packet, ServerMsg.finishedBytes_build env.fresh hlen, hbody, noticeAt, wireInt_packetBytes,
    wireInt_packetBytes_int, ServerMsg.notice]
  by_cases hid : id = uid <;> simp [hid, ServerMsg.type]

theorem noticeAt_offline (uid id : Int32) :
    noticeAt uid (packet env (.friendOffline id)) = (ServerMsg.friendOffline id).notice uid := by
  have hbody : (ServerMsg.friendOffline id).body = bcFromInt id ++ [] := by
    simp [ServerMsg.body, ServerMsg.fields, encodeFields, Field.encode]
  have hlen : 8 + (ServerMsg.friendOffline id).body.length < 2 ^ 31 := by
    rw [hbody, List.append_nil, bcFromInt_length]
    decide
  rw [packet, ServerMsg.finishedBytes_build env.fresh hlen, hbody, noticeAt, wireInt_packetBytes,
    wireInt_packetBytes_int, ServerMsg.notice]
  by_cases hid : id = uid
  · simp only [hid, ne_eq, not_true_eq_false, if_false, if_true, ServerMsg.type]
    rfl
  · simp [hid]

end VhIM.Server
