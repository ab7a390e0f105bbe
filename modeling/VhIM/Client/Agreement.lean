import VhIM.Client.ProcessPacket
import VhIM.Utility.StringsHelper

/-! # Server to client agreement

What the client makes of each packet the server builds. The two programs share
no schema: the fields written in `server.c` meet the reads of `client.c`. -/
namespace VhIM.Client
open VhIM.Lib VhIM.Network VhIM.Utility VhIM.Server
open VhIM.Network.Datapacket (cursor)

def stackOf (infos : List ServerUserInfo) : Vstack ServerUserInfo := Vstack.create.pushAll infos

theorem stackOf_holds (infos : List ServerUserInfo) : (stackOf infos).Holds infos :=
  Vstack.pushAll_holds Vstack.create_holds infos

/-- The callback registered for a message's type, with the message's values. -/
def callbackOf : ServerMsg → Callback
  | .welcome uname => .welcome uname
  | .authFailed msg res => .authFailed msg res
  | .broadcast name msg => .broadcast name msg
  | .systemMsg msg => .systemMsg msg
  | .registrSuccessful msg => .registrSuccessful msg
  | .registrFailed msg => .registrFailed msg
  | .who users => .who (stackOf users)
  | .friends on off requests => .friends (stackOf on) (stackOf off) (stackOf requests)
  | .removeFriend uid => .removeFriend uid
  | .friendOnline uid name => .friendOnline uid name
  | .friendOffline uid => .friendOffline uid

/-- The client invokes exactly the message's callback and reads exactly to the
packet's end. -/
def Understood (fresh : Nat → UInt8) (m : ServerMsg) : Prop :=
  let bytes := (m.build fresh).finishedBytes
  processPacket bytes = .ok ([callbackOf m],
    { Datapacket.createFromData bytes with index := bytes.length })

/-! ## Lists of entries -/

theorem readInfos_consumes {infos : List ServerUserInfo} (stack : Vstack ServerUserInfo)
    (hnul : ∀ i ∈ infos, 0 ∉ i.username) (hlen : ∀ i ∈ infos, i.username.length < 2 ^ 31) :
    Consumes cursor (readInfos infos.length stack)
      (encodeFields (infos.flatMap fun i => [.int i.id, .string i.username]))
      (stack.pushAll infos) := by
  induction infos generalizing stack with
  | nil => exact Consumes.pure stack
  | cons i infos ih =>
    have hrest := ih (stack.push ⟨i.id, i.username⟩) (fun j hj => hnul j (by simp [hj]))
      (fun j hj => hlen j (by simp [hj]))
    have hs := getString_consumes (hnul i (by simp)) (hlen i (by simp))
    have h := (getInt_consumes i.id).bind (f := fun uid => do
      let uname ← getString
      readInfos infos.length (stack.push ⟨uid, uname⟩)) (hs.bind hrest)
    simpa [readInfos, encodeFields, Field.encode, Vstack.pushAll] using h

theorem encode_string_length {s : List UInt8} {fields : List Field} (h : .string s ∈ fields) :
    s.length < (encodeFields fields).length := by
  obtain ⟨pre, post, rfl⟩ := List.append_of_mem h
  simp only [encodeFields, List.flatMap_append, List.flatMap_cons, Field.encode,
    List.length_append, stringBytes_length]
  omega

theorem infos_length_le (infos : List ServerUserInfo) :
    infos.length ≤
      (encodeFields (infos.flatMap fun i => [.int i.id, .string i.username])).length := by
  induction infos with
  | nil => simp
  | cons i infos ih =>
    simp only [List.flatMap_cons, encodeFields, List.flatMap_append, List.length_append,
      List.length_cons] at ih ⊢
    simp only [List.flatMap_nil, Field.encode, stringBytes_length, bcFromInt_length,
      List.length_nil]
    omega

theorem readCounted_consumes (infos : List ServerUserInfo)
    (hnul : ∀ f ∈ ServerMsg.infoFields infos, f.NulFree)
    (hsize : (encodeFields (ServerMsg.infoFields infos)).length < 2 ^ 31) :
    Consumes cursor readCounted (encodeFields (ServerMsg.infoFields infos)) (stackOf infos) := by
  have hmem : ∀ i ∈ infos, Field.string i.username ∈ ServerMsg.infoFields infos := by
    intro i hi
    refine List.mem_cons_of_mem _ (List.mem_flatMap.mpr ⟨i, hi, by simp⟩)
  have hcount : infos.length < 2 ^ 31 := by
    have := infos_length_le infos
    simp only [ServerMsg.infoFields, encodeFields, List.flatMap_cons, List.length_append] at hsize
    simp only [encodeFields] at this
    omega
  have hint : (Int32.ofNat infos.length).toInt.toNat = infos.length := by
    rw [Int32.toInt_ofNat_of_lt hcount]; rfl
  have hread := readInfos_consumes Vstack.create (fun i hi => hnul _ (hmem i hi))
    (fun i hi => (encode_string_length (hmem i hi)).trans hsize)
  refine (getInt_consumes (Int32.ofNat infos.length)).bind ?_
  rw [hint]
  exact hread

/-! ## Each message -/

theorem string_field_consumes {s : List UInt8} {fields : List Field}
    (hnul : ∀ f ∈ fields, f.NulFree) (hsize : (encodeFields fields).length < 2 ^ 31)
    (h : .string s ∈ fields) : Consumes cursor getString (stringBytes s) s :=
  getString_consumes (hnul _ h) ((encode_string_length h).trans hsize)

theorem friends_body (on off requests : List ServerUserInfo) :
    (ServerMsg.friends on off requests).body =
      encodeFields (ServerMsg.infoFields on) ++ (encodeFields (ServerMsg.infoFields off) ++
        encodeFields (ServerMsg.infoFields requests)) := by
  simp [ServerMsg.body, ServerMsg.fields, encodeFields]

/-- Every case but one reads the fields its message was written with. -/
theorem dispatch_consumes {m : ServerMsg} (hm : m.type ≠ .registrSuccessful)
    (hnul : ∀ f ∈ m.fields, f.NulFree) (hsize : m.body.length < 2 ^ 31) :
    Consumes cursor dispatch (bcFromInt m.type.code ++ m.body) [callbackOf m] := by
  refine (getInt_consumes m.type.code).bind ?_
  simp only [MsgType.ofCode_code]
  cases m with
  | welcome s | systemMsg s | registrFailed s =>
    have hbody : encodeFields [.string s] = stringBytes s := by simp [encodeFields, Field.encode]
    have hs := string_field_consumes hnul hsize (s := s) (by simp [ServerMsg.fields])
    simp only [ServerMsg.body, ServerMsg.fields]
    rw [hbody]
    exact hs.bind_pure
  | authFailed msg res =>
    have hbody : encodeFields [.string msg, .int res] = stringBytes msg ++ bcFromInt res := by
      simp [encodeFields, Field.encode]
    have hs := string_field_consumes hnul hsize (s := msg) (by simp [ServerMsg.fields])
    simp only [ServerMsg.body, ServerMsg.fields]
    rw [hbody]
    exact hs.bind (getInt_consumes res).bind_pure
  | broadcast name msg =>
    have hbody : encodeFields [.string name, .string msg] =
        stringBytes name ++ stringBytes msg := by
      simp [encodeFields, Field.encode]
    have hn := string_field_consumes hnul hsize (s := name) (by simp [ServerMsg.fields])
    have hs := string_field_consumes hnul hsize (s := msg) (by simp [ServerMsg.fields])
    simp only [ServerMsg.body, ServerMsg.fields]
    rw [hbody]
    exact hn.bind hs.bind_pure
  | registrSuccessful _ => exact absurd rfl hm
  | who users => exact (readCounted_consumes users hnul hsize).bind_pure
  | friends on off requests =>
    have hlen := congrArg List.length (friends_body on off requests)
    simp only [List.length_append] at hlen
    simp only [ServerMsg.fields, List.mem_append] at hnul
    have hon := readCounted_consumes on (fun f hf => hnul f (by simp [hf])) (by omega)
    have hoff := readCounted_consumes off (fun f hf => hnul f (by simp [hf])) (by omega)
    have hreq := readCounted_consumes requests (fun f hf => hnul f (by simp [hf]))
      (by omega)
    rw [friends_body]
    exact hon.bind (hoff.bind hreq.bind_pure)
  | removeFriend uid | friendOffline uid =>
    have hbody : encodeFields [.int uid] = bcFromInt uid := by simp [encodeFields, Field.encode]
    simp only [ServerMsg.body, ServerMsg.fields]
    rw [hbody]
    exact (getInt_consumes uid).bind_pure
  | friendOnline uid name =>
    have hbody : encodeFields [.int uid, .string name] = bcFromInt uid ++ stringBytes name := by
      simp [encodeFields, Field.encode]
    have hs := string_field_consumes hnul hsize (s := name) (by simp [ServerMsg.fields])
    simp only [ServerMsg.body, ServerMsg.fields]
    rw [hbody]
    exact (getInt_consumes uid).bind hs.bind_pure

/-- At the end of a packet there is no string to read. -/
theorem getString_at_end {α : Type} (f : List UInt8 → Get α) {dp : Datapacket}
    (h : dp.rest = []) : (getString >>= f) dp = .error .outOfBounds := by
  have hlen : dp.data.length ≤ dp.index := List.drop_eq_nil_iff.mp h
  have hbytes : getBytes intSize dp = .error .outOfBounds :=
    if_neg (by simp only [intSize]; omega)
  show (((getBytes intSize dp >>= _) >>= _) >>= _) = _
  rw [hbytes]
  rfl

/-- The case of MSG_REGISTR_SUCCESSFUL runs on into the next one, whose read
starts where the packet ends. -/
theorem registrSuccessful_runs_on (msg : List UInt8) (hnul : 0 ∉ msg)
    (hsize : 8 + (stringBytes msg).length < 2 ^ 31) :
    processPacket (packetBytes MsgType.registrSuccessful.code (stringBytes msg)) =
      .error .outOfBounds := by
  have hlen : msg.length < 2 ^ 31 := by rw [stringBytes_length] at hsize; omega
  have hpacket : cursor.rest (Datapacket.createFromData
      (packetBytes MsgType.registrSuccessful.code (stringBytes msg))) = _ :=
    Datapacket.rest_createFromData _ _
  obtain ⟨htype, hrest⟩ := (getInt_consumes MsgType.registrSuccessful.code).andThen
    (fun packetType => dispatchCase (MsgType.ofCode packetType)) hpacket
  obtain ⟨hmsg, hend⟩ := (getString_consumes hnul hlen).andThen
    (fun msg => do
      let failed ← getString
      pure [Callback.registrSuccessful msg, Callback.registrFailed failed])
    (hrest.trans (List.append_nil _).symm)
  rw [processPacket, dispatch, htype, MsgType.ofCode_code]
  exact hmsg.trans (getString_at_end _ hend)

/-- For every message the server builds, the client makes of it what was
meant, unless it is a MSG_REGISTR_SUCCESSFUL. -/
theorem server_message_understood (fresh : Nat → UInt8) (m : ServerMsg)
    (hnul : ∀ f ∈ m.fields, f.NulFree) (hsize : 8 + m.body.length < 2 ^ 31) :
    Understood fresh m ↔ m.type ≠ .registrSuccessful := by
  rw [Understood, ServerMsg.finishedBytes_build fresh hsize]
  constructor
  · intro hread htype
    cases m with
    | registrSuccessful msg =>
      have hbody : (ServerMsg.registrSuccessful msg).body = stringBytes msg := by
        simp [ServerMsg.body, ServerMsg.fields, encodeFields, Field.encode]
      rw [hbody] at hread hsize
      have hfail := registrSuccessful_runs_on msg (hnul (.string msg) (by simp [ServerMsg.fields]))
        hsize
      rw [htype, hfail] at hread
      cases hread
    | _ => cases htype
  · intro htype
    exact Datapacket.reads_packet (dispatch_consumes htype hnul (by omega))

theorem server_message_understood_friends :
    Understood (fun _ => 7) (.friends [⟨3, [97]⟩] [] [⟨4, [98, 99]⟩, ⟨-1, []⟩]) :=
  (server_message_understood (fun _ => 7) _ (by
    simp [ServerMsg.fields, ServerMsg.infoFields, Field.NulFree]) (by decide)).mpr (by decide)

/-- The reply to a successful registration is not understood. -/
theorem registration_reply_misread :
    ¬ Understood (fun _ => 0) (.registrSuccessful (text "Registration complete. Login now.")) := by
  intro hread
  have hbytes := ServerMsg.finishedBytes_build (fun _ => 0)
    (m := .registrSuccessful (text "Registration complete. Login now.")) (by decide)
  have hfail := registrSuccessful_runs_on (text "Registration complete. Login now.")
    (by decide) (by decide)
  have hbody : (ServerMsg.registrSuccessful (text "Registration complete. Login now.")).body =
      stringBytes (text "Registration complete. Login now.") := by
    simp [ServerMsg.body, ServerMsg.fields, encodeFields, Field.encode]
  rw [Understood, hbytes, hbody] at hread
  rw [show (ServerMsg.registrSuccessful _).type = .registrSuccessful from rfl, hfail] at hread
  cases hread

end VhIM.Client
