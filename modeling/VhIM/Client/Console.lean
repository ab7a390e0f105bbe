import VhIM.Client.Arrival
import VhIM.Client.Roster
import VhIM.Network.Reassembly
import VhIM.Server.Attribution
import VhIM.Utility.Format

/-! # The console

The callbacks of `client_ui_cons.c` as what they print, and the loop of
`client_ch_listen` that leads to them. What the server writes to a connection
appears on the client's screen message by message, as long as every message
fits into one read. -/
namespace VhIM.Client
open VhIM.Lib VhIM.Lib.Runs VhIM.Network VhIM.Sql VhIM.Utility VhIM.Server
open VhIM.Server.ServerState

/-! ## The callbacks -/

def cbWelcome (msg : List UInt8) : List UInt8 :=
  sprintf (text "[INFO]: Server welcomes you: %s\n") [.string msg]

def cbAuthFailed (msg : List UInt8) (res : Int32) : List UInt8 :=
  sprintf (text "[INFO]: %s\nError Code: %d\n") [.string msg, .int res]

def cbBroadcast (name msg : List UInt8) : List UInt8 :=
  sprintf (text "[%s]: %s\n") [.string name, .string msg]

def cbSystemMsg (msg : List UInt8) : List UInt8 := sprintf (text "[SERVER]: %s\n") [.string msg]

def cbRegistrSuccessful (msg : List UInt8) : List UInt8 := sprintf (text "%s\n") [.string msg]

def cbRegistrFailed (msg : List UInt8) : List UInt8 :=
  sprintf (text "[server]: %s\n") [.string msg]

def countLine (title : List UInt8) (n : Nat) : List UInt8 :=
  title ++ text ": " ++ text (toString n) ++ text "\n"

def infoLine (info : ServerUserInfo) : List UInt8 :=
  sprintf (text "    %s(%d)\n") [.string info.username, .int info.id]

/-- Print the size of a stack and pop what is on it, and an empty line. -/
def printStack (title : List UInt8) (stack : Vstack ServerUserInfo) : List UInt8 :=
  countLine title stack.getSize ++ stack.drain.flatMap infoLine ++ text "\n"

def cbWho (users : Vstack ServerUserInfo) : List UInt8 := printStack (text "Users online") users

def cbFriends (on off req : Vstack ServerUserInfo) : List UInt8 :=
  printStack (text "Friends online") on ++ printStack (text "Friends offline") off ++
    printStack (text "Pending friend requests") req

def cbRemoveFriend (uid : Int32) : List UInt8 := sprintf (text "Friend removed: %d\n") [.int uid]

def cbFriendOnline (uid : Int32) (name : List UInt8) : List UInt8 :=
  sprintf (text "Friend came online: %s(%d)\n") [.string name, .int uid]

def cbFriendOffline (uid : Int32) : List UInt8 :=
  sprintf (text "Friend with id %d went offline.\n") [.int uid]

/-! ## The table -/

inductive Handler where
  | cbWelcome
  | cbAuthFailed
  | cbBroadcast
  | cbSystemMsg
  | cbRegistrSuccessful
  | cbRegistrFailed
  | cbWho
  | cbFriends
  | cbRemoveFriend
  | cbFriendOnline
  | cbFriendOffline
  deriving DecidableEq

/-- The table as `cl_ui_cons_start` leaves it; the other entries are NULL. -/
def clUiConsStart : MsgType → Option Handler
  | .welcome => some .cbWelcome
  | .authFailed => some .cbAuthFailed
  | .broadcast => some .cbBroadcast
  | .systemMsg => some .cbSystemMsg
  | .registrSuccessful => some .cbRegistrSuccessful
  | .registrFailed => some .cbRegistrFailed
  | .who => some .cbWho
  | .friends => some .cbFriends
  | .removeFriend => some .cbRemoveFriend
  | .friendOnline => some .cbFriendOnline
  | .friendOffline => some .cbFriendOffline
  | _ => none

/-- The index under which `process_packet` looks a callback up. -/
def Callback.index : Callback → MsgType
  | welcome _ => .welcome
  | authFailed _ _ => .authFailed
  | broadcast _ _ => .broadcast
  | systemMsg _ => .systemMsg
  | registrSuccessful _ => .registrSuccessful
  | registrFailed _ => .registrFailed
  | who _ => .who
  | friends _ _ _ => .friends
  | removeFriend _ => .removeFriend
  | friendOnline _ _ => .friendOnline
  | friendOffline _ => .friendOffline

/-- A call with the arguments of a case. A function of another type cannot be
called with them. -/
def Handler.call : Handler → Callback → Option (List UInt8)
  | cbWelcome, .welcome msg => some (Client.cbWelcome msg)
  | cbAuthFailed, .authFailed msg res => some (Client.cbAuthFailed msg res)
  | cbBroadcast, .broadcast name msg => some (Client.cbBroadcast name msg)
  | cbSystemMsg, .systemMsg msg => some (Client.cbSystemMsg msg)
  | cbRegistrSuccessful, .registrSuccessful msg => some (Client.cbRegistrSuccessful msg)
  | cbRegistrFailed, .registrFailed msg => some (Client.cbRegistrFailed msg)
  | cbWho, .who users => some (Client.cbWho users)
  | cbFriends, .friends on off req => some (Client.cbFriends on off req)
  | cbRemoveFriend, .removeFriend uid => some (Client.cbRemoveFriend uid)
  | cbFriendOnline, .friendOnline uid name => some (Client.cbFriendOnline uid name)
  | cbFriendOffline, .friendOffline uid => some (Client.cbFriendOffline uid)
  | _, _ => none

def Callback.print (c : Callback) : Option (List UInt8) :=
  (clUiConsStart c.index).bind (·.call c)

/-! ## The loop -/

/-- `process_packet` as the callback of `bp_process_data`, over what is on the
screen so far. -/
def consoleCb (data printed : List UInt8) : Except Fault (List UInt8) :=
  (processPacket data).map fun r => printed ++ r.1.flatMap fun c => c.print.getD []

/-- The loop of `client_ch_listen`, over what its reads bring until one brings
nothing. -/
def listenLoop (junk : Nat → Nat → Nat → UInt8) (fuel : Nat) :
    List (List UInt8) → Nat → Int32 → List UInt8 → List UInt8 → Option (BpStep (List UInt8))
  | [], _, res, restBuffer, printed => some (.returned res restBuffer printed)
  | data :: reads, call, res, restBuffer, printed =>
    if res = 0 then some (.returned res restBuffer printed)
    else
      match bpProcessData consoleCb (junk call) data fuel 0 restBuffer printed with
      | some (.returned res restBuffer printed) =>
        listenLoop junk fuel reads (call + 1) res restBuffer printed
      | r => r

def clientChListen (junk : Nat → Nat → Nat → UInt8) (fuel : Nat) (reads : List (List UInt8)) :
    Option (BpStep (List UInt8)) :=
  listenLoop junk fuel reads 0 1 [] (text "start listening..\n")

/-- The reads that `SSL_read` makes of what the other side writes. It returns one
record at most, so a write of at most 1024 bytes is one read. -/
structure RecordReads (sslReads : List (List UInt8) → List (List UInt8)) : Prop where
  nil : sslReads [] = []
  cons : ∀ data writes, data ≠ [] → data.length ≤ 1024 →
    sslReads (data :: writes) = data :: sslReads writes

/-! ## What is shown -/

def infoSection (title : List UInt8) (infos : List ServerUserInfo) : List UInt8 :=
  countLine title infos.length ++ infos.flatMap infoLine ++ text "\n"

/-- What of a message appears on the screen. -/
def shown : ServerMsg → List UInt8
  | .welcome uname => cbWelcome uname
  | .authFailed msg res => cbAuthFailed msg res
  | .broadcast name msg => cbBroadcast name msg
  | .systemMsg msg => cbSystemMsg msg
  | .registrSuccessful msg => cbRegistrSuccessful msg
  | .registrFailed msg => cbRegistrFailed msg
  | .who users => infoSection (text "Users online") users.reverse
  | .friends on off req => infoSection (text "Friends online") on.reverse ++
      infoSection (text "Friends offline") off.reverse ++
      infoSection (text "Pending friend requests") req.reverse
  | .removeFriend uid => cbRemoveFriend uid
  | .friendOnline uid name => cbFriendOnline uid name
  | .friendOffline uid => cbFriendOffline uid

variable {lib : Externals} {env : Env} {s : ServerState} {e : Event} {c : Ssl}
  {user : ServerUser} {msg : ServerMsg} {junk : Nat → Nat → Nat → UInt8}

theorem printStack_stackOf (title : List UInt8) (infos : List ServerUserInfo) :
    printStack title (stackOf infos) = infoSection title infos.reverse := by
  have hheld := stackOf_holds infos
  rw [printStack, infoSection, hheld.getSize, Vstack.drain_holds hheld, List.length_reverse]

theorem print_callbackOf (msg : ServerMsg) : (callbackOf msg).print = some (shown msg) := by
  cases msg with
  | who users => exact congrArg some (printStack_stackOf _ users)
  | friends on off req =>
    rw [shown, ← printStack_stackOf, ← printStack_stackOf, ← printStack_stackOf]
    rfl
  | _ => rfl

/-- One message on the screen. -/
theorem consoleCb_packet (env : Env) (hnul : ∀ f ∈ msg.fields, f.NulFree)
    (hsize : 8 + msg.body.length < 2 ^ 31) (hmsg : msg.type ≠ .registrSuccessful)
    (printed : List UInt8) : consoleCb (packet env msg) printed = .ok (printed ++ shown msg) := by
  have hread := Datapacket.reads_packet (dispatch_consumes hmsg hnul (by omega))
  rw [consoleCb, packet, ServerMsg.finishedBytes_build env.fresh hsize, processPacket, hread]
  simp [Except.map, print_callbackOf]

theorem RecordReads.whole {sslReads : List (List UInt8) → List (List UInt8)}
    (h : RecordReads sslReads) {writes : List (List UInt8)}
    (hfit : ∀ data ∈ writes, data ≠ [] ∧ data.length ≤ 1024) : sslReads writes = writes := by
  induction writes with
  | nil => exact h.nil
  | cons data writes ih =>
    obtain ⟨hne, hle⟩ := hfit data List.mem_cons_self
    rw [h.cons data writes hne hle, ih fun d hd => hfit d (List.mem_cons_of_mem _ hd)]

/-- Messages that fit into a read each appear one after the other. -/
theorem listenLoop_packets {msgs : List (Env × ServerMsg)}
    (hnul : ∀ p ∈ msgs, ∀ f ∈ p.2.fields, f.NulFree)
    (hfit : ∀ p ∈ msgs, 8 + p.2.body.length ≤ 1024 ∧ p.2.type ≠ .registrSuccessful)
    (call : Nat) (printed : List UInt8) :
    listenLoop junk 1 (msgs.map fun p => packet p.1 p.2) call 1 [] printed =
      some (.returned 1 [] (printed ++ msgs.flatMap fun p => shown p.2)) := by
  induction msgs generalizing call printed with
  | nil => simp [listenLoop]
  | cons p msgs ih =>
    obtain ⟨hle, htype⟩ := hfit p List.mem_cons_self
    have hbytes := ServerMsg.finishedBytes_build p.1.fresh (m := p.2) (by omega)
    have hlen : (packet p.1 p.2).length = 8 + p.2.body.length := by
      rw [packet, hbytes, packetBytes_length]
    have hsize : (packet p.1 p.2).take 4 = bcFromInt (Int32.ofNat (packet p.1 p.2).length) := by
      rw [packet, hbytes]
      exact packetBytes_size _ _
    have hturn : bpTurn (junk call 0) [] (packet p.1 p.2) = .whole (packet p.1 p.2) :=
      bpTurn_packet _ (by omega) (by omega) hsize
    have hcb := consoleCb_packet p.1 (hnul p List.mem_cons_self) (by omega) htype printed
    rw [List.map_cons, listenLoop, if_neg (by decide)]
    simp only [bpProcessData, bpStep, hturn, hcb]
    rw [ih (fun q hq => hnul q (List.mem_cons_of_mem _ hq))
      (fun q hq => hfit q (List.mem_cons_of_mem _ hq)), List.flatMap_cons, List.append_assoc]

/-! ## The screen -/

/-- What was ever written to a connection are messages, and if the client can
read each of them at once and none is the reply to a successful registration,
then they stand on its screen one after the other, and nothing else does. -/
theorem screen_exact {sslReads : List (List UInt8) → List (List UInt8)}
    (hreads : RecordReads sslReads) {db : Database} {listener : Nat} {events : List Event}
    (hnames : NamesAreTexts db.users)
    (hrun : Run (ServerStep lib) (ServerState.start db listener) events s) (c : Ssl) :
    ∃ msgs : List (Env × ServerMsg), inbox c s.sent = msgs.map (fun p => packet p.1 p.2) ∧
      ((∀ p ∈ msgs, 8 + p.2.body.length ≤ 1024 ∧ p.2.type ≠ .registrSuccessful) →
        ∀ junk, ∃ fuel, clientChListen junk fuel (sslReads (inbox c s.sent)) =
          some (.returned 1 []
            (text "start listening..\n" ++ msgs.flatMap fun p => shown p.2))) := by
  have hmsg : ∀ data ∈ inbox c s.sent, ∃ p : Env × ServerMsg,
      (∀ f ∈ p.2.fields, f.NulFree) ∧ data = packet p.1 p.2 := by
    intro data hdata
    obtain ⟨pre, e, _, m, _, hpre, env, msg, hcause, hdata⟩ :=
      sent_caused hrun (mem_inbox.mp hdata)
    refine ⟨(env, msg), nulFree_of_cause ?_ ?_ hcause, hdata⟩
    · exact hpre.invariant audible_step (audible_start db listener)
    · exact hpre.invariant (I := fun s => NamesAreTexts s.db.users)
        (fun _ _ _ => namesAreTexts_step) hnames
  obtain ⟨msgs, hinbox, hnul⟩ := exists_map_eq hmsg
  refine ⟨msgs, hinbox, fun hfit junk => ⟨1, ?_⟩⟩
  have hwhole : sslReads (inbox c s.sent) = inbox c s.sent := by
    refine hreads.whole fun data hdata => ?_
    rw [hinbox] at hdata
    obtain ⟨p, hp, rfl⟩ := List.mem_map.mp hdata
    have hlen : (packet p.1 p.2).length = 8 + p.2.body.length := by
      rw [packet, ServerMsg.finishedBytes_build _ (by have := (hfit p hp).1; omega),
        packetBytes_length]
    exact ⟨List.ne_nil_of_length_pos (by omega), by rw [hlen]; exact (hfit p hp).1⟩
  rw [hwhole, hinbox]
  exact listenLoop_packets hnul hfit 0 _

theorem screen_exact_two : ∃ msgs : List (Env × ServerMsg),
    inbox ⟨1, 4⟩ twoUsers.sent = msgs.map (fun p => packet p.1 p.2) ∧
    ((∀ p ∈ msgs, 8 + p.2.body.length ≤ 1024 ∧ p.2.type ≠ .registrSuccessful) →
      ∀ junk, ∃ fuel, clientChListen junk fuel (inbox ⟨1, 4⟩ twoUsers.sent) =
        some (.returned 1 [] (text "start listening..\n" ++ msgs.flatMap fun p => shown p.2))) :=
  @screen_exact _ _ (fun writes => writes) ⟨rfl, fun _ _ _ _ => rfl⟩ _ _ _
    (show NamesAreTexts (sampleDb 8).users by decide) run_twoUsers ⟨1, 4⟩

/-! ## Who is online, on the screen -/

theorem infoLine_eq (u : ServerUser) :
    infoLine ⟨u.id, u.username⟩ = text "    " ++ label u ++ text "\n" := by
  have hfmt : text "    %s(%d)\n" = [32, 32, 32, 32, 37, 115, 40, 37, 100, 41, 10] := by
    decide +kernel
  have hparts : text "    " = [32, 32, 32, 32] ∧ text "(" = [40] ∧ text ")" = [41] ∧
      text "\n" = [10] := by decide +kernel
  simp [infoLine, label, hfmt, hparts, sprintf, percent, Arg.print]

/-- Whoever asks gets on his screen how many are online, and then everybody who
is, once, the highest id first. -/
theorem who_on_screen {db : Database} {listener : Nat} {events : List Event}
    (hname : ∀ a b, lib.nameEq a b = decide (a = b))
    (hrun : Run (ServerStep lib) (ServerState.start db listener) events s)
    (huser : user ∈ s.users) (hc : c ∈ user.connections) (env : Env)
    (hsize : 8 + (ServerMsg.who s.userInfos).body.length < 2 ^ 31) :
    ∃ (data : List UInt8) (us : List ServerUser),
      inbox c (s.who env user).sent = inbox c s.sent ++ [data] ∧
      (∀ u, u ∈ us ↔ u ∈ s.users) ∧ us.Pairwise (fun u v => v.id < u.id) ∧
      ∀ printed, consoleCb data printed = .ok (printed ++
        (countLine (text "Users online") us.length ++
          us.flatMap (fun u => text "    " ++ label u ++ text "\n") ++ text "\n")) := by
  have hsessions : Sessions s := hrun.invariant (sessions_step hname) (sessions_start db listener)
  have haudible : Audible s := hrun.invariant audible_step (audible_start db listener)
  refine ⟨packet env (.who s.userInfos), s.users.elems.reverse, ?_, ?_, ?_, fun printed => ?_⟩
  · rw [ServerState.who, send, inbox_append, inbox_sendToUser hsessions.routable huser, if_pos hc]
  · exact fun u => List.mem_reverse
  · rw [List.pairwise_reverse]
    exact s.users.sorted.imp fun h => Int32.lt_iff_toInt_lt.mpr h
  · have hnul : ∀ f ∈ (ServerMsg.who s.userInfos).fields, f.NulFree := by
      refine nulFree_infoFields fun i hi => ?_
      obtain ⟨u, hu, rfl⟩ := List.mem_map.mp hi
      exact (haudible u hu).1
    rw [consoleCb_packet env hnul hsize (show MsgType.who ≠ .registrSuccessful by decide)]
    have hlines : s.userInfos.reverse.flatMap infoLine =
        s.users.elems.reverse.flatMap fun u => text "    " ++ label u ++ text "\n" := by
      rw [userInfos, ← List.map_reverse, List.flatMap_map]
      exact List.flatMap_congr fun u _ => infoLine_eq u
    rw [shown, infoSection, hlines, List.length_reverse, List.length_reverse, userInfos,
      List.length_map]

theorem who_on_screen_two : ∃ (data : List UInt8) (us : List ServerUser),
    inbox ⟨1, 4⟩ (twoUsers.who sampleEnv ⟨1, 1, [⟨1, 4⟩], [97], 8⟩).sent =
      inbox ⟨1, 4⟩ twoUsers.sent ++ [data] ∧
    (∀ u, u ∈ us ↔ u ∈ twoUsers.users) ∧ us.Pairwise (fun u v => v.id < u.id) ∧
    ∀ printed, consoleCb data printed = .ok (printed ++
      (countLine (text "Users online") us.length ++
        us.flatMap (fun u => text "    " ++ label u ++ text "\n") ++ text "\n")) :=
  who_on_screen (fun _ _ => rfl) run_twoUsers List.mem_cons_self (List.mem_singleton_self _)
    sampleEnv (by decide)

/-! ## The report on the screen -/

theorem paired_friendIds {db : Database} (h : db.Paired) (uid : Int32) :
    (friendIds db uid).Nodup ∧ (requesterIds db uid).Nodup := by
  obtain ⟨hfriends, hrequests⟩ := h.nodup
  constructor
  · refine List.Nodup.map_on ?_ (hfriends.filter _)
    rintro ⟨a, b⟩ ha ⟨a', b'⟩ ha' hb
    have hleft := (List.mem_filter.mp ha).2
    have hleft' := (List.mem_filter.mp ha').2
    simp_all
  · refine List.Nodup.map_on ?_ (hrequests.filter _)
    rintro ⟨a, b⟩ ha ⟨a', b'⟩ ha' hb
    have hright := (List.mem_filter.mp ha).2
    have hright' := (List.mem_filter.mp ha').2
    simp_all

/-- A list without repetition of those who meet `p`. -/
def ListsExactly (l : List ServerUserInfo) (p : ServerUserInfo → Prop) : Prop :=
  l.Nodup ∧ ∀ info, info ∈ l ↔ p info

theorem printStack_exact {stack : Vstack ServerUserInfo} {p : ServerUserInfo → Prop}
    (h : HoldsExactly stack p) (title : List UInt8) :
    ∃ l, ListsExactly l p ∧ printStack title stack = infoSection title l := by
  obtain ⟨l, hl, hnodup, hmem⟩ := h
  refine ⟨l.reverse, ⟨List.nodup_reverse.mpr hnodup, fun info => ?_⟩, ?_⟩
  · rw [List.mem_reverse, hmem]
  · rw [printStack, infoSection, hl.getSize, Vstack.drain_holds hl, List.length_reverse]

/-- Whoever asks for his friends gets them on his screen, each once: who is
online, who is not, and who has asked him and waits. -/
theorem friends_on_screen {db : Database} {listener : Nat} {events : List Event}
    (hname : ∀ a b, lib.nameEq a b = decide (a = b)) (hnames : NamesAreTexts db.users)
    (hpaired : db.Paired)
    (hrun : Run (guarded (ServerStep lib) fun e _ => QueriesSucceed e)
      (ServerState.start db listener) events s)
    (huser : user ∈ s.users) (hc : c ∈ user.connections) (env : Env)
    (hok : ∀ call step, env.sqlOk call step = true)
    (hsize : 8 + (s.setFriendsOnline env user.id).body.length < 2 ^ 31) :
    ∃ (data : List UInt8) (on off req : List ServerUserInfo),
      inbox c (s.friends env user).sent = inbox c s.sent ++ [data] ∧
      ListsExactly on (fun info => (user.id, info.id) ∈ s.db.friends ∧ IsAccount s.db info ∧
        ∃ u ∈ s.users, u.id = info.id) ∧
      ListsExactly off (fun info => (user.id, info.id) ∈ s.db.friends ∧ IsAccount s.db info ∧
        ¬ ∃ u ∈ s.users, u.id = info.id) ∧
      ListsExactly req (fun info => (info.id, user.id) ∈ s.db.friendRequests ∧
        IsAccount s.db info) ∧
      ∀ printed, consoleCb data printed = .ok (printed ++
        (infoSection (text "Friends online") on ++ infoSection (text "Friends offline") off ++
          infoSection (text "Pending friend requests") req)) := by
  have hsessions : Sessions s :=
    hrun.of_guarded.invariant (sessions_step hname) (sessions_start db listener)
  have htexts : NamesAreTexts s.db.users :=
    hrun.of_guarded.invariant (I := fun s => NamesAreTexts s.db.users)
      (fun _ _ _ => namesAreTexts_step) hnames
  have hpd : s.db.Paired := hrun.invariant (I := fun s => s.db.Paired) paired_step hpaired
  obtain ⟨hfriends, hrequests⟩ := paired_friendIds hpd user.id
  have hexact := reportExact_of_lists hfriends hrequests
  obtain ⟨on, hon, honline⟩ := printStack_exact hexact.online (text "Friends online")
  obtain ⟨off, hoff, hoffline⟩ := printStack_exact hexact.offline (text "Friends offline")
  obtain ⟨req, hreq, hpending⟩ := printStack_exact hexact.requests
    (text "Pending friend requests")
  refine ⟨packet env (s.setFriendsOnline env user.id), on, off, req, ?_, hon, hoff, hreq,
    fun printed => ?_⟩
  · rw [ServerState.friends, send, inbox_append, inbox_sendToUser hsessions.routable huser,
      if_pos hc]
  · rw [consoleCb_packet env (nulFree_setFriendsOnline htexts user.id) hsize
      (show MsgType.friends ≠ .registrSuccessful by decide),
      setFriendsOnline_eq (hok .getFriends) (hok .getFriendRequests), shown, ← honline, ← hoffline,
      ← hpending, printStack_stackOf, printStack_stackOf, printStack_stackOf]

theorem friends_on_screen_first : ∃ (data : List UInt8) (on off req : List ServerUserInfo),
    inbox ⟨1, 4⟩ (firstOnline.friends sampleEnv ⟨1, 1, [⟨1, 4⟩], [97], 0⟩).sent =
      inbox ⟨1, 4⟩ firstOnline.sent ++ [data] ∧
    (∀ info, info ∈ off ↔ (1, info.id) ∈ befriendedDb.friends ∧ IsAccount befriendedDb info ∧
      ¬ ∃ u ∈ firstOnline.users, u.id = info.id) ∧
    ∀ printed, consoleCb data printed = .ok (printed ++
      (infoSection (text "Friends online") on ++ infoSection (text "Friends offline") off ++
        infoSection (text "Pending friend requests") req)) := by
  have hnames : NamesAreTexts befriendedDb.users :=
    show NamesAreTexts (sampleDb 0).users by decide
  have hstrangers : (sampleDb 0).Paired := .empty rfl rfl
  have hpaired : befriendedDb.Paired := (hstrangers.addFriend 1 2).addFriend 2 1
  have hsize : 8 + (firstOnline.setFriendsOnline sampleEnv 1).body.length < 2 ^ 31 := by
    decide +kernel
  obtain ⟨data, on, off, req, hsent, _, hoff, _, hshown⟩ := friends_on_screen (fun _ _ => rfl)
    hnames hpaired run_firstOnline List.mem_cons_self (List.mem_singleton_self _) sampleEnv
    (fun _ _ => rfl) hsize
  exact ⟨data, on, off, req, hsent, hoff.2, hshown⟩

end VhIM.Client
