import VhIM.Client.Agreement
import VhIM.Client.Numbers
import VhIM.Server.Accounts
import VhIM.Server.Delivery
import VhIM.Server.Requests
import VhIM.Utility.Decimal

/-! # Texts that arrive

From the line that is typed to the callback of whoever gets it: the line is
read, taken apart, sent, read by the server, labelled, sent on and read again.
A line that is said goes through whole; of a whisper the parser takes one word. -/
namespace VhIM.Client
open VhIM.Lib VhIM.Lib.Runs VhIM.Lib.Words VhIM.Network VhIM.Sql VhIM.Utility VhIM.Server
open VhIM.Server.ServerState

/-! ## From end to end -/

/-- What `cb_broadcast` gets as the text of a packet. -/
def heard (data : List UInt8) : Option (List UInt8) :=
  match processPacket data with
  | .ok ([.broadcast _ msg], _) => some msg
  | _ => none

/-- What is sent of an action, while there is a connection. -/
def Action.asked : Action → Option Request
  | .request r => some r
  | .say msg => some (.broadcast msg)
  | _ => none

def requestOf (portDefault : Int32) (line : List UInt8) : Option Request :=
  (processInput portDefault line).bind Action.asked

/-- The line leads to a packet, for which the server sends packets to exactly
the connections of `audience`; from each of them `txt` is heard. -/
def Delivers (fresh : Nat → UInt8) (portDefault : Int32) (lib : Externals) (env : Env)
    (s : ServerState) (sc : ServerClient) (line : List UInt8) (audience : Ssl → Prop)
    (txt : List UInt8) : Prop :=
  ∃ r out, requestOf portDefault line = some r ∧
    s.cbMsgRcv lib env sc.ssl.fd (r.send fresh) = .ok (s.send out) ∧
    (∀ c data, (c, data) ∈ out → heard data = some txt) ∧
    ∀ c, audience c ↔ ∃ data, (c, data) ∈ out

/-- `/w`, the id of `tuser`, who is online, and a text, with one space before
each. -/
structure WhisperLine (s : ServerState) (line : List UInt8) (tuser : ServerUser)
    (txt : List UInt8) : Prop where
  online : tuser ∈ s.users
  typed : ∃ word, word ≠ [] ∧ isDecimalNumber word = true ∧
    (denotes word : Int) = tuser.id.toInt ∧ line = text "/w " ++ word ++ 32 :: txt
  nonempty : txt ≠ []

/-- What a client types arrives; an empty line is not sent. -/
structure ArrivesAsTyped (fresh : Nat → UInt8) (portDefault : Int32) (lib : Externals) (env : Env)
    (s : ServerState) (sc : ServerClient) (line : List UInt8) : Prop where
  plain : line ≠ [] → line.head? ≠ some 47 →
    Delivers fresh portDefault lib env s sc line
      (fun c => Connected s c ∧ c.fd ≠ sc.ssl.fd) line
  whisper : ∀ tuser txt, WhisperLine s line tuser txt →
    Delivers fresh portDefault lib env s sc line (· ∈ tuser.connections) txt

variable {lib : Externals} {env : Env} {s : ServerState} {sc : ServerClient}
  {user tuser : ServerUser} {fresh : Nat → UInt8} {portDefault : Int32}
  {line txt word : List UInt8}

/-! ## The server's packets -/

theorem nulFree_label (h : 0 ∉ user.username) : 0 ∉ label user := by
  have hparens : 0 ∉ text "(" ∧ 0 ∉ text ")" := by decide +kernel
  have hdecimal : 0 ∉ decimal user.id := fun h0 =>
    absurd (decimal_numeral user.id 0 h0) (by decide)
  simp only [label, List.mem_append, not_or]
  exact ⟨⟨⟨h, hparens.1⟩, hdecimal⟩, hparens.2⟩

theorem broadcast_body_length (name msg : List UInt8) :
    (ServerMsg.broadcast name msg).body.length = name.length + msg.length + 10 := by
  simp only [ServerMsg.body, ServerMsg.fields, encodeFields, List.flatMap_cons, List.flatMap_nil,
    Field.encode, List.length_append, stringBytes_length, List.length_nil]
  omega

/-- The text in the packet is the one that is heard. -/
theorem heard_packet (env : Env) {name msg : List UInt8} (hname : 0 ∉ name) (hmsg : 0 ∉ msg)
    (hsize : 8 + (ServerMsg.broadcast name msg).body.length < 2 ^ 31) :
    heard (packet env (.broadcast name msg)) = some msg := by
  have hnul : ∀ f ∈ (ServerMsg.broadcast name msg).fields, f.NulFree := by
    simp only [ServerMsg.fields, List.mem_cons, List.not_mem_nil, or_false, forall_eq_or_imp,
      forall_eq]
    exact ⟨hname, hmsg⟩
  have htype : (ServerMsg.broadcast name msg).type ≠ .registrSuccessful :=
    show MsgType.broadcast ≠ .registrSuccessful by decide
  have hread := Datapacket.reads_packet (dispatch_consumes htype hnul (by omega))
  rw [packet, ServerMsg.finishedBytes_build env.fresh hsize]
  simp only [heard, processPacket]
  rw [hread]
  rfl

/-! ## The client's requests -/

theorem requestOf_plain (hnul : 0 ∉ line) (hne : line ≠ []) (hslash : line.head? ≠ some 47) :
    requestOf portDefault line = some (.broadcast line) := by
  cases line with
  | nil => exact absurd rfl hne
  | cons b line =>
    have hb : b ≠ 47 := fun he => hslash (congrArg some he)
    simp only [requestOf, processInput, if_neg hb, upToNul_eq hnul]
    rfl

/-- Of a line of words, the call that they stand for is executed. -/
theorem requestOf_slash (hnul : 0 ∉ line) (hlen : line.length < 2 ^ 31) :
    requestOf portDefault (47 :: line) =
      (((processWords (words space line)).calls.head?.bind
        (executeCommand portDefault)).map Prod.fst).bind Action.asked := by
  have hcut : upToNul (47 :: line) = 47 :: line :=
    upToNul_eq (List.mem_cons.not.mpr (not_or.mpr ⟨by decide, hnul⟩))
  simp only [requestOf, processInput, if_true, hcut, processCommand_words hlen]
  generalize processWords (words space line) = p
  obtain ⟨calls, ret⟩ := p
  cases calls with
  | nil => rfl
  | cons call calls =>
    show (executeCommand portDefault call >>= fun p => pure p.1).bind Action.asked = _
    rw [List.head?_cons, Option.bind_some]
    cases executeCommand portDefault call <;> rfl

theorem digits_no_space (h : isDecimalNumber word = true) : space ∉ word := by
  intro hmem
  have hspace := List.all_eq_true.mp h space hmem
  revert hspace
  decide

/-- The words of a whisper: those of its text come third and after. -/
theorem words_whisper (hne : word ≠ []) (hdigits : isDecimalNumber word = true) :
    words space (text "w " ++ word ++ 32 :: txt) = text "w" :: word :: words space txt := by
  have hw : text "w " ++ word ++ 32 :: txt = text "w" ++ space :: (word ++ space :: txt) := by
    simp only [List.append_assoc]
    rfl
  rw [hw, words_run (by decide +kernel) (by decide +kernel) (by simp), words_cons_sep,
    words_run hne (digits_no_space hdigits) (by simp), words_cons_sep]

/-- Of the text of a whisper the first word is asked for, and without one
nothing is. -/
theorem requestOf_whisper (hnul : 0 ∉ text "w " ++ word ++ 32 :: txt)
    (hlen : (text "w " ++ word ++ 32 :: txt).length < 2 ^ 31) (hne : word ≠ [])
    (hdigits : isDecimalNumber word = true) :
    requestOf portDefault (47 :: (text "w " ++ word ++ 32 :: txt)) =
      (words space txt).head?.map (Request.whisper (atoi word)) := by
  rw [requestOf_slash hnul hlen, words_whisper hne hdigits]
  cases words space txt with
  | nil => rfl
  | cons w ws =>
    have hnumbers : ∀ b ∈ (NumericCall.whisper word w).numbers, isDecimalNumber b := by
      simpa [NumericCall.numbers] using hdigits
    obtain ⟨_, hexec⟩ := (executeCommand_numeric portDefault (.whisper word w)).resolve_right
      fun h => h.1 hnumbers
    have hcall : (processWords (text "w" :: word :: w :: ws)).calls.head? =
        some (NumericCall.whisper word w).call := rfl
    rw [hcall, Option.bind_some, hexec]
    rfl

theorem WhisperLine.within_line (h : WhisperLine s line tuser txt) : txt <:+: line := by
  obtain ⟨word, _, _, _, rfl⟩ := h.typed
  exact ((List.suffix_cons 32 txt).trans (List.suffix_append _ _)).isInfix

/-- The id in a whisper is read as the target's. -/
theorem WhisperLine.request (h : WhisperLine s line tuser txt) (hnul : 0 ∉ line)
    (hlen : line.length < 2 ^ 31) (portDefault : Int32) :
    ∃ uid, s.getUserById uid = some tuser ∧
      requestOf portDefault line = (words space txt).head?.map (Request.whisper uid) := by
  obtain ⟨word, hne, hdigits, hid, rfl⟩ := h.typed
  have hlt : denotes word < 2 ^ 31 := by
    have := tuser.id.toInt_lt
    omega
  have hslash : text "/w " ++ word ++ 32 :: txt = 47 :: (text "w " ++ word ++ 32 :: txt) := by
    rw [show text "/w " = 47 :: text "w " by decide +kernel]
    rfl
  rw [hslash] at hnul hlen ⊢
  rw [List.length_cons] at hlen
  refine ⟨atoi word, getUserById_eq_some.mpr ⟨h.online, Int32.toInt_inj.mp ?_⟩, ?_⟩
  · rw [(atoi_toInt word).mpr hlt, hid]
  · exact requestOf_whisper (fun h0 => hnul (List.mem_cons_of_mem _ h0)) (by omega) hne hdigits

/-! ## A line typed -/

/-- The line has been typed at a client that is logged in as `user`, and its
packets have sizes. -/
structure Typed (s : ServerState) (sc : ServerClient) (user : ServerUser) (line : List UInt8) :
    Prop where
  client : sc ∈ s.clients
  loggedIn : s.userOf sc = some user
  named : 0 ∉ user.username
  nulFree : 0 ∉ line
  length : line.length ≤ 1024
  sized : 8 + (ServerMsg.broadcast (label user) line).body.length < 2 ^ 31

namespace Typed

/-- Any part of the line is heard as it is. -/
theorem heard_part (h : Typed s sc user line) (env : Env) {w : List UInt8} (hw : w <:+: line) :
    heard (packet env (.broadcast (label user) w)) = some w := by
  have hle := hw.length_le
  have hsize := h.sized
  rw [broadcast_body_length] at hsize
  refine heard_packet env (nulFree_label h.named) (fun h0 => h.nulFree (hw.subset h0)) ?_
  rw [broadcast_body_length]
  omega

theorem broadcast (h : Typed s sc user line) :
    s.cbMsgRcv lib env sc.ssl.fd ((Request.broadcast line).send fresh) =
      .ok (s.send (s.sendToAll env sc.ssl (.broadcast (label user) line))) := by
  have hlen := h.length
  have hbody : (Request.broadcast line).body.length = line.length + 5 := by
    simp [Request.body, Request.fields, encodeFields, Field.encode, stringBytes_length]
  have hnul : ∀ f ∈ (Request.broadcast line).fields, f.NulFree := by
    intro f hf
    obtain rfl := List.mem_singleton.mp hf
    exact h.nulFree
  rw [cbMsgRcv_of_request fresh h.client h.loggedIn hnul (by omega) (by simp [Request.type])
    (by simp [Request.type])]
  rfl

theorem whisper (h : Typed s sc user line) {w : List UInt8} (hw : w <:+: line) {uid : Int32}
    (htuser : s.getUserById uid = some tuser) :
    s.cbMsgRcv lib env sc.ssl.fd ((Request.whisper uid w).send fresh) =
      .ok (s.send (sendToUser env (some tuser) (.broadcast (label user) w))) := by
  have hlen := h.length
  have hle := hw.length_le
  have hbody : (Request.whisper uid w).body.length = w.length + 9 := by
    simp [Request.body, Request.fields, encodeFields, Field.encode, stringBytes_length]
    omega
  have hnul : ∀ f ∈ (Request.whisper uid w).fields, f.NulFree := by
    intro f hf
    rcases List.mem_pair.mp hf with rfl | rfl
    · trivial
    · exact fun h0 => h.nulFree (hw.subset h0)
  have hreceived : received s sc (.whisper uid w) = .whisper uid (some w) := by
    simp [received, htuser]
  rw [cbMsgRcv_of_request fresh h.client h.loggedIn hnul (by omega) (by simp [Request.type])
    (by simp [Request.type]), hreceived]
  unfold serveAuth
  simp only [htuser]
  rfl

/-- What is said arrives whole. -/
theorem delivers_plain (h : Typed s sc user line) (hne : line ≠ [])
    (hslash : line.head? ≠ some 47) :
    Delivers fresh portDefault lib env s sc line (fun c => Connected s c ∧ c.fd ≠ sc.ssl.fd)
      line := by
  refine ⟨_, _, requestOf_plain h.nulFree hne hslash, h.broadcast, ?_, ?_⟩
  · intro c data hmem
    obtain ⟨_, rfl⟩ := mem_sendToAll.mp hmem
    exact h.heard_part env (List.infix_refl line)
  · intro c
    simp only [mem_sendToAll, exists_and_left, exists_eq, and_true]

/-- A whisper arrives whole exactly if its text is one word. -/
theorem delivers_whisper_iff (h : Typed s sc user line) (haudible : Audible s)
    (hw : WhisperLine s line tuser txt) :
    Delivers fresh portDefault lib env s sc line (· ∈ tuser.connections) txt ↔ space ∉ txt := by
  have hlen := h.length
  have hinfix := hw.within_line
  obtain ⟨uid, hfound, hrequest⟩ := hw.request h.nulFree (by omega) portDefault
  constructor
  · rintro ⟨r, out, hr, hsent, hheard, _⟩
    rw [hrequest] at hr
    obtain ⟨w, hword, rfl⟩ := Option.map_eq_some_iff.mp hr
    have hpart := (head_words_within hword).trans hinfix
    -- what the server sends on is the word
    rw [h.whisper hpart hfound] at hsent
    have hout := List.append_cancel_left (congrArg ServerState.sent (Except.ok.inj hsent))
    obtain ⟨c, hc⟩ := List.exists_mem_of_ne_nil _ (haudible tuser hw.online).2
    have hheardWord := hheard c _ (hout ▸ mem_sendToUser.mpr ⟨hc, rfl⟩)
    rw [h.heard_part env hpart] at hheardWord
    rw [Option.some.inj hheardWord] at hword
    exact sep_not_mem_head_words hword
  · intro hspace
    rw [(head_words_eq_self hw.nonempty).mpr hspace] at hrequest
    refine ⟨_, _, hrequest, h.whisper hinfix hfound, ?_, ?_⟩
    · intro c data hmem
      obtain ⟨_, rfl⟩ := mem_sendToUser.mp hmem
      exact h.heard_part env hinfix
    · intro c
      simp only [mem_sendToUser, exists_and_left, exists_eq, and_true]

end Typed

/-- In every state that events lead to, what a client types that is logged in
arrives as typed exactly if it is no whisper with a space in its text. -/
theorem arrives_as_typed_iff {db : Database} {listener : Nat} {events : List Event}
    (hrun : Run (ServerStep lib) (ServerState.start db listener) events s)
    (fresh : Nat → UInt8) (portDefault : Int32) (env : Env) (hsc : sc ∈ s.clients)
    (hu : s.userOf sc = some user) (typed : List UInt8) (hnul : 0 ∉ readLine 1024 typed)
    (hsize : 8 + (ServerMsg.broadcast (label user) (readLine 1024 typed)).body.length < 2 ^ 31) :
    ArrivesAsTyped fresh portDefault lib env s sc (readLine 1024 typed) ↔
      ∀ tuser txt, WhisperLine s (readLine 1024 typed) tuser txt → space ∉ txt := by
  have haudible : Audible s := hrun.invariant audible_step (audible_start db listener)
  have htyped : Typed s sc user (readLine 1024 typed) :=
    ⟨hsc, hu, (haudible user (userOf_eq_some.mp hu).2.1).1, hnul, readLine_length 1024 typed, hsize⟩
  constructor
  · intro h tuser txt hw
    exact (htyped.delivers_whisper_iff haudible hw).mp (h.whisper tuser txt hw)
  · intro h
    refine ⟨htyped.delivers_plain, fun tuser txt hw => ?_⟩
    exact (htyped.delivers_whisper_iff haudible hw).mpr (h tuser txt hw)

/-- What is said to all may have spaces; a whisper of one word goes to the
second user. -/
theorem arrives_as_typed_hello :
    ArrivesAsTyped (fun _ => 7) 0 sampleExt sampleEnv twoUsers ⟨1, ⟨1, 4⟩⟩
        (readLine 1024 (text " hello you" ++ [newline])) ∧
      WhisperLine twoUsers (readLine 1024 (text "/w 2 hello" ++ [newline]))
        ⟨2, 1, [⟨2, 5⟩], [98], 0⟩ (text "hello") ∧
      ArrivesAsTyped (fun _ => 7) 0 sampleExt sampleEnv twoUsers ⟨1, ⟨1, 4⟩⟩
        (readLine 1024 (text "/w 2 hello" ++ [newline])) := by
  have hplain : readLine 1024 (text " hello you" ++ [newline]) = text "hello you" := by
    decide +kernel
  have hwhisper : readLine 1024 (text "/w 2 hello" ++ [newline]) = text "/w 2 hello" := by
    decide +kernel
  have hline : WhisperLine twoUsers (text "/w 2 hello") ⟨2, 1, [⟨2, 5⟩], [98], 0⟩
      (text "hello") :=
    ⟨.tail _ (.head _), ⟨text "2", by decide +kernel, by decide +kernel, by decide +kernel,
      by decide +kernel⟩, by decide +kernel⟩
  refine ⟨(arrives_as_typed_iff run_twoUsers (fun _ => 7) 0 sampleEnv (.head _) rfl
    (text " hello you" ++ [newline]) (by decide +kernel) (by decide +kernel)).mpr ?_,
    hwhisper ▸ hline, (arrives_as_typed_iff run_twoUsers (fun _ => 7) 0 sampleEnv (.head _) rfl
    (text "/w 2 hello" ++ [newline]) (by decide +kernel) (by decide +kernel)).mpr ?_⟩
  · rintro tuser txt ⟨_, ⟨word, _, _, _, htyped⟩, _⟩
    rw [hplain, show text "/w " = 47 :: text "w " by decide +kernel,
      show text "hello you" = 104 :: text "ello you" by decide +kernel] at htyped
    cases htyped
  · rintro tuser txt ⟨_, ⟨word, _, _, _, htyped⟩, _⟩ hspace
    -- the line has two spaces, before the id and before the text
    have hcount := congrArg (List.count 32) htyped
    rw [hwhisper, show (text "/w 2 hello").count 32 = 2 by decide +kernel, List.count_append,
      List.count_append, show (text "/w ").count 32 = 1 by decide +kernel,
      List.count_cons_self] at hcount
    have hpos : 0 < txt.count 32 := List.count_pos_iff.mpr hspace
    omega

/-- Of two words whispered the first arrives. -/
theorem whisper_cut_at_space :
    (∃ events, Run (ServerStep sampleExt) (ServerState.start (sampleDb 8) 3) events twoUsers) ∧
    twoUsers.userOf ⟨1, ⟨1, 4⟩⟩ = some ⟨1, 1, [⟨1, 4⟩], [97], 8⟩ ∧
    readLine 1024 (text "/w 2 hi you" ++ [newline]) = text "/w 2 hi you" ∧
    WhisperLine twoUsers (text "/w 2 hi you") ⟨2, 1, [⟨2, 5⟩], [98], 0⟩ (text "hi you") ∧
    requestOf 0 (text "/w 2 hi you") = some (.whisper 2 (text "hi")) ∧
    ¬ ArrivesAsTyped (fun _ => 7) 0 sampleExt sampleEnv twoUsers ⟨1, ⟨1, 4⟩⟩
      (text "/w 2 hi you") := by
  have hwhisper : WhisperLine twoUsers (text "/w 2 hi you") ⟨2, 1, [⟨2, 5⟩], [98], 0⟩
      (text "hi you") :=
    ⟨.tail _ (.head _), ⟨text "2", by decide +kernel, by decide +kernel, by decide +kernel,
      by decide +kernel⟩, by decide +kernel⟩
  have haudible : Audible twoUsers := run_twoUsers.invariant audible_step (audible_start _ _)
  have htyped : Typed twoUsers ⟨1, ⟨1, 4⟩⟩ ⟨1, 1, [⟨1, 4⟩], [97], 8⟩ (text "/w 2 hi you") :=
    ⟨.head _, rfl, by decide, by decide +kernel, by decide +kernel, by decide +kernel⟩
  refine ⟨⟨_, run_twoUsers⟩, rfl, by decide +kernel, hwhisper, by decide +kernel, ?_⟩
  intro harrives
  have hspace := (htyped.delivers_whisper_iff haudible hwhisper).mp (harrives.whisper _ _ hwhisper)
  exact hspace (by decide +kernel)

end VhIM.Client
