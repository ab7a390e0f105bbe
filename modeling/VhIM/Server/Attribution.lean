import VhIM.Client.Arrival
import VhIM.Client.FriendsReport
import VhIM.Server.Emissions

/-! # Nobody speaks for somebody else

What is said under somebody's name was sent by him, over a connection on which
he was logged in, and the name says who he is. And what is written are texts,
so that it can be read. -/
namespace VhIM.Server
open VhIM.Lib VhIM.Lib.Runs VhIM.Network VhIM.Sql VhIM.Utility
open VhIM.Client
open ServerState

variable {lib : Externals} {env : Env} {s t : ServerState} {e : Event} {user : ServerUser}
  {msg : ServerMsg}

/-! ## Texts without NUL -/

def NamesAreTexts (us : Users) : Prop := ∀ row ∈ us.rows, 0 ∉ row.user

instance decidableNamesAreTexts (us : Users) : Decidable (NamesAreTexts us) :=
  inferInstanceAs (Decidable (∀ row ∈ us.rows, _))

theorem namesAreTexts_step (h : NamesAreTexts s.db.users) (hstep : ServerStep lib e s t) :
    NamesAreTexts t.db.users := by
  have hdb := stored_of_step hstep
  generalize t.db = db at hdb ⊢
  cases hdb with
  | kept => exact h
  | granted v p =>
    simp only [sqlChUpdatePrivileges]
    split_ifs
    · exact h
    · exact h
    · intro row hrow
      rcases Users.mem_setPrivilege.mp hrow with ⟨hrow, _⟩ | ⟨row', hrow', _, rfl⟩
      · exact h row hrow
      · exact h row' hrow'
  | addedFriend uid _ => rw [addFriend_accounts]; exact h
  | removedFriend user uid => rw [removeFriend_accounts]; exact h
  | createdGroup name _ => rw [sqlChCreateGroup_users]; exact h
  | @registered _ env _ uname upw hnul =>
    obtain hsame | ⟨users, _, hins, hadd⟩ :=
      sqlChAddUser_cases (env.sqlOk .addUser) lib env.saltBytes s.db uname upw
    · rw [hsame]; exact h
    · rw [hadd]
      intro row hrow
      rw [Users.insert_rows hins, List.mem_append, List.mem_singleton] at hrow
      rcases hrow with hrow | rfl
      · exact h row hrow
      · exact hnul

theorem fetchRows_subset {α : Type} (ok : SqlStep → Bool) (k : Nat) (rows : List α) :
    fetchRows ok k rows ⊆ rows := by
  induction rows generalizing k with
  | nil => exact fun _ h => h
  | cons row rows ih =>
    rw [fetchRows]
    split
    · exact List.cons_subset_cons _ (ih (k + 1))
    · exact List.nil_subset _

/-- Only accounts are fetched. -/
theorem fetched_accounts {ok : SqlStep → Bool} {db : Database} {ids : List Int32} (k : Nat)
    (hnames : NamesAreTexts db.users) :
    ∀ info ∈ (Vstack.create.pushAll (fetchRows ok k (joinUsers db ids))).drain,
      0 ∉ info.username := by
  intro info hinfo
  rw [pushAll_drain, List.mem_reverse] at hinfo
  obtain ⟨_, row, hrow, _, hname⟩ := mem_joinUsers.mp (fetchRows_subset ok k _ hinfo)
  exact hname ▸ hnames row hrow

theorem nulFree_getFriends (ok : SqlStep → Bool) {db : Database} (hnames : NamesAreTexts db.users)
    (uid : Int32) : ∀ info ∈ (sqlChGetFriends ok db uid Vstack.create).2.drain,
      0 ∉ info.username := by
  simp only [sqlChGetFriends]
  split_ifs
  · exact fun _ h => absurd h List.not_mem_nil
  · exact fun _ h => absurd h List.not_mem_nil
  · exact fetched_accounts 0 hnames

theorem nulFree_getFriendRequests (ok : SqlStep → Bool) {db : Database}
    (hnames : NamesAreTexts db.users) (uid : Int32) :
    ∀ info ∈ (sqlChGetFriendRequests ok db uid Vstack.create).2.drain, 0 ∉ info.username := by
  simp only [sqlChGetFriendRequests]
  split_ifs
  · exact fun _ h => absurd h List.not_mem_nil
  · exact fun _ h => absurd h List.not_mem_nil
  · exact fetched_accounts 0 hnames

theorem nulFree_setFriendsOnline (hnames : NamesAreTexts s.db.users) (uid : Int32) :
    ∀ f ∈ (s.setFriendsOnline env uid).fields, f.NulFree := by
  have hfriends := nulFree_getFriends (env.sqlOk .getFriends) hnames uid
  have hrequests := nulFree_getFriendRequests (env.sqlOk .getFriendRequests) hnames uid
  intro f hf
  simp only [setFriendsOnline, ServerMsg.fields, pushAll_drain, List.mem_append] at hf
  rcases hf with (hf | hf) | hf
  · refine nulFree_infoFields (fun i hi => ?_) f hf
    exact hfriends i (List.mem_filter.mp (List.mem_reverse.mp hi)).1
  · refine nulFree_infoFields (fun i hi => ?_) f hf
    exact hfriends i (List.mem_filter.mp (List.mem_reverse.mp hi)).1
  · exact nulFree_infoFields hrequests f hf

/-- Whatever the server writes, its strings are texts. -/
theorem nulFree_of_cause (haudible : Audible s) (hnames : NamesAreTexts s.db.users)
    (h : Cause lib s e msg) : ∀ f ∈ msg.fields, f.NulFree := by
  have hlabel : ∀ {env : Env} {user : ServerUser} {cmd : Command}, CommandedBy s e env user cmd →
      0 ∉ label user := by
    rintro env user cmd ⟨sc, _, hu⟩
    exact nulFree_label (haudible user (userOf_eq_some.mp hu).2.1).1
  cases h with
  | who =>
    refine nulFree_infoFields fun i hi => ?_
    obtain ⟨u, hu, rfl⟩ := List.mem_map.mp hi
    exact (haudible u hu).1
  | friends => exact nulFree_setFriendsOnline hnames _
  | broadcast hby | whisper hby =>
    have hmsg := hby.readFor.nulFree _ List.mem_cons_self
    simpa [ServerMsg.fields, Field.NulFree] using ⟨hlabel hby, hmsg⟩
  | kick =>
    have htexts : 0 ∉ text "admin" ∧ 0 ∉ text "you got kicked, fggt!" := by decide +kernel
    simpa [ServerMsg.fields, Field.NulFree] using htexts
  | authFailed =>
    have htext : 0 ∉ text "Authentification failed." := by decide +kernel
    simpa [ServerMsg.fields, Field.NulFree] using htext
  | registrSuccessful =>
    have htext : 0 ∉ text "Registration complete. Login now." := by decide +kernel
    simpa [ServerMsg.fields, Field.NulFree] using htext
  | registrFailed =>
    have htexts : 0 ∉ text "Registration failed: user name already exists." ∧
        0 ∉ text "Registration failed." := by decide +kernel
    simp only [ServerMsg.fields, List.mem_singleton, forall_eq, Field.NulFree]
    split
    · exact htexts.1
    · exact htexts.2
  | requested =>
    have htext : 0 ∉ text "Friend request received." := by decide +kernel
    simpa [ServerMsg.fields, Field.NulFree] using htext
  | unknownUser =>
    have htext : 0 ∉ text "User not found." := by decide +kernel
    simpa [ServerMsg.fields, Field.NulFree] using htext
  | welcome hcmd hun | friendOnline hcmd hun =>
    have huname := hcmd.nulFree hun _ List.mem_cons_self
    simpa [ServerMsg.fields, Field.NulFree] using huname
  | friendOffline => simp [ServerMsg.fields, Field.NulFree]

/-! ## Who says what -/

/-- Under the name a text is said: somebody has sent this text, and the name is
his and nobody else's, or somebody who may has kicked. -/
inductive Said (s : ServerState) (e : Event) (name txt : List UInt8) : Prop
  | own {env : Env} {user : ServerUser} {cmd : Command} : CommandedBy s e env user cmd →
      cmd = .broadcast txt ∨ (∃ tid, cmd = .whisper tid (some txt)) → name = label user →
      (∀ v, name = label v → v.id = user.id ∧ v.username = user.username) → Said s e name txt
  | kick {env : Env} {user : ServerUser} {tid : Int32} :
      CommandedBy s e env user (.cmdKickId (some tid)) → 8 ≤ user.pLevel →
      txt = text "you got kicked, fggt!" → (∀ v, name ≠ label v) → Said s e name txt

theorem Cause.said {name txt : List UInt8} (h : Cause lib s e (.broadcast name txt)) :
    Said s e name txt := by
  generalize hmsg : ServerMsg.broadcast name txt = msg at h
  cases h with
  | broadcast hby => cases hmsg; exact .own hby (.inl rfl) rfl fun _ h => label_injective h
  | whisper hby _ => cases hmsg; exact .own hby (.inr ⟨_, rfl⟩) rfl fun _ h => label_injective h
  | kick hby hlevel _ =>
    cases hmsg
    exact .kick hby hlevel rfl fun v h => label_ne_admin v h.symm
  | _ => cases hmsg

/-- The packet is a message that an event of the run has caused. If it is a
broadcast, what it says about who is talking is true. Where the names of the
accounts are texts, all its strings are. -/
def Traced (lib : Externals) (db : Database) (listener : Nat) (events : List Event)
    (data : List UInt8) : Prop :=
  ∃ env msg pre e post m, data = packet env msg ∧ events = pre ++ e :: post ∧
    Run (ServerStep lib) (ServerState.start db listener) pre m ∧ Cause lib m e msg ∧
    (∀ name txt, msg = .broadcast name txt → Said m e name txt) ∧
    (NamesAreTexts db.users → ∀ f ∈ msg.fields, f.NulFree)

/-- In every run, whatever was ever written to anybody comes from an event of
the run that causes it, and under nobody's name stands what he did not send. -/
theorem senders_truthful {db : Database} {listener : Nat} {events : List Event}
    (hrun : Run (ServerStep lib) (ServerState.start db listener) events s) :
    ∀ x ∈ s.sent, Traced lib db listener events x.2 := by
  intro x hx
  obtain ⟨pre, e, post, m, hevents, hpre, env, msg, hcause, hdata⟩ := sent_caused hrun hx
  refine ⟨env, msg, pre, e, post, m, hdata, hevents, hpre, hcause, ?_, fun hnames => ?_⟩
  · rintro name txt rfl
    exact hcause.said
  · refine nulFree_of_cause ?_ ?_ hcause
    · exact hpre.invariant audible_step (audible_start db listener)
    · exact hpre.invariant (I := fun s => NamesAreTexts s.db.users)
        (fun _ _ _ => namesAreTexts_step) hnames

/-- The first user says something. -/
theorem senders_truthful_hi : ∃ t : ServerState,
    ((⟨2, 5⟩, packet sampleEnv (.broadcast (label ⟨1, 1, [⟨1, 4⟩], [97], 8⟩) [104, 105])) :
      Ssl × List UInt8) ∈ t.sent ∧
    ∀ x ∈ t.sent, Traced sampleExt (sampleDb 8) 3 ([.accept ⟨1, 4⟩ true, .accept ⟨2, 5⟩ true,
      .packet 4 sampleEnv (loginOf [97]), .packet 5 sampleEnv (loginOf [98])] ++
      [.packet 4 sampleEnv (packetOf .broadcast [.string [104, 105]])]) x.2 := by
  have hsaid : ServerStep sampleExt
      (.packet 4 sampleEnv (packetOf .broadcast [.string [104, 105]])) twoUsers
      (twoUsers.broadcast sampleEnv ⟨1, 4⟩ ⟨1, 1, [⟨1, 4⟩], [97], 8⟩ [104, 105]) := .packet rfl
  exact ⟨_, List.mem_append_right _ List.mem_cons_self,
    senders_truthful (run_twoUsers.append (.single hsaid))⟩

end VhIM.Server
