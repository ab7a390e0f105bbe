import VhIM.Sql.Execution

/-! # The handles are closed

Whatever the other side replies, the functions of the store keep to the order
of the calls, and close the handle they made on every exit. The one that does
not is `sql_ch_check_user_auth`, on the two exits where the connection or the
query fails. -/
namespace VhIM.Sql.Mysql
open VhIM.Lib VhIM.Lib.Program VhIM.Utility
open VhIM.Server (ServerUserInfo)

variable {α β : Type}

def refused : Exchange Reply → Bool
  | ⟨.realConnect, r⟩ | ⟨.query _, r⟩ => !r
  | ⟨_, _⟩ => false

/-- The stages, and whether anything has been refused so far. -/
def watch : Protocol Reply (Stage × Bool) := fun c r q =>
  (stage c r q.1).map fun st => (st, q.2 || refused ⟨c, r⟩)

theorem watch_after {q q' : Stage × Bool} {x : List (Exchange Reply)}
    (h : Protocol.after watch q x = some q') :
    Protocol.after stage q.1 x = some q'.1 ∧ q'.2 = (q.2 || x.any refused) := by
  induction x generalizing q with
  | nil => cases h; simp [Protocol.after]
  | cons e x ih =>
    rw [Protocol.after, List.foldlM_cons] at h
    obtain ⟨q₁, hq₁, h⟩ := Option.bind_eq_some_iff.mp h
    obtain ⟨st, hst, rfl⟩ := Option.map_eq_some_iff.mp hq₁
    obtain ⟨hafter, hflag⟩ := ih h
    refine ⟨?_, by rw [hflag, List.any_cons, Bool.or_assoc]⟩
    rw [Protocol.after, List.foldlM_cons, hst]
    exact hafter

/-! ## The parts the functions share -/

def Settled (q : Stage × Bool) : Prop := q.1 = .ready ∨ q.1 = .failed

def Open (q : Stage × Bool) : Prop := q.1 = .inUse ∨ q.1 = .drained

variable {b : Bool}

theorem obeys_connected {failed : α} {body : Program Reply α}
    (h : body.Obeys watch (fun _ => Settled) (.ready, false)) :
    (connected failed body).Obeys watch (fun _ q => q.1 = .closed) (.absent, false) := by
  refine fun _ => ⟨_, rfl, fun r => ?_⟩
  cases r with
  | false => exact ⟨_, rfl, fun _ => ⟨_, rfl, fun _ => ⟨_, rfl, rfl⟩⟩⟩
  | true =>
    refine ⟨_, rfl, h.bind fun a q hq => ?_⟩
    obtain ⟨st, b⟩ := q
    rcases hq with hq | hq <;> cases hq <;> exact fun _ => ⟨_, rfl, rfl⟩

theorem obeys_tryQuery {q : Query} {failed : α} {next : Program Reply α}
    {P : α → Stage × Bool → Prop}
    (hfailed : P failed (.failed, true))
    (h : next.Obeys watch P (if selects q then .pending else .ready, b)) :
    (tryQuery q failed next).Obeys watch P (.ready, b) := by
  intro r
  cases r with
  | false =>
    have hwatch : watch (.query q) false (.ready, b) = some (.failed, true) := by
      simp [watch, stage, refused]
    exact ⟨(.failed, true), hwatch, fun _ => ⟨(.failed, true), rfl, hfailed⟩⟩
  | true =>
    have hwatch : watch (.query q) true (.ready, b) =
        some (if selects q then .pending else .ready, b) := by
      simp [watch, stage, refused]
    exact ⟨_, hwatch, h⟩

theorem obeys_fetch {next : Option Row → Program Reply α} {P : α → Stage × Bool → Prop}
    (hrow : ∀ row, (next (some row)).Obeys watch P (.inUse, b))
    (hnull : (next none).Obeys watch P (.drained, b)) :
    (mysql .fetchRow >>= next).Obeys watch P (.inUse, b) := by
  have hwatch : ∀ r, watch .fetchRow r (.inUse, b) =
      some (if r.isSome then .inUse else .drained, b) := by simp [watch, stage, refused]
  intro r
  cases r with
  | none => exact ⟨_, hwatch none, hnull⟩
  | some row => exact ⟨_, hwatch (some row), hrow row⟩

theorem obeys_withResult {body : Program Reply α}
    (h : body.Obeys watch (fun _ q => Open q ∧ q.2 = b) (.inUse, b)) :
    (withResult body).Obeys watch (fun _ q => q = (.ready, b)) (.pending, b) := by
  refine fun _ => ⟨(.inUse, b), by simp [watch, stage, refused], h.bind ?_⟩
  rintro a ⟨st, b⟩ ⟨hopen, rfl⟩ _
  refine ⟨(.ready, b), ?_, rfl⟩
  rcases hopen with hst | hst <;> cases hst <;> simp [watch, stage, refused]

theorem obeys_fetchExists {yes no missing : α} :
    (fetchExists yes no missing).Obeys watch (fun _ q => Open q ∧ q.2 = b) (.inUse, b) := by
  refine obeys_fetch (fun row => ?_) ⟨.inr rfl, rfl⟩
  dsimp only
  split
  · exact ⟨.inl rfl, rfl⟩
  · exact trivial

theorem obeys_fetchPrivilege :
    fetchPrivilege.Obeys watch (fun _ q => Open q ∧ q.2 = b) (.inUse, b) := by
  refine obeys_fetch (fun row => ?_) ⟨.inr rfl, rfl⟩
  dsimp only
  split
  · exact ⟨.inl rfl, rfl⟩
  · exact trivial

theorem obeys_fetchAuth (lib : Externals) (pw : List UInt8) :
    (fetchAuth lib pw).Obeys watch (fun _ q => Open q ∧ q.2 = b) (.inUse, b) := by
  refine obeys_fetch (fun row => ?_) ⟨.inr rfl, rfl⟩
  dsimp only
  split
  · split <;> exact ⟨.inl rfl, rfl⟩
  · exact ⟨.inl rfl, rfl⟩

/-- A loop that has ended has fetched NULL. -/
theorem obeys_fetchInfos (n : Nat) (out : Vstack ServerUserInfo) :
    (fetchInfos n out).Obeys watch (fun _ q => Open q ∧ q.2 = b) (.inUse, b) := by
  induction n generalizing out with
  | zero => exact trivial
  | succ n ih =>
    refine obeys_fetch (fun row => ?_) ⟨.inr rfl, rfl⟩
    dsimp only
    split
    · exact ih _
    · exact trivial

/-! ## The functions -/

/-- Settled or closed, whatever is returned. -/
abbrev Settles (p : Program Reply α) : Prop := p.Obeys watch (fun _ => Settled) (.ready, false)

theorem settles_lookup {q : Query} (hq : selects q = true) {failed : α} {body : Program Reply α}
    (h : body.Obeys watch (fun _ q => Open q ∧ q.2 = false) (.inUse, false)) :
    Settles (tryQuery q failed (withResult body)) := by
  refine obeys_tryQuery (.inr rfl) ?_
  rw [if_pos hq]
  exact (obeys_withResult h).mono fun a q hq => .inl (congrArg Prod.fst hq)

/-- A query with a result set, and what depends on its rows. -/
theorem settles_result {q : Query} (hq : selects q = true) {failed : β} {body : Program Reply α}
    {f : α → Program Reply β}
    (h : body.Obeys watch (fun _ q => Open q ∧ q.2 = false) (.inUse, false))
    (hf : ∀ a, Settles (f a)) : Settles (tryQuery q failed (withResult body >>= f)) := by
  refine obeys_tryQuery (.inr rfl) ?_
  rw [if_pos hq]
  exact (obeys_withResult h).bind fun a q hq => hq ▸ hf a

theorem settles_done (a : α) : Settles (.done a) := .inl rfl

/-- A query without a result set. -/
theorem settles_update {q : Query} (hq : selects q = false) {failed : α} {next : Program Reply α}
    (h : Settles next) : Settles (tryQuery q failed next) := by
  refine obeys_tryQuery (.inr rfl) ?_
  rwa [if_neg (by rw [hq]; decide)]

/-- Where a handle is left: closed, or where the connection or a query was
refused. -/
def Ends (leaked : Bool) (st : Stage) : Prop :=
  if leaked then st = .refused ∨ st = .failed else st = .closed

theorem obeys_checkUserAuth (lib : Externals) (user pw : List UInt8) :
    (sqlChCheckUserAuth lib user pw).Obeys watch (fun _ q => Ends q.2 q.1) (.absent, false) := by
  refine fun _ => ⟨_, rfl, fun r => ?_⟩
  cases r with
  | false => exact ⟨_, rfl, fun _ => ⟨(.refused, true), rfl, .inl rfl⟩⟩
  | true =>
    refine ⟨_, rfl, obeys_tryQuery (.inr rfl) ?_⟩
    refine (obeys_withResult (obeys_fetchAuth lib pw)).bind fun a q hq => ?_
    subst hq
    exact fun _ => ⟨(.closed, false), rfl, rfl⟩

abbrev Closes (p : Program Reply α) : Prop :=
  p.Obeys watch (fun _ q => q.1 = .closed) (.absent, false)

theorem closes_connected {failed : α} {body : Program Reply α} (h : Settles body)
    (f : α → β) : Closes (connected failed body >>= fun a => pure (f a)) :=
  (obeys_connected h).bind fun _ _ hq => hq

theorem closes_map {p : Program Reply α} (h : Closes p) (f : α → β) :
    Closes (p >>= fun a => pure (f a)) := h.bind fun _ _ hq => hq

namespace Invocation

def isLogin : Invocation → Bool
  | checkUserAuth _ _ => true
  | _ => false

theorem closes_program (lib : Externals) (n : Nat) (call : Invocation) (h : call.isLogin = false) :
    Closes (call.program lib n) := by
  cases call with
  | checkUserAuth user pw => cases h
  | addUser saltBytes user pw =>
    refine closes_connected (settles_result rfl obeys_fetchExists fun result => ?_) _
    split
    · exact settles_update rfl (settles_done _)
    · exact settles_done _
  | loadPrivileges uid => exact closes_connected (settles_lookup rfl obeys_fetchPrivilege) _
  | updatePrivileges uid p => exact closes_connected (settles_update rfl (settles_done _)) _
  | userExists uid =>
    exact closes_map (closes_connected (settles_lookup rfl obeys_fetchExists) _) _
  | createFriendRequest f t =>
    refine closes_connected (settles_result rfl obeys_fetchExists fun result => ?_) _
    split
    · refine settles_result rfl obeys_fetchExists fun result => ?_
      split
      · exact settles_update rfl (settles_done _)
      · exact settles_done _
    · exact settles_done _
  | getFriendRequests uid out =>
    exact closes_connected (settles_result rfl (obeys_fetchInfos n out) fun _ => settles_done _) _
  | createFriends a b =>
    exact closes_connected (settles_update rfl (settles_update rfl (settles_update rfl
      (settles_done _)))) _
  | areFriends f t =>
    exact closes_map (closes_connected (settles_lookup rfl obeys_fetchExists) _) _
  | getFriends uid out =>
    exact closes_connected (settles_result rfl (obeys_fetchInfos n out) fun _ => settles_done _) _
  | deleteFriends a b =>
    refine closes_connected (settles_result rfl obeys_fetchExists fun result => ?_) _
    split
    · exact settles_update rfl (settles_done _)
    · split
      · exact settles_update rfl (settles_done _)
      · exact settles_done _
  | createGroup name uid => exact closes_connected (settles_update rfl (settles_done _)) _

theorem obeys_program (lib : Externals) (n : Nat) (call : Invocation) :
    (call.program lib n).Obeys watch
      (fun _ q => Ends (call.isLogin && q.2) q.1) (.absent, false) := by
  cases hlogin : call.isLogin with
  | false => exact (closes_program lib n call hlogin).mono fun _ _ hq => hq
  | true =>
    cases call with
    | checkUserAuth user pw => exact (obeys_checkUserAuth lib user pw).bind fun _ _ hq => hq
    | _ => cases hlogin

end Invocation

/-! ## Handles made and closed -/

def opened (x : List (Exchange Reply)) : Nat :=
  x.countP fun e => match e.1 with
    | .init => true
    | _ => false

def closed (x : List (Exchange Reply)) : Nat :=
  x.countP fun e => match e.1 with
    | .close => true
    | _ => false

def Stage.live : Stage → Nat
  | .absent | .closed => 0
  | .fresh | .refused | .ready | .failed | .pending | .inUse | .drained => 1

theorem live_of_stage {c : Call} {r : Reply c} {q q' : Stage} (h : stage c r q = some q') :
    q.live + opened [⟨c, r⟩] = closed [⟨c, r⟩] + q'.live := by
  cases c <;> cases q <;> simp only [stage, Option.some.injEq, reduceCtorEq] at h <;>
    subst h <;> first | rfl | (split_ifs <;> rfl)

theorem live_of_after {q q' : Stage} {x : List (Exchange Reply)}
    (h : Protocol.after stage q x = some q') : q.live + opened x = closed x + q'.live := by
  induction x generalizing q with
  | nil => cases h; simp [opened, closed]
  | cons e x ih =>
    obtain ⟨c, r⟩ := e
    rw [Protocol.after, List.foldlM_cons] at h
    obtain ⟨q₁, hq₁, h⟩ := Option.bind_eq_some_iff.mp h
    have hstep : q.live + opened [⟨c, r⟩] = closed [⟨c, r⟩] + q₁.live := live_of_stage hq₁
    have hrest := ih h
    have hopened : opened ([⟨c, r⟩] ++ x) = opened [⟨c, r⟩] + opened x := List.countP_append
    have hclosed : closed ([⟨c, r⟩] ++ x) = closed [⟨c, r⟩] + closed x := List.countP_append
    rw [← List.singleton_append]
    omega

/-- Calls one after the other against anything that replies, with what each
of them exchanged, if they all return. -/
def session {σ : Type} (lib : Externals) (n : Nat) (reply : (c : Call) → σ → Reply c × σ) :
    σ → List Invocation → Option (List (Invocation × List (Exchange Reply)))
  | _, [] => some []
  | s, invoked :: calls =>
    match (invoked.program lib n).run reply s with
    | (some _, s, exchanged) =>
      (session lib n reply s calls).map fun log => (invoked, exchanged) :: log
    | (none, _, _) => none

/-- A login to which the connection or the query was refused. -/
def leaks (e : Invocation × List (Exchange Reply)) : Bool := e.1.isLogin && e.2.any refused

/-- A call that returns. -/
theorem program_accounted {σ : Type} {lib : Externals} {n : Nat}
    {reply : (c : Call) → σ → Reply c × σ} {s s' : σ} {invoked : Invocation} {value : Value}
    {x : List (Exchange Reply)} (h : (invoked.program lib n).run reply s = (some value, s', x)) :
    (∃ q, Protocol.after stage .absent x = some q ∧ Ends (leaks (invoked, x)) q) ∧
      opened x = closed x + (leaks (invoked, x)).toNat := by
  obtain ⟨q, hafter, hends⟩ := (invoked.obeys_program lib n).run reply s
  rw [h] at hafter hends
  obtain ⟨hstage, hflag⟩ := watch_after hafter
  have hends : Ends (leaks (invoked, x)) q.1 := by
    have hends := hends value rfl
    rwa [hflag] at hends
  refine ⟨⟨q.1, hstage, hends⟩, ?_⟩
  have hlive := live_of_after hstage
  have hleft : q.1.live = (leaks (invoked, x)).toNat := by
    cases hleaks : leaks (invoked, x) with
    | false =>
      rw [hleaks] at hends
      rw [show q.1 = .closed from hends]
      rfl
    | true =>
      rw [hleaks] at hends
      rcases hends with hq | hq <;> rw [hq] <;> rfl
  rw [hleft] at hlive
  exact (Nat.zero_add _).symm.trans hlive

/-- Whatever is called and whatever the replies, every call keeps to the order
of the API, and the handles left open are those of the logins to which the
connection or the query was refused. -/
theorem handles_accounted {σ : Type} {lib : Externals} {n : Nat}
    {reply : (c : Call) → σ → Reply c × σ} {s : σ} {calls : List Invocation}
    {log : List (Invocation × List (Exchange Reply))}
    (h : session lib n reply s calls = some log) :
    (∀ e ∈ log, ∃ q, Protocol.after stage .absent e.2 = some q ∧ Ends (leaks e) q) ∧
      (log.map fun e => opened e.2).sum = (log.map fun e => closed e.2).sum + log.countP leaks := by
  induction calls generalizing s log with
  | nil => cases h; simp
  | cons invoked calls ih =>
    rw [session] at h
    split at h
    · next value s' x hrun =>
      obtain ⟨rest, hrest, rfl⟩ := Option.map_eq_some_iff.mp h
      obtain ⟨hstages, hsum⟩ := ih hrest
      obtain ⟨hstage, hcount⟩ := program_accounted hrun
      refine ⟨List.forall_mem_cons.mpr ⟨hstage, hstages⟩, ?_⟩
      simp only [List.map_cons, List.sum_cons, List.countP_cons]
      cases hleaks : leaks (invoked, x) <;> simp [hleaks] at hcount ⊢ <;> omega
    · cases h

/-- A question and a login, while no query succeeds. -/
theorem handles_accounted_login :
    ∃ log, session ⟨id, fun _ _ => false⟩ 1
        (answer (fun step => step = .connect) ⟨id, fun _ _ => false⟩) (.start .empty)
        [.areFriends 1 2, .checkUserAuth [97] [98]] = some log ∧
      (log.map fun e => opened e.2).sum = (log.map fun e => closed e.2).sum + log.countP leaks ∧
      log.countP leaks = 1 := by
  have h : session ⟨id, fun _ _ => false⟩ 1
      (answer (fun step => step = .connect) ⟨id, fun _ _ => false⟩) (.start .empty)
      [.areFriends 1 2, .checkUserAuth [97] [98]] = some _ := rfl
  exact ⟨_, h, (handles_accounted h).2, rfl⟩

end VhIM.Sql.Mysql
