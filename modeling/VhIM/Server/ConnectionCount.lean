import VhIM.Lib.Runs
import VhIM.Server.ConnectionList

/-! # The count of the connections

One user in memory: the list of its connections and `con_len`, which is kept
beside the list. The count is an integer here, so that it could go below zero. -/
namespace VhIM.Server
open VhIM.Lib VhIM.Lib.LinkedList VhIM.Lib.Runs

/-- The fields `connections` and `con_len` of the user `uid`. -/
structure UserMemory where
  mem : Memory
  conLen : Int

inductive ConOp where
  /-- `server_user_add_connection`; `malloc` returns `p`. -/
  | add (p : Nat) (ssl : Ssl)
  /-- `server_user_remove_connection`. -/
  | remove (ssl : Ssl)

namespace UserMemory

/-- `server_user_create`, with its node at `p`. -/
def create (m : Memory) (p : Nat) (uid : Int32) (ssl : Ssl) : UserMemory :=
  ⟨m.create p uid ssl, 1⟩

/-- `server_user_add_connection`, with the new node at `p`. -/
def addConnection (u : UserMemory) (p : Nat) (uid : Int32) (ssl : Ssl) : UserMemory :=
  ⟨u.mem.addConnection p uid ssl, u.conLen + 1⟩

/-- `server_user_remove_connection`; `fuel` bounds the turns of its loop. -/
def removeConnection (u : UserMemory) (fuel : Nat) (uid : Int32) (ssl : Ssl) :
    Except MemFault UserMemory := do
  match ← u.mem.findConnection ssl fuel none (u.mem.connections uid) with
  | (_, none) => return u
  | (prev, some cur) =>
    let mem ← u.mem.unlink uid prev cur
    return ⟨mem, u.conLen - 1⟩

end UserMemory

/-- One call on the user; a new node is at an address that is not in use. -/
inductive ConStep (uid : Int32) : ConOp → UserMemory → UserMemory → Prop
  | add {u : UserMemory} {p : Nat} {ssl : Ssl} : u.mem.nodes p = none →
      ConStep uid (.add p ssl) u (u.addConnection p uid ssl)
  | remove {u u' : UserMemory} {fuel : Nat} {ssl : Ssl} :
      u.removeConnection fuel uid ssl = .ok u' → ConStep uid (.remove ssl) u u'

def ConOp.onList (l : List Ssl) : ConOp → List Ssl
  | .add _ ssl => ssl :: l
  | .remove ssl => l.erase ssl

def ConOp.onUser (su : ServerUser) : ConOp → ServerUser
  | .add _ ssl => su.addConnection ssl
  | .remove ssl => su.removeConnection ssl

/-- The nodes that can be reached from `connections`, and as many counted. -/
structure Counts (uid : Int32) (u : UserMemory) (l : List (Nat × Ssl)) : Prop where
  chain : Chain u.mem.nodes (u.mem.connections uid) l
  conLen : u.conLen = l.length

variable {uid : Int32} {u u' : UserMemory} {l l₁ l₂ : List (Nat × Ssl)} {p fuel : Nat} {ssl : Ssl}

/-! ## One call -/

theorem counts_create {m : Memory} (uid : Int32) (p : Nat) (ssl : Ssl) :
    Counts uid (UserMemory.create m p uid ssl) [(p, ssl)] := by
  have hpush := (@Chain.nil _ _ m.nodes).push (a := p) List.not_mem_nil ssl
  exact ⟨by simpa [UserMemory.create, Memory.create] using hpush, rfl⟩

/-- The new connection is in front. -/
theorem Counts.addConnection (h : Counts uid u l) (hp : u.mem.nodes p = none) (ssl : Ssl) :
    Counts uid (u.addConnection p uid ssl) ((p, ssl) :: l) := by
  have hpush := h.chain.push (h.chain.not_mem hp) ssl
  refine ⟨by simpa [UserMemory.addConnection, Memory.addConnection] using hpush, ?_⟩
  rw [UserMemory.addConnection, h.conLen, List.length_cons]
  rfl

theorem Counts.removeConnection_absent (h : Counts uid u l) (hno : ssl ∉ l.map Prod.snd)
    (hfuel : l.length < fuel) : u.removeConnection fuel uid ssl = .ok u := by
  obtain ⟨prev, hfind⟩ := Memory.findConnection_absent h.chain hno hfuel
  rw [UserMemory.removeConnection, hfind]
  rfl

/-- The first node with the connection goes, and the others stay in order. -/
theorem Counts.removeConnection_found (h : Counts uid u (l₁ ++ (p, ssl) :: l₂))
    (hno : ssl ∉ l₁.map Prod.snd) (hfuel : l₁.length < fuel) :
    ∃ u', u.removeConnection fuel uid ssl = .ok u' ∧ Counts uid u' (l₁ ++ l₂) := by
  obtain ⟨m', hm', hremoved⟩ := Memory.unlink_found h.chain
  refine ⟨⟨m', u.conLen - 1⟩, ?_, hremoved.chain, ?_⟩
  · rw [UserMemory.removeConnection, Memory.findConnection_found h.chain hno hfuel]
    show (do let mem ← u.mem.unlink uid _ p; _) = _
    rw [hm']
    rfl
  · have hlen := h.conLen
    simp only [List.length_append, List.length_cons] at hlen ⊢
    push_cast at hlen ⊢
    omega

/-- More turns change nothing once the loop has ended. -/
theorem findConnection_mono {m : Memory} {fuel fuel' : Nat} {prev cur : Option Nat}
    {found : Option Nat × Option Nat} (h : m.findConnection ssl fuel prev cur = .ok found)
    (hle : fuel ≤ fuel') : m.findConnection ssl fuel' prev cur = .ok found := by
  induction fuel generalizing fuel' prev cur with
  | zero => cases h
  | succ fuel ih =>
    obtain ⟨fuel', rfl⟩ := Nat.exists_eq_succ_of_ne_zero (Nat.ne_zero_of_lt hle)
    cases cur with
    | none => exact h
    | some cur =>
      rw [Memory.findConnection] at h ⊢
      cases hnode : m.node cur with
      | error f =>
        rw [hnode] at h
        cases h
      | ok n =>
        rw [hnode] at h
        by_cases hval : n.val ≠ ssl
        · have hrest : m.findConnection ssl fuel (some cur) n.next = .ok found :=
            (if_pos hval).symm.trans h
          exact (if_pos hval).trans (ih hrest (Nat.le_of_succ_le_succ hle))
        · have hend : (Except.ok (prev, some cur) : Except MemFault _) = .ok found :=
            (if_neg hval).symm.trans h
          exact (if_neg hval).trans hend

theorem removeConnection_mono {fuel fuel' : Nat} (h : u.removeConnection fuel uid ssl = .ok u')
    (hle : fuel ≤ fuel') : u.removeConnection fuel' uid ssl = .ok u' := by
  rw [UserMemory.removeConnection] at h ⊢
  cases hfind : u.mem.findConnection ssl fuel none (u.mem.connections uid) with
  | error f =>
    rw [hfind] at h
    cases h
  | ok found =>
    rw [hfind] at h
    rw [findConnection_mono hfind hle]
    exact h

/-! ## Every call -/

/-- The connections of a user are these, and so they are after each call. -/
structure CountedList (uid : Int32) (u : UserMemory) (l : List (Nat × Ssl)) : Prop where
  counts : Counts uid u l
  add : ∀ p ssl u', ConStep uid (.add p ssl) u u' → Counts uid u' ((p, ssl) :: l)
  /-- The first node with the connection is taken out. -/
  remove : ∀ l₁ p ssl l₂ u', l = l₁ ++ (p, ssl) :: l₂ → ssl ∉ l₁.map Prod.snd →
    ConStep uid (.remove ssl) u u' → Counts uid u' (l₁ ++ l₂)
  absent : ∀ ssl u', ssl ∉ l.map Prod.snd → ConStep uid (.remove ssl) u u' → u' = u
  /-- The walk ends, and reads no node that was freed. -/
  ends : ∀ ssl, ∃ u', ConStep uid (.remove ssl) u u'

theorem Counts.countedList (h : Counts uid u l) : CountedList uid u l where
  counts := h
  add p ssl u' hstep := by
    cases hstep with
    | add hp => exact h.addConnection hp ssl
  remove l₁ p ssl l₂ u' hl hno hstep := by
    cases hstep with
    | @remove _ _ fuel _ hremove =>
      obtain ⟨v, hv, hcounts⟩ := (hl ▸ h).removeConnection_found hno
        (Nat.lt_add_left fuel (Nat.lt_succ_self l₁.length))
      rw [removeConnection_mono hremove (Nat.le_add_right fuel _)] at hv
      cases hv
      exact hcounts
  absent ssl u' hno hstep := by
    cases hstep with
    | @remove _ _ fuel _ hremove =>
      have hsame := h.removeConnection_absent hno
        (Nat.lt_add_left fuel (Nat.lt_succ_self l.length))
      rw [removeConnection_mono hremove (Nat.le_add_right fuel _)] at hsame
      cases hsame
      rfl
  ends ssl := by
    rcases split_first l ssl with hno | ⟨l₁, p, l₂, rfl, hno⟩
    · exact ⟨u, .remove (h.removeConnection_absent hno (Nat.lt_succ_self _))⟩
    · obtain ⟨v, hv, _⟩ := h.removeConnection_found hno (Nat.lt_succ_self _)
      exact ⟨v, .remove hv⟩

/-- The step: a call does to the nodes what it does to the list. -/
theorem counts_step {op : ConOp} (h : Counts uid u l) (hstep : ConStep uid op u u') :
    ∃ l', Counts uid u' l' ∧ l'.map Prod.snd = op.onList (l.map Prod.snd) := by
  cases op with
  | add p ssl => exact ⟨_, h.countedList.add p ssl u' hstep, rfl⟩
  | remove ssl =>
    rcases split_first l ssl with hno | ⟨l₁, p, l₂, rfl, hno⟩
    · rw [h.countedList.absent ssl u' hno hstep]
      exact ⟨l, h, (List.erase_of_not_mem hno).symm⟩
    · refine ⟨_, h.countedList.remove l₁ p ssl l₂ u' rfl hno hstep, ?_⟩
      exact map_removed hno

theorem counts_run {ops : List ConOp} (h : Counts uid u l) (hrun : Run (ConStep uid) u ops u') :
    ∃ l', Counts uid u' l' ∧ l'.map Prod.snd = ops.foldl ConOp.onList (l.map Prod.snd) := by
  induction hrun generalizing l with
  | nil => exact ⟨l, h, rfl⟩
  | cons hstep _ ih =>
    obtain ⟨l', h', hl'⟩ := counts_step h hstep
    obtain ⟨l'', h'', hl''⟩ := ih h'
    exact ⟨l'', h'', by rw [hl'', hl', List.foldl_cons]⟩

/-- The user of the server's state has the same list and the same count. -/
theorem onUser_counted {su : ServerUser} (h : su.Counted) (ops : List ConOp) :
    (ops.foldl ConOp.onUser su).Counted ∧
      (ops.foldl ConOp.onUser su).connections = ops.foldl ConOp.onList su.connections := by
  induction ops generalizing su with
  | nil => exact ⟨h, rfl⟩
  | cons op ops ih =>
    cases op with
    | add p ssl => exact ih (ServerUser.addConnection_counted h ssl)
    | remove ssl =>
      have hrest := ih (ServerUser.removeConnection_counted h ssl)
      rw [ServerUser.removeConnection_connections] at hrest
      exact hrest

/-- After any calls on a new user the count is the number of nodes, these hold
the connections as a list would, and it is the one in the server's state. -/
theorem connection_list_counted {m : Memory} {p : Nat} {uid : Int32} {ssl : Ssl}
    {ops : List ConOp} {u : UserMemory}
    (hrun : Run (ConStep uid) (UserMemory.create m p uid ssl) ops u) (username : List UInt8)
    (pLevel : UInt8) :
    let su := ops.foldl ConOp.onUser (ServerUser.create uid ssl username pLevel)
    ∃ l, CountedList uid u l ∧ l.map Prod.snd = ops.foldl ConOp.onList [ssl] ∧
      su.connections = l.map Prod.snd ∧ u.conLen = su.conLen := by
  intro su
  obtain ⟨l, hcounts, hl⟩ := counts_run (counts_create uid p ssl) hrun
  obtain ⟨hcounted, hconns⟩ :=
    onUser_counted (ServerUser.create_counted uid ssl username pLevel) ops
  have hlist : su.connections = l.map Prod.snd := hconns.trans hl.symm
  have hlen : su.conLen = l.length := by
    have hcount : su.conLen = su.connections.length := hcounted
    rw [hcount, hlist, List.length_map]
  exact ⟨l, hcounts.countedList, hl, hlist, by rw [hcounts.conLen, hlen]⟩

/-- A second connection, twice, of which the older node goes. -/
theorem connection_list_counted_repeated : ∃ u l,
    CountedList 1 u l ∧ l.map Prod.snd = [⟨2, 5⟩, ⟨1, 4⟩] ∧ u.conLen = 2 := by
  have hrun : ∃ u, Run (ConStep 1) (UserMemory.create ⟨fun _ => none, fun _ => none⟩ 0 1 ⟨1, 4⟩)
      [.add 1 ⟨2, 5⟩, .add 2 ⟨2, 5⟩, .remove ⟨2, 5⟩] u :=
    ⟨_, .cons (.add rfl) (.cons (.add rfl) (.single
      (.remove (show UserMemory.removeConnection _ 3 _ _ = .ok _ from rfl))))⟩
  obtain ⟨u, hrun⟩ := hrun
  obtain ⟨l, hcounted, hl, _, hlen⟩ := connection_list_counted hrun [97] 0
  exact ⟨u, l, hcounted, hl, hlen⟩

end VhIM.Server
