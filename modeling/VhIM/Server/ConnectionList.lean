import VhIM.Lib.LinkedList
import VhIM.Server.Effects

/-! # The connection lists in memory

The nodes of the lists of connections, with a fault for every read of a node
that is not there any more, and the functions of `server_user.c` on them. Where
the lists of a state are laid out in memory these do what the state says. -/
namespace VhIM.Server
open VhIM.Lib VhIM.Lib.LinkedList VhIM.Network VhIM.Sql
open ServerState

/-- `struct server_user_connection`. -/
abbrev ConNode := Cell Nat Ssl

inductive MemFault where
  /-- A node is read that was freed. -/
  | freedNode
  /-- A loop has not come to its end yet. -/
  | unfinished
  | server (f : Fault)
  deriving DecidableEq

structure Memory where
  nodes : Cells Nat Ssl
  /-- The field `connections` of the user with an id. -/
  connections : Int32 → Option Nat

namespace Memory

def node (m : Memory) (p : Nat) : Except MemFault ConNode :=
  match m.nodes p with
  | some n => .ok n
  | none => .error .freedNode

/-- The connections of `server_user_create`, with the node at `p`. -/
def create (m : Memory) (p : Nat) (uid : Int32) (ssl : Ssl) : Memory :=
  ⟨write m.nodes p (some ⟨ssl, none⟩), Function.update m.connections uid (some p)⟩

/-- `server_user_add_connection`, with the new node at `p`. -/
def addConnection (m : Memory) (p : Nat) (uid : Int32) (ssl : Ssl) : Memory :=
  ⟨write m.nodes p (some ⟨ssl, m.connections uid⟩), Function.update m.connections uid (some p)⟩

/-- The loop of `server_user_remove_connection`: `prev` and `cur` at its end. -/
def findConnection (m : Memory) (ssl : Ssl) :
    Nat → Option Nat → Option Nat → Except MemFault (Option Nat × Option Nat)
  | 0, _, _ => .error .unfinished
  | _ + 1, prev, none => .ok (prev, none)
  | fuel + 1, prev, some cur => do
    let n ← m.node cur
    if n.val ≠ ssl then m.findConnection ssl fuel (some cur) n.next else return (prev, some cur)

/-- Unlink the node `cur`, behind `prev` if there is one, and free it. -/
def unlink (m : Memory) (uid : Int32) (prev : Option Nat) (cur : Nat) : Except MemFault Memory := do
  let n ← m.node cur
  match prev with
  | none => return ⟨write m.nodes cur none, Function.update m.connections uid n.next⟩
  | some prev => do
    let before ← m.node prev
    return { m with nodes := write (write m.nodes prev (some ⟨before.val, n.next⟩)) cur none }

def removeConnection (m : Memory) (fuel : Nat) (uid : Int32) (ssl : Ssl) :
    Except MemFault Memory := do
  match ← m.findConnection ssl fuel none (m.connections uid) with
  | (_, none) => return m
  | (prev, some cur) => m.unlink uid prev cur

variable {m : Memory} {p fuel : Nat} {uid : Int32} {ssl : Ssl} {l l₁ l₂ : List (Nat × Ssl)}

theorem node_ok {n : ConNode} (h : m.nodes p = some n) : m.node p = .ok n := by
  rw [node, h]

/-! ## Removing a connection -/

theorem findConnection_absent {prev cur : Option Nat} (h : Chain m.nodes cur l)
    (hno : ssl ∉ l.map Prod.snd) (hfuel : l.length < fuel) :
    ∃ prev', m.findConnection ssl fuel prev cur = .ok (prev', none) := by
  induction h generalizing prev fuel with
  | nil =>
    obtain ⟨fuel, rfl⟩ := Nat.exists_eq_succ_of_ne_zero (Nat.ne_zero_of_lt hfuel)
    exact ⟨prev, rfl⟩
  | @cons a b next l hcell htail ih =>
    obtain ⟨fuel, rfl⟩ := Nat.exists_eq_succ_of_ne_zero (Nat.ne_zero_of_lt hfuel)
    have hne : b ≠ ssl := fun he => hno (he ▸ .head _)
    obtain ⟨prev', hprev⟩ := ih (fun hm => hno (.tail _ hm))
      (Nat.lt_of_succ_lt_succ hfuel)
    refine ⟨prev', ?_⟩
    rw [findConnection, node_ok hcell]
    exact (if_pos hne).trans hprev

theorem findConnection_found {prev cur : Option Nat}
    (h : Chain m.nodes cur (l₁ ++ (p, ssl) :: l₂)) (hno : ssl ∉ l₁.map Prod.snd)
    (hfuel : l₁.length < fuel) : m.findConnection ssl fuel prev cur =
      .ok ((l₁.map Prod.fst).getLast?.or prev, some p) := by
  induction l₁ generalizing prev cur fuel with
  | nil =>
    obtain ⟨fuel, rfl⟩ := Nat.exists_eq_succ_of_ne_zero (Nat.ne_zero_of_lt hfuel)
    cases h with
    | cons hcell _ =>
      rw [findConnection, node_ok hcell]
      exact if_neg (not_not.mpr rfl)
  | cons x l₁ ih =>
    obtain ⟨fuel, rfl⟩ := Nat.exists_eq_succ_of_ne_zero (Nat.ne_zero_of_lt hfuel)
    cases h with
    | @cons a b next _ hcell htail =>
      have hne : b ≠ ssl := fun he => hno (he ▸ .head _)
      rw [findConnection, node_ok hcell]
      refine (if_pos hne).trans ((ih htail (fun hm => hno (.tail _ hm))
        (Nat.lt_of_succ_lt_succ hfuel)).trans ?_)
      rw [List.map_cons, List.getLast?_cons]
      cases (l₁.map Prod.fst).getLast? <;> rfl

/-- What the removal of a connection that is listed leaves. -/
structure Removed (m : Memory) (uid : Int32) (p : Nat) (l₁ l₂ : List (Nat × Ssl))
    (m' : Memory) : Prop where
  chain : Chain m'.nodes (m'.connections uid) (l₁ ++ l₂)
  freed : m'.nodes p = none
  nodes : ∀ q, q ≠ p → q ∉ l₁.map Prod.fst → m'.nodes q = m.nodes q
  connections : ∀ v, v ≠ uid → m'.connections v = m.connections v

theorem removeConnection_absent (h : Chain m.nodes (m.connections uid) l)
    (hno : ssl ∉ l.map Prod.snd) (hfuel : l.length < fuel) :
    m.removeConnection fuel uid ssl = .ok m := by
  obtain ⟨prev, hfind⟩ := findConnection_absent h hno hfuel
  rw [removeConnection, hfind]
  rfl

/-- `unlink` on the node and its predecessor, as the walk finds them. -/
theorem unlink_found (h : Chain m.nodes (m.connections uid) (l₁ ++ (p, ssl) :: l₂)) :
    ∃ m', m.unlink uid ((l₁.map Prod.fst).getLast?.or none) p = .ok m' ∧
      Removed m uid p l₁ l₂ m' := by
  rcases List.eq_nil_or_concat l₁ with rfl | ⟨l₀, ⟨a₀, b₀⟩, rfl⟩
  · obtain ⟨next, hcell, hchain⟩ := h.unlink_head
    refine ⟨⟨write m.nodes p none, Function.update m.connections uid next⟩, ?_, ?_, write_self ..,
      fun q hq _ => write_of_ne hq .., fun v hv => Function.update_of_ne hv ..⟩
    · show m.unlink uid none p = _
      rw [unlink, node_ok hcell]
      rfl
    · simpa using hchain
  · rw [List.concat_eq_append] at h ⊢
    rw [List.append_assoc] at h
    obtain ⟨before, hbefore, _⟩ := h.cell
    obtain ⟨next, hcell, hchain⟩ := h.unlink_next
    refine ⟨{ m with nodes := write (write m.nodes a₀ (some ⟨b₀, next⟩)) p none }, ?_, ?_,
      write_self .., fun q hq hq₀ => ?_, fun _ _ => rfl⟩
    · rw [List.map_append, List.getLast?_append]
      show m.unlink uid (some a₀) p = _
      rw [unlink, node_ok hcell]
      show (do let before ← m.node a₀; _) = _
      rw [node_ok hbefore]
      rfl
    · rw [List.append_assoc]
      exact hchain
    · refine (write_of_ne hq _ _).trans (write_of_ne ?_ _ _)
      rintro rfl
      exact hq₀ (by simp)

/-- The node with the connection is unlinked and freed. -/
theorem removeConnection_found (h : Chain m.nodes (m.connections uid) (l₁ ++ (p, ssl) :: l₂))
    (hno : ssl ∉ l₁.map Prod.snd) (hfuel : l₁.length < fuel) :
    ∃ m', m.removeConnection fuel uid ssl = .ok m' ∧ Removed m uid p l₁ l₂ m' := by
  obtain ⟨m', hm', hremoved⟩ := unlink_found h
  refine ⟨m', ?_, hremoved⟩
  rw [removeConnection, findConnection_found h hno hfuel]
  exact hm'

end Memory

/-! ## Where a connection is listed -/

/-- A list of nodes, with or without one of a connection. -/
theorem split_first (l : List (Nat × Ssl)) (ssl : Ssl) :
    ssl ∉ l.map Prod.snd ∨
      ∃ l₁ p l₂, l = l₁ ++ (p, ssl) :: l₂ ∧ ssl ∉ l₁.map Prod.snd := by
  by_cases hmem : ssl ∈ l.map Prod.snd
  · obtain ⟨ssls₁, ssls₂, hl, hno⟩ := List.eq_append_cons_of_mem hmem
    obtain ⟨l₁, l', rfl, rfl, hl'⟩ := List.map_eq_append_iff.mp hl
    obtain ⟨⟨p, c⟩, l₂, rfl, rfl, rfl⟩ := List.map_eq_cons_iff.mp hl'
    exact .inr ⟨l₁, p, l₂, rfl, hno⟩
  · exact .inl hmem

/-- The list without the first node of the connection is the list of connections
without the first of it. -/
theorem map_removed {l₁ l₂ : List (Nat × Ssl)} {p : Nat} {ssl : Ssl}
    (hno : ssl ∉ l₁.map Prod.snd) :
    (l₁ ++ l₂).map Prod.snd = ((l₁ ++ (p, ssl) :: l₂).map Prod.snd).erase ssl := by
  rw [List.map_append, List.map_append, List.map_cons, List.erase_append_right _ hno,
    List.erase_cons_head]

/-! ## The lists of a state -/

/-- The lists of the users, with the addresses of their nodes, are in memory,
each in nodes of its own. -/
structure LaidBy (layout : Int32 → List (Nat × Ssl)) (s : ServerState) (m : Memory) : Prop where
  chain : ∀ u ∈ s.users, Chain m.nodes (m.connections u.id) (layout u.id)
  lists : ∀ u ∈ s.users, (layout u.id).map Prod.snd = u.connections
  apart : ∀ u ∈ s.users, ∀ v ∈ s.users, u.id ≠ v.id →
    ∀ q ∈ (layout u.id).map Prod.fst, q ∉ (layout v.id).map Prod.fst

def Laid (s : ServerState) (m : Memory) : Prop := ∃ layout, LaidBy layout s m

variable {s t : ServerState} {m m' : Memory} {layout : Int32 → List (Nat × Ssl)}
  {user : ServerUser} {ssl : Ssl} {p fuel : Nat}

/-- One user's list changes, in its own nodes or new ones. -/
theorem LaidBy.update (h : LaidBy layout s m) (user : ServerUser) {l : List (Nat × Ssl)}
    (husers : ∀ v ∈ t.users, v.id ≠ user.id → v ∈ s.users)
    (hchain : Chain m'.nodes (m'.connections user.id) l)
    (hlist : ∀ v ∈ t.users, v.id = user.id → l.map Prod.snd = v.connections)
    (hconn : ∀ v, v ≠ user.id → m'.connections v = m.connections v)
    (hnodes : ∀ v ∈ s.users, v.id ≠ user.id → ∀ q ∈ (layout v.id).map Prod.fst,
      m'.nodes q = m.nodes q ∧ q ∉ l.map Prod.fst) :
    LaidBy (Function.update layout user.id l) t m' where
  chain v hv := by
    by_cases hid : v.id = user.id
    · rw [hid, Function.update_self]
      exact hchain
    · have hvs := husers v hv hid
      rw [Function.update_of_ne hid, hconn v.id hid]
      exact (h.chain v hvs).congr fun q hq => (hnodes v hvs hid q hq).1
  lists v hv := by
    by_cases hid : v.id = user.id
    · rw [hid, Function.update_self]
      exact hlist v hv hid
    · rw [Function.update_of_ne hid]
      exact h.lists v (husers v hv hid)
  apart v hv w hw hne := by
    by_cases hid : v.id = user.id
    · have hidw : w.id ≠ user.id := fun he => hne (hid.trans he.symm)
      rw [hid, Function.update_self, Function.update_of_ne hidw]
      exact fun q hq hq' => (hnodes w (husers w hw hidw) hidw q hq').2 hq
    · have hvs := husers v hv hid
      rw [Function.update_of_ne hid]
      by_cases hidw : w.id = user.id
      · rw [hidw, Function.update_self]
        exact fun q hq => (hnodes v hvs hid q hq).2
      · rw [Function.update_of_ne hidw]
        exact h.apart v hvs w (husers w hw hidw) hne

theorem LaidBy.sub (h : LaidBy layout s m) (hsub : ∀ u ∈ t.users, u ∈ s.users) :
    LaidBy layout t m :=
  ⟨fun u hu => h.chain u (hsub u hu), fun u hu => h.lists u (hsub u hu),
    fun u hu v hv => h.apart u (hsub u hu) v (hsub v hv)⟩

/-! ## The functions on the lists of a state -/

theorem laid_start (db : Database) (listener : Nat) (m : Memory) :
    Laid (ServerState.start db listener) m := by
  have hno : ∀ u, u ∉ (ServerState.start db listener).users := OrderedSet.not_mem_empty
  exact ⟨fun _ => [], fun u h => absurd h (hno u), fun u h => absurd h (hno u),
    fun u h => absurd h (hno u)⟩

/-- A first login makes a list of one. -/
theorem LaidBy.create_at (h : LaidBy layout s m) (hnew : ∀ v ∈ s.users, v.id ≠ user.id)
    (hconn : user.connections = [ssl]) (hp : m.nodes p = none) :
    LaidBy (Function.update layout user.id [(p, ssl)]) (s.addServerUser user)
      (m.create p user.id ssl) := by
  refine h.update user ?_ ?_ ?_ ?_ ?_
  · intro v hv hid
    rcases (mem_addServerUser hnew v).mp hv with ⟨hv, _⟩ | rfl
    · exact hv
    · exact absurd rfl hid
  · have hpush := (@Chain.nil _ _ m.nodes).push (a := p) List.not_mem_nil ssl
    simpa [Memory.create] using hpush
  · intro v hv hid
    rcases (mem_addServerUser hnew v).mp hv with ⟨_, hne⟩ | rfl
    · exact absurd hid hne
    · exact hconn.symm
  · exact fun v hv => Function.update_of_ne hv ..
  · intro v hv _ q hq
    have hne : q ≠ p := fun he => (h.chain v hv).not_mem hp (he ▸ hq)
    exact ⟨write_of_ne hne .., by simpa using hne⟩

theorem LaidBy.create (h : LaidBy layout s m) (hnew : ∀ v ∈ s.users, v.id ≠ user.id)
    (hconn : user.connections = [ssl]) (hp : m.nodes p = none) :
    Laid (s.addServerUser user) (m.create p user.id ssl) := ⟨_, h.create_at hnew hconn hp⟩

/-- Another login adds a node in front. -/
theorem LaidBy.addConnection_at (h : LaidBy layout s m) (huser : user ∈ s.users)
    (hp : m.nodes p = none) :
    LaidBy (Function.update layout user.id ((p, ssl) :: layout user.id)) (s.addConnection user ssl)
      (m.addConnection p user.id ssl) := by
  have hfree := (h.chain user huser).not_mem hp
  refine h.update user ?_ ?_ ?_ ?_ ?_
  · intro v hv hid
    rcases (mem_addConnection huser v).mp hv with ⟨hv, _⟩ | rfl
    · exact hv
    · exact absurd (ServerUser.addConnection_id _ _) hid
  · have hpush := (h.chain user huser).push hfree ssl
    simpa [Memory.addConnection] using hpush
  · intro v hv hid
    rcases (mem_addConnection huser v).mp hv with ⟨_, hne⟩ | rfl
    · exact absurd hid hne
    · rw [List.map_cons, h.lists user huser]
      rfl
  · exact fun v hv => Function.update_of_ne hv ..
  · intro v hv hid q hq
    have hne : q ≠ p := fun he => (h.chain v hv).not_mem hp (he ▸ hq)
    refine ⟨write_of_ne hne .., fun hmem => ?_⟩
    rcases List.mem_cons.mp hmem with rfl | hmem
    · exact hne rfl
    · exact h.apart v hv user huser hid q hq hmem

/-- A removal ends without a fault, whether the connection is listed or not,
and frees no node that stays in the list. -/
theorem LaidBy.removeConnection_at (h : LaidBy layout s m) (huser : user ∈ s.users)
    (hfuel : user.connections.length < fuel) (ssl : Ssl) :
    ∃ m' l, m.removeConnection fuel user.id ssl = .ok m' ∧
      LaidBy (Function.update layout user.id l) (s.removeConnection user ssl) m' ∧
      ∀ q, (m'.nodes q).isSome → (m.nodes q).isSome ∧
        (q ∈ (layout user.id).map Prod.fst → q ∈ l.map Prod.fst) := by
  have hlist := h.lists user huser
  have hother : ∀ v ∈ (s.removeConnection user ssl).users, v.id ≠ user.id → v ∈ s.users := by
    intro v hv hid
    rcases (mem_removeConnection huser v).mp hv with ⟨hv, _⟩ | rfl
    · exact hv
    · exact absurd (ServerUser.removeConnection_id _ _) hid
  have hself : ∀ v ∈ (s.removeConnection user ssl).users, v.id = user.id →
      user.connections.erase ssl = v.connections := by
    intro v hv hid
    rcases (mem_removeConnection huser v).mp hv with ⟨_, hne⟩ | rfl
    · exact absurd hid hne
    · exact (ServerUser.removeConnection_connections _ _).symm
  have hchain := h.chain user huser
  have hapart := fun v hv hid => h.apart v hv user huser hid
  rw [← hlist, List.length_map] at hfuel
  rw [← hlist] at hself
  generalize layout user.id = l at hchain hapart hfuel hself
  rcases split_first l ssl with hno | ⟨l₁, q, l₂, rfl, hno⟩
  · refine ⟨m, l, Memory.removeConnection_absent hchain hno hfuel,
      h.update user hother hchain ?_ (fun _ _ => rfl) ?_, fun q hq => ⟨hq, id⟩⟩
    · intro v hv hid
      rw [← hself v hv hid, List.erase_of_not_mem hno]
    · exact fun v hv hid a ha => ⟨rfl, hapart v hv hid a ha⟩
  · rw [List.length_append] at hfuel
    obtain ⟨m', hm', hremoved⟩ := Memory.removeConnection_found hchain hno
      (Nat.lt_of_le_of_lt (Nat.le_add_right _ _) hfuel)
    refine ⟨m', l₁ ++ l₂, hm', h.update user hother hremoved.chain ?_ hremoved.connections ?_, ?_⟩
    · intro v hv hid
      rw [← hself v hv hid, map_removed hno]
    · intro v hv hid a ha
      have hnot := hapart v hv hid a ha
      simp only [List.map_append, List.map_cons, List.mem_append, List.mem_cons, not_or] at hnot
      refine ⟨hremoved.nodes a hnot.2.1 hnot.1, ?_⟩
      rw [List.map_append, List.mem_append, not_or]
      exact ⟨hnot.1, hnot.2.2⟩
    · intro a ha
      have hne : a ≠ q := fun he => by
        rw [he, hremoved.freed] at ha
        cases ha
      have hwas : (m.nodes a).isSome := by
        by_cases hin : a ∈ l₁.map Prod.fst
        · exact hchain.isSome (by rw [List.map_append]; exact List.mem_append_left _ hin)
        · rwa [← hremoved.nodes a hne hin]
      refine ⟨hwas, fun hmem => ?_⟩
      simpa [hne] using hmem

/-! ## A memory for every state -/

/-- The address of the connection at `i`, if there is one. -/
def ServerUser.place (u : ServerUser) (i : Nat) : Option Nat :=
  if i < u.connections.length then some (Nat.pair u.id.toUInt32.toNat i) else none

def ServerUser.placed (u : ServerUser) (i : Nat) : List (Nat × Ssl) :=
  ((u.connections.drop i).zipIdx i).map fun (c, j) => (Nat.pair u.id.toUInt32.toNat j, c)

/-- The lists of a state, each connection at the address of its user's id and
its place in the list. -/
def Memory.ofState (s : ServerState) : Memory where
  nodes p := (s.getUserById (UInt32.ofNat p.unpair.1).toInt32).bind fun user =>
    (user.connections[p.unpair.2]?).map fun ssl => ⟨ssl, user.place (p.unpair.2 + 1)⟩
  connections uid := (s.getUserById uid).bind (·.place 0)

theorem ServerUser.mem_placed {u : ServerUser} {i q : Nat} (h : q ∈ (u.placed i).map Prod.fst) :
    ∃ j, q = Nat.pair u.id.toUInt32.toNat j := by
  rw [placed, List.map_map] at h
  obtain ⟨⟨_, j⟩, _, rfl⟩ := List.mem_map.mp h
  exact ⟨j, rfl⟩

theorem Memory.ofState_node {s : ServerState} {u : ServerUser} (hu : u ∈ s.users) (i : Nat) :
    (ofState s).nodes (Nat.pair u.id.toUInt32.toNat i) =
      (u.connections[i]?).map fun ssl => ⟨ssl, u.place (i + 1)⟩ := by
  have hid : (UInt32.ofNat u.id.toUInt32.toNat).toInt32 = u.id := by
    rw [UInt32.ofNat_toNat, Int32.toInt32_toUInt32]
  simp only [ofState, Nat.unpair_pair, hid, getUserById_eq_some.mpr ⟨hu, rfl⟩, Option.bind_some]

theorem Memory.chain_ofState {s : ServerState} {u : ServerUser} (hu : u ∈ s.users) (n i : Nat)
    (hn : u.connections.length - i = n) :
    Chain (ofState s).nodes (u.place i) (u.placed i) := by
  induction n generalizing i with
  | zero =>
    have hle : u.connections.length ≤ i := Nat.sub_eq_zero_iff_le.mp hn
    rw [ServerUser.place, if_neg (by omega), ServerUser.placed, List.drop_eq_nil_of_le hle]
    exact .nil
  | succ n ih =>
    have hlt : i < u.connections.length := by omega
    have hnode := ofState_node hu i
    rw [List.getElem?_eq_getElem hlt] at hnode
    rw [ServerUser.place, if_pos hlt, ServerUser.placed, List.drop_eq_getElem_cons hlt]
    exact .cons hnode (ih (i + 1) (by omega))

/-- The lists of every state are in some memory. -/
theorem laid_ofState (s : ServerState) : Laid s (Memory.ofState s) := by
  have hplaced : ∀ u ∈ s.users, (s.getUserById u.id).elim [] (·.placed 0) = u.placed 0 := by
    intro u hu
    rw [getUserById_eq_some.mpr ⟨hu, rfl⟩]
    rfl
  refine ⟨fun uid => (s.getUserById uid).elim [] (·.placed 0), ?_, ?_, ?_⟩
  · intro u hu
    have hhead : (Memory.ofState s).connections u.id = u.place 0 := by
      simp only [Memory.ofState, getUserById_eq_some.mpr ⟨hu, rfl⟩, Option.bind_some]
    rw [hplaced u hu, hhead]
    exact Memory.chain_ofState hu _ 0 rfl
  · intro u hu
    rw [hplaced u hu, ServerUser.placed, List.map_map]
    exact List.zipIdx_map_fst 0 u.connections
  · intro u hu v hv hne q hq hq'
    rw [hplaced u hu] at hq
    rw [hplaced v hv] at hq'
    obtain ⟨i, rfl⟩ := ServerUser.mem_placed hq
    obtain ⟨j, hj⟩ := ServerUser.mem_placed hq'
    have hid := UInt32.toNat_inj.mp (Nat.pair_eq_pair.mp hj).1
    exact hne (by simpa only [Int32.toInt32_toUInt32] using congrArg UInt32.toInt32 hid)

end VhIM.Server
