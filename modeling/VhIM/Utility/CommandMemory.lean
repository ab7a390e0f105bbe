import VhIM.Utility.CommandGrammar

/-! # The blocks of the parser

`process_command` with the variables that `next_word` writes to and the calls
of `free`. A variable that was declared without a value can be passed to
`next_word`, which leaves it alone if there is no word. -/
namespace VhIM.Utility
open VhIM.Network VhIM.Lib.Words

inductive Pointer where
  | unassigned
  | null
  /-- A block of `next_word`, and the word in it. -/
  | block (p : Nat) (word : List UInt8)
  deriving DecidableEq

structure Blocks where
  /-- Those that were not freed yet. -/
  live : List Nat
  /-- How many there were. -/
  allocated : Nat
  deriving DecidableEq

inductive PointerFault where
  /-- A variable is used that was never assigned. -/
  | unassigned
  /-- A block is used that was freed. -/
  | freed
  deriving DecidableEq

abbrev Alloc := StateT Blocks (Except PointerFault)

namespace CommandMemory

/-! ## The source -/

def malloc (word : List UInt8) : Alloc Pointer := fun h =>
  .ok (.block h.allocated word, ⟨h.allocated :: h.live, h.allocated + 1⟩)

def free (v : Pointer) : Alloc Unit := fun h =>
  match v with
  | .unassigned => .error .unassigned
  | .null => .ok ((), h)
  | .block p _ => if p ∈ h.live then .ok ((), { h with live := h.live.erase p }) else .error .freed

def deref (v : Pointer) : Alloc (Option (List UInt8)) := fun h =>
  match v with
  | .unassigned => .error .unassigned
  | .null => .ok (none, h)
  | .block p word => if p ∈ h.live then .ok (some word, h) else .error .freed

/-- `next_word(&cmd, &out)`: the length, and both variables after it. -/
def nextWordTo (cmd : List UInt8) (out : Pointer) : Alloc (Int32 × Pointer × List UInt8) :=
  match nextWord cmd with
  | (len, some word, cmd) => do
    let out ← malloc word
    return (len, out, cmd)
  | (len, none, cmd) => return (len, out, cmd)

/-- `exec_cmd(type, a)`, which reads the texts. -/
def execCmd (type : Int32) (a : List Pointer) : Alloc Processed := do
  let argv ← a.mapM deref
  return ⟨[⟨type, some argv⟩], -1⟩

def oneWord (type : Int32) (cmd : List UInt8) : Alloc Processed := do
  let (len, user, _) ← nextWordTo cmd .null
  let p ← if len ≠ 0 then execCmd type [user] else pure ⟨[], 2⟩
  free user
  return p

/-- The branches that read two words; `declared` is what both variables hold
before. -/
def twoWords (declared : Pointer) (type : Int32) (cmd : List UInt8) : Alloc Processed := do
  let (len, user, cmd) ← nextWordTo cmd declared
  let p ← if len ≠ 0 then do
      let (len, txt, _) ← nextWordTo cmd declared
      let p ← if len ≠ 0 then execCmd type [user, txt] else pure ⟨[], 2⟩
      free txt
      pure p
    else pure ⟨[], 2⟩
  free user
  return p

/-- `if (v) free(v);`. -/
def freeIfSet (v : Pointer) : Alloc Unit :=
  match v with
  | .null => pure ()
  | v => free v

def hostAndPort (type : Int32) (cmd : List UInt8) : Alloc Processed := do
  let (len, host, cmd) ← nextWordTo cmd .null
  let port ← if len ≠ 0 then do
      let (_, port, _) ← nextWordTo cmd .null
      pure port
    else pure .null
  let p ← execCmd type [host, port]
  freeIfSet host
  freeIfSet port
  return p

/-- The branch of the first word. That of `grant` declares its variables
without a value. -/
def branchOf (type cmd : List UInt8) : Alloc Processed :=
  if type = text "kick" then oneWord MsgType.cmdKickId.code cmd
  else if type = text "w" then twoWords .null MsgType.whisper.code cmd
  else if type = text "register" then twoWords .null MsgType.reqRegister.code cmd
  else if type = text "login" then twoWords .null MsgType.reqLogin.code cmd
  else if type = text "logout" then return noWord MsgType.logout.code
  else if type = text "who" then return noWord MsgType.who.code
  else if type = text "friends" then return noWord MsgType.friends.code
  else if type = text "help" then return noWord cmdHelp
  else if type = text "connect" then hostAndPort cmdConnect cmd
  else if type = text "disconnect" ∨ type = text "dc" then return noWord cmdDisconnect
  else if type = text "grant" then twoWords .unassigned MsgType.grantPrivileges.code cmd
  else if type = text "fadd" then oneWord MsgType.addFriend.code cmd
  else if type = text "fremove" then oneWord MsgType.removeFriend.code cmd
  else if type = text "gcreate" then oneWord MsgType.groupCreate.code cmd
  else if type = text "gdelete" then oneWord MsgType.groupDelete.code cmd
  else return ⟨[], 2⟩

/-- `process_command`; `none` when `strcmp` is given a NULL. -/
def processCommand (inputBuffer : List UInt8) : Alloc (Option Processed) := do
  let (len, type, cmd) ← nextWordTo (inputBuffer.drop 1) .null
  if len = 0 then return some ⟨[], 4⟩
  else
    match ← deref type with
    | none => return none
    | some keyword =>
      let p ← branchOf keyword cmd
      let p := if p.ret = 2 then { p with calls := p.calls ++ [⟨cmdInvalid, none⟩] } else p
      free type
      return some p

/-- Every pointer that is freed is NULL or a block of this call that was not
freed before, and in the end all blocks were. -/
def FreesOwned (inputBuffer : List UInt8) : Prop :=
  ∃ p blocks, processCommand inputBuffer ⟨[], 0⟩ = .ok (p, blocks) ∧ blocks.live = []

/-! ## One word after another -/

/-- A program that frees what it allocates, and computes `a`. -/
def Tidy {α : Type} (m : Alloc α) (a : α) : Prop :=
  ∀ h, ∃ n, m h = .ok (a, ⟨h.live, n⟩)

theorem Tidy.pure {α : Type} (a : α) : Tidy (pure a) a := fun h => ⟨h.allocated, rfl⟩

theorem Tidy.ite {α : Type} {c : Prop} [Decidable c] {m m' : Alloc α} {a a' : α}
    (h : c → Tidy m a) (h' : ¬ c → Tidy m' a') :
    Tidy (if c then m else m') (if c then a else a') := by
  split
  · next hc => exact h hc
  · next hc => exact h' hc

@[simp] theorem pure_apply {α : Type} (a : α) (h : Blocks) :
    (Pure.pure a : Alloc α) h = .ok (a, h) := rfl

@[simp] theorem bind_apply {α β : Type} (m : Alloc α) (f : α → Alloc β) (h : Blocks) :
    (m >>= f) h = (m h).bind fun p => f p.1 p.2 := rfl

@[simp] theorem map_apply {α β : Type} (f : α → β) (m : Alloc α) (h : Blocks) :
    (f <$> m) h = (m h).bind fun p => .ok (f p.1, p.2) := rfl

@[simp] theorem ok_bind {α β : Type} (a : α) (f : α → Except PointerFault β) :
    (Except.ok a).bind f = f a := rfl

/-- The block allocated last can be read. -/
theorem deref_fresh (h : Blocks) (word : List UInt8) :
    deref (.block h.allocated word) ⟨h.allocated :: h.live, h.allocated + 1⟩ =
      .ok (some word, ⟨h.allocated :: h.live, h.allocated + 1⟩) := by
  simp [deref]

theorem bind_ok {α β : Type} {m : Alloc α} {f : α → Alloc β} {h h' : Blocks} {a : α}
    (hm : m h = .ok (a, h')) : (m >>= f) h = f a h' := by
  show Except.bind (m h) _ = _
  rw [hm]
  rfl

theorem bind_error {α β : Type} {m : Alloc α} {f : α → Alloc β} {h : Blocks} {e : PointerFault}
    (hm : m h = .error e) : (m >>= f) h = .error e := by
  show Except.bind (m h) _ = _
  rw [hm]
  rfl

variable {cmd : List UInt8}

theorem nextWordTo_nil (hw : words space cmd = []) (out : Pointer) (h : Blocks) :
    nextWordTo cmd out h = .ok ((0, out, cmd), h) := by
  rw [nextWordTo, nextWord_nil hw]
  rfl

theorem nextWordTo_cons (hsize : cmd.length < 2 ^ 31) {w : List UInt8} {ws : List (List UInt8)}
    (hw : words space cmd = w :: ws) : ∃ len rest, len ≠ 0 ∧ words space rest = ws ∧
      rest.length < 2 ^ 31 ∧ nextWord cmd = (len, some w, rest) ∧
      ∀ out h, nextWordTo cmd out h =
        .ok ((len, .block h.allocated w, rest), ⟨h.allocated :: h.live, h.allocated + 1⟩) := by
  obtain ⟨gap, rest, hcmd, _, hrest, hne, hnext⟩ := nextWord_cons hsize hw
  have hlen : rest.length < 2 ^ 31 := by
    have := congrArg List.length hcmd
    simp only [List.length_append] at this
    omega
  refine ⟨_, rest, hne, hrest, hlen, hnext, fun out h => ?_⟩
  rw [nextWordTo, hnext]
  rfl

/-! ## The branches -/

theorem oneWord_tidy (hsize : cmd.length < 2 ^ 31) (type : Int32) :
    Tidy (oneWord type cmd) (Utility.oneWord type cmd) := by
  intro h
  cases hw : words space cmd with
  | nil =>
    refine ⟨h.allocated, ?_⟩
    rw [oneWord, bind_ok (nextWordTo_nil hw _ h), Utility.oneWord, nextWord_nil hw]
    rfl
  | cons w ws =>
    obtain ⟨len, rest, hlen, _, _, hnext, hto⟩ := nextWordTo_cons hsize hw
    refine ⟨h.allocated + 1, ?_⟩
    rw [oneWord, bind_ok (hto _ h), Utility.oneWord, hnext]
    simp [hlen, execCmd, deref, free]

/-- With two words, or variables that are NULL without them. -/
theorem twoWords_tidy (hsize : cmd.length < 2 ^ 31) {declared : Pointer}
    (hdeclared : declared = .null ∨ 2 ≤ (words space cmd).length) (type : Int32) :
    Tidy (twoWords declared type cmd) (Utility.twoWords type cmd) := by
  intro h
  cases hw : words space cmd with
  | nil =>
    have hnull : declared = .null := by simpa [hw] using hdeclared
    refine ⟨h.allocated, ?_⟩
    rw [hnull, twoWords, bind_ok (nextWordTo_nil hw _ h), Utility.twoWords, nextWord_nil hw]
    rfl
  | cons w ws =>
    obtain ⟨len, rest, hlen, hws, hrest, hnext, hto⟩ := nextWordTo_cons hsize hw
    rw [twoWords, bind_ok (hto _ h), Utility.twoWords, hnext]
    cases ws with
    | nil =>
      have hnull : declared = .null := by simpa [hw] using hdeclared
      refine ⟨h.allocated + 1, ?_⟩
      simp only [if_pos hlen, nextWord_nil hws, hnull]
      rw [bind_ok (nextWordTo_nil hws _ _)]
      simp [free]
    | cons w' ws =>
      obtain ⟨len', rest', hlen', _, _, hnext', hto'⟩ := nextWordTo_cons hrest hws
      refine ⟨h.allocated + 1 + 1, ?_⟩
      simp only [if_pos hlen, hnext']
      rw [bind_ok (hto' _ _)]
      simp [hlen', execCmd, deref, free]

/-- Else a variable without a value is freed. -/
theorem twoWords_faults (hsize : cmd.length < 2 ^ 31) (hfew : (words space cmd).length < 2)
    (type : Int32) (h : Blocks) : twoWords .unassigned type cmd h = .error .unassigned := by
  cases hw : words space cmd with
  | nil =>
    rw [twoWords, bind_ok (nextWordTo_nil hw _ h)]
    rfl
  | cons w ws =>
    obtain ⟨len, rest, hlen, hws, _, _, hto⟩ := nextWordTo_cons hsize hw
    have hnil : ws = [] := by
      rw [hw] at hfew
      exact List.eq_nil_of_length_eq_zero (by simpa using hfew)
    rw [hnil] at hws
    rw [twoWords, bind_ok (hto _ h)]
    simp only [if_pos hlen]
    rw [bind_ok (nextWordTo_nil hws _ _)]
    rfl

theorem hostAndPort_tidy (hsize : cmd.length < 2 ^ 31) (type : Int32) :
    Tidy (hostAndPort type cmd) (Utility.hostAndPort type cmd) := by
  intro h
  cases hw : words space cmd with
  | nil =>
    refine ⟨h.allocated, ?_⟩
    rw [hostAndPort, bind_ok (nextWordTo_nil hw _ h), Utility.hostAndPort, nextWord_nil hw]
    rfl
  | cons w ws =>
    obtain ⟨len, rest, hlen, hws, hrest, hnext, hto⟩ := nextWordTo_cons hsize hw
    rw [hostAndPort, bind_ok (hto _ h), Utility.hostAndPort, hnext]
    cases ws with
    | nil =>
      refine ⟨h.allocated + 1, ?_⟩
      simp only [if_pos hlen, nextWord_nil hws]
      rw [bind_ok (nextWordTo_nil hws _ _)]
      simp [execCmd, deref, free, freeIfSet]
    | cons w' ws =>
      obtain ⟨len', rest', hlen', _, _, hnext', hto'⟩ := nextWordTo_cons hrest hws
      refine ⟨h.allocated + 1 + 1, ?_⟩
      simp only [if_pos hlen, hnext']
      rw [bind_ok (hto' _ _)]
      simp [execCmd, deref, free, freeIfSet]

/-- Every branch but one frees what it allocates, on every number of words. -/
theorem branchOf_tidy (type : List UInt8) (hsize : cmd.length < 2 ^ 31)
    (hgrant : type = text "grant" → 2 ≤ (words space cmd).length) :
    Tidy (branchOf type cmd) (Utility.branchOf type cmd) := by
  have hone := fun code => oneWord_tidy hsize code
  have htwo := fun code => twoWords_tidy hsize (.inl rfl) code
  unfold branchOf Utility.branchOf
  refine .ite (fun _ => hone _) fun _ => .ite (fun _ => htwo _) fun _ =>
    .ite (fun _ => htwo _) fun _ => .ite (fun _ => htwo _) fun _ =>
    .ite (fun _ => .pure _) fun _ => .ite (fun _ => .pure _) fun _ =>
    .ite (fun _ => .pure _) fun _ => .ite (fun _ => .pure _) fun _ =>
    .ite (fun _ => hostAndPort_tidy hsize _) fun _ => .ite (fun _ => .pure _) fun _ =>
    .ite (fun hg => twoWords_tidy hsize (.inr (hgrant hg)) _) fun _ =>
    .ite (fun _ => hone _) fun _ => .ite (fun _ => hone _) fun _ =>
    .ite (fun _ => hone _) fun _ => .ite (fun _ => hone _) fun _ => .pure _

/-! ## Whole lines -/

variable {c : UInt8} {line : List UInt8}

/-- On a line whose branch is tidy, the calls are those of the parser without
pointers. -/
theorem processCommand_tidy (hsize : line.length < 2 ^ 31)
    (hgrant : ∀ args, words space line = text "grant" :: args → 2 ≤ args.length) :
    Tidy (processCommand (c :: line)) (Utility.processCommand (c :: line)) := by
  intro h
  cases hw : words space line with
  | nil =>
    refine ⟨h.allocated, ?_⟩
    rw [processCommand, List.drop_one, List.tail_cons, bind_ok (nextWordTo_nil hw _ h),
      Utility.processCommand, List.drop_one, List.tail_cons, nextWord_nil hw]
    rfl
  | cons type args =>
    obtain ⟨len, rest, hlen, hrest, hsize', hnext, hto⟩ := nextWordTo_cons hsize hw
    have htidy := branchOf_tidy type hsize' fun ht => by
      rw [hrest]
      exact hgrant args (ht ▸ hw)
    obtain ⟨n, hn⟩ := htidy ⟨h.allocated :: h.live, h.allocated + 1⟩
    refine ⟨n, ?_⟩
    rw [processCommand, List.drop_one, List.tail_cons, bind_ok (hto _ h), Utility.processCommand,
      List.drop_one, List.tail_cons, hnext]
    simp only [if_neg hlen]
    rw [bind_ok (deref_fresh h type)]
    dsimp only
    rw [bind_ok hn]
    simp [free]

/-- And on a `grant` with fewer than two words it frees what it does not have. -/
theorem processCommand_faults (hsize : line.length < 2 ^ 31) {args : List (List UInt8)}
    (hw : words space line = text "grant" :: args) (hfew : args.length < 2) (h : Blocks) :
    processCommand (c :: line) h = .error .unassigned := by
  obtain ⟨len, rest, hlen, hrest, hsize', _, hto⟩ := nextWordTo_cons hsize hw
  rw [processCommand, List.drop_one, List.tail_cons, bind_ok (hto _ h)]
  simp only [if_neg hlen]
  rw [bind_ok (deref_fresh h (text "grant"))]
  dsimp only
  have hbranch : branchOf (text "grant") rest =
      twoWords .unassigned MsgType.grantPrivileges.code rest := rfl
  rw [hbranch]
  exact bind_error (twoWords_faults hsize' (by rw [hrest]; exact hfew) _ _)

/-- The parser frees what it owns, all of it and nothing else, exactly if the
line is not a `grant` with fewer than two words after it. -/
theorem frees_owned_iff (hsize : line.length < 2 ^ 31) :
    FreesOwned (c :: line) ↔
      ¬ ∃ args, words space line = text "grant" :: args ∧ args.length < 2 := by
  constructor
  · rintro ⟨p, blocks, hrun, _⟩ ⟨args, hw, hfew⟩
    rw [processCommand_faults hsize hw hfew] at hrun
    cases hrun
  · intro h
    obtain ⟨n, hn⟩ := processCommand_tidy hsize
      (fun args hw => not_lt.mp fun hfew => h ⟨args, hw, hfew⟩) ⟨[], 0⟩
    exact ⟨_, _, hn, rfl⟩

theorem frees_owned_iff_grant : FreesOwned (47 :: text "grant 7 8") :=
  (frees_owned_iff (by decide)).mpr fun ⟨args, hw, hfew⟩ => by
    have hwords : words space (text "grant 7 8") = [text "grant", text "7", text "8"] := by decide
    rw [hwords] at hw
    cases hw
    exact absurd hfew (by decide)

theorem grant_frees_unassigned : ¬ ∀ inputBuffer : List UInt8, FreesOwned inputBuffer := by
  intro h
  obtain ⟨p, blocks, hrun, _⟩ := h (text "/grant")
  have hfault : processCommand (text "/grant") ⟨[], 0⟩ = .error .unassigned := by rfl
  rw [hfault] at hrun
  cases hrun

end CommandMemory
end VhIM.Utility
