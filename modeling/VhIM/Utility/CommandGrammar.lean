import VhIM.Utility.CommandParser

/-! # The grammar of commands

What each keyword takes, as a table, and what the parser should do with the
words of a line. The parser makes exactly the call the grammar gives. -/
namespace VhIM.Utility
open VhIM.Network VhIM.Lib.Words

/-- The words a keyword takes. -/
inductive Arity where
  | none
  | one
  | two
  /-- Up to two, with NULL for a missing one. -/
  | optional
  deriving DecidableEq

/-- The argument vector made of the words that follow, when they suffice. -/
def Arity.argv : Arity → List (List UInt8) → Option (Option (List (Option (List UInt8))))
  | .none, _ => some .none
  | .one, w :: _ => some (some [some w])
  | .two, w :: w' :: _ => some (some [some w, some w'])
  | .optional, ws => some (some [ws[0]?, ws[1]?])
  | _, _ => .none

structure Usage where
  keyword : List UInt8
  code : Int32
  arity : Arity

def usages : List Usage :=
  [⟨text "kick", MsgType.cmdKickId.code, .one⟩,
   ⟨text "w", MsgType.whisper.code, .two⟩,
   ⟨text "register", MsgType.reqRegister.code, .two⟩,
   ⟨text "login", MsgType.reqLogin.code, .two⟩,
   ⟨text "logout", MsgType.logout.code, .none⟩,
   ⟨text "who", MsgType.who.code, .none⟩,
   ⟨text "friends", MsgType.friends.code, .none⟩,
   ⟨text "help", cmdHelp, .none⟩,
   ⟨text "connect", cmdConnect, .optional⟩,
   ⟨text "disconnect", cmdDisconnect, .none⟩,
   ⟨text "dc", cmdDisconnect, .none⟩,
   ⟨text "grant", MsgType.grantPrivileges.code, .two⟩,
   ⟨text "fadd", MsgType.addFriend.code, .one⟩,
   ⟨text "fremove", MsgType.removeFriend.code, .one⟩,
   ⟨text "gcreate", MsgType.groupCreate.code, .one⟩,
   ⟨text "gdelete", MsgType.groupDelete.code, .one⟩]

/-- The call that a keyword and the words after it stand for, if they are a
command. -/
def commandOf (keyword : List UInt8) (args : List (List UInt8)) : Option ExecCall :=
  (usages.find? (·.keyword = keyword)).bind fun u => (u.arity.argv args).map (⟨u.code, ·⟩)

/-- What `process_command` should do with the words of a line. -/
def processWords : List (List UInt8) → Processed
  | [] => ⟨[], 4⟩
  | keyword :: args =>
    match commandOf keyword args with
    | some call => ⟨[call], -1⟩
    | none => ⟨[⟨cmdInvalid, none⟩], 2⟩

def Arity.branch (a : Arity) (code : Int32) (cmd : List UInt8) : Processed :=
  match a with
  | .none => noWord code
  | .one => oneWord code cmd
  | .two => twoWords code cmd
  | .optional => hostAndPort code cmd

/-- The branch taken in a table of commands. -/
def branchIn (us : List Usage) (type cmd : List UInt8) : Processed :=
  match us.find? (·.keyword = type) with
  | some u => u.arity.branch u.code cmd
  | none => ⟨[], 2⟩

theorem branchIn_cons (u : Usage) (us : List Usage) (type cmd : List UInt8) :
    branchIn (u :: us) type cmd =
      if type = u.keyword then u.arity.branch u.code cmd else branchIn us type cmd := by
  unfold branchIn
  by_cases h : type = u.keyword
  · rw [List.find?_cons_of_pos (by simpa using h.symm), if_pos h]
  · rw [List.find?_cons_of_neg (by simpa using Ne.symm h), if_neg h]

/-- The chain of `strcmp` walks through the table. -/
theorem branchOf_eq (type cmd : List UInt8) : branchOf type cmd = branchIn usages type cmd := by
  unfold branchOf usages
  simp only [branchIn_cons, Arity.branch, ite_or]
  rfl

/-- A branch makes the call of the grammar, or none and asks for the invalid
one. -/
theorem branch_spec {cmd : List UInt8} (hsize : cmd.length < 2 ^ 31) (a : Arity) (code : Int32) :
    a.branch code cmd =
      match a.argv (words space cmd) with
      | some argv => ⟨[⟨code, argv⟩], -1⟩
      | none => ⟨[], 2⟩ := by
  cases hw : words space cmd with
  | nil =>
    have hnext := nextWord_nil hw
    cases a <;> simp [Arity.branch, noWord, oneWord, twoWords, hostAndPort, hnext, Arity.argv]
  | cons w ws =>
    obtain ⟨gap, rest, hcmd, _, hrest, hne, hnext⟩ := nextWord_cons hsize hw
    have hsize' : rest.length < 2 ^ 31 := by
      have := congrArg List.length hcmd
      simp only [List.length_append] at this
      omega
    cases ws with
    | nil =>
      have hnext' := nextWord_nil hrest
      cases a <;> simp [Arity.branch, noWord, oneWord, twoWords, hostAndPort, hnext, hne, hnext',
        Arity.argv]
    | cons w' ws =>
      obtain ⟨_, rest', _, _, _, hne', hnext'⟩ := nextWord_cons hsize' hrest
      cases a <;> simp [Arity.branch, noWord, oneWord, twoWords, hostAndPort, hnext, hne, hnext',
        hne', Arity.argv]

/-- The calls and the result after the check of `ret`. -/
theorem finish_branch {cmd : List UInt8} (hsize : cmd.length < 2 ^ 31) (type : List UInt8) :
    (let p := branchOf type cmd
     if p.ret = 2 then { p with calls := p.calls ++ [⟨cmdInvalid, none⟩] } else p) =
      processWords (type :: words space cmd) := by
  simp only [branchOf_eq, branchIn, processWords, commandOf]
  cases usages.find? (·.keyword = type) with
  | none => rfl
  | some u =>
    simp only [branch_spec hsize, Option.bind_some]
    cases u.arity.argv (words space cmd) with
    | none => rfl
    | some argv => rfl

/-- `next_word` returns the next word and leaves the cursor right after it. -/
def ReadsNext (cmd : List UInt8) : Prop :=
  match words space cmd with
  | [] => nextWord cmd = (0, none, cmd)
  | w :: ws => ∃ gap rest, cmd = gap ++ w ++ rest ∧ (∀ c ∈ gap, c = space) ∧
      words space rest = ws ∧ nextWord cmd = (Int32.ofNat w.length, some w, rest)

theorem readsNext {cmd : List UInt8} (hsize : cmd.length < 2 ^ 31) : ReadsNext cmd := by
  unfold ReadsNext
  split
  · next hw => exact nextWord_nil hw
  · next w ws hw =>
    obtain ⟨gap, rest, hcmd, hgap, hrest, _, hnext⟩ := nextWord_cons hsize hw
    exact ⟨gap, rest, hcmd, hgap, hrest, hnext⟩

/-- The words of a line, from the first on, are processed. -/
theorem processCommand_words {line : List UInt8} (hsize : line.length < 2 ^ 31) :
    processCommand (47 :: line) = some (processWords (words space line)) := by
  unfold processCommand
  rw [List.drop_one, List.tail_cons]
  cases hw : words space line with
  | nil => rw [nextWord_nil hw]; rfl
  | cons type args =>
    obtain ⟨gap, rest, hline, _, hrest, hne, hnext⟩ := nextWord_cons hsize hw
    have hsize' : rest.length < 2 ^ 31 := by
      have := congrArg List.length hline
      simp only [List.length_append] at this
      omega
    rw [hnext, ← hrest, ← finish_branch hsize']
    exact if_neg hne

/-- The parser makes the call of the grammar and no other, and from any cursor
into the line the next word is read. -/
theorem processCommand_exact {line : List UInt8} (hsize : line.length < 2 ^ 31) :
    (∀ cmd, cmd <:+ line → ReadsNext cmd) ∧
      processCommand (47 :: line) = some (processWords (words space line)) :=
  ⟨fun _ hcmd => readsNext (hcmd.length_le.trans_lt hsize), processCommand_words hsize⟩

/-- A whisper whose text is cut at the second space, and spaces that do not
count. -/
theorem processCommand_whisper :
    processCommand (47 :: text " w  12 hello you ") =
      some ⟨[⟨MsgType.whisper.code, some [some (text "12"), some (text "hello")]⟩], -1⟩ := by
  rw [(processCommand_exact (by decide)).2]
  decide

end VhIM.Utility
