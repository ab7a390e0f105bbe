import VhIM.Client.Requests
import VhIM.Utility.CommandGrammar

/-! # Input lines

`read_line`, and what `process_input` and `execute_command` of
`client_ui_cons.c` make of a line: which function of `client.c` they call, if
any. -/
namespace VhIM.Client
open VhIM.Network VhIM.Utility VhIM.Lib.Words

/-! ## Reading a line -/

def isSpace (c : UInt8) : Bool := c = 32 || (9 ≤ c && c ≤ 13)

def newline : UInt8 := 10

/-- `read_line`: the characters left in `str`, out of what is typed. -/
def readLine (n : Nat) (typed : List UInt8) : List UInt8 :=
  ((typed.dropWhile isSpace).takeWhile (· ≠ newline)).take n

/-- The parser is given lines that an `int` can measure. -/
theorem readLine_length (n : Nat) (typed : List UInt8) : (readLine n typed).length ≤ n :=
  List.length_take_le _ _

/-- A buffer as a text: up to its first NUL. -/
def upToNul (s : List UInt8) : List UInt8 := s.takeWhile (· ≠ 0)

theorem upToNul_eq {s : List UInt8} (h : 0 ∉ s) : upToNul s = s := by
  refine List.takeWhile_eq_self_iff.mpr fun b hb => ?_
  simpa using ne_of_mem_of_not_mem hb h

/-! ## Numbers -/

def isDecimalNumber (s : List UInt8) : Bool := s.all fun c => 48 ≤ c && c ≤ 57

/-- `atoi` of digits: a `long`, at most the largest, cut down to an `int`. -/
def atoi (s : List UInt8) : Int32 :=
  Int32.ofNat (min (s.foldl (fun value c => 10 * value + (c.toNat - 48)) 0) (2 ^ 63 - 1))

/-! ## Commands -/

inductive Action where
  /-- A `cl_exec_` function that sends without asking for a connection. -/
  | request (r : Request)
  /-- A text, which is broadcast if there is a connection. -/
  | say (msg : List UInt8)
  | connect (host : Option (List UInt8)) (port : Int32)
  | disconnect
  | nothing
  deriving DecidableEq

/-- `argv[i]`, where there has to be a text. -/
def argument (argv : Option (List (Option (List UInt8)))) (i : Nat) : Option (List UInt8) :=
  argv.bind fun args => (args[i]?).join

section
variable (portDefault : Int32)

/-- `execute_command`: what it does, and what it returns. `none` stands for a
read of an argument that is not there. -/
def executeCommand (c : ExecCall) : Option (Action × Int32) :=
  match MsgType.ofCode c.type with
  | some .cmdKickId => do
    let uid ← argument c.argv 0
    if !isDecimalNumber uid then return (.nothing, 3)
    else return (.request (.kick (atoi uid)), 0)
  | some .whisper => do
    let uid ← argument c.argv 0
    if !isDecimalNumber uid then return (.nothing, 3)
    else
      let msg ← argument c.argv 1
      return (.request (.whisper (atoi uid) msg), 0)
  | some .reqRegister => do
    let name ← argument c.argv 0
    let pw ← argument c.argv 1
    return (.request (.reqRegister name pw), 0)
  | some .reqLogin => do
    let name ← argument c.argv 0
    let pw ← argument c.argv 1
    return (.request (.reqLogin name pw), 0)
  | some .logout => some (.request .logout, 0)
  | some .who => some (.request .who, 0)
  | some .friends => some (.request .friends, 0)
  | some .grantPrivileges => do
    let uid ← argument c.argv 0
    let lvl ← argument c.argv 1
    if isDecimalNumber uid && isDecimalNumber lvl then
      return (.request (.grantPrivileges (atoi uid) (atoi lvl)), 0)
    else return (.nothing, 0)
  | some .addFriend => do
    let uid ← argument c.argv 0
    if isDecimalNumber uid then return (.request (.addFriend (atoi uid)), 0)
    else return (.nothing, 0)
  | some .removeFriend => do
    let uid ← argument c.argv 0
    if isDecimalNumber uid then return (.request (.removeFriend (atoi uid)), 0)
    else return (.nothing, 0)
  | some .groupCreate => do
    let name ← argument c.argv 0
    return (.request (.groupCreate name), 0)
  | some .groupDelete => do
    let _ ← argument c.argv 0
    -- `cl_exec_group_delete` does nothing
    return (.nothing, 0)
  | _ =>
    if c.type = cmdConnect then do
      let args ← c.argv
      let host ← args[0]?
      let port ← args[1]?
      match port with
      | some port =>
        if !isDecimalNumber port then return (.nothing, 3)
        else return (.connect host (atoi port), 0)
      | none => return (.connect host portDefault, 0)
    else if c.type = cmdDisconnect then some (.disconnect, 0)
    else if c.type = cmdHelp then some (.nothing, 0)
    else some (.nothing, 1)

/-- The body of the loop of `process_input`, given what is in `input_buffer`. -/
def processInput (inputBuffer : List UInt8) : Option Action :=
  match inputBuffer with
  | [] => some .nothing
  | c :: _ =>
    if c = 47 then do
      let p ← processCommand (upToNul inputBuffer)
      match p.calls with
      | [] => return .nothing
      | call :: _ =>
        let (action, _) ← executeCommand portDefault call
        return action
    else some (.say (upToNul inputBuffer))

end

/-! ## Arguments -/

/-- What a vector of each arity looks like. -/
theorem argv_shape {a : Arity} {args : List (List UInt8)}
    {argv : Option (List (Option (List UInt8)))} (h : a.argv args = some argv) :
    match a with
    | .none => argv = none
    | .one => ∃ w, argv = some [some w]
    | .two => ∃ w w', argv = some [some w, some w']
    | .optional => ∃ host port, argv = some [host, port] := by
  cases a with
  | none => exact (Option.some.inj h).symm
  | one =>
    cases args with
    | nil => cases h
    | cons w _ => exact ⟨w, (Option.some.inj h).symm⟩
  | two =>
    match args, h with
    | w :: w' :: _, h => exact ⟨w, w', (Option.some.inj h).symm⟩
  | optional => exact ⟨args[0]?, args[1]?, (Option.some.inj h).symm⟩

theorem executeCommand_connect (portDefault : Int32) (host port : Option (List UInt8)) :
    (executeCommand portDefault ⟨cmdConnect, some [host, port]⟩).isSome := by
  have htype : MsgType.ofCode cmdConnect = none := rfl
  cases port <;> simp [executeCommand, htype, apply_ite Option.isSome]

/-- Each command is given the arguments it reads. -/
theorem executeCommand_isSome (portDefault : Int32) {u : Usage} (hu : u ∈ usages)
    {args : List (List UInt8)} {argv : Option (List (Option (List UInt8)))}
    (h : u.arity.argv args = some argv) : (executeCommand portDefault ⟨u.code, argv⟩).isSome := by
  have hshape := argv_shape h
  simp only [usages, List.mem_cons, List.not_mem_nil, or_false] at hu
  rcases hu with rfl | rfl | rfl | rfl | rfl | rfl | rfl | rfl | rfl | rfl | rfl | rfl | rfl | rfl |
    rfl | rfl
  all_goals dsimp only at hshape
  all_goals first
    | subst hshape
    | obtain ⟨w, rfl⟩ := hshape
    | obtain ⟨w, w', rfl⟩ := hshape
  all_goals first
    | rfl
    | exact executeCommand_connect portDefault _ _
    | simp [executeCommand, argument, apply_ite Option.isSome]

/-- The input thread never reads an argument that is not there. -/
theorem processInput_isSome (portDefault : Int32) {inputBuffer : List UInt8}
    (hsize : inputBuffer.length < 2 ^ 31) : (processInput portDefault inputBuffer).isSome := by
  cases inputBuffer with
  | nil => rfl
  | cons c line =>
    simp only [processInput]
    split
    · next hslash =>
      subst hslash
      have hline : (upToNul line).length < 2 ^ 31 := by
        have hle := (List.takeWhile_prefix (fun c : UInt8 => c ≠ 0) (l := line)).length_le
        rw [List.length_cons] at hsize
        exact (hle.trans_lt (Nat.lt_of_succ_lt hsize))
      have hcut : upToNul (47 :: line) = 47 :: upToNul line := rfl
      rw [hcut, processCommand_words hline]
      cases words space (upToNul line) with
      | nil => rfl
      | cons keyword args =>
        simp only [processWords]
        cases hcommand : commandOf keyword args with
        | none => rfl
        | some call =>
          obtain ⟨u, hu, hcall⟩ := Option.bind_eq_some_iff.mp hcommand
          obtain ⟨argv, hargv, rfl⟩ := Option.map_eq_some_iff.mp hcall
          obtain ⟨p, hp⟩ := Option.isSome_iff_exists.mp
            (executeCommand_isSome portDefault (List.mem_of_find?_eq_some hu) hargv)
          simp [hp]
    · rfl

/-- Whatever is typed, no command reads an argument that the parser has not
given it. -/
theorem arguments_present (portDefault : Int32) (typed : List UInt8) :
    (processInput portDefault (readLine 1024 typed)).isSome :=
  processInput_isSome portDefault ((readLine_length 1024 typed).trans_lt (by decide))

end VhIM.Client
