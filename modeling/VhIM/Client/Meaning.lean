import VhIM.Client.Numbers

/-! # What a line means

The input language of the console as a table of orders: a keyword, and what the
words after it ask the server for. The parser, `execute_command` and
`process_input` together send what a line means and nothing else. -/
namespace VhIM.Client
open VhIM.Lib VhIM.Lib.Words VhIM.Network VhIM.Utility

/-- A request made of the words after a keyword. -/
abbrev Reading := List (List UInt8) → Option Request

def number (word : List UInt8) : Option Int32 :=
  if isDecimalNumber word then some (atoi word) else none

namespace Reading

def always (r : Request) : Reading := fun _ => some r

def never : Reading := fun _ => none

def one (f : List UInt8 → Option Request) : Reading
  | w :: _ => f w
  | [] => none

def two (f : List UInt8 → List UInt8 → Option Request) : Reading
  | w :: w' :: _ => f w w'
  | _ => none

/-- A connection is left for another, unless its port is no number. -/
def elsewhere : Reading
  | _ :: port :: _ => if isDecimalNumber port then some .disconnect else none
  | _ => some .disconnect

end Reading

structure Order where
  keyword : List UInt8
  asks : Reading

open Reading in
/-- The orders. Nothing is asked of the server for help, and nothing is done to
delete a group. -/
def orders : List Order :=
  [⟨text "kick", one fun uid => (number uid).map .kick⟩,
   ⟨text "w", two fun uid msg => (number uid).map (.whisper · msg)⟩,
   ⟨text "register", two fun name pw => some (.reqRegister name pw)⟩,
   ⟨text "login", two fun name pw => some (.reqLogin name pw)⟩,
   ⟨text "logout", always .logout⟩,
   ⟨text "who", always .who⟩,
   ⟨text "friends", always .friends⟩,
   ⟨text "help", never⟩,
   ⟨text "connect", elsewhere⟩,
   ⟨text "disconnect", always .disconnect⟩,
   ⟨text "dc", always .disconnect⟩,
   ⟨text "grant", two fun uid lvl => (number uid).bind fun uid =>
      (number lvl).map (.grantPrivileges uid ·)⟩,
   ⟨text "fadd", one fun uid => (number uid).map .addFriend⟩,
   ⟨text "fremove", one fun uid => (number uid).map .removeFriend⟩,
   ⟨text "gcreate", one fun name => some (.groupCreate name)⟩,
   ⟨text "gdelete", never⟩]

/-- What words ask for: the first is the keyword. -/
def ordered : List (List UInt8) → Option Request
  | [] => none
  | keyword :: args => (orders.find? (·.keyword = keyword)).bind (·.asks args)

def meaning : List UInt8 → Option Request
  | [] => none
  | c :: line => if c = 47 then ordered (words space line) else some (.broadcast (c :: line))

/-- What a client that has a connection sends for an action. To connect
elsewhere it leaves first. -/
def Action.sends : Action → Option Request
  | .request r => some r
  | .say msg => some (.broadcast msg)
  | .connect _ _ => some .disconnect
  | .disconnect => some .disconnect
  | .nothing => none

/-- What is sent of a line. -/
def lineSends (portDefault : Int32) (line : List UInt8) : Option Request :=
  (processInput portDefault line).bind Action.sends

/-! ## The program sends what is meant -/

variable {portDefault : Int32} {line : List UInt8} {r : Request}

def callSends (portDefault : Int32) (call : ExecCall) : Option Request :=
  ((executeCommand portDefault call).map Prod.fst).bind Action.sends

def Agrees (portDefault : Int32) (u : Usage) (o : Order) : Prop :=
  u.keyword = o.keyword ∧ ∀ args,
    ((u.arity.argv args).bind fun argv => callSends portDefault ⟨u.code, argv⟩) = o.asks args

theorem agrees_none {keyword : List UInt8} {code : Int32} {o : Reading}
    (h : ∀ args, callSends portDefault ⟨code, none⟩ = o args) :
    Agrees portDefault ⟨keyword, code, .none⟩ ⟨keyword, o⟩ := ⟨rfl, h⟩

theorem agrees_one {keyword : List UInt8} {code : Int32} {f : List UInt8 → Option Request}
    (h : ∀ w, callSends portDefault ⟨code, some [some w]⟩ = f w) :
    Agrees portDefault ⟨keyword, code, .one⟩ ⟨keyword, .one f⟩ := by
  refine ⟨rfl, fun args => ?_⟩
  cases args with
  | nil => rfl
  | cons w _ => exact h w

theorem agrees_two {keyword : List UInt8} {code : Int32}
    {f : List UInt8 → List UInt8 → Option Request}
    (h : ∀ w w', callSends portDefault ⟨code, some [some w, some w']⟩ = f w w') :
    Agrees portDefault ⟨keyword, code, .two⟩ ⟨keyword, .two f⟩ := by
  refine ⟨rfl, fun args => ?_⟩
  match args with
  | [] | [_] => rfl
  | w :: w' :: _ => exact h w w'

theorem agrees_connect : Agrees portDefault ⟨text "connect", cmdConnect, .optional⟩
    ⟨text "connect", .elsewhere⟩ := by
  refine ⟨rfl, fun args => ?_⟩
  have htype : MsgType.ofCode cmdConnect = none := rfl
  match args with
  | [] | [_] => rfl
  | host :: port :: _ =>
    cases h : isDecimalNumber port <;>
      simp [Arity.argv, callSends, executeCommand, htype, Reading.elsewhere, h, Action.sends]

theorem agrees_gdelete : Agrees portDefault ⟨text "gdelete", MsgType.groupDelete.code, .one⟩
    ⟨text "gdelete", .never⟩ := by
  refine ⟨rfl, fun args => ?_⟩
  cases args <;> rfl

/-- Each branch of the parser has its order. -/
theorem orders_agree (portDefault : Int32) :
    List.Forall₂ (Agrees portDefault) usages orders := by
  simp only [usages, orders, List.forall₂_cons, List.Forall₂.nil, and_true]
  refine ⟨agrees_one fun uid => ?_, agrees_two fun uid msg => ?_, agrees_two fun _ _ => rfl,
    agrees_two fun _ _ => rfl, agrees_none fun _ => rfl, agrees_none fun _ => rfl,
    agrees_none fun _ => rfl, agrees_none fun _ => rfl, agrees_connect, agrees_none fun _ => rfl,
    agrees_none fun _ => rfl, agrees_two fun uid lvl => ?_, agrees_one fun uid => ?_,
    agrees_one fun uid => ?_, agrees_one fun _ => rfl, agrees_gdelete⟩
  · cases h : isDecimalNumber uid <;>
      simp [callSends, executeCommand, argument, number, h, Action.sends]
  · cases h : isDecimalNumber uid <;>
      simp [callSends, executeCommand, argument, number, h, Action.sends]
  · cases h : isDecimalNumber uid <;> cases h' : isDecimalNumber lvl <;>
      simp [callSends, executeCommand, argument, number, h, h', Action.sends]
  · cases h : isDecimalNumber uid <;>
      simp [callSends, executeCommand, argument, number, h, Action.sends]
  · cases h : isDecimalNumber uid <;>
      simp [callSends, executeCommand, argument, number, h, Action.sends]

/-- The keyword finds the branch and the order, or neither. -/
theorem find_agrees {us : List Usage} {os : List Order}
    (h : List.Forall₂ (Agrees portDefault) us os) (keyword : List UInt8)
    (args : List (List UInt8)) :
    (os.find? (·.keyword = keyword)).bind (·.asks args) =
      ((us.find? (·.keyword = keyword)).bind fun u => (u.arity.argv args).map (⟨u.code, ·⟩)).bind
        (callSends portDefault) := by
  induction h with
  | nil => rfl
  | @cons u o us os hu _ ih =>
    obtain ⟨hkeyword, hasks⟩ := hu
    by_cases hk : u.keyword = keyword
    · rw [List.find?_cons_of_pos (by simpa using hkeyword ▸ hk),
        List.find?_cons_of_pos (by simpa using hk), Option.bind_some, Option.bind_some, ← hasks,
        Option.bind_map]
      rfl
    · rw [List.find?_cons_of_neg (by simpa using hkeyword ▸ hk),
        List.find?_cons_of_neg (by simpa using hk)]
      exact ih

theorem ordered_eq (portDefault : Int32) (keyword : List UInt8) (args : List (List UInt8)) :
    ordered (keyword :: args) = (commandOf keyword args).bind (callSends portDefault) :=
  find_agrees (orders_agree portDefault) keyword args

/-- Of any line the program sends what it means. -/
theorem lineSends_eq (portDefault : Int32) (hnul : 0 ∉ line) (hlen : line.length < 2 ^ 31) :
    lineSends portDefault line = meaning line := by
  cases line with
  | nil => rfl
  | cons c line =>
    have hcut : upToNul (c :: line) = c :: line := upToNul_eq hnul
    by_cases hslash : c = 47
    · subst hslash
      have hlen' : line.length < 2 ^ 31 := by
        rw [List.length_cons] at hlen
        omega
      simp only [lineSends, processInput, meaning, if_true, hcut, processCommand_words hlen']
      cases hwords : words space line with
      | nil => rfl
      | cons keyword args =>
        rw [ordered_eq portDefault]
        simp only [processWords]
        cases hcall : commandOf keyword args with
        | none => rfl
        | some call =>
          show ((executeCommand portDefault call).bind fun p => some p.1).bind Action.sends = _
          rw [Option.bind_some, callSends, Option.map_eq_bind]
          rfl
    · simp only [lineSends, processInput, meaning, if_neg hslash, hcut]
      rfl

/-! ## The texts of a request -/

def Request.texts (r : Request) : List (List UInt8) :=
  r.fields.filterMap fun
    | .string msg => some msg
    | _ => none

/-- The texts of what is asked are among the words given. -/
def Quotes (f : Reading) : Prop := ∀ args r, f args = some r → r.texts ⊆ args

theorem quotes_never : Quotes .never := nofun

theorem quotes_always (h : r.texts = []) : Quotes (.always r) := by
  intro args r' hr
  cases hr
  rw [h]
  exact List.nil_subset _

theorem quotes_elsewhere : Quotes .elsewhere := by
  intro args r hr
  have hleave : r = .disconnect := by
    unfold Reading.elsewhere at hr
    split at hr
    · split at hr <;> cases hr
      rfl
    · cases hr
      rfl
  subst hleave
  exact List.nil_subset _

theorem quotes_one {f : List UInt8 → Option Request} (h : ∀ w r, f w = some r → r.texts ⊆ [w]) :
    Quotes (.one f) := by
  intro args r hr
  cases args with
  | nil => cases hr
  | cons w _ => exact List.Subset.trans (h w r hr) (by simp)

theorem quotes_two {f : List UInt8 → List UInt8 → Option Request}
    (h : ∀ w w' r, f w w' = some r → r.texts ⊆ [w, w']) : Quotes (.two f) := by
  intro args r hr
  match args with
  | [] | [_] => cases hr
  | w :: w' :: _ => exact List.Subset.trans (h w w' r hr) (by simp)

/-- There is no text in what is made of one number alone. -/
theorem texts_number {f : Int32 → Request} (hf : ∀ i, (f i).texts = []) (w : List UInt8)
    (r : Request) (h : (number w).map f = some r) : r.texts ⊆ [w] := by
  obtain ⟨i, _, rfl⟩ := Option.map_eq_some_iff.mp h
  rw [hf i]
  exact List.nil_subset _

theorem quotes_orders : ∀ o ∈ orders, Quotes o.asks := by
  simp only [orders, List.forall_mem_cons, List.not_mem_nil, false_imp_iff, implies_true, and_true]
  refine ⟨quotes_one (texts_number fun _ => rfl), quotes_two fun uid msg r h => ?_,
    quotes_two fun name pw r h => ?_, quotes_two fun name pw r h => ?_, quotes_always rfl,
    quotes_always rfl, quotes_always rfl, quotes_never, quotes_elsewhere, quotes_always rfl,
    quotes_always rfl, quotes_two fun uid lvl r h => ?_, quotes_one (texts_number fun _ => rfl),
    quotes_one (texts_number fun _ => rfl), quotes_one fun name r h => ?_, quotes_never⟩
  · obtain ⟨i, _, rfl⟩ := Option.map_eq_some_iff.mp h
    exact List.subset_cons_self _ _
  · cases h
    exact List.Subset.refl _
  · cases h
    exact List.Subset.refl _
  · obtain ⟨i, _, h⟩ := Option.bind_eq_some_iff.mp h
    obtain ⟨j, _, rfl⟩ := Option.map_eq_some_iff.mp h
    exact List.nil_subset _
  · cases h
    exact List.Subset.refl _

theorem ordered_texts {ws : List (List UInt8)} (h : ordered ws = some r) : r.texts ⊆ ws := by
  cases ws with
  | nil => cases h
  | cons keyword args =>
    obtain ⟨o, ho, hasks⟩ := Option.bind_eq_some_iff.mp h
    have hargs : r.texts ⊆ args := quotes_orders o (List.mem_of_find?_eq_some ho) args r hasks
    exact fun msg hmsg => List.mem_cons_of_mem _ (hargs hmsg)

/-- Every text of a request stands in the line. -/
theorem meaning_texts (h : meaning line = some r) : ∀ msg ∈ r.texts, msg <:+: line := by
  intro msg hmsg
  cases line with
  | nil => cases h
  | cons c line =>
    rw [meaning] at h
    split at h
    · have hword : msg <:+: line := mem_words_within (ordered_texts h hmsg)
      exact hword.trans (List.suffix_cons c line).isInfix
    · cases h
      obtain rfl := List.mem_singleton.mp hmsg
      exact List.infix_refl _

/-- So they are NUL-free if the line is. -/
theorem meaning_nulFree (h : meaning line = some r) (hnul : 0 ∉ line) :
    ∀ f ∈ r.fields, f.NulFree := by
  intro f hf
  cases f with
  | string msg =>
    have hmsg : msg ∈ r.texts := List.mem_filterMap.mpr ⟨_, hf, rfl⟩
    exact fun h0 => hnul ((meaning_texts h msg hmsg).subset h0)
  | _ => trivial

theorem encodeFields_length_le {fs : List Field} {n : Nat}
    (h : ∀ msg, .string msg ∈ fs → msg.length ≤ n) :
    (encodeFields fs).length ≤ fs.length * (n + 5) := by
  induction fs with
  | nil => exact Nat.zero_le _
  | cons f fs ih =>
    have hrest := ih fun msg hmsg => h msg (List.mem_cons_of_mem _ hmsg)
    have hfirst : f.encode.length ≤ n + 5 := by
      cases f with
      | bool b => simp [Field.encode, bcFromBool]
      | int i => simp [Field.encode, bcFromInt_length]
      | string msg =>
        have hle := h msg List.mem_cons_self
        rw [Field.encode, stringBytes_length]
        omega
    rw [encodeFields, List.flatMap_cons, List.length_append, List.length_cons, Nat.add_one_mul]
    rw [encodeFields] at hrest
    omega

/-- There are at most two fields, and none is longer than the line and its
frame. -/
theorem meaning_size (h : meaning line = some r) : r.body.length ≤ 2 * (line.length + 5) := by
  have hfew : r.fields.length ≤ 2 := by cases r <;> simp [Request.fields]
  refine (encodeFields_length_le fun msg hmsg => ?_).trans (Nat.mul_le_mul_right _ hfew)
  have htext : msg ∈ r.texts := List.mem_filterMap.mpr ⟨_, hmsg, rfl⟩
  exact (meaning_texts h msg htext).length_le

end VhIM.Client
